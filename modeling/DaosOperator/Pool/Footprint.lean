import DaosOperator.Pool.Reconcile
import DaosOperator.System.Frame

/-!
# What a `DaosPool` reconcile can touch

The calls of a reconcile of one pool, for arbitrary answers of the API server, and
what they leave alone.  A Job that destroys the pool is run from two places only:
for a pool that is being deleted with an approval, and where the status already
names the operation.
-/

namespace DaosOperator.Pool

open Effect

/-- The pool may be destroyed: it is being deleted, a human approved, and it exists. -/
def DestroyGate (pool : DaosPool) : Prop :=
  pool.deleting = true ∧ pool.annotations.destroyApproved = some "true" ∧ pool.status.uuid ≠ ""

/-- A destroy is polled for a pool that is not being deleted. -/
def StrayDestroy (pool : DaosPool) : Prop :=
  pool.deleting = false ∧ pool.status.operation = some .destroy

/-- The calls of a reconcile of a pool. -/
inductive PoolCall (pool : DaosPool) : Call → Prop where
  | quiet {c : Call} (h : c.quiet = true) : PoolCall pool c
  | setHold (key : String) (interval : Duration) : PoolCall pool (.setHold key interval)
  | clearHold (key : String) : PoolCall pool (.clearHold key)
  | createJob (pool' : DaosPool) (sys : DaosSystem) (ns : String) (job : PoolJob)
      (hname : pool'.name = pool.name) (hspec : pool'.spec = pool.spec)
      (hdestroy : job = .op .destroy → DestroyGate pool ∨ StrayDestroy pool) :
      PoolCall pool (.createJob (opSpec pool' sys ns job))
  | deleteJob (ns : String) (job : PoolJob) : PoolCall pool (.deleteJob (jobKey pool.name ns job))
  | status (st : DaosPoolStatus)
      (h : st.operation = some .destroy →
        pool.deleting = true ∨ pool.status.operation = some .destroy) :
      PoolCall pool (.updatePoolStatus pool.name st)
  | finalizer (present : Bool) : PoolCall pool (.setPoolFinalizer pool.name present)

variable {pool : DaosPool} {sys : DaosSystem} {st : DaosPoolStatus}

/-! ## The operation in the status -/

theorem operation_applyOp {env : Dmg.Envelope} {op : Operation} {st' : DaosPoolStatus}
    {ev : Option (String × String)} (h : applyOp pool st env op = .ok (st', ev)) :
    st'.operation = st.operation := by
  cases op with
  | create =>
      simp only [applyOp] at h
      cases hcreate : Dmg.poolCreate env with
      | error e => simp [hcreate, Except.map] at h
      | ok r =>
          simp only [hcreate, Except.map, Except.ok.injEq, Prod.mk.injEq] at h
          rw [← h.1]
  | acl | extend | reintMode | selfHeal | destroy | heal =>
      simp only [applyOp, Except.ok.injEq, Prod.mk.injEq] at h
      rw [← h.1]

theorem drift_ne_destroy {op : Operation} (h : drift pool st = some op) : op ≠ .destroy := by
  rintro rfl
  simp only [drift, ite_eq_iff, Option.some.injEq, reduceCtorEq, and_false, or_false] at h

theorem operation_checkSpace : (checkSpace pool st).1.operation = st.operation := by
  unfold checkSpace
  extract_lets threshold used percent st' was msg
  repeat' split
  all_goals rfl

theorem operation_setDegraded : (setDegraded pool sys st).operation = st.operation := by
  unfold setDegraded
  extract_lets down
  split
  · rfl
  · exact (apply_ite DaosPoolStatus.operation _ _ _).trans (ite_self _)

/-! ## Frames -/

namespace PoolCall

variable {c : Call} {f : Fault} {w : World}

theorem systemSide (h : PoolCall pool c) :
    System.systemSide (cluster.respond c f w).2 = System.systemSide w := by
  refine System.respond_keeps (g := System.systemSide) ?_
  cases h with
  | quiet h => rw [perform_quiet h]
  | createJob pool' sys ns job _ _ _ =>
      simp only [perform]
      split <;> rfl
  | deleteJob ns job =>
      simp only [perform]
      split <;> rfl
  | _ => rfl

theorem containers (h : PoolCall pool c) :
    (cluster.respond c f w).2.containers = w.containers := by
  refine System.respond_keeps (g := World.containers) ?_
  cases h with
  | quiet h => rw [perform_quiet h]
  | createJob pool' sys ns job _ _ _ =>
      simp only [perform]
      split <;> rfl
  | deleteJob ns job =>
      simp only [perform]
      split <;> rfl
  | _ => rfl

theorem jobs_get (h : PoolCall pool c) {key : ObjectKey}
    (hkey : ∀ ns job, key ≠ jobKey pool.name ns job) :
    (cluster.respond c f w).2.jobs.get key = w.jobs.get key := by
  refine System.respond_keeps (g := fun w => w.jobs.get key) ?_
  cases h with
  | quiet h => rw [perform_quiet h]
  | createJob pool' sys ns job hname _ _ =>
      have hne : key ≠ (opSpec pool' sys ns job).key := by
        simp only [opSpec, hname]
        exact hkey ns job
      simp only [perform]
      split
      · rfl
      · exact w.jobs.get_put_of_ne hne _
  | deleteJob ns job =>
      simp only [perform]
      split
      · rfl
      · exact w.jobs.get_put_of_ne (hkey ns job) _
  | _ => rfl

end PoolCall

end DaosOperator.Pool
