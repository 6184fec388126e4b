import DaosOperator.Container.Reconcile
import DaosOperator.Pool.Footprint

/-!
# What a `DaosContainer` reconcile can touch

The calls of a reconcile of one container, for arbitrary answers of the API server.
As for a pool, a destroy is run for a container that is being deleted with an
approval, and where the status already names the operation.
-/

namespace DaosOperator.Container

open Effect

/-- The container may be destroyed: it is being deleted, a human approved, and it exists. -/
def DestroyGate (c : DaosContainer) : Prop :=
  c.deleting = true ∧ c.destroyApproved = some "true" ∧ c.status.uuid ≠ ""

/-- A destroy is polled for a container that is not being deleted. -/
def StrayDestroy (c : DaosContainer) : Prop :=
  c.deleting = false ∧ c.status.operation = some .destroy

/-- The calls of a reconcile of a container. -/
inductive ContainerCall (c : DaosContainer) : Call → Prop where
  | quiet {call : Call} (h : call.quiet = true) : ContainerCall c call
  | setHold (key : String) (interval : Duration) : ContainerCall c (.setHold key interval)
  | clearHold (key : String) : ContainerCall c (.clearHold key)
  | rfPendingSet (key : String) (t : Time) : ContainerCall c (.rfPendingSet key t)
  | rfPendingClear (key : String) : ContainerCall c (.rfPendingClear key)
  | createJob (pool : DaosPool) (sys : DaosSystem) (ns : String) (job : ContJob)
      (hdestroy : job = .op .destroy → DestroyGate c ∨ StrayDestroy c) :
      ContainerCall c (.createJob (opSpec c pool sys ns job))
  | deleteJob (ns : String) (job : ContJob) : ContainerCall c (.deleteJob (jobKey c.key ns job))
  | status (st : DaosContainerStatus)
      (h : st.operation = some .destroy →
        c.deleting = true ∨ c.status.operation = some .destroy) :
      ContainerCall c (.updateContainerStatus c.key st)
  | finalizer (present : Bool) : ContainerCall c (.setContainerFinalizer c.key present)

variable {c : DaosContainer} {pool : DaosPool} {st : DaosContainerStatus}

theorem operation_applyOp (env : Dmg.Envelope) (op : Operation) :
    (applyOp c pool st env op).1.operation = st.operation := by
  cases op with
  | create =>
      simp only [applyOp]
      split <;> rfl
  | acl | extend | reintMode | selfHeal | destroy | heal => rfl

/-! ## Frames -/

namespace ContainerCall

variable {call : Call} {f : Fault} {w : World}

theorem systemSide (h : ContainerCall c call) :
    System.systemSide (cluster.respond call f w).2 = System.systemSide w := by
  refine System.respond_keeps (g := System.systemSide) ?_
  cases h with
  | quiet h => rw [perform_quiet h]
  | createJob pool sys ns job _ =>
      simp only [perform]
      split <;> rfl
  | deleteJob ns job =>
      simp only [perform]
      split <;> rfl
  | _ => rfl

theorem pools (h : ContainerCall c call) : (cluster.respond call f w).2.pools = w.pools := by
  refine System.respond_keeps (g := World.pools) ?_
  cases h with
  | quiet h => rw [perform_quiet h]
  | createJob pool sys ns job _ =>
      simp only [perform]
      split <;> rfl
  | deleteJob ns job =>
      simp only [perform]
      split <;> rfl
  | _ => rfl

theorem jobs_get (h : ContainerCall c call) {key : ObjectKey}
    (hkey : ∀ ns job, key ≠ jobKey c.key ns job) :
    (cluster.respond call f w).2.jobs.get key = w.jobs.get key := by
  refine System.respond_keeps (g := fun w => w.jobs.get key) ?_
  cases h with
  | quiet h => rw [perform_quiet h]
  | createJob pool sys ns job _ =>
      have hne : key ≠ (opSpec c pool sys ns job).key := hkey ns job
      simp only [perform]
      split
      · rfl
      · exact w.jobs.get_put_of_ne hne _
  | deleteJob ns job =>
      simp only [perform]
      split
      · rfl
      · exact w.jobs.get_put_of_ne (hkey ns job) _
  | _ => rfl

end ContainerCall

end DaosOperator.Container
