import DaosOperator.Safety.Completion
import DaosOperator.Safety.NewerEvidence

/-!
# The wait for the pool's query

A container that DAOS refused to open, and whose pool lacks nothing but a query that is
younger than the refusal, waits for that query.  The wait is a time in the memory of the
process.  Here is what becomes of it: the container is not queried meanwhile, the time
stays what it was, and the wait ends with the heal, with another obstacle, or at its
deadline.
-/

namespace DaosOperator

open Effect
open DaosOperator.System (namespaceOf)
open Container (contKey rfPendingMax)

variable {res : Dmg.Result} {c : DaosContainer} {pool : DaosPool}

namespace Container

open Pool (requeueWait)

/-- Nothing but a younger query of the pool is missing. -/
def freshMissing (pool : DaosPool) (q : Time) : Bool :=
  match unclear pool q with
  | some (.stale _) => true
  | _ => false

/-- The time that is remembered after a decision: that of the query, while nothing but a younger
query of the pool is missing and the deadline is ahead. -/
def keptMark (pool : DaosPool) (q now : Time) : Option Time :=
  if freshMissing pool q = true ∧ now < q + rfPendingMax then some q else none

/-! ## What leaves the marks alone -/

def leavesMarks : Call → Bool
  | .rfPendingSet _ _ | .rfPendingClear _ => false
  | _ => true

theorem mark_of_leavesMarks {call : Call} (h : leavesMarks call = true) (f : Fault) (w : World)
    (k : String) : (cluster.respond call f w).2.memory.rfPending.get k =
      w.memory.rfPending.get k := by
  have hcall := markCall w k call f
  generalize (cluster.respond call f w).2.memory.rfPending.get k = mark at hcall ⊢
  cases hcall with
  | same => rfl
  | marked _ _ => cases h
  | cleared _ => cases h

/-- A program that touches no mark. -/
abbrev Aside {α : Type} (p : Op α) : Prop :=
  p.Obeys (fun call => leavesMarks call = true) fun _ => True

section Aside

variable {c : DaosContainer} {pool : DaosPool} {sys : DaosSystem} {ns : String}
  {st : DaosContainerStatus}

theorem aside_run (spec : Dmg.RunSpec) : Aside (Dmg.run spec) := by
  refine (Dmg.obeys_run spec).mono ?_ fun _ h => h
  intro call h
  cases h <;> rfl

theorem aside_updateStatus (st : DaosContainerStatus) (requeue : Duration) :
    Aside (updateStatus c st requeue) :=
  Prog.obeys_ask_bind rfl fun _ => trivial

theorem aside_setFinalizer (present : Bool) (requeue : Duration) :
    Aside (setFinalizer c present requeue) := by
  refine Prog.obeys_ask_bind rfl ?_
  rintro (_ | _) <;> trivial

theorem aside_reportUnclean (why : String) : Aside (reportUnclean c pool st why) :=
  Prog.obeys_ask_bind rfl fun _ => aside_updateStatus _ _

theorem aside_startOp (op : Operation) : Aside (startOp c pool sys ns st op) :=
  (aside_run _).mapError.bind fun _ _ => Prog.obeys_ask_bind rfl fun _ => aside_updateStatus _ _

theorem aside_destroyContainer : Aside (destroyContainer c pool sys ns st) := by
  refine Prog.obeys_ask_bind rfl fun wait => ?_
  refine Prog.obeys_ite (fun _ => trivial) fun _ => ?_
  refine (aside_run _).mapError.bind fun res _ => ?_
  refine Prog.obeys_ite (fun _ => ?_) fun _ => ?_
  · exact Prog.obeys_ite (fun _ => trivial) fun _ => aside_updateStatus _ _
  · split
    · exact Prog.obeys_ask_bind rfl fun _ => Prog.obeys_ask_bind rfl fun _ => aside_updateStatus _ _
    · exact Prog.obeys_ask_bind rfl fun _ => aside_setFinalizer _ _

theorem aside_finalize : Aside (finalize c pool sys ns st) := by
  refine Prog.obeys_ite (fun _ => trivial) fun _ => ?_
  refine Prog.obeys_ite (fun _ => ?_) fun _ => aside_destroyContainer
  refine Prog.Obeys.bind (P := fun _ => True) ?_ fun _ _ => aside_setFinalizer _ _
  refine Prog.obeys_ite (fun _ => trivial) fun _ => ?_
  exact Prog.obeys_ask (S := fun call => leavesMarks call = true) rfl

end Aside

/-! ## What becomes of a mark -/

section Mark

variable {rely : Entry Call World → Prop} {s : Point Call World} {c : DaosContainer}
  {pool : DaosPool} {sys : DaosSystem} {ns : String} {st : DaosContainerStatus} {q : Time}

def MarkIs (c : DaosContainer) (mark : Option Time) (t : Point Call World) : Prop :=
  t.world.memory.rfPending.get (contKey c.key) = mark

theorem Aside.wp {α : Type} {p : Op α} (hp : Aside p) {mark : Option Time} (hs : MarkIs c mark s) :
    p.wp cluster rely s (fun _ => MarkIs c mark) (MarkIs c mark) := by
  refine Prog.wp_mono (Prog.Obeys.wp hp ?_ hs) (fun _ _ h => h.2) fun _ h => h
  intro call f t hcall _ _ ht
  exact (mark_of_leavesMarks hcall f t.world _).trans ht

theorem answered_inProcess {call : Call} (h : call.inProcess = true) (f : Fault)
    (hf : cluster.Admits call f) : f = .none := by
  rcases hf with rfl | hf
  · rfl
  · simp [cluster, h] at hf

/-- `rfExceeded` keeps the time or forgets it. -/
theorem wp_rfExceeded_mark {now : Time} (hclock : s.world.clock = now) :
    (rfExceeded c pool sys ns st q).wp cluster rely s (fun _ => MarkIs c (keptMark pool q now))
      (MarkIs c (keptMark pool q now)) := by
  refine Prog.wp_answered (fun f hf _ => answered_inProcess rfl f hf) ?_
  have hcleared : MarkIs c none (cluster.next s (.rfPendingClear (contKey c.key)) .none) := by
    simp [MarkIs, cluster, Handler.respond, perform]
  unfold keptMark freshMissing
  cases hunclear : unclear pool q with
  | none =>
      rw [if_neg (by simp)]
      exact Aside.wp (Prog.obeys_ask_bind rfl fun _ => aside_startOp _) hcleared
  | some why =>
      cases why with
      | reason why =>
          rw [if_neg (by simp)]
          exact Aside.wp (aside_reportUnclean _) hcleared
      | stale last =>
          refine Prog.wp_answered (fun f hf _ => answered_inProcess rfl f hf) ?_
          have hnow : (cluster.perform .now
              (cluster.next s (.rfPendingClear (contKey c.key)) .none).world).1 = now := hclock
          rw [hnow]
          by_cases hage : now < q + rfPendingMax
          · rw [if_pos hage, if_pos ⟨rfl, hage⟩]
            refine Prog.wp_answered (fun f hf _ => answered_inProcess rfl f hf) ?_
            refine Aside.wp (aside_reportUnclean _) ?_
            simp [MarkIs, cluster, Handler.respond, perform]
          · rw [if_neg hage, if_neg fun h => hage h.2]
            exact Aside.wp (Prog.obeys_ask_bind rfl fun _ => aside_reportUnclean _) hcleared

/-! ## What becomes of the heal -/

/-- `run` found a Job of that name in the world, created one, or had a call that failed. -/
def Started (w : World) (spec : Dmg.RunSpec) (log : Log) : Prop :=
  (w.jobs.get spec.key).isSome = true ∨ (∃ x ∈ log, created x = some spec) ∨
    ∃ x ∈ log, Dmg.RunCall spec x.call ∧ x.fault ≠ .none

theorem Started.append {w : World} {spec : Dmg.RunSpec} {log : Log} (h : Started w spec log)
    (new : Log) : Started w spec (log ++ new) := by
  rcases h with h | ⟨x, hx, h⟩ | ⟨x, hx, h⟩
  · exact Or.inl h
  · exact Or.inr (Or.inl ⟨x, List.mem_append_left _ hx, h⟩)
  · exact Or.inr (Or.inr ⟨x, List.mem_append_left _ hx, h⟩)

theorem wp_run_started (spec : Dmg.RunSpec) : (Dmg.run spec).wp cluster rely s
    (fun _ t => Started s.world spec t.log) fun t => Started s.world spec t.log := by
  -- it returns with a Job under the name, and fails on one of its calls
  have hreturns : (Dmg.run spec).wp cluster rely s
      (fun _ t => Started s.world spec t.log) fun _ => True := by
    refine Dmg.wp_run (I := fun _ => True) (fun _ _ _ _ _ _ => trivial) trivial
      (fun _ _ => trivial) ?_ ?_ ?_
    · intro t _ hworld hfree
      refine Prog.wp_ask (fun _ => ?_) fun _ _ _ _ => trivial
      refine Or.inr (Or.inl ⟨_, List.mem_append_right _ (List.mem_singleton_self _), ?_⟩)
      exact created_eq_some.mpr ⟨rfl, rfl, by rw [hworld]; exact hfree⟩
    · intro t job _ _ hjob
      exact Or.inl (by simp [hjob])
    · intro t job failure _ _ hjob _ _
      exact Prog.wp_ask (fun _ => Or.inl (by simp [hjob])) fun _ _ _ _ => trivial
  have hcalls : (Dmg.run spec).wp cluster rely s
      (fun _ t => True ∧ ∃ new, t.log = s.log ++ new ∧ ∀ x ∈ new, Dmg.RunCall spec x.call)
      fun t => ∃ new, t.log = s.log ++ new ∧ ∀ x ∈ new, Dmg.RunCall spec x.call := by
    refine (Dmg.obeys_run spec).wp ?_ ⟨[], by simp, by simp⟩
    rintro call f t hcall - - ⟨new, hnew, hall⟩
    refine ⟨new ++ [⟨call, f, t.world⟩], by simp [hnew], ?_⟩
    intro x hx
    rcases List.mem_append.mp hx with hx | hx
    · exact hall x hx
    · rw [List.mem_singleton.mp hx]
      exact hcall
  refine Prog.wp_mono (Prog.wp_and hreturns (Prog.wp_and hcalls (Dmg.steady_run spec).wp))
    (fun _ _ h => h.1) ?_
  rintro t ⟨-, ⟨new, hnew, hall⟩, new', hnew', y, hy, hfault⟩
  obtain rfl : new = new' := List.append_cancel_left (hnew.symm.trans hnew')
  refine Or.inr (Or.inr ⟨y, ?_, hall y hy, hfault⟩)
  rw [hnew]
  exact List.mem_append_right _ hy

/-- `rfExceeded` starts the heal once the pool is known to be whole. -/
theorem wp_rfExceeded_heal (hwhole : unclear pool q = none) :
    (rfExceeded c pool sys ns st q).wp cluster rely s
      (fun _ t => Started s.world (opSpec c pool sys ns (.op .heal)) t.log)
      fun t => Started s.world (opSpec c pool sys ns (.op .heal)) t.log := by
  refine Prog.wp_answered (fun f hf _ => answered_inProcess rfl f hf) ?_
  simp only [hwhole]
  refine Prog.wp_answered (fun f hf _ => answered_inProcess rfl f hf) ?_
  refine Prog.wp_bind (Prog.wp_mapError.mpr (wp_run_started _)) ?_
  intro _ t ht
  refine Prog.wp_mono (Prog.wp_log _) ?_ ?_
  · rintro _ u ⟨new, hnew⟩
    rw [hnew]
    exact ht.append new
  · rintro u ⟨new, hnew⟩
    rw [hnew]
    exact ht.append new

end Mark

/-! ## Up to the decision -/

section Reads

variable {w : World} {rely : Entry Call World → Prop} {c : DaosContainer} {pool : DaosPool}
  {sys : DaosSystem} {key : ObjectKey} {A : Duration → Point Call World → Prop}
  {W : Point Call World → Prop}

/-- The calls that read the container, its pool and its system. -/
def readsObject : Call → Bool
  | .getContainer _ | .getPool _ | .getSystemCached _ => true
  | _ => false

def Answered (x : Entry Call World) : Prop := readsObject x.call = true → x.fault = .none

/-- A reconcile whose reads are answered comes to the container with nothing done. -/
theorem wp_reconcile_reads (hc : cached w.containers key = some c) (h : Reaches w c pool sys)
    (hrest : ∀ t : Point Call World, t.world = w → (∀ x ∈ t.log, x.call.quiet = true) →
      (reconcileIn c pool sys).wp cluster Answered t A W) :
    (reconcile key).wp cluster Answered ⟨w, []⟩ A W := by
  refine Prog.wp_answered (fun f _ hrely => hrely rfl) ?_
  have hcont : (cluster.perform (.getContainer key) w).1 = some c := hc
  simp only [hcont]
  refine Prog.wp_answered (fun f _ hrely => hrely rfl) ?_
  generalize hs : cluster.next ⟨w, []⟩ (.getContainer key) .none = s
  have hworld : s.world = w := by
    rw [← hs]
    rfl
  have hpool : (cluster.perform (.getPool c.spec.poolRef) s.world).1 = some pool := by
    rw [hworld]
    exact h.inPool
  simp only [hpool]
  refine Prog.wp_answered (fun f _ hrely => hrely rfl) ?_
  generalize ht : cluster.next s (.getPool c.spec.poolRef) .none = t
  have hsame : t.world = w := by
    rw [← ht]
    exact hworld
  have hsys : (cluster.perform (.getSystemCached pool.spec.systemRef) t.world).1 = some sys := by
    rw [hsame]
    exact h.inSystem
  simp only [hsys]
  refine hrest _ hsame ?_
  rw [Handler.next_log, ← ht, Handler.next_log, ← hs, Handler.next_log]
  simp [Call.quiet]

/-- A reconcile of a container that waits decides the query it waits with. -/
theorem wp_reconcile_marked {q : Time} (hc : cached w.containers key = some c)
    (h : Serves w c pool sys) (hidle : c.status.operation = none)
    (hmark : w.memory.rfPending.get (contKey c.key) = some q)
    (hrest : ∀ t : Point Call World, t.world = w →
      (rfExceeded c pool sys (namespaceOf sys) c.status q).wp cluster Answered t A W) :
    (reconcile key).wp cluster Answered ⟨w, []⟩ A W := by
  refine wp_reconcile_reads hc h.toReaches fun t hworld _ => ?_
  unfold reconcileIn
  dsimp only
  rw [if_neg (by simp [h.finalizer]), if_neg (by simp [h.live]), if_neg h.created, hidle]
  refine Prog.wp_answered (fun f hf _ => answered_inProcess rfl f hf) ?_
  have hsince : (cluster.perform (.rfPendingSince (contKey c.key)) t.world).1 = some q := by
    rw [hworld]
    exact hmark
  simp only [hsince]
  exact hrest _ hworld

/-- A reconcile of a container that is being deleted forgets what it waited with. -/
theorem wp_reconcile_deleting (hc : cached w.containers key = some c) (h : Reaches w c pool sys)
    (hdeleting : c.deleting = true) :
    (reconcile key).wp cluster Answered ⟨w, []⟩ (fun _ => MarkIs c none) (MarkIs c none) := by
  refine wp_reconcile_reads hc h fun t hworld _ => ?_
  unfold reconcileIn
  dsimp only
  rw [if_neg (by simp [hdeleting]), if_pos hdeleting]
  refine Prog.wp_answered (fun f hf _ => answered_inProcess rfl f hf) ?_
  refine Aside.wp aside_finalize ?_
  simp [MarkIs, cluster, Handler.respond, perform]

theorem readsJob_next {s : Point Call World} {k : ObjectKey} (call : Call) (f : Fault)
    (hs : readsJob s.log k = false) (hcall : call = .deleteJob k → f ≠ .none) :
    readsJob (cluster.next s call f).log k = false := by
  rw [Handler.next_log, readsJob, List.any_append, Bool.or_eq_false_iff]
  refine ⟨hs, ?_⟩
  rw [List.any_cons, List.any_nil, Bool.or_false]
  split
  · next other heq =>
      have hother : call = .deleteJob other := heq
      by_cases hk : other = k
      · subst hk
        simpa using hcall hother
      · simp [hk]
  · rfl

theorem done_of_resultOf {k : ObjectKey} (h : Dmg.resultOf w k = some res) :
    res.done = true := by
  obtain ⟨job, -, hif⟩ := Option.bind_eq_some_iff.mp h
  split at hif
  · cases hif
  · obtain ⟨failure, -, rfl⟩ := Option.map_eq_some_iff.mp hif
    exact Dmg.done_jobResult failure job

theorem wp_run_reads {spec : Dmg.RunSpec} {s : Point Call World}
    (hs : readsJob s.log spec.key = false) (hres : Dmg.resultOf s.world spec.key = some res) :
    (Dmg.run spec).wp cluster rely s
      (fun r t => r.done = false ∧ readsJob t.log spec.key = false ∨
        r = res ∧ t.world.clock = s.world.clock)
      fun t => readsJob t.log spec.key = false := by
  refine Dmg.wp_run (I := fun t => readsJob t.log spec.key = false) ?_ hs (fun _ h => h) ?_ ?_ ?_
  · intro call f t hquiet _ ht
    refine readsJob_next call f ht ?_
    rintro rfl
    cases hquiet
  · intro t ht _ _
    refine Prog.wp_ask (fun _ => Or.inl ⟨rfl, ?_⟩) fun f _ _ _ => ?_
    · exact readsJob_next _ _ ht (by rintro ⟨⟩)
    · exact readsJob_next _ _ ht (by rintro ⟨⟩)
  · intro t job ht _ _
    exact Or.inl ⟨rfl, ht⟩
  · intro t job failure ht hworld hjob hlive hfinished
    refine Prog.wp_ask (fun _ => Or.inr ⟨?_, ?_⟩) fun f hf _ _ => ?_
    · simpa [Dmg.resultOf, hjob, hlive, hfinished] using hres
    · rw [← hworld, Handler.next_world]
      simp only [cluster, Handler.respond, perform]
      split <;> rfl
    · exact readsJob_next _ _ ht fun _ => hf

/-- A reconcile that reads a refused query begins to wait, unless it knows enough already. -/
theorem wp_reconcile_refused (hc : cached w.containers key = some c)
    (h : Idle w c pool sys)
    (hres : Dmg.resultOf w (jobKey c.key (namespaceOf sys) .query) = some res)
    (hrf : Dmg.rfExceeded res.output = true) {Q : Point Call World → Prop}
    (hQ : Q = fun t => readsJob t.log (jobKey c.key (namespaceOf sys) .query) = true →
      MarkIs c (keptMark pool (res.queriedAt w.clock) w.clock) t) :
    (reconcile key).wp cluster Answered ⟨w, []⟩ (fun _ => Q) Q := by
  have hunread : ∀ t : Point Call World,
      readsJob t.log (jobKey c.key (namespaceOf sys) .query) = false → Q t := by
    intro t ht
    rw [hQ]
    intro hread
    rw [ht] at hread
    cases hread
  refine wp_reconcile_reads hc h.toReaches fun t hworld hquiet => ?_
  have ht : readsJob t.log (jobKey c.key (namespaceOf sys) .query) = false := by
    rw [readsJob, List.any_eq_false]
    intro x hx
    have hcall := hquiet x hx
    split
    · next heq =>
        rw [heq] at hcall
        cases hcall
    · simp
  unfold reconcileIn
  dsimp only
  rw [if_neg (by simp [h.finalizer]), if_neg (by simp [h.live]), if_neg h.created, h.idle]
  refine Prog.wp_answered (fun f hf _ => answered_inProcess rfl f hf) ?_
  have hsince : (cluster.perform (.rfPendingSince (contKey c.key)) t.world).1 = none := by
    rw [hworld]
    exact h.unmarked
  simp only [hsince]
  refine Prog.wp_answered (fun f hf _ => answered_inProcess rfl f hf) ?_
  have hstart := readsJob_next (.holdFor (contKey c.key)) .none
    (readsJob_next (.rfPendingSince (contKey c.key)) .none ht (by rintro ⟨⟩)) (by rintro ⟨⟩)
  refine Prog.wp_ite (fun _ => hunread _ hstart) fun _ => ?_
  refine Prog.wp_bind (Prog.wp_mapError.mpr (Prog.wp_mono
    (wp_run_reads hstart (by rw [← hres, ← hworld]; rfl)) (fun _ _ h => h) hunread)) ?_
  rintro r u (⟨hdone, hu⟩ | ⟨rfl, hclock⟩)
  · rw [if_pos (by simp [hdone])]
    refine Prog.wp_bind (A := fun _ => Q) (Prog.wp_ask (fun _ => ?_) fun f _ _ _ => ?_)
      fun _ _ h => h
    · exact hunread _ (readsJob_next _ _ hu (by rintro ⟨⟩))
    · exact hunread _ (readsJob_next _ _ hu (by rintro ⟨⟩))
  · rw [if_neg (by simp [done_of_resultOf hres])]
    refine Prog.wp_answered (fun f hf _ => answered_inProcess rfl f hf) ?_
    unfold readQuery
    rw [if_pos hrf]
    -- the clock stands still in a reconcile
    generalize hv : cluster.next u (.setHold (contKey c.key) requeueWait) .none = v
    have hvclock : v.world.clock = w.clock := by
      rw [← hv, ← hworld]
      exact hclock
    refine Prog.wp_answered (fun f hf _ => answered_inProcess rfl f hf) ?_
    have hnow : (cluster.perform .now v.world).1 = w.clock := hvclock
    rw [hnow]
    refine Prog.wp_mono (wp_rfExceeded_mark hvclock) ?_ ?_
    · intro _ t ht
      rw [hQ]
      exact fun _ => ht
    · intro t ht
      rw [hQ]
      exact fun _ => ht

end Reads

end Container

/-! ## The property -/

/-- What a step does to a container that waits with the time `q`. -/
structure WaitStep (step : Step) (key : ObjectKey) (q : Time) : Prop where
  /-- The container is not queried. -/
  unqueried : jobsFor isContainerQuery (.container key) step = []
  /-- The time stays the same, or the wait ends. -/
  kept : step.after.memory.rfPending.get (contKey key) = some q ∨
    step.after.memory.rfPending.get (contKey key) = none
  /-- Nothing but a reconcile of the container and a restart ends the wait. -/
  waits : step.event.container ≠ some key → step.event ≠ .change .restart →
    step.after.memory.rfPending.get (contKey key) = some q
  /-- A reconcile compares with the time `q`: the wait goes on while nothing but a younger query
  of the pool is missing and the deadline is ahead. -/
  decides : step.event.container = some key →
    ∀ c ∈ cached step.before.containers key, c.deleting = false →
      ∀ pool ∈ cached step.before.pools c.spec.poolRef,
        step.after.memory.rfPending.get (contKey key) =
          Container.keptMark pool q step.before.clock
  /-- A reconcile that finds the pool whole starts the heal, unless `run` fails. -/
  heals : step.event.container = some key →
    ∀ c ∈ cached step.before.containers key, c.deleting = false →
      ∀ pool ∈ cached step.before.pools c.spec.poolRef,
        ∀ sys ∈ cached step.before.systems pool.spec.systemRef,
          Container.unclear pool q = none →
            Container.Started step.before
              (Container.opSpec c pool sys (namespaceOf sys) (.op .heal)) step.obs
  /-- A reconcile at the deadline or later ends the wait. -/
  ends : step.event.container = some key → q + rfPendingMax ≤ step.before.clock →
    step.after.memory.rfPending.get (contKey key) = none

/-- What a step that reads a refused query of an idle container does: the wait begins if
nothing but a younger query of the pool is missing. -/
structure WaitBegins (step : Step) (key : ObjectKey) (q : Time) (pool : DaosPool) : Prop where
  unqueried : jobsFor isContainerQuery (.container key) step = []
  decides : step.after.memory.rfPending.get (contKey key) =
    Container.keptMark pool q step.before.clock

/-- A refused query is waited with, and the wait keeps its time. -/
def WaitKept (_ : List Step) (step : Step) : Prop :=
  ∀ key, '/' ∉ key.ns.toList →
    match step.before.memory.rfPending.get (contKey key) with
    | some q => WaitStep step key q
    | none => ∀ d ∈ refusedQuery key step, ∀ c ∈ cached step.before.containers key,
        c.finalizer = true → c.deleting = false → c.status.operation = none →
          ∀ pool ∈ cached step.before.pools c.spec.poolRef, WaitBegins step key d.1 pool

/-! ## What it rests on -/

/-- The container waits, or the next thing to read of it is a refused query. -/
def awaits (w : World) (key : ObjectKey) : Bool :=
  (w.memory.rfPending.get (contKey key)).isSome ||
    (containerQueryKey w key).any fun k =>
      (Dmg.resultOf w k).any fun res => Dmg.rfExceeded res.output

instance (x : Entry Call World) : Decidable (Container.Answered x) :=
  inferInstanceAs (Decidable (Container.readsObject x.call = true → x.fault = .none))

/-- From the refusal on, a reconcile of the container is answered what is stored, and finds the
pool, which is created, and the system; a namespace has no slash in its name. -/
def ReadsCurrent (_ : List Step) (step : Step) : Prop :=
  ∀ key ∈ step.event.container, '/' ∉ key.ns.toList ∧ (awaits step.before key = true →
    upToDate step.before (.container key) = true ∧ (∀ x ∈ step.obs, Container.Answered x) ∧
      ∀ c ∈ cached step.before.containers key,
        ∃ pool ∈ cached step.before.pools c.spec.poolRef, pool.status.uuid ≠ "" ∧
          (cached step.before.systems pool.spec.systemRef).isSome = true)
  deriving Decidable

/-! ## What a refusal excludes -/

namespace Container

variable {w : World} {log : Log} {c : DaosContainer} {pool pool' : DaosPool}
  {sys sys' : DaosSystem} {q q' : Time}

theorem Reaches.unique (h : Reaches w c pool sys) (h' : Reaches w c pool' sys') :
    pool = pool' ∧ sys = sys' := by
  obtain rfl : pool = pool' := Option.some.inj (h.inPool.symm.trans h'.inPool)
  exact ⟨rfl, Option.some.inj (h.inSystem.symm.trans h'.inSystem)⟩

/-- A reconcile that goes by a refusal reads no other answer. -/
theorem Marked.refused_of_queried (h : Marked w log c pool sys q)
    (hres : Queried w log c pool' sys' res) : queryAnswer res = .refused := by
  cases h with
  | remembered _ _ hmark => cases hres.unmarked.symm.trans hmark
  | read h hanswer _ =>
      obtain ⟨rfl, rfl⟩ := h.toReaches.unique hres.toReaches
      rw [Option.some.inj (hres.read.1.symm.trans h.read.1)]
      exact hanswer

/-- A reconcile goes by one refusal. -/
theorem Marked.unique (h : Marked w log c pool sys q) (h' : Marked w log c pool' sys' q') :
    pool = pool' ∧ q = q' := by
  obtain ⟨rfl, rfl⟩ := h.reaches.unique h'.reaches
  refine ⟨rfl, ?_⟩
  cases h with
  | remembered _ _ hmark =>
      cases h' with
      | remembered _ _ hmark' => exact Option.some.inj (hmark.symm.trans hmark')
      | read h' _ _ => cases h'.unmarked.symm.trans hmark
  | read h _ hq =>
      cases h' with
      | remembered _ _ hmark' => cases h.unmarked.symm.trans hmark'
      | read h' _ hq' =>
          rw [hq, hq', Option.some.inj (h.read.1.symm.trans h'.read.1)]

theorem Marked.idle (h : Marked w log c pool sys q) : c.status.operation = none := by
  cases h with
  | remembered _ hidle _ => exact hidle
  | read h _ _ => exact h.idle

/-- A container that was refused, and whose pool is not known to be whole, stays idle. -/
theorem Move.idle_of_marked {st : DaosContainerStatus} (h : Move w log c st)
    (hmarked : Marked w log c pool sys q) (hunclear : Container.unclear pool q ≠ none) :
    st.operation = none := by
  have hkeeps : st.record = c.status.record → st.operation = none := by
    intro hst
    have hop := congrArg DaosContainerStatus.operation hst
    exact hop.trans hmarked.idle
  cases h with
  | unreached _ _ hst _ _ | poolNotReady _ _ _ hst _ | waits _ hst _ | unclear _ _ hst _
  | missing _ _ _ hst _ | keeps _ _ _ _ hst _ | reports _ _ hst _ => exact hkeeps hst
  | creates h _ _ => cases h.absent.symm.trans (hmarked.refused_of_queried h.toQueried)
  | settles h _ _ _ _ | drifts h _ _ _ =>
      cases h.answer.symm.trans (hmarked.refused_of_queried h.toQueried)
  | heals h hwhole _ _ =>
      obtain ⟨rfl, rfl⟩ := hmarked.unique h
      exact absurd hwhole hunclear
  | fails _ _ hst _ =>
      have hop := congrArg DaosContainerStatus.operation hst
      exact hop
  | succeeds _ _ hst _ =>
      have hop := congrArg DaosContainerStatus.operation hst
      exact hop.trans (applyOp_operation _ _ _ _ _)
  | destroys h _ _ _ _ _ =>
      have hdeleting := h.gate.1
      rw [hmarked.serves.live] at hdeleting
      cases hdeleting

end Container

/-! ## What a run keeps -/

/-- What a run keeps: a container that waits is held by its finalizer and idle. -/
structure Waiting (_ : List Step) (w : World) : Prop where
  named : WellNamed w
  held : ∀ key q, '/' ∉ key.ns.toList → w.memory.rfPending.get (contKey key) = some q →
    ∃ c, stored w.containers key = some c ∧ c.finalizer = true ∧ c.status.operation = none

section Steps

variable {past : List Step} {w : World} {e : Event} {key : ObjectKey}
variable {faults : List Fault} {q : Time}

/-- A mark is cleared by the reconcile of its container. -/
theorem container_of_clear {x : Entry Call World} {k : String} (hx : x ∈ (operator.step w e).2)
    (hcall : x.call = .rfPendingClear k) :
    ∃ key faults c, e = .reconcileContainer key faults ∧
      cached w.containers key = some c ∧ k = contKey c.key := by
  have h := stepCall_of_mem hx
  rw [hcall] at h
  cases h with
  | quiet h => cases h
  | system _ h =>
      cases h with
      | quiet h => cases h
  | pool _ h =>
      cases h with
      | quiet h => cases h
  | container hcont h =>
      cases h with
      | quiet h => cases h
      | unmarks _ => exact ⟨_, _, _, rfl, hcont, rfl⟩
      | forgets _ _ => exact ⟨_, _, _, rfl, hcont, rfl⟩

/-- Only a reconcile of the container and a restart touch its mark. -/
theorem mark_elsewhere (hw : WellNamed w) (hreads : ReadsCurrent past (operator.record w e))
    (hvalid : '/' ∉ key.ns.toList) (he : e.container ≠ some key) (hrestart : e ≠ .change .restart) :
    (operator.step w e).1.memory.rfPending.get (contKey key) =
      w.memory.rfPending.get (contKey key) := by
  -- a mark of another container stands under another key
  have hother : ∀ {key' : ObjectKey} {faults : List Fault} {c : DaosContainer},
      e = .reconcileContainer key' faults → cached w.containers key' = some c →
        contKey key ≠ contKey c.key := by
    rintro key' faults c rfl hcont hkeys
    rw [hw.containers.cached hcont] at hkeys
    exact he (by rw [contKey_inj hvalid (hreads key' rfl).1 hkeys]; rfl)
  refine (step_replay (w := w) (e := e) (I := fun v =>
    v.memory.rfPending.get (contKey key) = w.memory.rfPending.get (contKey key)) rfl ?_ ?_).1
  · intro x hx hkept
    have hcall := markCall x.before (contKey key) x.call x.fault
    generalize hc : x.call = call at hcall ⊢
    generalize (cluster.respond call x.fault x.before).2.memory.rfPending.get (contKey key) =
      mark at hcall ⊢
    cases hcall with
    | same => exact hkept
    | marked _ _ =>
        obtain ⟨_, _, _, _, _, hevent, hcont, hkeys, -⟩ := marked_of_set hx hc
        exact absurd hkeys (hother hevent hcont)
    | cleared _ =>
        obtain ⟨_, _, _, hevent, hcont, hkeys⟩ := container_of_clear hx hc
        exact absurd hkeys (hother hevent hcont)
  · rintro c rfl
    rcases mark_change w (contKey key) c with h | ⟨rfl, -⟩
    · exact h
    · exact absurd rfl hrestart

structure Reading (w : World) (log : Log) (key : ObjectKey) (c : DaosContainer) (pool : DaosPool)
    (sys : DaosSystem) : Prop extends Container.Reaches w c pool sys where
  read : cached w.containers key = some c
  stored : DaosOperator.stored w.containers key = some c
  key : c.key = key
  created : pool.status.uuid ≠ ""
  answered : ∀ x ∈ log, Container.Answered x

theorem reading_of_awaits (hw : WellNamed w)
    (hreads : ReadsCurrent past (operator.record w (.reconcileContainer key faults)))
    (hawaits : awaits w key = true) (hc : cached w.containers key = some c) :
    ∃ pool sys, Reading w (operator.step w (.reconcileContainer key faults)).2 key c pool sys := by
  obtain ⟨hcurrent, hanswered, hhome⟩ := (hreads key rfl).2 hawaits
  obtain ⟨pool, hpool, huuid, hsome⟩ := hhome c hc
  obtain ⟨sys, hsys⟩ := Option.isSome_iff_exists.mp hsome
  have hsame : cached w.containers key = stored w.containers key := by
    simp only [upToDate, Bool.and_eq_true, decide_eq_true_eq] at hcurrent
    exact hcurrent.1
  exact ⟨pool, sys, ⟨hpool, hsys⟩, hc, hsame.symm.trans hc, hw.containers.cached hc, huuid,
    hanswered⟩

/-- A container that waits is read as it is held. -/
theorem Waiting.reading (hinv : Waiting past w)
    (hreads : ReadsCurrent past (operator.record w (.reconcileContainer key faults)))
    (hmark : w.memory.rfPending.get (contKey key) = some q) :
    ∃ c pool sys, Reading w (operator.step w (.reconcileContainer key faults)).2 key c pool sys ∧
      c.finalizer = true ∧ c.status.operation = none := by
  have hawaits : awaits w key = true := by simp [awaits, hmark]
  obtain ⟨c, hstored, hfinalizer, hidle⟩ := hinv.held key q (hreads key rfl).1 hmark
  obtain ⟨hcurrent, -⟩ := (hreads key rfl).2 hawaits
  have hsame : cached w.containers key = stored w.containers key := by
    simp only [upToDate, Bool.and_eq_true, decide_eq_true_eq] at hcurrent
    exact hcurrent.1
  obtain ⟨pool, sys, hreading⟩ := reading_of_awaits hinv.named hreads hawaits (hsame.trans hstored)
  exact ⟨c, pool, sys, hreading, hfinalizer, hidle⟩

theorem Reading.serves {log : Log} {sys : DaosSystem}
    (h : Reading w log key c pool sys) (hfinalizer : c.finalizer = true)
    (hlive : c.deleting = false) : Container.Serves w c pool sys :=
  ⟨h.toReaches, hfinalizer, hlive, h.created⟩

/-- A reconcile of a container that waits keeps the time or forgets it. -/
theorem mark_of_reconcile {sys : DaosSystem}
    (h : Reading w (operator.step w (.reconcileContainer key faults)).2 key c pool sys)
    (hfinalizer : c.finalizer = true) (hlive : c.deleting = false)
    (hidle : c.status.operation = none)
    (hmark : w.memory.rfPending.get (contKey key) = some q) :
    (operator.step w (.reconcileContainer key faults)).1.memory.rfPending.get (contKey key) =
      Container.keptMark pool q w.clock := by
  rw [← h.key] at hmark
  have hends := Prog.exec_ends (Container.wp_reconcile_marked h.read (h.serves hfinalizer hlive)
    hidle hmark fun t ht => Container.wp_rfExceeded_mark (by rw [ht])) faults h.answered
  rw [Container.MarkIs, h.key] at hends
  exact hends

theorem mark_of_deleting {sys : DaosSystem}
    (h : Reading w (operator.step w (.reconcileContainer key faults)).2 key c pool sys)
    (hdeleting : c.deleting = true) :
    (operator.step w (.reconcileContainer key faults)).1.memory.rfPending.get (contKey key) =
      none := by
  have hends := Prog.exec_ends
    (Container.wp_reconcile_deleting h.read h.toReaches hdeleting) faults h.answered
  rw [Container.MarkIs, h.key] at hends
  exact hends

/-- A reconcile of a container that goes on waiting goes by a refusal. -/
theorem marked_of_waits (hinv : Waiting past w)
    (hreads : ReadsCurrent past (operator.record w (.reconcileContainer key faults)))
    (hafter : (operator.step w (.reconcileContainer key faults)).1.memory.rfPending.get
      (contKey key) = some q) :
    ∃ c pool sys, Reading w (operator.step w (.reconcileContainer key faults)).2 key c pool sys ∧
      Container.Marked w (operator.step w (.reconcileContainer key faults)).2 c pool sys q ∧
        Container.unclear pool q ≠ none := by
  cases hmark : w.memory.rfPending.get (contKey key) with
  | some q₀ =>
      obtain ⟨c, pool, sys, hreading, hfinalizer, hidle⟩ := hinv.reading hreads hmark
      cases hlive : c.deleting with
      | true => cases (mark_of_deleting hreading hlive).symm.trans hafter
      | false =>
          have hkept := (mark_of_reconcile hreading hfinalizer hlive hidle hmark).symm.trans hafter
          unfold Container.keptMark at hkept
          split at hkept
          · next hmissing =>
              cases hkept
              refine ⟨c, pool, sys, hreading, .remembered (hreading.serves hfinalizer hlive) hidle
                (by rw [hreading.key]; exact hmark), fun hnone => ?_⟩
              simp [Container.freshMissing, hnone] at hmissing
          · cases hkept
  | none =>
      -- the mark was set in this reconcile
      have hreplay := step_replay (w := w) (e := .reconcileContainer key faults) (I := fun v =>
        v.memory.rfPending.get (contKey key) = some q →
          ∃ x ∈ (operator.step w (.reconcileContainer key faults)).2,
            x.call = .rfPendingSet (contKey key) q) ?_ ?_ ?_
      · obtain ⟨x, hx, hcall⟩ := hreplay.1 hafter
        obtain ⟨key', faults', c, pool, sys, hevent, hcont, -, hmarked, last, hstale⟩ :=
          marked_of_set hx hcall
        cases hevent
        have hname : c.key = key := hinv.named.containers.cached hcont
        have hawaits : awaits w key = true := by
          cases hmarked with
          | remembered _ _ hbefore =>
              rw [hname, hmark] at hbefore
              cases hbefore
          | read h hanswer _ =>
              have hkey : containerQueryKey w key =
                  some (Container.jobKey c.key (namespaceOf sys) .query) := by
                simp [containerQueryKey, hcont, h.inPool, h.inSystem]
              simp [awaits, hkey, h.read.1, Container.rfExceeded_of_refused hanswer]
        obtain ⟨pool', sys', hreading⟩ := reading_of_awaits hinv.named hreads hawaits hcont
        obtain ⟨rfl, rfl⟩ := hmarked.reaches.unique hreading.toReaches
        exact ⟨c, pool, sys, hreading, hmarked, by simp [hstale]⟩
      · rw [hmark]
        rintro ⟨⟩
      · intro x hx hkept hq
        have hcall := markCall x.before (contKey key) x.call x.fault
        rw [hq] at hcall
        generalize hc : x.call = call at hcall
        generalize hm : some q = mark at hcall
        cases hcall with
        | same => exact hkept hm.symm
        | marked _ q' =>
            cases hm
            exact ⟨x, hx, hc⟩
        | cleared _ => cases hm
      · rintro c ⟨⟩

/-- Only a reconcile of the container writes it; one that goes by a refusal leaves it held by
its finalizer and idle. -/
theorem held_of_reconcile (hw : WellNamed w) (he : ∀ c, e ≠ .change c)
    (hstored : stored w.containers key = some c) (hfinalizer : c.finalizer = true)
    (hidle : c.status.operation = none)
    (hown : ∀ faults, e = .reconcileContainer key faults →
      ∀ cont, cached w.containers key = some cont → ∃ pool sys q,
        Container.Marked w (operator.step w e).2 cont pool sys q ∧
          Container.unclear pool q ≠ none) :
    ∃ c, stored (operator.step w e).1.containers key = some c ∧ c.finalizer = true ∧
      c.status.operation = none := by
  refine (step_replay (w := w) (e := e) (I := fun v => ∃ c, stored v.containers key = some c ∧
    c.finalizer = true ∧ c.status.operation = none) ⟨c, hstored, hfinalizer, hidle⟩ ?_
    fun c hc => absurd hc (he c)).1
  rintro x hx ⟨c, hstored, hfinalizer, hidle⟩
  -- nobody takes the finalizer off a container that is worked on
  have hpresent : ∀ present, x.call = .setContainerFinalizer key present → present = true := by
    intro present hcall
    have h := stepCall_of_mem hx
    rw [hcall] at h
    cases h with
    | quiet h => cases h
    | system _ h =>
        cases h with
        | quiet h => cases h
    | pool _ h =>
        cases h with
        | quiet h => cases h
    | container hcont h =>
        have hname := hw.containers.cached hcont
        generalize hset : Call.setContainerFinalizer key present = call at h
        cases h with
        | quiet h =>
            subst hset
            cases h
        | holds _ _ =>
            cases hset
            rfl
        | releases _ hdeleting _ | orphans _ hdeleting =>
            cases hset
            subst hname
            obtain ⟨pool, sys, q, hmarked, -⟩ := hown _ rfl _ hcont
            rw [hmarked.serves.live] at hdeleting
            cases hdeleting
        | destroyed h =>
            cases hset
            subst hname
            obtain ⟨pool, sys, q, hmarked, -⟩ := hown _ rfl _ hcont
            have hdeleting := h.gate.1
            rw [hmarked.serves.live] at hdeleting
            cases hdeleting
        | _ => cases hset
  rcases (containerCell_call x.before key x.call x.fault).stored with
    hsame | ⟨_, _, hfresh, _⟩ | ⟨cell, hcell, hwrite⟩
  · exact ⟨c, hsame.trans hstored, hfinalizer, hidle⟩
  · exact hfresh.elim
  · generalize hcall : x.call = call at hwrite ⊢
    generalize hnew : stored (cluster.respond call x.fault x.before).2.containers key =
      new at hwrite ⊢
    cases hwrite with
    | status h =>
        obtain rfl := Option.some.inj ((stored_of_cell hcell h).symm.trans hstored)
        obtain ⟨faults, cont, rfl, hcont, hmove⟩ := move_of_updateContainerStatus hw hx hcall
        obtain ⟨pool, sys, q, hmarked, hunclear⟩ := hown _ rfl cont hcont
        exact ⟨_, rfl, hfinalizer, hmove.idle_of_marked hmarked hunclear⟩
    | finalizer h _ _ =>
        obtain rfl := Option.some.inj ((stored_of_cell hcell h).symm.trans hstored)
        exact ⟨_, rfl, hpresent _ hcall, hidle⟩
    | gone h _ hgone =>
        rw [hpresent _ hcall] at hgone
        simp at hgone

theorem Waiting.held_step (hinv : Waiting past w) (hreads : ReadsCurrent past (operator.record w e))
    (hvalid : '/' ∉ key.ns.toList)
    (hafter : (operator.step w e).1.memory.rfPending.get (contKey key) = some q) :
    ∃ c, stored (operator.step w e).1.containers key = some c ∧ c.finalizer = true ∧
      c.status.operation = none := by
  by_cases hown : e.container = some key
  · obtain ⟨faults, rfl⟩ := Event.eq_of_container hown
    obtain ⟨c, pool, sys, hreading, hmarked, hunclear⟩ := marked_of_waits hinv hreads hafter
    refine held_of_reconcile hinv.named (by rintro c ⟨⟩) hreading.stored
      hmarked.serves.finalizer hmarked.idle ?_
    rintro _ _ cont hcont
    obtain rfl := Option.some.inj (hreading.read.symm.trans hcont)
    exact ⟨pool, sys, q, hmarked, hunclear⟩
  · have hrestart : e ≠ .change .restart := by
      rintro rfl
      cases hafter
    have hbefore := (mark_elsewhere hinv.named hreads hvalid hown hrestart).symm.trans hafter
    obtain ⟨c, hstored, hfinalizer, hidle⟩ := hinv.held key q hvalid hbefore
    by_cases he : ∃ change, e = .change change
    · obtain ⟨change, rfl⟩ := he
      rcases (containerCell_change w key change).stored with
        hsame | ⟨hnone, _⟩ | ⟨cell, hcell, hedit⟩
      · exact ⟨c, hsame.trans hstored, hfinalizer, hidle⟩
      · cases hnone.symm.trans hstored
      · change ∃ c, stored (change.apply w).containers key = some c ∧ _
        generalize stored (change.apply w).containers key = new at hedit ⊢
        cases hedit with
        | edit h | annotate h | delete h _ =>
            obtain rfl := Option.some.inj ((stored_of_cell hcell h).symm.trans hstored)
            exact ⟨_, rfl, hfinalizer, hidle⟩
        | remove h hgone =>
            obtain rfl := Option.some.inj ((stored_of_cell hcell h).symm.trans hstored)
            cases hgone.symm.trans hfinalizer
    · refine held_of_reconcile hinv.named (fun c hc => he ⟨c, hc⟩) hstored hfinalizer hidle ?_
      rintro faults rfl
      exact absurd rfl hown

/-- A query Job is created for an idle container that does not wait. -/
theorem Container.Act.of_query {log : Log} {spec : Dmg.RunSpec}
    (h : Container.Act w c log (.createJob spec))
    (hquery : isContainerQuery spec.command.args = true) :
    ∃ pool sys, spec = Container.opSpec c pool sys (namespaceOf sys) .query ∧
      Container.Idle w c pool sys := by
  generalize hcall : Call.createJob spec = call at h
  cases h with
  | quiet h =>
      subst hcall
      cases h
  | query h =>
      cases hcall
      exact ⟨_, _, rfl, h⟩
  | @polls pool sys op _ _ =>
      cases hcall
      cases op <;> cases hquery
  | creates _ | drifts _ _ | heals _ _ | destroys _ =>
      cases hcall
      cases hquery
  | _ => cases hcall

/-- A step queries a container only when it does not wait and has no query Job. -/
theorem unqueried_of (hc : cached w.containers key = some c)
    (hbusy : ∀ pool sys, Container.Idle w c pool sys →
      (w.jobs.get (Container.jobKey c.key (namespaceOf sys) .query)).isSome = true) :
    jobsFor isContainerQuery (.container key) (operator.record w e) = [] := by
  by_contra hjobs
  obtain ⟨j, hj⟩ := List.exists_mem_of_ne_nil _ hjobs
  obtain ⟨ho, x, hx, spec, hcreated, hquery⟩ := created_of_jobsFor hj
  obtain ⟨hcall, -, hnone⟩ := created_eq_some.mp hcreated
  have h := stepCall_of_mem hx
  rw [hcall] at h
  cases h with
  | quiet h => cases h
  | system _ _ => cases ho
  | pool _ _ => cases ho
  | container hcont h =>
      cases ho
      obtain rfl := Option.some.inj (hc.symm.trans hcont)
      obtain ⟨pool, sys, rfl, hidle⟩ := h.of_query hquery
      have hstill := job_of_mem (hbusy pool sys hidle) (by rintro c ⟨⟩) hx
      rw [show x.before.jobs.get (Container.jobKey c.key (namespaceOf sys) .query) = none
        from hnone] at hstill
      cases hstill

theorem waitStep_own (hinv : Waiting past w)
    (hreads : ReadsCurrent past (operator.record w (.reconcileContainer key faults)))
    (hmark : w.memory.rfPending.get (contKey key) = some q) :
    WaitStep (operator.record w (.reconcileContainer key faults)) key q := by
  obtain ⟨c, pool, sys, hreading, hfinalizer, hidle⟩ := hinv.reading hreads hmark
  have hread : ∀ c', cached w.containers key = some c' → c' = c :=
    fun c' hc' => Option.some.inj (hc'.symm.trans hreading.read)
  have hpool : ∀ pool', cached w.pools c.spec.poolRef = some pool' → pool' = pool :=
    fun pool' h => Option.some.inj (h.symm.trans hreading.inPool)
  have hsys : ∀ sys', cached w.systems pool.spec.systemRef = some sys' → sys' = sys :=
    fun sys' h => Option.some.inj (h.symm.trans hreading.inSystem)
  -- a container that is being deleted stops waiting
  have hafter : (operator.step w (.reconcileContainer key faults)).1.memory.rfPending.get
      (contKey key) = if c.deleting then none else Container.keptMark pool q w.clock := by
    cases hlive : c.deleting with
    | true => exact mark_of_deleting hreading hlive
    | false => exact mark_of_reconcile hreading hfinalizer hlive hidle hmark
  constructor
  case unqueried =>
    refine unqueried_of hreading.read fun pool sys h => ?_
    have hunmarked := h.unmarked
    rw [hreading.key, hmark] at hunmarked
    cases hunmarked
  case kept =>
    have hcases : (if c.deleting then none else Container.keptMark pool q w.clock) = some q ∨
        (if c.deleting then none else Container.keptMark pool q w.clock) = none := by
      unfold Container.keptMark
      split
      · exact Or.inr rfl
      · split
        · exact Or.inl rfl
        · exact Or.inr rfl
    rw [← hafter] at hcases
    exact hcases
  case waits => exact fun hother => absurd rfl hother
  case decides =>
    rintro - c' hc' hlive pool' hpool'
    obtain rfl := hread c' hc'
    obtain rfl := hpool pool' hpool'
    exact mark_of_reconcile hreading hfinalizer hlive hidle hmark
  case heals =>
    rintro - c' hc' hlive pool' hpool' sys' hsys' hwhole
    obtain rfl := hread c' hc'
    obtain rfl := hpool pool' hpool'
    obtain rfl := hsys sys' hsys'
    have hends := Prog.exec_ends (Container.wp_reconcile_marked hreading.read
      (hreading.serves hfinalizer hlive) hidle (by rw [hreading.key]; exact hmark)
      (W := fun t => Container.Started w
        (Container.opSpec c' pool' sys' (namespaceOf sys') (.op .heal)) t.log)
      fun t ht => by
        rw [← ht]
        exact Container.wp_rfExceeded_heal hwhole) faults hreading.answered
    exact hends
  case ends =>
    rintro - hdeadline
    have hkept : Container.keptMark pool q w.clock = none := by
      unfold Container.keptMark
      exact if_neg fun h => absurd h.2 (not_lt.mpr hdeadline)
    refine hafter.trans ?_
    split
    · rfl
    · exact hkept

theorem waitStep_other (hinv : Waiting past w) (hreads : ReadsCurrent past (operator.record w e))
    (hvalid : '/' ∉ key.ns.toList) (he : e.container ≠ some key)
    (hmark : w.memory.rfPending.get (contKey key) = some q) :
    WaitStep (operator.record w e) key q := by
  have hsame : e ≠ .change .restart →
      (operator.step w e).1.memory.rfPending.get (contKey key) = some q :=
    fun hrestart => (mark_elsewhere hinv.named hreads hvalid he hrestart).trans hmark
  constructor
  case unqueried =>
    refine if_neg fun ho => he ?_
    cases e <;> cases ho
    rfl
  case kept =>
    by_cases hrestart : e = .change .restart
    · subst hrestart
      exact Or.inr rfl
    · exact Or.inl (hsame hrestart)
  case waits => exact fun _ => hsame
  case decides => exact fun hown => absurd hown he
  case heals => exact fun hown => absurd hown he
  case ends => exact fun hown => absurd hown he

theorem waitBegins_step (hinv : Waiting past w) (hreads : ReadsCurrent past (operator.record w e))
    (hmark : w.memory.rfPending.get (contKey key) = none) {d : Time × Nat}
    (hd : refusedQuery key (operator.record w e) = some d)
    (hc : cached w.containers key = some c) (hfinalizer : c.finalizer = true)
    (hlive : c.deleting = false) (hidle : c.status.operation = none)
    (hpool : cached w.pools c.spec.poolRef = some pool) :
    WaitBegins (operator.record w e) key d.1 pool := by
  unfold refusedQuery at hd
  split at hd
  · next hown =>
      obtain ⟨faults, rfl⟩ := Event.eq_of_container hown
      obtain ⟨k, hk, hif⟩ := Option.bind_eq_some_iff.mp hd
      split at hif
      · next hjob =>
          obtain ⟨job, hget, hif⟩ := Option.bind_eq_some_iff.mp hif
          obtain ⟨res, hres, hif⟩ := Option.bind_eq_some_iff.mp hif
          split at hif
          · next hrf =>
              cases hif
              have hk' : containerQueryKey w key = some k := hk
              have hres' : Dmg.resultOf w k = some res := hres
              have hawaits : awaits w key = true := by simp [awaits, hk', hres', hrf]
              obtain ⟨pool', sys, hreading⟩ := reading_of_awaits hinv.named hreads hawaits hc
              obtain rfl := Option.some.inj (hpool.symm.trans hreading.inPool)
              obtain rfl : Container.jobKey c.key (namespaceOf sys) .query = k := by
                simpa [containerQueryKey, hc, hreading.inPool, hreading.inSystem] using hk'
              have hunmarked : w.memory.rfPending.get (contKey c.key) = none := by
                rw [hreading.key]
                exact hmark
              refine ⟨unqueried_of hc fun pool' sys' h => ?_, ?_⟩
              · obtain ⟨rfl, rfl⟩ := hreading.toReaches.unique h.toReaches
                have hget' : w.jobs.get _ = some job := hget
                simp [hget']
              · have hends := Prog.exec_ends (Container.wp_reconcile_refused hc
                  ⟨hreading.serves hfinalizer hlive, hidle, hunmarked⟩ hres' hrf rfl) faults
                  hreading.answered
                have hafter := hends hjob
                rw [Container.MarkIs, hreading.key] at hafter
                exact hafter
          · cases hif
      · cases hif
  · cases hd

theorem waitKept_step (hinv : Waiting past w) (hreads : ReadsCurrent past (operator.record w e)) :
    WaitKept past (operator.record w e) := by
  intro key hvalid
  change match w.memory.rfPending.get (contKey key) with
    | some q => WaitStep _ key q
    | none => _
  cases hmark : w.memory.rfPending.get (contKey key) with
  | some q =>
      by_cases hown : e.container = some key
      · obtain ⟨faults, rfl⟩ := Event.eq_of_container hown
        exact waitStep_own hinv hreads hmark
      · exact waitStep_other hinv hreads hvalid hown hmark
  | none =>
      intro d hd c hc hfinalizer hlive hidle pool hpool
      exact waitBegins_step hinv hreads hmark hd hc hfinalizer hlive hidle hpool

end Steps

/-- A container that DAOS refused to open waits for its pool with the time of the refusal. -/
theorem wait_kept (events : List Event) (hreads : Along ReadsCurrent [] (history events)) :
    Along WaitKept [] (history events) := by
  refine Machine.along_induction (I := Waiting) ?_ ?_ events hreads
  · intro past w e hinv hreads
    exact ⟨waitKept_step hinv hreads, hinv.named.step e,
      fun key q hvalid hafter => hinv.held_step hreads hvalid hafter⟩
  · exact ⟨wellNamed_empty, by simp⟩

/-- The container waits through a reconcile; then its pool is queried, and it is cleared. -/
def waitedRun : List Event :=
  refusedRun ++ contPass ⟨"a", "c"⟩ ++ poolQueried (wholeOutput "incremental") ++
    contPass ⟨"a", "c"⟩

/-- The container is refused at 70, and healed when the pool was queried after that. -/
theorem wait_kept_waitedRun :
    ((final refusedRun).memory.rfPending.get (contKey ⟨"a", "c"⟩) = some 70 ∧
      ∃ step ∈ history waitedRun, jobsFor isHeal (.container ⟨"a", "c"⟩) step ≠ []) ∧
      Along WaitKept [] (history waitedRun) := by
  have hrun : ((final refusedRun).memory.rfPending.get (contKey ⟨"a", "c"⟩) = some 70 ∧
      ∃ step ∈ history waitedRun, jobsFor isHeal (.container ⟨"a", "c"⟩) step ≠ []) ∧
        Along ReadsCurrent [] (history waitedRun) := by
    decide +kernel
  exact ⟨hrun.1, wait_kept waitedRun hrun.2⟩

end DaosOperator
