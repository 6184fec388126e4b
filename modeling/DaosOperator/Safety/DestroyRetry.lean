import DaosOperator.Safety.Lifetimes

/-!
# Retries of a stalled destroy

After a few failed destroys of a pool the reconcile asks to be called again only after a
long delay.  The delay is a wish: nothing in the status says when the next destroy is due,
so any reconcile that finds the pool approved and the last destroy Job gone starts the next
one.  The delay is kept as long as no such reconcile comes early.
-/

namespace DaosOperator

open Effect
open DaosOperator.System (namespaceOf)

/-- The entry records that a destroy of the pool failed. -/
def recordsFailure (name : String) (x : Entry Call World) : Bool :=
  match x.call with
  | .updatePoolStatus other st =>
      other = name && x.fault.effective && st.operation.isNone &&
        (st.readyReason = some "DestroyFailed" || st.readyReason = some "DestroyStalled")
  | _ => false

/-- When the latest failure of a destroy of the pool was recorded. -/
def lastFailure (past : List Step) (name : String) : Option Time :=
  (past.find? fun r => r.obs.any (recordsFailure name)).map (·.before.clock)

/-- The stored pool has failed to be destroyed too often. -/
def stalled (w : World) (name : String) : Bool :=
  (stored w.pools name).any fun p => Pool.destroyStallAfter ≤ p.status.destroyAttempts

/-- The latest failure lies the delay of a stalled destroy back. -/
def delayOver (past : List Step) (step : Step) (name : String) : Bool :=
  (lastFailure past name).all fun t => t + Pool.destroyStalledRetry ≤ step.before.clock

/-- A stalled destroy is retried after the delay only. -/
def RetriesSlowly (past : List Step) (step : Step) : Prop :=
  ∀ name ∈ step.event.pool, stalled step.before name = true →
    destroyJobs (.pool name) step ≠ [] → delayOver past step name = true
  deriving Decidable

/-- The reconcile reads a deleted pool that exists and may be destroyed. -/
def readsApproved (w : World) (name : String) : Bool :=
  (seen w (.pool name)).any fun f => f.deleting && f.approved && f.uuid ≠ ""

/-- A stalled pool that may be destroyed is not reconciled early once its destroy Job is gone. -/
def WokenInTime (past : List Step) (step : Step) : Prop :=
  ∀ name ∈ step.event.pool, stalled step.before name = true →
    readsApproved step.before name = true →
      ∀ key ∈ destroyKey step.before (.pool name), step.before.jobs.get key = none →
        delayOver past step name = true
  deriving Decidable

/-! ## Steps -/

/-- A Job for a deleted pool is its destroy Job. -/
theorem Pool.Act.key_of_deleting {w : World} {pool : DaosPool} {log : Log} {spec : Dmg.RunSpec}
    (h : Pool.Act w pool log (.createJob spec)) (hdeleting : pool.deleting = true) :
    ∃ sys, cached w.systems pool.spec.systemRef = some sys ∧
      spec.key = Pool.jobKey pool.name (namespaceOf sys) (.op .destroy) := by
  have hlive : ∀ {sys : DaosSystem}, ¬Pool.Serves w pool sys := by
    intro sys hserves
    simp [hserves.live] at hdeleting
  generalize hcall : Call.createJob spec = call at h
  cases h with
  | quiet h =>
      subst hcall
      cases h
  | query h _ => exact absurd h hlive
  | polls h _ => exact absurd h hlive
  | creates h => exact absurd h.toServes hlive
  | drifts h => exact absurd h.toServes hlive
  | destroys hsys _ =>
      cases hcall
      exact ⟨_, hsys, rfl⟩
  | _ => cases hcall

/-- A destroy Job is created for a pool that is read as approved, and whose last destroy Job
is gone. -/
theorem destroyKey_of_destroyJobs {w : World} {e : Event} {name : String}
    (hw : ReadsDeleted w (.pool name))
    (h : destroyJobs (.pool name) (operator.record w e) ≠ []) :
    readsApproved w name = true ∧
      ∃ key, destroyKey w (.pool name) = some key ∧ w.jobs.get key = none := by
  obtain ⟨j, hj⟩ := List.exists_mem_of_ne_nil _ h
  obtain ⟨f, hseen, hdeleting, happroved, huuid⟩ := gate_of_destroyJobs hw hj
  refine ⟨by simp [readsApproved, hseen, hdeleting, happroved, huuid], ?_⟩
  obtain ⟨ho, x, hx, spec, hcreated, -⟩ := created_of_jobsFor hj
  obtain ⟨hcall, -, hfree⟩ := created_eq_some.mp hcreated
  have hstep := stepCall_of_mem hx
  rw [hcall] at hstep
  cases hstep with
  | quiet h => cases h
  | system _ _ => cases ho
  | container _ _ => cases ho
  | @pool _ faults pool _ hpool hact =>
      cases ho
      have hface : pool.face = f := Option.some.inj ((seen_pool hpool).symm.trans hseen)
      have hdeleted : pool.deleting = true := (congrArg Face.deleting hface).trans hdeleting
      obtain ⟨sys, hsys, hkey⟩ := hact.key_of_deleting hdeleted
      refine ⟨spec.key, by simp [destroyKey, hpool, hsys, hkey], ?_⟩
      -- a Job that stood before the step would stand when the new one is created
      by_contra hstands
      have hthere := job_of_mem (Option.isSome_iff_ne_none.mpr hstands) (by rintro c ⟨⟩) hx
      rw [hfree] at hthere
      cases hthere

/-- Where stalled pools are not reconciled early and names are reused late, destroys of such
pools are retried slowly. -/
theorem stalled_retries_slowly (events : List Event) (h : Along WokenInTime [] (history events))
    (hreused : Along ReusedLate [] (history events)) : Along RetriesSlowly [] (history events) := by
  refine Machine.along_induction (I := fun _ w => WellNamed w ∧ DestroysDeleted w) ?_
    ⟨wellNamed_empty, destroysDeleted_empty⟩ events (h.and hreused)
  rintro past w e hw ⟨hwoken, hreused⟩
  refine ⟨?_, hw.1.step e, hw.2.step hw.1 hreused⟩
  intro name hname hstalled hjobs
  obtain ⟨happroved, key, hkey, hgone⟩ := destroyKey_of_destroyJobs (hw.2.reads _) hjobs
  exact hwoken name hname hstalled happroved key hkey hgone

/-- A destroy of the pool starts and fails, and its Job goes. -/
def destroyFailsOnce : List Event :=
  poolPass "p" ++
    [jobAnswers ⟨"daos-system", "pool-p-dmg-destroy"⟩ "\x7b\"error\":\"busy\"\x7d"] ++
    poolPass "p" ++ [.change (.jobRemoved ⟨"daos-system", "pool-p-dmg-destroy"⟩)]

/-- The destroy of a pool stalls, and the pool is reconciled again after this time. -/
def stalledRun (wait : Duration) : List Event :=
  pooledRun ++
    [.change (.annotatePool "p" { destroyApproved := some "true" }), .change (.deletePool "p"),
      .change (.deliverPool "p"), .change (.deliverPool "p")] ++
    destroyFailsOnce ++ destroyFailsOnce ++ destroyFailsOnce ++
    [.change (.tick wait), .reconcilePool "p" []]

/-- The destroy is tried again half an hour later. -/
theorem stalled_retries_slowly_stalledRun :
    ((final (stalledRun 1800)).jobs.get ⟨"daos-system", "pool-p-dmg-destroy"⟩).isSome = true ∧
      Along RetriesSlowly [] (history (stalledRun 1800)) := by
  have hrun : ((final (stalledRun 1800)).jobs.get
      ⟨"daos-system", "pool-p-dmg-destroy"⟩).isSome = true ∧
        Along WokenInTime [] (history (stalledRun 1800)) ∧
          Along ReusedLate [] (history (stalledRun 1800)) := by
    decide +kernel
  exact ⟨hrun.1, stalled_retries_slowly _ hrun.2.1 hrun.2.2⟩

/-- The pool is reconciled right after its status was written, and the destroy is tried again
at once. -/
theorem stalled_retries_at_once : ¬Along RetriesSlowly [] (history (stalledRun 0)) := by
  decide +kernel

end DaosOperator
