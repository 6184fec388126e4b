import DaosOperator.Safety.RestartMoves

/-!
# The Jobs a restart moves on

The Jobs of a restart have one name per system and phase, and a restart that is given up
leaves its Job behind.  The next restart takes that Job for its own: it moves on the
result of a command that ran before it began.
-/

namespace DaosOperator

open Effect
open DaosOperator.System

/-! ## The property -/

/-- The Job whose result a phase is entered on. -/
def entryJob : UpgradePhase → Option JobKind
  | .updating => some .stop
  | .verifying => some .start
  | .completed => some .verify
  | .pending | .stopping | .starting | .startingSystem | .failed => none

/-- The restart moved on the result of a Job that was created after it had begun. -/
def OwnJobs (step : Step) : Prop :=
  ∀ name ∈ step.event.system, ∀ sys ∈ stored step.before.systems name,
    ∀ sys' ∈ stored step.after.systems name, ∀ up ∈ sys'.status.upgrade,
      sys.status.upgrade.map (·.phase) ≠ some up.phase → ∀ kind ∈ entryJob up.phase,
        (∃ x ∈ step.obs, readsOff (jobKey name (namespaceOf sys) kind) x = true) ∧
          ∃ job ∈ step.before.jobs.get (jobKey name (namespaceOf sys) kind),
            ∃ t ∈ up.startedAt, t ≤ job.created
  deriving Decidable

/-! ## When it holds -/

def restartKinds : List JobKind := [.stop, .start, .verify]

/-- A restart that may begin finds no Job of an earlier one, in any namespace. -/
def BeginsClean (step : Step) : Prop :=
  ∀ name ∈ step.event.system, ∀ sys ∈ stored step.before.systems name,
    begins sys step.before = true → ∀ key ∈ step.before.jobs.keys, ∀ kind ∈ restartKinds,
      key = jobKey name key.ns kind → ∀ job ∈ step.before.jobs.get key, job.deleting = true
  deriving Decidable

/-! ## Jobs that are younger than the restart -/

/-- Every Job of a restart that can still be read was created since. -/
structure JobsSince (name : String) (since : Time) (w : World) : Prop where
  clock : since ≤ w.clock
  jobs : ∀ ns kind job, kind ∈ restartKinds → w.jobs.get (jobKey name ns kind) = some job →
    job.deleting = false → since ≤ job.created

/-- A Job that can be read was there before the call, or the call created it. -/
theorem live_perform {c : Call} {w : World} {key : ObjectKey} {job : Job}
    (h : (perform c w).2.jobs.get key = some job) (hlive : job.deleting = false) :
    w.jobs.get key = some job ∨ job.created = w.clock := by
  cases c with
  | createJob spec =>
      simp only [perform] at h
      split at h
      · exact Or.inl h
      · rw [Table.get_put] at h
        split at h
        · cases h
          exact Or.inr rfl
        · exact Or.inl h
  | deleteJob other =>
      simp only [perform] at h
      split at h
      · exact Or.inl h
      · rw [Table.get_put] at h
        split at h
        · cases h
          cases hlive
        · exact Or.inl h
  | _ => exact Or.inl h

theorem JobsSince.respond {name : String} {since : Time} {w : World} (h : JobsSince name since w)
    (c : Call) (f : Fault) : JobsSince name since (cluster.respond c f w).2 := by
  rw [Handler.respond_world]
  split
  · constructor
    · rw [show cluster.perform = perform from rfl, perform_clock]
      exact h.clock
    · intro ns kind job hkind hjob hlive
      rcases live_perform hjob hlive with hold | hnew
      · exact h.jobs ns kind job hkind hold hlive
      · rw [hnew]
        exact h.clock
  · exact h

theorem clock_le_apply (w : World) (c : Change) : w.clock ≤ (c.apply w).clock := by
  cases c with
  | tick seconds => exact Nat.le_add_right _ _
  | createPool name annotations spec =>
      simp only [Change.apply]
      split <;> exact Nat.le_refl _
  | setReadyReplicas key ready =>
      simp only [Change.apply]
      split <;> exact Nat.le_refl _
  | jobProgress key conditions pods | jobRemoved key | jobCollected key =>
      simp only [Change.apply, onJob]
      split <;> exact Nat.le_refl _
  | daosRuns key ranks =>
      simp only [Change.apply, runInDaos]
      split
      · exact Nat.le_refl _
      · split <;> exact Nat.le_refl _
  | _ => exact Nat.le_refl _

theorem JobsSince.apply {name : String} {since : Time} {w : World} (h : JobsSince name since w)
    (c : Change) : JobsSince name since (c.apply w) := by
  refine ⟨h.clock.trans (clock_le_apply w c), ?_⟩
  intro ns kind job hkind hjob hlive
  have hchange := jobChange w (jobKey name ns kind) c
  rw [hjob] at hchange
  generalize hold : w.jobs.get (jobKey name ns kind) = old at hchange
  cases hchange with
  | same => exact h.jobs ns kind job hkind hold hlive
  | progress conditions pods old => exact h.jobs ns kind old hkind hold hlive

theorem JobsSince.step {name : String} {since : Time} {w : World} (h : JobsSince name since w)
    (e : Event) : JobsSince name since (operator.step w e).1 :=
  step_keeps (fun c f _ _ hv => hv.respond c f) (fun c _ hw => hw.apply c) h

/-! ## Every restart under way has Jobs of its own -/

/-- The Jobs of every restart under way are younger than the restart. -/
def RestartsClean (w : World) : Prop :=
  ∀ name sys up, stored w.systems name = some sys → upgradeInProgress sys.status = true →
    sys.status.upgrade = some up → ∃ t, up.startedAt = some t ∧ JobsSince name t w

/-- A restart that is carried on has Jobs of its own. -/
theorem RestartsClean.underWay {w : World} (h : RestartsClean w) {sys : DaosSystem}
    {up : UpgradeStatus} (hsys : stored w.systems sys.name = some sys)
    (hclean : begins sys w = true → ∀ key ∈ w.jobs.keys, ∀ kind ∈ restartKinds,
      key = jobKey sys.name key.ns kind → ∀ job ∈ w.jobs.get key, job.deleting = true)
    (hup : UnderWay sys w up) : ∃ t, up.startedAt = some t ∧ JobsSince sys.name t w := by
  cases hup with
  | goesOn hup hin => exact h sys.name sys up hsys hin hup
  | begun hbegins _ hstarted =>
      refine ⟨w.clock, hstarted, Nat.le_refl _, ?_⟩
      intro ns kind job hkind hjob hlive
      have hdeleting := hclean hbegins _ (w.jobs.covers _ _ hjob) kind hkind rfl job hjob
      rw [hlive] at hdeleting
      cases hdeleting

/-- A phase that is entered on a Job is entered on its answer. -/
theorem entered_on_answer {sys : DaosSystem} {w : World} {t : Point Call World}
    {up : UpgradeStatus} {kind : JobKind} (h : Moves sys w t (some up))
    (hmoved : sys.status.upgrade.map (·.phase) ≠ some up.phase)
    (hkind : entryJob up.phase = some kind) :
    Read sys w t.log kind ∧ ∃ up₀, UnderWay sys w up₀ ∧ up.startedAt = up₀.startedAt := by
  generalize hgen : some up = after at h
  cases h with
  | kept => exact absurd (by rw [← hgen]; rfl) hmoved
  | dropped => cases hgen
  | waits _ up' hpending =>
      cases hgen
      rw [hpending] at hkind
      cases hkind
  | moved up₀ up' hunder hstarted hstep =>
      cases hgen
      refine ⟨?_, up₀, hunder, hstarted⟩
      generalize hph : up₀.phase = ph at hstep
      generalize hph' : up.phase = ph' at hstep hkind
      cases hstep with
      | stays =>
          -- the phase it stays in is the one before, or the first
          cases hunder with
          | goesOn hup _ => exact absurd (by rw [hup, hph']; exact congrArg some hph) hmoved
          | begun _ hstopping _ =>
              rw [← hph, hstopping] at hkind
              cases hkind
      | fails | replaced | ready => cases hkind
      | stopped h | started h =>
          cases hkind
          exact h
      | completed h =>
          cases hkind
          exact h

/-- The answer of a Job is that of a Job that can be read. -/
theorem live_of_answered {sys : DaosSystem} {w : World} {kind : JobKind}
    (h : answered sys w kind = true) :
    ∃ job, w.jobs.get (jobKey sys.name (namespaceOf sys) kind) = some job ∧
      job.deleting = false := by
  obtain ⟨res, hres, -⟩ := (Option.any_eq_true ..).mp h
  obtain ⟨job, hjob, hfinished⟩ := Option.bind_eq_some_iff.mp hres
  refine ⟨job, hjob, ?_⟩
  by_contra hdeleting
  simp [hdeleting] at hfinished

theorem moves_of_step {w : World} {sys sys' : DaosSystem} {faults : List Fault}
    (hsys : stored w.systems sys.name = some sys)
    (hsys' : stored (operator.step w (.reconcileSystem sys.name faults)).1.systems sys.name =
      some sys') :
    Moves sys w ⟨(operator.step w (.reconcileSystem sys.name faults)).1,
      (operator.step w (.reconcileSystem sys.name faults)).2⟩ sys'.status.upgrade := by
  have hwp : (reconcile sys.name).wp cluster (fun _ => True) ⟨w, []⟩ (fun _ t => MovesTo sys w t)
      (MovesTo sys w) := wp_reconcile_moves hsys
  obtain ⟨after, hafter, hmoves⟩ := Prog.exec_ends hwp faults fun _ _ => trivial
  have hsys'' : stored ((reconcile sys.name).exec cluster faults w).world.systems sys.name =
      some sys' := hsys'
  rw [hsys''] at hafter
  cases hafter
  exact hmoves

/-- The restart of a system that is not reconciled stays as it is. -/
theorem upgrade_elsewhere {w : World} {name : String} {e : Event} (hw : WellNamed w)
    (he : e.system ≠ some name) {sys' : DaosSystem}
    (hsys' : stored (operator.step w e).1.systems name = some sys') :
    sys'.status.upgrade = none ∨
      ∃ sys, stored w.systems name = some sys ∧ sys.status.upgrade = sys'.status.upgrade := by
  have helse : e.elsewhere name → stored w.systems name = some sys' := by
    intro helse
    have hget := (step_elsewhere name e hw helse).1
    unfold stored at hsys' ⊢
    rwa [hget] at hsys'
  cases e with
  | reconcileSystem other faults =>
      have hne : other ≠ name := fun h => he (congrArg some h)
      exact Or.inr ⟨sys', helse hne, rfl⟩
  | reconcilePool other faults => exact Or.inr ⟨sys', helse trivial, rfl⟩
  | reconcileContainer key faults => exact Or.inr ⟨sys', helse trivial, rfl⟩
  | change c =>
      have hchange := systemChange w name c
      rw [show stored (c.apply w).systems name = some sys' from hsys'] at hchange
      generalize hold : stored w.systems name = old at hchange
      cases hchange with
      | same => exact Or.inr ⟨sys', rfl, rfl⟩
      | create annotations spec => exact Or.inl rfl
      | edit spec s => exact Or.inr ⟨s, rfl, rfl⟩
      | annotate key value s => exact Or.inr ⟨s, rfl, rfl⟩
      | delete s => exact Or.inr ⟨s, rfl, rfl⟩

theorem inProgress_congr {st st' : DaosSystemStatus} (h : st.upgrade = st'.upgrade) :
    upgradeInProgress st = upgradeInProgress st' := by
  simp only [upgradeInProgress, h]

theorem RestartsClean.step {w : World} (h : RestartsClean w) (hw : WellNamed w) {e : Event}
    (hclean : BeginsClean (operator.record w e)) : RestartsClean (operator.step w e).1 := by
  intro name sys' up hsys' hin hup
  by_cases he : e.system = some name
  · obtain ⟨faults, rfl⟩ := Event.eq_of_system (e := e) he
    cases hsys : stored w.systems name with
    | none =>
        rw [step_absent hsys] at hsys' ⊢
        exact h name sys' up hsys' hin hup
    | some sys =>
        obtain rfl : sys.name = name := hw.systems.stored hsys
        have hmoves := moves_of_step hsys hsys'
        have hold : ∃ t, up.startedAt = some t ∧ JobsSince sys.name t w := by
          rw [hup] at hmoves
          generalize hgen : some up = after at hmoves
          cases hmoves with
          | kept =>
              have hsame : sys.status.upgrade = sys'.status.upgrade := hgen.symm.trans hup.symm
              exact h _ sys up hsys ((inProgress_congr hsame).trans hin) hgen.symm
          | dropped => cases hgen
          | waits _ up' hpending =>
              cases hgen
              simp [upgradeInProgress, hup, hpending] at hin
          | moved up₀ up' hunder hstarted hstep =>
              cases hgen
              rw [hstarted]
              exact h.underWay hsys (hclean _ rfl sys hsys) hunder
        obtain ⟨t, hstarted, hsince⟩ := hold
        exact ⟨t, hstarted, hsince.step _⟩
  · rcases upgrade_elsewhere hw he hsys' with hnone | ⟨sys, hsys, hsame⟩
    · rw [hnone] at hup
      cases hup
    · obtain ⟨t, hstarted, hsince⟩ := h name sys up hsys
        ((inProgress_congr hsame).trans hin) (hsame.trans hup)
      exact ⟨t, hstarted, hsince.step e⟩

/-! ## Every run -/

theorem restartsClean_final (events : List Event)
    (hclean : ∀ step ∈ history events, BeginsClean step) : RestartsClean (final events) := by
  have hboth := Machine.final_induction (m := operator)
    (I := fun w => WellNamed w ∧ RestartsClean w) (R := BeginsClean) (s := {})
    ⟨wellNamed_empty, by simp [RestartsClean, stored]⟩
    (fun _ e hw hmeets => ⟨hw.1.step e, hw.2.step hw.1 hmeets⟩) events hclean
  exact hboth.2

/-- Without Jobs of earlier restarts, a restart moves on its own Jobs. -/
theorem restart_moves_ownJobs (events : List Event)
    (hclean : ∀ step ∈ history events, BeginsClean step) :
    ∀ step ∈ history events, OwnJobs step := by
  intro step hstep name hname sys hsys sys' hsys' up hup hmoved kind hkind
  have hbegins := hclean step hstep
  obtain ⟨before, e, after, rfl, rfl⟩ := Machine.exists_of_mem_history hstep
  have hfresh : RestartsClean (final before) := by
    refine restartsClean_final before fun r hr => hclean r ?_
    rw [history, Machine.history_append]
    exact List.mem_append_left _ hr
  obtain ⟨faults, rfl⟩ := Event.eq_of_system (e := e) hname
  obtain rfl : sys.name = name := (wellNamed_final before).systems.stored hsys
  have hmoves := moves_of_step hsys hsys'
  rw [show sys'.status.upgrade = some up from hup] at hmoves
  obtain ⟨⟨hanswered, hread⟩, up₀, hunder, hstarted⟩ := entered_on_answer hmoves hmoved hkind
  obtain ⟨t, ht, hsince⟩ := hfresh.underWay hsys (hbegins _ rfl sys hsys) hunder
  obtain ⟨job, hjob, hlive⟩ := live_of_answered hanswered
  refine ⟨hread, job, hjob, t, hstarted.trans ht, ?_⟩
  refine hsince.jobs _ kind job ?_ hjob hlive
  revert hkind
  cases up.phase <;> simp [entryJob, restartKinds] <;> rintro rfl <;> simp

/-- An approved restart runs `system stop`; something happens in between; then the Job
succeeds and the restart is approved, once more where the approval is gone. -/
def stopRun (between : List Event) : List Event :=
  let spec : DaosSystemSpec :=
    { msReplicas := 1, allowInsecure := true, images := { server := "new" }
      upgrade := { approved := true }
      engines := [{ fabricIface := "ib0", bdevList := ["0000:81:00.0"] }] }
  [.change (.createSystem "s" {} spec),
    .change (.setNodes [{ name := "a" }]),
    .change (.setServerPods [{ key := ⟨"daos-system", "s-server-a-0"⟩, system := "s", node := "a"
                               containers := [("daos-server", "old")] }]),
    .reconcileSystem "s" []] ++ between ++
  [.change (.jobProgress ⟨"daos-system", "s-dmg-stop"⟩ [.complete true]
      [{ name := "stop", created := 0, terminated := some (0, 0), log := "\x7b\x7d" }]),
    .change (.editSystem "s" spec),
    .reconcileSystem "s" []]

/-- The restart that created the Job moves on its result. -/
theorem restart_moves_stopped :
    (stored (final (stopRun [])).systems "s").bind (fun sys => sys.status.upgrade.map (·.phase)) =
      some .updating ∧ ∀ step ∈ history (stopRun []), OwnJobs step := by
  have hrun : (stored (final (stopRun [])).systems "s").bind
      (fun sys => sys.status.upgrade.map (·.phase)) = some .updating ∧
        ∀ step ∈ history (stopRun []), BeginsClean step := by
    decide +kernel
  exact ⟨hrun.1, restart_moves_ownJobs (stopRun []) hrun.2⟩

/-- The restart times out while its Job runs, and the next one moves on the result. -/
theorem restart_moves_foreignJob :
    ¬∀ step ∈ history (stopRun [.change (.tick 1801), .reconcileSystem "s" []]), OwnJobs step := by
  decide +kernel

end DaosOperator
