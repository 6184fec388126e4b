import Mathlib.Data.List.TakeWhile
import DaosOperator.Safety.RestartAlone
import DaosOperator.Safety.RestartJobs

/-!
# The order of a restart

A restart stops the system, replaces its server pods, waits for them, starts the system
and checks that every rank joined.  The order is a property of whole runs: what a phase
rests on was read off a Job several reconciles ago, with edits of the spec, pods that come
and go and changes of approvals in between.
-/

namespace DaosOperator

open Effect
open DaosOperator.System

variable {w : World} {name : String} {sys : DaosSystem} {t : Point Call World} {past : List Step}

/-! ## The property -/

/-- The phase of the restart in the stored status. -/
def phaseOf (w : World) (name : String) : Option UpgradePhase :=
  (stored w.systems name).bind fun sys => sys.status.upgrade.map (·.phase)

/-- The steps of the restart under way, the newest first. -/
def thisRestart (name : String) (past : List Step) : List Step :=
  past.takeWhile fun s => restarting s.after name

/-- The steps of the phase the restart is in, the newest first. -/
def thisPhase (name : String) (past : List Step) (w : World) : List Step :=
  if restarting w name then past.takeWhile fun s => phaseOf s.after name = phaseOf w name else []

def AnswersIn (name : String) (kind : JobKind) (step : Step) : Prop :=
  step.event.system = some name ∧
    ∃ sys ∈ stored step.before.systems name, Read sys step.before step.obs kind

/-- Where a phase can go in one reconcile. -/
def nextPhases : Option UpgradePhase → List (Option UpgradePhase)
  | some .stopping => [some .stopping, some .updating, some .failed]
  | some .updating => [some .updating, some .starting, some .failed]
  | some .starting => [some .starting, some .startingSystem, some .failed]
  | some .startingSystem => [some .startingSystem, some .verifying, some .failed]
  | some .verifying => [some .verifying, some .completed, some .failed]
  -- no restart is under way
  | ph => [ph, none, some .pending, some .stopping]

/-- The engine restart begins with a look at the engines. -/
def looksAtEngines (x : Entry Call World) : Bool :=
  match x.call with
  | .engineMemory _ => true
  | _ => false

/-- The part of a reconcile before the engine restart. -/
def upgradePart (log : Log) : Log := log.takeWhile fun x => !looksAtEngines x

def deletesPod (x : Entry Call World) : Bool :=
  match x.call with
  | .deletePod _ => true
  | _ => false

/-- What a reconcile of the system does to its restart, given the steps before. -/
structure RestartOrder (name : String) (past : List Step) (step : Step) : Prop where
  order : phaseOf step.after name ∈ nextPhases (phaseOf step.before name)
  entered : phaseOf step.before name ≠ some .stopping → phaseOf step.after name = some .stopping →
    ∀ sys ∈ stored step.before.systems name,
      sys.annotations.certsRenewApproved = some "true" ∨ sys.spec.upgrade.approved = true ∧
        ∃ pod ∈ step.before.serverPodsOf (namespaceOf sys) name,
          podImage pod ≠ "" ∧ podImage pod ≠ sys.spec.images.server
  stopped : (∃ x ∈ upgradePart step.obs, deletesPod x = true) →
    ∃ s ∈ thisRestart name past, AnswersIn name .stop s
  completed : phaseOf step.before name ≠ some .completed →
    phaseOf step.after name = some .completed → AnswersIn name .verify step ∧
      ∃ newer s older, thisRestart name past = newer ++ s :: older ∧ AnswersIn name .start s ∧
        ∃ s' ∈ older, AnswersIn name .stop s'
  approvals : ∀ ph, ph = .completed ∨ ph = .failed → phaseOf step.before name ≠ some ph →
    phaseOf step.after name = some ph → ∀ sys ∈ stored step.after.systems name,
      sys.spec.upgrade.approved = false ∧ sys.annotations.certsRenewApproved = none

/-- Every reconcile keeps to the order. -/
def FollowsOrder (past : List Step) (step : Step) : Prop :=
  ∀ name ∈ step.event.system, RestartOrder name past step

/-! ## The assumption -/

/-- The restart reads only results of Jobs created in the current phase of the current
restart. -/
def ReadsOwnPhase (past : List Step) (step : Step) : Prop :=
  ∀ name ∈ step.event.system, ∀ sys ∈ stored step.before.systems name, ∀ kind ∈ restartKinds,
    (∃ x ∈ step.obs, readsOff (jobKey name (namespaceOf sys) kind) x = true) →
      ∃ s ∈ thisPhase name past step.before, ∃ x ∈ s.obs, ∃ spec ∈ created x,
        spec.key = jobKey name (namespaceOf sys) kind
  deriving Decidable

/-! ## Phases -/

/-- The phases of a restart under way. -/
def activePhases : List UpgradePhase :=
  [.stopping, .updating, .starting, .startingSystem, .verifying]

theorem inProgress_iff {st : DaosSystemStatus} :
    upgradeInProgress st = true ↔ ∃ ph ∈ activePhases, st.upgrade.map (·.phase) = some ph := by
  unfold upgradeInProgress
  cases st.upgrade with
  | none => simp
  | some up =>
      simp only [Option.map_some, Option.some.injEq, exists_eq_right']
      cases up.phase <;> simp [activePhases]

theorem restarting_iff :
    restarting w name = true ↔ ∃ ph ∈ activePhases, phaseOf w name = some ph := by
  unfold restarting phaseOf
  cases stored w.systems name with
  | none => simp
  | some sys => exact inProgress_iff

theorem phaseOf_eq
    (h : stored w.systems name = some sys) : phaseOf w name = sys.status.upgrade.map (·.phase) := by
  simp [phaseOf, h]

/-- What one reconcile does to the phase. -/
inductive PhaseMove (sys : DaosSystem) (w : World) (t : Point Call World) :
    Option UpgradePhase → Option UpgradePhase → Prop where
  | idle (ph ph' : Option UpgradePhase) (h : ∀ q ∈ activePhases, ph ≠ some q)
      (h' : ph' = ph ∨ ph' = none ∨ ph' = some .pending) : PhaseMove sys w t ph ph'
  | begun (ph : Option UpgradePhase) (h : ∀ q ∈ activePhases, ph ≠ some q)
      (h' : begins sys w = true) : PhaseMove sys w t ph (some .stopping)
  | step (ph ph' : UpgradePhase) (h : ph ∈ activePhases) (h' : PhaseStep sys w t ph ph') :
      PhaseMove sys w t (some ph) (some ph')

/-- A restart that begins reads no Job of its own. -/
theorem phaseMove_of_moves
    {after : Option UpgradeStatus} (h : Moves sys w t after)
    (hown : upgradeInProgress sys.status = false → ¬Collects sys t.log .stop) :
    PhaseMove sys w t (sys.status.upgrade.map (·.phase)) (after.map (·.phase)) := by
  have hidle : upgradeInProgress sys.status = false →
      ∀ q ∈ activePhases, sys.status.upgrade.map (·.phase) ≠ some q := by
    intro hin q hq hphase
    rw [inProgress_iff.mpr ⟨q, hq, hphase⟩] at hin
    cases hin
  cases h with
  | kept =>
      by_cases hin : upgradeInProgress sys.status = true
      · obtain ⟨ph, hph, hphase⟩ := inProgress_iff.mp hin
        rw [hphase]
        exact .step ph ph hph (.stays ph)
      · exact .idle _ _ (hidle (by simpa using hin)) (Or.inl rfl)
  | dropped hin => exact .idle _ _ (hidle hin) (Or.inr (Or.inl rfl))
  | waits hin up hpending =>
      exact .idle _ _ (hidle hin) (Or.inr (Or.inr (congrArg some hpending)))
  | moved up up' hunder _ hstep hfirst =>
      cases hunder with
      | goesOn hup hin =>
          obtain ⟨ph, hph, hphase⟩ := inProgress_iff.mp hin
          rw [hup, Option.map_some, Option.some.injEq] at hphase
          have hactive : up.phase ∈ activePhases := by rwa [hphase]
          rw [hup]
          exact .step _ _ hactive hstep
      | begun hbegins hstopping _ =>
          have hin : upgradeInProgress sys.status = false := by
            simp only [begins, Bool.and_eq_true, Bool.not_eq_true'] at hbegins
            exact hbegins.1
          have hphase : up'.phase = .stopping := (hfirst hin).resolve_right (hown hin)
          rw [Option.map_some, hphase]
          exact .begun _ (hidle hin) hbegins

theorem mem_nextPhases
    {ph ph' : Option UpgradePhase} (h : PhaseMove sys w t ph ph') : ph' ∈ nextPhases ph := by
  have hnext : (∀ q ∈ activePhases, ph ≠ some q) →
      nextPhases ph = [ph, none, some .pending, some .stopping] := by
    intro hidle
    unfold nextPhases
    split
    all_goals first | rfl | exact absurd rfl (hidle _ (by decide))
  cases h with
  | idle ph ph' hidle h' =>
      rw [hnext hidle]
      rcases h' with rfl | rfl | rfl <;> simp
  | begun ph hidle => rw [hnext hidle]; simp
  | step ph ph' hph hstep =>
      cases hstep with
      | stays | fails =>
          revert hph
          cases ph <;> decide
      | _ => decide

section PhaseMove

variable {sys : DaosSystem} {w : World} {t : Point Call World} {ph ph' : Option UpgradePhase}

/-- A phase that is new without a restart under way is that of a new restart. -/
theorem PhaseMove.cases_of_ne (h : PhaseMove sys w t ph ph') {q : UpgradePhase}
    (hq : q ≠ .pending) (hph : ph ≠ some q) (hph' : ph' = some q) :
    (q = .stopping ∧ begins sys w = true) ∨
      ∃ ph₀, ph = some ph₀ ∧ ph₀ ≠ q ∧ PhaseStep sys w t ph₀ q := by
  cases h with
  | idle _ _ _ h' =>
      rcases h' with h' | h' | h'
      · exact absurd (h'.symm.trans hph') hph
      · rw [h'] at hph'
        cases hph'
      · rw [h'] at hph'
        cases hph'
        exact absurd rfl hq
  | begun _ _ h' =>
      cases hph'
      exact Or.inl ⟨rfl, h'⟩
  | step ph₀ _ _ hstep =>
      cases hph'
      exact Or.inr ⟨ph₀, rfl, fun h => hph (congrArg some h), hstep⟩

theorem PhaseMove.entered (h : PhaseMove sys w t ph ph') (hph : ph ≠ some .stopping)
    (hph' : ph' = some .stopping) : begins sys w = true := by
  rcases h.cases_of_ne (by decide) hph hph' with ⟨-, hbegins⟩ | ⟨ph₀, -, hne, hstep⟩
  · exact hbegins
  · cases hstep
    exact absurd rfl hne

/-- Only the phase `Verifying` completes a restart, and only on its query. -/
theorem PhaseMove.completed (h : PhaseMove sys w t ph ph') (hph : ph ≠ some .completed)
    (hph' : ph' = some .completed) :
    ph = some .verifying ∧ Read sys w t.log .verify ∧ Gone sys.name t.world := by
  rcases h.cases_of_ne (by decide) hph hph' with ⟨hstopping, -⟩ | ⟨ph₀, rfl, hne, hstep⟩
  · cases hstopping
  · cases hstep with
    | stays => exact absurd rfl hne
    | completed hread hgone => exact ⟨rfl, hread, hgone⟩

theorem PhaseMove.failed (h : PhaseMove sys w t ph ph') (hph : ph ≠ some .failed)
    (hph' : ph' = some .failed) : Gone sys.name t.world := by
  rcases h.cases_of_ne (by decide) hph hph' with ⟨hstopping, -⟩ | ⟨ph₀, -, hne, hstep⟩
  · cases hstopping
  · cases hstep with
    | stays => exact absurd rfl hne
    | fails _ hgone => exact hgone

end PhaseMove

/-- An approved restart has a reason. -/
theorem reason_of_begins (h : begins sys w = true) :
    sys.annotations.certsRenewApproved = some "true" ∨ sys.spec.upgrade.approved = true ∧
      ∃ pod ∈ w.serverPodsOf (namespaceOf sys) sys.name,
        podImage pod ≠ "" ∧ podImage pod ≠ sys.spec.images.server := by
  simp only [begins, certsRenewApproved, Bool.and_eq_true, Bool.or_eq_true, decide_eq_true_eq] at h
  refine h.2.imp (fun hcerts => hcerts.2) fun himage => ⟨himage.1, ?_⟩
  have hstale : staleImages sys.spec.images.server
      (w.serverPodsOf (namespaceOf sys) sys.name) ≠ [] := by simpa using himage.2
  obtain ⟨img, himg⟩ := List.exists_mem_of_ne_nil _ hstale
  simp only [staleImages, List.mem_filter, List.mem_map, decide_eq_true_eq] at himg
  obtain ⟨⟨pod, hpod, rfl⟩, hne⟩ := himg
  exact ⟨pod, hpod, hne⟩

/-! ## Pods -/

section Pods

variable {sys : DaosSystem} {ok : Prop} {rely : Entry Call World → Prop} {s : Point Call World}

/-- Before the engine restart, pods are deleted only if `ok`. -/
def PodsKept (ok : Prop) (log : Log) : Prop := ∀ x ∈ upgradePart log, deletesPod x = true → ok

theorem mem_upgradePart_append {log new : Log} {x : Entry Call World}
    (h : x ∈ upgradePart (log ++ new)) : x ∈ upgradePart log ∨ x ∈ new := by
  unfold upgradePart at h ⊢
  rw [List.takeWhile_append] at h
  split at h
  · next hall =>
      have hself := (List.takeWhile_prefix fun x => !looksAtEngines x).eq_of_length hall
      rw [hself]
      exact (List.mem_append.mp h).imp_right fun hx => (List.takeWhile_subset _) hx
  · exact Or.inl h

/-- Once the engines were looked at, the part before is complete. -/
theorem upgradePart_append_of_looked {log new : Log} (h : ∃ x ∈ log, looksAtEngines x = true) :
    upgradePart (log ++ new) = upgradePart log := by
  obtain ⟨x, hx, hlooks⟩ := h
  unfold upgradePart
  rw [List.takeWhile_append, if_neg]
  intro hall
  have hself := (List.takeWhile_prefix fun x => !looksAtEngines x).eq_of_length hall
  have hnot := List.takeWhile_eq_self_iff.mp hself x hx
  simp [hlooks] at hnot

theorem deletesPod_eq_false {ns : String} {S : Scope} {x : Entry Call World}
    (hc : SystemCall name ns S x.call) (hS : S.pods = false) : deletesPod x = false := by
  obtain ⟨c, f, w⟩ := x
  cases hc with
  | quiet hc => cases c <;> first | rfl | cases hc
  | deletePod key h =>
      rw [hS] at h
      cases h
  | _ => rfl

theorem PodsKept.next {S : Scope} {c : Call} {ns : String} (h : PodsKept ok s.log)
    (hc : SystemCall name ns S c) (hS : S.pods = false ∨ ok) (f : Fault) :
    PodsKept ok (cluster.next s c f).log := by
  intro x hx hdeletes
  rcases mem_upgradePart_append hx with hx | hx
  · exact h x hx hdeletes
  · rw [List.mem_singleton] at hx
    subst hx
    refine hS.resolve_left fun hS => ?_
    rw [deletesPod_eq_false hc hS] at hdeletes
    cases hdeletes

theorem PodsKept.wp {α : Type} {S : Scope} {P : α → Prop} {q : Op α} {ns : String}
    (h : PodsKept ok s.log) (hq : q.Obeys (SystemCall name ns S) P) (hS : S.pods = false ∨ ok) :
    q.wp cluster rely s (fun a t => P a ∧ PodsKept ok t.log) fun t => PodsKept ok t.log :=
  hq.wp (I := fun t => PodsKept ok t.log) (fun _ f _ hc _ _ ht => ht.next hc hS f) h

/-- The engine restart looks at the engines before it deletes a pod. -/
theorem PodsKept.wp_engines {p : Pass} (h : PodsKept ok s.log) (ns : String) :
    (reconcileEngineRestart ns p).wp cluster rely s (fun _ t => PodsKept ok t.log)
      fun t => PodsKept ok t.log := by
  have hquiet : ∀ {c : Call} {t : Point Call World}, c.quiet = true → PodsKept ok t.log → ∀ f,
      PodsKept ok (cluster.next t c f).log := fun hc ht f =>
    ht.next (.quiet hc : SystemCall "" "" {} _) (Or.inl rfl) f
  refine Prog.wp_bind (A := fun _ t => PodsKept ok t.log)
    (Prog.wp_ask (fun _ => hquiet rfl h _) fun f _ _ _ => hquiet rfl h f) fun now t ht => ?_
  refine Prog.wp_bind (A := fun _ t => PodsKept ok t.log ∧ ∃ x ∈ t.log, looksAtEngines x = true)
    (Prog.wp_ask (fun _ => ⟨hquiet rfl ht _, ?_⟩) fun f _ _ _ => hquiet rfl ht f) ?_
  · exact ⟨_, List.mem_append_right _ (List.mem_singleton_self _), rfl⟩
  · rintro m u ⟨hu, hlooked⟩
    have hkept : ∀ {v : Point Call World}, (∃ new, v.log = u.log ++ new) → PodsKept ok v.log := by
      rintro v ⟨new, hnew⟩
      rw [PodsKept, hnew, upgradePart_append_of_looked hlooked]
      exact hu
    exact Prog.wp_mono (Prog.wp_log _) (fun _ _ h => hkept h) fun _ h => hkept h

/-- A reconcile deletes pods for a restart only in the phase `Updating`. -/
theorem pods_stages : StageProof sys rely
    (fun t => PodsKept (sys.status.upgrade.map (·.phase) = some .updating) t.log)
    (fun t => PodsKept (sys.status.upgrade.map (·.phase) = some .updating) t.log)
    fun _ _ t => PodsKept (sys.status.upgrade.map (·.phase) = some .updating) t.log where
  render c f t hc _ _ ht := ht.next hc (Or.inl rfl) f
  stop _ ht := ht
  enter _ _ _ ht := ht
  cond _ _ _ _ _ ht := ht
  skip _ _ _ ht := ht
  upgrade rendered p t hp ht := by
    have hname : p.sys.name = sys.name := by rw [hp.carried.sys_eq]
    have hup : p.status.upgrade = sys.status.upgrade := by
      have hmask := congrArg DaosSystemStatus.upgrade hp.carried.status_eq
      exact hmask
    have hobeys : (reconcileUpgrade (namespaceOf sys) rendered p).Obeys
        (SystemCall sys.name (namespaceOf sys)
          (restartScope (sys.status.upgrade.map (·.phase) = some .updating)))
        fun r => UpgradeAdvances p r.pass := by
      refine obeys_reconcileUpgrade_updating hname rendered fun up hpup hphase => ?_
      simp [← hup, hpup, hphase]
    refine Prog.wp_mono (ht.wp hobeys ?_) (fun _ _ h => h.2) fun _ h => h
    by_cases hphase : sys.status.upgrade.map (·.phase) = some .updating
    · exact Or.inr hphase
    · exact Or.inl (decide_eq_false hphase)
  format inp p t hp ht := by
    have hobeys := obeys_reconcileFormat hp.patched.name hp.ns
    exact Prog.wp_mono (ht.wp hobeys (Or.inl rfl)) (fun _ _ h => h.2) fun _ h => h
  rankOp p t hp ht := by
    have hobeys := hp.obeys
    exact Prog.wp_mono (ht.wp hobeys (Or.inl rfl)) (fun _ _ h => h.2) fun _ h => h
  engines p t _ ht := ht.wp_engines _
  write _ p t requeue _ hp ht := by
    have hobeys : (updateStatus p requeue).Obeys
        (SystemCall sys.name (namespaceOf sys) { status := true }) fun _ => True :=
      obeys_updateStatus hp.name rfl requeue
    exact Prog.wp_mono (ht.wp hobeys (Or.inl rfl)) (fun _ _ h => h.2) fun _ h => h

theorem podsKept_of_step (hsys : stored w.systems sys.name = some sys)
    (faults : List Fault) :
    PodsKept (sys.status.upgrade.map (·.phase) = some .updating)
      (operator.step w (.reconcileSystem sys.name faults)).2 := by
  have hread : ∀ f, PodsKept (sys.status.upgrade.map (·.phase) = some .updating)
      (cluster.next ⟨w, []⟩ (.getSystem sys.name) f).log := fun f =>
    PodsKept.next (s := ⟨w, []⟩) (by simp [PodsKept, upgradePart])
      (.quiet rfl : SystemCall "" "" {} _) (Or.inl rfl) f
  have hwp : (reconcile sys.name).wp cluster (fun _ => True) ⟨w, []⟩
      (fun _ t => PodsKept (sys.status.upgrade.map (·.phase) = some .updating) t.log)
      fun t => PodsKept (sys.status.upgrade.map (·.phase) = some .updating) t.log := by
    refine wp_reconcile (fun f _ => hread f) ?_
    intro sys' hsys' _ _
    obtain rfl : sys = sys' := Option.some.inj (hsys.symm.trans hsys')
    exact pods_stages.wp_reconcileSystem (hread .none)
  exact Prog.exec_ends hwp faults fun _ _ => trivial

end Pods

/-! ## Every run -/

/-- What the restart of a system rests on. -/
structure RestsOn (name : String) (past : List Step) (w : World) : Prop where
  stopped : ∀ ph ∈ activePhases, ph ≠ .stopping → phaseOf w name = some ph →
    ∃ s ∈ thisRestart name past, AnswersIn name .stop s
  started : phaseOf w name = some .verifying → ∃ newer s older,
    thisRestart name past = newer ++ s :: older ∧ AnswersIn name .start s ∧
      ∃ s' ∈ older, AnswersIn name .stop s'

theorem thisRestart_cons {step : Step} {ph : UpgradePhase}
    (hph : ph ∈ activePhases) (h : phaseOf step.after name = some ph) :
    thisRestart name (step :: past) = step :: thisRestart name past := by
  have hrestarting : restarting step.after name = true := restarting_iff.mpr ⟨ph, hph, h⟩
  simp [thisRestart, hrestarting]

theorem RestsOn.keep {step : Step}
    (h : RestsOn name past step.before)
    (hphase : ∀ ph ∈ activePhases, phaseOf step.after name = some ph →
      phaseOf step.before name = some ph) : RestsOn name (step :: past) step.after := by
  constructor
  · intro ph hph hlater hafter
    obtain ⟨s, hs, hanswers⟩ := h.stopped ph hph hlater (hphase ph hph hafter)
    rw [thisRestart_cons hph hafter]
    exact ⟨s, List.mem_cons_of_mem _ hs, hanswers⟩
  · intro hafter
    obtain ⟨newer, s, older, hsplit, hstart, hstop⟩ :=
      h.started (hphase _ (by decide) hafter)
    rw [thisRestart_cons (by decide) hafter, hsplit]
    exact ⟨step :: newer, s, older, rfl, hstart, hstop⟩

theorem RestsOn.step {step : Step} {ph ph' : UpgradePhase} (h : RestsOn name past step.before)
    (hstep : PhaseStep sys step.before t ph ph') (hph : ph ∈ activePhases)
    (hbefore : phaseOf step.before name = some ph) (hafter : phaseOf step.after name = some ph')
    (hanswers : ∀ kind, Read sys step.before t.log kind → AnswersIn name kind step) :
    RestsOn name (step :: past) step.after := by
  have hcons : ph' ∈ activePhases →
      thisRestart name (step :: past) = step :: thisRestart name past :=
    fun hph' => thisRestart_cons hph' hafter
  -- the stop answered in this step, or in an earlier one of the same restart
  have hstopped : ph ≠ .stopping → ph' ∈ activePhases →
      ∃ s ∈ thisRestart name (step :: past), AnswersIn name .stop s := by
    intro hlater hph'
    obtain ⟨s, hs, hanswer⟩ := h.stopped ph hph hlater hbefore
    rw [hcons hph']
    exact ⟨s, List.mem_cons_of_mem _ hs, hanswer⟩
  cases hstep with
  | stays =>
      exact h.keep fun q _ hq => by rw [hbefore, ← hafter, hq]
  | fails | completed =>
      constructor
      · intro q hq _ hqafter
        rw [hafter] at hqafter
        cases hqafter
        exact absurd hq (by decide)
      · intro hverifying
        rw [hafter] at hverifying
        cases hverifying
  | stopped hread =>
      constructor
      · intro q _ _ _
        rw [hcons (by decide)]
        exact ⟨step, List.mem_cons_self, hanswers _ hread⟩
      · intro hverifying
        rw [hafter] at hverifying
        cases hverifying
  | replaced | ready =>
      constructor
      · intro q _ _ _
        exact hstopped (by decide) (by decide)
      · intro hverifying
        rw [hafter] at hverifying
        cases hverifying
  | started hread =>
      refine ⟨fun q _ _ _ => hstopped (by decide) (by decide), fun _ => ?_⟩
      obtain ⟨s, hs, hanswer⟩ := h.stopped _ hph (by decide) hbefore
      exact ⟨[], step, thisRestart name past, hcons (by decide), hanswers _ hread, s, hs, hanswer⟩

theorem RestsOn.move {step : Step} {ph ph' : Option UpgradePhase}
    (h : RestsOn name past step.before)
    (hmove : PhaseMove sys step.before t ph ph') (hbefore : phaseOf step.before name = ph)
    (hafter : phaseOf step.after name = ph')
    (hanswers : ∀ kind, Read sys step.before t.log kind → AnswersIn name kind step) :
    RestsOn name (step :: past) step.after := by
  cases hmove with
  | idle _ _ hidle h' =>
      refine h.keep fun q hq hqafter => ?_
      rw [hafter] at hqafter
      rcases h' with h' | h' | h'
      · exact absurd (h'.symm.trans hqafter) (hidle q hq)
      · rw [h'] at hqafter
        cases hqafter
      · rw [h'] at hqafter
        cases hqafter
        exact absurd hq (by decide)
  | begun =>
      constructor
      · intro q _ hlater hqafter
        rw [hafter] at hqafter
        cases hqafter
        exact absurd rfl hlater
      · intro hverifying
        rw [hafter] at hverifying
        cases hverifying
  | step _ _ hph hstep => exact h.step hstep hph hbefore hafter hanswers

/-- A reconcile of the system keeps to the order, and what the restart rests on with it. -/
theorem restartOrder_of_step
    {faults : List Fault} (hname : sys.name = name) (hsys : stored w.systems name = some sys)
    (h : RestsOn name past w)
    (hown : ReadsOwnPhase past (operator.record w (.reconcileSystem name faults))) :
    RestartOrder name past (operator.record w (.reconcileSystem name faults)) ∧
      RestsOn name (operator.record w (.reconcileSystem name faults) :: past)
        (operator.step w (.reconcileSystem name faults)).1 := by
  subst hname
  have hwp : (reconcile sys.name).wp cluster (fun _ => True) ⟨w, []⟩ (fun _ t => MovesTo sys w t)
      (MovesTo sys w) := wp_reconcile_moves hsys
  obtain ⟨reached, hreached, hmoves⟩ := Prog.exec_ends hwp faults fun _ _ => trivial
  obtain ⟨sys', hsys', rfl⟩ := Option.map_eq_some_iff.mp hreached
  have hbefore : phaseOf w sys.name = sys.status.upgrade.map (·.phase) := phaseOf_eq hsys
  have hafter : phaseOf (operator.step w (.reconcileSystem sys.name faults)).1 sys.name =
      sys'.status.upgrade.map (·.phase) := phaseOf_eq hsys'
  have hbegins : upgradeInProgress sys.status = false →
      ¬Collects sys ((reconcile sys.name).exec cluster faults w).log .stop := by
    intro hin hcollects
    obtain ⟨s, hs, -⟩ := hown sys.name rfl sys hsys .stop (by decide) hcollects
    have hrestarting : restarting w sys.name = false := by simp [restarting, hsys, hin]
    simp [thisPhase, hrestarting] at hs
  have hmove := phaseMove_of_moves hmoves hbegins
  rw [← hbefore, ← hafter] at hmove
  have hanswers : ∀ kind, Read sys w ((reconcile sys.name).exec cluster faults w).log kind →
      AnswersIn sys.name kind (operator.record w (.reconcileSystem sys.name faults)) :=
    fun kind hread => ⟨rfl, sys, hsys, hread⟩
  have hpods := podsKept_of_step hsys faults
  refine ⟨?_, h.move hmove rfl rfl hanswers⟩
  have hgone : Gone sys.name (operator.step w (.reconcileSystem sys.name faults)).1 →
      ∀ s ∈ stored (operator.step w (.reconcileSystem sys.name faults)).1.systems sys.name,
        s.spec.upgrade.approved = false ∧ s.annotations.certsRenewApproved = none :=
    fun hgone s hs => Prod.mk.inj (hgone s hs)
  exact
    { order := mem_nextPhases hmove
      entered := fun hnot hstopping s hs => by
        obtain rfl : sys = s := Option.some.inj (hsys.symm.trans hs)
        exact reason_of_begins (hmove.entered hnot hstopping)
      stopped := by
        rintro ⟨x, hx, hdeletes⟩
        exact h.stopped .updating (by decide) (by decide) (hbefore.trans (hpods x hx hdeletes))
      completed := fun hnot hcompleted => by
        obtain ⟨hverifying, hread, -⟩ := hmove.completed hnot hcompleted
        exact ⟨hanswers _ hread, h.started hverifying⟩
      approvals := fun ph hph hnot hended => by
        rcases hph with rfl | rfl
        · exact hgone (hmove.completed hnot hended).2.2
        · exact hgone (hmove.failed hnot hended) }

theorem restartOrder_of_absent
    {faults : List Fault} (habsent : stored w.systems name = none) :
    RestartOrder name past (operator.record w (.reconcileSystem name faults)) := by
  have hafter : phaseOf (operator.step w (.reconcileSystem name faults)).1 name = none := by
    rw [step_absent habsent]
    simp [phaseOf, habsent]
  have hnever : ∀ {q : UpgradePhase},
      phaseOf (operator.record w (.reconcileSystem name faults)).after name ≠ some q := by
    intro q hq
    cases hafter.symm.trans hq
  refine ⟨?_, fun _ h => absurd h hnever, ?_, fun _ h => absurd h hnever,
    fun _ _ _ h => absurd h hnever⟩
  · have hbefore : phaseOf w name = none := by simp [phaseOf, habsent]
    change phaseOf (operator.step w (.reconcileSystem name faults)).1 name ∈
      nextPhases (phaseOf w name)
    rw [hafter, hbefore]
    decide
  · rintro ⟨x, hx, hdeletes⟩
    have hcall := eventCall_of_mem (List.takeWhile_subset _ hx)
    have hfalse : deletesPod x = false := by
      generalize he : Event.reconcileSystem name faults = e at hcall
      cases hcall with
      | read hquiet => exact deletesPod_eq_false (.quiet hquiet : SystemCall "" "" {} _) rfl
      | system hsys _ =>
          cases he
          rw [habsent] at hsys
          cases hsys
      | _ => cases he
    rw [hfalse] at hdeletes
    cases hdeletes

/-- Over steps that do not reconcile the system, its restart rests on the same. -/
theorem RestsOn.elsewhere {e : Event}
    (h : RestsOn name past w) (hw : WellNamed w) (he : e.system ≠ some name) :
    RestsOn name (operator.record w e :: past) (operator.step w e).1 := by
  refine @RestsOn.keep name past (operator.record w e) h ?_
  intro ph _ hafter
  obtain ⟨sys', hsys', hphase⟩ := Option.bind_eq_some_iff.mp hafter
  rcases upgrade_elsewhere hw he hsys' with hnone | ⟨sys, hsys, hsame⟩
  · rw [hnone] at hphase
    cases hphase
  · rw [← hsame] at hphase
    exact (phaseOf_eq hsys).trans hphase

/-- A restart that reads only Jobs of its own phase follows its order, in every run. -/
theorem restart_follows_order (events : List Event)
    (hown : Along ReadsOwnPhase [] (history events)) : Along FollowsOrder [] (history events) := by
  refine Machine.along_induction (m := operator)
    (I := fun past w => WellNamed w ∧ ∀ name, RestsOn name past w) ?_ ?_ events hown
  · rintro past w e ⟨hw, hrests⟩ hmeets
    refine ⟨fun name hname => ?_, hw.step e, fun name => ?_⟩
    · obtain ⟨faults, rfl⟩ := Event.eq_of_system (e := e) hname
      cases hsys : stored w.systems name with
      | none => exact restartOrder_of_absent hsys
      | some sys =>
          exact (restartOrder_of_step (hw.systems.stored hsys) hsys (hrests name) hmeets).1
    · by_cases he : e.system = some name
      · obtain ⟨faults, rfl⟩ := Event.eq_of_system (e := e) he
        cases hsys : stored w.systems name with
        | none =>
            refine @RestsOn.keep name past (operator.record w (.reconcileSystem name faults))
              (hrests name) fun ph _ hph => ?_
            rwa [Machine.record_after, step_absent hsys] at hph
        | some sys =>
            exact (restartOrder_of_step (hw.systems.stored hsys) hsys (hrests name) hmeets).2
      · exact (hrests name).elsewhere hw he
  · refine ⟨wellNamed_empty, fun name => ⟨?_, ?_⟩⟩
    · intro ph _ _ hph
      simp [phaseOf, stored] at hph
    · intro hph
      simp [phaseOf, stored] at hph

/-- A restart for a new image, from the approval to the last query. -/
def restartRun : List Event :=
  let pod : ServerPod :=
    { key := ⟨"daos-system", "s-server-a-0"⟩, system := "s", node := "a"
      containers := [("daos-server", "old")] }
  let finishes (name log : String) : Event :=
    .change (.jobProgress ⟨"daos-system", name⟩ [.complete true]
      [{ name, created := 0, terminated := some (0, 0), log }])
  [.change (.createSystem "s" {}
      { msReplicas := 1, allowInsecure := true, images := { server := "new" }
        upgrade := { approved := true }
        engines := [{ fabricIface := "ib0", bdevList := ["0000:81:00.0"] }] }),
    .change (.setNodes [{ name := "a" }]),
    .change (.setServerPods [pod]),
    .reconcileSystem "s" [],
    finishes "s-dmg-stop" "\x7b\x7d",
    .reconcileSystem "s" [],
    .reconcileSystem "s" [],
    .change (.setServerPods [{ pod with containers := [("daos-server", "new")]
                                        readyCondition := true }]),
    .reconcileSystem "s" [],
    .reconcileSystem "s" [],
    finishes "s-dmg-start" "\x7b\x7d",
    .reconcileSystem "s" [],
    .reconcileSystem "s" [],
    finishes "s-dmg-verify"
      "\x7b\"response\":\x7b\"members\":[\x7b\"state\":\"joined\"\x7d]\x7d\x7d",
    .reconcileSystem "s" []]

/-- The restart reads its own Jobs and completes. -/
theorem restart_follows_completed :
    phaseOf (final restartRun) "s" = some .completed ∧
      Along FollowsOrder [] (history restartRun) := by
  have hrun : phaseOf (final restartRun) "s" = some .completed ∧
      Along ReadsOwnPhase [] (history restartRun) := by
    decide +kernel
  exact ⟨hrun.1, restart_follows_order restartRun hrun.2⟩

end DaosOperator
