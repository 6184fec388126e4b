import DaosOperator.System.Stages
import DaosOperator.Surroundings

/-!
# Invariants of what the format gate reports

Of all stages of a reconcile only the format gate writes the fields about formatting
and ranks.  What each of its outcomes keeps therefore holds of every stored status.
-/

namespace DaosOperator.System

open Effect

/-- What the format gate and the membership query report. -/
def gateReport (st : DaosSystemStatus) : DaosSystemStatus :=
  { formatted := st.formatted, pendingFormat := st.pendingFormat, formatTime := st.formatTime
    lastFormat := st.lastFormat, lastQueryTime := st.lastQueryTime, ranks := st.ranks
    ranksJoined := st.ranksJoined, ranksTotal := st.ranksTotal }

/-- A property of the report that every outcome of the gate keeps. -/
structure GateInvariant (Q : DaosSystemStatus → Prop) : Prop where
  initial : Q {}
  congr : ∀ st st', gateReport st' = gateReport st → Q st → Q st'
  format : ∀ inp st st', FormatResult inp st st' → Q st → Q st'

/-- The property holds of every stored status. -/
def AllStored (Q : DaosSystemStatus → Prop) (w : World) : Prop :=
  ∀ name sys, stored w.systems name = some sys → Q sys.status

section Invariant

variable {Q : DaosSystemStatus → Prop} {rely : Entry Call World → Prop} {s : Point Call World}
  {name ns : String}

theorem AllStored.respond {S : Scope} {c : Call} {w : World} (h : AllStored Q w)
    (hc : SystemCall name ns S c) (hS : S.status = false) (f : Fault) :
    AllStored Q (cluster.respond c f w).2 := by
  intro other sys hsys
  by_cases hother : other = name
  · subst hother
    rcases hc.stored_cases (f := f) (w := w) with hsame | ⟨p, hp, -, hpatched⟩ | ⟨st, hst, -⟩
    · exact h other sys (by rw [← hsame, hsys])
    · rw [hpatched] at hsys
      obtain ⟨old, hold, rfl⟩ := Option.map_eq_some_iff.mp hsys
      have hstatus : (p.apply old).status = old.status := by cases p <;> rfl
      rw [hstatus]
      exact h other old hold
    · simp [hS] at hst
  · refine h other sys ?_
    rw [← hsys]
    unfold stored
    rw [hc.systems_get hother]

theorem AllStored.write {w : World} (h : AllStored Q w) {st : DaosSystemStatus} (hst : Q st)
    (f : Fault) : AllStored Q (cluster.respond (.updateSystemStatus name st) f w).2 := by
  intro other sys hsys
  rw [Handler.respond_world] at hsys
  split at hsys
  · by_cases hother : other = name
    · subst hother
      simp only [cluster, perform, stored_modify_self] at hsys
      obtain ⟨old, hold, heq⟩ := Option.bind_eq_some_iff.mp hsys
      cases heq
      exact hst
    · simp only [cluster, perform, stored_modify_of_ne hother] at hsys
      exact h other sys hsys
  · exact h other sys hsys

/-- A change from outside: a new object starts with an empty status. -/
theorem AllStored.apply {w : World} (h : AllStored Q w) (hinitial : Q {}) (c : Change) :
    AllStored Q (c.apply w) := by
  intro name sys hsys
  have hchange := systemChange w name c
  rw [hsys] at hchange
  generalize hold : stored w.systems name = old at hchange
  cases hchange with
  | same => exact h name sys hold
  | create annotations spec => exact hinitial
  | edit spec s => exact h name s hold
  | annotate key value s => exact h name s hold
  | delete s => exact h name s hold

theorem AllStored.congr {w w' : World} (h : AllStored Q w) (hside : systemSide w' = systemSide w) :
    AllStored Q w' := by
  have hsystems : w'.systems = w.systems := congrArg SystemSide.systems hside
  intro name sys hsys
  rw [hsystems] at hsys
  exact h name sys hsys

theorem AllStored.wp {α : Type} {S : Scope} {P : α → Prop} {q : Op α}
    (h : AllStored Q s.world) (hq : q.Obeys (SystemCall name ns S) P) (hS : S.status = false) :
    q.wp cluster rely s (fun a t => P a ∧ AllStored Q t.world) fun t => AllStored Q t.world :=
  hq.wp (I := fun t => AllStored Q t.world) (fun _ f _ hc _ _ ht => ht.respond hc hS f) h

/-- The property holds of every stored status and of every status written so far. -/
structure AllReported (Q : DaosSystemStatus → Prop) (t : Point Call World) : Prop where
  stored : AllStored Q t.world
  written : ∀ x ∈ t.log, ∀ other st, x.call = .updateSystemStatus other st → Q st

theorem AllReported.start {w : World} (h : AllStored Q w) : AllReported Q ⟨w, []⟩ :=
  ⟨h, by simp⟩

theorem AllReported.next {S : Scope} {c : Call} (h : AllReported Q s)
    (hc : SystemCall name ns S c) (hS : S.status = false) (f : Fault) :
    AllReported Q (cluster.next s c f) where
  stored := h.stored.respond hc hS f
  written := by
    intro x hx other st hcall
    rcases Handler.mem_next_log hx with hx | rfl
    · exact h.written x hx other st hcall
    · subst hcall
      have hwrites := hc.of_status.2
      rw [hS] at hwrites
      cases hwrites

theorem AllReported.write (h : AllReported Q s) {st : DaosSystemStatus} (hst : Q st) (f : Fault) :
    AllReported Q (cluster.next s (.updateSystemStatus name st) f) where
  stored := h.stored.write hst f
  written := by
    intro x hx other st' hcall
    rcases Handler.mem_next_log hx with hx | rfl
    · exact h.written x hx other st' hcall
    · cases hcall
      exact hst

theorem AllReported.wp {α : Type} {S : Scope} {P : α → Prop} {q : Op α} (h : AllReported Q s)
    (hq : q.Obeys (SystemCall name ns S) P) (hS : S.status = false) :
    q.wp cluster rely s (fun a t => P a ∧ AllReported Q t) (AllReported Q) :=
  hq.wp (I := AllReported Q) (fun _ f _ hc _ _ ht => ht.next hc hS f) h

theorem GateInvariant.wp_reconcile (hQ : GateInvariant Q) (h : AllReported Q s) :
    (reconcile name).wp cluster rely s (fun _ => AllReported Q) (AllReported Q) := by
  have hread : ∀ f, AllReported Q (cluster.next s (.getSystem name) f) := by
    intro f
    have hc : SystemCall name "" {} (.getSystem name) := .quiet rfl
    exact h.next hc rfl f
  refine System.wp_reconcile (fun f _ => hread f) ?_
  intro sys hsys _ _
  have hstored : Q sys.status := h.stored name sys hsys
  -- a stage that reports nothing keeps what was reported
  have hkeeps : ∀ {α : Type} {S : Scope} {pass : α → Pass} {q : Op α} {p : Pass}
      {t : Point Call World} (mask : DaosSystemStatus → DaosSystemStatus),
      S.status = false → (∀ st, gateReport (mask st) = gateReport st) →
      q.Obeys (SystemCall sys.name (namespaceOf sys) S)
        (fun r => Advances S.patches mask p (pass r)) → AllReported Q t ∧ Q p.status →
      q.wp cluster rely t (fun r u => AllReported Q u ∧ Q (pass r).status) (AllReported Q) := by
    intro α S pass q p t mask hS hmask hq ht
    refine Prog.wp_mono (ht.1.wp hq hS) ?_ fun _ h => h
    rintro r u ⟨hadv, hu⟩
    refine ⟨hu, hQ.congr p.status _ ?_ ht.2⟩
    rw [← hmask, hadv.status, hmask]
  have hstages : StageProof sys rely (AllReported Q) (AllReported Q)
      fun _ p t => AllReported Q t ∧ Q p.status :=
    { render := fun c f t hc _ _ ht => ht.next hc rfl f
      stop := fun _ ht => ht
      enter := fun p t hp ht => by
        have hmask := congrArg gateReport hp.carried.status_eq
        exact ⟨ht, hQ.congr sys.status _ hmask hstored⟩
      cond := fun _ p st t hst ht => by
        have hmask := congrArg gateReport hst
        exact ⟨ht.1, hQ.congr p.status _ hmask ht.2⟩
      skip := fun _ _ _ ht => ht
      upgrade := fun rendered p t hp ht => hkeeps upgradeMask rfl (fun _ => rfl)
        (hp.carried.obeys_upgrade rendered) ht
      format := fun inp p t hp ht => by
        have hobeys := obeys_reconcileFormat hp.patched.name hp.ns
        refine Prog.wp_mono (Prog.wp_and_returns (ht.1.wp hobeys rfl)
          (obeys_reconcileFormat_result inp p)) ?_ fun _ h => h
        rintro r u ⟨⟨-, hu⟩, hr⟩
        exact ⟨hu, hQ.format inp _ _ hr ht.2⟩
      rankOp := fun p t hp ht => hkeeps rankOpMask rfl (fun _ => rfl)
        (obeys_reconcileRankOp hp.patched.name) ht
      engines := fun p t hp ht => hkeeps conditionMask rfl (fun _ => rfl)
        (obeys_reconcileEngineRestart hp.name) ht
      write := fun _ p t requeue _ _ ht => by
        refine Prog.wp_bind (A := fun _ => AllReported Q) ?_ fun _ _ hu => hu
        exact Prog.wp_ask (fun _ => ht.1.write ht.2 .none) fun f _ _ _ => ht.1.write ht.2 f }
  exact hstages.wp_reconcileSystem (hread .none)

/-- Only reconciles of systems write statuses of systems. -/
theorem event_of_updateSystemStatus {w : World} {e : Event} {x : Entry Call World}
    {st : DaosSystemStatus} (hx : x ∈ (operator.step w e).2)
    (hcall : x.call = .updateSystemStatus name st) :
    ∃ other faults, e = .reconcileSystem other faults := by
  have hc := eventCall_of_mem hx
  rw [hcall] at hc
  cases hc with
  | read h => cases h
  | system _ _ => exact ⟨_, _, rfl⟩
  | pool _ h =>
      cases h with
      | quiet h => cases h
  | container _ h =>
      cases h with
      | quiet h => cases h

theorem GateInvariant.step (hQ : GateInvariant Q) {w : World} (h : AllStored Q w) (e : Event) :
    AllReported Q ⟨(operator.step w e).1, (operator.step w e).2⟩ := by
  have helsewhere : e.system = none → (∀ c, e ≠ .change c) →
      AllReported Q ⟨(operator.step w e).1, (operator.step w e).2⟩ := by
    intro hsystem hreconcile
    constructor
    · exact step_keeps (fun _ _ _ hc hv => hv.congr (hc.systemSide hsystem))
        (fun c hc => absurd hc (hreconcile c)) h
    · intro x hx other st hcall
      obtain ⟨name, faults, rfl⟩ := event_of_updateSystemStatus hx hcall
      cases hsystem
  cases e with
  | change c => exact .start (h.apply hQ.initial c)
  | reconcileSystem name faults =>
      have hwp : (reconcile name).wp cluster (fun _ => True) ⟨w, []⟩
          (fun _ => AllReported Q) (AllReported Q) := hQ.wp_reconcile (.start h)
      exact Prog.exec_ends hwp faults fun _ _ => trivial
  | reconcilePool name faults => exact helsewhere rfl (by rintro c ⟨⟩)
  | reconcileContainer key faults => exact helsewhere rfl (by rintro c ⟨⟩)

/-- In every run, the invariant holds of every stored status. -/
theorem GateInvariant.final (hQ : GateInvariant Q) (events : List Event) :
    AllStored Q (final events) :=
  Machine.final_induction (I := AllStored Q) (R := fun _ => True) (by simp [AllStored, stored])
    (fun _ e hw _ => (hQ.step hw e).stored) events fun _ _ => trivial

/-- In every run, the invariant holds of every status written. -/
theorem GateInvariant.written (hQ : GateInvariant Q) (events : List Event) :
    ∀ step ∈ history events, ∀ x ∈ step.obs, ∀ name st,
      x.call = .updateSystemStatus name st → Q st := by
  refine Machine.steps_induction (I := AllStored Q) (R := fun _ => True)
    (by simp [AllStored, stored]) ?_ events fun _ _ => trivial
  intro w e h _
  have hstep := hQ.step h e
  exact ⟨hstep.written, hstep.stored⟩

end Invariant

end DaosOperator.System
