import Mathlib.Data.List.Basic

/-!
# Runs of event-driven machines

A machine reacts to events; each reaction leaves a new state and an observation.
A run is recorded step by step, so that a property can speak about the order in
which things happened and not only about the states passed through.
-/

namespace Effect

/-- A deterministic machine; the order and the contents of the events carry the
nondeterminism. -/
structure Machine (State Event Obs : Type) where
  step : State → Event → State × Obs

/-- One step of a run. -/
structure Record (State Event Obs : Type) where
  before : State
  event : Event
  obs : Obs
  after : State

/-- `P` holds of every element of a list, given those before it, the newest first. -/
def Along {α : Type} (P : List α → α → Prop) : List α → List α → Prop
  | _, [] => True
  | past, a :: as => P past a ∧ Along P (a :: past) as

/-- Where `P` can be decided, so can it be along a list. -/
def Along.decide {α : Type} {P : List α → α → Prop} [∀ past a, Decidable (P past a)] :
    ∀ past as, Decidable (Along P past as)
  | _, [] => .isTrue trivial
  | past, a :: as =>
      haveI := Along.decide (P := P) (a :: past) as
      inferInstanceAs (Decidable (P past a ∧ Along P (a :: past) as))

instance {α : Type} {P : List α → α → Prop} [∀ past a, Decidable (P past a)] (past as : List α) :
    Decidable (Along P past as) := Along.decide past as

theorem Along.and {α : Type} {P Q : List α → α → Prop} {past as : List α} (hP : Along P past as)
    (hQ : Along Q past as) : Along (fun past a => P past a ∧ Q past a) past as := by
  induction as generalizing past with
  | nil => trivial
  | cons a as ih => exact ⟨⟨hP.1, hQ.1⟩, ih hP.2 hQ.2⟩

theorem Along.forall_mem {α : Type} {P : α → Prop} {past as : List α}
    (h : Along (fun _ => P) past as) : ∀ a ∈ as, P a := by
  induction as generalizing past with
  | nil => simp
  | cons a as ih => exact List.forall_mem_cons.mpr ⟨h.1, ih h.2⟩

namespace Machine

variable {State Event Obs : Type}

/-- The record of one step. -/
def record (m : Machine State Event Obs) (s : State) (e : Event) :
    Record State Event Obs :=
  ⟨s, e, (m.step s e).2, (m.step s e).1⟩

/-- The state after a list of events. -/
def final (m : Machine State Event Obs) : State → List Event → State
  | s, [] => s
  | s, e :: es => m.final (m.step s e).1 es

/-- The records of a list of events. -/
def history (m : Machine State Event Obs) :
    State → List Event → List (Record State Event Obs)
  | _, [] => []
  | s, e :: es => m.record s e :: m.history (m.step s e).1 es

variable {m : Machine State Event Obs}

@[simp] theorem record_before (s : State) (e : Event) :
    (m.record s e).before = s := rfl

@[simp] theorem record_event (s : State) (e : Event) :
    (m.record s e).event = e := rfl

@[simp] theorem record_after (s : State) (e : Event) :
    (m.record s e).after = (m.step s e).1 := rfl

@[simp] theorem record_obs (s : State) (e : Event) :
    (m.record s e).obs = (m.step s e).2 := rfl

theorem final_append (s : State) (es fs : List Event) :
    m.final s (es ++ fs) = m.final (m.final s es) fs := by
  induction es generalizing s with
  | nil => rfl
  | cons e es ih => exact ih _

theorem history_append (s : State) (es fs : List Event) :
    m.history s (es ++ fs) = m.history s es ++ m.history (m.final s es) fs := by
  induction es generalizing s with
  | nil => rfl
  | cons e es ih =>
      simp only [List.cons_append, history, final]
      rw [ih]

/-- A run is recorded event by event. -/
theorem map_event_history (s : State) (es : List Event) :
    (m.history s es).map (·.event) = es := by
  induction es generalizing s with
  | nil => rfl
  | cons e es ih => exact congrArg (e :: ·) (ih _)

/-- Every record of a run is the step of the machine from a state reached by an
initial part of the run. -/
theorem exists_of_mem_history {s : State} {es : List Event}
    {r : Record State Event Obs} (hr : r ∈ m.history s es) :
    ∃ pre e post, es = pre ++ e :: post ∧ r = m.record (m.final s pre) e := by
  induction es generalizing s with
  | nil => simp [history] at hr
  | cons e es ih =>
      simp only [history, List.mem_cons] at hr
      rcases hr with rfl | hr
      · exact ⟨[], e, es, rfl, rfl⟩
      · obtain ⟨pre, e', post, rfl, rfl⟩ := ih hr
        exact ⟨e :: pre, e', post, rfl, rfl⟩

/-- Cutting a recorded run in two cuts its events in two. -/
theorem history_eq_append {s : State} {es : List Event}
    {hs ks : List (Record State Event Obs)} (h : m.history s es = hs ++ ks) :
    ∃ pre post, es = pre ++ post ∧ hs = m.history s pre ∧
      ks = m.history (m.final s pre) post := by
  induction hs generalizing s es with
  | nil => exact ⟨[], es, rfl, rfl, h.symm⟩
  | cons r hs ih =>
      cases es with
      | nil => simp [history] at h
      | cons e es =>
          simp only [history, List.cons_append, List.cons.injEq] at h
          obtain ⟨pre, post, rfl, hhs, hks⟩ := ih h.2
          refine ⟨e :: pre, post, rfl, ?_, hks⟩
          rw [history, h.1, hhs]

/-- Induction along a run.  The invariant relates what has been recorded so far
to the current state; `R` is what the records of the run are assumed to satisfy. -/
theorem history_induction {I : List (Record State Event Obs) → State → Prop}
    {R : Record State Event Obs → Prop} {s : State} (hinit : I [] s)
    (hstep : ∀ h s e, I h s → R (m.record s e) → I (h ++ [m.record s e]) (m.step s e).1)
    (es : List Event) (hmeets : ∀ r ∈ m.history s es, R r) :
    I (m.history s es) (m.final s es) := by
  have hgeneral : ∀ (es : List Event) (h : List (Record State Event Obs)) (s : State),
      I h s → (∀ r ∈ m.history s es, R r) →
        I (h ++ m.history s es) (m.final s es) := by
    intro es
    induction es with
    | nil =>
        intro h s hs _
        simpa [history, final] using hs
    | cons e es ih =>
        intro h s hs hmeets
        have hnext := hstep h s e hs (hmeets _ (by simp [history]))
        have hrest := ih _ _ hnext fun r hr => hmeets r (by simp [history, hr])
        simpa [history, final] using hrest
  simpa using hgeneral es [] s hinit hmeets

/-- An invariant of the states alone. -/
theorem final_induction {I : State → Prop} {R : Record State Event Obs → Prop} {s : State}
    (hinit : I s) (hstep : ∀ s e, I s → R (m.record s e) → I (m.step s e).1)
    (es : List Event) (hmeets : ∀ r ∈ m.history s es, R r) : I (m.final s es) :=
  history_induction (I := fun _ s => I s) hinit
    (fun _ s e hs hm => hstep s e hs hm) es hmeets

/-- What every step of a run does, by an invariant of the states. -/
theorem steps_induction {I : State → Prop} {R P : Record State Event Obs → Prop} {s : State}
    (hinit : I s)
    (hstep : ∀ s e, I s → R (m.record s e) → P (m.record s e) ∧ I (m.step s e).1)
    (es : List Event) (hmeets : ∀ r ∈ m.history s es, R r) : ∀ r ∈ m.history s es, P r := by
  induction es generalizing s with
  | nil => simp [history]
  | cons e es ih =>
      simp only [history, List.forall_mem_cons] at hmeets ⊢
      obtain ⟨hP, hI⟩ := hstep s e hinit hmeets.1
      exact ⟨hP, ih hI hmeets.2⟩

/-- Induction along a run for properties of a step and of those before it. -/
theorem along_induction {I : List (Record State Event Obs) → State → Prop}
    {R P : List (Record State Event Obs) → Record State Event Obs → Prop}
    (hstep : ∀ past s e, I past s → R past (m.record s e) →
      P past (m.record s e) ∧ I (m.record s e :: past) (m.step s e).1)
    {past : List (Record State Event Obs)} {s : State} (hinit : I past s) (es : List Event)
    (hmeets : Along R past (m.history s es)) : Along P past (m.history s es) := by
  induction es generalizing past s with
  | nil => trivial
  | cons e es ih =>
      obtain ⟨hP, hI⟩ := hstep past s e hinit hmeets.1
      exact ⟨hP, ih hI hmeets.2⟩

end Machine
end Effect
