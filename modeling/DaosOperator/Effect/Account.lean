import DaosOperator.Effect.Exec

/-!
# Accounting for the calls of an execution

Every call of an execution is justified by what was done before it.  A justification may
point at earlier entries of the log, so it must stay valid as the log grows.  The log in
turn accounts for the final world: what each of its entries keeps, the execution keeps.
-/

namespace Effect

variable {Call : Type} {Answer : Call → Type} {World : Type} {α : Type}

/-- The justifications of calls stay valid as the log grows. -/
def Stable (S : List (Entry Call World) → Call → Prop) : Prop :=
  ∀ log new c, S log c → S (log ++ new) c

/-- Every call so far is justified. -/
def Accounted (S : List (Entry Call World) → Call → Prop) (t : Point Call World) : Prop :=
  ∀ x ∈ t.log, S t.log x.call

variable {S : List (Entry Call World) → Call → Prop} {H : Handler Call Answer World}
  {s t : Point Call World} {c : Call}

theorem Accounted.next (hS : Stable S) (ht : Accounted S t) (hc : S t.log c) (f : Fault) :
    Accounted S (H.next t c f) := by
  intro x hx
  rw [Handler.next_log] at hx ⊢
  rcases List.mem_append.mp hx with hold | hnew
  · exact hS _ _ _ (ht x hold)
  · rw [List.mem_singleton.mp hnew]
    exact hS _ _ _ hc

/-- What every entry of its log keeps, an execution keeps. -/
theorem Prog.exec_replay {I : World → Prop} (p : Prog Call Answer α) (fs : List Fault) {w : World}
    (hw : I w)
    (hkeep : ∀ x ∈ (p.exec H fs w).log, I x.before → I (H.respond x.call x.fault x.before).2) :
    I (p.exec H fs w).world ∧ ∀ x ∈ (p.exec H fs w).log, I x.before := by
  induction p generalizing fs w with
  | ret a => exact ⟨hw, by simp [exec]⟩
  | fail e => exact ⟨hw, by simp [exec]⟩
  | call c next ih =>
      have hhead : I (H.respond c (H.pick c fs).1 w).2 := hkeep ⟨c, _, w⟩ (by simp [exec]) hw
      obtain ⟨hend, hlog⟩ := ih _ (H.pick c fs).2 hhead fun x hx =>
        hkeep x (by simp only [exec, List.mem_cons]; exact Or.inr hx)
      refine ⟨hend, fun x hx => ?_⟩
      simp only [exec, List.mem_cons] at hx
      rcases hx with rfl | hx
      · exact hw
      · exact hlog x hx

/-- The same for what is said about the log as well. -/
theorem Prog.exec_keeps {I : Point Call World → Prop} (p : Prog Call Answer α) (fs : List Fault)
    {w : World} {log : List (Entry Call World)} (hw : I ⟨w, log⟩)
    (hkeep : ∀ x ∈ (p.exec H fs w).log, ∀ log,
      I ⟨x.before, log⟩ → I (H.next ⟨x.before, log⟩ x.call x.fault)) :
    I ⟨(p.exec H fs w).world, log ++ (p.exec H fs w).log⟩ := by
  induction p generalizing fs w log with
  | ret a => simpa [exec] using hw
  | fail e => simpa [exec] using hw
  | call c next ih =>
      have hhead := hkeep ⟨c, (H.pick c fs).1, w⟩ (by simp [exec]) log hw
      have hend := ih _ (H.pick c fs).2 hhead fun x hx =>
        hkeep x (by simp only [exec, List.mem_cons]; exact Or.inr hx)
      simpa [exec] using hend

end Effect
