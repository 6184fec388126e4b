import DaosOperator.Effect.Exec

/-!
# Why a program fails

A steady program fails only when one of its calls does.  A brittle program stops at
the first call that fails.  A program with both properties fails exactly when a call
does, which ties the end of an execution to the faults in its log.
-/

namespace Effect.Prog

variable {Call : Type} {Answer : Call → Type} {World : Type} {α β : Type}

/-! ## Steady programs -/

/-- As long as its calls are answered the program goes on, and it returns in `P`. -/
def Steady (P : α → Prop) : Prog Call Answer α → Prop
  | ret a => P a
  | fail _ => False
  | call _ next => ∀ a, (next (.ok a)).Steady P

variable {P Q : α → Prop}

theorem steady_ask (c : Call) : (ask c : Prog Call Answer (Answer c)).Steady fun _ => True :=
  fun _ => trivial

theorem Steady.bind {p : Prog Call Answer α} {f : α → Prog Call Answer β} {Q : β → Prop}
    (hp : p.Steady P) (hf : ∀ a, P a → (f a).Steady Q) : (p.bind f).Steady Q := by
  induction p with
  | ret a => exact hf a hp
  | fail e => exact hp.elim
  | call c next ih => exact fun a => ih _ (hp a)

/-- The rule for a call whose answer does not matter. -/
theorem steady_ask_bind {c : Call} {f : Answer c → Prog Call Answer β} {Q : β → Prop}
    (hf : ∀ a, (f a).Steady Q) : ((ask c).bind f).Steady Q :=
  (steady_ask c).bind fun a _ => hf a

theorem Steady.mapError {p : Prog Call Answer α} {f : String → String} (hp : p.Steady P) :
    (p.mapError f).Steady P := by
  induction p with
  | ret a => exact hp
  | fail e => exact hp
  | call c next ih => exact fun a => ih _ (hp a)

theorem Steady.attempt {p : Prog Call Answer α} (hp : p.Steady P) :
    p.attempt.Steady fun r => ∃ a, r = .ok a ∧ P a := by
  induction p with
  | ret a => exact ⟨a, rfl, hp⟩
  | fail e => exact hp.elim
  | call c next ih => exact fun a => ih _ (hp a)

theorem steady_ite {b : Prop} [Decidable b] {p q : Prog Call Answer α}
    (hp : b → p.Steady P) (hq : ¬b → q.Steady P) : (if b then p else q).Steady P := by
  split
  · next h => exact hp h
  · next h => exact hq h

theorem steady_foldList {body : β → α → Prog Call Answer β} {P : β → Prop} {as : List α}
    (hbody : ∀ b, ∀ a ∈ as, P b → (body b a).Steady P) {b : β} (hb : P b) :
    (foldList body as b).Steady P := by
  induction as generalizing b with
  | nil => exact hb
  | cons a as ih =>
      refine (hbody b a (by simp) hb).bind fun b' hb' => ?_
      exact ih (fun b a ha => hbody b a (by simp [ha])) hb'

/-! ## Calls a program is sure to make -/

/-- As long as its calls are answered the program makes one of the calls `C`. -/
def Makes (C : Call → Prop) : Prog Call Answer α → Prop
  | ret _ => False
  | fail _ => False
  | call c next => C c ∨ ∀ a, (next (.ok a)).Makes C

variable {C : Call → Prop}

theorem Makes.bind {p : Prog Call Answer α} (hp : p.Makes C) (f : α → Prog Call Answer β) :
    (p.bind f).Makes C := by
  induction p with
  | ret a => exact hp.elim
  | fail e => exact hp.elim
  | call c next ih => exact hp.imp id fun hnext a => ih _ (hnext a)

theorem Steady.bind_makes {p : Prog Call Answer α} {f : α → Prog Call Answer β}
    (hp : p.Steady P) (hf : ∀ a, P a → (f a).Makes C) : (p.bind f).Makes C := by
  induction p with
  | ret a => exact hf a hp
  | fail e => exact hp.elim
  | call c next ih => exact Or.inr fun a => ih _ (hp a)

/-- A loop whose body makes the call for one of the elements makes it. -/
theorem makes_foldList {body : β → α → Prog Call Answer β} {as : List α}
    (hbody : ∀ b, ∀ a ∈ as, (body b a).Steady fun _ => True) {a : α} (ha : a ∈ as)
    (hmakes : ∀ b, (body b a).Makes C) (b : β) : (foldList body as b).Makes C := by
  induction as generalizing b with
  | nil => cases ha
  | cons a' as ih =>
      rcases List.mem_cons.mp ha with rfl | ha
      · exact (hmakes b).bind _
      · refine (hbody b a' (by simp)).bind_makes fun b' _ => ?_
        exact ih (fun b x hx => hbody b x (by simp [hx])) ha b'

/-! ## Brittle programs -/

/-- A call that fails ends the program. -/
def Brittle : Prog Call Answer α → Prop
  | ret _ => True
  | fail _ => True
  | call _ next => (∀ e, ∃ e', next (.error e) = fail e') ∧ ∀ a, (next (.ok a)).Brittle

theorem brittle_ask (c : Call) : (ask c : Prog Call Answer (Answer c)).Brittle :=
  ⟨fun e => ⟨e, rfl⟩, fun _ => trivial⟩

theorem Brittle.bind {p : Prog Call Answer α} {f : α → Prog Call Answer β} (hp : p.Brittle)
    (hf : ∀ a, (f a).Brittle) : (p.bind f).Brittle := by
  induction p with
  | ret a => exact hf a
  | fail e => trivial
  | call c next ih =>
      refine ⟨fun e => ?_, fun a => ih _ (hp.2 a)⟩
      obtain ⟨e', he'⟩ := hp.1 e
      exact ⟨e', by simp only [he', Prog.bind]⟩

theorem brittle_ask_bind {c : Call} {f : Answer c → Prog Call Answer β}
    (hf : ∀ a, (f a).Brittle) : ((ask c).bind f).Brittle :=
  (brittle_ask c).bind hf

theorem Brittle.mapError {p : Prog Call Answer α} {f : String → String} (hp : p.Brittle) :
    (p.mapError f).Brittle := by
  induction p with
  | ret a => trivial
  | fail e => trivial
  | call c next ih =>
      refine ⟨fun e => ?_, fun a => ih _ (hp.2 a)⟩
      obtain ⟨e', he'⟩ := hp.1 e
      exact ⟨f e', by simp only [he', Prog.mapError]⟩

theorem brittle_ite {b : Prop} [Decidable b] {p q : Prog Call Answer α}
    (hp : p.Brittle) (hq : q.Brittle) : (if b then p else q).Brittle := by
  split
  · exact hp
  · exact hq

theorem brittle_foldList {body : β → α → Prog Call Answer β} {as : List α}
    (hbody : ∀ b, ∀ a ∈ as, (body b a).Brittle) (b : β) : (foldList body as b).Brittle := by
  induction as generalizing b with
  | nil => trivial
  | cons a as ih =>
      exact (hbody b a (by simp)).bind fun b' => ih (fun b a ha => hbody b a (by simp [ha])) b'

/-! ## Executions -/

variable {H : Handler Call Answer World} {rely : Entry Call World → Prop} {s : Point Call World}

/-- The result of a program that begins with a call. -/
theorem result_ask_bind (c : Call) (f : Answer c → Prog Call Answer α) (fs : List Fault)
    (w : World) :
    (((ask c).bind f).exec H fs w).result =
      match (H.respond c (H.pick c fs).1 w).1 with
      | .ok a => ((f a).exec H (H.pick c fs).2 (H.respond c (H.pick c fs).1 w).2).result
      | .error e => .error e := by
  simp only [ask, bind, exec]
  cases (H.respond c (H.pick c fs).1 w).1 <;> rfl

theorem ask_bind_bind (c : Call) (f : Answer c → Prog Call Answer α) (g : α → Prog Call Answer β) :
    ((ask c).bind f).bind g = (ask c).bind fun a => (f a).bind g := by
  simp only [ask, bind]
  congr 1
  funext r
  cases r <;> rfl

/-- The rule for a call that is sure to be answered. -/
theorem wp_answered {c : Call} {f : Answer c → Prog Call Answer β}
    {B : β → Point Call World → Prop} {W : Point Call World → Prop}
    (hc : ∀ g, H.Admits c g → rely ⟨c, g, s.world⟩ → g = .none)
    (h : (f (H.perform c s.world).1).wp H rely (H.next s c .none) B W) :
    ((ask c).bind f).wp H rely s B W := by
  intro g hg hrely
  obtain rfl := hc g hg hrely
  exact h

/-- The log of an execution extends the log it starts from. -/
theorem wp_log (p : Prog Call Answer α) : p.wp H rely s
    (fun _ t => ∃ new, t.log = s.log ++ new) fun t => ∃ new, t.log = s.log ++ new := by
  induction p generalizing s with
  | ret a => exact ⟨[], by simp⟩
  | fail e => exact ⟨[], by simp⟩
  | call c next ih =>
      intro f _ _
      refine wp_mono (ih _) ?_ ?_
      · rintro a t ⟨new, hnew⟩
        exact ⟨⟨c, f, s.world⟩ :: new, by rw [hnew, Handler.next_log]; simp⟩
      · rintro t ⟨new, hnew⟩
        exact ⟨⟨c, f, s.world⟩ :: new, by rw [hnew, Handler.next_log]; simp⟩

/-- The call is in the log of every execution whose calls are answered. -/
theorem Makes.wp {p : Prog Call Answer α} (hp : p.Makes C)
    (hrely : ∀ e, rely e → e.fault = .none) : p.wp H rely s
    (fun _ t => ∃ e ∈ t.log, C e.call) fun t => ∃ e ∈ t.log, C e.call := by
  induction p generalizing s with
  | ret a => exact hp.elim
  | fail e => exact hp.elim
  | call c next ih =>
      intro f _ hentry
      obtain rfl : f = .none := hrely _ hentry
      rcases hp with hc | hnext
      · have hmem : ∀ t : Point Call World, (∃ new, t.log = (H.next s c .none).log ++ new) →
            ∃ e ∈ t.log, C e.call := by
          rintro t ⟨new, hnew⟩
          exact ⟨⟨c, .none, s.world⟩, by rw [hnew, Handler.next_log]; simp, hc⟩
        exact wp_mono (wp_log _) (fun _ => hmem) hmem
      · exact ih _ (hnext _)

/-- A steady program that fails has a call that failed. -/
theorem Steady.wp {p : Prog Call Answer α} (hp : p.Steady P) : p.wp H rely s
    (fun _ t => ∃ new, t.log = s.log ++ new)
    fun t => ∃ new, t.log = s.log ++ new ∧ ∃ y ∈ new, y.fault ≠ .none := by
  induction p generalizing s with
  | ret a => exact ⟨[], by simp⟩
  | fail e => exact hp.elim
  | call c next ih =>
      intro f _ _
      have hstart : (H.next s c f).log = s.log ++ [⟨c, f, s.world⟩] := rfl
      by_cases hf : f = .none
      · subst hf
        refine wp_mono (ih _ (hp _)) ?_ ?_
        · rintro a t ⟨new, hnew⟩
          exact ⟨⟨c, .none, s.world⟩ :: new, by rw [hnew, hstart]; simp⟩
        · rintro t ⟨new, hnew, y, hy, hfault⟩
          exact ⟨⟨c, .none, s.world⟩ :: new, by rw [hnew, hstart]; simp, y, by simp [hy], hfault⟩
      · refine wp_mono (wp_log _) ?_ ?_
        · rintro a t ⟨new, hnew⟩
          exact ⟨⟨c, f, s.world⟩ :: new, by rw [hnew, hstart]; simp⟩
        · rintro t ⟨new, hnew⟩
          exact ⟨⟨c, f, s.world⟩ :: new, by rw [hnew, hstart]; simp, ⟨c, f, s.world⟩, by simp, hf⟩

/-- A brittle program that returns has had all its calls answered. -/
theorem Brittle.wp {p : Prog Call Answer α} (hp : p.Brittle) : p.wp H rely s
    (fun _ t => ∃ new, t.log = s.log ++ new ∧ ∀ y ∈ new, y.fault = .none)
    fun t => ∃ new, t.log = s.log ++ new := by
  induction p generalizing s with
  | ret a => exact ⟨[], by simp, by simp⟩
  | fail e => exact ⟨[], by simp⟩
  | call c next ih =>
      intro f _ _
      have hstart : (H.next s c f).log = s.log ++ [⟨c, f, s.world⟩] := rfl
      cases f with
      | none =>
          refine wp_mono (ih _ (hp.2 _)) ?_ ?_
          · rintro a t ⟨new, hnew, hall⟩
            refine ⟨⟨c, .none, s.world⟩ :: new, by rw [hnew, hstart]; simp, ?_⟩
            intro y hy
            rcases List.mem_cons.mp hy with rfl | hy
            · rfl
            · exact hall y hy
          · rintro t ⟨new, hnew⟩
            exact ⟨⟨c, .none, s.world⟩ :: new, by rw [hnew, hstart]; simp⟩
      | failed e | lost e =>
          obtain ⟨e', he'⟩ := hp.1 e
          simp only [Handler.respond, he']
          exact ⟨[_], hstart⟩

end Effect.Prog
