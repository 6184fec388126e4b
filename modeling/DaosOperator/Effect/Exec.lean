import DaosOperator.Effect.Prog

/-!
# Executing programs under faults

A handler says what each call does to the world.  Execution consumes a script
of faults: a fallible call may be refused without effect, and it may also take
effect while its caller is told that it failed.  The log keeps every call with
its fault and the world it met.

The second half is a program logic for such executions.  Its assertions speak
about a point of an execution, which is the world together with the log so far;
`p.wp H rely s A W` says that every execution of `p` from `s` whose entries
satisfy `rely` returns in `A` or fails in `W`.
-/

namespace Effect

/-- What happens to one call. -/
inductive Fault where
  /-- The call is answered. -/
  | none
  /-- The call has no effect and returns an error. -/
  | failed (error : String)
  /-- The call takes effect and still returns an error. -/
  | lost (error : String)
  deriving DecidableEq

/-- The call had its effect. -/
def Fault.effective : Fault → Bool
  | .failed _ => false
  | _ => true

/-- The call was refused. -/
def Fault.isFailed : Fault → Bool
  | .failed _ => true
  | _ => false

/-- The call had its effect, and its caller was told that it failed. -/
def Fault.isLost : Fault → Bool
  | .lost _ => true
  | _ => false

/-- An interpretation of calls on a world. -/
structure Handler (Call : Type) (Answer : Call → Type) (World : Type) where
  perform : (c : Call) → World → Answer c × World
  /-- Calls that leave the process can fail; the others cannot. -/
  fallible : Call → Bool

/-- One executed call. -/
structure Entry (Call World : Type) where
  call : Call
  fault : Fault
  before : World

/-- The end of an execution. -/
structure Outcome (Call World α : Type) where
  result : Except String α
  world : World
  log : List (Entry Call World)

/-- A point of an execution: the world, and the calls so far. -/
structure Point (Call World : Type) where
  world : World
  log : List (Entry Call World)

variable {Call : Type} {Answer : Call → Type} {World : Type} {α β : Type}

namespace Handler

/-- The answer a caller sees and the world left behind. -/
def respond (H : Handler Call Answer World) (c : Call) :
    Fault → World → Except String (Answer c) × World
  | .none, w => (.ok (H.perform c w).1, (H.perform c w).2)
  | .failed e, w => (.error e, w)
  | .lost e, w => (.error e, (H.perform c w).2)

/-- Faults that can befall a call. -/
def Admits (H : Handler Call Answer World) (c : Call) (f : Fault) : Prop :=
  f = .none ∨ H.fallible c = true

/-- The next fault of a script and what is left of the script. -/
def pick (H : Handler Call Answer World) (c : Call) (fs : List Fault) :
    Fault × List Fault :=
  if H.fallible c then (fs.headD .none, fs.tail) else (.none, fs)

/-- The point after a call. -/
def next (H : Handler Call Answer World) (s : Point Call World) (c : Call) (f : Fault) :
    Point Call World :=
  ⟨(H.respond c f s.world).2, s.log ++ [⟨c, f, s.world⟩]⟩

variable {H : Handler Call Answer World} {c : Call} {f : Fault} {w : World}
  {s : Point Call World}

theorem admits_pick (H : Handler Call Answer World) (c : Call) (fs : List Fault) :
    H.Admits c (H.pick c fs).1 := by
  unfold Admits pick
  split
  · next h => exact Or.inr h
  · exact Or.inl rfl

/-- A call that had no effect leaves the world alone; otherwise `perform` happened. -/
theorem respond_world :
    (H.respond c f w).2 = if f.effective then (H.perform c w).2 else w := by
  cases f <;> rfl

@[simp] theorem next_world : (H.next s c f).world = (H.respond c f s.world).2 := rfl

@[simp] theorem next_log : (H.next s c f).log = s.log ++ [⟨c, f, s.world⟩] := rfl

theorem mem_next_log {x : Entry Call World} (hx : x ∈ (H.next s c f).log) :
    x ∈ s.log ∨ x = ⟨c, f, s.world⟩ := by
  rwa [next_log, List.mem_append, List.mem_singleton] at hx

end Handler

namespace Prog

/-- Execute a program on a world under a script of faults. -/
def exec (H : Handler Call Answer World) :
    Prog Call Answer α → List Fault → World → Outcome Call World α
  | ret a, _, w => ⟨.ok a, w, []⟩
  | fail e, _, w => ⟨.error e, w, []⟩
  | call c next, fs, w =>
      let fault := (H.pick c fs).1
      let reply := H.respond c fault w
      let rest := (next reply.1).exec H (H.pick c fs).2 reply.2
      ⟨rest.result, rest.world, ⟨c, fault, w⟩ :: rest.log⟩

/-! ## Executions without faults -/

section Unfaulted

variable {H : Handler Call Answer World} {w : World}

theorem pick_nil (H : Handler Call Answer World) (c : Call) : H.pick c [] = (.none, []) := by
  unfold Handler.pick
  split <;> rfl

theorem exec_ask_nil (c : Call) : ((ask c : Prog Call Answer (Answer c)).exec H [] w).result =
      .ok (H.perform c w).1 ∧
    ((ask c : Prog Call Answer (Answer c)).exec H [] w).world = (H.perform c w).2 := by
  simp [ask, exec, pick_nil, Handler.respond]

theorem exec_bind_nil {p : Prog Call Answer α} {k : α → Prog Call Answer β} {a : α}
    (hp : (p.exec H [] w).result = .ok a) :
    ((p.bind k).exec H [] w).result = ((k a).exec H [] (p.exec H [] w).world).result := by
  induction p generalizing w with
  | ret b =>
      cases hp
      rfl
  | fail e => cases hp
  | call c next ih =>
      simp only [bind, exec, pick_nil] at hp ⊢
      exact ih _ hp

theorem exec_mapError_nil {p : Prog Call Answer α} {f : String → String} {a : α}
    (hp : (p.exec H [] w).result = .ok a) :
    ((p.mapError f).exec H [] w).result = .ok a ∧
      ((p.mapError f).exec H [] w).world = (p.exec H [] w).world := by
  induction p generalizing w with
  | ret b => exact ⟨hp, rfl⟩
  | fail e => cases hp
  | call c next ih =>
      simp only [mapError, exec, pick_nil] at hp ⊢
      exact ih _ hp

/-- Without faults every call is answered. -/
theorem fault_of_exec_nil (p : Prog Call Answer α) :
    ∀ e ∈ (p.exec H [] w).log, e.fault = .none := by
  induction p generalizing w with
  | ret a => simp [exec]
  | fail e => simp [exec]
  | call c next ih =>
      intro e he
      simp only [exec, pick_nil, List.mem_cons] at he
      rcases he with rfl | he
      · rfl
      · exact ih _ e he

end Unfaulted

/-! ## Weakest preconditions -/

/-- Every execution from `s` whose entries satisfy `rely` returns in `A` or fails in `W`. -/
def wp (H : Handler Call Answer World) (rely : Entry Call World → Prop) :
    Prog Call Answer α → Point Call World →
      (α → Point Call World → Prop) → (Point Call World → Prop) → Prop
  | ret a, s, A, _ => A a s
  | fail _, s, _, W => W s
  | call c next, s, A, W =>
      ∀ f, H.Admits c f → rely ⟨c, f, s.world⟩ →
        (next (H.respond c f s.world).1).wp H rely (H.next s c f) A W

variable {H : Handler Call Answer World} {rely : Entry Call World → Prop}
  {A A' : α → Point Call World → Prop} {B : β → Point Call World → Prop}
  {W W' I : Point Call World → Prop} {s : Point Call World}

/-- Executions obey the logic: where an execution that satisfies `rely` can end. -/
theorem exec_of_wp {p : Prog Call Answer α} {w : World} {log : List (Entry Call World)}
    (hp : p.wp H rely ⟨w, log⟩ A W) (fs : List Fault)
    (hrely : ∀ e ∈ (p.exec H fs w).log, rely e) :
    (∃ a, (p.exec H fs w).result = .ok a ∧
        A a ⟨(p.exec H fs w).world, log ++ (p.exec H fs w).log⟩) ∨
      (∃ e, (p.exec H fs w).result = .error e) ∧
        W ⟨(p.exec H fs w).world, log ++ (p.exec H fs w).log⟩ := by
  induction p generalizing w fs log with
  | ret a => exact Or.inl ⟨a, rfl, by simpa [exec, wp] using hp⟩
  | fail e => exact Or.inr ⟨⟨e, rfl⟩, by simpa [exec, wp] using hp⟩
  | call c next ih =>
      have hhead : rely ⟨c, (H.pick c fs).1, w⟩ := hrely _ (by simp [exec])
      have hnext := hp _ (H.admits_pick c fs) hhead
      have hend := ih _ hnext (H.pick c fs).2 fun e he =>
        hrely e (by simp only [exec, List.mem_cons]; exact Or.inr he)
      simpa [exec] using hend

/-- What a returned value satisfies. -/
theorem exec_ok_of_wp {p : Prog Call Answer α} {w : World} (hp : p.wp H rely ⟨w, []⟩ A W)
    {fs : List Fault} (hrely : ∀ e ∈ (p.exec H fs w).log, rely e) {a : α}
    (ha : (p.exec H fs w).result = .ok a) :
    A a ⟨(p.exec H fs w).world, (p.exec H fs w).log⟩ := by
  rcases exec_of_wp hp fs hrely with ⟨b, hb, hA⟩ | ⟨⟨e, he⟩, -⟩
  · rw [ha] at hb
    cases hb
    exact hA
  · rw [ha] at he
    cases he

/-- Where an execution that satisfies `rely` ends, whether it returns or fails. -/
theorem exec_ends {p : Prog Call Answer α} {w : World}
    (hp : p.wp H rely ⟨w, []⟩ (fun _ => W) W) (fs : List Fault)
    (hrely : ∀ e ∈ (p.exec H fs w).log, rely e) :
    W ⟨(p.exec H fs w).world, (p.exec H fs w).log⟩ := by
  rcases exec_of_wp hp fs hrely with ⟨_, _, h⟩ | ⟨_, h⟩
  · exact h
  · exact h

@[simp] theorem wp_ret {a : α} :
    (ret a : Prog Call Answer α).wp H rely s A W ↔ A a s := Iff.rfl

@[simp] theorem wp_fail (e : String) :
    (fail e : Prog Call Answer α).wp H rely s A W ↔ W s := Iff.rfl

theorem wp_mono {p : Prog Call Answer α} (hp : p.wp H rely s A W)
    (hA : ∀ a s, A a s → A' a s) (hW : ∀ s, W s → W' s) : p.wp H rely s A' W' := by
  induction p generalizing s with
  | ret a => exact hA _ _ hp
  | fail e => exact hW _ hp
  | call c next ih =>
      intro f hf hrely
      exact ih _ (hp f hf hrely)

/-- Two postconditions of the same program hold together. -/
theorem wp_and {p : Prog Call Answer α} (hp : p.wp H rely s A W) (hq : p.wp H rely s A' W') :
    p.wp H rely s (fun a s => A a s ∧ A' a s) fun s => W s ∧ W' s := by
  induction p generalizing s with
  | ret a => exact ⟨hp, hq⟩
  | fail e => exact ⟨hp, hq⟩
  | call c next ih =>
      intro f hf hrely
      exact ih _ (hp f hf hrely) (hq f hf hrely)

/-- The rule of sequencing. -/
theorem wp_bind {p : Prog Call Answer α} {f : α → Prog Call Answer β}
    (hp : p.wp H rely s A W) (hf : ∀ a s, A a s → (f a).wp H rely s B W) :
    (p.bind f).wp H rely s B W := by
  induction p generalizing s with
  | ret a => exact hf a s hp
  | fail e => exact hp
  | call c next ih =>
      intro g hg hrely
      exact ih _ (hp g hg hrely)

/-- The rule for one call whose failure ends the program. -/
theorem wp_ask {c : Call} {A : Answer c → Point Call World → Prop}
    (hok : rely ⟨c, .none, s.world⟩ → A (H.perform c s.world).1 (H.next s c .none))
    (hbad : ∀ f, f ≠ .none → H.fallible c = true → rely ⟨c, f, s.world⟩ → W (H.next s c f)) :
    (ask c : Prog Call Answer (Answer c)).wp H rely s A W := by
  intro f hf hrely
  cases f with
  | none => exact hok hrely
  | failed e => exact hbad (.failed e) (by simp) (by simpa [Handler.Admits] using hf) hrely
  | lost e => exact hbad (.lost e) (by simp) (by simpa [Handler.Admits] using hf) hrely

theorem wp_mapError {p : Prog Call Answer α} {g : String → String} :
    (p.mapError g).wp H rely s A W ↔ p.wp H rely s A W := by
  induction p generalizing s with
  | ret a => rfl
  | fail e => rfl
  | call c next ih => simp only [mapError, wp, ih]

theorem wp_attempt {p : Prog Call Answer α} {A : Except String α → Point Call World → Prop}
    (hp : p.wp H rely s (fun a s => A (.ok a) s) fun s => ∀ e, A (.error e) s) :
    p.attempt.wp H rely s A W := by
  induction p generalizing s with
  | ret a => exact hp
  | fail e => exact hp e
  | call c next ih =>
      intro f hf hrely
      exact ih _ (hp f hf hrely)

theorem wp_ite {b : Prop} [Decidable b] {p q : Prog Call Answer α}
    (hp : b → p.wp H rely s A W) (hq : ¬b → q.wp H rely s A W) :
    (if b then p else q).wp H rely s A W := by
  split
  · next h => exact hp h
  · next h => exact hq h

/-- The rule for loops: an invariant over the elements already visited. -/
theorem wp_foldList {body : β → α → Prog Call Answer β} {as : List α}
    {J : List α → β → Point Call World → Prop} {b : β}
    (hbody : ∀ pre a post b s, as = pre ++ a :: post → J pre b s →
      (body b a).wp H rely s (J (pre ++ [a])) W)
    (hb : J [] b s) : (foldList body as b).wp H rely s (J as) W := by
  have hgeneral : ∀ post pre b s, as = pre ++ post → J pre b s →
      (foldList body post b).wp H rely s (J as) W := by
    intro post
    induction post with
    | nil =>
        intro pre b s has hJ
        simpa [foldList, has] using hJ
    | cons a post ih =>
        intro pre b s has hJ
        refine wp_bind (hbody pre a post b s has hJ) ?_
        intro b' s' hJ'
        exact ih (pre ++ [a]) b' s' (by simp [has]) hJ'
  exact hgeneral as [] b s rfl hb

/-! ## Framing -/

/-- An invariant that every call of the program keeps holds to its end. -/
theorem Obeys.wp {S : Call → Prop} {P : α → Prop} {p : Prog Call Answer α}
    (hp : p.Obeys S P)
    (hkeep : ∀ c f s, S c → H.Admits c f → rely ⟨c, f, s.world⟩ → I s → I (H.next s c f))
    (hs : I s) : p.wp H rely s (fun a s => P a ∧ I s) I := by
  induction p generalizing s with
  | ret a => exact ⟨hp, hs⟩
  | fail e => exact hs
  | call c next ih =>
      intro f hf hrely
      exact ih _ (hp.2 _) (hkeep c f s hp.1 hf hrely hs)

/-- A postcondition together with what the program returns anyway. -/
theorem wp_and_returns {S : Call → Prop} {P : α → Prop} {p : Prog Call Answer α}
    (hp : p.wp H rely s A W) (hq : p.Obeys S P) :
    p.wp H rely s (fun a s => A a s ∧ P a) W := by
  have hreturns : p.wp H rely s (fun a _ => P a ∧ True) fun _ => True :=
    hq.wp (fun _ _ _ _ _ _ _ => trivial) trivial
  exact wp_mono (wp_and hp hreturns) (fun _ _ h => ⟨h.1, h.2.1⟩) fun _ h => h.1

/-- The calls of an execution are calls of the program. -/
theorem Obeys.log {S : Call → Prop} {P : α → Prop} {p : Prog Call Answer α}
    (hp : p.Obeys S P) (H : Handler Call Answer World) (fs : List Fault) (w : World) :
    ∀ e ∈ (p.exec H fs w).log, S e.call := by
  induction p generalizing fs w with
  | ret a => simp [exec]
  | fail e => simp [exec]
  | call c next ih =>
      intro e he
      simp only [exec, List.mem_cons] at he
      rcases he with rfl | he
      · exact hp.1
      · exact ih _ (hp.2 _) _ _ e he

end Prog
end Effect
