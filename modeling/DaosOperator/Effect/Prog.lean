import Mathlib.Logic.Basic

/-!
# Programs that call a fallible interface

A program is a tree of calls.  Every call is either answered or fails with an
error text, and the program decides how to go on from there.  Keeping the tree
apart from any interpretation of the calls lets one program be executed on a
concrete world, and lets its call sites be inspected for arbitrary answers.
-/

namespace Effect

/-- A program over the calls `Call`, where `c : Call` is answered by a value of
`Answer c`. -/
inductive Prog (Call : Type) (Answer : Call → Type) (α : Type) : Type where
  | ret (a : α)
  | fail (error : String)
  | call (c : Call) (next : Except String (Answer c) → Prog Call Answer α)

namespace Prog

variable {Call : Type} {Answer : Call → Type} {α β γ : Type}

/-- Sequencing; a failed program stays failed. -/
def bind : Prog Call Answer α → (α → Prog Call Answer β) → Prog Call Answer β
  | ret a, f => f a
  | fail e, _ => fail e
  | call c next, f => call c fun r => (next r).bind f

/-- Issue one call and fail when it fails. -/
def ask (c : Call) : Prog Call Answer (Answer c) :=
  call c fun
    | .ok a => ret a
    | .error e => fail e

/-- Run a program and hand its failure to the caller as a value. -/
def attempt : Prog Call Answer α → Prog Call Answer (Except String α)
  | ret a => ret (.ok a)
  | fail e => ret (.error e)
  | call c next => call c fun r => (next r).attempt

/-- Rewrite the error of a failed program. -/
def mapError (f : String → String) : Prog Call Answer α → Prog Call Answer α
  | ret a => ret a
  | fail e => fail (f e)
  | call c next => call c fun r => (next r).mapError f

/-- Run `body` on every element of a list, threading an accumulator. -/
def foldList (body : β → α → Prog Call Answer β) : List α → β → Prog Call Answer β
  | [], b => ret b
  | a :: as, b => (body b a).bind fun b' => foldList body as b'

theorem bind_assoc (p : Prog Call Answer α) (f : α → Prog Call Answer β)
    (g : β → Prog Call Answer γ) : (p.bind f).bind g = p.bind fun a => (f a).bind g := by
  induction p with
  | ret a => rfl
  | fail e => rfl
  | call c next ih => exact congrArg (call c) (funext ih)

/-! ## Call sites -/

/-- Every call the program can ever issue, whatever the answers, lies in `S`, and
every value it can return satisfies `P`. -/
def Obeys (S : Call → Prop) (P : α → Prop) : Prog Call Answer α → Prop
  | ret a => P a
  | fail _ => True
  | call c next => S c ∧ ∀ r, (next r).Obeys S P

variable {S T : Call → Prop} {P Q : α → Prop}

@[simp] theorem obeys_ret {a : α} :
    (ret a : Prog Call Answer α).Obeys S P ↔ P a := Iff.rfl

@[simp] theorem obeys_fail (e : String) :
    (fail e : Prog Call Answer α).Obeys S P := trivial

theorem obeys_ask {c : Call} (hc : S c) :
    (ask c : Prog Call Answer (Answer c)).Obeys S fun _ => True := by
  refine ⟨hc, ?_⟩
  rintro (e | a)
  · exact obeys_fail e
  · trivial

theorem Obeys.mono {p : Prog Call Answer α} (hp : p.Obeys S P)
    (hST : ∀ c, S c → T c) (hPQ : ∀ a, P a → Q a) : p.Obeys T Q := by
  induction p with
  | ret a => exact hPQ a hp
  | fail e => trivial
  | call c next ih => exact ⟨hST c hp.1, fun r => ih r (hp.2 r)⟩

/-- What the program returns, whatever it calls. -/
theorem Obeys.returns {p : Prog Call Answer α} (hp : p.Obeys S P) : p.Obeys (fun _ => True) P :=
  hp.mono (fun _ _ => trivial) fun _ h => h

theorem Obeys.bind {p : Prog Call Answer α} {f : α → Prog Call Answer β} {Q : β → Prop}
    (hp : p.Obeys S P) (hf : ∀ a, P a → (f a).Obeys S Q) : (p.bind f).Obeys S Q := by
  induction p with
  | ret a => exact hf a hp
  | fail e => trivial
  | call c next ih => exact ⟨hp.1, fun r => ih r (hp.2 r)⟩

/-- The rule for a call whose answer does not matter. -/
theorem obeys_ask_bind {c : Call} {f : Answer c → Prog Call Answer β} {Q : β → Prop}
    (hc : S c) (hf : ∀ a, (f a).Obeys S Q) : ((ask c).bind f).Obeys S Q :=
  (obeys_ask hc).bind fun a _ => hf a

theorem Obeys.attempt {p : Prog Call Answer α} (hp : p.Obeys S P) :
    p.attempt.Obeys S fun r => ∀ a, r = .ok a → P a := by
  induction p with
  | ret a =>
      rintro b ⟨⟩
      exact hp
  | fail e => rintro b ⟨⟩
  | call c next ih => exact ⟨hp.1, fun r => ih r (hp.2 r)⟩

theorem Obeys.mapError {p : Prog Call Answer α} {f : String → String} (hp : p.Obeys S P) :
    (p.mapError f).Obeys S P := by
  induction p with
  | ret a => exact hp
  | fail e => trivial
  | call c next ih => exact ⟨hp.1, fun r => ih r (hp.2 r)⟩

theorem obeys_foldList {body : β → α → Prog Call Answer β} {P : β → Prop} {as : List α}
    (hbody : ∀ b, ∀ a ∈ as, P b → (body b a).Obeys S P) {b : β} (hb : P b) :
    (foldList body as b).Obeys S P := by
  induction as generalizing b with
  | nil => exact hb
  | cons a as ih =>
      refine (hbody b a (by simp) hb).bind ?_
      intro b' hb'
      exact ih (fun b a ha => hbody b a (by simp [ha])) hb'

theorem obeys_ite {b : Prop} [Decidable b] {p q : Prog Call Answer α}
    (hp : b → p.Obeys S P) (hq : ¬b → q.Obeys S P) :
    (if b then p else q).Obeys S P := by
  split
  · next h => exact hp h
  · next h => exact hq h

end Prog
end Effect
