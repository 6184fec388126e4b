import DaosOperator.Json

/-!
# Reading JSON from the front of a longer text

A value that was read from the front of a text is read again when the text goes on,
and leaves what is appended in front of it unread.  Only a number at the very end of
the text can be continued; every other value ends with a delimiter of its own.  So no
proper part of an object, cut off at its end, reads as that object.
-/

namespace Json

theorem exists_of_map_eq_ok {α β : Type} {x : Except String α} {f : α → β} {b : β}
    (h : x.map f = .ok b) : ∃ a, x = .ok a ∧ f a = b := by
  cases x with
  | error e => cases h
  | ok a => exact ⟨a, rfl, Except.ok.inj h⟩

theorem reject_ne_ok {α : Type} (context : String) (cs : List Char) (a : α) :
    (reject context cs : Except String α) ≠ .ok a := by
  cases cs <;> intro h <;> cases h

/-! ## Blanks, literals and digits -/

section Leaves

variable {cs rest more : List Char}

theorem dropWhile_append_of_cons {p : Char → Bool} {c : Char}
    (h : cs.dropWhile p = c :: rest) : (cs ++ more).dropWhile p = c :: (rest ++ more) := by
  induction cs with
  | nil => simp at h
  | cons d cs ih =>
      rw [List.dropWhile_cons] at h
      rw [List.cons_append, List.dropWhile_cons]
      split
      · next hd => exact ih (by rwa [if_pos hd] at h)
      · next hd =>
          rw [if_neg hd] at h
          rw [← List.cons_append, h, List.cons_append]

theorem skipBlanks_append {c : Char} (h : skipBlanks cs = c :: rest) :
    skipBlanks (cs ++ more) = c :: (rest ++ more) :=
  dropWhile_append_of_cons h

theorem skipBlanks_append_of_ne (h : skipBlanks cs ≠ []) :
    skipBlanks (cs ++ more) = skipBlanks cs ++ more := by
  obtain ⟨c, tail, hcons⟩ := List.exists_cons_of_ne_nil h
  rw [skipBlanks_append hcons, hcons, List.cons_append]

theorem ne_nil_of_skipBlanks {c : Char} (h : skipBlanks cs = c :: rest) : cs ≠ [] := by
  rintro rfl
  cases h

theorem literal_append {name : String} {v v' : Json} {word : List Char}
    (h : literal name v word cs = .ok (v', rest)) :
    literal name v word (cs ++ more) = .ok (v', rest ++ more) := by
  induction word generalizing cs with
  | nil =>
      cases h
      rfl
  | cons e es ih =>
      cases cs with
      | nil => cases h
      | cons c cs =>
          simp only [literal, List.cons_append] at h ⊢
          split
          · next hc => exact ih (by rwa [if_pos hc] at h)
          · next hc =>
              rw [if_neg hc] at h
              cases h

theorem takeWhile_append_of_cons {p : Char → Bool} {c : Char} (h : cs.dropWhile p = c :: rest) :
    (cs ++ more).takeWhile p = cs.takeWhile p := by
  induction cs with
  | nil => cases h
  | cons d cs ih =>
      rw [List.dropWhile_cons] at h
      rw [List.cons_append, List.takeWhile_cons, List.takeWhile_cons]
      split
      · next hd => rw [ih (by rwa [if_pos hd] at h)]
      · rfl

theorem takeDigits_append {ds : List Char} (h : takeDigits cs = (ds, rest)) (hrest : rest ≠ []) :
    takeDigits (cs ++ more) = (ds, rest ++ more) := by
  obtain ⟨htake, hdrop⟩ := Prod.mk.inj h
  obtain ⟨c, tail, rfl⟩ := List.exists_cons_of_ne_nil hrest
  rw [takeDigits, takeWhile_append_of_cons hdrop, dropWhile_append_of_cons hdrop, htake,
    List.cons_append]

theorem someDigits_append {context : String} {ds : List Char}
    (h : someDigits context cs = .ok (ds, rest)) (hrest : rest ≠ []) :
    someDigits context (cs ++ more) = .ok (ds, rest ++ more) := by
  unfold someDigits at h ⊢
  generalize htake : takeDigits cs = taken at h
  obtain ⟨ds', left⟩ := taken
  cases ds' with
  | nil => cases left <;> cases h
  | cons d ds' =>
      cases h
      rw [takeDigits_append htake hrest]

theorem integerPart_append {ds : List Char} (h : integerPart cs = .ok (ds, rest))
    (hrest : rest ≠ []) : integerPart (cs ++ more) = .ok (ds, rest ++ more) := by
  unfold integerPart at h ⊢
  split at h
  · cases h
    rfl
  · next hzero =>
      cases cs with
      | nil => cases h
      | cons c cs =>
          split
          · next heq =>
              cases heq
              exact (hzero cs rfl).elim
          · exact someDigits_append h hrest

theorem fraction_append {ds : List Char} (h : fraction cs = .ok (ds, rest)) (hrest : rest ≠ []) :
    fraction (cs ++ more) = .ok (ds, rest ++ more) := by
  unfold fraction at h
  split at h
  · next tail =>
      obtain ⟨⟨taken, left⟩, hdigits, heq⟩ := exists_of_map_eq_ok h
      cases heq
      simp only [List.cons_append, fraction, someDigits_append hdigits hrest]
      rfl
  · next hpoint =>
      cases h
      cases cs with
      | nil => exact (hrest rfl).elim
      | cons c cs =>
          unfold fraction
          split
          · next heq =>
              cases heq
              exact (hpoint cs rfl).elim
          · rfl

theorem exponent_append {ds : List Char} (h : exponent cs = .ok (ds, rest)) (hrest : rest ≠ []) :
    exponent (cs ++ more) = .ok (ds, rest ++ more) := by
  cases cs with
  | nil =>
      cases h
      exact (hrest rfl).elim
  | cons c cs =>
      simp only [exponent, List.cons_append] at h ⊢
      by_cases he : (c = 'e' || c = 'E') = true
      · rw [if_pos he] at h ⊢
        obtain ⟨⟨taken, left⟩, hdigits, heq⟩ := exists_of_map_eq_ok h
        obtain ⟨rfl, rfl⟩ := Prod.mk.inj heq
        have hlonger := @someDigits_append _ _ more _ _ hdigits hrest
        -- the sign, if there is one, stands in front of what is appended
        split at hlonger
        · exact congrArg (Except.map _) hlonger
        · exact congrArg (Except.map _) hlonger
        · next hplus hminus =>
            cases cs with
            | nil => cases hdigits
            | cons d cs =>
                rw [List.cons_append]
                split
                · next tail heq => exact (hplus cs (by rw [(List.cons.inj heq).1])).elim
                · next tail heq => exact (hminus cs (by rw [(List.cons.inj heq).1])).elim
                · exact congrArg (Except.map _) hlonger
      · rw [if_neg he] at h ⊢
        cases h
        rfl

/-- A number behind its sign. -/
def unsigned (sign tail : List Char) : Except String (Json × List Char) :=
  (integerPart tail).bind fun r₁ => (fraction r₁.2).bind fun r₂ => (exponent r₂.2).bind fun r₃ =>
    .ok (num (String.ofList (sign ++ r₁.1 ++ r₂.1 ++ r₃.1)), r₃.2)

theorem number_of_minus (tail : List Char) : number ('-' :: tail) = unsigned ['-'] tail := rfl

theorem number_of_ne_minus (h : ∀ tail, cs ≠ '-' :: tail) : number cs = unsigned [] cs := by
  unfold number
  split
  · next tail => exact (h tail rfl).elim
  · rfl

theorem num_of_unsigned {sign : List Char} {v : Json} (h : unsigned sign cs = .ok (v, rest)) :
    ∃ literal, v = num literal := by
  unfold unsigned at h
  cases hint : integerPart cs with
  | error e => simp [hint, Except.bind] at h
  | ok r₁ =>
      cases hfrac : fraction r₁.2 with
      | error e => simp [hint, hfrac, Except.bind] at h
      | ok r₂ =>
          cases hexp : exponent r₂.2 with
          | error e => simp [hint, hfrac, hexp, Except.bind] at h
          | ok r₃ =>
              simp only [hint, hfrac, hexp, Except.bind, Except.ok.injEq, Prod.mk.injEq] at h
              exact ⟨_, h.1.symm⟩

theorem unsigned_append {sign : List Char} {v : Json} (h : unsigned sign cs = .ok (v, rest))
    (hrest : rest ≠ []) : unsigned sign (cs ++ more) = .ok (v, rest ++ more) := by
  unfold unsigned at h ⊢
  cases hint : integerPart cs with
  | error e => simp [hint, Except.bind] at h
  | ok r₁ =>
      cases hfrac : fraction r₁.2 with
      | error e => simp [hint, hfrac, Except.bind] at h
      | ok r₂ =>
          cases hexp : exponent r₂.2 with
          | error e => simp [hint, hfrac, hexp, Except.bind] at h
          | ok r₃ =>
              simp only [hint, hfrac, hexp, Except.bind, Except.ok.injEq, Prod.mk.injEq] at h
              obtain ⟨rfl, rfl⟩ := h
              -- every part is followed by something, because the last one is
              have hne₂ : r₂.2 ≠ [] := by
                intro hnil
                rw [hnil] at hexp
                cases hexp
                exact hrest rfl
              have hne₁ : r₁.2 ≠ [] := by
                intro hnil
                rw [hnil] at hfrac
                cases hfrac
                exact hne₂ rfl
              simp only [integerPart_append hint hne₁, fraction_append hfrac hne₂,
                exponent_append hexp hrest, Except.bind]

theorem num_of_number {v : Json} (h : number cs = .ok (v, rest)) : ∃ literal, v = num literal := by
  unfold number at h
  split at h
  · exact num_of_unsigned h
  · exact num_of_unsigned h

theorem number_append {v : Json} (h : number cs = .ok (v, rest)) (hrest : rest ≠ []) :
    number (cs ++ more) = .ok (v, rest ++ more) := by
  cases cs with
  | nil => cases h
  | cons c cs =>
      by_cases hminus : c = '-'
      · subst hminus
        rw [number_of_minus] at h
        rw [List.cons_append, number_of_minus]
        exact unsigned_append h hrest
      · have hne : ∀ ds tail, c :: ds ≠ '-' :: tail := fun _ _ heq => hminus (List.cons.inj heq).1
        rw [number_of_ne_minus (hne cs)] at h
        rw [List.cons_append, number_of_ne_minus (hne _), ← List.cons_append]
        exact unsigned_append h hrest

end Leaves

/-! ## Strings -/

section Strings

variable {cs rest more : List Char}

theorem hexDigits_append {n acc m : Nat} (h : hexDigits n acc cs = .ok (m, rest)) :
    hexDigits n acc (cs ++ more) = .ok (m, rest ++ more) := by
  induction n generalizing acc cs with
  | zero =>
      cases h
      rfl
  | succ n ih =>
      cases cs with
      | nil => cases h
      | cons c cs =>
          simp only [hexDigits, List.cons_append] at h ⊢
          split
          · next d hd =>
              rw [hd] at h
              exact ih h
          · next hd =>
              rw [hd] at h
              cases h

theorem stringUnits_append {fuel fuel' : Nat} {units : List Nat} (hfuel : fuel ≤ fuel')
    (h : stringUnits fuel cs = .ok (units, rest)) :
    stringUnits fuel' (cs ++ more) = .ok (units, rest ++ more) := by
  induction fuel generalizing fuel' cs units with
  | zero => cases h
  | succ fuel ih =>
      obtain ⟨fuel', rfl⟩ : ∃ k, fuel' = k + 1 := ⟨fuel' - 1, by omega⟩
      have hunit : ∀ {n : Nat} {tail : List Char},
          (stringUnits fuel tail).map (fun r => (n :: r.1, r.2)) = .ok (units, rest) →
          (stringUnits fuel' (tail ++ more)).map (fun r => (n :: r.1, r.2)) =
            .ok (units, rest ++ more) := by
        intro n tail h
        obtain ⟨⟨units', left⟩, hunits, heq⟩ := exists_of_map_eq_ok h
        obtain ⟨rfl, rfl⟩ := Prod.mk.inj heq
        rw [ih (by omega) hunits]
        rfl
      cases cs with
      | nil => cases h
      | cons c cs =>
          by_cases hquote : c = '"'
          · subst hquote
            cases h
            rfl
          by_cases hescape : c = '\\'
          · subst hescape
            cases cs with
            | nil => cases h
            | cons e tail =>
                simp only [stringUnits, List.cons_append] at h ⊢
                split_ifs at h ⊢
                all_goals first
                  | exact hunit h
                  | skip
                · -- the units of an escape by number
                  cases hhex : hexDigits 4 0 tail with
                  | error msg => simp [hhex] at h
                  | ok r =>
                      rw [hhex] at h
                      rw [hexDigits_append hhex]
                      exact hunit h
                · cases h
          · simp only [stringUnits, List.cons_append] at h ⊢
            split_ifs at h ⊢
            · cases h
            · exact hunit h

theorem stringBody_append {text : String} (h : stringBody cs = .ok (text, rest)) :
    stringBody (cs ++ more) = .ok (text, rest ++ more) := by
  obtain ⟨⟨units, left⟩, hunits, heq⟩ := exists_of_map_eq_ok h
  obtain ⟨rfl, rfl⟩ := Prod.mk.inj heq
  unfold stringBody
  rw [stringUnits_append (by simp) hunits]
  rfl

end Strings

/-! ## Values -/

/-- A value that ends with a delimiter of its own. -/
def Delimited : Json → Prop
  | num _ => False
  | _ => True

theorem consumed_append (start rest more : List Char) :
    consumed (start ++ more) (rest ++ more) = consumed start rest := by
  unfold consumed
  congr 1
  rw [List.length_append, List.length_append, Nat.add_sub_add_right,
    List.take_append_of_le_length (Nat.sub_le _ _)]

/-- What the readers do with `fuel` is done with more fuel on a longer text. -/
structure Appends (fuel : Nat) : Prop where
  value : ∀ {fuel' : Nat} {cs rest more : List Char} {v : Json}, fuel ≤ fuel' →
    value fuel cs = .ok (v, rest) → (Delimited v ∨ rest ≠ []) →
    Json.value fuel' (cs ++ more) = .ok (v, rest ++ more)
  members : ∀ {fuel' : Nat} {cs rest more : List Char} {l : List (String × String × Json)},
    fuel ≤ fuel' → members fuel cs = .ok (l, rest) →
    Json.members fuel' (cs ++ more) = .ok (l, rest ++ more)
  elements : ∀ {fuel' : Nat} {cs rest more : List Char} {l : List (String × Json)},
    fuel ≤ fuel' → elements fuel cs = .ok (l, rest) →
    Json.elements fuel' (cs ++ more) = .ok (l, rest ++ more)

section Step

variable {fuel fuel' : Nat} {cs rest more : List Char}

theorem members_nil (fuel : Nat) (r : List (String × String × Json) × List Char) :
    Json.members fuel [] ≠ .ok r := by
  cases fuel <;> intro h <;> cases h

theorem elements_nil (fuel : Nat) (r : List (String × Json) × List Char) :
    Json.elements fuel [] ≠ .ok r := by
  match fuel with
  | 0 | 1 | _ + 2 =>
      intro h
      cases h

/-- An object behind its opening brace. -/
def objectFrom (fuel : Nat) (cs : List Char) : Scan Json :=
  match skipBlanks cs with
  | '}' :: rest => .ok (obj [], rest)
  | rest => (Json.members fuel rest).map fun r => (obj r.1, r.2)

/-- An array behind its opening bracket. -/
def arrayFrom (fuel : Nat) (cs : List Char) : Scan Json :=
  match skipBlanks cs with
  | ']' :: rest => .ok (arr [], rest)
  | rest => (Json.elements fuel rest).map fun r => (arr r.1, r.2)

theorem Appends.object (ih : Appends fuel) {v : Json} (hfuel : fuel ≤ fuel')
    (h : objectFrom fuel cs = .ok (v, rest)) :
    objectFrom fuel' (cs ++ more) = .ok (v, rest ++ more) := by
  unfold objectFrom at h ⊢
  split at h
  · next closed hclose =>
      cases h
      simp only [skipBlanks_append hclose]
  · next hopen =>
      obtain ⟨⟨fields, left⟩, hmembers, heq⟩ := exists_of_map_eq_ok h
      obtain ⟨rfl, rfl⟩ := Prod.mk.inj heq
      have hne : skipBlanks cs ≠ [] := by
        intro hnil
        rw [hnil] at hmembers
        exact members_nil _ _ hmembers
      obtain ⟨c, tail, hcons⟩ := List.exists_cons_of_ne_nil hne
      rw [hcons] at hmembers
      simp only [skipBlanks_append hcons]
      split
      · next heq => exact (hopen tail (by rw [hcons, (List.cons.inj heq).1])).elim
      · rw [← List.cons_append, ih.members hfuel hmembers]
        rfl

theorem Appends.array (ih : Appends fuel) {v : Json} (hfuel : fuel ≤ fuel')
    (h : arrayFrom fuel cs = .ok (v, rest)) :
    arrayFrom fuel' (cs ++ more) = .ok (v, rest ++ more) := by
  unfold arrayFrom at h ⊢
  split at h
  · next closed hclose =>
      cases h
      simp only [skipBlanks_append hclose]
  · next hopen =>
      obtain ⟨⟨items, left⟩, helements, heq⟩ := exists_of_map_eq_ok h
      obtain ⟨rfl, rfl⟩ := Prod.mk.inj heq
      have hne : skipBlanks cs ≠ [] := by
        intro hnil
        rw [hnil] at helements
        exact elements_nil _ _ helements
      obtain ⟨c, tail, hcons⟩ := List.exists_cons_of_ne_nil hne
      rw [hcons] at helements
      simp only [skipBlanks_append hcons]
      split
      · next heq => exact (hopen tail (by rw [hcons, (List.cons.inj heq).1])).elim
      · rw [← List.cons_append, ih.elements hfuel helements]
        rfl

theorem Appends.value_succ (ih : Appends fuel) {v : Json} (hfuel : fuel ≤ fuel')
    (h : Json.value (fuel + 1) cs = .ok (v, rest)) (hv : Delimited v ∨ rest ≠ []) :
    Json.value (fuel' + 1) (cs ++ more) = .ok (v, rest ++ more) := by
  unfold Json.value at h ⊢
  split at h
  · cases h
  · next tail hskip =>
      rw [skipBlanks_append hskip]
      exact ih.object hfuel h
  · next tail hskip =>
      rw [skipBlanks_append hskip]
      exact ih.array hfuel h
  · next tail hskip =>
      obtain ⟨⟨text, left⟩, hbody, heq⟩ := exists_of_map_eq_ok h
      obtain ⟨rfl, rfl⟩ := Prod.mk.inj heq
      rw [skipBlanks_append hskip]
      exact congrArg (Except.map _) (stringBody_append hbody)
  · next tail hskip =>
      rw [skipBlanks_append hskip]
      exact literal_append h
  · next tail hskip =>
      rw [skipBlanks_append hskip]
      exact literal_append h
  · next tail hskip =>
      rw [skipBlanks_append hskip]
      exact literal_append h
  · next c tail h₁ h₂ h₃ h₄ h₅ h₆ hskip =>
      rw [skipBlanks_append hskip]
      split
      · next heq => cases heq
      · next heq => exact (h₁ (List.cons.inj heq).1).elim
      · next heq => exact (h₂ (List.cons.inj heq).1).elim
      · next heq => exact (h₃ (List.cons.inj heq).1).elim
      · next heq => exact (h₄ (List.cons.inj heq).1).elim
      · next heq => exact (h₅ (List.cons.inj heq).1).elim
      · next heq => exact (h₆ (List.cons.inj heq).1).elim
      · next heq =>
          obtain ⟨rfl, rfl⟩ := List.cons.inj heq
          split
          · next hc =>
              rw [if_pos hc] at h
              obtain ⟨literal, rfl⟩ := num_of_number h
              exact number_append h (hv.resolve_left id)
          · next hc =>
              rw [if_neg hc] at h
              cases h

theorem Appends.elements_succ (ih : Appends fuel) {l : List (String × Json)} (hfuel : fuel ≤ fuel')
    (h : Json.elements (fuel + 1) cs = .ok (l, rest)) :
    Json.elements (fuel' + 1) (cs ++ more) = .ok (l, rest ++ more) := by
  unfold Json.elements at h ⊢
  dsimp only at h ⊢
  split at h
  · cases h
  · next v left hvalue =>
      have hne : skipBlanks cs ≠ [] := by
        intro hnil
        rw [hnil] at hvalue
        cases fuel <;> cases hvalue
      rw [skipBlanks_append_of_ne hne]
      split at h
      · next tail hskip =>
          obtain ⟨⟨items, left'⟩, helements, heq⟩ := exists_of_map_eq_ok h
          obtain ⟨rfl, rfl⟩ := Prod.mk.inj heq
          simp only [ih.value hfuel hvalue (Or.inr (ne_nil_of_skipBlanks hskip)),
            skipBlanks_append hskip, ih.elements hfuel helements, consumed_append]
          rfl
      · next tail hskip =>
          cases h
          simp only [ih.value hfuel hvalue (Or.inr (ne_nil_of_skipBlanks hskip)),
            skipBlanks_append hskip, consumed_append]
      · exact (reject_ne_ok _ _ _ h).elim

theorem Appends.members_succ (ih : Appends fuel) {l : List (String × String × Json)}
    (hfuel : fuel ≤ fuel') (h : Json.members (fuel + 1) cs = .ok (l, rest)) :
    Json.members (fuel' + 1) (cs ++ more) = .ok (l, rest ++ more) := by
  cases cs with
  | nil => cases h
  | cons c tail =>
      by_cases hquote : c = '"'
      · subst hquote
        simp only [Json.members, List.cons_append] at h ⊢
        split at h
        · cases h
        · next key left hkey =>
            rw [stringBody_append hkey]
            split at h
            · next behind hcolon =>
                simp only [skipBlanks_append hcolon]
                split at h
                · cases h
                · next v left' hvalue =>
                    have hne : skipBlanks behind ≠ [] := by
                      intro hnil
                      rw [hnil] at hvalue
                      cases fuel <;> cases hvalue
                    rw [skipBlanks_append_of_ne hne]
                    split at h
                    · next tail' hskip =>
                        obtain ⟨⟨fields, left''⟩, hmembers, heq⟩ := exists_of_map_eq_ok h
                        obtain ⟨rfl, rfl⟩ := Prod.mk.inj heq
                        have hmore : skipBlanks tail' ≠ [] := by
                          intro hnil
                          rw [hnil] at hmembers
                          exact members_nil _ _ hmembers
                        simp only [ih.value hfuel hvalue (Or.inr (ne_nil_of_skipBlanks hskip)),
                          skipBlanks_append hskip, skipBlanks_append_of_ne hmore,
                          ih.members hfuel hmembers, consumed_append]
                        rfl
                    · next tail' hskip =>
                        cases h
                        simp only [ih.value hfuel hvalue (Or.inr (ne_nil_of_skipBlanks hskip)),
                          skipBlanks_append hskip, consumed_append]
                    · exact (reject_ne_ok _ _ _ h).elim
            · exact (reject_ne_ok _ _ _ h).elim
      · have hne : Json.members (fuel + 1) (c :: tail) =
            reject "looking for beginning of object key string" (c :: tail) := by
          simp [Json.members, hquote]
        rw [hne] at h
        exact (reject_ne_ok _ _ _ h).elim

/-- The readers read again from a longer text. -/
theorem appends (fuel : Nat) : Appends fuel := by
  induction fuel with
  | zero =>
      constructor
      · intro fuel' cs rest more v _ h
        cases h
      · intro fuel' cs rest more l _ h
        cases h
      · intro fuel' cs rest more l _ h
        cases h
  | succ fuel ih =>
      have hsucc : ∀ fuel', fuel + 1 ≤ fuel' → ∃ k, fuel' = k + 1 ∧ fuel ≤ k := by
        intro fuel' hfuel
        exact ⟨fuel' - 1, by omega, by omega⟩
      constructor
      · intro fuel' cs rest more v hfuel h hv
        obtain ⟨k, rfl, hk⟩ := hsucc fuel' hfuel
        exact ih.value_succ hk h hv
      · intro fuel' cs rest more l hfuel h
        obtain ⟨k, rfl, hk⟩ := hsucc fuel' hfuel
        exact ih.members_succ hk h
      · intro fuel' cs rest more l hfuel h
        obtain ⟨k, rfl, hk⟩ := hsucc fuel' hfuel
        exact ih.elements_succ hk h

end Step

/-! ## Objects -/

/-- What is read behind a brace is an object. -/
theorem object_of_brace {fuel : Nat} {cs rest : List Char} {v : Json}
    (h : value fuel ('{' :: cs) = .ok (v, rest)) : ∃ fields, v = obj fields := by
  cases fuel with
  | zero => cases h
  | succ fuel =>
      change objectFrom fuel cs = .ok (v, rest) at h
      unfold objectFrom at h
      split at h
      · cases h
        exact ⟨[], rfl⟩
      · obtain ⟨r, -, heq⟩ := exists_of_map_eq_ok h
        exact ⟨r.1, (Prod.mk.inj heq).1.symm⟩

/-- An object is read again from a longer text. -/
theorem read_append {cs rest : List Char} {v : Json} (more : List Char)
    (h : read ('{' :: cs) = .ok (v, rest)) :
    read ('{' :: (cs ++ more)) = .ok (v, rest ++ more) := by
  obtain ⟨fields, rfl⟩ := object_of_brace h
  have hlength : 2 * ('{' :: cs).length + 1 ≤ 2 * ('{' :: (cs ++ more)).length + 1 := by
    simp only [List.length_cons, List.length_append]
    omega
  exact (appends _).value hlength h (Or.inl trivial)

/-- No proper part of an object, cut off at its end, reads as a value. -/
theorem read_truncated {cs cut more : List Char} {v : Json} (h : read ('{' :: cs) = .ok (v, []))
    (hcut : cs = cut ++ more) (hmore : more ≠ []) : ∃ e, read ('{' :: cut) = .error e := by
  cases hread : read ('{' :: cut) with
  | error e => exact ⟨e, rfl⟩
  | ok r =>
      obtain ⟨v', rest⟩ := r
      have hlonger := read_append more hread
      rw [← hcut, h] at hlonger
      have hnil : rest ++ more = [] := (Prod.mk.inj (Except.ok.inj hlonger)).2.symm
      exact (hmore (List.append_eq_nil_iff.mp hnil).2).elim

end Json
