import DaosOperator.Dmg.Output

/-!
# Writing a text as JSON

Every text is the value of a string literal, and every message the error of an envelope.
The literal escapes the quote, the backslash and the control characters, which the reader
does not take as they are.
-/

namespace Json

/-! ## String literals -/

def hexDigit (n : Nat) : Char := if n < 10 then Char.ofNat (n + 48) else Char.ofNat (n + 87)

/-- A character inside a string literal. -/
def escape (c : Char) : List Char :=
  if c = '"' then ['\\', '"']
  else if c = '\\' then ['\\', '\\']
  else if c.toNat < 32 then
    ['\\', 'u', '0', '0', hexDigit (c.toNat / 16), hexDigit (c.toNat % 16)]
  else [c]

theorem hexValue?_hexDigit : ∀ n < 16, hexValue? (hexDigit n) = some n := by decide

theorem length_escape_pos (c : Char) : 0 < (escape c).length := by
  unfold escape
  repeat' split
  all_goals simp

theorem length_le_flatMap_escape (cs : List Char) : cs.length ≤ (cs.flatMap escape).length := by
  induction cs with
  | nil => simp
  | cons c cs ih =>
      have hpos := length_escape_pos c
      rw [List.flatMap_cons, List.length_append, List.length_cons]
      omega

theorem stringUnits_escape_append (fuel : Nat) (c : Char) (rest : List Char) :
    stringUnits (fuel + 1) (escape c ++ rest) =
      (stringUnits fuel rest).map fun r => (c.toNat :: r.1, r.2) := by
  unfold escape
  split
  · next h =>
      subst h
      rfl
  · next hquote =>
    split
    · next h =>
        subst h
        rfl
    · next hslash =>
      split
      · next hcontrol =>
          have hhigh := hexValue?_hexDigit (c.toNat / 16) (by omega)
          have hlow := hexValue?_hexDigit (c.toNat % 16) (by omega)
          have hunit : 16 * (c.toNat / 16) + c.toNat % 16 = c.toNat := Nat.div_add_mod ..
          have hhex : hexDigits 4 0 ('0' :: '0' :: hexDigit (c.toNat / 16) ::
              hexDigit (c.toNat % 16) :: rest) = .ok (c.toNat, rest) := by
            simp [hexDigits, hhigh, hlow, hunit, show hexValue? '0' = some 0 by decide]
          simp [stringUnits, hhex]
      · next hplain =>
          rw [List.singleton_append, stringUnits]
          · simp [hplain]
          · simpa using hquote
          · simpa using hslash

theorem stringUnits_escaped (cs rest : List Char) {fuel : Nat} (h : cs.length < fuel) :
    stringUnits fuel (cs.flatMap escape ++ '"' :: rest) = .ok (cs.map Char.toNat, rest) := by
  induction cs generalizing fuel with
  | nil =>
      obtain ⟨fuel, rfl⟩ := Nat.exists_eq_add_one_of_ne_zero (by omega : fuel ≠ 0)
      rfl
  | cons c cs ih =>
      obtain ⟨fuel, rfl⟩ := Nat.exists_eq_add_one_of_ne_zero (by omega : fuel ≠ 0)
      rw [List.flatMap_cons, List.append_assoc, stringUnits_escape_append,
        ih (by simpa using h)]
      rfl

theorem joinSurrogates_cons (c : Char) (units : List Nat) :
    joinSurrogates (c.toNat :: units) = c :: joinSurrogates units := by
  have hvalid : c.toNat < 0xD800 ∨ 0xE000 ≤ c.toNat := by
    rcases c.valid with h | ⟨h, -⟩
    · exact Or.inl h
    · exact Or.inr h
  have hchar : Char.ofNat c.toNat = c := Char.ofNat_toNat c
  cases units with
  | nil =>
      simp only [joinSurrogates]
      rw [if_neg (by omega), hchar]
  | cons m units =>
      simp only [joinSurrogates]
      rw [if_neg (by omega), if_neg (by omega), hchar]

theorem joinSurrogates_toNat (cs : List Char) : joinSurrogates (cs.map Char.toNat) = cs := by
  induction cs with
  | nil => rfl
  | cons c cs ih => rw [List.map_cons, joinSurrogates_cons, ih]

/-- The literal of a text is read as that text. -/
theorem stringBody_escaped (s : String) (rest : List Char) :
    stringBody (s.toList.flatMap escape ++ '"' :: rest) = .ok (s, rest) := by
  have hfuel : s.toList.length < (s.toList.flatMap escape ++ '"' :: rest).length + 1 := by
    have hle := length_le_flatMap_escape s.toList
    rw [List.length_append]
    omega
  rw [stringBody, stringUnits_escaped _ _ hfuel]
  simp [Except.map, joinSurrogates_toNat]

end Json

namespace DaosOperator.Dmg

/-! ## Envelopes -/

/-- The envelope that reports an error, as `dmg -j` prints it behind its brace. -/
def errorBody (msg : String) : List Char :=
  '"' :: ("error".toList ++ '"' :: ':' :: '"' :: (msg.toList.flatMap Json.escape ++ ['"', '}']))

theorem readEnvelope_error (msg : String) :
    readEnvelope ('{' :: errorBody msg) = .ok (⟨"", some msg, 0⟩, []) := by
  have hkey : ∀ rest, Json.stringBody ("error".toList ++ '"' :: rest) = .ok ("error", rest) :=
    Json.stringBody_escaped "error"
  have hmsg := Json.stringBody_escaped msg ['}']
  unfold errorBody
  generalize msg.toList.flatMap Json.escape ++ ['"', '}'] = text at hmsg ⊢
  have hvalue : ∀ fuel, Json.value (fuel + 1) ('"' :: text) = .ok (.str msg, ['}']) := by
    intro fuel
    simp [Json.value, Json.skipBlanks, Json.isBlank, hmsg, Except.map]
  have hmembers : ∀ fuel, Json.members (fuel + 2) ('"' :: ("error".toList ++ '"' :: ':' :: '"' ::
      text)) = .ok ([("error", Json.consumed ('"' :: text) ['}'], .str msg)], []) := by
    intro fuel
    simp only [Json.members, hkey]
    simp [Json.skipBlanks, Json.isBlank, hvalue]
  have hobject : ∀ fuel, Json.value (fuel + 3)
      ('{' :: '"' :: ("error".toList ++ '"' :: ':' :: '"' :: text)) =
        .ok (.obj [("error", Json.consumed ('"' :: text) ['}'], .str msg)], []) := by
    intro fuel
    rw [Json.value]
    simp only [Json.skipBlanks, List.dropWhile_cons, show Json.isBlank '{' = false by decide,
      show Json.isBlank '"' = false by decide, Bool.false_eq_true, if_false]
    split
    · next h => exact absurd (List.cons.inj h).1 (by decide)
    · rw [hmembers]
      rfl
  rw [readEnvelope, Json.read, show 2 * ('{' :: '"' :: ("error".toList ++ '"' :: ':' :: '"' ::
    text)).length + 1 = 2 * ("error".toList ++ '"' :: ':' :: '"' :: text).length + 2 + 3 from rfl,
    hobject]
  rfl

/-- The output of a command that fails with this message. -/
def errorOutput (msg : String) : String := String.ofList ('{' :: errorBody msg)

theorem parse_errorOutput (msg : String) : parse (errorOutput msg) = .ok ⟨"", some msg, 0⟩ := by
  rw [parse, errorOutput, String.toList_ofList, List.dropWhile_cons_of_neg (by decide)]
  simp only [readEnvelope_error]

theorem parseAll_errorOutput (msg : String) :
    parseAll (errorOutput msg) = .ok [⟨"", some msg, 0⟩] := by
  have hall : parseAllFrom (('{' :: errorBody msg).length + 1) ('{' :: errorBody msg) =
      [⟨"", some msg, 0⟩] := by
    rw [parseAllFrom, List.dropWhile_cons_of_neg (by decide)]
    simp only [readEnvelope_error]
    rw [List.length_cons, parseAllFrom]
    rfl
  rw [parseAll, errorOutput, String.toList_ofList, hall]

end DaosOperator.Dmg
