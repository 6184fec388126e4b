import DaosOperator.Dmg.Output
import DaosOperator.JsonPrefix
import Mathlib.Data.List.TakeWhile

/-!
# Output that is cut off

The log of a pod is a sequence of envelopes with other text between them.  `ParseAll`
reads all of them back.  When the log ends inside an envelope, the brace of that envelope
starts no value, and the loop goes on behind it: an object nested in the envelope is then
taken for an envelope of its own.
-/

namespace DaosOperator.Dmg

/-! ## Logs -/

/-- Text without braces. -/
def Quiet (cs : List Char) : Prop := ∀ c ∈ cs, c ≠ '{' ∧ c ≠ '}'
  deriving Decidable

theorem quiet_nil : Quiet [] := List.forall_mem_nil _

/-- A complete envelope in a log, with the text in front of it. -/
structure Printed where
  noise : List Char
  /-- The text of the envelope behind its opening brace. -/
  body : List Char
  envelope : Envelope
  quiet : Quiet noise
  reads : readEnvelope ('{' :: body) = .ok (envelope, [])

/-- The text of an envelope and of what is in front of it. -/
def Printed.text (p : Printed) : List Char := p.noise ++ '{' :: p.body

/-- A log of envelopes, separated by text without braces. -/
structure Output where
  printed : List Printed
  trailing : List Char
  quiet : Quiet trailing

def Output.text (o : Output) : List Char := o.printed.flatMap Printed.text ++ o.trailing

def Output.envelopes (o : Output) : List Envelope := o.printed.map (·.envelope)

/-- The envelopes that end within the first `n` characters. -/
def finished : List Printed → Nat → List Envelope
  | [], _ => []
  | p :: ps, n =>
      if p.text.length ≤ n then p.envelope :: finished ps (n - p.text.length) else []

/-- What the first `n` characters have of the envelope that they end in, behind its brace. -/
def unfinished : List Printed → Nat → List Char
  | [], _ => []
  | p :: ps, n =>
      if p.text.length ≤ n then unfinished ps (n - p.text.length)
      else p.body.take (n - p.noise.length - 1)

/-- The first `n` characters of a log are read as envelopes of the log that end there. -/
def InventsNothing (o : Output) (n : Nat) : Prop :=
  ∀ envs ∈ (parseAll (String.ofList (o.text.take n))).toOption,
    envs <+: o.envelopes ∧ envs.length ≤ (finished o.printed n).length
  deriving Decidable

/-- The text starts with an object that decodes as an envelope. -/
def opensEnvelope : List Char → Bool
  | '{' :: cs => (readEnvelope ('{' :: cs)).isOk
  | _ => false

/-! ## The loop of `ParseAll` -/

section Loop

variable {fuel : Nat} {cs rest : List Char}

theorem dropWhile_quiet (h : Quiet cs) : cs.dropWhile (· ≠ '{') = [] := by
  rw [List.dropWhile_eq_nil_iff]
  intro c hc
  simpa using (h c hc).1

theorem dropWhile_quiet_brace (h : Quiet cs) :
    (cs ++ '{' :: rest).dropWhile (· ≠ '{') = '{' :: rest := by
  induction cs with
  | nil => rfl
  | cons c cs ih =>
      have hc : c ≠ '{' := (h c (by simp)).1
      have hcs : Quiet cs := fun d hd => h d (by simp [hd])
      rw [List.cons_append, List.dropWhile_cons, if_pos (by simpa using hc), ih hcs]

theorem parseAllFrom_quiet (h : Quiet cs) : parseAllFrom fuel cs = [] := by
  cases fuel with
  | zero => rfl
  | succ fuel => simp only [parseAllFrom, dropWhile_quiet h]

theorem readEnvelope_append {e : Envelope} (more : List Char)
    (h : readEnvelope ('{' :: cs) = .ok (e, rest)) :
    readEnvelope ('{' :: (cs ++ more)) = .ok (e, rest ++ more) := by
  unfold readEnvelope at h ⊢
  cases hread : Json.read ('{' :: cs) with
  | error msg => simp [hread] at h
  | ok r =>
      obtain ⟨v, left⟩ := r
      rw [hread] at h
      obtain ⟨env, henv, heq⟩ := Json.exists_of_map_eq_ok h
      obtain ⟨rfl, rfl⟩ := Prod.mk.inj heq
      rw [Json.read_append more hread]
      simp only [henv]
      rfl

/-- A complete envelope is read, and the loop goes on behind it. -/
theorem parseAllFrom_printed (p : Printed) (fuel : Nat) (rest : List Char) :
    parseAllFrom (fuel + 1) (p.text ++ rest) = p.envelope :: parseAllFrom fuel rest := by
  have hdrop : (p.text ++ rest).dropWhile (· ≠ '{') = '{' :: (p.body ++ rest) := by
    rw [Printed.text, List.append_assoc, List.cons_append]
    exact dropWhile_quiet_brace p.quiet
  simp only [parseAllFrom, hdrop, readEnvelope_append rest p.reads, List.nil_append]

/-- The brace of an incomplete envelope starts no envelope. -/
theorem readEnvelope_truncated (p : Printed) {k : Nat} (hk : k < p.body.length) :
    ∃ msg, readEnvelope ('{' :: p.body.take k) = .error msg := by
  have hreads := p.reads
  unfold readEnvelope at hreads ⊢
  cases hread : Json.read ('{' :: p.body) with
  | error msg => simp [hread] at hreads
  | ok r =>
      obtain ⟨v, left⟩ := r
      rw [hread] at hreads
      obtain ⟨env, -, heq⟩ := Json.exists_of_map_eq_ok hreads
      obtain ⟨-, rfl⟩ := Prod.mk.inj heq
      obtain ⟨msg, hmsg⟩ := Json.read_truncated hread (List.take_append_drop k p.body).symm
        (by simpa using hk)
      exact ⟨msg, by rw [hmsg]⟩

/-- The loop on a cut log: the complete envelopes, then what it finds in the incomplete one. -/
theorem parseAllFrom_take {trailing : List Char} (htrailing : Quiet trailing) (ps : List Printed)
    (n : Nat) {fuel : Nat}
    (hfuel : ((ps.flatMap Printed.text ++ trailing).take n).length < fuel) :
    ∃ fuel', (unfinished ps n).length < fuel' ∧
      parseAllFrom fuel ((ps.flatMap Printed.text ++ trailing).take n) =
        finished ps n ++ parseAllFrom fuel' (unfinished ps n) := by
  induction ps generalizing n fuel with
  | nil =>
      refine ⟨1, by simp [unfinished], ?_⟩
      have hquiet : Quiet (trailing.take n) := fun c hc => htrailing c (List.mem_of_mem_take hc)
      simp [unfinished, finished, parseAllFrom_quiet hquiet, parseAllFrom]
  | cons p ps ih =>
      obtain ⟨fuel, rfl⟩ : ∃ k, fuel = k + 1 := ⟨fuel - 1, by omega⟩
      rw [List.flatMap_cons, List.append_assoc] at hfuel ⊢
      by_cases hwhole : p.text.length ≤ n
      · simp only [unfinished, finished, if_pos hwhole]
        have htake : (p.text ++ (ps.flatMap Printed.text ++ trailing)).take n =
            p.text ++ (ps.flatMap Printed.text ++ trailing).take (n - p.text.length) := by
          rw [List.take_append, List.take_of_length_le hwhole]
        rw [htake] at hfuel ⊢
        have hlength : 0 < p.text.length := by simp [Printed.text]
        rw [List.length_append] at hfuel
        have hleft :
            ((ps.flatMap Printed.text ++ trailing).take (n - p.text.length)).length < fuel := by
          omega
        obtain ⟨fuel', hfuel', hparse⟩ := ih (n - p.text.length) hleft
        refine ⟨fuel', hfuel', ?_⟩
        rw [parseAllFrom_printed, hparse, List.cons_append]
      · simp only [unfinished, finished, if_neg hwhole, List.nil_append]
        have htake : (p.text ++ (ps.flatMap Printed.text ++ trailing)).take n = p.text.take n :=
          List.take_append_of_le_length (by omega)
        rw [htake] at hfuel ⊢
        by_cases hnoise : n ≤ p.noise.length
        · -- the cut is in front of the envelope
          have hquiet : Quiet (p.text.take n) := by
            rw [Printed.text, List.take_append_of_le_length hnoise]
            exact fun c hc => p.quiet c (List.mem_of_mem_take hc)
          have hnone : n - p.noise.length - 1 = 0 := by omega
          refine ⟨1, by simp [hnone], ?_⟩
          rw [parseAllFrom_quiet hquiet, hnone]
          rfl
        · have hpart : p.text.take n = p.noise ++ '{' :: p.body.take (n - p.noise.length - 1) := by
            rw [Printed.text, List.take_append, List.take_of_length_le (by omega),
              List.take_cons (by omega)]
          rw [hpart] at hfuel ⊢
          have hlength : p.text.length = p.noise.length + (p.body.length + 1) := by
            simp [Printed.text]
          obtain ⟨msg, hmsg⟩ := readEnvelope_truncated p (k := n - p.noise.length - 1) (by omega)
          refine ⟨fuel, ?_, ?_⟩
          · simp only [List.length_append, List.length_cons] at hfuel
            omega
          · simp only [parseAllFrom, dropWhile_quiet_brace p.quiet, hmsg]

theorem eq_brace_of_dropWhile {c : Char} (h : cs.dropWhile (· ≠ '{') = c :: rest) :
    c = '{' := by
  induction cs with
  | nil => cases h
  | cons d cs ih =>
      rw [List.dropWhile_cons] at h
      split at h
      · exact ih h
      · next hd =>
          obtain ⟨rfl, -⟩ := List.cons.inj h
          simpa using hd

theorem parseAllFrom_succ (fuel : Nat) (cs : List Char) :
    cs.dropWhile (· ≠ '{') = [] ∧ parseAllFrom (fuel + 1) cs = [] ∨
      ∃ rest, cs.dropWhile (· ≠ '{') = '{' :: rest ∧
        ((∃ e left, readEnvelope ('{' :: rest) = .ok (e, left) ∧
            parseAllFrom (fuel + 1) cs = e :: parseAllFrom fuel left) ∨
          (∃ msg, readEnvelope ('{' :: rest) = .error msg) ∧
            parseAllFrom (fuel + 1) cs = parseAllFrom fuel rest) := by
  cases hdrop : cs.dropWhile (· ≠ '{') with
  | nil =>
      left
      exact ⟨rfl, by simp only [parseAllFrom, hdrop]⟩
  | cons c rest =>
      right
      obtain rfl := eq_brace_of_dropWhile hdrop
      refine ⟨rest, rfl, ?_⟩
      cases hread : readEnvelope ('{' :: rest) with
      | ok r =>
          left
          exact ⟨r.1, r.2, rfl, by simp only [parseAllFrom, hdrop, hread]⟩
      | error msg =>
          right
          exact ⟨⟨msg, rfl⟩, by simp only [parseAllFrom, hdrop, hread]⟩

theorem suffix_dropWhile {suffix : List Char} (hsuffix : suffix <:+ cs)
    (hopens : opensEnvelope suffix = true) : suffix <:+ cs.dropWhile (· ≠ '{') := by
  induction cs with
  | nil => simpa using hsuffix
  | cons c cs ih =>
      rw [List.dropWhile_cons]
      split
      · next hc =>
          rcases List.suffix_cons_iff.mp hsuffix with rfl | hrest
          · have hbrace : c ≠ '{' := by simpa using hc
            simp [opensEnvelope, hbrace] at hopens
          · exact ih hrest
      · exact hsuffix

theorem opensEnvelope_of_ok {e : Envelope} (h : readEnvelope ('{' :: rest) = .ok (e, cs)) :
    opensEnvelope ('{' :: rest) = true := by
  rw [opensEnvelope, h]
  rfl

theorem opensEnvelope_of_error {msg : String} (h : readEnvelope ('{' :: rest) = .error msg) :
    opensEnvelope ('{' :: rest) = false := by
  rw [opensEnvelope, h]
  rfl

/-- The loop finds an envelope exactly where a brace opens one. -/
theorem parseAllFrom_eq_nil_iff (hfuel : cs.length < fuel) :
    parseAllFrom fuel cs = [] ↔ ∀ suffix, suffix <:+ cs → opensEnvelope suffix = false := by
  induction fuel generalizing cs with
  | zero => omega
  | succ fuel ih =>
      have hsuffix : cs.dropWhile (· ≠ '{') <:+ cs := List.dropWhile_suffix _
      rcases parseAllFrom_succ fuel cs with ⟨hnone, hparse⟩ | ⟨rest, hdrop, hround⟩
      · constructor
        · intro _ suffix hs
          by_contra hopens
          have hempty := suffix_dropWhile hs (by simpa using hopens)
          rw [hnone, List.suffix_nil] at hempty
          subst hempty
          exact hopens rfl
        · intro _
          exact hparse
      · rw [hdrop] at hsuffix
        rcases hround with ⟨e, left, hok, hparse⟩ | ⟨⟨msg, herror⟩, hparse⟩
        · rw [hparse]
          constructor
          · intro h
            cases h
          · intro hall
            have hfalse := hall _ hsuffix
            rw [opensEnvelope_of_ok hok] at hfalse
            cases hfalse
        · have hlength := hsuffix.length_le
          rw [List.length_cons] at hlength
          rw [hparse, ih (by omega)]
          constructor
          · intro hall suffix hs
            by_contra hopens
            have hopens : opensEnvelope suffix = true := by simpa using hopens
            have hin := suffix_dropWhile hs hopens
            rw [hdrop] at hin
            rcases List.suffix_cons_iff.mp hin with rfl | hrest
            · rw [opensEnvelope_of_error herror] at hopens
              cases hopens
            · rw [hall suffix hrest] at hopens
              cases hopens
          · intro hall suffix hs
            exact hall suffix (hs.trans ((List.suffix_cons _ _).trans hsuffix))

end Loop

/-! ## Whole logs -/

theorem parseAllFrom_text (o : Output) {fuel : Nat} (hfuel : o.text.length < fuel) :
    parseAllFrom fuel o.text = o.envelopes := by
  obtain ⟨printed, trailing, hquiet⟩ := o
  simp only [Output.text, Output.envelopes] at hfuel ⊢
  induction printed generalizing fuel with
  | nil => exact parseAllFrom_quiet hquiet
  | cons p ps ih =>
      obtain ⟨fuel, rfl⟩ : ∃ k, fuel = k + 1 := ⟨fuel - 1, by omega⟩
      have hlength : 0 < p.text.length := by simp [Printed.text]
      simp only [List.flatMap_cons, List.append_assoc, List.length_append] at hfuel ⊢
      rw [parseAllFrom_printed, ih (by rw [List.length_append]; omega), List.map_cons]

/-- `ParseAll` reads the envelopes of a log back. -/
theorem parseAll_text (o : Output) (hne : o.envelopes ≠ []) :
    parseAll (String.ofList o.text) = .ok o.envelopes := by
  have hparse := parseAllFrom_text o (Nat.lt_succ_self _)
  unfold parseAll
  rw [String.toList_ofList, hparse]
  split
  · next hnil => exact (hne hnil).elim
  · rfl

theorem parseAll_text_nil (o : Output) (hnil : o.envelopes = []) :
    ∃ msg, parseAll (String.ofList o.text) = .error msg := by
  have hparse := parseAllFrom_text o (Nat.lt_succ_self _)
  unfold parseAll
  rw [String.toList_ofList, hparse, hnil]
  exact ⟨_, rfl⟩

/-! ## Truncation -/

theorem finished_take (ps : List Printed) (n : Nat) :
    finished ps n <+: ps.map (·.envelope) := by
  induction ps generalizing n with
  | nil => exact List.prefix_rfl
  | cons p ps ih =>
      unfold finished
      split
      · exact List.cons_prefix_cons.mpr ⟨rfl, ih _⟩
      · exact List.nil_prefix

theorem mem_toOption_parseAll {out : String} {envs : List Envelope} :
    envs ∈ (parseAll out).toOption ↔
      parseAllFrom (out.toList.length + 1) out.toList = envs ∧ envs ≠ [] := by
  unfold parseAll
  split
  · next hnil =>
      rw [hnil]
      constructor
      · intro h
        cases h
      · rintro ⟨rfl, hne⟩
        exact (hne rfl).elim
  · next hne =>
      constructor
      · intro h
        cases h
        exact ⟨rfl, hne⟩
      · rintro ⟨rfl, -⟩
        rfl

/-- A cut log is read as envelopes of the log exactly when no brace within the envelope that
is cut opens an object that decodes as an envelope. -/
theorem inventsNothing_iff (o : Output) (n : Nat) :
    InventsNothing o n ↔
      ∀ suffix, suffix <:+ unfinished o.printed n → opensEnvelope suffix = false := by
  obtain ⟨fuel, hfuel, hparse⟩ := parseAllFrom_take o.quiet o.printed n
    (Nat.lt_succ_self ((o.printed.flatMap Printed.text ++ o.trailing).take n).length)
  rw [← parseAllFrom_eq_nil_iff hfuel]
  have hread : ∀ envs, envs ∈ (parseAll (String.ofList (o.text.take n))).toOption ↔
      finished o.printed n ++ parseAllFrom fuel (unfinished o.printed n) = envs ∧ envs ≠ [] := by
    intro envs
    rw [mem_toOption_parseAll, String.toList_ofList, ← hparse]
    rfl
  constructor
  · intro h
    by_contra hne
    have hcut := h _ ((hread _).mpr ⟨rfl, by simp [hne]⟩)
    have hlength := hcut.2
    rw [List.length_append] at hlength
    exact hne (List.length_eq_zero_iff.mp (by omega))
  · intro hnil envs henvs
    obtain ⟨rfl, -⟩ := (hread envs).mp henvs
    rw [hnil, List.append_nil]
    exact ⟨finished_take _ _, le_rfl⟩

/-- The answer of a system without members, as `dmg` prints it. -/
def noMembers : Output where
  printed := [{
    noise := []
    body := "\"response\":\x7b\"members\":[]\x7d,\"error\":null,\"status\":0\x7d".toList
    envelope := ⟨"\x7b\"members\":[]\x7d", none, 0⟩
    quiet := quiet_nil
    reads := by decide +kernel }]
  trailing := []
  quiet := quiet_nil

/-- Cut behind its response, the answer is read as an envelope without a response. -/
theorem inventsNothing_noMembers : ¬InventsNothing noMembers 26 := by decide +kernel

end DaosOperator.Dmg
