import DaosOperator.Dmg.Truncation

/-!
# The two readers of a Job's output

`ParseAll` skips a brace that starts no envelope, `Parse` gives up at the first one.  On an
output of envelopes with other text between them they agree unless a brace stands in the text
before the first envelope.
-/

namespace DaosOperator.Dmg

/-! ## Outputs -/

/-- A part of an output: other text, or an envelope as it is printed. -/
inductive Piece where
  | text (cs : List Char)
  | envelope (body : List Char) (e : Envelope)

namespace Piece

def chars : Piece → List Char
  | text cs => cs
  | envelope body _ => '{' :: body

end Piece

def outputChars (pieces : List Piece) : List Char := pieces.flatMap Piece.chars

def outputEnvelopes : List Piece → List Envelope
  | [] => []
  | .text _ :: rest => outputEnvelopes rest
  | .envelope _ e :: rest => e :: outputEnvelopes rest

/-- Every envelope is complete, and no brace of the text opens one. -/
def Interleaved : List Piece → Prop
  | [] => True
  | .text cs :: rest =>
      (∀ before behind, cs = before ++ '{' :: behind →
        opensEnvelope ('{' :: (behind ++ outputChars rest)) = false) ∧ Interleaved rest
  | .envelope body e :: rest => readEnvelope ('{' :: body) = .ok (e, []) ∧ Interleaved rest

/-- No brace stands before the first envelope. -/
def CleanStart : List Piece → Prop
  | [] => True
  | .text cs :: rest => (outputEnvelopes rest ≠ [] → '{' ∉ cs) ∧ CleanStart rest
  | .envelope _ _ :: _ => True

/-- Both readers find what was printed: one all envelopes, the other one the first. -/
def ReadersAgree (pieces : List Piece) : Prop :=
  (∀ fuel, (outputChars pieces).length < fuel →
    parseAllFrom fuel (outputChars pieces) = outputEnvelopes pieces) ∧
  match outputEnvelopes pieces with
  | [] => parseAll (String.ofList (outputChars pieces)) =
      .error (noJson (String.ofList (outputChars pieces)))
  | e :: es => parseAll (String.ofList (outputChars pieces)) = .ok (e :: es) ∧
      parse (String.ofList (outputChars pieces)) = .ok e

/-! ## `ParseAll` -/

theorem parseAllFrom_skip {c : Char} (hc : c ≠ '{') (fuel : Nat) (cs : List Char) :
    parseAllFrom fuel (c :: cs) = parseAllFrom fuel cs := by
  cases fuel with
  | zero => rfl
  | succ fuel => simp only [parseAllFrom, List.dropWhile_cons, hc, ne_eq, not_false_eq_true,
      decide_true, if_true]

theorem readEnvelope_error_of_not_opens {cs : List Char}
    (h : opensEnvelope ('{' :: cs) = false) : ∃ msg, readEnvelope ('{' :: cs) = .error msg := by
  cases hread : readEnvelope ('{' :: cs) with
  | error msg => exact ⟨msg, rfl⟩
  | ok r =>
      rw [opensEnvelope_of_ok hread] at h
      cases h

theorem parseAllFrom_brace {cs : List Char} (h : opensEnvelope ('{' :: cs) = false) (fuel : Nat) :
    parseAllFrom (fuel + 1) ('{' :: cs) = parseAllFrom fuel cs := by
  obtain ⟨msg, hmsg⟩ := readEnvelope_error_of_not_opens h
  have hdrop : ('{' :: cs).dropWhile (· ≠ '{') = '{' :: cs := rfl
  simp only [parseAllFrom, hdrop, hmsg]

/-- The loop goes through a text of which no brace opens an envelope. -/
theorem parseAllFrom_through {cs more : List Char} {fuel : Nat}
    (hquiet : ∀ before behind, cs = before ++ '{' :: behind →
      opensEnvelope ('{' :: (behind ++ more)) = false)
    (hfuel : (cs ++ more).length < fuel) :
    ∃ fuel', more.length < fuel' ∧ parseAllFrom fuel (cs ++ more) = parseAllFrom fuel' more := by
  induction cs generalizing fuel with
  | nil => exact ⟨fuel, hfuel, rfl⟩
  | cons c cs ih =>
      have hrest : ∀ before behind, cs = before ++ '{' :: behind →
          opensEnvelope ('{' :: (behind ++ more)) = false := by
        rintro before behind rfl
        exact hquiet (c :: before) behind rfl
      rw [List.cons_append, List.length_cons] at hfuel
      rw [List.cons_append]
      by_cases hc : c = '{'
      · subst hc
        obtain ⟨fuel, rfl⟩ : ∃ k, fuel = k + 1 := ⟨fuel - 1, by omega⟩
        obtain ⟨fuel', hfuel', hparse⟩ := ih hrest (show (cs ++ more).length < fuel by omega)
        exact ⟨fuel', hfuel', (parseAllFrom_brace (hquiet [] cs rfl) fuel).trans hparse⟩
      · obtain ⟨fuel', hfuel', hparse⟩ := ih hrest (show (cs ++ more).length < fuel by omega)
        exact ⟨fuel', hfuel', (parseAllFrom_skip hc fuel _).trans hparse⟩

theorem outputChars_cons (p : Piece) (rest : List Piece) :
    outputChars (p :: rest) = p.chars ++ outputChars rest := List.flatMap_cons

/-- The loop returns all envelopes, with any fuel that is enough for the length of the output. -/
theorem parseAllFrom_pieces {pieces : List Piece} (h : Interleaved pieces) {fuel : Nat}
    (hfuel : (outputChars pieces).length < fuel) :
    parseAllFrom fuel (outputChars pieces) = outputEnvelopes pieces := by
  induction pieces generalizing fuel with
  | nil =>
      cases fuel with
      | zero => rfl
      | succ fuel => rfl
  | cons p rest ih =>
      rw [outputChars_cons] at hfuel ⊢
      cases p with
      | text cs =>
          obtain ⟨hquiet, hrest⟩ := h
          obtain ⟨fuel', hfuel', hparse⟩ := parseAllFrom_through hquiet hfuel
          exact hparse.trans (ih hrest hfuel')
      | envelope body e =>
          obtain ⟨hreads, hrest⟩ := h
          obtain ⟨fuel, rfl⟩ : ∃ k, fuel = k + 1 := ⟨fuel - 1, by omega⟩
          have hread := readEnvelope_append (outputChars rest) hreads
          have hlength : (outputChars rest).length < fuel := by
            simp only [Piece.chars, List.cons_append, List.length_cons, List.length_append] at hfuel
            omega
          have hdrop : ('{' :: (body ++ outputChars rest)).dropWhile (· ≠ '{') =
              '{' :: (body ++ outputChars rest) := rfl
          change parseAllFrom (fuel + 1) ('{' :: (body ++ outputChars rest)) =
            e :: outputEnvelopes rest
          simp only [parseAllFrom, hdrop, hread, List.nil_append, ih hrest hlength]

theorem parseAll_pieces {pieces : List Piece} (h : Interleaved pieces) :
    parseAll (String.ofList (outputChars pieces)) =
      match outputEnvelopes pieces with
      | [] => .error (noJson (String.ofList (outputChars pieces)))
      | envs => .ok envs := by
  have hall := parseAllFrom_pieces h (Nat.lt_succ_self (outputChars pieces).length)
  unfold parseAll
  rw [String.toList_ofList]
  cases henvs : outputEnvelopes pieces with
  | nil => simp only [hall, henvs]
  | cons e envs => simp only [hall, henvs]

/-! ## `Parse` -/

/-- `Parse` looks at the first brace only. -/
theorem parse_brace {cs : List Char} {out : String}
    (h : out.toList.dropWhile (· ≠ '{') = '{' :: cs) (e : Envelope) :
    parse out = .ok e ↔ ∃ rest, readEnvelope ('{' :: cs) = .ok (e, rest) := by
  unfold parse
  simp only [h]
  cases hread : readEnvelope ('{' :: cs) with
  | error msg => simp
  | ok r =>
      obtain ⟨e', rest⟩ := r
      simp

theorem parse_iff {pieces : List Piece} (h : Interleaved pieces) {e : Envelope}
    {es : List Envelope} (henvs : outputEnvelopes pieces = e :: es) (out : String)
    (hout : out.toList.dropWhile (· ≠ '{') = (outputChars pieces).dropWhile (· ≠ '{')) :
    parse out = .ok e ↔ CleanStart pieces := by
  induction pieces with
  | nil => cases henvs
  | cons p rest ih =>
      rw [outputChars_cons] at hout
      cases p with
      | text cs =>
          obtain ⟨hquiet, hrest⟩ := h
          have hne : outputEnvelopes rest ≠ [] := by
            rw [show outputEnvelopes rest = e :: es from henvs]
            exact List.cons_ne_nil _ _
          by_cases hbrace : '{' ∈ cs
          · -- the first brace of the text is where `Parse` stops
            have hfound : cs.dropWhile (· ≠ '{') ≠ [] := by
              rw [Ne, List.dropWhile_eq_nil_iff]
              exact fun hnone => absurd (hnone '{' hbrace) (by decide)
            obtain ⟨c, behind, hdrop⟩ := List.exists_cons_of_ne_nil hfound
            obtain rfl := eq_brace_of_dropWhile hdrop
            have hsplit : cs = cs.takeWhile (· ≠ '{') ++ '{' :: behind := by
              rw [← hdrop, List.takeWhile_append_dropWhile]
            obtain ⟨msg, hmsg⟩ := readEnvelope_error_of_not_opens (hquiet _ behind hsplit)
            have hfirst : out.toList.dropWhile (· ≠ '{') = '{' :: (behind ++ outputChars rest) := by
              rw [hout, Piece.chars, List.dropWhile_append, hdrop]
              rfl
            rw [parse_brace hfirst, hmsg]
            exact iff_of_false nofun fun hclean => hclean.1 hne hbrace
          · have hskip : out.toList.dropWhile (· ≠ '{') =
                (outputChars rest).dropWhile (· ≠ '{') := by
              rw [hout, Piece.chars, List.dropWhile_append_of_pos]
              intro c hc
              simpa using ne_of_mem_of_not_mem hc hbrace
            rw [ih hrest henvs hskip]
            exact ⟨fun hclean => ⟨fun _ => hbrace, hclean⟩, fun hclean => hclean.2⟩
      | envelope body e' =>
          obtain ⟨hreads, _⟩ := h
          obtain ⟨rfl, _⟩ := List.cons.inj henvs
          have hread := readEnvelope_append (outputChars rest) hreads
          rw [parse_brace hout]
          exact iff_of_true ⟨_, hread⟩ trivial

theorem cleanStart_of_no_envelope {pieces : List Piece} (h : outputEnvelopes pieces = []) :
    CleanStart pieces := by
  induction pieces with
  | nil => trivial
  | cons p rest ih =>
      cases p with
      | text cs => exact ⟨fun hne => absurd h hne, ih h⟩
      | envelope body e => cases h

/-- The readers agree exactly on the outputs that have no brace before the first envelope. -/
theorem readers_agree_iff (pieces : List Piece) (h : Interleaved pieces) :
    ReadersAgree pieces ↔ CleanStart pieces := by
  have hall : ∀ fuel, (outputChars pieces).length < fuel →
      parseAllFrom fuel (outputChars pieces) = outputEnvelopes pieces :=
    fun fuel hfuel => parseAllFrom_pieces h hfuel
  have hparse := parseAll_pieces h
  unfold ReadersAgree
  cases henvs : outputEnvelopes pieces with
  | nil =>
      rw [henvs] at hall hparse
      exact iff_of_true ⟨hall, hparse⟩ (cleanStart_of_no_envelope henvs)
  | cons e es =>
      have hfirst := parse_iff h henvs (String.ofList (outputChars pieces))
        (by rw [String.toList_ofList])
      rw [henvs] at hall hparse
      rw [← hfirst]
      exact ⟨fun hagree => hagree.2.2, fun hok => ⟨hall, hparse, hok⟩⟩

/-- The characters behind the brace of an envelope that carries nothing but its status. -/
def plainBody : List Char := ['"', 's', 't', 'a', 't', 'u', 's', '"', ':', '0', '}']

theorem readEnvelope_plainBody : readEnvelope ('{' :: plainBody) = .ok (⟨"", none, 0⟩, []) := by
  decide +kernel

theorem brace_at_start {before behind : List Char} (h : ['{', 'x'] = before ++ '{' :: behind) :
    behind = ['x'] := by
  rcases before with _ | ⟨c, before⟩
  · exact (List.cons.inj h).2.symm
  · have hmem : '{' ∈ ['x'] := by
      rw [(List.cons.inj h).2]
      simp
    exact absurd hmem (by decide)

/-- An envelope, and a line with a brace behind it. -/
theorem readers_agree_logged :
    ReadersAgree [.envelope plainBody ⟨"", none, 0⟩, .text ['{', 'x']] :=
  (readers_agree_iff [.envelope plainBody ⟨"", none, 0⟩, .text ['{', 'x']]
    ⟨readEnvelope_plainBody, fun before behind heq => by
      rw [brace_at_start heq]
      decide +kernel, trivial⟩).2 trivial

/-- A brace in a log line before the envelope: `ParseAll` finds the envelope, `Parse` does not. -/
theorem readers_disagree_behind_brace :
    Interleaved [.text ['{', 'x'], .envelope plainBody ⟨"", none, 0⟩] ∧
      ¬ReadersAgree [.text ['{', 'x'], .envelope plainBody ⟨"", none, 0⟩] := by
  constructor
  · refine ⟨fun before behind heq => ?_, readEnvelope_plainBody, trivial⟩
    rw [brace_at_start heq]
    decide +kernel
  · intro hagree
    have hparse : parse (String.ofList (outputChars
        [.text ['{', 'x'], .envelope plainBody ⟨"", none, 0⟩])) = .ok ⟨"", none, 0⟩ := hagree.2.2
    have hok : (parse (String.ofList (outputChars
        [.text ['{', 'x'], .envelope plainBody ⟨"", none, 0⟩]))).isOk = false := by
      decide +kernel
    rw [hparse] at hok
    cases hok

end DaosOperator.Dmg
