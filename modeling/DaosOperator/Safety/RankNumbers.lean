import DaosOperator.Safety.RankSets

/-!
# The ranks the guards see

The guards read the ranks of a request with `parseRankSet`, dmg gets the text.  The accepted
texts have numbers of any length.  `parseRankSet` reads them into an `int`, drops what does
not fit, and narrows every number it runs over to an `int32`.
-/

namespace DaosOperator.System

/-! ## The property -/

/-- The two ends of a component of a rank set, read without a bound. -/
def rankEnds (part : List Char) : Nat × Nat :=
  match Text.cutChars '-' part with
  | none => (Text.digitsValue part, Text.digitsValue part)
  | some (lo, hi) => (Text.digitsValue lo, Text.digitsValue hi)

/-- The components of a rank set. -/
def askedRanges (ranks : String) : List (Nat × Nat) :=
  (Text.splitChars ',' ranks.toList).map rankEnds

def Names (ranks : String) (rank : Int) : Prop :=
  ∃ c ∈ askedRanges ranks, c.1 ≤ rank ∧ rank ≤ c.2

/-- `parseRankSet` returns, and has exactly the ranks that the text names. -/
def SeesNamed (ranks : String) : Prop :=
  ∃ want, parseRankSet ranks = some want ∧
    ∀ rank, isInt32 rank = true → (want.contains rank = true ↔ Names ranks rank)

/-! ## The numbers of a loop -/

/-- The last number of a component's loop: an end that is no `int` leaves the start alone. -/
def lastNumber (c : Nat × Nat) : Nat := if c.2 ≤ 9223372036854775807 then c.2 else c.1

/-- The loop of a component; a start that is no `int` drops it. -/
def rankLoop (c : Nat × Nat) : Option (Int × Int) :=
  if c.1 ≤ 9223372036854775807 then some (c.1, lastNumber c) else none

/-- The loop of a component runs over the number. -/
def Visits (c : Nat × Nat) (i : Nat) : Prop :=
  c.1 ≤ 9223372036854775807 ∧ c.1 ≤ i ∧ i ≤ lastNumber c

theorem lastNumber_le {c : Nat × Nat} (h : c.1 ≤ 9223372036854775807) :
    lastNumber c ≤ 9223372036854775807 := by
  unfold lastNumber
  split <;> omega

/-- Where the numbers of a text are read as they stand: no loop runs to the largest `int`;
a number outside `int32` becomes a rank that is named anyway; and the ranks after the start
of a range whose end is no `int` are found in other components. -/
structure ReadAsNamed (ranks : String) : Prop where
  ends : ∀ c ∈ askedRanges ranks, ¬Visits c 9223372036854775807
  wraps : ∀ c ∈ askedRanges ranks, ∀ i, Visits c i → 2147483648 ≤ i →
    Names ranks (Text.toInt32 i)
  cuts : ∀ c ∈ askedRanges ranks, 9223372036854775808 ≤ c.2 → ∀ i, c.1 < i → i < 2147483648 →
    ∃ d ∈ askedRanges ranks, ∃ j, Visits d j ∧ Text.toInt32 j = i

/-- Numbers in the range of `int32` are read as they stand. -/
theorem readAsNamed_of_small {ranks : String}
    (h : ∀ c ∈ askedRanges ranks, c.1 < 2147483648 ∧ c.2 < 2147483648) : ReadAsNamed ranks where
  ends := by
    rintro c hc ⟨-, -, hlast⟩
    have hsmall := h c hc
    unfold lastNumber at hlast
    split at hlast <;> omega
  wraps := by
    rintro c hc i ⟨-, -, hlast⟩ hbig
    have hsmall := h c hc
    unfold lastNumber at hlast
    split at hlast <;> omega
  cuts := by
    intro c hc hbig
    have hsmall := h c hc
    omega

/-- The loop of a component that `rankSetRe` accepts. -/
theorem rankRange_of_isRankRange {part : List Char} (h : isRankRange part = true) :
    rankRange (String.ofList part) = rankLoop (rankEnds part) := by
  have hatoi : ∀ {cs : List Char}, Text.isDigits cs = true →
      Text.atoi (Text.trimSpace (String.ofList cs)) =
        if Text.digitsValue cs ≤ 9223372036854775807 then some (Text.digitsValue cs : Int)
        else none := by
    intro cs hcs
    have htrim : Text.trimSpace (String.ofList cs) = String.ofList cs := by
      refine Text.trimSpace_of_noSpace fun c hc => ?_
      rw [String.toList_ofList] at hc
      exact Text.isSpace_of_isDigit (Text.isDigit_of_isDigits hcs c hc)
    rw [htrim, Text.atoi_of_isDigits hcs]
  unfold isRankRange at h
  unfold rankRange rankLoop lastNumber rankEnds Text.cut
  rw [String.toList_ofList]
  cases hcut : Text.cutChars '-' part with
  | none =>
      simp only [hcut] at h
      simp only [Option.map_none, hatoi h]
      split <;> simp
  | some r =>
      obtain ⟨lo, hi⟩ := r
      simp only [hcut, Bool.and_eq_true] at h
      simp only [Option.map_some, hatoi h.1, hatoi h.2]
      by_cases hlo : Text.digitsValue lo ≤ 9223372036854775807
      · rw [if_pos hlo, if_pos hlo]
        split <;> rfl
      · rw [if_neg hlo, if_neg hlo]
        rfl

theorem ranges_of_isRankSet {ranks : String} (h : isRankSet ranks = true) :
    (Text.split ranks ',').filterMap rankRange = (askedRanges ranks).filterMap rankLoop := by
  unfold Text.split askedRanges
  rw [List.filterMap_map, List.filterMap_map]
  refine List.filterMap_congr fun part hpart => ?_
  exact rankRange_of_isRankRange (List.all_eq_true.mp h part hpart)

/-- `want[rank]` is set by the numbers that the loop narrows to the rank. -/
theorem rankLoop_marks {c : Nat × Nat} {rank : Int} (hrank : isInt32 rank = true) :
    (∃ r, rankLoop c = some r ∧ r.1 + (rank - r.1) % 4294967296 ≤ r.2) ↔
      ∃ i, Visits c i ∧ Text.toInt32 i = rank := by
  simp only [isInt32, decide_eq_true_eq] at hrank
  unfold rankLoop Visits Text.toInt32
  generalize lastNumber c = last
  constructor
  · rintro ⟨r, hr, hmarks⟩
    split at hr
    · next hstart =>
        cases hr
        -- the first number from the start on that is the rank modulo the width
        refine ⟨((c.1 : Int) + (rank - c.1) % 4294967296).toNat, ⟨hstart, ?_, ?_⟩, ?_⟩
        · omega
        · dsimp only at hmarks
          omega
        · omega
    · cases hr
  · rintro ⟨i, ⟨hstart, hfrom, hto⟩, hi⟩
    rw [if_pos hstart]
    refine ⟨_, rfl, ?_⟩
    dsimp only
    omega

/-- A loop ends unless it runs to the largest `int`. -/
theorem rankLoop_endless {c : Nat × Nat} :
    (∃ r, rankLoop c = some r ∧ r.1 ≤ r.2 ∧ r.2 = 9223372036854775807) ↔
      Visits c 9223372036854775807 := by
  unfold rankLoop Visits
  constructor
  · rintro ⟨r, hr, hle, hlast⟩
    split at hr
    · next hstart =>
        cases hr
        dsimp only at hle hlast
        omega
    · cases hr
  · rintro ⟨hstart, -, hlast⟩
    have hle := lastNumber_le hstart
    rw [if_pos hstart]
    refine ⟨_, rfl, ?_⟩
    dsimp only
    omega

/-- `parseRankSet` of an accepted text. -/
theorem parseRankSet_of_isRankSet {ranks : String} (h : isRankSet ranks = true) {want : RankSet} :
    parseRankSet ranks = some want ↔
      (∀ c ∈ askedRanges ranks, ¬Visits c 9223372036854775807) ∧
        want = ⟨(askedRanges ranks).filterMap rankLoop⟩ := by
  have hendless : (((askedRanges ranks).filterMap rankLoop).any fun r =>
        decide (r.1 ≤ r.2 ∧ r.2 = 9223372036854775807)) = true ↔
      ∃ c ∈ askedRanges ranks, Visits c 9223372036854775807 := by
    simp only [List.any_eq_true, List.mem_filterMap, decide_eq_true_eq, ← rankLoop_endless]
    constructor
    · rintro ⟨r, ⟨c, hc, hr⟩, hlast⟩
      exact ⟨c, hc, r, hr, hlast⟩
    · rintro ⟨c, hc, r, hr, hlast⟩
      exact ⟨r, ⟨c, hc, hr⟩, hlast⟩
  unfold parseRankSet
  rw [ranges_of_isRankSet h]
  dsimp only
  split
  · next hany =>
      obtain ⟨c, hc, hvisits⟩ := hendless.mp hany
      refine iff_of_false (by simp) ?_
      rintro ⟨hends, -⟩
      exact hends c hc hvisits
  · next hany =>
      have hends : ∀ c ∈ askedRanges ranks, ¬Visits c 9223372036854775807 := by
        intro c hc hvisits
        exact hany (hendless.mpr ⟨c, hc, hvisits⟩)
      rw [Option.some.injEq]
      exact ⟨fun heq => ⟨hends, heq.symm⟩, fun heq => heq.2.symm⟩

/-- A rank is marked by the numbers that some loop runs over. -/
theorem contains_iff_visits {ranks : String} {rank : Int} (hrank : isInt32 rank = true) :
    RankSet.contains ⟨(askedRanges ranks).filterMap rankLoop⟩ rank = true ↔
      ∃ c ∈ askedRanges ranks, ∃ i, Visits c i ∧ Text.toInt32 i = rank := by
  simp only [RankSet.contains, List.any_eq_true, List.mem_filterMap, decide_eq_true_eq,
    ← rankLoop_marks hrank]
  constructor
  · rintro ⟨r, ⟨c, hc, hr⟩, hmarks⟩
    exact ⟨c, hc, r, hr, hmarks⟩
  · rintro ⟨c, hc, r, hr, hmarks⟩
    exact ⟨r, ⟨c, hc, hr⟩, hmarks⟩

theorem isInt32_toInt32 (i : Int) : isInt32 (Text.toInt32 i) = true := by
  unfold isInt32 Text.toInt32
  refine decide_eq_true ?_
  omega

theorem toInt32_of_lt {i : Nat} (h : i < 2147483648) : Text.toInt32 i = i := by
  unfold Text.toInt32
  omega

/-! ## Accepted requests -/

theorem isRankSet_of_parseRankOp {v op ranks : String} (h : parseRankOp v = .ok (op, ranks)) :
    isRankSet ranks = true := by
  unfold parseRankOp at h
  split at h
  · cases h
  · split at h
    · cases h
    · dsimp only at h
      split at h
      · cases h
      · split at h
        · cases h
        · next hset =>
            cases h
            simpa using hset

/-- The guards see exactly the ranks that an accepted request names where its numbers are read
as they stand. -/
theorem sees_named {v op ranks : String} (h : parseRankOp v = .ok (op, ranks)) :
    SeesNamed ranks ↔ ReadAsNamed ranks := by
  have hset := isRankSet_of_parseRankOp h
  constructor
  · rintro ⟨want, hwant, hsees⟩
    obtain ⟨hends, rfl⟩ := (parseRankSet_of_isRankSet hset).mp hwant
    refine ⟨hends, ?_, ?_⟩
    · intro c hc i hi _
      have hrank := isInt32_toInt32 i
      exact (hsees _ hrank).mp ((contains_iff_visits hrank).mpr ⟨c, hc, i, hi, rfl⟩)
    · intro c hc hbig i hfrom hsmall
      have hrank : isInt32 i = true := by
        simp only [isInt32, decide_eq_true_eq]
        omega
      have hnames : Names ranks i := ⟨c, hc, by omega, by omega⟩
      exact (contains_iff_visits hrank).mp ((hsees i hrank).mpr hnames)
  · rintro ⟨hends, hwraps, hcuts⟩
    refine ⟨_, (parseRankSet_of_isRankSet hset).mpr ⟨hends, rfl⟩, ?_⟩
    intro rank hrank
    rw [contains_iff_visits hrank]
    constructor
    · rintro ⟨c, hc, i, hi, rfl⟩
      by_cases hbig : 2147483648 ≤ i
      · exact hwraps c hc i hi hbig
      · rw [toInt32_of_lt (by omega)]
        obtain ⟨-, hfrom, hto⟩ := hi
        refine ⟨c, hc, by omega, ?_⟩
        unfold lastNumber at hto
        split at hto <;> omega
    · rintro ⟨c, hc, hfrom, hto⟩
      simp only [isInt32, decide_eq_true_eq] at hrank
      obtain ⟨i, rfl⟩ := Int.eq_ofNat_of_zero_le (show 0 ≤ rank by omega)
      by_cases hend : c.2 ≤ 9223372036854775807
      · refine ⟨c, hc, i, ⟨by omega, by omega, ?_⟩, toInt32_of_lt (by omega)⟩
        rw [lastNumber, if_pos hend]
        omega
      · by_cases hstart : i = c.1
        · refine ⟨c, hc, i, ⟨by omega, by omega, ?_⟩, toInt32_of_lt (by omega)⟩
          rw [lastNumber, if_neg hend]
          omega
        · exact hcuts c hc (by omega) i (by omega) (by omega)

/-- The request of the documentation. -/
theorem sees_named_small : parseRankOp "exclude:1,3-4" = .ok ("exclude", "1,3-4") ∧
    SeesNamed "1,3-4" := by
  have hparse : parseRankOp "exclude:1,3-4" = .ok ("exclude", "1,3-4") := by decide
  refine ⟨hparse, (sees_named hparse).mpr (readAsNamed_of_small ?_)⟩
  decide

/-- An end that is no `int` hides all ranks but the first, a number beyond `int32` becomes
another rank, and a range that ends with the largest `int` is never read to its end. -/
theorem sees_other_ranks :
    (parseRankOp "exclude:0-9223372036854775808" = .ok ("exclude", "0-9223372036854775808") ∧
      ¬SeesNamed "0-9223372036854775808") ∧
    (parseRankOp "exclude:4294967296" = .ok ("exclude", "4294967296") ∧
      ¬SeesNamed "4294967296") ∧
    parseRankOp "exclude:0-9223372036854775807" = .ok ("exclude", "0-9223372036854775807") ∧
      ¬SeesNamed "0-9223372036854775807" := by
  refine ⟨⟨by decide, ?_⟩, ⟨by decide, ?_⟩, by decide, ?_⟩
  · rintro ⟨want, hwant, hsees⟩
    obtain ⟨-, rfl⟩ := (parseRankSet_of_isRankSet (by decide)).mp hwant
    have hnames : Names "0-9223372036854775808" 1 := by
      refine ⟨(0, 9223372036854775808), by decide, by decide, by decide⟩
    exact absurd ((hsees 1 (by decide)).mpr hnames) (by decide)
  · rintro ⟨want, hwant, hsees⟩
    obtain ⟨-, rfl⟩ := (parseRankSet_of_isRankSet (by decide)).mp hwant
    obtain ⟨c, hc, hfrom, -⟩ := (hsees 0 (by decide)).mp (by decide)
    have hc : c = (4294967296, 4294967296) := by
      have hasked : askedRanges "4294967296" = [(4294967296, 4294967296)] := by decide
      simpa [hasked] using hc
    subst hc
    exact absurd hfrom (by decide)
  · rintro ⟨want, hwant, -⟩
    have hset : (parseRankSet "0-9223372036854775807").isNone = true := by decide
    rw [hwant] at hset
    cases hset

end DaosOperator.System
