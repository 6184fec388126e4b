import DaosOperator.Safety.DegradedPools
import Mathlib.Algebra.Ring.Int.Defs
import Mathlib.Order.Bounds.Defs

/-!
# Space accounting and the metadata tier ratio

Both numbers are computed in `int64`.  The used space of a pool is multiplied by a hundred
before it is divided, so the percentage is exact as long as that product fits, and wrong as
soon as it does not.  The tier ratio is a ceiling division, cut off at the default of DAOS and
at a hundred.
-/

namespace DaosOperator.Pool

/-! ## Conversions -/

theorem toInt64_eq {i : Int} (hlow : -9223372036854775808 ≤ i) (hhigh : i < 9223372036854775808) :
    toInt64 i = i := by
  unfold toInt64
  omega

theorem toInt64_le_sub {i : Int} (h : 2 ^ 63 ≤ i) : toInt64 i ≤ i - 2 ^ 64 := by
  have hgone : 1 ≤ (i + 9223372036854775808) / 18446744073709551616 := by omega
  unfold toInt64
  omega

theorem toInt64_ge (i : Int) : -2 ^ 63 ≤ toInt64 i := by
  unfold toInt64
  omega

theorem addInt64_toInt64 (a b : Int) : Dmg.addInt64 (toInt64 a) b = toInt64 (a + b) := by
  unfold Dmg.addInt64 toInt64
  omega

theorem toInt32_eq {i : Int} (hlow : -2147483648 ≤ i) (hhigh : i < 2147483648) :
    Text.toInt32 i = i := by
  unfold Text.toInt32
  omega

/-! ## Space -/

/-- The bytes of all tiers of a query's answer. -/
def tierTotal (info : Dmg.PoolInfo) : Int := (info.tierStats.map (·.total)).sum

/-- The free bytes of all tiers of a query's answer. -/
def tierFree (info : Dmg.PoolInfo) : Int := (info.tierStats.map (·.free)).sum

theorem totals_from (tiers : List Dmg.TierStat) (a b : Int) :
    tiers.foldl (fun acc t => (Dmg.addInt64 acc.1 t.total, Dmg.addInt64 acc.2 t.free))
        (toInt64 a, toInt64 b) =
      (toInt64 (a + (tiers.map (·.total)).sum), toInt64 (b + (tiers.map (·.free)).sum)) := by
  induction tiers generalizing a b with
  | nil => simp
  | cons t rest ih =>
      simp only [List.foldl_cons, List.map_cons, List.sum_cons, addInt64_toInt64, ih, Int.add_assoc]

theorem totals_eq (info : Dmg.PoolInfo) :
    info.totals = (toInt64 (tierTotal info), toInt64 (tierFree info)) := by
  have h := totals_from info.tierStats 0 0
  rw [Int.zero_add, Int.zero_add] at h
  exact h

/-- The percentage in use, as a mathematical value. -/
def usedShare (info : Dmg.PoolInfo) : Int :=
  (tierTotal info - tierFree info) * 100 / tierTotal info

/-- The answer's sizes are what a pool can have. -/
structure SaneSizes (info : Dmg.PoolInfo) : Prop where
  free_nonneg : 0 ≤ tierFree info
  free_le : tierFree info ≤ tierTotal info
  total_pos : 0 < tierTotal info
  total_lt : tierTotal info < 2 ^ 63

/-- `spec.spaceWarningPercent` with its default. -/
def spaceThreshold (pool : DaosPool) : Int := pool.spec.spaceWarningPercent.getD 85

/-- The space of a status is exact: the percentage, its bounds, and the condition. -/
structure ExactSpace (info : Dmg.PoolInfo) (threshold : Int) (st : DaosPoolStatus) : Prop where
  percent : st.usedPercent = usedShare info
  bounded : 0 ≤ st.usedPercent ∧ st.usedPercent ≤ 100
  low : isStatusConditionTrue st.conditions .spaceLow = true ↔ threshold ≤ usedShare info

/-- The percentage `checkSpace` computes. -/
def computedShare (total free : Int) : Int :=
  Text.toInt32 ((toInt64 (toInt64 (total - free) * 100)).tdiv total)

theorem isStatusConditionTrue_setC_isFalse (st : DaosPoolStatus) (t : ConditionType)
    (reason msg : String) :
    isStatusConditionTrue (setC st t .isFalse reason msg).conditions t = false := by
  simp only [isStatusConditionTrue, setC]
  rw [findStatusCondition_set_self st.conditions ⟨t, .isFalse, reason, msg⟩]
  rfl

/-- What `checkSpace` writes for a pool that has a size and a threshold. -/
theorem checkSpace_spec {pool : DaosPool} {st : DaosPoolStatus} (htotal : 0 < st.totalBytes)
    (hthreshold : 0 < spaceThreshold pool) :
    (checkSpace pool st).1.usedPercent = computedShare st.totalBytes st.freeBytes ∧
      (isStatusConditionTrue (checkSpace pool st).1.conditions .spaceLow = true ↔
        spaceThreshold pool ≤ computedShare st.totalBytes st.freeBytes) := by
  unfold spaceThreshold at hthreshold ⊢
  unfold checkSpace
  rw [if_neg (by omega)]
  dsimp only
  rw [if_neg (by omega)]
  unfold computedShare
  split
  · rename_i hlow
    exact ⟨rfl, iff_of_true (isStatusConditionTrue_setC _ .spaceLow _ _) hlow⟩
  · rename_i hlow
    have hfalse := isStatusConditionTrue_setC_isFalse
    exact ⟨rfl, iff_of_false (by rw [hfalse]; exact Bool.false_ne_true) hlow⟩

section Share

variable {info : Dmg.PoolInfo}

theorem usedShare_bounds (h : SaneSizes info) : 0 ≤ usedShare info ∧ usedShare info ≤ 100 := by
  have hfree := h.free_nonneg
  have hle := h.free_le
  have hpos := h.total_pos
  constructor
  · exact Int.ediv_nonneg (by omega) (by omega)
  · exact Int.ediv_le_of_le_mul hpos (by omega)

theorem computedShare_eq (h : SaneSizes info)
    (hfits : (tierTotal info - tierFree info) * 100 < 2 ^ 63) :
    computedShare (tierTotal info) (tierFree info) = usedShare info := by
  have hfree := h.free_nonneg
  have hle := h.free_le
  have hlt := h.total_lt
  have hbounds := usedShare_bounds h
  unfold computedShare
  rw [toInt64_eq (i := tierTotal info - tierFree info) (by omega) (by omega),
    toInt64_eq (by omega) (by omega), Int.tdiv_eq_ediv_of_nonneg (by omega)]
  exact toInt32_eq (by simp only [usedShare] at hbounds; omega)
    (by simp only [usedShare] at hbounds; omega)

/-- The product does not fit, and what is left of it is too small. -/
theorem computedShare_lt (h : SaneSizes info)
    (hwraps : 2 ^ 63 ≤ (tierTotal info - tierFree info) * 100) :
    computedShare (tierTotal info) (tierFree info) < usedShare info := by
  have hfree := h.free_nonneg
  have hle := h.free_le
  have hpos := h.total_pos
  have hlt := h.total_lt
  have hbounds := usedShare_bounds h
  unfold computedShare usedShare
  rw [toInt64_eq (i := tierTotal info - tierFree info) (by omega) (by omega)]
  have hgone := toInt64_le_sub hwraps
  have hlow := toInt64_ge ((tierTotal info - tierFree info) * 100)
  unfold usedShare at hbounds
  generalize hproduct : (tierTotal info - tierFree info) * 100 = product at *
  generalize tierTotal info = total at *
  have hmin : -100 ≤ (toInt64 product).tdiv total := by
    have h := Int.tdiv_le_tdiv hpos (show -100 * total ≤ toInt64 product by omega)
    rwa [Int.mul_tdiv_cancel _ hpos.ne'] at h
  have hless : (toInt64 product).tdiv total < product / total := by
    rcases le_total 0 (toInt64 product) with hsign | hsign
    · rw [Int.tdiv_eq_ediv_of_nonneg hsign]
      calc toInt64 product / total ≤ (product + -2 * total) / total :=
            Int.ediv_le_ediv hpos (by omega)
        _ = product / total + -2 := Int.add_mul_ediv_right _ _ hpos.ne'
        _ < product / total := by omega
    · have hzero : (toInt64 product).tdiv total ≤ Int.tdiv 0 total := Int.tdiv_le_tdiv hpos hsign
      rw [Int.zero_tdiv] at hzero
      have hone : 1 ≤ product / total := (Int.le_ediv_iff_mul_le hpos).2 (by omega)
      omega
  rw [toInt32_eq (by omega) (by omega)]
  exact hless

end Share

/-- The status of a pool after a query that read its sizes, as `checkSpace` leaves it. -/
def spaceChecked (pool : DaosPool) (info : Dmg.PoolInfo) (enabled : List Int) (output : String)
    (queried : Time) (st : DaosPoolStatus) : DaosPoolStatus :=
  (checkSpace pool (withInfo pool info enabled false output queried st)).1

/-- The space of a pool is exact where a hundred times the used bytes fit in an `int64`, and only
there. -/
theorem space_exact_iff (pool : DaosPool) (info : Dmg.PoolInfo) (enabled : List Int)
    (output : String) (queried : Time) (st : DaosPoolStatus) (hsizes : SaneSizes info)
    (hthreshold : 1 ≤ spaceThreshold pool ∧ spaceThreshold pool ≤ 100) :
    ExactSpace info (spaceThreshold pool) (spaceChecked pool info enabled output queried st) ↔
      (tierTotal info - tierFree info) * 100 < 2 ^ 63 := by
  have hfree := hsizes.free_nonneg
  have hle := hsizes.free_le
  have hpos := hsizes.total_pos
  have hlt := hsizes.total_lt
  have htotal : (withInfo pool info enabled false output queried st).totalBytes =
      tierTotal info := by
    change info.totals.1 = _
    rw [totals_eq]
    exact toInt64_eq (by omega) (by omega)
  have hfreeBytes : (withInfo pool info enabled false output queried st).freeBytes =
      tierFree info := by
    change info.totals.2 = _
    rw [totals_eq]
    exact toInt64_eq (by omega) (by omega)
  have hpositive : 0 < (withInfo pool info enabled false output queried st).totalBytes := by omega
  have hthreshold' : 0 < spaceThreshold pool := by omega
  obtain ⟨hpercent, hlow⟩ := checkSpace_spec hpositive hthreshold'
  rw [htotal, hfreeBytes] at hpercent hlow
  constructor
  · intro hexact
    by_contra hwraps
    have hless := computedShare_lt hsizes (not_lt.1 hwraps)
    have heq := hpercent.symm.trans hexact.percent
    omega
  · intro hfits
    have heq := computedShare_eq hsizes hfits
    rw [heq] at hpercent hlow
    exact ⟨hpercent, hpercent ▸ usedShare_bounds hsizes, hlow⟩

def cachePool (size : Int) : DaosPool :=
  { name := "p", spec := { systemRef := "s", profile := profileKVCache, size } }

/-- One tier of the given size and free space. -/
def oneTier (total free : Int) : Dmg.PoolInfo :=
  ⟨"u", "Ready", 0, "idle", [⟨total, free⟩], "[0]", "[]"⟩

/-- 4 TiB of 16 TiB are used. -/
theorem space_exact_quarter :
    ExactSpace (oneTier (2 ^ 44) (3 * 2 ^ 42)) 85
      (spaceChecked (cachePool (2 ^ 44)) (oneTier (2 ^ 44) (3 * 2 ^ 42)) [0] "" 0 {}) :=
  (space_exact_iff (cachePool (2 ^ 44)) (oneTier (2 ^ 44) (3 * 2 ^ 42)) [0] "" 0 {}
    ⟨by decide, by decide, by decide, by decide⟩ ⟨by decide, by decide⟩).2 (by decide)

/-- A pool of 128 PiB that is full is reported to use -28 %, and not to be low on space. -/
theorem space_full_reported_negative :
    SaneSizes (oneTier (2 ^ 57) 0) ∧ usedShare (oneTier (2 ^ 57) 0) = 100 ∧
      (spaceChecked (cachePool (2 ^ 44)) (oneTier (2 ^ 57) 0) [0] "" 0 {}).usedPercent = -28 ∧
      isStatusConditionTrue
        (spaceChecked (cachePool (2 ^ 44)) (oneTier (2 ^ 57) 0) [0] "" 0 {}).conditions
        .spaceLow = false ∧
      ¬ExactSpace (oneTier (2 ^ 57) 0) 85
        (spaceChecked (cachePool (2 ^ 44)) (oneTier (2 ^ 57) 0) [0] "" 0 {}) := by
  have hpercent :
      (spaceChecked (cachePool (2 ^ 44)) (oneTier (2 ^ 57) 0) [0] "" 0 {}).usedPercent = -28 := by
    decide +kernel
  refine ⟨⟨by decide, by decide, by decide, by decide⟩, by decide, hpercent, by decide +kernel, ?_⟩
  intro hexact
  exact absurd (hpercent.symm.trans hexact.percent) (by decide)

/-! ## The metadata tier ratio -/

/-- The ranks a pool spans: those of its spec, or every rank of the system. -/
def spannedRanks (pool : DaosPool) (sys : DaosSystem) : Nat :=
  if pool.spec.ranks.isEmpty then sys.status.ranks.length else pool.spec.ranks.length

/-- A hundred times the bytes that the targets of the pool need for metadata. -/
def metaNeed (ranks : Nat) (targets : Int) : Int := 134217728 * ranks * targets * 100

/-- The largest target count of a system's engines. -/
def MostTargets (sys : DaosSystem) (targets : Int) : Prop :=
  (∃ e ∈ sys.spec.engines, e.targets = targets) ∧ ∀ e ∈ sys.spec.engines, e.targets ≤ targets

/-- `p` percent of the pool are enough for its metadata. -/
def Suffices (need size p : Int) : Prop := need ≤ size * p

theorem foldl_targets_spec (engines : List EngineSpec) (m : Int) :
    m ≤ engines.foldl (fun m e => if m < e.targets then e.targets else m) m ∧
      (∀ e ∈ engines,
        e.targets ≤ engines.foldl (fun m e => if m < e.targets then e.targets else m) m) ∧
      (engines.foldl (fun m e => if m < e.targets then e.targets else m) m = m ∨
        ∃ e ∈ engines,
          e.targets = engines.foldl (fun m e => if m < e.targets then e.targets else m) m) := by
  induction engines generalizing m with
  | nil => simp
  | cons e rest ih =>
      obtain ⟨hstart, hmem, hfrom⟩ := ih (if m < e.targets then e.targets else m)
      rw [List.foldl_cons]
      have hm : m ≤ if m < e.targets then e.targets else m := by split <;> omega
      have he : e.targets ≤ if m < e.targets then e.targets else m := by split <;> omega
      refine ⟨hm.trans hstart, ?_, ?_⟩
      · intro x hx
        rcases List.mem_cons.1 hx with rfl | hx
        · exact he.trans hstart
        · exact hmem x hx
      · rcases hfrom with hsame | ⟨x, hx, hxt⟩
        · by_cases hlt : m < e.targets
          · exact Or.inr ⟨e, List.mem_cons_self, by rw [hsame, if_pos hlt]⟩
          · exact Or.inl (by rw [hsame, if_neg hlt])
        · exact Or.inr ⟨x, List.mem_cons_of_mem e hx, hxt⟩

theorem foldl_targets_eq {sys : DaosSystem} {targets : Int} (hmost : MostTargets sys targets)
    (hpos : 0 < targets) :
    sys.spec.engines.foldl (fun m e => if m < e.targets then e.targets else m) 0 = targets := by
  obtain ⟨_, hmem, hfrom⟩ := foldl_targets_spec sys.spec.engines 0
  obtain ⟨⟨e, he, htargets⟩, hle⟩ := hmost
  have hlow := hmem e he
  rcases hfrom with hzero | ⟨x, hx, hxt⟩
  · omega
  · have hhigh := hle x hx
    omega

section Ratio

variable {pool : DaosPool} {sys : DaosSystem} {targets : Int}

/-- The percentage that `kvcacheTierRatio` rounds up to. -/
def ceilShare (need size : Int) : Int := (need + size - 1) / size

/-- The ceiling is the least percentage that suffices. -/
theorem suffices_iff_ceilShare_le (need : Int) {size : Int} (hsize : 0 < size) (p : Int) :
    Suffices need size p ↔ ceilShare need size ≤ p := by
  unfold Suffices ceilShare
  rw [Int.ediv_le_iff_le_mul hsize, Int.mul_comm size p]
  omega

theorem kvcacheTierRatio_eq_ratioOf (hmost : MostTargets sys targets) (hpos : 0 < targets) :
    kvcacheTierRatio pool sys = ratioOf (spannedRanks pool sys) targets pool.spec.size := by
  rw [← foldl_targets_eq hmost hpos]
  rfl

theorem ratioOf_eq {ranks : Nat} {size : Int} (hranks : 0 < ranks) (htargets : 0 < targets)
    (hsize : 0 < size) (hfits : metaNeed ranks targets + size < 2 ^ 63) :
    ratioOf ranks targets size =
      if ceilShare (metaNeed ranks targets) size ≤ 6 ∨
          100 ≤ ceilShare (metaNeed ranks targets) size then 0
      else ceilShare (metaNeed ranks targets) size := by
  unfold metaNeed at hfits ⊢
  have hbytes : (0 : Int) ≤ 134217728 * ranks := by omega
  have hall : 134217728 * (ranks : Int) * 1 ≤ 134217728 * ranks * targets :=
    Int.mul_le_mul_of_nonneg_left (by omega) hbytes
  unfold ratioOf ceilShare minMetaPerTarget
  rw [if_neg (by omega)]
  dsimp only
  rw [toInt64_eq (i := 134217728 * (ranks : Int)) (by omega) (by omega),
    toInt64_eq (i := 134217728 * (ranks : Int) * targets) (by omega) (by omega),
    toInt64_eq (i := 134217728 * (ranks : Int) * targets * 100) (by omega) (by omega),
    toInt64_eq (by omega) (by omega), Int.tdiv_eq_ediv_of_nonneg (by omega)]

end Ratio

/-- The ratio is the least percentage that suffices, and 0 where the default of DAOS suffices or
no percentage below a hundred does. -/
theorem tier_ratio_least (pool : DaosPool) (sys : DaosSystem) (targets : Int)
    (hranks : 1 ≤ spannedRanks pool sys) (hmost : MostTargets sys targets) (htargets : 0 < targets)
    (hsize : 0 < pool.spec.size)
    (hfits : metaNeed (spannedRanks pool sys) targets + pool.spec.size < 2 ^ 63) :
    (∀ p : Int, 7 ≤ p → p ≤ 99 → (kvcacheTierRatio pool sys = p ↔
      IsLeast {q | Suffices (metaNeed (spannedRanks pool sys) targets) pool.spec.size q} p)) ∧
      (kvcacheTierRatio pool sys = 0 ↔
        Suffices (metaNeed (spannedRanks pool sys) targets) pool.spec.size 6 ∨
          ∀ q < 100, ¬Suffices (metaNeed (spannedRanks pool sys) targets) pool.spec.size q) := by
  rw [kvcacheTierRatio_eq_ratioOf hmost htargets, ratioOf_eq hranks htargets hsize hfits]
  have hceil := suffices_iff_ceilShare_le (metaNeed (spannedRanks pool sys) targets) hsize
  generalize ceilShare (metaNeed (spannedRanks pool sys) targets) pool.spec.size = c at *
  simp only [hceil]
  constructor
  · intro p hlow hhigh
    have hleast : IsLeast {q | c ≤ q} p ↔ c = p :=
      ⟨fun h => le_antisymm h.1 (h.2 (le_refl c)), fun h => h ▸ ⟨le_refl c, fun _ hq => hq⟩⟩
    rw [hleast]
    split <;> omega
  · have hnone : (∀ q < 100, ¬c ≤ q) ↔ 100 ≤ c := by
      constructor
      · intro h
        have h99 := h 99 (by omega)
        omega
      · intro h q hq
        omega
    rw [hnone]
    split <;> omega

/-- A system of two ranks whose engines have 4 and 6 targets. -/
def twoEngines : DaosSystem :=
  { name := "s"
    spec := { engines := [{ targets := 4 }, { targets := 6 }] }
    status := { ranks := [⟨0, "n0", "joined"⟩, ⟨1, "n1", "joined"⟩] } }

/-- A pool of 14 GiB on twelve targets needs 11 %. -/
theorem tier_ratio_least_twelve :
    IsLeast {q | Suffices (metaNeed 2 6) (14 * 2 ^ 30) q} 11 :=
  ((tier_ratio_least (cachePool (14 * 2 ^ 30)) twoEngines 6 (by decide)
    ⟨⟨{ targets := 6 }, by decide, rfl⟩, by decide⟩ (by decide) (by decide) (by decide)).1 11
    (by decide) (by decide)).1 (by decide)

end DaosOperator.Pool
