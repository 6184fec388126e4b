import DaosOperator.Config
import Mathlib.Data.List.Perm.Subperm
import Mathlib.Data.List.Nodup

/-!
# The server configurations that can be stored

`Server` refuses a configuration in nested loops with early exits.  It accepts exactly those
whose roles are spread over the tiers of each engine without a gap and without an overlap.
-/

namespace DaosOperator.Render

/-- The roles of an engine's devices. -/
def roleNames : List String := ["wal", "meta", "data"]

def tierRoles (tiers : List Tier) : List String := tiers.flatMap (·.roles)

def Tier.Filled (t : Tier) : Prop := t.bdevs ≠ [] ∧ t.roles ≠ []

/-- An engine that DAOS can store on. -/
structure Engine.Storable (e : Engine) : Prop where
  fabric : e.fabricIface ≠ ""
  devices : (e.tiers = [] ∧ e.bdevs ≠ []) ∨
    (e.tiers ≠ [] ∧ (∀ t ∈ e.tiers, t.Filled) ∧ (tierRoles e.tiers).Perm roleNames)

/-- A configuration that DAOS can store on. -/
structure ServerConfig.Storable (c : ServerConfig) : Prop where
  systemName : c.systemName ≠ ""
  msReplicas : c.msReplicas ≠ []
  engines : c.engines ≠ []
  each : ∀ e ∈ c.engines, e.Storable

/-! ## Loops that gather without repetition -/

theorem bind_eq_ok {ε α β : Type} {x : Except ε α} {f : α → Except ε β} {b : β} :
    (x >>= f) = .ok b ↔ ∃ a, x = .ok a ∧ f a = .ok b := by
  cases x with
  | error e => simp [bind, Except.bind]
  | ok a => simp [bind, Except.bind]

section Gather

variable {ε α β : Type} {f : List β → α → Except ε (List β)} {Good : α → Prop}
  (out : α → List β)

/-- A loop each of whose steps asks for a good element and new entries gathers the entries of
good elements, none of them twice. -/
theorem foldlM_gather
    (hstep : ∀ a seen seen', seen.Nodup →
      (f seen a = .ok seen' ↔ Good a ∧ (seen ++ out a).Nodup ∧ seen' = seen ++ out a))
    (l : List α) {seen : List β} (seen' : List β) (hseen : seen.Nodup) :
    l.foldlM f seen = .ok seen' ↔
      (∀ a ∈ l, Good a) ∧ (seen ++ l.flatMap out).Nodup ∧ seen' = seen ++ l.flatMap out := by
  induction l generalizing seen with
  | nil => simp [hseen, pure, Except.pure, eq_comm]
  | cons a rest ih =>
      rw [List.foldlM_cons, bind_eq_ok, List.forall_mem_cons, List.flatMap_cons,
        ← List.append_assoc]
      constructor
      · rintro ⟨mid, hmid, hrest⟩
        obtain ⟨hgood, hnodup, rfl⟩ := (hstep a seen mid hseen).1 hmid
        obtain ⟨hall, hnodups, hout⟩ := (ih hnodup).1 hrest
        exact ⟨⟨hgood, hall⟩, hnodups, hout⟩
      · rintro ⟨⟨hgood, hall⟩, hnodups, hout⟩
        have hnodup : (seen ++ out a).Nodup := (List.nodup_append.1 hnodups).1
        exact ⟨seen ++ out a, (hstep a seen _ hseen).2 ⟨hgood, hnodup, rfl⟩,
          (ih hnodup).2 ⟨hall, hnodups, hout⟩⟩

end Gather

/-! ## Roles and tiers -/

theorem checkRole_eq_ok (engine : Int) (tier : Nat) {seen seen' : List String} {r : String}
    (hseen : seen.Nodup) :
    checkRole engine tier seen r = .ok seen' ↔
      r ∈ roleNames ∧ (seen ++ [r]).Nodup ∧ seen' = seen ++ [r] := by
  have hnames : (decide (r = "wal") || decide (r = "meta") || decide (r = "data")) = true ↔
      r ∈ roleNames := by
    simp [roleNames, or_assoc]
  have hnodup : (seen ++ [r]).Nodup ↔ r ∉ seen := by
    rw [List.nodup_append_comm]
    simp [hseen]
  unfold checkRole
  by_cases hname : r ∈ roleNames
  · rw [if_pos (hnames.2 hname), hnodup]
    by_cases hmem : r ∈ seen
    · simp [hmem]
    · simp [hmem, hname, eq_comm]
  · rw [if_neg (fun h => hname (hnames.1 h))]
    simp [hname]

/-- A tier that `checkTier` lets pass. -/
def Tier.Good (t : Tier) : Prop := t.Filled ∧ ∀ r ∈ t.roles, r ∈ roleNames

theorem checkTier_eq_ok (engine : Int) {t : Tier × Nat} {seen seen' : List String}
    (hseen : seen.Nodup) :
    checkTier engine seen t = .ok seen' ↔
      t.1.Good ∧ (seen ++ t.1.roles).Nodup ∧ seen' = seen ++ t.1.roles := by
  have hroles := foldlM_gather (f := checkRole engine t.2) (fun r => [r])
    (fun r seen seen' h => checkRole_eq_ok engine t.2 h) t.1.roles seen' hseen
  rw [List.flatMap_singleton'] at hroles
  unfold checkTier Tier.Good Tier.Filled
  by_cases hdevs : t.1.bdevs = []
  · simp [hdevs]
  · by_cases hempty : t.1.roles = []
    · simp [hdevs, hempty]
    · simpa [hdevs, hempty] using hroles

/-- The roles of good tiers cover the three names once each. -/
theorem roles_perm_iff {roles : List String} :
    roles.Perm roleNames ↔
      (∀ r ∈ roles, r ∈ roleNames) ∧ roles.Nodup ∧ ∀ r ∈ roleNames, r ∈ roles := by
  constructor
  · intro h
    exact ⟨fun r hr => h.mem_iff.1 hr, h.nodup_iff.2 (by decide), fun r hr => h.mem_iff.2 hr⟩
  · rintro ⟨hknown, hnodup, hall⟩
    exact (List.perm_ext_iff_of_nodup hnodup (by decide)).2 fun r => ⟨hknown r, hall r⟩

theorem checkTiers_eq_ok {engine : Int} {tiers : List Tier} {seen : List String} :
    tiers.zipIdx.foldlM (checkTier engine) [] = .ok seen ↔
      (∀ t ∈ tiers, t.Good) ∧ (tierRoles tiers).Nodup ∧ seen = tierRoles tiers := by
  have htiers := foldlM_gather (f := checkTier engine) (fun t => t.1.roles)
    (fun t seen seen' h => checkTier_eq_ok engine h) tiers.zipIdx seen List.nodup_nil
  have hroles : tiers.zipIdx.flatMap (fun t => t.1.roles) = tierRoles tiers := by
    rw [← List.flatMap_map (f := Prod.fst) (g := Tier.roles), List.zipIdx_map_fst]
    rfl
  have hgood : (∀ t ∈ tiers.zipIdx, t.1.Good) ↔ ∀ t ∈ tiers, t.Good := by
    rw [← List.forall_mem_map (f := Prod.fst), List.zipIdx_map_fst]
  rw [hroles, hgood] at htiers
  exact htiers

/-! ## Engines and servers -/

theorem find_missing_eq_none {roles : List String} :
    (["wal", "meta", "data"].find? fun r => r ∉ roles) = none ↔ ∀ r ∈ roleNames, r ∈ roles := by
  rw [List.find?_eq_none]
  simp [roleNames]

theorem known_of_good {tiers : List Tier} (hgood : ∀ t ∈ tiers, t.Good) :
    ∀ r ∈ tierRoles tiers, r ∈ roleNames := by
  intro r hr
  obtain ⟨t, ht, hrt⟩ := List.mem_flatMap.1 hr
  exact (hgood t ht).2 r hrt

theorem checkEngine_ok_iff (e : Engine) : (∃ e', checkEngine e = .ok e') ↔ e.Storable := by
  have hstorable : e.Storable ↔ e.fabricIface ≠ "" ∧ ((e.tiers = [] ∧ e.bdevs ≠ []) ∨
      (e.tiers ≠ [] ∧ (∀ t ∈ e.tiers, t.Filled) ∧ (tierRoles e.tiers).Perm roleNames)) :=
    ⟨fun h => ⟨h.1, h.2⟩, fun h => ⟨h.1, h.2⟩⟩
  rw [hstorable]
  unfold checkEngine
  by_cases hfabric : e.fabricIface = ""
  · simp [hfabric]
  · by_cases htiers : e.tiers = []
    · by_cases hdevs : e.bdevs = []
      · simp [hfabric, htiers, hdevs]
      · simp [hfabric, htiers, hdevs]
    · dsimp only
      rw [if_neg hfabric, if_neg (by simpa using htiers)]
      simp only [bind_eq_ok, checkTiers_eq_ok]
      rw [exists_comm]
      constructor
      · rintro ⟨seen, e', ⟨hgood, hnodup, rfl⟩, hrest⟩
        refine ⟨hfabric, Or.inr ⟨htiers, fun t ht => (hgood t ht).1, ?_⟩⟩
        split at hrest
        · cases hrest
        · rename_i hnone
          exact roles_perm_iff.2 ⟨known_of_good hgood, hnodup, find_missing_eq_none.1 hnone⟩
      · rintro ⟨_, ⟨hnil, _⟩ | ⟨_, hfilled, hperm⟩⟩
        · exact absurd hnil htiers
        · obtain ⟨hknown, hnodup, hall⟩ := roles_perm_iff.1 hperm
          have hgood : ∀ t ∈ e.tiers, t.Good := fun t ht =>
            ⟨hfilled t ht, fun r hr => hknown r (List.mem_flatMap.2 ⟨t, ht, hr⟩)⟩
          refine ⟨tierRoles e.tiers, ?_⟩
          rw [find_missing_eq_none.2 hall]
          exact ⟨_, ⟨hgood, hnodup, rfl⟩, rfl⟩

theorem mapM_ok_iff {ε α β : Type} {f : α → Except ε β} (l : List α) :
    (∃ out, l.mapM f = .ok out) ↔ ∀ a ∈ l, ∃ b, f a = .ok b := by
  induction l with
  | nil => simp [pure, Except.pure]
  | cons a rest ih =>
      rw [List.forall_mem_cons, ← ih]
      simp only [List.mapM_cons, bind_eq_ok]
      constructor
      · rintro ⟨_, b, hb, bs, hbs, _⟩
        exact ⟨⟨b, hb⟩, bs, hbs⟩
      · rintro ⟨⟨b, hb⟩, bs, hbs⟩
        exact ⟨b :: bs, b, hb, bs, hbs, rfl⟩

/-- `Server` accepts exactly the configurations that DAOS can store on. -/
theorem server_ok_iff_storable (c : ServerConfig) :
    (∃ rendered, server c = .ok rendered) ↔ c.Storable := by
  have hstorable : c.Storable ↔ c.systemName ≠ "" ∧ c.msReplicas ≠ [] ∧ c.engines ≠ [] ∧
      ∀ e ∈ c.engines, e.Storable :=
    ⟨fun h => ⟨h.1, h.2, h.3, h.4⟩, fun h => ⟨h.1, h.2.1, h.2.2.1, h.2.2.2⟩⟩
  rw [hstorable]
  unfold server
  by_cases hgiven : c.systemName = "" ∨ c.msReplicas = [] ∨ c.engines = []
  · rw [if_pos (by simpa [or_assoc] using hgiven)]
    simp only [reduceCtorEq, exists_false, false_iff]
    tauto
  · rw [if_neg (by simpa [or_assoc] using hgiven)]
    have heach := mapM_ok_iff (f := checkEngine) c.engines
    simp only [checkEngine_ok_iff] at heach
    rw [← heach]
    simp only [not_or] at hgiven
    constructor
    · rintro ⟨rendered, hrendered⟩
      cases hall : c.engines.mapM checkEngine with
      | error e => simp [hall, Except.map] at hrendered
      | ok engines => exact ⟨hgiven.1, hgiven.2.1, hgiven.2.2, engines, rfl⟩
    · rintro ⟨_, _, _, engines, hall⟩
      rw [hall]
      exact ⟨_, rfl⟩

end DaosOperator.Render
