import DaosOperator.Operator

/-!
# The property list of a create

`opSpec` merges the redundancy factor, the free map `spec.properties` and the pinned
reintegration mode into one text, which `dmg pool create -P` takes apart again.  The
names and values of the map are copied as they are: a property called `rd_fac` stands beside
the computed one, and a value with a comma adds properties of its own.
-/

namespace DaosOperator.Pool

/-! ## The property -/

/-- A part of a property list, read at its first `:`. -/
def readProperty (part : String) : String × String := (Text.cut part ':').getD (part, "")

def readProperties (value : String) : List (String × String) :=
  (Text.split value ',').map readProperty

/-- The `-P` value among the words of a create. -/
def propertyOption : List String → Option String
  | "pool" :: "create" :: "-z" :: _ :: "-P" :: value :: _ => some value
  | _ => none

/-- The list names each property once, the redundancy factor of the pool among them, and the
reintegration mode if it is pinned. -/
structure SaysOnce (pool : DaosPool) (properties : List (String × String)) : Prop where
  names : (properties.map Prod.fst).Nodup
  redundancy : ("rd_fac", toString (redundancyFactor pool)) ∈ properties
  reintegration : ∀ mode,
    ("reintegration", mode) ∈ properties ↔ pinnedReintegration pool = some mode

def CreateSaysOnce (pool : DaosPool) (sys : DaosSystem) (ns : String) : Prop :=
  ∃ value ∈ propertyOption (opSpec pool sys ns (.op .create)).command.args,
    SaysOnce pool (readProperties value)

/-! ## The condition -/

/-- What is read of the entries of `spec.properties`. -/
def specProperties (properties : List (String × String)) : List (String × String) :=
  properties.flatMap fun kv => readProperties (kv.1 ++ ":" ++ kv.2)

/-- The entries of the map read as different properties, none of them `rd_fac`, and as
`reintegration` only if the map has that key. -/
structure PlainProperties (properties : List (String × String)) : Prop where
  names : ((specProperties properties).map Prod.fst).Nodup
  redundancy : "rd_fac" ∉ (specProperties properties).map Prod.fst
  reintegration : "reintegration" ∈ (specProperties properties).map Prod.fst →
    (lookupKey properties "reintegration").isSome

/-! ## What is read of a create -/

theorem readProperties_join {parts : List String} (hne : parts ≠ []) :
    readProperties (Text.join parts ",") = parts.flatMap readProperties := by
  rw [readProperties, Text.split_join_eq_flatMap rfl hne, List.map_flatMap]
  rfl

theorem readProperties_single {name value : String} (hname : ':' ∉ name.toList)
    (hcomma : ',' ∉ name.toList) (hvalue : ',' ∉ value.toList) :
    readProperties (name ++ ":" ++ value) = [(name, value)] := by
  have hpart : ',' ∉ (name ++ ":" ++ value).toList := by
    simpa using ⟨hcomma, hvalue⟩
  have hcut : Text.cut (name ++ ":" ++ value) ':' = some (name, value) := Text.cut_append rfl hname
  rw [readProperties, Text.split_eq_self hpart]
  simp [readProperty, hcut]

/-- The pinned mode of a pool without redundancy is appended when the map does not have one. -/
def pinnedProperty (pool : DaosPool) : List (String × String) :=
  if lookupKey pool.spec.properties "reintegration" = none ∧ redundancyFactor pool = 0 then
    [("reintegration", "incremental")] else []

theorem readProperties_pinned (pool : DaosPool) :
    (if (lookupKey pool.spec.properties "reintegration").isNone ∧
        reintegrationMode pool = "incremental" then ["reintegration:incremental"] else []).flatMap
      readProperties = pinnedProperty pool := by
  cases hset : lookupKey pool.spec.properties "reintegration" with
  | some mode => simp [pinnedProperty, hset]
  | none =>
      have hread : readProperties "reintegration:incremental" =
          [("reintegration", "incremental")] := by decide
      by_cases hzero : redundancyFactor pool = 0
      · simp [pinnedProperty, reintegrationMode, pinnedReintegration, hset, hzero, hread]
      · simp [pinnedProperty, reintegrationMode, pinnedReintegration, hset, hzero]

theorem readProperties_create (pool : DaosPool) :
    readProperties (Text.join (createProperties pool) ",") =
      ("rd_fac", toString (redundancyFactor pool)) ::
        (specProperties (pool.spec.properties.insertionSort fun a b => a.1 ≤ b.1) ++
          pinnedProperty pool) := by
  have hfactor : ',' ∉ (toString (redundancyFactor pool)).toList := by
    intro hmem
    rcases Text.mem_toString_int hmem with h | h <;> cases h
  have hhead : readProperties ("rd_fac:" ++ toString (redundancyFactor pool)) =
      [("rd_fac", toString (redundancyFactor pool))] := by
    rw [show "rd_fac:" = "rd_fac" ++ ":" from rfl]
    exact readProperties_single (by decide) (by decide) hfactor
  rw [readProperties_join (by simp [createProperties])]
  simp only [createProperties, List.cons_append, List.nil_append, List.flatMap_cons, hhead,
    List.flatMap_append, List.flatMap_map, readProperties_pinned, specProperties]

/-! ## The property list of a create -/

theorem mem_pinnedProperty {pool : DaosPool} {kv : String × String} :
    kv ∈ pinnedProperty pool ↔ lookupKey pool.spec.properties "reintegration" = none ∧
      redundancyFactor pool = 0 ∧ kv = ("reintegration", "incremental") := by
  unfold pinnedProperty
  split <;> rename_i h <;> simp [h]
  exact fun hset hzero => (h ⟨hset, hzero⟩).elim

theorem nodup_pinnedProperty (pool : DaosPool) : ((pinnedProperty pool).map Prod.fst).Nodup := by
  unfold pinnedProperty
  split <;> simp

/-- The mode that the map of an admitted spec sets is read as it stands. -/
theorem mem_specProperties_reintegration {spec : DaosPoolSpec} {mode : String}
    (hspec : specAdmitted spec = true)
    (hset : lookupKey spec.properties "reintegration" = some mode) :
    ("reintegration", mode) ∈ specProperties spec.properties := by
  have hmode : mode ∈ ["data_sync", "incremental", "no_data_sync"] := by
    simp only [specAdmitted, hset, Option.all_some, Bool.and_eq_true, decide_eq_true_eq] at hspec
    exact hspec.1.1.1.1.2
  have hcomma : ',' ∉ mode.toList := by
    rcases hmode with _ | ⟨_, _ | ⟨_, _ | ⟨_, hmode⟩⟩⟩
    · decide
    · decide
    · decide
    · cases hmode
  have hread := readProperties_single (show ':' ∉ "reintegration".toList by decide)
    (by decide) hcomma
  refine List.mem_flatMap.mpr ⟨_, mem_of_lookupKey hset, ?_⟩
  rw [hread]
  exact List.mem_singleton.mpr rfl

theorem createSaysOnce_iff {pool : DaosPool} {sys : DaosSystem} {ns : String} :
    CreateSaysOnce pool sys ns ↔
      SaysOnce pool (("rd_fac", toString (redundancyFactor pool)) ::
        (specProperties (pool.spec.properties.insertionSort fun a b => a.1 ≤ b.1) ++
          pinnedProperty pool)) := by
  rw [← readProperties_create]
  constructor
  · rintro ⟨value, hvalue, hsays⟩
    cases hvalue
    exact hsays
  · exact fun hsays => ⟨_, rfl, hsays⟩

section Says

variable {pool : DaosPool} {properties : List (String × String)}

theorem plain_of_saysOnce (hperm : properties.Perm (specProperties pool.spec.properties))
    (h : SaysOnce pool (("rd_fac", toString (redundancyFactor pool)) ::
      (properties ++ pinnedProperty pool))) : PlainProperties pool.spec.properties := by
  have hnames := h.names
  rw [List.map_cons, List.map_append, List.nodup_cons] at hnames
  have hsame := hperm.map Prod.fst
  refine ⟨hsame.nodup_iff.mp hnames.2.of_append_left, ?_, ?_⟩
  · intro hmem
    exact hnames.1 (List.mem_append_left _ (hsame.mem_iff.mpr hmem))
  · intro hmem
    have hown := hsame.mem_iff.mpr hmem
    obtain ⟨⟨_, mode⟩, hread, rfl⟩ := List.mem_map.mp hown
    have hpinned := (h.reintegration mode).mp
      (List.mem_cons_of_mem _ (List.mem_append_left _ hread))
    by_contra hunset
    have hnone : lookupKey pool.spec.properties "reintegration" = none := by
      simpa using hunset
    -- the mode is pinned without the map, so the create appends it a second time
    have hzero : redundancyFactor pool = 0 := by
      by_contra hne
      simp [pinnedReintegration, hnone, hne] at hpinned
    have happended : "reintegration" ∈ (pinnedProperty pool).map Prod.fst :=
      List.mem_map.mpr ⟨_, mem_pinnedProperty.mpr ⟨hnone, hzero, rfl⟩, rfl⟩
    exact List.disjoint_of_nodup_append hnames.2 hown happended

theorem saysOnce_of_plain (hspec : specAdmitted pool.spec = true)
    (hperm : properties.Perm (specProperties pool.spec.properties))
    (h : PlainProperties pool.spec.properties) :
    SaysOnce pool (("rd_fac", toString (redundancyFactor pool)) ::
      (properties ++ pinnedProperty pool)) := by
  have hsame := hperm.map Prod.fst
  refine ⟨?_, List.mem_cons_self, ?_⟩
  · rw [List.map_cons, List.map_append, List.nodup_cons]
    constructor
    · intro hmem
      rcases List.mem_append.mp hmem with hmem | hmem
      · exact h.redundancy (hsame.mem_iff.mp hmem)
      · obtain ⟨kv, hkv, hname⟩ := List.mem_map.mp hmem
        obtain ⟨-, -, rfl⟩ := mem_pinnedProperty.mp hkv
        simp at hname
    · refine (hsame.nodup_iff.mpr h.names).append (nodup_pinnedProperty pool) ?_
      intro name hown happended
      obtain ⟨kv, hkv, rfl⟩ := List.mem_map.mp happended
      obtain ⟨hnone, -, rfl⟩ := mem_pinnedProperty.mp hkv
      have hset := h.reintegration (hsame.mem_iff.mp hown)
      simp [hnone] at hset
  · intro mode
    have hhead : ("reintegration", mode) ≠ ("rd_fac", toString (redundancyFactor pool)) := by
      simp
    simp only [List.mem_cons, hhead, false_or, List.mem_append, hperm.mem_iff, mem_pinnedProperty,
      Prod.mk.injEq, true_and]
    cases hset : lookupKey pool.spec.properties "reintegration" with
    | some set =>
        have hread := mem_specProperties_reintegration hspec hset
        simp only [pinnedReintegration, hset, reduceCtorEq, false_and, or_false, Option.some.injEq]
        constructor
        · intro hmem
          exact congrArg Prod.snd (List.inj_on_of_nodup_map h.names hread hmem rfl)
        · rintro rfl
          exact hread
    | none =>
        have hunread : ("reintegration", mode) ∉ specProperties pool.spec.properties := by
          intro hmem
          have hset' := h.reintegration (List.mem_map_of_mem hmem)
          simp [hset] at hset'
        simp only [hunread, false_or, true_and, pinnedReintegration, hset]
        by_cases hzero : redundancyFactor pool = 0
        · simp [hzero, eq_comm]
        · simp [hzero]

end Says

/-- The create Job of an admitted pool says each property once exactly if the entries of
`spec.properties` are read as different properties, none of them `rd_fac`, and as
`reintegration` only if that is one of their names. -/
theorem create_says_once {pool : DaosPool} (hspec : specAdmitted pool.spec = true)
    (sys : DaosSystem) (ns : String) :
    CreateSaysOnce pool sys ns ↔ PlainProperties pool.spec.properties := by
  have hperm : (specProperties (pool.spec.properties.insertionSort fun a b => a.1 ≤ b.1)).Perm
      (specProperties pool.spec.properties) :=
    (List.perm_insertionSort _ _).flatMap_right _
  rw [createSaysOnce_iff]
  exact ⟨plain_of_saysOnce hperm, saysOnce_of_plain hspec hperm⟩

def poolWith (properties : List (String × String)) : DaosPool where
  name := "p"
  spec := { systemRef := "s", size := 1000000000, properties }

theorem create_says_once_cellSize :
    CreateSaysOnce (poolWith [("ec_cell_sz", "64K"), ("reintegration", "data_sync")])
      { name := "s" } "daos" :=
  (create_says_once (by decide) _ _).mpr ⟨by decide, by decide, by decide⟩

/-- The property `rd_fac` of an admitted spec stands beside the factor the operator goes by. -/
theorem create_says_redundancy_twice :
    specAdmitted (poolWith [("rd_fac", "0")]).spec = true ∧
      redundancyFactor (poolWith [("rd_fac", "0")]) = 2 ∧
      ¬ CreateSaysOnce (poolWith [("rd_fac", "0")]) { name := "s" } "daos" := by
  refine ⟨by decide, by decide, ?_⟩
  rw [createSaysOnce_iff]
  exact fun hsays => absurd hsays.names (by decide)

end DaosOperator.Pool
