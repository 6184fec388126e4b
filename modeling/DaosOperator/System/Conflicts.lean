import DaosOperator.System.Outline
import Mathlib.Data.List.Sort

/-!
# Drives that several nodes expose

Dual-port chassis show one physical drive to two nodes, and two engines must never
write it.  The check groups the serials of all nodes, device by device, and a reconcile
leaves out every node that ends up in a group of more than one.  The results below say
what a group holds, when such a group is a conflict between different nodes, and which
nodes a reconcile leaves out.
-/

namespace DaosOperator

open Discovery

/-! ## Conflicts -/

def Discovery.NodeFacts.Exposes (f : NodeFacts) (serial : String) : Prop :=
  serial ∈ f.dsn.map (·.2)

instance (f : NodeFacts) (serial : String) : Decidable (f.Exposes serial) :=
  inferInstanceAs (Decidable (_ ∈ _))

def Discovery.NodeFacts.serials (f : NodeFacts) : List String :=
  (f.dsn.map (·.2)).filter (· ≠ "")

/-- Different nodes expose the serial, and these are the nodes that do. -/
structure Conflict (facts : List NodeFacts) (serial : String) (nodes : List String) : Prop where
  named : serial ≠ ""
  shared : ∃ f ∈ facts, ∃ g ∈ facts, f.name ≠ g.name ∧ f.Exposes serial ∧ g.Exposes serial
  sorted : nodes.Pairwise (· < ·)
  exposed : ∀ n, n ∈ nodes ↔ ∃ f ∈ facts, f.name = n ∧ f.Exposes serial

def OneDevicePerSerial (facts : List NodeFacts) : Prop := ∀ f ∈ facts, f.serials.Nodup

theorem mem_serials {f : NodeFacts} {serial : String} :
    serial ∈ f.serials ↔ serial ≠ "" ∧ f.Exposes serial := by
  simp only [NodeFacts.serials, NodeFacts.Exposes, List.mem_filter, decide_eq_true_eq]
  exact and_comm

/-! ## Grouping -/

/-- The nodes of a serial, once per device. -/
def sightings (facts : List NodeFacts) (serial : String) : List String :=
  facts.flatMap fun f => List.replicate (f.serials.count serial) f.name

/-- The groups collected from what was seen so far. -/
def Grouped (nodesOf : String → List String) (seen : List (String × List String)) : Prop :=
  ∀ serial nodes, (serial, nodes) ∈ seen ↔ nodes = nodesOf serial ∧ nodes ≠ []

theorem grouped_addSeen {nodesOf : String → List String} {seen : List (String × List String)}
    (h : Grouped nodesOf seen) (serial node : String) :
    Grouped (fun s => nodesOf s ++ if s = serial then [node] else [])
      (addSeen seen serial node) := by
  intro s nodes
  have hseen : (seen.any fun e => e.1 = serial) = true ↔ nodesOf serial ≠ [] := by
    simp only [List.any_eq_true, decide_eq_true_eq]
    constructor
    · rintro ⟨⟨_, group⟩, hmem, rfl⟩
      obtain ⟨rfl, hne⟩ := (h _ _).mp hmem
      exact hne
    · intro hne
      exact ⟨(serial, nodesOf serial), (h _ _).mpr ⟨rfl, hne⟩, rfl⟩
  unfold addSeen
  split_ifs with hany
  · have hne := hseen.mp hany
    rw [List.mem_map]
    constructor
    · rintro ⟨⟨s', group⟩, hmem, heq⟩
      obtain ⟨rfl, hgroup⟩ := (h _ _).mp hmem
      by_cases hs : s' = serial
      · rw [if_pos hs] at heq
        cases heq
        simp [hs]
      · rw [if_neg hs] at heq
        cases heq
        simp [hs, hgroup]
    · rintro ⟨rfl, hgroup⟩
      by_cases hs : s = serial
      · exact ⟨(s, nodesOf s), (h _ _).mpr ⟨rfl, hs ▸ hne⟩, by simp [hs]⟩
      · exact ⟨(s, nodesOf s), (h _ _).mpr ⟨rfl, by simpa [hs] using hgroup⟩, by simp [hs]⟩
  · have hnil : nodesOf serial = [] := not_not.mp fun hne => hany (hseen.mpr hne)
    rw [List.mem_append, List.mem_singleton, h]
    by_cases hs : s = serial
    · subst hs
      simp [hnil]
      grind
    · simp [hs]

theorem grouped_congr {nodesOf nodesOf' : String → List String}
    {seen : List (String × List String)} (h : Grouped nodesOf seen)
    (heq : ∀ s, nodesOf s = nodesOf' s) : Grouped nodesOf' seen :=
  funext heq ▸ h

theorem grouped_serials (node : String) (serials : List String)
    {nodesOf : String → List String} {seen : List (String × List String)}
    (h : Grouped nodesOf seen) :
    Grouped (fun s => nodesOf s ++ List.replicate (serials.count s) node)
      (serials.foldl (fun seen s => addSeen seen s node) seen) := by
  induction serials generalizing nodesOf seen with
  | nil => simpa using h
  | cons s rest ih =>
      refine grouped_congr (ih (grouped_addSeen h s node)) fun s' => ?_
      by_cases hs : s' = s
      · subst hs
        simp [List.replicate_succ]
      · simp [hs, Ne.symm hs]

theorem grouped_facts (facts : List NodeFacts) {nodesOf : String → List String}
    {seen : List (String × List String)} (h : Grouped nodesOf seen) :
    Grouped (fun s => nodesOf s ++ sightings facts s)
      (facts.foldl (fun seen f =>
        (f.dsn.filter fun e => e.2 ≠ "").foldl (fun seen e => addSeen seen e.2 f.name) seen)
        seen) := by
  induction facts generalizing nodesOf seen with
  | nil => simpa [sightings] using h
  | cons f rest ih =>
      have hdevices : (f.dsn.filter fun e => e.2 ≠ "").foldl
          (fun seen e => addSeen seen e.2 f.name) seen =
          f.serials.foldl (fun seen s => addSeen seen s f.name) seen := by
        rw [NodeFacts.serials, List.filter_map, List.foldl_map]
        rfl
      rw [List.foldl_cons, hdevices]
      refine grouped_congr (ih (grouped_serials f.name f.serials h)) fun s => ?_
      simp [sightings]

/-- Exactly the serials seen more than once are reported, with their nodes in order. -/
theorem mem_driveConflicts {facts : List NodeFacts} {serial : String} {nodes : List String} :
    (serial, nodes) ∈ driveConflicts facts ↔
      1 < (sightings facts serial).length ∧ nodes = Text.sortStrings (sightings facts serial) := by
  have hnone : Grouped (fun _ => []) [] := by simp [Grouped]
  have hgroups := grouped_facts facts hnone
  simp only [List.nil_append] at hgroups
  simp only [driveConflicts, List.mem_map, List.mem_filter, decide_eq_true_eq]
  constructor
  · rintro ⟨⟨s, group⟩, ⟨hmem, hlen⟩, heq⟩
    obtain ⟨rfl, -⟩ := (hgroups _ _).mp hmem
    cases heq
    exact ⟨hlen, rfl⟩
  · rintro ⟨hlen, rfl⟩
    refine ⟨(serial, sightings facts serial), ⟨(hgroups _ _).mpr ⟨rfl, ?_⟩, hlen⟩, rfl⟩
    exact List.ne_nil_of_length_pos (by omega)

theorem mem_sightings {facts : List NodeFacts} {serial node : String} :
    node ∈ sightings facts serial ↔
      ∃ f ∈ facts, f.name = node ∧ serial ≠ "" ∧ f.Exposes serial := by
  simp only [sightings, List.mem_flatMap, List.mem_replicate, ← mem_serials, ne_eq,
    List.count_eq_zero, not_not]
  exact exists_congr fun f => and_congr_right fun _ => by rw [and_comm, eq_comm]

/-- Two nodes with one serial are in its group. -/
theorem one_lt_sightings {facts : List NodeFacts} {serial : String} {f g : NodeFacts}
    (hf : f ∈ facts) (hg : g ∈ facts) (hne : f.name ≠ g.name) (hserial : serial ≠ "")
    (hfs : f.Exposes serial) (hgs : g.Exposes serial) : 1 < (sightings facts serial).length := by
  have hfn := mem_sightings.mpr ⟨f, hf, rfl, hserial, hfs⟩
  have hgn := mem_sightings.mpr ⟨g, hg, rfl, hserial, hgs⟩
  match hnodes : sightings facts serial with
  | [] => simp [hnodes] at hfn
  | [n] =>
      rw [hnodes, List.mem_singleton] at hfn hgn
      exact absurd (hfn.trans hgn.symm) hne
  | _ :: _ :: _ => simp

/-! ## The nodes a reconcile leaves out -/

theorem mem_keys_mapSet {m : List (String × String)} {k v x : String} :
    x ∈ (mapSet m k v).map (·.1) ↔ x ∈ m.map (·.1) ∨ x = k := by
  by_cases hx : x = k <;> simp [mapSet, hx]

theorem System.mem_keys_conflictedNodes {conflicts : List (String × List String)} {node : String} :
    node ∈ (System.conflictedNodes conflicts).map (·.1) ↔ ∃ c ∈ conflicts, node ∈ c.2 := by
  have hgroup (serial : String) (nodes : List String) (m : List (String × String)) :
      node ∈ (nodes.foldl (fun m n => mapSet m n serial) m).map (·.1) ↔
        node ∈ m.map (·.1) ∨ node ∈ nodes := by
    induction nodes generalizing m with
    | nil => simp
    | cons n rest ih => rw [List.foldl_cons, ih, mem_keys_mapSet, List.mem_cons, or_assoc]
  have hgroups (m : List (String × String)) :
      node ∈ (conflicts.foldl (fun m c => c.2.foldl (fun m n => mapSet m n c.1) m) m).map (·.1) ↔
        node ∈ m.map (·.1) ∨ ∃ c ∈ conflicts, node ∈ c.2 := by
    induction conflicts generalizing m with
    | nil => simp
    | cons c rest ih => rw [List.foldl_cons, ih, hgroup, List.exists_mem_cons_iff, or_assoc]
  simpa [System.conflictedNodes] using hgroups []

namespace System

/-- The nodes a reconcile over these facts treats as sharing a drive. -/
def sharing (facts : List NodeFacts) : List (String × String) :=
  conflictedNodes (driveConflicts facts)

/-- The shared drives keep the node from its configuration or from the
management-service role. -/
def Excluded (facts : List NodeFacts) (f : NodeFacts) : Prop :=
  f.name ∉ (healthyAddrs facts (sharing facts)).map (·.1) ∨
    ∃ sys addrs, renderNode sys addrs (sharing facts) f ≠ renderNode sys addrs [] f

theorem mem_keys_sharing {facts : List NodeFacts} {node : String} :
    node ∈ (sharing facts).map (·.1) ↔
      ∃ serial, 1 < (sightings facts serial).length ∧ node ∈ sightings facts serial := by
  rw [sharing, mem_keys_conflictedNodes]
  constructor
  · rintro ⟨⟨serial, nodes⟩, hmem, hnode⟩
    obtain ⟨hlen, rfl⟩ := mem_driveConflicts.mp hmem
    exact ⟨serial, hlen, Text.mem_sortStrings.mp hnode⟩
  · rintro ⟨serial, hlen, hnode⟩
    exact ⟨_, mem_driveConflicts.mpr ⟨hlen, rfl⟩, Text.mem_sortStrings.mpr hnode⟩

theorem lookupKey_sharing_eq_none {facts : List NodeFacts} {node : String}
    (h : node ∉ (sharing facts).map (·.1)) : lookupKey (sharing facts) node = none := by
  rw [← Option.not_isSome_iff_eq_none, isSome_lookupKey]
  exact h

/-- Only a node of the group of a repeated serial is excluded. -/
theorem mem_keys_sharing_of_excluded {facts : List NodeFacts} {f : NodeFacts} (hf : f ∈ facts)
    (h : Excluded facts f) : f.name ∈ (sharing facts).map (·.1) := by
  by_contra hnot
  have hnone := lookupKey_sharing_eq_none hnot
  rcases h with hrole | ⟨sys, addrs, hconfig⟩
  · refine hrole (List.mem_map.mpr ⟨(f.name, f.controlAddr), ?_, rfl⟩)
    exact List.mem_map_of_mem (List.mem_filter.mpr ⟨hf, by simp [hnone]⟩)
  · refine hconfig ?_
    simp only [renderNode, hnone]
    rfl

end System

/-! ## Only different nodes conflict -/

/-- With distinct names a node is in a group at most once, unless two of its devices
carry the serial. -/
theorem nodup_sightings {facts : List NodeFacts} (hnames : (facts.map (·.name)).Nodup)
    (hone : OneDevicePerSerial facts) (serial : String) : (sightings facts serial).Nodup := by
  rw [sightings, List.nodup_flatMap]
  constructor
  · intro f hf
    rw [List.nodup_replicate]
    exact List.nodup_iff_count_le_one.mp (hone f hf) serial
  · refine (List.pairwise_map.mp hnames).imp fun hne => ?_
    intro n hn hn'
    exact hne ((List.eq_of_mem_replicate hn).symm.trans (List.eq_of_mem_replicate hn'))

/-- A group without repetition of more than one node is a conflict, and only that. -/
theorem conflict_iff_of_nodup {facts : List NodeFacts} {serial : String} {nodes : List String}
    (hnodup : (sightings facts serial).Nodup) :
    Conflict facts serial nodes ↔
      1 < (sightings facts serial).length ∧ nodes = Text.sortStrings (sightings facts serial) := by
  have hsorted : (Text.sortStrings (sightings facts serial)).Pairwise (· < ·) :=
    ((Text.pairwise_sortStrings _).and ((Text.perm_sortStrings _).nodup_iff.mpr hnodup)).imp
      fun h => lt_of_le_of_ne h.1 h.2
  constructor
  · rintro ⟨hserial, ⟨f, hf, g, hg, hne, hfs, hgs⟩, hnodes, hexact⟩
    refine ⟨one_lt_sightings hf hg hne hserial hfs hgs, ?_⟩
    have hperm : nodes.Perm (Text.sortStrings (sightings facts serial)) := by
      rw [List.perm_ext_iff_of_nodup (hnodes.imp ne_of_lt) (hsorted.imp ne_of_lt)]
      intro n
      rw [hexact, Text.mem_sortStrings, mem_sightings]
      simp [hserial]
    exact hperm.eq_of_pairwise' (hnodes.imp le_of_lt) (hsorted.imp le_of_lt)
  · rintro ⟨hlen, rfl⟩
    obtain ⟨n, m, rest, hnodes⟩ : ∃ n m rest, sightings facts serial = n :: m :: rest := by
      match hs : sightings facts serial, hlen with
      | n :: m :: rest, _ => exact ⟨n, m, rest, rfl⟩
    obtain ⟨f, hf, rfl, hserial, hfs⟩ := mem_sightings.mp (hnodes ▸ List.mem_cons_self)
    obtain ⟨g, hg, rfl, -, hgs⟩ :=
      mem_sightings.mp (hnodes ▸ List.mem_cons_of_mem _ List.mem_cons_self)
    have hne : f.name ≠ g.name := by
      rw [hnodes] at hnodup
      exact fun h => (List.nodup_cons.mp hnodup).1 (h ▸ List.mem_cons_self)
    refine ⟨hserial, ⟨f, hf, g, hg, hne, hfs, hgs⟩, hsorted, fun n => ?_⟩
    rw [Text.mem_sortStrings, mem_sightings]
    simp [hserial]

/-- Every reported serial is a conflict between different nodes and every such conflict is
reported; a node is excluded only when another one shows a drive of it. -/
def OnlyRealConflicts (facts : List NodeFacts) : Prop :=
  (∀ serial nodes, (serial, nodes) ∈ driveConflicts facts ↔ Conflict facts serial nodes) ∧
  ∀ f ∈ facts, System.Excluded facts f →
    ∃ g ∈ facts, g.name ≠ f.name ∧ ∃ serial, serial ≠ "" ∧ f.Exposes serial ∧ g.Exposes serial

/-- The check is exact for nodes none of which shows a serial on two devices, and for no
others: such a node conflicts with itself. -/
theorem onlyRealConflicts_iff {facts : List NodeFacts} (hnames : (facts.map (·.name)).Nodup) :
    OnlyRealConflicts facts ↔ OneDevicePerSerial facts := by
  constructor
  · rintro ⟨hreported, -⟩ f hf
    rw [List.nodup_iff_count_le_one]
    intro serial
    by_contra hmore
    have hsub : (List.replicate (f.serials.count serial) f.name).Sublist
        (sightings facts serial) := by
      rw [sightings, List.flatMap_def]
      exact List.sublist_flatten_of_mem (List.mem_map.mpr ⟨f, hf, rfl⟩)
    have hlen : 1 < (sightings facts serial).length := by
      have := hsub.length_le
      rw [List.length_replicate] at this
      omega
    -- the group names the node twice, so it is not strictly sorted
    have hsorted := ((hreported _ _).mp (mem_driveConflicts.mpr ⟨hlen, rfl⟩)).sorted
    have hnodup : (sightings facts serial).Nodup :=
      (Text.perm_sortStrings _).nodup_iff.mp (hsorted.imp ne_of_lt)
    exact hmore (List.nodup_replicate.mp (hsub.nodup hnodup))
  · intro hone
    have hnodup := nodup_sightings hnames hone
    refine ⟨fun serial nodes => ?_, fun f hf hexcluded => ?_⟩
    · rw [mem_driveConflicts, conflict_iff_of_nodup (hnodup serial)]
    · obtain ⟨serial, hlen, hmem⟩ :=
        System.mem_keys_sharing.mp (System.mem_keys_sharing_of_excluded hf hexcluded)
      have hconflict := (conflict_iff_of_nodup (hnodup serial)).mpr ⟨hlen, rfl⟩
      obtain ⟨f', hf', hname, hserial, hexposed⟩ := mem_sightings.mp hmem
      obtain rfl : f' = f := List.inj_on_of_nodup_map hnames hf' hf hname
      obtain ⟨a, ha, b, hb, hne, has, hbs⟩ := hconflict.shared
      by_cases hab : a.name = f'.name
      · exact ⟨b, hb, fun h => hne (hab.trans h.symm), serial, hserial, hexposed, hbs⟩
      · exact ⟨a, ha, hab, serial, hserial, hexposed, has⟩

def factsOf (name : String) (dsn : List (String × String)) : NodeFacts where
  name := name
  controlAddr := name
  fabricIface := "eth0"
  ann := []
  bdevs := dsn.map (·.1)
  dsn := dsn
  numaNode := none

theorem onlyRealConflicts_two_nodes :
    OnlyRealConflicts [factsOf "a" [("0000:01:00.0", "S1")], factsOf "b" [("0000:01:00.0", "S2")]] ↔
      OneDevicePerSerial
        [factsOf "a" [("0000:01:00.0", "S1")], factsOf "b" [("0000:01:00.0", "S2")]] :=
  onlyRealConflicts_iff (by decide)

/-- Two functions of one drive exclude the only node there is. -/
theorem excluded_without_conflict :
    System.Excluded [factsOf "a" [("0000:01:00.0", "S1"), ("0000:01:00.1", "S1")]]
        (factsOf "a" [("0000:01:00.0", "S1"), ("0000:01:00.1", "S1")]) ∧
      ¬OnlyRealConflicts [factsOf "a" [("0000:01:00.0", "S1"), ("0000:01:00.1", "S1")]] := by
  have hexcluded : System.Excluded [factsOf "a" [("0000:01:00.0", "S1"), ("0000:01:00.1", "S1")]]
      (factsOf "a" [("0000:01:00.0", "S1"), ("0000:01:00.1", "S1")]) := .inl (by decide)
  refine ⟨hexcluded, ?_⟩
  rintro ⟨-, hother⟩
  obtain ⟨g, hg, hne, -⟩ := hother _ List.mem_cons_self hexcluded
  exact hne (congrArg NodeFacts.name (List.mem_singleton.mp hg))

end DaosOperator
