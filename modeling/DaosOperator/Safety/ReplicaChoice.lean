import DaosOperator.Safety.SharedDrives
import Mathlib.Data.List.Induction
import Mathlib.Data.List.Sort

/-!
# The choice of the management-service replicas

Two loops share the list of chosen nodes: the recorded nodes come first, then the selected nodes
by name.  Together they run over one list of candidates and keep the first occurrences of the
eligible ones, as many as are wanted.
-/

namespace DaosOperator

/-! ## First occurrences -/

section Firsts

variable {α : Type} [DecidableEq α]

theorem eraseDups_concat (l : List α) (x : α) :
    (l ++ [x]).eraseDups = if x ∈ l then l.eraseDups else l.eraseDups ++ [x] := by
  rw [List.eraseDups_append]
  by_cases hx : x ∈ l
  · simp [List.removeAll, hx]
  · simp [List.removeAll, hx, List.eraseDups_cons]

theorem nodup_eraseDups (l : List α) : l.eraseDups.Nodup := by
  induction l using List.reverseRecOn with
  | nil => simp
  | append_singleton l x ih =>
      rw [eraseDups_concat]
      split
      · exact ih
      · rename_i hx
        rw [List.nodup_append_comm]
        simpa [hx] using ih

theorem eraseDups_of_nodup {l : List α} (h : l.Nodup) : l.eraseDups = l := by
  induction l using List.reverseRecOn with
  | nil => rfl
  | append_singleton l x ih =>
      obtain ⟨hl, _, hdisjoint⟩ := List.nodup_append.1 h
      have hx : x ∉ l := fun hmem => hdisjoint x hmem x (by simp) rfl
      rw [eraseDups_concat, if_neg hx, ih hl]

theorem mem_removeAll {l r : List α} {x : α} : x ∈ l.removeAll r ↔ x ∈ l ∧ x ∉ r := by
  simp [List.removeAll]

/-- The recorded elements and the remaining ones are all of them. -/
theorem firsts_perm {l r : List α} (hl : l.Nodup) (hr : ∀ x ∈ r, x ∈ l) :
    (r.eraseDups ++ l.removeAll r).Perm l := by
  have hrest : (l.removeAll r).Nodup := hl.filter _
  refine (List.perm_ext_iff_of_nodup ?_ hl).2 fun x => ?_
  · refine List.nodup_append.2 ⟨nodup_eraseDups r, hrest, ?_⟩
    rintro x hx y hy rfl
    exact (mem_removeAll.1 hy).2 (List.mem_eraseDups.1 hx)
  · rw [List.mem_append, List.mem_eraseDups, mem_removeAll]
    constructor
    · rintro (hx | hx)
      · exact hr x hx
      · exact hx.1
    · intro hx
      by_cases hrx : x ∈ r
      · exact Or.inl hrx
      · exact Or.inr ⟨hx, hrx⟩

theorem lt_of_mem_take {α : Type} [LT α] {l : List α} {k : Nat} (h : l.Pairwise (· < ·)) {m n : α}
    (hm : m ∈ l.take k) (hn : n ∈ l) (hleft : n ∉ l.take k) : m < n := by
  rw [← List.take_append_drop k l] at h hn
  rcases List.mem_append.1 hn with hn | hn
  · exact absurd hn hleft
  · exact (List.pairwise_append.1 h).2.2 m hm n hn

end Firsts

namespace System

/-! ## The two loops -/

/-- Candidates that have an address, without repetition and as many as wanted. -/
theorem names_takeReplica (want : Nat) (addrOf : List (String × String)) (nodes : List String) :
    (nodes.foldl (takeReplica want addrOf) []).map (·.1) =
      (nodes.filter fun n => (lookupKey addrOf n).isSome).eraseDups.take want := by
  induction nodes using List.reverseRecOn with
  | nil => simp
  | append_singleton nodes node ih =>
      rw [List.foldl_append, List.foldl_cons, List.foldl_nil, List.filter_append]
      generalize hchosen : nodes.foldl (takeReplica want addrOf) [] = chosen at ih ⊢
      generalize hknown : (nodes.filter fun n => (lookupKey addrOf n).isSome) = known at ih ⊢
      unfold takeReplica
      cases hlookup : lookupKey addrOf node with
      | none => simpa [hlookup] using ih
      | some addr =>
          have hfilter : ([node].filter fun n => (lookupKey addrOf n).isSome) = [node] := by
            simp [hlookup]
          have hlength : chosen.length = min want known.eraseDups.length := by
            simpa using congrArg List.length ih
          have hany : (chosen.any fun c => c.1 = node) = true ↔
              node ∈ known.eraseDups.take want := by
            rw [← ih]
            simp
          rw [hfilter, eraseDups_concat]
          dsimp only
          by_cases hmem : node ∈ known
          · rw [if_pos hmem, ← ih]
            have hskip : ((chosen.any fun c => c.1 = node) || decide (want ≤ chosen.length)) =
                true := by
              by_cases hfull : want ≤ known.eraseDups.length
              · simp [hlength, hfull]
              · rw [List.take_of_length_le (by omega)] at hany
                simp [hany.2 (List.mem_eraseDups.2 hmem)]
            rw [if_pos hskip]
          · rw [if_neg hmem]
            have hnew : (chosen.any fun c => c.1 = node) = false := by
              rw [Bool.eq_false_iff, Ne, hany]
              exact fun h => hmem (List.mem_eraseDups.1 (List.mem_of_mem_take h))
            by_cases hfull : want ≤ known.eraseDups.length
            · rw [if_pos (by simp [hlength, hfull]), ih, List.take_append_of_le_length hfull]
            · rw [if_neg (by simp [hnew, hlength]; omega), List.map_append, ih,
                List.take_of_length_le (by omega), List.take_of_length_le (by simp; omega)]
              rfl

/-- Each replica has the address that was looked up for it. -/
theorem lookupKey_of_mem_takeReplica {want : Nat} {addrOf : List (String × String)}
    {nodes : List String} {c : String × String}
    (h : c ∈ nodes.foldl (takeReplica want addrOf) []) : lookupKey addrOf c.1 = some c.2 := by
  induction nodes using List.reverseRecOn with
  | nil => cases h
  | append_singleton nodes node ih =>
      rw [List.foldl_append, List.foldl_cons, List.foldl_nil] at h
      unfold takeReplica at h
      cases hlookup : lookupKey addrOf node with
      | none =>
          rw [hlookup] at h
          exact ih h
      | some addr =>
          simp only [hlookup] at h
          split_ifs at h
          · exact ih h
          · rcases List.mem_append.1 h with h | h
            · exact ih h
            · rw [List.mem_singleton.1 h]
              exact hlookup

/-! ## What is chosen -/

open Discovery (NodeFacts)

/-- The facts in the order of the nodes' names, as a reconcile lists them. -/
def byName (facts : List NodeFacts) : List NodeFacts :=
  facts.insertionSort fun a b => a.name ≤ b.name

def eligible (facts : List NodeFacts) (conflicted : List (String × String)) : List String :=
  (facts.map (·.name)).filter fun n => n ∉ conflicted.map (·.1)

/-- The replicas are chosen well: recorded nodes first, then the others by name. -/
structure WellChosen (want : Nat) (facts : List NodeFacts) (conflicted : List (String × String))
    (recorded : List String) (chosen : List (String × String)) : Prop where
  nodup : (chosen.map (·.1)).Nodup
  spared : ∀ c ∈ chosen, c.1 ∉ conflicted.map (·.1) ∧
    ∃ f ∈ facts, f.name = c.1 ∧ f.controlAddr = c.2
  length : chosen.length = min want (eligible facts conflicted).length
  ordered : ∃ rest, chosen.map (·.1) =
      (recorded.filter fun n => n ∈ eligible facts conflicted).eraseDups.take want ++ rest ∧
    rest.Pairwise (· < ·) ∧
    ∀ n ∈ eligible facts conflicted, n ∉ chosen.map (·.1) → ∀ m ∈ rest, m < n

theorem names_healthyAddrs (facts : List NodeFacts) (conflicted : List (String × String)) :
    (healthyAddrs facts conflicted).map (·.1) = eligible facts conflicted := by
  unfold healthyAddrs eligible
  rw [List.map_map, List.filter_map]
  congr 1
  refine List.filter_congr fun f _ => ?_
  simp only [Function.comp_apply, ← isSome_lookupKey, ← Option.not_isSome]
  cases (lookupKey conflicted f.name).isSome <;> rfl

theorem names_byName_perm (facts : List NodeFacts) :
    ((byName facts).map (·.name)).Perm (facts.map (·.name)) :=
  (List.perm_insertionSort _ facts).map _

theorem eligible_byName_perm (facts : List NodeFacts) (conflicted : List (String × String)) :
    (eligible (byName facts) conflicted).Perm (eligible facts conflicted) :=
  (names_byName_perm facts).filter _

theorem sorted_byName {facts : List NodeFacts} (hnames : (facts.map (·.name)).Nodup) :
    ((byName facts).map (·.name)).Pairwise (· < ·) := by
  have hsorted : (byName facts).map (·.name) = (facts.map (·.name)).insertionSort (· ≤ ·) :=
    List.map_insertionSort _ _ _ _ fun _ _ _ _ => Iff.rfl
  have hnodup : ((byName facts).map (·.name)).Nodup := (names_byName_perm facts).nodup_iff.2 hnames
  rw [hsorted] at hnodup ⊢
  have hle := List.pairwise_insertionSort (· ≤ ·) (facts.map fun f => f.name)
  exact (hle.and hnodup).imp fun h => lt_of_le_of_ne h.1 h.2

section Chosen

variable (want : Nat) {facts : List NodeFacts} (conflicted : List (String × String))
  (recorded : List String)

theorem names_chooseReplicas (hnames : (facts.map (·.name)).Nodup) :
    (chooseReplicas want (healthyAddrs facts conflicted) recorded facts).map (·.1) =
      (recorded.filter fun n => n ∈ eligible facts conflicted).eraseDups.take want ++
        ((eligible facts conflicted).removeAll
          (recorded.filter fun n => n ∈ eligible facts conflicted)).take
          (want - (recorded.filter fun n => n ∈ eligible facts conflicted).eraseDups.length) := by
  have hknown : (fun n => (lookupKey (healthyAddrs facts conflicted) n).isSome) =
      fun n => decide (n ∈ eligible facts conflicted) := by
    funext n
    rw [Bool.eq_iff_iff, decide_eq_true_iff, isSome_lookupKey, names_healthyAddrs]
  have hall : ((facts.map (·.name)).filter fun n => n ∈ eligible facts conflicted) =
      eligible facts conflicted := by
    refine List.filter_congr fun n hn => ?_
    simp only [eligible, List.mem_filter, hn, true_and, Bool.decide_eq_true]
  have hnodup : (eligible facts conflicted).Nodup := hnames.filter _
  unfold chooseReplicas
  rw [names_takeReplica, hknown, List.filter_append, hall, List.eraseDups_append,
    eraseDups_of_nodup (l := (eligible facts conflicted).removeAll _) (hnodup.filter _),
    List.take_append]

theorem wellChosen_chooseReplicas (hnames : (facts.map (·.name)).Nodup) :
    WellChosen want facts conflicted recorded
      (chooseReplicas want (healthyAddrs (byName facts) conflicted) recorded (byName facts)) := by
  have hdistinct := (names_byName_perm facts).nodup_iff.2 hnames
  have hperm := eligible_byName_perm facts conflicted
  have hmem (n : String) : n ∈ eligible (byName facts) conflicted ↔
      n ∈ eligible facts conflicted := hperm.mem_iff
  have hsorted : (eligible (byName facts) conflicted).Pairwise (· < ·) :=
    (sorted_byName hnames).filter _
  have hnodup : (eligible (byName facts) conflicted).Nodup := hdistinct.filter _
  have hchosen := names_chooseReplicas want conflicted recorded hdistinct
  simp only [hmem] at hchosen
  have hkept : ∀ x ∈ recorded.filter fun n => n ∈ eligible facts conflicted,
      x ∈ eligible (byName facts) conflicted := fun x hx => by
    rw [hmem]
    simpa using (List.mem_filter.1 hx).2
  generalize hkeptEq : (recorded.filter fun n => n ∈ eligible facts conflicted) = kept at *
  have hfirsts := firsts_perm hnodup hkept
  have hnamesOf := hchosen
  rw [← List.take_append] at hnamesOf
  refine ⟨?_, ?_, ?_, ?_⟩
  · rw [hnamesOf]
    exact (hfirsts.nodup_iff.2 hnodup).sublist (List.take_sublist _ _)
  · intro c hc
    have hlookup := mem_of_lookupKey (lookupKey_of_mem_takeReplica hc)
    obtain ⟨f, hf, hfc⟩ := List.mem_map.1 hlookup
    obtain ⟨hlisted, hspared⟩ := List.mem_filter.1 hf
    obtain ⟨hname, haddr⟩ := Prod.mk.inj hfc
    refine ⟨?_, f, (List.mem_insertionSort _).1 hlisted, hname, haddr⟩
    rw [← hname, ← isSome_lookupKey, Option.not_isSome_iff_eq_none]
    simpa using hspared
  · have hlength := congrArg List.length hnamesOf
    rwa [List.length_map, List.length_take, hfirsts.length_eq, hperm.length_eq] at hlength
  · rw [hkeptEq]
    refine ⟨_, hchosen, ?_, ?_⟩
    · exact (hsorted.filter _).sublist (List.take_sublist _ _)
    · intro n hn hnot m hm
      rw [hchosen, List.mem_append, not_or] at hnot
      -- there is a rest, so that every recorded node was taken
      have hroom : kept.eraseDups.length < want := by
        by_contra hfull
        rw [Nat.sub_eq_zero_of_le (by omega), List.take_zero] at hm
        cases hm
      rw [List.take_of_length_le (by omega), List.mem_eraseDups] at hnot
      have hleft : n ∈ (eligible (byName facts) conflicted).removeAll kept :=
        mem_removeAll.2 ⟨(hmem n).2 hn, hnot.1⟩
      exact lt_of_mem_take (hsorted.filter _) hm hleft hnot.2

end Chosen

theorem msWant_eq {sys : DaosSystem} (h : 1 ≤ sys.spec.msReplicas) :
    msWant sys = sys.spec.msReplicas.toNat := if_neg (by omega)

/-- The choice is well formed, whatever is recorded and whichever nodes are in conflict. -/
theorem replicas_well_chosen (sys : DaosSystem) (facts : List NodeFacts)
    (conflicted : List (String × String)) (hnames : (facts.map (·.name)).Nodup)
    (hwant : 1 ≤ sys.spec.msReplicas) :
    WellChosen sys.spec.msReplicas.toNat facts conflicted sys.status.msReplicaNodes
      (chooseReplicas (msWant sys) (healthyAddrs (byName facts) conflicted)
        sys.status.msReplicaNodes (byName facts)) := by
  rw [msWant_eq hwant]
  exact wellChosen_chooseReplicas _ _ _ hnames

def plainFacts (name addr : String) : NodeFacts := ⟨name, addr, "", [], [], [], none⟩

/-- Two replicas of three nodes: the record names one of them twice and an unknown one, and the
first node by name is in conflict. -/
theorem replicas_well_chosen_recorded :
    let sys : DaosSystem :=
      { name := "s", spec := { msReplicas := 2 }, status := { msReplicaNodes := ["c", "x", "c"] } }
    let facts := [plainFacts "c" "10.0.0.3", plainFacts "a" "10.0.0.1", plainFacts "b" "10.0.0.2"]
    chooseReplicas (msWant sys) (healthyAddrs (byName facts) [("a", "S1")])
        sys.status.msReplicaNodes (byName facts) = [("c", "10.0.0.3"), ("b", "10.0.0.2")] ∧
      WellChosen 2 facts [("a", "S1")] sys.status.msReplicaNodes
        (chooseReplicas (msWant sys) (healthyAddrs (byName facts) [("a", "S1")])
          sys.status.msReplicaNodes (byName facts)) :=
  ⟨by decide +kernel, replicas_well_chosen
    { name := "s", spec := { msReplicas := 2 }, status := { msReplicaNodes := ["c", "x", "c"] } }
    [plainFacts "c" "10.0.0.3", plainFacts "a" "10.0.0.1", plainFacts "b" "10.0.0.2"]
    [("a", "S1")] (by decide) (by decide)⟩

end System

end DaosOperator
