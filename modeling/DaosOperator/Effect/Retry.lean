import Mathlib.Data.List.Basic

/-!
# Tries within limits

Something that is down is looked at from time to time and may be tried again.  A policy
waits before the first try, spaces the tries and stops after a number of them; what it
knows is one track, opened by the first look that finds a candidate.  A run of looks that
moves the track within the policy is polite: its tries keep all three limits.
-/

namespace Effect.Retry

/-- The limits of a policy. -/
structure Policy where
  /-- From the first candidate to the first try. -/
  grace : Nat
  /-- Between two tries. -/
  interval : Nat
  limit : Nat

/-- What is remembered about something that is down. -/
structure Track where
  since : Nat
  last : Nat
  tries : Nat

/-- One look at it while it is down. -/
structure Look where
  now : Nat
  candidate : Bool
  tried : Bool

/-- The track a look works with. -/
def Look.opens (v : Look) : Option Track → Option Track
  | some t => some t
  | none => if v.candidate then some ⟨v.now, 0, 0⟩ else none

namespace Policy

/-- The track allows a try now. -/
structure Allows (P : Policy) (v : Look) (t : Track) : Prop where
  candidate : v.candidate = true
  fewer : t.tries < P.limit
  waited : t.since + P.grace ≤ v.now
  spaced : 0 < t.tries → t.last + P.interval ≤ v.now

/-- How a look leaves the track it works with. -/
structure Leaves (P : Policy) (v : Look) (t t' : Track) : Prop where
  since : t'.since = t.since
  tries : t'.tries = if v.tried then t.tries + 1 else t.tries
  last : t'.last = v.now ∨ v.tried = false ∧ t'.last = t.last
  allowed : v.tried = true → P.Allows v t

/-- One look moves a track on. -/
def Moves (P : Policy) (v : Look) (t t' : Option Track) : Prop :=
  match v.opens t with
  | none => v.tried = false ∧ t' = none
  | some a => ∃ b, t' = some b ∧ P.Leaves v a b

/-- A run of looks, from no track. -/
inductive Run (P : Policy) : List Look → Option Track → Prop where
  | start : Run P [] none
  | look {vs : List Look} {v : Look} {t t' : Option Track} (h : Run P vs t)
      (hmoves : P.Moves v t t') : Run P (vs ++ [v]) t'

/-- The tries of a run keep the limits. -/
structure Polite (P : Policy) (vs : List Look) : Prop where
  bounded : (vs.filter (·.tried)).length ≤ P.limit
  graced : ∀ v ∈ vs, v.tried = true →
    ∃ first, vs.find? (·.candidate) = some first ∧ first.now + P.grace ≤ v.now
  spaced : (vs.filter (·.tried)).Pairwise fun earlier later =>
    earlier.now + P.interval ≤ later.now

/-- What the track of a run says about the run. -/
structure Tells (P : Policy) (vs : List Look) (t : Track) : Prop where
  since : ∃ first, vs.find? (·.candidate) = some first ∧ first.now = t.since
  tries : (vs.filter (·.tried)).length = t.tries
  limit : t.tries ≤ P.limit
  last : ∀ v ∈ vs, v.tried = true → v.now ≤ t.last

/-- Before the first candidate there is no track, and no try. -/
def Quiet (vs : List Look) : Prop := ∀ v ∈ vs, v.candidate = false ∧ v.tried = false

variable {P : Policy} {vs : List Look} {v : Look}

theorem Quiet.find_eq_none (h : Quiet vs) : vs.find? (·.candidate) = none := by
  rw [List.find?_eq_none]
  intro v hv
  simp [(h v hv).1]

theorem Quiet.filter_eq_nil (h : Quiet vs) : vs.filter (·.tried) = [] := by
  rw [List.filter_eq_nil_iff]
  intro v hv
  simp [(h v hv).2]

theorem Quiet.polite (h : Quiet vs) : P.Polite vs where
  bounded := by simp [h.filter_eq_nil]
  graced := fun v hv htried => by simp [(h v hv).2] at htried
  spaced := by simp [h.filter_eq_nil]

/-- The first candidate opens a track that tells about the looks before it. -/
theorem Tells.opened (h : Quiet vs) (hv : v.candidate = true) :
    ∃ first, (vs ++ [v]).find? (·.candidate) = some first ∧ first.now = v.now :=
  ⟨v, by simp [List.find?_append, h.find_eq_none, hv], rfl⟩

/-- A look that leaves a track keeps the run polite, and the new track tells about it. -/
theorem tells_look {a b : Track} (hpolite : P.Polite vs)
    (hsince : ∃ first, (vs ++ [v]).find? (·.candidate) = some first ∧ first.now = a.since)
    (htries : (vs.filter (·.tried)).length = a.tries) (hlimit : a.tries ≤ P.limit)
    (hlast : ∀ u ∈ vs, u.tried = true → u.now ≤ a.last) (htime : ∀ u ∈ vs, u.now ≤ v.now)
    (hleaves : P.Leaves v a b)
    (hfirst : ∀ first, vs.find? (·.candidate) = some first →
      (vs ++ [v]).find? (·.candidate) = some first) :
    P.Tells (vs ++ [v]) b ∧ P.Polite (vs ++ [v]) := by
  obtain ⟨first, hfind, hnow⟩ := hsince
  have hold : ∀ u ∈ vs, u.tried = true →
      ∃ first, (vs ++ [v]).find? (·.candidate) = some first ∧ first.now + P.grace ≤ u.now := by
    intro u hu htried
    obtain ⟨f, hf, hle⟩ := hpolite.graced u hu htried
    exact ⟨f, hfirst f hf, hle⟩
  have hseen : ∀ u ∈ vs, u.tried = true → u.now ≤ b.last := by
    intro u hu htried
    rcases hleaves.last with hnow | ⟨-, hsame⟩
    · exact hnow ▸ htime u hu
    · exact hsame ▸ hlast u hu htried
  have hsince' : ∃ first, (vs ++ [v]).find? (·.candidate) = some first ∧ first.now = b.since :=
    ⟨first, hfind, hnow.trans hleaves.since.symm⟩
  have hfilter : (vs ++ [v]).filter (·.tried) =
      vs.filter (·.tried) ++ if v.tried then [v] else [] := by
    cases htried : v.tried <;> simp [htried]
  by_cases htried : v.tried = true
  · have hallows := hleaves.allowed htried
    have hcount : b.tries = a.tries + 1 := by rw [hleaves.tries, if_pos htried]
    rw [if_pos htried] at hfilter
    constructor
    · refine ⟨hsince', ?_, ?_, ?_⟩
      · rw [hfilter, List.length_append, htries, hcount]
        rfl
      · rw [hcount]
        exact hallows.fewer
      · intro u hu hutried
        rcases List.mem_append.mp hu with hu | hu
        · exact hseen u hu hutried
        · obtain rfl := List.mem_singleton.mp hu
          rcases hleaves.last with hlast' | ⟨hnot, -⟩
          · exact Nat.le_of_eq hlast'.symm
          · rw [htried] at hnot
            cases hnot
    · refine ⟨?_, ?_, ?_⟩
      · rw [hfilter, List.length_append, htries]
        exact hallows.fewer
      · intro u hu hutried
        rcases List.mem_append.mp hu with hu | hu
        · exact hold u hu hutried
        · obtain rfl := List.mem_singleton.mp hu
          exact ⟨first, hfind, hnow ▸ hallows.waited⟩
      · rw [hfilter, List.pairwise_append]
        refine ⟨hpolite.spaced, List.pairwise_singleton _ _, ?_⟩
        intro u hu w hw
        obtain rfl := List.mem_singleton.mp hw
        have hmem := List.mem_filter.mp hu
        -- an earlier try, so the track counts one and has its time
        have hpos : 0 < a.tries := htries ▸ List.length_pos_of_mem hu
        have hle := hlast u hmem.1 hmem.2
        have hspaced := hallows.spaced hpos
        omega
  · have hcount : b.tries = a.tries := by rw [hleaves.tries, if_neg htried]
    rw [if_neg htried, List.append_nil] at hfilter
    have hnew : ∀ u ∈ vs ++ [v], u.tried = true → u ∈ vs := by
      intro u hu hutried
      rcases List.mem_append.mp hu with hu | hu
      · exact hu
      · obtain rfl := List.mem_singleton.mp hu
        exact absurd hutried htried
    constructor
    · exact ⟨hsince', by rw [hfilter, htries, hcount], hcount ▸ hlimit,
        fun u hu hutried => hseen u (hnew u hu hutried) hutried⟩
    · exact ⟨hfilter ▸ hpolite.bounded, fun u hu hutried => hold u (hnew u hu hutried) hutried,
        hfilter ▸ hpolite.spaced⟩

/-- A run at times that do not decrease is polite. -/
theorem Run.polite {t : Option Track} (h : P.Run vs t)
    (htimes : (vs.map (·.now)).Pairwise (· ≤ ·)) : P.Polite vs := by
  have hgeneral : (∀ a, t = some a → P.Tells vs a) ∧ (t = none → Quiet vs) ∧ P.Polite vs := by
    induction h with
    | start => exact ⟨nofun, fun _ => nofun, Quiet.polite nofun⟩
    | @look vs v t t' _ hmoves ih =>
        rw [List.map_append, List.pairwise_append] at htimes
        obtain ⟨htells, hquiet, hpolite⟩ := ih htimes.1
        have htime : ∀ u ∈ vs, u.now ≤ v.now := fun u hu =>
          htimes.2.2 u.now (List.mem_map_of_mem hu) v.now (by simp)
        have hfirst : ∀ first, vs.find? (·.candidate) = some first →
            (vs ++ [v]).find? (·.candidate) = some first := by
          intro first hfirst
          simp [List.find?_append, hfirst]
        cases t with
        | some a =>
            obtain ⟨b, rfl, hleaves⟩ := hmoves
            have ha := htells a rfl
            obtain ⟨first, hfind, hnow⟩ := ha.since
            obtain ⟨hb, hpolite'⟩ := tells_look hpolite ⟨first, hfirst first hfind, hnow⟩ ha.tries
              ha.limit ha.last htime hleaves hfirst
            exact ⟨fun _ hsome => by cases hsome; exact hb, nofun, hpolite'⟩
        | none =>
            have hvs := hquiet rfl
            cases hcand : v.candidate with
            | false =>
                simp only [Moves, Look.opens, hcand] at hmoves
                obtain ⟨htried, rfl⟩ := hmoves
                have hvs' : Quiet (vs ++ [v]) := by
                  intro u hu
                  rcases List.mem_append.mp hu with hu | hu
                  · exact hvs u hu
                  · obtain rfl := List.mem_singleton.mp hu
                    exact ⟨hcand, htried⟩
                exact ⟨nofun, fun _ => hvs', hvs'.polite⟩
            | true =>
                simp only [Moves, Look.opens, hcand, if_true] at hmoves
                obtain ⟨b, rfl, hleaves⟩ := hmoves
                obtain ⟨hb, hpolite'⟩ := tells_look hpolite (Tells.opened hvs hcand)
                  (by simp [hvs.filter_eq_nil]) (Nat.zero_le _)
                  (fun u hu htried => by simp [(hvs u hu).2] at htried) htime hleaves hfirst
                exact ⟨fun _ hsome => by cases hsome; exact hb, nofun, hpolite'⟩
  exact hgeneral.2.2

/-- A look that only sets the time of the last try again still moves the track. -/
theorem Moves.again {t : Option Track} {b : Track} (h : P.Moves v t (some b)) :
    P.Moves v t (some { b with last := v.now }) := by
  unfold Moves at h ⊢
  split at h
  · cases h.2
  · obtain ⟨b', hb, hleaves⟩ := h
    cases hb
    exact ⟨_, rfl, hleaves.since, hleaves.tries, Or.inl rfl, hleaves.allowed⟩

end Policy
end Effect.Retry
