import DaosOperator.Text
import Mathlib.Data.List.Induction

/-!
# Names that Kubernetes accepts

The grammars of DNS-1123 labels and subdomains and of label values.  A subdomain is also what a
small automaton accepts, which reads a name from left to right; names that are put together from
parts are followed with it.
-/

namespace DaosOperator.Dns

/-! ## The grammars -/

/-- A lower-case letter or a digit. -/
def alnum (c : Char) : Bool := c.isLower || c.isDigit

/-- The characters of a DNS-1123 label: `[a-z0-9]([-a-z0-9]*[a-z0-9])?`. -/
structure IsLabel (cs : List Char) : Prop where
  chars : ∀ c ∈ cs, alnum c = true ∨ c = '-'
  first : cs.head?.any alnum = true
  last : cs.getLast?.any alnum = true

/-- A DNS-1123 subdomain: labels with dots between them. -/
def IsSubdomain (s : String) : Prop := ∀ part ∈ Text.splitChars '.' s.toList, IsLabel part

/-- A label value: `(([A-Za-z0-9][-A-Za-z0-9_.]*)?[A-Za-z0-9])?`, at most 63 characters. -/
structure IsLabelValue (s : String) : Prop where
  short : s.length ≤ 63
  chars : ∀ c ∈ s.toList, c.isAlphanum = true ∨ c = '-' ∨ c = '_' ∨ c = '.'
  first : s.toList.head?.all Char.isAlphanum = true
  last : s.toList.getLast?.all Char.isAlphanum = true

theorem alnum_isAlphanum {c : Char} (h : alnum c = true) : c.isAlphanum = true := by
  simp only [alnum, Bool.or_eq_true] at h
  have hdef : c.isAlphanum = ((c.isUpper || c.isLower) || c.isDigit) := rfl
  rw [hdef]
  simp only [Bool.or_eq_true]
  tauto

/-! ## The automaton -/

/-- Where the automaton is: before a label, behind a letter or digit, behind a dash. -/
inductive Place where
  | edge
  | letter
  | dash
  deriving DecidableEq

def step (p : Place) (c : Char) : Option Place :=
  if alnum c then some .letter
  else if c = '-' then (if p = .edge then none else some .dash)
  else if c = '.' then (if p = .letter then some .edge else none)
  else none

def scan (p : Place) (cs : List Char) : Option Place := cs.foldlM step p

@[simp]
theorem scan_nil (p : Place) : scan p [] = some p := rfl

@[simp]
theorem scan_cons (p : Place) (c : Char) (cs : List Char) :
    scan p (c :: cs) = (step p c).bind fun q => scan q cs := rfl

theorem scan_append (p : Place) (cs ds : List Char) :
    scan p (cs ++ ds) = (scan p cs).bind fun q => scan q ds := by
  unfold scan
  rw [List.foldlM_append]
  rfl

theorem scan_concat {p q : Place} {cs : List Char} {c : Char} :
    scan p (cs ++ [c]) = some q ↔ ∃ r, scan p cs = some r ∧ step r c = some q := by
  simp [scan_append, Option.bind_eq_some_iff]

theorem ne_nil_of_scan {cs : List Char} (h : scan .edge cs = some .letter) : cs ≠ [] := by
  rintro rfl
  cases h

/-- What a step can do. -/
theorem step_eq_some {p q : Place} {c : Char} :
    step p c = some q ↔ (alnum c = true ∧ q = .letter) ∨ (c = '-' ∧ p ≠ .edge ∧ q = .dash) ∨
      (c = '.' ∧ p = .letter ∧ q = .edge) := by
  have hdash : alnum '-' = false := by decide
  have hdot : alnum '.' = false := by decide
  unfold step
  by_cases hc : alnum c = true
  · have hne : c ≠ '-' ∧ c ≠ '.' := by
      constructor <;> rintro rfl <;> simp_all
    simp [hc, hne, eq_comm]
  · by_cases hcd : c = '-'
    · by_cases hp : p = .edge
      · simp [hcd, hp, hdash]
      · simp [hcd, hp, hdash, eq_comm]
    · by_cases hce : c = '.'
      · by_cases hp : p = .letter
        · simp [hce, hp, hdot, eq_comm]
        · simp [hce, hp, hdot]
      · simp [hc, hcd, hce]

theorem step_alnum {c : Char} (h : alnum c = true) (p : Place) : step p c = some .letter := if_pos h

/-- What is left of a label at a place. -/
structure Rest (p : Place) (cs : List Char) : Prop where
  chars : ∀ c ∈ cs, alnum c = true ∨ c = '-'
  first : p = .edge → cs.head?.any alnum = true
  last : if cs = [] then p = .letter else cs.getLast?.any alnum = true

theorem rest_edge (cs : List Char) : Rest .edge cs ↔ IsLabel cs := by
  constructor
  · intro h
    have hne : cs ≠ [] := by
      rintro rfl
      exact absurd (h.first rfl) (by simp)
    exact ⟨h.chars, h.first rfl, by simpa [hne] using h.last⟩
  · intro h
    have hne : cs ≠ [] := by
      rintro rfl
      exact absurd h.first (by simp)
    exact ⟨h.chars, fun _ => h.first, by simpa [hne] using h.last⟩

theorem rest_cons {p q : Place} {c : Char} (cs : List Char) (hc : c ≠ '.')
    (hstep : step p c = some q) : Rest p (c :: cs) ↔ Rest q cs := by
  have hdash : alnum '-' = false := by decide
  have hlast (hcs : cs ≠ []) : (c :: cs).getLast? = cs.getLast? := by
    obtain ⟨d, ds, rfl⟩ := List.exists_cons_of_ne_nil hcs
    rfl
  rcases step_eq_some.1 hstep with ⟨hal, rfl⟩ | ⟨rfl, hp, rfl⟩ | ⟨rfl, _, _⟩
  · constructor
    · intro h
      refine ⟨fun d hd => h.chars d (List.mem_cons_of_mem c hd), nofun, ?_⟩
      by_cases hcs : cs = []
      · simp [hcs]
      · simpa [hcs, hlast hcs] using h.last
    · intro h
      refine ⟨?_, fun _ => by simpa using hal, ?_⟩
      · rintro d (_ | ⟨_, hd⟩)
        · exact Or.inl hal
        · exact h.chars d hd
      · by_cases hcs : cs = []
        · simp [hcs, hal]
        · simpa [hcs, hlast hcs] using h.last
  · constructor
    · intro h
      refine ⟨fun d hd => h.chars d (List.mem_cons_of_mem _ hd), nofun, ?_⟩
      by_cases hcs : cs = []
      · simpa [hcs, hdash] using h.last
      · simpa [hcs, hlast hcs] using h.last
    · intro h
      refine ⟨?_, fun hedge => absurd hedge hp, ?_⟩
      · rintro d (_ | ⟨_, hd⟩)
        · exact Or.inr rfl
        · exact h.chars d hd
      · by_cases hcs : cs = []
        · simpa [hcs] using h.last
        · simpa [hcs, hlast hcs] using h.last
  · exact absurd rfl hc

theorem not_rest_of_step {p : Place} {c : Char} {cs : List Char} (hc : c ≠ '.')
    (hstep : step p c = none) : ¬Rest p (c :: cs) := by
  intro h
  rcases h.chars c List.mem_cons_self with hal | rfl
  · rw [step_alnum hal] at hstep
    cases hstep
  · have hp : p ≠ .edge := by
      rintro rfl
      have hfirst : alnum '-' = true := h.first rfl
      exact absurd hfirst (by decide)
    rw [step_eq_some.2 (Or.inr (Or.inl ⟨rfl, hp, rfl⟩))] at hstep
    cases hstep

/-- The parts of a name whose first one is read from a place. -/
def Parts (p : Place) : List (List Char) → Prop
  | [] => False
  | part :: parts => Rest p part ∧ ∀ l ∈ parts, IsLabel l

theorem parts_edge {parts : List (List Char)} (hne : parts ≠ []) :
    Parts .edge parts ↔ ∀ l ∈ parts, IsLabel l := by
  obtain ⟨part, rest, rfl⟩ := List.exists_cons_of_ne_nil hne
  simp only [Parts, rest_edge, List.forall_mem_cons]

/-- The automaton accepts what is made of labels. -/
theorem scan_iff (p : Place) (cs : List Char) :
    scan p cs = some .letter ↔ Parts p (Text.splitChars '.' cs) := by
  induction cs generalizing p with
  | nil =>
      constructor
      · intro h
        obtain rfl : p = .letter := by simpa using h
        exact ⟨⟨nofun, nofun, rfl⟩, nofun⟩
      · rintro ⟨hrest, _⟩
        simpa using hrest.last
  | cons c cs ih =>
      have hne := Text.splitChars_ne_nil '.' cs
      rw [scan_cons]
      by_cases hc : c = '.'
      · -- a dot ends the label, and the next one starts at an edge
        subst hc
        have hsplits : Text.splitChars '.' ('.' :: cs) = [] :: Text.splitChars '.' cs := rfl
        rw [hsplits]
        by_cases hp : p = .letter
        · subst hp
          have hempty : Rest .letter [] := ⟨nofun, nofun, rfl⟩
          rw [step_eq_some.2 (Or.inr (Or.inr ⟨rfl, rfl, rfl⟩)), Option.bind_some, ih,
            parts_edge hne]
          exact ⟨fun h => ⟨hempty, h⟩, fun h => h.2⟩
        · have hnone : step p '.' = none := by
            rw [Option.eq_none_iff_forall_ne_some]
            intro q hq
            rcases step_eq_some.1 hq with ⟨hal, _⟩ | ⟨hdash, _⟩ | ⟨_, hletter, _⟩
            · exact absurd hal (by decide)
            · exact absurd hdash (by decide)
            · exact hp hletter
          rw [hnone]
          exact iff_of_false (by simp) fun h => hp (by simpa using h.1.last)
      · obtain ⟨part, parts, hsplit⟩ := List.exists_cons_of_ne_nil hne
        have hsplits : Text.splitChars '.' (c :: cs) = (c :: part) :: parts := by
          simp [Text.splitChars, hc, hsplit]
        rw [hsplits]
        cases hstep : step p c with
        | none => exact iff_of_false (by simp) fun h => not_rest_of_step hc hstep h.1
        | some q =>
            rw [Option.bind_some, ih, hsplit]
            simp only [Parts, rest_cons part hc hstep]

theorem isSubdomain_iff_scan (s : String) :
    IsSubdomain s ↔ scan .edge s.toList = some .letter := by
  rw [scan_iff, parts_edge (Text.splitChars_ne_nil '.' _)]
  rfl

theorem IsLabel.isSubdomain {s : String} (h : IsLabel s.toList) : IsSubdomain s := by
  have hdot : '.' ∉ s.toList := by
    intro hmem
    rcases h.chars '.' hmem with hal | hdash
    · exact absurd hal (by decide)
    · exact absurd hdash (by decide)
  unfold IsSubdomain
  rw [Text.splitChars_eq_self hdot]
  simpa using h

/-! ## The characters of a subdomain -/

theorem chars_of_scan {p q : Place} {cs : List Char} (h : scan p cs = some q) :
    ∀ c ∈ cs, alnum c = true ∨ c = '-' ∨ c = '.' := by
  induction cs generalizing p with
  | nil => exact nofun
  | cons c rest ih =>
      rw [scan_cons, Option.bind_eq_some_iff] at h
      obtain ⟨r, hstep, hrest⟩ := h
      rintro d (_ | ⟨_, hd⟩)
      · rcases step_eq_some.1 hstep with ⟨hal, _⟩ | ⟨hdash, _⟩ | ⟨hdot, _⟩
        · exact Or.inl hal
        · exact Or.inr (Or.inl hdash)
        · exact Or.inr (Or.inr hdot)
      · exact ih hrest d hd

theorem IsSubdomain.chars {s : String} (h : IsSubdomain s) :
    ∀ c ∈ s.toList, alnum c = true ∨ c = '-' ∨ c = '.' :=
  chars_of_scan ((isSubdomain_iff_scan s).1 h)

theorem IsSubdomain.last {s : String} (h : IsSubdomain s) :
    ∃ c, s.toList.getLast? = some c ∧ alnum c = true := by
  rw [isSubdomain_iff_scan] at h
  have hne := ne_nil_of_scan h
  refine ⟨s.toList.getLast hne, List.getLast?_eq_some_getLast hne, ?_⟩
  rw [← List.dropLast_append_getLast hne] at h
  obtain ⟨r, _, hstep⟩ := scan_concat.1 h
  rcases step_eq_some.1 hstep with ⟨hal, _⟩ | ⟨_, _, hdash⟩ | ⟨_, _, hedge⟩
  · exact hal
  · cases hdash
  · cases hedge

/-! ## Names made of parts -/

/-- The first character of a name decides the place, wherever the name starts. -/
theorem scan_of_edge {cs : List Char} {q : Place} (h : scan .edge cs = some q) (hne : cs ≠ [])
    (p : Place) : scan p cs = some q := by
  obtain ⟨c, rest, rfl⟩ := List.exists_cons_of_ne_nil hne
  rw [scan_cons] at h ⊢
  cases hstep : step .edge c with
  | none =>
      rw [hstep] at h
      cases h
  | some r =>
      rcases step_eq_some.1 hstep with ⟨hal, rfl⟩ | ⟨_, hedge, _⟩ | ⟨_, hletter, _⟩
      · rw [hstep] at h
        rw [step_alnum hal p]
        exact h
      · exact absurd rfl hedge
      · cases hletter

/-- A name goes on behind a dash. -/
theorem scan_behind_dash {cs ds : List Char} {q : Place} (hcs : scan .edge cs = some .letter)
    (hds : scan .edge ds = some q) (hne : ds ≠ []) : scan .edge (cs ++ '-' :: ds) = some q := by
  rw [scan_append, hcs, Option.bind_some, scan_cons,
    step_eq_some.2 (Or.inr (Or.inl ⟨rfl, by decide, rfl⟩)), Option.bind_some, scan_of_edge hds hne]

theorem IsSubdomain.dash {a b : String} (ha : IsSubdomain a) (hb : IsSubdomain b) :
    IsSubdomain (a ++ "-" ++ b) := by
  rw [isSubdomain_iff_scan] at ha hb ⊢
  rw [String.append_assoc, String.toList_append, String.toList_append]
  exact scan_behind_dash ha hb (ne_nil_of_scan hb)

/-- What stands before a dash decides whether the whole is a subdomain. -/
theorem scan_dash {cs ds : List Char} {q : Place} (hcs : scan .edge cs = some q)
    (hds : scan .edge ds = some .letter) :
    scan .edge (cs ++ '-' :: ds) = some .letter ↔ q ≠ .edge := by
  rw [scan_append, hcs, Option.bind_some, scan_cons]
  by_cases hq : q = .edge
  · subst hq
    exact iff_of_false (by simp [step, show alnum '-' = false by decide]) (by simp)
  · rw [step_eq_some.2 (Or.inr (Or.inl ⟨rfl, hq, rfl⟩)), Option.bind_some,
      scan_of_edge hds (ne_nil_of_scan hds)]
    exact iff_of_true rfl hq

theorem edge_of_last_dot {p q : Place} {cs : List Char} (h : scan p cs = some q)
    (hlast : cs.getLast? = some '.') : q = .edge := by
  obtain ⟨start, rfl⟩ := List.getLast?_eq_some_iff.1 hlast
  obtain ⟨r, _, hstep⟩ := scan_concat.1 h
  rcases step_eq_some.1 hstep with ⟨hal, _⟩ | ⟨hdash, _⟩ | ⟨_, _, hq⟩
  · exact absurd hal (by decide)
  · exact absurd hdash (by decide)
  · exact hq

theorem dropRight_of_last {cs : List Char} {c : Char} (h : cs.getLast? = some c) (hc : c ≠ '-') :
    Text.dropRight (· = '-') cs = cs := by
  obtain ⟨start, rfl⟩ := List.getLast?_eq_some_iff.1 h
  simp [Text.dropRight, hc]

/-- A start of a name without its trailing dashes ends at a letter, unless it ends in a dot. -/
theorem scan_dropRight {cs : List Char} {q : Place} (h : scan .edge cs = some q) (hne : cs ≠ []) :
    scan .edge (Text.dropRight (· = '-') cs) =
      some (if cs.getLast? = some '.' then .edge else .letter) := by
  induction cs using List.reverseRecOn generalizing q with
  | nil => exact absurd rfl hne
  | append_singleton cs c ih =>
      obtain ⟨r, hr, hstep⟩ := scan_concat.1 h
      have hlast : (cs ++ [c]).getLast? = some c := List.getLast?_concat
      rcases step_eq_some.1 hstep with ⟨hal, rfl⟩ | ⟨rfl, hr', rfl⟩ | ⟨rfl, _, rfl⟩
      · have hdash : c ≠ '-' := by
          rintro rfl
          exact absurd hal (by decide)
        have hdot : c ≠ '.' := by
          rintro rfl
          exact absurd hal (by decide)
        rw [dropRight_of_last hlast hdash, h]
        simp [hdot]
      · have hcs : cs ≠ [] := by
          rintro rfl
          exact hr' (by simpa using hr.symm)
        have hdrop : Text.dropRight (· = '-') (cs ++ ['-']) = Text.dropRight (· = '-') cs := by
          simp [Text.dropRight]
        have hdot : cs.getLast? ≠ some '.' := fun hdot => hr' (edge_of_last_dot hr hdot)
        rw [hdrop, ih hr hcs, if_neg hdot]
        simp
      · rw [dropRight_of_last hlast (by decide), h]
        simp

theorem dropRight_ne_nil {cs : List Char} {q : Place} (h : scan .edge cs = some q)
    (hne : cs ≠ []) : Text.dropRight (· = '-') cs ≠ [] := by
  by_cases hdot : cs.getLast? = some '.'
  · rwa [dropRight_of_last hdot (by decide)]
  · exact ne_nil_of_scan (by rw [scan_dropRight h hne, if_neg hdot])

end DaosOperator.Dns
