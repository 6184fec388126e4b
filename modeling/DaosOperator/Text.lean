import Mathlib.Data.List.Sort
import Mathlib.Data.String.Basic

/-!
# Text functions of the Go standard library

The functions of `strings`, `strconv`, `sort`, `fmt` and `time` that a Go program
builds its names and messages with.  They work on the list of characters of a
string, by structural recursion, so that closed applications compute.
-/

namespace Text

variable {s p : String} {sep c : Char} {cs : List Char} {parts : List String}

/-! ## `strings` -/

/-- `unicode.IsSpace`. -/
def isSpace (c : Char) : Bool :=
  let n := c.toNat
  (9 ≤ n ∧ n ≤ 13) || n == 32 || n == 0x85 || n == 0xA0 || n == 0x1680 ||
    (0x2000 ≤ n ∧ n ≤ 0x200A) || n == 0x2028 || n == 0x2029 || n == 0x202F ||
    n == 0x205F || n == 0x3000

/-- `strings.TrimRight` with the characters given by a predicate. -/
def dropRight (p : Char → Bool) (cs : List Char) : List Char :=
  (cs.reverse.dropWhile p).reverse

/-- `strings.TrimSpace`. -/
def trimSpace (s : String) : String :=
  String.ofList (dropRight isSpace (s.toList.dropWhile isSpace))

/-- `strings.HasPrefix`. -/
def hasPrefix (s p : String) : Bool := p.toList.isPrefixOf s.toList

/-- `strings.HasSuffix`. -/
def hasSuffix (s p : String) : Bool := p.toList.isSuffixOf s.toList

/-- `sub` occurs in `cs` as a contiguous block. -/
def containsChars (sub : List Char) : List Char → Bool
  | [] => sub.isEmpty
  | c :: cs => sub.isPrefixOf (c :: cs) || containsChars sub cs

/-- `strings.Contains`. -/
def contains (s sub : String) : Bool := containsChars sub.toList s.toList

/-- `unicode.ToLower` as far as it yields ASCII.  Besides the ASCII capitals only
the dotted capital I and the Kelvin sign have an ASCII lower case; every other
character keeps to itself here and in Go stays outside ASCII. -/
def lowerChar (c : Char) : Char :=
  if 'A' ≤ c ∧ c ≤ 'Z' then Char.ofNat (c.toNat + 32)
  else if c.toNat = 0x130 then 'i'
  else if c.toNat = 0x212A then 'k'
  else c

/-- `strings.ToLower`, read for ASCII. -/
def toLower (s : String) : String := String.ofList (s.toList.map lowerChar)

/-- A character up to `unicode.SimpleFold`, as far as that meets ASCII.  Besides the ASCII
capitals only the Kelvin sign and the long s fold to an ASCII letter. -/
def foldChar (c : Char) : Char :=
  if 'A' ≤ c ∧ c ≤ 'Z' then Char.ofNat (c.toNat + 32)
  else if c = Char.ofNat 0x212A then 'k'
  else if c = Char.ofNat 0x17F then 's'
  else c

/-- `strings.EqualFold` with an ASCII text. -/
def equalFold (s t : String) : Bool := s.toList.map foldChar = t.toList.map foldChar

/-- `unicode.ToUpper` on ASCII letters. -/
def upperChar (c : Char) : Char :=
  if 'a' ≤ c ∧ c ≤ 'z' then Char.ofNat (c.toNat - 32) else c

/-- `strings.ToUpper(s[:1]) + s[1:]` for a text that starts with an ASCII letter. -/
def title (s : String) : String :=
  match s.toList with
  | [] => ""
  | c :: cs => String.ofList (upperChar c :: cs)

/-- Split a list of characters at every occurrence of `sep`. -/
def splitChars (sep : Char) : List Char → List (List Char)
  | [] => [[]]
  | c :: cs =>
      if c = sep then [] :: splitChars sep cs
      else
        match splitChars sep cs with
        | [] => [[c]]
        | part :: parts => (c :: part) :: parts

/-- `strings.Split` with a separator of one character. -/
def split (s : String) (sep : Char) : List String :=
  (splitChars sep s.toList).map String.ofList

/-- `strings.Join`. -/
def join (parts : List String) (sep : String) : String := String.intercalate sep parts

/-- `strings.Cut` at one character; `none` when it does not occur. -/
def cutChars (sep : Char) : List Char → Option (List Char × List Char)
  | [] => none
  | c :: cs =>
      if c = sep then some ([], cs)
      else (cutChars sep cs).map fun r => (c :: r.1, r.2)

/-- `strings.Cut`. -/
def cut (s : String) (sep : Char) : Option (String × String) :=
  (cutChars sep s.toList).map fun r => (String.ofList r.1, String.ofList r.2)

/-- `s[:i]` where `i` is `strings.LastIndex(s, sep)`; `none` when it does not occur. -/
def beforeLast (s : String) (sep : Char) : Option String :=
  (cutChars sep s.toList.reverse).map fun r => String.ofList r.2.reverse

/-- `strings.ReplaceAll` of one character. -/
def replaceChar (c : Char) (new : String) (s : String) : String :=
  String.ofList (s.toList.flatMap fun d => if d = c then new.toList else [d])

/-- The part before the first line break. -/
def firstLine (s : String) : String := String.ofList (s.toList.takeWhile (· ≠ '\n'))

/-! ## `sort` -/

/-- `sort.Strings`: byte order of UTF-8 is the order of code points. -/
def sortStrings (l : List String) : List String := l.insertionSort fun a b => a ≤ b

@[simp]
theorem mem_sortStrings {l : List String} : s ∈ sortStrings l ↔ s ∈ l :=
  List.mem_insertionSort _

theorem perm_sortStrings (l : List String) : (sortStrings l).Perm l := List.perm_insertionSort _ l

theorem pairwise_sortStrings (l : List String) : (sortStrings l).Pairwise (· ≤ ·) :=
  List.pairwise_insertionSort _ l

/-! ## `strconv` -/

/-- The value of a decimal digit. -/
def digit? (c : Char) : Option Nat :=
  if '0' ≤ c ∧ c ≤ '9' then some (c.toNat - '0'.toNat) else none

/-- A non-empty text of decimal digits. -/
def isDigits (cs : List Char) : Bool := !cs.isEmpty && cs.all fun c => (digit? c).isSome

/-- The number a text of decimal digits stands for. -/
def digitsValue (cs : List Char) : Nat :=
  cs.foldl (fun n c => 10 * n + (digit? c).getD 0) 0

/-- The range of `int64`. -/
def inInt64 (i : Int) : Bool := -9223372036854775808 ≤ i ∧ i ≤ 9223372036854775807

/-- `strconv.Atoi`; `none` stands for its error. -/
def atoi (s : String) : Option Int :=
  let number (sign : Int) (cs : List Char) : Option Int :=
    if isDigits cs then
      let i := sign * (digitsValue cs : Int)
      if inInt64 i then some i else none
    else none
  match s.toList with
  | '+' :: cs => number 1 cs
  | '-' :: cs => number (-1) cs
  | cs => number 1 cs

/-- The conversion of an `int` to `int32`. -/
def toInt32 (i : Int) : Int := (i + 2147483648) % 4294967296 - 2147483648

/-- The hexadecimal digit of a number below 16. -/
def hexDigit (n : Nat) : Char :=
  if n < 10 then Char.ofNat (48 + n) else Char.ofNat (87 + n)

/-- One character of `strconv.Quote`; characters outside ASCII are taken as
printable. -/
def quoteChar (c : Char) : List Char :=
  if c = '"' then ['\\', '"']
  else if c = '\\' then ['\\', '\\']
  else if c = '\n' then ['\\', 'n']
  else if c = '\r' then ['\\', 'r']
  else if c = '\t' then ['\\', 't']
  else if c.toNat = 7 then ['\\', 'a']
  else if c.toNat = 8 then ['\\', 'b']
  else if c.toNat = 11 then ['\\', 'v']
  else if c.toNat = 12 then ['\\', 'f']
  else if c.toNat < 32 ∨ c.toNat = 127 then
    ['\\', 'x', hexDigit (c.toNat / 16), hexDigit (c.toNat % 16)]
  else [c]

/-- The verb `%q`. -/
def quote (s : String) : String :=
  "\"" ++ String.ofList (s.toList.flatMap quoteChar) ++ "\""

/-! ## `fmt` and `time` -/

/-- The verb `%v` on a map of strings, whose keys are printed in order. -/
def showMap (m : List (String × String)) : String :=
  let sorted := m.insertionSort fun a b => a.1 ≤ b.1
  "map[" ++ join (sorted.map fun kv => kv.1 ++ ":" ++ kv.2) " " ++ "]"

/-- The verb `%v` on a slice of integers. -/
def showInts (l : List Int) : String := "[" ++ join (l.map toString) " " ++ "]"

/-- `time.Duration.String` on whole seconds. -/
def showDuration (seconds : Nat) : String :=
  let h := seconds / 3600
  let m := seconds / 60 % 60
  let s := seconds % 60
  if 0 < h then toString h ++ "h" ++ toString m ++ "m" ++ toString s ++ "s"
  else if 0 < m then toString m ++ "m" ++ toString s ++ "s"
  else toString s ++ "s"

/-- A number with at least `width` digits. -/
def padded (width n : Nat) : String :=
  let digits := toString n
  String.ofList (List.replicate (width - digits.length) '0') ++ digits

/-- Year, month and day of a day counted from 1970-01-01. -/
def civil (days : Nat) : Nat × Nat × Nat :=
  let z := days + 719468
  let era := z / 146097
  let doe := z - era * 146097
  let yoe := (doe - doe / 1460 + doe / 36524 - doe / 146096) / 365
  let doy := doe - (365 * yoe + yoe / 4 - yoe / 100)
  let mp := (5 * doy + 2) / 153
  let d := doy - (153 * mp + 2) / 5 + 1
  let m := if mp < 10 then mp + 3 else mp - 9
  (yoe + era * 400 + (if m ≤ 2 then 1 else 0), m, d)

/-- `Format(time.RFC3339)` of a time in seconds since the epoch, in UTC. -/
def rfc3339 (t : Nat) : String :=
  let (y, m, d) := civil (t / 86400)
  let s := t % 86400
  padded 4 y ++ "-" ++ padded 2 m ++ "-" ++ padded 2 d ++ "T" ++ padded 2 (s / 3600) ++ ":" ++
    padded 2 (s / 60 % 60) ++ ":" ++ padded 2 (s % 60) ++ "Z"

/-! ## `Split` undoes `Join` -/

theorem splitChars_eq_self (h : sep ∉ cs) :
    splitChars sep cs = [cs] := by
  induction cs with
  | nil => rfl
  | cons c cs ih =>
      have hne : c ≠ sep := fun heq => h (by simp [heq])
      simp [splitChars, hne, ih fun hc => h (by simp [hc])]

theorem splitChars_ne_nil (sep : Char) (cs : List Char) : splitChars sep cs ≠ [] := by
  induction cs with
  | nil => simp [splitChars]
  | cons c cs ih =>
      unfold splitChars
      split
      · simp
      · split <;> simp

theorem splitChars_append (sep : Char) (cs rest : List Char) :
    splitChars sep (cs ++ sep :: rest) = splitChars sep cs ++ splitChars sep rest := by
  induction cs with
  | nil => simp [splitChars]
  | cons c cs ih =>
      by_cases hsep : c = sep
      · simp [splitChars, hsep, ih]
      · simp only [List.cons_append, splitChars, hsep, if_false, ih]
        cases hparts : splitChars sep cs with
        | nil => exact (splitChars_ne_nil sep cs hparts).elim
        | cons part parts => rfl

/-- A text without the separator is its own only part. -/
theorem split_eq_self (h : sep ∉ s.toList) : split s sep = [s] := by
  rw [split, splitChars_eq_self h]
  simp

/-- `strings.Split` of a joined text gives the parts of the joined texts, in their order. -/
theorem split_join_eq_flatMap {t : String}
    (ht : t.toList = [sep]) (hne : parts ≠ []) :
    split (join parts t) sep = parts.flatMap (split · sep) := by
  induction parts with
  | nil => exact (hne rfl).elim
  | cons s parts ih =>
      cases parts with
      | nil => simp [join]
      | cons next parts =>
          have hlist : (join (s :: next :: parts) t).toList =
              s.toList ++ sep :: (join (next :: parts) t).toList := by
            simp [join, ht]
          rw [split, hlist, splitChars_append, List.map_append, List.flatMap_cons]
          exact congrArg (split s sep ++ ·) (ih (by simp))

/-- `strings.Split` undoes `strings.Join` of parts without the separator. -/
theorem split_join {t : String} (ht : t.toList = [sep])
    (hne : parts ≠ []) (hparts : ∀ s ∈ parts, sep ∉ s.toList) :
    split (join parts t) sep = parts := by
  rw [split_join_eq_flatMap ht hne]
  calc parts.flatMap (split · sep)
      = parts.flatMap fun s => [s] := List.flatMap_congr fun s hs => split_eq_self (hparts s hs)
    _ = parts := by simp

/-! ## Numbers are read back -/

theorem digit?_of_isDigit (h : c.isDigit = true) : digit? c = some (c.toNat - '0'.toNat) := by
  have hrange : '0' ≤ c ∧ c ≤ '9' := by
    simp only [Char.isDigit, Bool.and_eq_true, decide_eq_true_eq] at h
    exact h
  simp only [digit?, if_pos hrange]

theorem digitsValue_toDigits (n : Nat) : digitsValue (Nat.toDigits 10 n) = n := by
  have hfold : ∀ cs : List Char, (∀ c ∈ cs, c.isDigit = true) → ∀ acc,
      cs.foldl (fun n c => 10 * n + (digit? c).getD 0) acc = Nat.ofDigitChars 10 cs acc := by
    intro cs
    induction cs with
    | nil => intro _ acc; rfl
    | cons c cs ih =>
        intro hcs acc
        have hc := digit?_of_isDigit (hcs c (by simp))
        simp only [List.foldl_cons, Nat.ofDigitChars, hc, Option.getD_some] at ih ⊢
        exact ih (fun c hc => hcs c (by simp [hc])) _
  rw [digitsValue, hfold _ (fun c hc => Nat.isDigit_of_mem_toDigits (by decide) (by decide) hc),
    Nat.ofDigitChars_toDigits (by decide) (by decide)]

theorem isDigits_toDigits (n : Nat) : isDigits (Nat.toDigits 10 n) = true := by
  have hne : Nat.toDigits 10 n ≠ [] := by
    rw [Nat.toDigits_eq_if (by decide)]
    split <;> simp
  simp only [isDigits, Bool.and_eq_true, Bool.not_eq_true', List.isEmpty_eq_false_iff,
    List.all_eq_true]
  refine ⟨hne, fun c hc => ?_⟩
  rw [digit?_of_isDigit (Nat.isDigit_of_mem_toDigits (by decide) (by decide) hc)]
  rfl

theorem toList_repr (n : Nat) : n.repr.toList = Nat.toDigits 10 n := by
  simp [Nat.repr]

theorem repr_injective : Function.Injective Nat.repr := by
  intro m n h
  rw [← digitsValue_toDigits m, ← toList_repr, h, toList_repr, digitsValue_toDigits]

theorem toString_injective : Function.Injective (toString : Int → String) := by
  have hsign : ∀ m n : Nat, m.repr ≠ "-" ++ n.repr := by
    intro m n h
    have hmem : '-' ∈ Nat.toDigits 10 m := by
      rw [← toList_repr, h]
      simp
    exact absurd (Nat.isDigit_of_mem_toDigits (by decide) (by decide) hmem) (by decide)
  intro i j h
  cases i with
  | ofNat m =>
      cases j with
      | ofNat n => exact congrArg Int.ofNat (repr_injective h)
      | negSucc n => exact absurd h (hsign m (n + 1))
  | negSucc m =>
      cases j with
      | ofNat n => exact absurd h.symm (hsign n (m + 1))
      | negSucc n =>
          have hsame : (m + 1).repr = (n + 1).repr := by
            have hlist := congrArg String.toList
              (show "-" ++ (m + 1).repr = "-" ++ (n + 1).repr from h)
            rw [String.toList_append, String.toList_append] at hlist
            exact String.toList_inj.mp (List.append_cancel_left hlist)
          have hnext := repr_injective hsame
          exact congrArg Int.negSucc (Nat.succ.inj hnext)

theorem toString_ne_empty (i : Int) : toString i ≠ "" := by
  cases i with
  | ofNat n =>
      intro h
      have hempty : Nat.toDigits 10 n = [] := by
        rw [← toList_repr, show n.repr = "" from h, String.toList_empty]
      have hdigits := isDigits_toDigits n
      rw [hempty] at hdigits
      cases hdigits
  | negSucc n =>
      intro h
      have hlist := congrArg String.toList (show "-" ++ (n + 1).repr = "" from h)
      simp at hlist

theorem isSpace_of_isDigit (h : c.isDigit = true) : isSpace c = false := by
  simp only [Char.isDigit, Bool.and_eq_true, decide_eq_true_eq] at h
  have h₁ : 48 ≤ c.toNat := h.1
  have h₂ : c.toNat ≤ 57 := h.2
  simp only [isSpace]
  grind

theorem trimSpace_of_noSpace (h : ∀ c ∈ s.toList, isSpace c = false) :
    trimSpace s = s := by
  have hdrop : ∀ cs : List Char, (∀ c ∈ cs, isSpace c = false) → cs.dropWhile isSpace = cs := by
    intro cs hcs
    cases cs with
    | nil => rfl
    | cons c cs => simp [hcs c (by simp)]
  rw [trimSpace, hdrop _ h, dropRight, hdrop _ fun c hc => h c (List.mem_reverse.mp hc)]
  simp

theorem cutChars_eq_none (h : sep ∉ cs) : cutChars sep cs = none := by
  induction cs with
  | nil => rfl
  | cons c cs ih =>
      have hne : c ≠ sep := fun heq => h (by simp [heq])
      simp [cutChars, hne, ih fun hc => h (by simp [hc])]

theorem cutChars_append (h : sep ∉ cs) (rest : List Char) :
    cutChars sep (cs ++ sep :: rest) = some (cs, rest) := by
  induction cs with
  | nil => simp [cutChars]
  | cons c cs ih =>
      have hne : c ≠ sep := fun heq => h (by simp [heq])
      simp [cutChars, hne, ih fun hc => h (by simp [hc])]

/-- `strings.Cut` at the first separator. -/
theorem cut_append {a t b : String} (ht : t.toList = [sep]) (ha : sep ∉ a.toList) :
    cut (a ++ t ++ b) sep = some (a, b) := by
  have hlist : (a ++ t ++ b).toList = a.toList ++ sep :: b.toList := by simp [ht]
  rw [cut, hlist, cutChars_append ha]
  simp

theorem isDigit_of_isDigits (h : isDigits cs = true) :
    ∀ c ∈ cs, c.isDigit = true := by
  intro c hc
  simp only [isDigits, Bool.and_eq_true, List.all_eq_true] at h
  have hsome := h.2 c hc
  unfold digit? at hsome
  split at hsome
  · next hdigit =>
      simp only [Char.isDigit, Bool.and_eq_true, decide_eq_true_eq]
      exact hdigit
  · cases hsome

/-- `strconv.Atoi` of a number without a sign fails only outside the range. -/
theorem atoi_of_isDigits (h : isDigits cs = true) :
    atoi (String.ofList cs) =
      if digitsValue cs ≤ 9223372036854775807 then some (digitsValue cs : Int) else none := by
  have hmem := isDigit_of_isDigits h
  have hsign : ∀ rest, cs ≠ '+' :: rest ∧ cs ≠ '-' :: rest := by
    intro rest
    constructor <;> intro heq <;> rw [heq] at hmem
    · exact absurd (hmem '+' (by simp)) (by decide)
    · exact absurd (hmem '-' (by simp)) (by decide)
  unfold atoi
  rw [String.toList_ofList]
  split
  · next rest => exact absurd rfl (hsign rest).1
  · next rest => exact absurd rfl (hsign rest).2
  · have hrange : inInt64 (digitsValue cs : Int) =
        decide (digitsValue cs ≤ 9223372036854775807) := by
      simp only [inInt64, decide_eq_decide]
      omega
    simp only [h, hrange, if_true, decide_eq_true_eq, Int.one_mul]

/-- `strconv.Atoi` reads back a number of the range. -/
theorem atoi_repr {n : Nat} (h : n ≤ 9223372036854775807) : atoi n.repr = some (n : Int) := by
  have hlist : n.repr = String.ofList (Nat.toDigits 10 n) := by
    rw [← toList_repr, String.ofList_toList]
  rw [hlist, atoi_of_isDigits (isDigits_toDigits n), digitsValue_toDigits, if_pos h]

/-! ## Suffixes -/

theorem suffix_or_suffix {a b t : String} (h : a ++ s = b ++ t) :
    s.toList <:+ t.toList ∨ t.toList <:+ s.toList := by
  have hlist : a.toList ++ s.toList = b.toList ++ t.toList := by
    simpa using congrArg String.toList h
  exact List.suffix_or_suffix_of_suffix ⟨a.toList, hlist⟩ (List.suffix_append _ _)

theorem append_right_cancel {a b : String} (h : a ++ s = b ++ s) : a = b := by
  have hlist : a.toList ++ s.toList = b.toList ++ s.toList := by
    simpa using congrArg String.toList h
  exact String.toList_inj.mp (List.append_cancel_right hlist)

/-- A suffix that lacks a character of the text begins behind it. -/
theorem isSuffix_of_mark {α : Type} {c : α} {p x b : List α} (hc : c ∉ p)
    (h : p <:+ x ++ c :: b) : p <:+ b := by
  rcases List.suffix_or_suffix_of_suffix h (List.suffix_append x (c :: b)) with hp | hp
  · rcases List.suffix_cons_iff.mp hp with heq | hb
    · exact absurd (heq ▸ List.mem_cons_self) hc
    · exact hb
  · exact absurd (hp.subset List.mem_cons_self) hc

theorem hasSuffix_eq_true : hasSuffix s p = true ↔ p.toList <:+ s.toList :=
  List.isSuffixOf_iff_suffix

/-- A text that ends differently does not have the suffix. -/
theorem hasSuffix_eq_false_of_last (hp : p.toList.getLast? = some c)
    (hs : s.toList.getLast? ≠ some c) : hasSuffix s p = false := by
  by_contra hsuffix
  obtain ⟨q, hq⟩ := hasSuffix_eq_true.mp (by simpa using hsuffix)
  have hne : p.toList ≠ [] := by
    intro hnil
    simp [hnil] at hp
  apply hs
  rw [← hq, List.getLast?_append_of_ne_nil _ hne, hp]

/-- A suffix without the separator lies in one of the parts. -/
theorem hasSuffix_join {sep : String} (hsep : sep.toList = [c])
    (hc : c ∉ p.toList) (hp : p ≠ "") (h : hasSuffix (join parts sep) p = true) :
    ∃ part ∈ parts, hasSuffix part p = true := by
  induction parts with
  | nil =>
      have hnil : p.toList = [] := by simpa [join] using hasSuffix_eq_true.mp h
      exact absurd (String.toList_inj.mp (by simpa using hnil)) hp
  | cons part rest ih =>
      cases rest with
      | nil => exact ⟨part, by simp, by simpa [join] using h⟩
      | cons next rest =>
          have hlist : (join (part :: next :: rest) sep).toList =
              part.toList ++ c :: (join (next :: rest) sep).toList := by
            simp [join, String.toList_intercalate, hsep]
          have hrest := isSuffix_of_mark hc (hlist ▸ hasSuffix_eq_true.mp h)
          obtain ⟨other, hother, hsuffix⟩ := ih (hasSuffix_eq_true.mpr hrest)
          exact ⟨other, List.mem_cons_of_mem _ hother, hsuffix⟩

theorem hasSuffix_append {b : String} (a : String) (h : hasSuffix b p = true) :
    hasSuffix (a ++ b) p = true := by
  rw [hasSuffix_eq_true] at h ⊢
  rw [String.toList_append]
  exact h.trans (List.suffix_append _ _)

theorem hasSuffix_append_right {a : String} (h : hasSuffix a p = true) (b : String) :
    hasSuffix (a ++ b) (p ++ b) = true := by
  obtain ⟨x, hx⟩ := hasSuffix_eq_true.mp h
  refine hasSuffix_eq_true.mpr ⟨x, ?_⟩
  rw [String.toList_append, String.toList_append, ← hx, List.append_assoc]

/-- A suffix without a colon that does not start with a blank begins behind the last colon. -/
theorem hasSuffix_of_colon {m : String} (hs : hasSuffix s (": " ++ m) = true)
    (hcolon : ':' ∉ p.toList) (hblank : p.toList.head? ≠ some ' ') (h : hasSuffix s p = true) :
    hasSuffix m p = true := by
  obtain ⟨x, hx⟩ := hasSuffix_eq_true.mp hs
  rw [hasSuffix_eq_true] at h ⊢
  have hlist : x ++ ':' :: ' ' :: m.toList = s.toList := by
    rw [← hx]
    simp
  rcases List.suffix_cons_iff.mp (isSuffix_of_mark hcolon (hlist ▸ h)) with heq | hm
  · exact absurd (by rw [heq]; rfl) hblank
  · exact hm

theorem last_append {b : String} (a : String) (h : b.toList.getLast? = some c) :
    (a ++ b).toList.getLast? = some c := by
  rw [String.toList_append, List.getLast?_append, h]
  rfl

/-- Parts that end alike make a text that ends so. -/
theorem last_join (sep : String) (hne : parts ≠ [])
    (h : ∀ part ∈ parts, part.toList.getLast? = some c) :
    (join parts sep).toList.getLast? = some c := by
  induction parts with
  | nil => exact absurd rfl hne
  | cons part rest ih =>
      cases rest with
      | nil => simpa [join] using h part (by simp)
      | cons next rest =>
          have hrest := ih (by simp) fun other hother => h other (List.mem_cons_of_mem _ hother)
          have hlist : (join (part :: next :: rest) sep).toList =
              (part ++ sep ++ join (next :: rest) sep).toList := by
            simp [join, String.toList_intercalate]
          rw [hlist]
          exact last_append _ hrest

/-! ## Encodings are read back -/

theorem mem_toString_int {i : Int} (h : c ∈ (toString i).toList) :
    c.isDigit = true ∨ c = '-' := by
  have hrepr (n : Nat) (hc : c ∈ n.repr.toList) : c.isDigit = true := by
    rw [toList_repr] at hc
    exact Nat.isDigit_of_mem_toDigits (by decide) (by decide) hc
  cases i with
  | ofNat n => exact .inl (hrepr n h)
  | negSucc n =>
      rw [show toString (Int.negSucc n) = "-" ++ (n + 1).repr from rfl, String.toList_append,
        List.mem_append] at h
      rcases h with h | h
      · exact .inr (by simpa using h)
      · exact .inl (hrepr _ h)

theorem notMem_toString_int {i : Int} (hdigit : c.isDigit = false) (hsign : c ≠ '-') :
    c ∉ (toString i).toList := by
  intro h
  rcases mem_toString_int h with h | h
  · rw [hdigit] at h
    cases h
  · exact hsign h

/-- `strconv.Atoi` reads back every `int`. -/
theorem atoi_toString {i : Int} (h : inInt64 i = true) : atoi (toString i) = some i := by
  have hrange : -9223372036854775808 ≤ i ∧ i ≤ 9223372036854775807 := by simpa [inInt64] using h
  cases i with
  | ofNat n =>
      exact atoi_repr (by have := hrange.2; simp only [Int.ofNat_eq_natCast] at this; omega)
  | negSucc n =>
      have hlist : (toString (Int.negSucc n)).toList = '-' :: Nat.toDigits 10 (n + 1) := by
        rw [show toString (Int.negSucc n) = "-" ++ (n + 1).repr from rfl, String.toList_append,
          toList_repr]
        rfl
      have hvalue : -1 * ((digitsValue (Nat.toDigits 10 (n + 1)) : Nat) : Int) = Int.negSucc n := by
        rw [digitsValue_toDigits]
        omega
      unfold atoi
      rw [hlist]
      simp only [isDigits_toDigits, if_true, hvalue, h]

theorem join_ne_empty {sep : String} (hne : parts ≠ [])
    (h : ∀ s ∈ parts, s ≠ "") : join parts sep ≠ "" := by
  match parts, hne with
  | s :: rest, _ =>
      intro hempty
      have hlist := congrArg String.toList hempty
      rw [join, String.toList_intercalate] at hlist
      have hs : s = "" := by
        cases rest with
        | nil => simpa [List.intercalate] using hlist
        | cons t rest =>
            simp [List.intercalate] at hlist
            exact hlist.1
      exact h s List.mem_cons_self hs

theorem notMem_join {sep : String} (hsep : c ∉ sep.toList)
    (h : ∀ s ∈ parts, c ∉ s.toList) : c ∉ (join parts sep).toList := by
  have hpieces (pieces : List (List Char)) (hp : ∀ p ∈ pieces, c ∉ p) :
      c ∉ sep.toList.intercalate pieces := by
    induction pieces with
    | nil => simp [List.intercalate]
    | cons p rest ih =>
        have hrest := ih fun q hq => hp q (List.mem_cons_of_mem _ hq)
        cases rest with
        | nil => simpa [List.intercalate] using hp p List.mem_cons_self
        | cons q rest =>
            simp only [List.intercalate, List.intersperse_cons_cons, List.flatten_cons,
              List.mem_append, not_or]
            exact ⟨hp p List.mem_cons_self, hsep, hrest⟩
  rw [join, String.toList_intercalate]
  refine hpieces _ fun p hp => ?_
  obtain ⟨s, hs, rfl⟩ := List.mem_map.mp hp
  exact h s hs

theorem sortStrings_of_pairwise {l : List String} (h : l.Pairwise (· ≤ ·)) : sortStrings l = l :=
  h.insertionSort_eq

end Text
