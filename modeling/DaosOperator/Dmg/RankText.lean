import DaosOperator.Dmg.Output
import Mathlib.Data.Finset.Sort

/-!
# Rank sets as dmg prints them

dmg prints a set of ranks as an array or as a text of ranks and ranges.  `Ranks` reads back
either, except for a range that ends in the largest rank: its loop counter wraps and the loop
never ends.
-/

namespace DaosOperator.Dmg

/-! ## Renderings -/

/-- A part of a rank text: a rank, or a range with both ends. -/
inductive RankItem where
  | one (r : Nat)
  | range (lo hi : Nat)

namespace RankItem

def text : RankItem → String
  | one r => r.repr
  | range lo hi => lo.repr ++ "-" ++ hi.repr

def ranks : RankItem → List Nat
  | one r => [r]
  | range lo hi => List.range' lo (hi + 1 - lo)

/-- The ends of a range are in order. -/
def Ordered : RankItem → Prop
  | one _ => True
  | range lo hi => lo ≤ hi

def EndsInLargest : RankItem → Prop
  | one _ => False
  | range _ hi => hi = 2147483647

end RankItem

/-- How a set of ranks is printed. -/
inductive Rendering where
  | array (ranks : List Nat)
  | text (items : List RankItem) (bracketed : Bool)

namespace Rendering

/-- The ranks in the order in which they are printed. -/
def ranks : Rendering → List Nat
  | array rs => rs
  | text items _ => items.flatMap RankItem.ranks

/-- The text between the quotes. -/
def itemsText (items : List RankItem) (bracketed : Bool) : String :=
  let body := Text.join (items.map RankItem.text) ","
  if bracketed then "[" ++ body ++ "]" else body

/-- The JSON value that is printed; the elements of an array have any spacing around them. -/
def Shows : Rendering → Json → Prop
  | array rs, .arr items => items.map (·.2) = rs.map fun r => Json.num r.repr
  | text items bracketed, .str s => s = itemsText items bracketed
  | _, _ => False

/-- The ends of every range are in order. -/
def Ordered : Rendering → Prop
  | array _ => True
  | text items _ => ∀ i ∈ items, i.Ordered

/-- The rendering prints every rank of `S` once and no other rank. -/
structure Of (S : Finset Nat) (rd : Rendering) : Prop where
  nodup : rd.ranks.Nodup
  mem : ∀ r, r ∈ rd.ranks ↔ r ∈ S
  ordered : rd.Ordered

/-- No range of the rendering ends in the largest rank. -/
def Finishes : Rendering → Prop
  | array _ => True
  | text items _ => ∀ i ∈ items, ¬i.EndsInLargest

end Rendering

/-! ## Parts -/

theorem isDigit_of_mem_repr {n : Nat} {c : Char} (h : c ∈ n.repr.toList) : c.isDigit = true := by
  rw [Text.toList_repr] at h
  exact Nat.isDigit_of_mem_toDigits (by decide) (by decide) h

theorem digit?_isSome_of_mem_repr {n : Nat} {c : Char} (h : c ∈ n.repr.toList) :
    (Text.digit? c).isSome = true := by
  rw [Text.digit?_of_isDigit (isDigit_of_mem_repr h)]
  rfl

theorem repr_ne_nil (n : Nat) : n.repr.toList ≠ [] := by
  intro hnil
  have hdigits := Text.isDigits_toDigits n
  rw [← Text.toList_repr, hnil] at hdigits
  cases hdigits

/-- What follows a number does not start with a digit. -/
def NoDigit (rest : List Char) : Prop := ∀ c ∈ rest.head?, (Text.digit? c).isSome = false

theorem takeDigits_repr (n : Nat) {rest : List Char} (hrest : NoDigit rest) :
    Json.takeDigits (n.repr.toList ++ rest) = (n.repr.toList, rest) := by
  have hall : ∀ c ∈ n.repr.toList, (Text.digit? c).isSome = true := fun c hc =>
    digit?_isSome_of_mem_repr hc
  unfold Json.takeDigits
  rw [List.takeWhile_append_of_pos hall, List.dropWhile_append_of_pos hall]
  cases rest with
  | nil => simp
  | cons c tail =>
      have hc : (Text.digit? c).isSome = false := hrest c rfl
      simp [hc]

theorem scanInt32_repr {n : Nat} (hn : n ≤ 2147483647) (rest : List Char) (hrest : NoDigit rest) :
    scanInt32 (n.repr.toList ++ rest) = some ((n : Int), rest) := by
  have htake := takeDigits_repr n hrest
  have hvalue : Text.digitsValue n.repr.toList = n := by
    rw [Text.toList_repr, Text.digitsValue_toDigits]
  cases hchars : n.repr.toList with
  | nil => exact absurd hchars (repr_ne_nil n)
  | cons c tail =>
      have hdigit : c.isDigit = true := isDigit_of_mem_repr (n := n) (by simp [hchars])
      have hplus : c ≠ '+' := by
        rintro rfl
        cases hdigit
      have hminus : c ≠ '-' := by
        rintro rfl
        cases hdigit
      rw [hchars] at htake hvalue
      rw [List.cons_append] at htake ⊢
      unfold scanInt32
      rw [List.dropWhile_cons_of_neg (by simp [Text.isSpace_of_isDigit hdigit])]
      extract_lets cs
      have hcs : cs = c :: (tail ++ rest) := rfl
      clear_value cs
      split
      rename_i hsign
      split at hsign
      · exact absurd (List.cons.inj hcs).1.symm hplus
      · exact absurd (List.cons.inj hcs).1.symm hminus
      · obtain ⟨rfl, rfl⟩ := Prod.mk.inj hsign
        rw [hcs, htake]
        simp only [hvalue]
        rw [if_pos (by omega), Int.one_mul]

theorem intRange_eq (lo hi : Nat) :
    intRange lo hi = (List.range' lo (hi + 1 - lo)).map fun r : Nat => (r : Int) := by
  have hlength : ((hi : Int) - lo + 1).toNat = hi + 1 - lo := by omega
  rw [intRange, hlength, List.range'_eq_map_range, List.map_map, bind_pure_comp, List.map_eq_map,
    List.map_map]
  refine List.map_congr_left fun i _ => ?_
  simp

/-- A part is read back, unless it is a range that ends in the largest rank. -/
theorem rankPart_text {item : RankItem} (hordered : item.Ordered)
    (hranks : ∀ r ∈ item.ranks, r ≤ 2147483647) :
    (¬item.EndsInLargest → rankPart item.text = some (item.ranks.map fun r : Nat => (r : Int))) ∧
      (item.EndsInLargest → rankPart item.text = none) := by
  cases item with
  | one r =>
      have hr : r ≤ 2147483647 := hranks r (by simp [RankItem.ranks])
      have hscan := scanInt32_repr hr [] (by simp [NoDigit])
      rw [List.append_nil] at hscan
      refine ⟨fun _ => ?_, nofun⟩
      simp only [rankPart, RankItem.text, hscan]
      rfl
  | range lo hi =>
      have hle : lo ≤ hi := hordered
      have hhi : hi ≤ 2147483647 := hranks hi (by simp [RankItem.ranks]; omega)
      have hlo := scanInt32_repr (hle.trans hhi) ('-' :: hi.repr.toList)
        (by simp [NoDigit, Text.digit?])
      have hscan := scanInt32_repr hhi [] (by simp [NoDigit])
      rw [List.append_nil] at hscan
      have hlist : (RankItem.range lo hi).text.toList =
          lo.repr.toList ++ '-' :: hi.repr.toList := by
        simp [RankItem.text, show "-".toList = ['-'] from rfl]
      simp only [rankPart, hlist, hlo, hscan, RankItem.EndsInLargest, RankItem.ranks]
      constructor
      · intro hne
        rw [if_neg (by omega), intRange_eq]
      · intro heq
        rw [if_pos (by omega)]

/-! ## Texts -/

theorem mapM_rankPart {items : List RankItem} (hordered : ∀ i ∈ items, i.Ordered)
    (hranks : ∀ i ∈ items, ∀ r ∈ i.ranks, r ≤ 2147483647) :
    ((∀ i ∈ items, ¬i.EndsInLargest) → (items.map RankItem.text).mapM rankPart =
        some (items.map fun i => i.ranks.map fun r : Nat => (r : Int))) ∧
      ((∃ i ∈ items, i.EndsInLargest) → (items.map RankItem.text).mapM rankPart = none) := by
  induction items with
  | nil => exact ⟨fun _ => rfl, nofun⟩
  | cons item rest ih =>
      obtain ⟨hread, hhangs⟩ := rankPart_text (hordered item List.mem_cons_self)
        (hranks item List.mem_cons_self)
      obtain ⟨hreads, hrest⟩ := ih (fun i hi => hordered i (List.mem_cons_of_mem item hi))
        fun i hi => hranks i (List.mem_cons_of_mem item hi)
      rw [List.map_cons, List.mapM_cons]
      constructor
      · intro hnone
        rw [hread (hnone item List.mem_cons_self),
          hreads fun i hi => hnone i (List.mem_cons_of_mem item hi)]
        rfl
      · rintro ⟨i, hi, hends⟩
        by_cases hitem : item.EndsInLargest
        · rw [hhangs hitem]
          rfl
        · rcases List.mem_cons.1 hi with rfl | hi
          · exact absurd hends hitem
          · rw [hread hitem, hrest ⟨i, hi, hends⟩]
            rfl

theorem char_of_text {item : RankItem} {c : Char} (h : c ∈ item.text.toList) :
    c.isDigit = true ∨ c = '-' := by
  cases item with
  | one r => exact Or.inl (isDigit_of_mem_repr h)
  | range lo hi =>
      simp only [RankItem.text, String.toList_append, List.mem_append] at h
      rcases h with (h | h) | h
      · exact Or.inl (isDigit_of_mem_repr h)
      · exact Or.inr (by simpa using h)
      · exact Or.inl (isDigit_of_mem_repr h)

theorem char_of_body {items : List RankItem} {c : Char}
    (h : c ∈ (Text.join (items.map RankItem.text) ",").toList) :
    c.isDigit = true ∨ c = '-' ∨ c = ',' := by
  by_contra hnot
  simp only [not_or] at hnot
  refine Text.notMem_join ?_ ?_ h
  · simpa using hnot.2.2
  · intro s hs hc
    obtain ⟨item, _, rfl⟩ := List.mem_map.1 hs
    rcases char_of_text hc with hdigit | hdash
    · exact hnot.1 hdigit
    · exact hnot.2.1 hdash

def isBracket (c : Char) : Bool := c = '[' || c = ']'

theorem dropWhile_isBracket {cs : List Char} (h : ∀ c ∈ cs, isBracket c = false) :
    cs.dropWhile isBracket = cs := by
  cases cs with
  | nil => rfl
  | cons c rest => exact List.dropWhile_cons_of_neg (by simp [h c])

theorem trim_brackets {cs : List Char} (h : ∀ c ∈ cs, isBracket c = false) (bracketed : Bool) :
    Text.dropRight isBracket
      ((if bracketed then '[' :: (cs ++ [']']) else cs).dropWhile isBracket) = cs := by
  have hrev : cs.reverse.dropWhile isBracket = cs.reverse :=
    dropWhile_isBracket fun c hc => h c (List.mem_reverse.1 hc)
  have hopen : isBracket '[' = true := rfl
  have hclose : isBracket ']' = true := rfl
  cases bracketed with
  | false => simp [Text.dropRight, dropWhile_isBracket h, hrev]
  | true =>
      cases cs with
      | nil => simp [Text.dropRight, hopen, hclose]
      | cons c rest =>
          have hc : isBracket c = false := h c List.mem_cons_self
          simp only [if_true, List.dropWhile_cons_of_pos hopen, List.cons_append,
            List.dropWhile_cons, hc, Bool.false_eq_true, if_false, Text.dropRight]
          rw [← List.cons_append, List.reverse_append, List.reverse_singleton,
            List.singleton_append, List.dropWhile_cons_of_pos hclose, hrev, List.reverse_reverse]

theorem ranksOfText_eq (s : String) :
    ranksOfText s =
      let body := Text.dropRight isBracket ((Text.trimSpace s).toList.dropWhile isBracket)
      if body.isEmpty then some []
      else
        ((Text.split (String.ofList body) ',').mapM rankPart).map fun parts =>
          parts.flatten.insertionSort (· ≤ ·) := rfl

theorem text_ne_empty (item : RankItem) : item.text ≠ "" := by
  intro hempty
  have hlist := congrArg String.toList hempty
  cases item with
  | one r => simp [RankItem.text] at hlist
  | range lo hi => simp [RankItem.text] at hlist

theorem ranksOfText_itemsText (items : List RankItem) (bracketed : Bool) :
    ranksOfText (Rendering.itemsText items bracketed) =
      ((items.map RankItem.text).mapM rankPart).map fun parts =>
        parts.flatten.insertionSort (· ≤ ·) := by
  have hlist : (Rendering.itemsText items bracketed).toList =
      if bracketed then '[' :: ((Text.join (items.map RankItem.text) ",").toList ++ [']'])
      else (Text.join (items.map RankItem.text) ",").toList := by
    cases bracketed <;> simp [Rendering.itemsText, show "[".toList = ['['] from rfl,
      show "]".toList = [']'] from rfl]
  have hbody : ∀ c ∈ (Text.join (items.map RankItem.text) ",").toList, isBracket c = false := by
    intro c hc
    rcases char_of_body hc with hdigit | rfl | rfl
    · simp only [isBracket, Bool.or_eq_false_iff, decide_eq_false_iff_not]
      constructor <;> rintro rfl <;> cases hdigit
    · rfl
    · rfl
  have hspace : Text.trimSpace (Rendering.itemsText items bracketed) =
      Rendering.itemsText items bracketed := by
    refine Text.trimSpace_of_noSpace fun c hc => ?_
    have hchar : c.isDigit = true ∨ c = '-' ∨ c = ',' ∨ c = '[' ∨ c = ']' := by
      rw [hlist] at hc
      cases bracketed with
      | false =>
          have hc' := char_of_body hc
          tauto
      | true =>
          rcases List.mem_cons.1 hc with hopen | hc
          · tauto
          · rcases List.mem_append.1 hc with hc | hclose
            · have hc' := char_of_body hc
              tauto
            · have hclose' := List.mem_singleton.1 hclose
              tauto
    rcases hchar with hdigit | rfl | rfl | rfl | rfl
    · exact Text.isSpace_of_isDigit hdigit
    all_goals rfl
  have htrim := trim_brackets hbody bracketed
  rw [← hlist] at htrim
  rw [ranksOfText_eq, hspace, htrim]
  dsimp only
  rw [String.ofList_toList]
  by_cases hitems : items = []
  · subst hitems
    rfl
  · have hne : items.map RankItem.text ≠ [] := by simpa using hitems
    have hempty : (Text.join (items.map RankItem.text) ",").toList.isEmpty = false := by
      rw [List.isEmpty_eq_false_iff, Ne, String.toList_eq_nil_iff]
      exact Text.join_ne_empty hne fun s hs => by
        obtain ⟨item, _, rfl⟩ := List.mem_map.1 hs
        exact text_ne_empty item
    rw [if_neg (by simp [hempty]), Text.split_join rfl hne]
    intro s hs hcomma
    obtain ⟨item, _, rfl⟩ := List.mem_map.1 hs
    rcases char_of_text hcomma with hdigit | hdash
    · cases hdigit
    · exact absurd hdash (by decide)

/-! ## Arrays -/

theorem int32_repr {n : Nat} (hn : n ≤ 2147483647) (context : String) :
    Json.int32 context (.num n.repr) = .ok (n : Int) := by
  have hvalue : Text.digitsValue n.repr.toList = n := by
    rw [Text.toList_repr, Text.digitsValue_toDigits]
  have hdigits : Text.isDigits n.repr.toList = true := by
    rw [Text.toList_repr]
    exact Text.isDigits_toDigits n
  have hliteral : Json.integerLiteral n.repr = some (n : Int) := by
    unfold Json.integerLiteral
    split
    · rename_i cs hcs
      exact absurd (isDigit_of_mem_repr (n := n) (hcs ▸ List.mem_cons_self)) (by decide)
    · rw [if_pos hdigits, hvalue]
  simp only [Json.int32, Json.integer, hliteral]
  rw [if_pos (by omega)]

theorem mapM_int32 {items : List (String × Json)} {rs : List Nat}
    (hitems : items.map (·.2) = rs.map fun r => Json.num r.repr)
    (hrs : ∀ r ∈ rs, r ≤ 2147483647) :
    (items.mapM fun i => Json.int32 "value" i.2) = .ok (rs.map fun r : Nat => (r : Int)) := by
  induction items generalizing rs with
  | nil =>
      obtain rfl : rs = [] := by simpa using hitems.symm
      rfl
  | cons item rest ih =>
      cases rs with
      | nil => cases hitems
      | cons r rs =>
          obtain ⟨hitem, hrest⟩ := List.cons.inj hitems
          have hr := int32_repr (hrs r List.mem_cons_self) "value"
          rw [List.mapM_cons, show item.2 = _ from hitem, hr,
            ih hrest fun x hx => hrs x (List.mem_cons_of_mem r hx)]
          rfl

/-! ## Rank sets -/

theorem sorted_eq {S : Finset Nat} {rd : Rendering} (hof : rd.Of S) :
    (rd.ranks.map fun r : Nat => (r : Int)).insertionSort (· ≤ ·) =
      (S.sort (· ≤ ·)).map fun r : Nat => (r : Int) := by
  have hperm : rd.ranks.Perm (S.sort (· ≤ ·)) :=
    (List.perm_ext_iff_of_nodup hof.nodup (S.sort_nodup _)).2 fun r => by
      rw [hof.mem, Finset.mem_sort]
  have hsorted : ((S.sort (· ≤ ·)).map fun r : Nat => (r : Int)).Pairwise (· ≤ ·) :=
    (S.pairwise_sort _).map _ fun _ _ h => Int.ofNat_le.2 h
  exact ((List.perm_insertionSort _ _).trans (hperm.map _)).eq_of_pairwise
    (fun _ _ _ _ => le_antisymm) (List.pairwise_insertionSort _ _) hsorted

theorem raw_ne_of_shows {rd : Rendering} {raw : String} {v : Json}
    (hparse : Json.parse raw = .ok v) (hshows : rd.Shows v) : raw ≠ "" ∧ raw ≠ "null" := by
  constructor
  · rintro rfl
    cases hparse
  · rintro rfl
    have hnull : v = .null := (Except.ok.inj hparse).symm
    subst hnull
    cases rd <;> cases hshows

/-- Rank sets are read back exactly, unless a range ends in the largest rank. -/
theorem ranks_exact_iff (S : Finset Nat) (hS : ∀ r ∈ S, r ≤ 2147483647) (rd : Rendering)
    (hof : rd.Of S) (raw : String) (v : Json) (hparse : Json.parse raw = .ok v)
    (hshows : rd.Shows v) :
    ranks raw = some ((S.sort (· ≤ ·)).map fun r : Nat => (r : Int)) ↔ rd.Finishes := by
  rw [← sorted_eq hof]
  have hraw := raw_ne_of_shows hparse hshows
  have hbound : ∀ r ∈ rd.ranks, r ≤ 2147483647 := fun r hr => hS r ((hof.mem r).1 hr)
  unfold ranks
  rw [if_neg (by simp [hraw]), hparse]
  cases rd with
  | array rs =>
      cases v with
      | arr items =>
          simp only [Json.slice, mapM_int32 hshows hbound]
          exact iff_of_true rfl trivial
      | _ => cases hshows
  | text items bracketed =>
      cases v with
      | str s =>
          obtain rfl : s = Rendering.itemsText items bracketed := hshows
          change ranksOfText (Rendering.itemsText items bracketed) = _ ↔ _
          rw [ranksOfText_itemsText]
          obtain ⟨hreads, hhangs⟩ := mapM_rankPart hof.ordered fun i hi r hr =>
            hbound r (List.mem_flatMap.2 ⟨i, hi, hr⟩)
          by_cases hfinishes : ∀ i ∈ items, ¬i.EndsInLargest
          · rw [hreads hfinishes]
            refine iff_of_true ?_ hfinishes
            rw [Option.map_some, ← List.flatMap_def, Rendering.ranks, List.map_flatMap]
          · have hends : ∃ i ∈ items, i.EndsInLargest := by simpa using hfinishes
            rw [hhangs hends]
            exact iff_of_false nofun hfinishes
      | _ => cases hshows

/-- `"[0-3,5]"` is read as five ranks. -/
theorem ranks_exact_example :
    ranks "\"[0-3,5]\"" = some ((({0, 1, 2, 3, 5} : Finset Nat).sort (· ≤ ·)).map
      fun r : Nat => (r : Int)) :=
  (ranks_exact_iff {0, 1, 2, 3, 5} (by decide) (.text [.range 0 3, .one 5] true)
    ⟨by decide, by simp [Rendering.ranks, RankItem.ranks, List.range'],
      by simp [Rendering.Ordered, RankItem.Ordered]⟩
    "\"[0-3,5]\"" (.str "[0-3,5]") rfl (show "[0-3,5]" = _ by decide)).2
    (by simp [Rendering.Finishes, RankItem.EndsInLargest])

/-- The two largest ranks as a range are never read to the end. -/
theorem largest_rank_hangs :
    (Rendering.text [.range 2147483646 2147483647] true).Of {2147483646, 2147483647} ∧
      (∃ v, Json.parse "\"[2147483646-2147483647]\"" = .ok v ∧
        (Rendering.text [.range 2147483646 2147483647] true).Shows v) ∧
      ranks "\"[2147483646-2147483647]\"" = none := by
  refine ⟨⟨by decide, ?_, ?_⟩, ⟨.str "[2147483646-2147483647]", rfl, ?_⟩, by decide +kernel⟩
  · intro r
    simp [Rendering.ranks, RankItem.ranks, List.range']
  · simp [Rendering.Ordered, RankItem.Ordered]
  · change "[2147483646-2147483647]" = _
    decide

end DaosOperator.Dmg
