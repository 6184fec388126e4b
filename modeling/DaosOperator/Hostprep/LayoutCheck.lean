import DaosOperator.Hostprep.BdevLayout
import Mathlib.Data.List.Dedup

/-!
# A changed storage layout is found

The text form of the layouts is read back as it was, although its separators occur in
device names as well, and the check reports an engine exactly where the devices of its
format are not the devices its configuration lists.
-/

namespace DaosOperator.Hostprep

open Effect

variable {l : BdevLayout} {e : Render.Engine} {engines : List Render.Engine}
  {m : Table Int BdevLayout} {files : String → FileRead}

/-! ## Layouts that the text form can carry -/

/-- A layout whose text form is read back. -/
structure BdevLayout.Sound (l : BdevLayout) : Prop where
  kind : l.kind = "nvme" ∨ l.kind = "aio"
  some : l.devices ≠ []
  plain : ∀ d ∈ l.devices, ',' ∉ d.toList
  sorted : l.devices.Pairwise (· ≤ ·)

theorem BdevLayout.Sound.notMem (h : l.Sound) {c : Char}
    (hc : c ∉ "nvme".toList ∧ c ∉ "aio".toList) : c ∉ l.kind.toList := by
  rcases h.kind with hk | hk
  · rw [hk]
    exact hc.1
  · rw [hk]
    exact hc.2

theorem parsePart_formatPart {e : Int × BdevLayout} (hindex : Text.inInt64 e.1 = true)
    (hl : e.2.Sound) (hdevices : ∀ d ∈ e.2.devices, d ≠ "") :
    parsePart (formatPart e) = some e := by
  have hindexCut : Text.cut (formatPart e) '=' =
      some (toString e.1, e.2.kind ++ ":" ++ Text.join e.2.devices ",") := by
    have hform : formatPart e =
        toString e.1 ++ "=" ++ (e.2.kind ++ ":" ++ Text.join e.2.devices ",") := by
      simp only [formatPart, String.append_assoc]
    rw [hform]
    exact Text.cut_append rfl (Text.notMem_toString_int (by decide) (by decide))
  have hkindCut : Text.cut (e.2.kind ++ ":" ++ Text.join e.2.devices ",") ':' =
      some (e.2.kind, Text.join e.2.devices ",") :=
    Text.cut_append rfl (hl.notMem (by decide))
  have hsplit : Text.split (Text.join e.2.devices ",") ',' = e.2.devices :=
    Text.split_join rfl hl.some hl.plain
  have hne : Text.join e.2.devices "," ≠ "" := Text.join_ne_empty hl.some hdevices
  simp only [parsePart, hindexCut, hkindCut, Text.atoi_toString hindex, hsplit, if_neg hne,
    Text.sortStrings_of_pairwise hl.sorted, Option.bind_eq_bind, Option.bind_some]

/-- The text of a stored layout determines it. -/
theorem BdevLayout.equal_iff {o : BdevLayout} (hl : l.Sound) (ho : o.Sound) :
    l.equal o = true ↔ l.kind = o.kind ∧ l.devices.Perm o.devices := by
  have hcut (l : BdevLayout) (h : l.Sound) :
      Text.cut l.text ' ' = some (l.kind, Text.join l.devices ",") :=
    Text.cut_append rfl (h.notMem (by decide))
  simp only [BdevLayout.equal, decide_eq_true_eq]
  constructor
  · intro htext
    have hsame := hcut l hl
    rw [htext, hcut o ho, Option.some_inj, Prod.mk.injEq] at hsame
    refine ⟨hsame.1.symm, ?_⟩
    have hdevices : Text.split (Text.join l.devices ",") ',' = l.devices :=
      Text.split_join rfl hl.some hl.plain
    rw [← hsame.2, Text.split_join rfl ho.some ho.plain] at hdevices
    rw [hdevices]
  · rintro ⟨hkind, hperm⟩
    have hdevices : l.devices = o.devices := hperm.eq_of_pairwise' hl.sorted ho.sorted
    rw [BdevLayout.text, BdevLayout.text, hkind, hdevices]

/-- What the check understands is a layout of one kind. -/
theorem sound_readBdevLayout {text : String} (h : readBdevLayout text = some l)
    (hplain : ∀ d ∈ l.devices, ',' ∉ d.toList) : l.Sound := by
  obtain ⟨methods, hmethods⟩ : ∃ methods, layoutOfMethods methods = some l := by
    unfold readBdevLayout at h
    split at h
    · cases h
    · split at h
      · cases h
      · exact ⟨_, h⟩
  unfold layoutOfMethods at hmethods
  split at hmethods
  · cases hmethods
  simp only at hmethods
  split at hmethods
  · next kind hkinds =>
      cases hmethods
      have hmem : kind ∈ (methods.filterMap (·.device?)).map (·.1) :=
        List.mem_dedup.mp (hkinds ▸ List.mem_singleton.mpr rfl)
      obtain ⟨⟨k, d⟩, hd, rfl⟩ := List.mem_map.mp hmem
      refine ⟨?_, ?_, hplain, Text.pairwise_sortStrings _⟩
      · obtain ⟨m, -, hm⟩ := List.mem_filterMap.mp hd
        unfold SpdkMethod.device? at hm
        split_ifs at hm
        · cases hm
          exact .inr rfl
        · cases hm
          exact .inl rfl
      · intro hnil
        have hdevice : d ∈ Text.sortStrings ((methods.filterMap (·.device?)).map (·.2)) :=
          Text.mem_sortStrings.mpr (List.mem_map.mpr ⟨_, hd, rfl⟩)
        have hnil' : Text.sortStrings ((methods.filterMap (·.device?)).map (·.2)) = [] := hnil
        rw [hnil'] at hdevice
        cases hdevice
  · cases hmethods

/-! ## The layouts of a configuration -/

theorem kindOf_ne_empty {cls : String} (h : kindOf cls ≠ "") :
    kindOf cls = "nvme" ∨ kindOf cls = "aio" := by
  unfold kindOf at h ⊢
  split_ifs at h ⊢
  · exact .inl rfl
  · exact .inr rfl
  · exact absurd rfl h

/-- The loop keeps one kind and collects the devices of all tiers. -/
theorem foldlM_addTier {tiers : List (String × List String)} {acc : BdevLayout}
    (h : tiers.foldlM addTier acc = some l) :
    l.devices = acc.devices ++ tiers.flatMap (·.2) ∧ (∀ t ∈ tiers, kindOf t.1 = l.kind) ∧
      (acc.kind ≠ "" → acc.kind = l.kind) := by
  induction tiers generalizing acc with
  | nil =>
      cases h
      simp
  | cons t tiers ih =>
      rw [List.foldlM_cons] at h
      cases hadd : addTier acc t with
      | none =>
          rw [hadd] at h
          cases h
      | some acc' =>
          rw [hadd] at h
          obtain ⟨hdevices, hkinds, hkind⟩ := ih h
          unfold addTier at hadd
          simp only at hadd
          split_ifs at hadd with hbad
          cases hadd
          rw [not_or, not_and, not_not] at hbad
          have hsame : kindOf t.1 = l.kind := hkind hbad.1
          refine ⟨by simp [hdevices], ?_, fun hne => (hbad.2 hne).trans hsame⟩
          intro t' ht'
          rcases List.mem_cons.mp ht' with rfl | ht'
          · exact hsame
          · exact hkinds t' ht'

/-- The layout of an engine: the one kind of its tiers, and all their devices. -/
theorem engineLayout_spec (h : engineLayout e = some l) :
    (∀ t ∈ listedTiers e, kindOf t.1 = l.kind) ∧ l.kind ≠ "" ∧ l.devices ≠ [] ∧
      l.devices = Text.sortStrings ((listedTiers e).flatMap (·.2)) := by
  unfold engineLayout at h
  cases hfold : (listedTiers e).foldlM addTier {} with
  | none => simp [hfold] at h
  | some acc =>
      obtain ⟨hdevices, hkinds, -⟩ := foldlM_addTier hfold
      simp only [hfold] at h
      split_ifs at h with hsome
      cases h
      refine ⟨hkinds, hsome.1, ?_, by rw [hdevices]; rfl⟩
      intro hnil
      have hnil' : Text.sortStrings acc.devices = [] := hnil
      exact hsome.2 (List.perm_nil.mp (hnil' ▸ (Text.perm_sortStrings acc.devices).symm))

theorem listedTiers_ne_nil (e : Render.Engine) : listedTiers e ≠ [] := by
  unfold listedTiers
  split
  · simp
  · next h => simpa using h

/-- Engines whose layouts the text form carries. -/
structure WellListed (engines : List Render.Engine) : Prop where
  distinct : (engines.map (·.index)).Nodup
  /-- The range of the source's `int`. -/
  range : ∀ e ∈ engines, Text.inInt64 e.index = true
  devices : ∀ e ∈ engines, ∀ t ∈ listedTiers e, ∀ d ∈ t.2,
    d ≠ "" ∧ ',' ∉ d.toList ∧ ';' ∉ d.toList

theorem WellListed.device (h : WellListed engines) (he : e ∈ engines) (hl : engineLayout e = some l)
    {d : String} (hd : d ∈ l.devices) : d ≠ "" ∧ ',' ∉ d.toList ∧ ';' ∉ d.toList := by
  rw [(engineLayout_spec hl).2.2.2, Text.mem_sortStrings] at hd
  obtain ⟨t, ht, hdt⟩ := List.mem_flatMap.mp hd
  exact h.devices e he t ht d hdt

theorem WellListed.sound (h : WellListed engines) (he : e ∈ engines)
    (hl : engineLayout e = some l) : l.Sound := by
  obtain ⟨hkinds, hkind, hsome, hdevices⟩ := engineLayout_spec hl
  refine ⟨?_, hsome, fun d hd => (h.device he hl hd).2.1, ?_⟩
  · obtain ⟨t, ht⟩ := List.exists_mem_of_ne_nil _ (listedTiers_ne_nil e)
    rw [← hkinds t ht] at hkind ⊢
    exact kindOf_ne_empty hkind
  · rw [hdevices]
    exact Text.pairwise_sortStrings _

/-- With distinct indices an entry of the table is the layout of its engine. -/
theorem get_engineBdevLayouts
    (h : (engines.map (·.index)).Nodup) {i : Int} :
    (engineBdevLayouts engines).get i = some l ↔
      ∃ e ∈ engines, e.index = i ∧ engineLayout e = some l := by
  have hfold (m : Table Int BdevLayout) (hnone : ∀ e ∈ engines, m.get e.index = none) :
      (engines.foldl addEngine m).get i = some l ↔
        m.get i = some l ∨ ∃ e ∈ engines, e.index = i ∧ engineLayout e = some l := by
    induction engines generalizing m with
    | nil => simp
    | cons e rest ih =>
        rw [List.map_cons, List.nodup_cons] at h
        have hother : ∀ e' ∈ rest, e'.index ≠ e.index := fun e' he' heq =>
          h.1 (heq ▸ List.mem_map.mpr ⟨e', he', rfl⟩)
        rw [List.foldl_cons, addEngine]
        cases hlayout : engineLayout e with
        | none =>
            simp only
            rw [ih h.2 m fun e' he' => hnone e' (List.mem_cons_of_mem _ he')]
            simp [hlayout]
        | some l' =>
            simp only
            rw [ih h.2 (m.put e.index (some l')) fun e' he' => by
              rw [Table.get_put_of_ne _ (hother e' he')]
              exact hnone e' (List.mem_cons_of_mem _ he')]
            have hfree := hnone e List.mem_cons_self
            rw [Table.get_put]
            by_cases hi : i = e.index
            · subst hi
              simp [hlayout, hfree]
            · simp [hi, Ne.symm hi]
  have hall := hfold Table.empty fun _ _ => rfl
  simpa [engineBdevLayouts] using hall

/-! ## The text form is read back -/

def SameLayouts (m m' : Table Int BdevLayout) : Prop := ∀ i, m.get i = m'.get i

theorem mem_sortedEntries {e : Int × BdevLayout} :
    e ∈ sortedEntries m ↔ m.get e.1 = some e.2 := by
  rw [sortedEntries, List.mem_insertionSort]
  exact Table.mem_entries

theorem get_foldl_put (entries : List (Int × BdevLayout)) (m : Table Int BdevLayout)
    {i : Int}
    (hone : ∀ e ∈ entries, ∀ e' ∈ entries, e.1 = e'.1 → e = e') :
    (entries.foldl (fun m e => m.put e.1 (some e.2)) m).get i = some l ↔
      (i, l) ∈ entries ∨ (∀ e ∈ entries, e.1 ≠ i) ∧ m.get i = some l := by
  induction entries generalizing m with
  | nil => simp
  | cons e rest ih =>
      rw [List.foldl_cons, ih _ fun a ha b hb => hone a (.tail _ ha) b (.tail _ hb), Table.get_put]
      by_cases hi : i = e.1
      · subst hi
        constructor
        · rintro (hmem | ⟨-, hl⟩)
          · exact .inl (.tail _ hmem)
          · rw [if_pos rfl, Option.some_inj] at hl
            exact .inl (hl ▸ .head _)
        · rintro (hmem | ⟨hne, -⟩)
          · have hsame := hone _ hmem e List.mem_cons_self rfl
            by_cases hrest : (e.1, l) ∈ rest
            · exact .inl hrest
            · refine .inr ⟨fun a ha heq => hrest ?_, by rw [if_pos rfl, ← hsame]⟩
              rw [hsame, ← hone a (.tail _ ha) e List.mem_cons_self heq]
              exact ha
          · exact absurd rfl (hne e List.mem_cons_self)
      · have hpair : (i, l) ≠ e := fun h => hi (congrArg Prod.fst h)
        simp [hi, hpair, Ne.symm hi]

theorem parse_format
    (h : ∀ i l, m.get i = some l → Text.inInt64 i = true ∧ l.Sound ∧
      ∀ d ∈ l.devices, d ≠ "" ∧ ';' ∉ d.toList) :
    ∃ m', parseBdevLayouts (formatBdevLayouts m) = .ok m' ∧ SameLayouts m' m := by
  have hentry : ∀ e ∈ sortedEntries m, Text.inInt64 e.1 = true ∧ e.2.Sound ∧
      ∀ d ∈ e.2.devices, d ≠ "" ∧ ';' ∉ d.toList :=
    fun e he => h e.1 e.2 (mem_sortedEntries.mp he)
  -- reading the parts of some of the entries, from any table
  have hread (entries : List (Int × BdevLayout)) (hentries : ∀ e ∈ entries, e ∈ sortedEntries m)
      (m₀ : Table Int BdevLayout) :
      (entries.map formatPart).foldlM addPart m₀ =
        .ok (entries.foldl (fun m e => m.put e.1 (some e.2)) m₀) := by
    induction entries generalizing m₀ with
    | nil => rfl
    | cons e rest ih =>
        obtain ⟨hrange, hsound, hdevices⟩ := hentry e (hentries e List.mem_cons_self)
        have hparse := parsePart_formatPart hrange hsound fun d hd => (hdevices d hd).1
        have hne : formatPart e ≠ "" := by
          intro hempty
          rw [hempty] at hparse
          cases hparse
        rw [List.map_cons, List.foldlM_cons, addPart, if_neg hne, hparse]
        exact ih (fun a ha => hentries a (.tail _ ha)) _
  have hone : ∀ e ∈ sortedEntries m, ∀ e' ∈ sortedEntries m, e.1 = e'.1 → e = e' := by
    intro e he e' he' heq
    have hget := mem_sortedEntries.mp he
    rw [heq, mem_sortedEntries.mp he', Option.some_inj] at hget
    exact Prod.ext heq hget.symm
  refine ⟨(sortedEntries m).foldl (fun m e => m.put e.1 (some e.2)) Table.empty, ?_, ?_⟩
  · by_cases hnil : sortedEntries m = []
    · simp only [parseBdevLayouts, formatBdevLayouts, hnil]
      rfl
    · have hsplit : Text.split (formatBdevLayouts m) ';' = (sortedEntries m).map formatPart := by
        refine Text.split_join rfl (by simpa using hnil) fun s hs => ?_
        obtain ⟨e, he, rfl⟩ := List.mem_map.mp hs
        obtain ⟨-, hsound, hdevices⟩ := hentry e he
        have hindex : ';' ∉ (toString e.1).toList :=
          Text.notMem_toString_int (by decide) (by decide)
        have hkind : ';' ∉ e.2.kind.toList := hsound.notMem (by decide)
        have hjoin : ';' ∉ (Text.join e.2.devices ",").toList :=
          Text.notMem_join (by decide) fun d hd => (hdevices d hd).2
        simp only [formatPart, String.toList_append, List.mem_append, not_or]
        exact ⟨⟨⟨⟨hindex, by decide⟩, hkind⟩, by decide⟩, hjoin⟩
      rw [parseBdevLayouts, hsplit]
      exact hread _ (fun _ h => h) _
  · intro i
    refine Option.ext fun l => ?_
    have hget := get_foldl_put (sortedEntries m) Table.empty (i := i) (l := l) hone
    simpa [mem_sortedEntries] using hget

/-! ## What the check reports -/

/-- The file of an engine is there and cannot be read. -/
def Unreadable (files : String → FileRead) (i : Int) : Prop :=
  ∃ error, files (confPath i) = .failed error

/-- The line of an engine, when its format was for other devices. -/
def changed? (files : String → FileRead) (e : Int × BdevLayout) : Option String :=
  match files (confPath e.1) with
  | .content text =>
      match readBdevLayout text with
      | some l => if l.equal e.2 then none else some (changedLine e.1 l e.2)
      | none => none
  | _ => none

theorem changed?_eq_some {e : Int × BdevLayout} {line : String} :
    changed? files e = some line ↔ ∃ text l, files (confPath e.1) = .content text ∧
      readBdevLayout text = some l ∧ l.equal e.2 = false ∧ line = changedLine e.1 l e.2 := by
  unfold changed?
  constructor
  · intro h
    split at h
    · next text hfile =>
        split at h
        · next l hread =>
            split_ifs at h with hequal
            cases h
            exact ⟨text, l, hfile, hread, by simpa using hequal, rfl⟩
        · cases h
    · cases h
  · rintro ⟨text, l, hfile, hread, hequal, rfl⟩
    simp [hfile, hread, hequal]

theorem checkEngine_eq {e : Int × BdevLayout}
    (h : ¬Unreadable files e.1) (bad : List String) :
    checkEngine files bad e = .ok (bad ++ (changed? files e).toList) := by
  unfold checkEngine changed?
  cases hfile : files (confPath e.1) with
  | missing => simp
  | failed error => exact absurd ⟨error, hfile⟩ h
  | content text =>
      cases hread : readBdevLayout text with
      | none => simp [hread]
      | some l =>
          simp only [hread]
          split_ifs
          · simp
          · simp

/-- Where every file can be read, the check lists the engines that changed. -/
theorem check_ok
    (h : ∀ i l, m.get i = some l → ¬Unreadable files i) :
    checkBdevLayouts files m = .ok ((sortedEntries m).filterMap (changed? files)) := by
  have hloop (entries : List (Int × BdevLayout)) (hentries : ∀ e ∈ entries, ¬Unreadable files e.1)
      (bad : List String) :
      entries.foldlM (checkEngine files) bad = .ok (bad ++ entries.filterMap (changed? files)) := by
    induction entries generalizing bad with
    | nil => simp [pure, Except.pure]
    | cons e rest ih =>
        rw [List.foldlM_cons, checkEngine_eq (hentries e List.mem_cons_self)]
        have hrest := ih (fun a ha => hentries a (.tail _ ha)) (bad ++ (changed? files e).toList)
        rw [show (Except.ok (bad ++ (changed? files e).toList) >>= fun bad =>
          rest.foldlM (checkEngine files) bad) =
            rest.foldlM (checkEngine files) (bad ++ (changed? files e).toList) from rfl, hrest]
        cases hchanged : changed? files e <;> simp [hchanged]
  exact hloop _ (fun e he => h e.1 e.2 (mem_sortedEntries.mp he)) []

theorem check_error {i : Int} (hi : m.get i = some l) (h : Unreadable files i) :
    ∃ error, checkBdevLayouts files m = .error error := by
  have hloop (entries : List (Int × BdevLayout)) (hmem : (i, l) ∈ entries) (bad : List String) :
      ∃ error, entries.foldlM (checkEngine files) bad = .error error := by
    induction entries generalizing bad with
    | nil => cases hmem
    | cons e rest ih =>
        rw [List.foldlM_cons]
        cases hcheck : checkEngine files bad e with
        | error error => exact ⟨error, rfl⟩
        | ok bad' =>
            rcases List.mem_cons.mp hmem with rfl | hrest
            · obtain ⟨error, hfile⟩ := h
              simp [checkEngine, hfile] at hcheck
            · exact ih hrest bad'
  exact hloop _ (mem_sortedEntries.mpr hi) []

def Reports (bad : List String) (i : Int) : Prop := ∃ l want, changedLine i l want ∈ bad

theorem changedLine_index {i j : Int} {want l' want' : BdevLayout}
    (h : changedLine i l want = changedLine j l' want') : i = j := by
  have hcut (i : Int) (l want : BdevLayout) :
      Text.cut (changedLine i l want) ':' = some ("engine " ++ toString i,
        " control_metadata was formatted for " ++ l.text ++ ", the config asks for " ++
        want.text) := by
    have hform : changedLine i l want = "engine " ++ toString i ++ ":" ++
        (" control_metadata was formatted for " ++ l.text ++ ", the config asks for " ++
          want.text) := by
      simp only [changedLine, String.append_assoc]
      rfl
    rw [hform]
    refine Text.cut_append rfl ?_
    rw [String.toList_append, List.mem_append, not_or]
    exact ⟨by decide, Text.notMem_toString_int (by decide) (by decide)⟩
  have hsame := hcut i l want
  rw [h, hcut j l' want', Option.some_inj, Prod.mk.injEq] at hsame
  have hlist := congrArg String.toList hsame.1
  simp only [String.toList_append] at hlist
  exact (Text.toString_injective (String.toList_inj.mp (List.append_cancel_left hlist))).symm

theorem reports_iff {i : Int} :
    Reports ((sortedEntries m).filterMap (changed? files)) i ↔ ∃ want text l,
      m.get i = some want ∧ files (confPath i) = .content text ∧ readBdevLayout text = some l ∧
        l.equal want = false := by
  constructor
  · rintro ⟨l, want, hline⟩
    obtain ⟨⟨j, want'⟩, hmem, hchanged⟩ := List.mem_filterMap.mp hline
    obtain ⟨text, l', hfile, hread, hequal, heq⟩ := changed?_eq_some.mp hchanged
    obtain rfl := changedLine_index heq
    exact ⟨want', text, l', mem_sortedEntries.mp hmem, hfile, hread, hequal⟩
  · rintro ⟨want, text, l, hget, hfile, hread, hequal⟩
    refine ⟨l, want, List.mem_filterMap.mpr ⟨(i, want), mem_sortedEntries.mpr hget, ?_⟩⟩
    exact changed?_eq_some.mpr ⟨text, l, hfile, hread, hequal, rfl⟩

/-! ## Against the rendered configuration -/

/-- The engine, as its configuration lists it, is not what it was formatted for. -/
def LayoutChanged (e : Render.Engine) (l : BdevLayout) : Prop :=
  (∃ t ∈ listedTiers e, kindOf t.1 ≠ l.kind) ∨
    ¬l.devices.Perm ((listedTiers e).flatMap (·.2))

theorem rendered_tiers {e' : Render.Engine} (h : Render.checkEngine e = .ok e') :
    e'.index = e.index ∧ ∀ l, engineLayout e = some l → listedTiers e' = listedTiers e := by
  have hclass (cls : String) (hkind : kindOf cls ≠ "") :
      (if cls = "" then "nvme" else cls) = cls := by
    refine if_neg fun hempty => hkind ?_
    rw [hempty]
    rfl
  unfold Render.checkEngine at h
  simp only at h
  by_cases hfabric : e.fabricIface = ""
  · rw [if_pos hfabric] at h
    cases h
  rw [if_neg hfabric] at h
  by_cases htiers : e.tiers.isEmpty = true
  · rw [if_pos htiers] at h
    by_cases hbdevs : e.bdevs.isEmpty = true
    · rw [if_pos hbdevs] at h
      cases h
    rw [if_neg hbdevs] at h
    cases h
    refine ⟨rfl, fun l hl => ?_⟩
    obtain ⟨hkinds, hkind, -, -⟩ := engineLayout_spec hl
    simp only [listedTiers, htiers, if_true] at hkinds ⊢
    rw [← hkinds _ List.mem_cons_self] at hkind
    rw [hclass e.bdevClass hkind]
  · rw [if_neg htiers] at h
    cases hseen : e.tiers.zipIdx.foldlM (Render.checkTier e.index) [] with
    | error error => simp [hseen, bind, Except.bind] at h
    | ok seen =>
        simp only [hseen, bind, Except.bind] at h
        split at h
        · cases h
        · cases h
          refine ⟨rfl, fun l hl => ?_⟩
          obtain ⟨hkinds, hkind, -, -⟩ := engineLayout_spec hl
          simp only [listedTiers, htiers, List.isEmpty_map, Bool.false_eq_true, if_false,
            List.map_map] at hkinds ⊢
          refine List.map_congr_left fun t ht => ?_
          have htkind := hkinds (t.cls, t.bdevs) (List.mem_map.mpr ⟨t, ht, rfl⟩)
          simp only [Function.comp_apply]
          rw [hclass t.cls (by rw [htkind]; exact hkind)]

theorem exists_rendered {rendered : List Render.Engine}
    (h : engines.mapM Render.checkEngine = .ok rendered) :
    ∀ e ∈ engines, ∃ e' ∈ rendered, Render.checkEngine e = .ok e' := by
  induction engines generalizing rendered with
  | nil => simp
  | cons e rest ih =>
      rw [List.mapM_cons] at h
      cases he : Render.checkEngine e with
      | error error =>
          rw [he] at h
          cases h
      | ok e' =>
          cases hrest : rest.mapM Render.checkEngine with
          | error error =>
              rw [he, hrest] at h
              cases h
          | ok rest' =>
              rw [he, hrest] at h
              cases h
              intro a ha
              rcases List.mem_cons.mp ha with rfl | ha
              · exact ⟨e', List.mem_cons_self, he⟩
              · obtain ⟨a', ha', hcheck⟩ := ih hrest a ha
                exact ⟨a', List.mem_cons_of_mem _ ha', hcheck⟩

theorem server_engines {c rendered : Render.ServerConfig} (h : Render.server c = .ok rendered) :
    c.engines.mapM Render.checkEngine = .ok rendered.engines := by
  unfold Render.server at h
  split at h
  · cases h
  · cases hengines : c.engines.mapM Render.checkEngine with
    | error error => simp [hengines, Except.map] at h
    | ok engines =>
        rw [hengines] at h
        cases h
        rfl

/-- The stored device names hold no separator. -/
def PlainStored (files : String → FileRead) : Prop :=
  ∀ path text l, files path = .content text → readBdevLayout text = some l →
    ∀ d ∈ l.devices, ',' ∉ d.toList

/-- The text comparison finds exactly the changes against the listed tiers. -/
theorem equal_eq_false_iff {want : BdevLayout}
    (hlayout : engineLayout e = some want) (hwant : want.Sound) (hl : l.Sound) :
    l.equal want = false ↔ LayoutChanged e l := by
  obtain ⟨hkinds, -, -, hdevices⟩ := engineLayout_spec hlayout
  have hperm : l.devices.Perm want.devices ↔ l.devices.Perm ((listedTiers e).flatMap (·.2)) := by
    rw [hdevices]
    exact ⟨fun h => h.trans (Text.perm_sortStrings _),
      fun h => h.trans (Text.perm_sortStrings _).symm⟩
  have hkind : (∃ t ∈ listedTiers e, kindOf t.1 ≠ l.kind) ↔ l.kind ≠ want.kind := by
    constructor
    · rintro ⟨t, ht, hne⟩ heq
      exact hne ((hkinds t ht).trans heq.symm)
    · intro hne
      obtain ⟨t, ht⟩ := List.exists_mem_of_ne_nil _ (listedTiers_ne_nil e)
      exact ⟨t, ht, fun h => hne (h.symm.trans (hkinds t ht))⟩
  rw [← Bool.not_eq_true, BdevLayout.equal_iff hl hwant, LayoutChanged, hkind, ← hperm, not_and_or]

/-- The check reports exactly the engines whose stored layout is not the one the rendered
file lists. -/
def ReportsChanges (rendered : Render.ServerConfig) (files : String → FileRead)
    (m : Table Int BdevLayout) : Prop :=
  ∃ bad, checkBdevLayouts files m = .ok bad ∧ ∀ i, Reports bad i ↔
    (m.get i).isSome = true ∧ ∃ text l, files (confPath i) = .content text ∧
      readBdevLayout text = some l ∧ ∃ e ∈ rendered.engines, e.index = i ∧ LayoutChanged e l

theorem reportsChanges {c rendered : Render.ServerConfig} (hwell : WellListed c.engines)
    (hserver : Render.server c = .ok rendered) (hstored : PlainStored files)
    (hm : SameLayouts m (engineBdevLayouts c.engines))
    (hread : ∀ i l, m.get i = some l → ¬Unreadable files i) :
    ReportsChanges rendered files m := by
  have hengines := server_engines hserver
  refine ⟨_, check_ok hread, fun i => ?_⟩
  rw [reports_iff]
  constructor
  · rintro ⟨want, text, l, hget, hfile, hlayout, hequal⟩
    refine ⟨by rw [hget]; rfl, text, l, hfile, hlayout, ?_⟩
    obtain ⟨e, he, rfl, hwant⟩ := (get_engineBdevLayouts hwell.distinct).mp ((hm i).symm.trans hget)
    obtain ⟨e', he', hcheck⟩ := exists_rendered hengines e he
    obtain ⟨hindex, htiers⟩ := rendered_tiers hcheck
    refine ⟨e', he', hindex, ?_⟩
    have hl := sound_readBdevLayout hlayout (hstored _ _ _ hfile hlayout)
    rw [LayoutChanged, htiers want hwant]
    exact (equal_eq_false_iff hwant (hwell.sound he hwant) hl).mp hequal
  · rintro ⟨hsome, text, l, hfile, hlayout, e', he', hindex, hchanged⟩
    obtain ⟨want, hget⟩ := Option.isSome_iff_exists.mp hsome
    obtain ⟨e, he, hi, hwant⟩ := (get_engineBdevLayouts hwell.distinct).mp ((hm i).symm.trans hget)
    obtain ⟨a, ha, hcheck⟩ := Json.exists_of_mem_mapM hengines e' he'
    obtain ⟨hindex', htiers⟩ := rendered_tiers hcheck
    -- the rendered engine is the rendering of the engine with the layout
    obtain rfl : a = e := List.inj_on_of_nodup_map hwell.distinct ha he
      (hindex'.symm.trans (hindex.trans hi.symm))
    rw [LayoutChanged, htiers want hwant] at hchanged
    have hl := sound_readBdevLayout hlayout (hstored _ _ _ hfile hlayout)
    exact ⟨want, text, l, hget, hfile, hlayout,
      (equal_eq_false_iff hwant (hwell.sound he hwant) hl).mpr hchanged⟩

/-- The layouts of a configuration survive their text form, and on what is read back the
check fails where a file cannot be read and otherwise reports exactly the changes. -/
theorem layout_changes_found (engines : List Render.Engine) (hwell : WellListed engines) :
    ∃ m, parseBdevLayouts (formatBdevLayouts (engineBdevLayouts engines)) = .ok m ∧
      SameLayouts m (engineBdevLayouts engines) ∧
      ∀ (c rendered : Render.ServerConfig) (files : String → FileRead), c.engines = engines →
        Render.server c = .ok rendered → PlainStored files →
        ((∃ i, (m.get i).isSome = true ∧ Unreadable files i) →
          ∃ error, checkBdevLayouts files m = .error error) ∧
        (¬(∃ i, (m.get i).isSome = true ∧ Unreadable files i) →
          ReportsChanges rendered files m) := by
  obtain ⟨m, hparse, hsame⟩ := parse_format (m := engineBdevLayouts engines) fun i l hget => by
    obtain ⟨e, he, rfl, hl⟩ := (get_engineBdevLayouts hwell.distinct).mp hget
    refine ⟨hwell.range e he, hwell.sound he hl, fun d hd => ?_⟩
    have hd' := hwell.device he hl hd
    exact ⟨hd'.1, hd'.2.2⟩
  refine ⟨m, hparse, hsame, ?_⟩
  rintro c rendered files rfl hserver hstored
  constructor
  · rintro ⟨i, hsome, hunreadable⟩
    obtain ⟨l, hget⟩ := Option.isSome_iff_exists.mp hsome
    exact check_error hget hunreadable
  · intro hreadable
    refine reportsChanges hwell hserver hstored hsame fun i l hget hunreadable => hreadable ?_
    exact ⟨i, by rw [hget]; rfl, hunreadable⟩

def kernelEngine (index : Int) (device : String) : Render.Engine where
  index := index
  targets := 8
  helpers := 2
  fabricIface := "eth0"
  fabricPort := 31316
  pinnedNuma := none
  scmSizeGiB := 32
  bdevs := [device]
  bdevClass := "kdev"
  bdevSizeGiB := 0
  tiers := []

/-- The first engine was formatted on another device; the file of the second cannot be
read. -/
def changedAndUnreadable (path : String) : FileRead :=
  if path = "daos_control/engine0/daos_nvme.conf" then
    .content ("\x7b\"subsystems\":[\x7b\"config\":[\x7b\"method\":\"bdev_aio_create\"," ++
      "\"params\":\x7b\"filename\":\"/dev/sdb\"\x7d\x7d]\x7d]\x7d")
  else if path = "daos_control/engine1/daos_nvme.conf" then .failed "input/output error"
  else .missing

def twoEngines : Render.ServerConfig where
  label := "s"
  systemName := "s"
  msReplicas := ["a"]
  port := 10001
  provider := "ofi+tcp"
  nrHugepages := 0
  allowInsecure := true
  telemetryPort := 0
  systemRamReservedGiB := 0
  disableVFIO := false
  engines := [kernelEngine 0 "/dev/sdc", kernelEngine 1 "/dev/sdd"]

/-- The first engine was formatted on another device, the second not at all. -/
def changedFirst (path : String) : FileRead :=
  if path = confPath 1 then .missing else changedAndUnreadable path

theorem read_changedAndUnreadable (path : String) {text : String}
    (h : changedAndUnreadable path = .content text) :
    readBdevLayout text = some ⟨"aio", ["/dev/sdb"]⟩ := by
  unfold changedAndUnreadable at h
  split_ifs at h
  rw [← FileRead.content.inj h]
  decide +kernel

theorem plainStored_changedAndUnreadable : PlainStored changedAndUnreadable := by
  intro path text l hfile hlayout
  rw [read_changedAndUnreadable path hfile] at hlayout
  cases hlayout
  decide

theorem plainStored_changedFirst : PlainStored changedFirst := by
  intro path text l hfile
  unfold changedFirst at hfile
  split_ifs at hfile
  exact plainStored_changedAndUnreadable path text l hfile

/-- With the second file unreadable the check fails, and without it the check reports the change
of the first engine. -/
theorem layout_changes_found_two_engines :
    ∃ m, parseBdevLayouts (formatBdevLayouts (engineBdevLayouts twoEngines.engines)) = .ok m ∧
      SameLayouts m (engineBdevLayouts twoEngines.engines) ∧
      (∃ error, checkBdevLayouts changedAndUnreadable m = .error error) ∧
      ReportsChanges twoEngines changedFirst m ∧
      ∃ text, changedFirst (confPath 0) = .content text := by
  have hwell : WellListed twoEngines.engines := by constructor <;> decide
  have hserver : Render.server twoEngines = .ok twoEngines := by decide +kernel
  obtain ⟨m, hparse, hsame, hcheck⟩ := layout_changes_found _ hwell
  refine ⟨m, hparse, hsame, ?_, ?_, _, rfl⟩
  · refine (hcheck _ _ _ rfl hserver plainStored_changedAndUnreadable).1 ⟨1, ?_, _, rfl⟩
    rw [hsame]
    decide +kernel
  · refine (hcheck _ _ _ rfl hserver plainStored_changedFirst).2 ?_
    rintro ⟨i, -, error, hfile⟩
    unfold changedFirst changedAndUnreadable at hfile
    split_ifs at hfile with hone hzero hone'
    exact hone hone'

/-- The change of the first engine is not reported. -/
theorem unreadable_file_hides_change :
    WellListed twoEngines.engines ∧ PlainStored changedAndUnreadable ∧
      (engineBdevLayouts twoEngines.engines).get 0 = some ⟨"aio", ["/dev/sdc"]⟩ ∧
      (∃ text, changedAndUnreadable (confPath 0) = .content text ∧
        readBdevLayout text = some ⟨"aio", ["/dev/sdb"]⟩) ∧
      Render.server twoEngines = .ok twoEngines ∧
      ¬ReportsChanges twoEngines changedAndUnreadable (engineBdevLayouts twoEngines.engines) := by
  have hread : ∃ text, changedAndUnreadable (confPath 0) = .content text ∧
      readBdevLayout text = some ⟨"aio", ["/dev/sdb"]⟩ :=
    ⟨_, rfl, read_changedAndUnreadable (confPath 0) rfl⟩
  refine ⟨by constructor <;> decide, plainStored_changedAndUnreadable, by decide +kernel,
    hread, by decide +kernel, ?_⟩
  rintro ⟨bad, hok, -⟩
  have hfails : checkBdevLayouts changedAndUnreadable (engineBdevLayouts twoEngines.engines) =
      .error "input/output error" := by decide +kernel
  rw [hfails] at hok
  cases hok

end DaosOperator.Hostprep
