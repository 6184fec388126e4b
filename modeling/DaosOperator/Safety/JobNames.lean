import DaosOperator.Container.Reconcile
import DaosOperator.Dns

/-!
# The Jobs that Kubernetes accepts

The name of a Job is built from its owner's name and cut to 63 characters; the container's
namespace and name also go into a label, from which a watch finds the container again.  The cut
removes dashes at its end but not a dot, and the label is not cut at all.
-/

namespace DaosOperator

open Dns

/-! ## Names -/

/-- The characters that `jobName` keeps of a key that it cuts. -/
def keptChars (kind op : String) : Nat := 63 - (kind.length + 1 + 8 + 1 + op.length + 1)

/-- A long name is cut right behind a dot of the key. -/
def CutAtDot (kind key op : String) : Prop :=
  63 < (kind ++ "-" ++ flatKey key ++ "-" ++ op).length ∧
    (flatKey key).toList[keptChars kind op - 1]? = some '.'

theorem alnum_hexDigit (n : Nat) : alnum (Sha256.hexDigit n) = true := by
  have h : ∀ k < 16, alnum (Sha256.hexDigit k) = true := by decide
  have hmod : Sha256.hexDigit n = Sha256.hexDigit (n % 16) := by
    simp [Sha256.hexDigit]
  rw [hmod]
  exact h _ (Nat.mod_lt _ (by decide))

theorem scan_alnum {cs : List Char} (h : ∀ c ∈ cs, alnum c = true) (hne : cs ≠ []) (p : Place) :
    scan p cs = some .letter := by
  induction cs generalizing p with
  | nil => exact absurd rfl hne
  | cons c rest ih =>
      rw [scan_cons, step_alnum (h c List.mem_cons_self), Option.bind_some]
      by_cases hrest : rest = []
      · rw [hrest]
        rfl
      · exact ih (fun d hd => h d (List.mem_cons_of_mem c hd)) hrest _

theorem scan_keyId (key : String) : scan .edge (keyId key).toList = some .letter := by
  have hlength : (keyId key).length = 8 := Sha256.length_hex key
  refine scan_alnum ?_ ?_ _
  · intro c hc
    simp only [keyId, Sha256.hex, String.toList_ofList, List.mem_flatMap, Sha256.hexWord,
      List.mem_map] at hc
    obtain ⟨w, _, k, _, rfl⟩ := hc
    exact alnum_hexDigit _
  · intro hnil
    rw [← String.length_toList, hnil] at hlength
    cases hlength

section Names

variable {kind key op : String}

theorem length_fullName (kind flat op : String) :
    (kind ++ "-" ++ flat ++ "-" ++ op).length = kind.length + 1 + flat.length + 1 + op.length := by
  simp only [String.length_append]
  rfl

/-- The name that is cut, with the key's start and its hash. -/
theorem jobName_cut (hroom : kind.length + op.length ≤ 51)
    (hlong : 63 < (kind ++ "-" ++ flatKey key ++ "-" ++ op).length) :
    jobName kind key op = kind ++ "-" ++ String.ofList (Text.dropRight (· = '-')
      ((flatKey key).toList.take (keptChars kind op))) ++ "-" ++ keyId key ++ "-" ++ op := by
  have hid : (keyId key).length = 8 := Sha256.length_hex key
  have hlength := hlong
  rw [length_fullName] at hlength
  unfold jobName
  dsimp only
  rw [if_neg (by omega), hid, if_neg (by omega)]
  unfold shortKey
  rw [if_pos (by omega)]
  rfl

theorem jobName_length_le (hroom : kind.length + op.length ≤ 51) :
    (jobName kind key op).length ≤ 63 := by
  by_cases hlong : 63 < (kind ++ "-" ++ flatKey key ++ "-" ++ op).length
  · have hid : (keyId key).length = 8 := Sha256.length_hex key
    have hshort : (Text.dropRight (· = '-')
        ((flatKey key).toList.take (keptChars kind op))).length ≤ keptChars kind op := by
      unfold Text.dropRight
      rw [List.length_reverse]
      refine (List.dropWhile_sublist _).length_le.trans ?_
      rw [List.length_reverse]
      exact List.length_take_le _ _
    rw [jobName_cut hroom hlong]
    simp only [String.length_append, String.length_ofList, hid]
    unfold keptChars at hshort ⊢
    change _ + 1 + _ + 1 + 8 + 1 + _ ≤ 63
    omega
  · unfold jobName
    dsimp only
    rw [if_pos (by omega)]
    omega

/-- The name is a subdomain unless it is cut behind a dot. -/
theorem jobName_isSubdomain_iff (hkind : IsSubdomain kind) (hkey : IsSubdomain (flatKey key))
    (hop : IsSubdomain op) (hroom : kind.length + op.length ≤ 51) :
    IsSubdomain (jobName kind key op) ↔ ¬CutAtDot kind key op := by
  by_cases hlong : 63 < (kind ++ "-" ++ flatKey key ++ "-" ++ op).length
  · have hroom' : 1 ≤ keptChars kind op ∧ keptChars kind op < (flatKey key).toList.length := by
      rw [length_fullName] at hlong
      rw [String.length_toList]
      unfold keptChars
      omega
    have hdot : CutAtDot kind key op ↔
        ((flatKey key).toList.take (keptChars kind op)).getLast? = some '.' := by
      rw [List.getLast?_take, if_neg (by omega), List.getElem?_eq_getElem (by omega),
        Option.some_or, ← List.getElem?_eq_getElem]
      exact ⟨fun h => h.2, fun h => ⟨hlong, h⟩⟩
    rw [hdot, jobName_cut hroom hlong]
    rw [isSubdomain_iff_scan] at hkind hkey hop ⊢
    have hid := scan_keyId key
    obtain ⟨q, hstart⟩ : ∃ q,
        scan .edge ((flatKey key).toList.take (keptChars kind op)) = some q := by
      rw [← List.take_append_drop (keptChars kind op) (flatKey key).toList, scan_append,
        Option.bind_eq_some_iff] at hkey
      obtain ⟨q, hq, _⟩ := hkey
      exact ⟨q, hq⟩
    have hne : (flatKey key).toList.take (keptChars kind op) ≠ [] := by
      rw [Ne, List.take_eq_nil_iff, ← List.length_eq_zero_iff]
      omega
    have hshort := scan_behind_dash hkind (scan_dropRight hstart hne) (dropRight_ne_nil hstart hne)
    have htail := scan_behind_dash hid hop (ne_nil_of_scan hop)
    have hwhole := scan_dash hshort htail
    simp only [String.toList_append, String.toList_ofList, show "-".toList = ['-'] from rfl,
      List.append_assoc, List.cons_append, List.nil_append] at hwhole ⊢
    rw [hwhole]
    split
    · rename_i hcut
      simp [hcut]
    · rename_i hcut
      simp [hcut]
  · have hname : jobName kind key op = kind ++ "-" ++ flatKey key ++ "-" ++ op := by
      unfold jobName
      exact if_pos (by omega)
    rw [hname]
    exact iff_of_true ((hkind.dash hkey).dash hop) fun h => hlong h.1

end Names

/-! ## Keys and labels -/

theorem noSlash_of_isSubdomain {s : String} (h : IsSubdomain s) : '/' ∉ s.toList := by
  intro hmem
  rcases h.chars '/' hmem with hal | hdash | hdot
  · exact absurd hal (by decide)
  · exact absurd hdash (by decide)
  · exact absurd hdot (by decide)

theorem flatKey_eq_self {s : String} (h : '/' ∉ s.toList) : flatKey s = s := by
  unfold flatKey Text.replaceChar
  rw [← String.toList_inj, String.toList_ofList]
  calc s.toList.flatMap (fun d => if d = '/' then "-".toList else [d])
      = s.toList.flatMap (fun d => [d]) :=
        List.flatMap_congr fun d hd => if_neg (ne_of_mem_of_not_mem hd h)
    _ = s.toList := List.flatMap_singleton' _

theorem flatKey_slash (a b : String) : flatKey (a ++ "/" ++ b) = flatKey a ++ "-" ++ flatKey b := by
  unfold flatKey Text.replaceChar
  rw [← String.toList_inj]
  simp [String.toList_append, List.flatMap_append, show "/".toList = ['/'] from rfl]

/-- The namespace and the name of an object, as Kubernetes validates them. -/
structure ValidKey (key : ObjectKey) : Prop where
  ns : IsLabel key.ns.toList
  ns_le : key.ns.length ≤ 63
  name : IsSubdomain key.name
  name_le : key.name.length ≤ 253

/-- `jobToContainer`: the container that the label of a Job names. -/
def Container.jobToContainer (label : String) : Option ObjectKey :=
  match Text.cut label '.' with
  | some (ns, name) => if ns = "" then none else some ⟨ns, name⟩
  | none => none

section Keys

variable {key : ObjectKey}

theorem flatKey_of_valid (h : ValidKey key) :
    flatKey (key.ns ++ "/" ++ key.name) = key.ns ++ "-" ++ key.name := by
  rw [flatKey_slash, flatKey_eq_self (noSlash_of_isSubdomain h.ns.isSubdomain),
    flatKey_eq_self (noSlash_of_isSubdomain h.name)]

/-- The watch finds the container that the label was built for. -/
theorem jobToContainer_contJobLabel (h : ValidKey key) :
    Container.jobToContainer (Container.contJobLabel key) = some key := by
  have hdot : '.' ∉ key.ns.toList := by
    intro hmem
    rcases h.ns.chars '.' hmem with hal | hdash
    · exact absurd hal (by decide)
    · exact absurd hdash (by decide)
  have hne : key.ns ≠ "" := by
    intro hempty
    have hfirst := h.ns.first
    rw [hempty] at hfirst
    exact absurd hfirst (by decide)
  unfold Container.jobToContainer Container.contJobLabel
  rw [Text.cut_append rfl hdot]
  exact if_neg hne

/-- The label is one that Kubernetes accepts as soon as it is short enough. -/
theorem isLabelValue_contJobLabel_iff (h : ValidKey key) :
    IsLabelValue (Container.contJobLabel key) ↔ key.ns.length + 1 + key.name.length ≤ 63 := by
  have hlength : (Container.contJobLabel key).length = key.ns.length + 1 + key.name.length := by
    simp only [Container.contJobLabel, String.length_append]
    rfl
  have hlist : (Container.contJobLabel key).toList = key.ns.toList ++ '.' :: key.name.toList := by
    simp [Container.contJobLabel, String.toList_append, show ".".toList = ['.'] from rfl]
  constructor
  · intro hvalue
    have hshort := hvalue.short
    omega
  · intro hshort
    refine ⟨by omega, ?_, ?_, ?_⟩
    · rw [hlist]
      intro c hc
      rcases List.mem_append.1 hc with hc | hc
      · rcases h.ns.chars c hc with hal | hdash
        · exact Or.inl (alnum_isAlphanum hal)
        · exact Or.inr (Or.inl hdash)
      · rcases List.mem_cons.1 hc with hdot | hc
        · exact Or.inr (Or.inr (Or.inr hdot))
        · rcases h.name.chars c hc with hal | hdash | hdot
          · exact Or.inl (alnum_isAlphanum hal)
          · exact Or.inr (Or.inl hdash)
          · exact Or.inr (Or.inr (Or.inr hdot))
    · have hfirst := h.ns.first
      rw [hlist]
      cases hns : key.ns.toList with
      | nil => exact absurd (hns ▸ hfirst) (by decide)
      | cons c rest =>
          rw [hns] at hfirst
          exact alnum_isAlphanum hfirst
    · obtain ⟨c, hc, hal⟩ := h.name.last
      rw [hlist, List.getLast?_append, List.getLast?_cons, hc]
      simpa using alnum_isAlphanum hal

end Keys

/-! ## Jobs -/

/-- A Job of the pool or the container controller. -/
inductive OwnedJob where
  | pool (name : String) (job : Pool.PoolJob)
  | cont (key : ObjectKey) (job : Container.ContJob)

namespace OwnedJob

def name (ns : String) : OwnedJob → String
  | pool name job => (Pool.jobKey name ns job).name
  | cont key job => (Container.jobKey key ns job).name

theorem name_pool (ns name : String) (job : Pool.PoolJob) :
    (pool name job).name ns = jobName "pool" name ("dmg-" ++ job.text) := by
  simp only [OwnedJob.name, Pool.jobKey]

theorem name_cont (ns : String) (key : ObjectKey) (job : Container.ContJob) :
    (cont key job).name ns = jobName "cont" (key.ns ++ "/" ++ key.name) ("daos-" ++ job.text) := by
  simp only [OwnedJob.name, Container.jobKey]

/-- The owner is an object that Kubernetes has accepted. -/
def Valid : OwnedJob → Prop
  | pool name _ => IsSubdomain name ∧ name.length ≤ 253
  | cont key _ => ValidKey key

/-- The watch has a label that Kubernetes accepts, and it leads back to the container. -/
def Labelled : OwnedJob → Prop
  | pool _ _ => True
  | cont key _ => IsLabelValue (Container.contJobLabel key) ∧
      Container.jobToContainer (Container.contJobLabel key) = some key

/-- The name of the Job is one that Kubernetes accepts, it is short enough for the label of the
Job's pods, and the label that the watch reads is accepted and leads back to the container.  The
other labels of the Job are left out. -/
structure Acceptable (ns : String) (j : OwnedJob) : Prop where
  name : IsSubdomain (j.name ns)
  short : (j.name ns).length ≤ 63
  label : j.Labelled

/-- The Job's name is not cut behind a dot, and the container's label is short enough. -/
def Fits : OwnedJob → Prop
  | pool name job => ¬CutAtDot "pool" name ("dmg-" ++ job.text)
  | cont key job => ¬CutAtDot "cont" (key.ns ++ "/" ++ key.name) ("daos-" ++ job.text) ∧
      key.ns.length + 1 + key.name.length ≤ 63

end OwnedJob

theorem poolJob_text (job : Pool.PoolJob) :
    scan .edge ("dmg-" ++ job.text).toList = some .letter ∧ ("dmg-" ++ job.text).length ≤ 13 := by
  cases job with
  | query => decide
  | op o => cases o <;> decide

theorem contJob_text (job : Container.ContJob) :
    scan .edge ("daos-" ++ job.text).toList = some .letter ∧ ("daos-" ++ job.text).length ≤ 14 := by
  cases job with
  | query => decide
  | op o => cases o <;> decide

/-- The name of a Job and the label that the watch reads are accepted exactly if the name is not
cut behind a dot and the label is short enough. -/
theorem job_acceptable_iff (ns : String) (j : OwnedJob) (h : j.Valid) :
    j.Acceptable ns ↔ j.Fits := by
  cases j with
  | pool name job =>
      obtain ⟨hop, hlength⟩ := poolJob_text job
      have hkey : IsSubdomain (flatKey name) := by
        rw [flatKey_eq_self (noSlash_of_isSubdomain h.1)]
        exact h.1
      have hroom : "pool".length + ("dmg-" ++ job.text).length ≤ 51 := by
        rw [show "pool".length = 4 from rfl]
        omega
      have hname := jobName_isSubdomain_iff ((isSubdomain_iff_scan "pool").2 (by decide)) hkey
        ((isSubdomain_iff_scan _).2 hop) hroom
      have hshort : (jobName "pool" name ("dmg-" ++ job.text)).length ≤ 63 :=
        jobName_length_le hroom
      rw [← OwnedJob.name_pool ns] at hname hshort
      exact ⟨fun ha => hname.1 ha.name, fun hf => ⟨hname.2 hf, hshort, trivial⟩⟩
  | cont key job =>
      obtain ⟨hop, hlength⟩ := contJob_text job
      have hkey : IsSubdomain (flatKey (key.ns ++ "/" ++ key.name)) := by
        rw [flatKey_of_valid h]
        exact h.ns.isSubdomain.dash h.name
      have hroom : "cont".length + ("daos-" ++ job.text).length ≤ 51 := by
        rw [show "cont".length = 4 from rfl]
        omega
      have hname := jobName_isSubdomain_iff ((isSubdomain_iff_scan "cont").2 (by decide)) hkey
        ((isSubdomain_iff_scan _).2 hop) hroom
      have hlabel := isLabelValue_contJobLabel_iff h
      have hlength : (jobName "cont" (key.ns ++ "/" ++ key.name)
          ("daos-" ++ job.text)).length ≤ 63 := jobName_length_le hroom
      rw [← OwnedJob.name_cont ns] at hname hlength
      constructor
      · intro ha
        exact ⟨hname.1 ha.name, hlabel.1 ha.label.1⟩
      · rintro ⟨hcut, hshort⟩
        exact ⟨hname.2 hcut, hlength, hlabel.2 hshort, jobToContainer_contJobLabel h⟩

theorem isLabel_default : IsLabel "default".toList where
  chars := by
    have hall : "default".toList.all (fun c => alnum c || c = '-') = true := by decide
    simpa only [Bool.or_eq_true, decide_eq_true_eq] using List.all_eq_true.mp hall
  first := by decide
  last := by decide

def fiftyName : String := String.ofList (List.replicate 50 'c')

/-- A container whose query Job has a name that is cut and marked with a hash. -/
theorem job_acceptable_cut :
    (OwnedJob.cont ⟨"default", fiftyName⟩ .query).name "daos-system" =
        "cont-default-" ++ String.ofList (List.replicate 30 'c') ++ "-c60f23b9-daos-query" ∧
      (OwnedJob.cont ⟨"default", fiftyName⟩ .query).Acceptable "daos-system" := by
  refine ⟨by decide +kernel, (job_acceptable_iff "daos-system"
    (.cont ⟨"default", fiftyName⟩ .query) ⟨isLabel_default, by decide, ?_, by decide⟩).2 ?_⟩
  · exact (isSubdomain_iff_scan _).2 (by decide)
  · exact ⟨fun h => absurd h.2 (by decide +kernel), by decide⟩

/-- A pool name with a dot as its 38th character. -/
def dottedName : String := String.ofList (List.replicate 37 'a' ++ '.' :: List.replicate 20 'b')

def sixtyName : String := String.ofList (List.replicate 60 'c')

/-- The create Job of a pool whose name is cut behind the dot is refused, and so is every Job of a
container whose namespace and name do not fit in a label. -/
theorem job_refused :
    ((OwnedJob.pool dottedName (.op .create)).Valid ∧
      ¬(OwnedJob.pool dottedName (.op .create)).Acceptable "daos-system") ∧
    ((OwnedJob.cont ⟨"default", sixtyName⟩ .query).Valid ∧
      ¬(OwnedJob.cont ⟨"default", sixtyName⟩ .query).Acceptable "daos-system") := by
  have hdotted : IsSubdomain dottedName := (isSubdomain_iff_scan _).2 (by decide)
  have hsixty : ValidKey ⟨"default", sixtyName⟩ :=
    ⟨isLabel_default, by decide, (isSubdomain_iff_scan _).2 (by decide), by decide⟩
  refine ⟨⟨⟨hdotted, by decide⟩, ?_⟩, hsixty, ?_⟩
  · intro haccepted
    have hflat : flatKey dottedName = dottedName := flatKey_eq_self (noSlash_of_isSubdomain hdotted)
    have hkey : IsSubdomain (flatKey dottedName) := hflat.symm ▸ hdotted
    have hname := haccepted.name
    rw [OwnedJob.name_pool, jobName_isSubdomain_iff ((isSubdomain_iff_scan "pool").2 (by decide))
      hkey ((isSubdomain_iff_scan _).2 (by decide)) (by decide)] at hname
    refine hname ⟨?_, ?_⟩
    · rw [hflat]
      decide +kernel
    · rw [hflat]
      decide
  · intro haccepted
    have hlabel := (isLabelValue_contJobLabel_iff hsixty).1 haccepted.label.1
    exact absurd hlabel (by decide)

end DaosOperator
