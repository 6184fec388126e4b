import DaosOperator.Config
import DaosOperator.Hostprep.Discover
import Mathlib.Algebra.Ring.Int.Defs

/-!
# Node annotations

What `hostprep` publishes about a node, and that the operator reads the same facts back:
the devices bound for SPDK, their serials, the fabric interface and the NUMA node.
-/

namespace DaosOperator.Hostprep

open Discovery

/-! ## `Annotations` -/

structure Iface where
  name : String := ""
  rdma : Bool := false
  numa : Int := 0
  ipv4 : String := ""
  deriving DecidableEq

structure Facts where
  fabric : Iface := {}
  fabricErr : String := ""
  bound : List NVMe := []
  candidates : List NVMe := []
  skipped : List NVMe := []
  hugepages : Int := 0
  hugepagesErr : String := ""
  deriving DecidableEq

def annotationNvmeCandidates : String := "daos.gluesys.com/nvme-candidates"
def annotationNvmeInUse : String := "daos.gluesys.com/nvme-in-use"
def annotationHostPrepStatus : String := "daos.gluesys.com/hostprep-status"

/-- One character of a string that `json.Marshal` writes. -/
def jsonChar (c : Char) : List Char :=
  let n := c.toNat
  if c = '"' then ['\\', '"']
  else if c = '\\' then ['\\', '\\']
  else if c = '\n' then ['\\', 'n']
  else if c = '\r' then ['\\', 'r']
  else if c = '\t' then ['\\', 't']
  else if n = 8 then ['\\', 'b']
  else if n = 12 then ['\\', 'f']
  else if n < 32 ∨ c = '<' ∨ c = '>' ∨ c = '&' ∨ n = 0x2028 ∨ n = 0x2029 then
    ['\\', 'u', Text.hexDigit (n / 4096), Text.hexDigit (n / 256 % 16),
      Text.hexDigit (n / 16 % 16), Text.hexDigit (n % 16)]
  else [c]

/-- A string that `json.Marshal` writes. -/
def jsonString (s : String) : String :=
  "\"" ++ String.ofList (s.toList.flatMap jsonChar) ++ "\""

/-- The summary of a run, with its keys in order. -/
def statusSummary (f : Facts) (now : Time) : String :=
  let count (ds : List NVMe) : String := toString ds.length
  let fields : List (String × String) :=
    [("bound", count f.bound), ("candidates", count f.candidates),
      ("fabricAddr", jsonString f.fabric.ipv4)] ++
    (if f.fabricErr ≠ "" then [("fabricError", jsonString f.fabricErr)] else []) ++
    [("hugepages", toString f.hugepages)] ++
    (if f.hugepagesErr ≠ "" then [("hugepagesError", jsonString f.hugepagesErr)] else []) ++
    [("inUse", count f.skipped), ("time", jsonString (Text.rfc3339 now))]
  "\x7b" ++ Text.join (fields.map fun kv => jsonString kv.1 ++ ":" ++ kv.2) "," ++ "\x7d"

/-- The addresses of controllers. -/
def pciList (ds : List NVMe) : String := Text.join (ds.map (·.pci)) ","

/-- The NUMA node a run publishes, -1 when it knows none. -/
def numaOf (f : Facts) : Int :=
  let numa := f.bound.foldl (fun numa d => if numa < 0 ∧ 0 ≤ d.numa then d.numa else numa) (-1)
  if f.fabric.name ≠ "" ∧ 0 ≤ f.fabric.numa then f.fabric.numa else numa

/-- `Annotations`. -/
def annotations (f : Facts) (now : Time) : List (String × String) :=
  let dsn := (f.bound.filter (·.dsn ≠ "")).map fun d => d.pci ++ "=" ++ d.dsn
  [(annotationFabricIface, f.fabric.name),
    (annotationBdevList, pciList f.bound),
    (annotationBdevDSN, Text.join dsn ","),
    (annotationNvmeCandidates, pciList f.candidates),
    (annotationNvmeInUse, pciList f.skipped),
    (annotationNumaNode, if 0 ≤ numaOf f then toString (numaOf f) else ""),
    (annotationHostPrepStatus, statusSummary f now)]

def Published (f : Facts) (now : Time) (n : Node) : Prop :=
  ∀ kv ∈ annotations f now, lookupKey n.annotations kv.1 = some kv.2
  deriving Decidable

/-! ## Facts that annotations can carry -/

/-- The text has no separator and no blank. -/
def Plain (s : String) : Prop := ∀ c ∈ s.toList, c ≠ ',' ∧ c ≠ '=' ∧ Text.isSpace c = false

instance (s : String) : Decidable (Plain s) := List.decidableBAll _ s.toList

/-- Facts in the form the kernel reports them. -/
structure Facts.WellFormed (f : Facts) : Prop where
  distinct : (f.bound.map (·.pci)).Nodup
  pci : ∀ d ∈ f.bound, d.pci ≠ "" ∧ Plain d.pci
  dsn : ∀ d ∈ f.bound, Plain d.dsn
  fabric : ∀ c ∈ f.fabric.name.toList, Text.isSpace c = false
  numa : ∀ d ∈ f.bound, d.numa < 2 ^ 31
  fabricNuma : f.fabric.numa < 2 ^ 31

/-- The bound devices that have a serial. -/
def Facts.serials (f : Facts) : List (String × String) :=
  (f.bound.filter (·.dsn ≠ "")).map fun d => (d.pci, d.dsn)

/-- The NUMA node of the fabric interface, or of the first bound device that knows its own. -/
def Facts.numaNode (f : Facts) : Option Int :=
  if f.fabric.name ≠ "" ∧ 0 ≤ f.fabric.numa then some f.fabric.numa
  else (f.bound.find? fun d => 0 ≤ d.numa).map (·.numa)

/-- The operator reads back what the run found. -/
structure Recovers (f : Facts) (g : NodeFacts) : Prop where
  bdevs : g.bdevs = f.bound.map (·.pci)
  dsn : g.dsn = f.serials
  fabricIface : g.fabricIface = f.fabric.name
  numaNode : g.numaNode = f.numaNode

/-! ## Lists -/

theorem splitList_join {parts : List String} (h : ∀ s ∈ parts, s ≠ "" ∧
    ∀ c ∈ s.toList, c ≠ ',' ∧ Text.isSpace c = false) :
    splitList (Text.join parts ",") = parts := by
  by_cases hne : parts = []
  · subst hne
    decide
  have hsplit : Text.split (Text.join parts ",") ',' = parts :=
    Text.split_join rfl hne fun s hs hmem => ((h s hs).2 _ hmem).1 rfl
  have htrim : parts.map Text.trimSpace = parts := by
    refine (List.map_congr_left fun s hs => ?_).trans (List.map_id _)
    exact Text.trimSpace_of_noSpace fun c hc => ((h s hs).2 c hc).2
  rw [splitList, hsplit, htrim, List.filter_eq_self]
  exact fun s hs => decide_eq_true (h s hs).1

theorem mapSet_of_notMem {m : List (String × String)} {k v : String} (h : k ∉ m.map (·.1)) :
    mapSet m k v = m ++ [(k, v)] := by
  rw [mapSet, List.filter_eq_self.mpr]
  intro kv hkv
  exact decide_eq_true fun heq => h (List.mem_map.mpr ⟨kv, hkv, heq⟩)

/-- The map of serials grows by one entry at a time. -/
theorem foldl_parseDSNs {entries : List (String × String)} (hkeys : (entries.map (·.1)).Nodup)
    (h : ∀ e ∈ entries, e.1 ≠ "" ∧ Plain e.1 ∧ Plain e.2) (done rest : List (String × String))
    (heq : entries = done ++ rest) :
    (rest.map fun e => e.1 ++ "=" ++ e.2).foldl (fun m kv =>
      match Text.cut kv '=' with
      | some (pci, serial) =>
          if pci = "" then m else mapSet m (Text.trimSpace pci) (Text.trimSpace serial)
      | none => m) done = entries := by
  induction rest generalizing done with
  | nil => simpa using heq.symm
  | cons e rest ih =>
      obtain ⟨hne, hpci, hdsn⟩ := h e (by simp [heq])
      have hcut : Text.cut (e.1 ++ "=" ++ e.2) '=' = some (e.1, e.2) :=
        Text.cut_append rfl fun hmem => (hpci _ hmem).2.1 rfl
      have hnew : e.1 ∉ done.map (·.1) := by
        rw [heq, List.map_append, List.map_cons] at hkeys
        exact fun hmem => (List.disjoint_of_nodup_append hkeys) hmem List.mem_cons_self
      rw [List.map_cons, List.foldl_cons, hcut]
      simp only [if_neg hne, Text.trimSpace_of_noSpace fun c hc => (hpci c hc).2.2,
        Text.trimSpace_of_noSpace fun c hc => (hdsn c hc).2.2, mapSet_of_notMem hnew]
      exact ih (done ++ [e]) (by simp [heq])

/-- The serials are read back entry by entry. -/
theorem parseDSNs_join {entries : List (String × String)} (hkeys : (entries.map (·.1)).Nodup)
    (h : ∀ e ∈ entries, e.1 ≠ "" ∧ Plain e.1 ∧ Plain e.2) :
    parseDSNs (Text.join (entries.map fun e => e.1 ++ "=" ++ e.2) ",") = entries := by
  have hlist : splitList (Text.join (entries.map fun e => e.1 ++ "=" ++ e.2) ",") =
      entries.map fun e => e.1 ++ "=" ++ e.2 := by
    refine splitList_join fun s hs => ?_
    obtain ⟨e, he, rfl⟩ := List.mem_map.mp hs
    obtain ⟨hne, hpci, hdsn⟩ := h e he
    constructor
    · intro hempty
      have hchars := congrArg String.toList hempty
      simp at hchars
    · intro c hc
      have hc' : c ∈ e.1.toList ∨ c = '=' ∨ c ∈ e.2.toList := by simpa [or_assoc] using hc
      rcases hc' with hc | rfl | hc
      · exact ⟨(hpci c hc).1, (hpci c hc).2.2⟩
      · decide
      · exact ⟨(hdsn c hc).1, (hdsn c hc).2.2⟩
  rw [parseDSNs, hlist]
  exact foldl_parseDSNs hkeys h [] entries rfl

/-! ## Numbers -/

/-- Below the bound the accumulator of an `int32` never wraps. -/
theorem foldl_int32 (cs : List Char) :
    ∀ acc : Nat, cs.foldl (fun n c => 10 * n + (Text.digit? c).getD 0) acc < 2 ^ 31 →
      cs.foldl (fun n c => Text.toInt32 (10 * n + (Text.digit? c).getD 0)) (acc : Int) =
        (cs.foldl (fun n c => 10 * n + (Text.digit? c).getD 0) acc : Nat) := by
  induction cs with
  | nil => intro acc _; rfl
  | cons c cs ih =>
      intro acc hbound
      have hgrows (l : List Char) (n : Nat) :
          n ≤ l.foldl (fun n c => 10 * n + (Text.digit? c).getD 0) n := by
        induction l generalizing n with
        | nil => exact le_refl n
        | cons d l ihl => exact le_trans (show n ≤ 10 * n + (Text.digit? d).getD 0 by omega) (ihl _)
      have hle := hgrows cs (10 * acc + (Text.digit? c).getD 0)
      rw [List.foldl_cons] at hbound
      have hnext : Text.toInt32 (10 * (acc : Int) + ((Text.digit? c).getD 0 : Nat)) =
          ((10 * acc + (Text.digit? c).getD 0 : Nat) : Int) := by
        unfold Text.toInt32
        omega
      rw [List.foldl_cons, List.foldl_cons, hnext]
      exact ih _ hbound

theorem parseNuma_repr {n : Nat} (h : n < 2 ^ 31) : parseNuma n.repr = some (n : Int) := by
  have hdigits := Text.isDigits_toDigits n
  simp only [Text.isDigits, Bool.and_eq_true, Bool.not_eq_true', List.all_eq_true] at hdigits
  have hvalue := Text.digitsValue_toDigits n
  have hfold := foldl_int32 (Nat.toDigits 10 n) 0 (by rw [← hvalue] at h; exact h)
  have hnuma : (Nat.toDigits 10 n).foldl
      (fun n c => Text.toInt32 (10 * n + (Text.digit? c).getD 0)) (0 : Int) = n :=
    hfold.trans (congrArg Nat.cast hvalue)
  have hall : (Nat.toDigits 10 n).all (fun c => (Text.digit? c).isSome) = true :=
    List.all_eq_true.mpr hdigits.2
  simp only [parseNuma, Text.toList_repr, hdigits.1, hall, if_true, hnuma]
  simp

theorem numaOf_eq (f : Facts) : numaOf f = f.numaNode.getD (-1) := by
  have hfirst (ds : List NVMe) :
      ds.foldl (fun numa d => if numa < 0 ∧ 0 ≤ d.numa then d.numa else numa) (-1) =
        ((ds.find? fun d => 0 ≤ d.numa).map (·.numa)).getD (-1) := by
    have hkept (ds : List NVMe) (n : Int) (hn : 0 ≤ n) :
        ds.foldl (fun numa d => if numa < 0 ∧ 0 ≤ d.numa then d.numa else numa) n = n := by
      induction ds with
      | nil => rfl
      | cons d ds ih => rw [List.foldl_cons, if_neg (by omega), ih]
    induction ds with
    | nil => rfl
    | cons d ds ih =>
        by_cases hd : 0 ≤ d.numa
        · simp [hd, hkept ds d.numa hd]
        · have hskip : (d :: ds).find? (fun d => 0 ≤ d.numa) = ds.find? fun d => 0 ≤ d.numa :=
            List.find?_cons_of_neg (by simpa using hd)
          rw [List.foldl_cons, if_neg fun h => hd h.2, ih, hskip]
  unfold numaOf Facts.numaNode
  split_ifs with h
  · rfl
  · exact hfirst f.bound

theorem numaNode_bounds {f : Facts} (hf : f.WellFormed) {numa : Int} (h : f.numaNode = some numa) :
    0 ≤ numa ∧ numa < 2 ^ 31 := by
  unfold Facts.numaNode at h
  split_ifs at h with hfabric
  · cases h
    exact ⟨hfabric.2, hf.fabricNuma⟩
  · obtain ⟨d, hd, rfl⟩ := Option.map_eq_some_iff.mp h
    have hsome := List.find?_some hd
    exact ⟨of_decide_eq_true hsome, hf.numa d (List.mem_of_find?_eq_some hd)⟩

/-- The NUMA node is read back, and so is that there is none. -/
theorem parseNuma_published {f : Facts} (hf : f.WellFormed) :
    parseNuma (Text.trimSpace (if 0 ≤ numaOf f then toString (numaOf f) else "")) = f.numaNode := by
  rw [numaOf_eq]
  cases hnode : f.numaNode with
  | none => decide
  | some numa =>
      obtain ⟨hnonneg, hbound⟩ := numaNode_bounds hf hnode
      obtain ⟨n, rfl⟩ := Int.eq_ofNat_of_zero_le hnonneg
      have hplain : ∀ c ∈ n.repr.toList, Text.isSpace c = false := by
        intro c hc
        rw [Text.toList_repr] at hc
        exact Text.isSpace_of_isDigit (Nat.isDigit_of_mem_toDigits (by decide) (by decide) hc)
      rw [Option.getD_some, if_pos hnonneg, show toString (n : Int) = n.repr from rfl,
        Text.trimSpace_of_noSpace hplain, parseNuma_repr (by omega)]

/-! ## The operator reads what hostprep wrote -/

theorem recovers_fromNode {f : Facts} {now : Time} {n : Node} (hf : f.WellFormed)
    (h : Published f now n) : Recovers f (fromNode n) := by
  have hfabric := h _ (.head _)
  have hbdevs := h _ (.tail _ (.head _))
  have hdsn := h _ (.tail _ (.tail _ (.head _)))
  have hnuma := h _ (.tail _ (.tail _ (.tail _ (.tail _ (.tail _ (.head _))))))
  constructor
  · simp only [fromNode, hbdevs, Option.getD_some, pciList]
    refine splitList_join fun s hs => ?_
    obtain ⟨d, hd, rfl⟩ := List.mem_map.mp hs
    obtain ⟨hne, hplain⟩ := hf.pci d hd
    exact ⟨hne, fun c hc => ⟨(hplain c hc).1, (hplain c hc).2.2⟩⟩
  · simp only [fromNode, hdsn, Option.getD_some]
    have hentries : (f.bound.filter (·.dsn ≠ "")).map (fun d => d.pci ++ "=" ++ d.dsn) =
        f.serials.map fun e => e.1 ++ "=" ++ e.2 := by
      simp [Facts.serials]
    rw [hentries]
    refine parseDSNs_join ?_ fun e he => ?_
    · have hsub : ((f.bound.filter (·.dsn ≠ "")).map (·.pci)).Nodup :=
        hf.distinct.sublist (List.filter_sublist.map _)
      simpa [Facts.serials, Function.comp_def] using hsub
    · obtain ⟨d, hd, rfl⟩ := List.mem_map.mp he
      have hmem := (List.mem_filter.mp hd).1
      exact ⟨(hf.pci d hmem).1, (hf.pci d hmem).2, hf.dsn d hmem⟩
  · simp only [fromNode, hfabric, Option.getD_some]
    exact Text.trimSpace_of_noSpace hf.fabric
  · simp only [fromNode, hnuma, Option.getD_some]
    exact parseNuma_published hf

end DaosOperator.Hostprep
