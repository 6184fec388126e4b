import DaosOperator.Safety.GateReport
import DaosOperator.System.EngineMemory

/-!
# The rank sets the operator starts engines with

dmg reports ranks as 32-bit integers.  A rank set that the operator builds from such
ranks is read back as it was written, and never sends `parseRankSet` into a loop that
does not end: over every run, the rank set of an engine start in flight is one of
these.
-/

namespace DaosOperator

open Effect

variable {st : DaosSystemStatus} {s : Point Call World} {w : World}
  {rely : Entry Call World → Prop}

namespace System

/-! ## Rank sets are read back -/

/-- The range of `int32`. -/
def isInt32 (i : Int) : Bool := -2147483648 ≤ i ∧ i ≤ 2147483647

/-- The loop of one rank; a negative rank is taken for a range without a start. -/
def oneRank (n : Int) : Option (Int × Int) := if 0 ≤ n then some (n, n) else none

theorem rankRange_toString {n : Int} (h : isInt32 n = true) :
    rankRange (toString n) = oneRank n := by
  simp only [isInt32, decide_eq_true_eq] at h
  cases n with
  | ofNat k =>
      have hdigit : ∀ c ∈ k.repr.toList, c.isDigit = true := by
        rw [Text.toList_repr]
        exact fun c hc => Nat.isDigit_of_mem_toDigits (by decide) (by decide) hc
      have hcut : Text.cut k.repr '-' = none := by
        have hnone : Text.cutChars '-' k.repr.toList = none :=
          Text.cutChars_eq_none fun hc => absurd (hdigit '-' hc) (by decide)
        simpa [Text.cut] using hnone
      have htrim : Text.trimSpace k.repr = k.repr :=
        Text.trimSpace_of_noSpace fun c hc => Text.isSpace_of_isDigit (hdigit c hc)
      have hatoi : Text.atoi k.repr = some (k : Int) := by
        refine Text.atoi_repr ?_
        have := h.2
        simp only [Int.ofNat_eq_natCast] at this
        omega
      change rankRange k.repr = _
      simp [rankRange, hcut, htrim, hatoi, oneRank]
  | negSucc k =>
      have hcut : Text.cut ("-" ++ (k + 1).repr) '-' = some ("", (k + 1).repr) := by
        simp [Text.cut, Text.cutChars, Nat.repr]
      have hempty : Text.atoi (Text.trimSpace "") = none := by decide
      change rankRange ("-" ++ (k + 1).repr) = _
      simp [rankRange, hcut, hempty, oneRank]

/-- `parseRankSet` reads back what `rankList` wrote. -/
theorem parseRankSet_rankList {l : List Int} (h : ∀ n ∈ l, isInt32 n = true) :
    parseRankSet (rankList l) = some ⟨l.filterMap oneRank⟩ := by
  have hranges : (Text.split (rankList l) ',').filterMap rankRange = l.filterMap oneRank := by
    by_cases hl : l = []
    · subst hl
      decide
    · have hsplit : Text.split (rankList l) ',' = l.map toString := by
        refine Text.split_join rfl (by simpa using hl) ?_
        intro s hs
        obtain ⟨n, -, rfl⟩ := List.mem_map.mp hs
        exact Text.notMem_toString_int (by decide) (by decide)
      rw [hsplit, List.filterMap_map]
      exact List.filterMap_congr fun n hn => rankRange_toString (h n hn)
  have hends : ((l.filterMap oneRank).any fun r => r.1 ≤ r.2 ∧ r.2 = 9223372036854775807) =
      false := by
    rw [List.any_eq_false]
    intro r hr
    obtain ⟨n, hn, hone⟩ := List.mem_filterMap.mp hr
    have hrange := h n hn
    simp only [isInt32, decide_eq_true_eq] at hrange
    simp only [oneRank] at hone
    split at hone
    · cases hone
      simp only [decide_eq_true_eq, not_and]
      intro _
      omega
    · cases hone
  simp only [parseRankSet, hranges, hends]
  simp

/-! ## Ranks in the status -/

def NarrowRanks (st : DaosSystemStatus) : Prop := ∀ rk ∈ st.ranks, isInt32 rk.rank = true

theorem NarrowRanks.congr {st' : DaosSystemStatus} (h : NarrowRanks st)
    (hranks : st'.ranks = st.ranks) : NarrowRanks st' := by
  unfold NarrowRanks
  rw [hranks]
  exact h

theorem NarrowRanks.readMembership (h : NarrowRanks st) (sys : DaosSystem)
    (inp : FormatInput) (approved : Bool) (queried : Time) (env : Dmg.Envelope)
    (leader : Option Dmg.Envelope) :
    NarrowRanks (readMembership sys inp approved queried env leader st).status := by
  unfold System.readMembership
  split
  · split
    · exact fun rk hrk => by cases hrk
    · exact h
    · -- only the states of ranks change
      intro rk hrk
      obtain ⟨old, hold, rfl⟩ := List.mem_map.mp hrk
      have hrank := h old hold
      split
      · exact hrank
      · exact hrank
    · exact h
  · split
    · exact h
    · next members hmembers =>
        intro rk hrk
        obtain ⟨m, hm, rfl⟩ := List.mem_map.mp hrk
        have hrange := Dmg.rank_of_systemQuery hmembers m hm
        exact decide_eq_true hrange

theorem NarrowRanks.readQuery (h : NarrowRanks st) (sys : DaosSystem)
    (inp : FormatInput) (approved : Bool) (now : Time) (res : Dmg.Result) :
    NarrowRanks (readQuery sys inp approved now res st).status := by
  unfold System.readQuery
  split
  · exact h
  · split
    · exact h
    · exact h
    · exact h.readMembership _ _ _ _ _ _
    · have hms : ∀ leader, NarrowRanks (setMsCondition st leader).1 := fun leader => h
      exact (hms _).readMembership _ _ _ _ _ _

theorem NarrowRanks.format {inp : FormatInput} {st' : DaosSystemStatus} (h : NarrowRanks st)
    (hresult : FormatResult inp st st') : NarrowRanks st' := by
  cases hresult with
  | waits => exact h
  | reports v reason msg _ => exact h
  | failed only msg now => exact h
  | succeeded only now => exact h
  | read sys approved now res => exact h.readQuery _ _ _ _ _

/-! ## The rank set of a start -/

def BuiltRankSet (s : String) : Prop := ∃ l : List Int, (∀ n ∈ l, isInt32 n = true) ∧ s = rankList l

theorem builtRankSet_empty : BuiltRankSet "" := ⟨[], by simp, by decide⟩

theorem BuiltRankSet.parses {s : String} (h : BuiltRankSet s) : (parseRankSet s).isSome = true := by
  obtain ⟨l, hl, rfl⟩ := h
  rw [parseRankSet_rankList hl]
  rfl

theorem mem_due_considerRank {now : Time} {cands : List RankStatus} {d : Due} {n : Int}
    (hn : n ∈ (cands.foldl (considerRank now) d).due) :
    n ∈ d.due ∨ ∃ rk ∈ cands, rk.rank = n := by
  induction cands generalizing d with
  | nil => exact Or.inl hn
  | cons rk cands ih =>
      rcases ih hn with hdue | ⟨rk', hrk', heq⟩
      · have hone : n ∈ d.due ∨ rk.rank = n := by
          unfold considerRank at hdue
          split at hdue
          · exact Or.inl hdue
          · split at hdue
            · split at hdue
              · exact Or.inl hdue
              · exact Or.inl hdue
            · split at hdue
              · exact Or.inl hdue
              · split at hdue
                · exact Or.inl hdue
                · rcases List.mem_append.mp hdue with hold | hnew
                  · exact Or.inl hold
                  · exact Or.inr (List.mem_singleton.mp hnew).symm
        rcases hone with hold | heq
        · exact Or.inl hold
        · exact Or.inr ⟨rk, by simp, heq⟩
      · exact Or.inr ⟨rk', by simp [hrk'], heq⟩

/-- A start that begins is built from the ranks of the status. -/
theorem built_planRestart {now : Time} {sys : DaosSystem}
    {m : EngineMemory} (hst : NarrowRanks st) (hm : BuiltRankSet m.running) :
    BuiltRankSet (planRestart now (engineRestartCandidates sys st) st m).memory.running := by
  unfold planRestart
  extract_lets tracks d
  split
  · exact hm
  · split
    · exact hm
    · refine ⟨d.due.insertionSort (· ≤ ·), ?_, rfl⟩
      intro n hn
      rw [List.mem_insertionSort] at hn
      rcases mem_due_considerRank hn with hnone | ⟨rk, hrk, rfl⟩
      · cases hnone
      · unfold engineRestartCandidates at hrk
        split at hrk
        · cases hrk
        · exact hst rk (List.mem_of_mem_filter hrk)

/-! ## Runs -/

/-- Stored ranks and the rank sets of starts in flight are narrow. -/
structure NarrowWorld (w : World) : Prop where
  stored : ∀ name sys, stored w.systems name = some sys → NarrowRanks sys.status
  running : ∀ name m, w.memory.engines.get name = some m → BuiltRankSet m.running

theorem NarrowWorld.memory (h : NarrowWorld w) (name : String) :
    BuiltRankSet ((w.memory.engines.get name).getD {}).running := by
  cases hm : w.memory.engines.get name with
  | none => exact builtRankSet_empty
  | some m => exact h.running name m hm

theorem NarrowWorld.respond (h : NarrowWorld w) {name ns : String} {S : Scope}
    {c : Call} (hc : SystemCall name ns S c) (hS : S.status = false) (hS' : S.engines = false)
    (f : Fault) : NarrowWorld (cluster.respond c f w).2 := by
  constructor
  · exact AllStored.respond h.stored hc hS f
  · intro other m hm
    rw [hc.engines hS'] at hm
    exact h.running other m hm

theorem NarrowWorld.wp {α : Type} {S : Scope} {P : α → Prop} {q : Op α} {name ns : String}
    (h : NarrowWorld s.world) (hq : q.Obeys (SystemCall name ns S) P)
    (hS : S.status = false) (hS' : S.engines = false) :
    q.wp cluster rely s (fun a t => P a ∧ NarrowWorld t.world) fun t => NarrowWorld t.world :=
  hq.wp (I := fun t => NarrowWorld t.world) (fun _ f _ hc _ _ ht => ht.respond hc hS hS' f) h

theorem NarrowWorld.noteEngines (h : NarrowWorld w) (name : String) {m : EngineMemory}
    (hm : BuiltRankSet m.running) : NarrowWorld (noteEngines w name m) := by
  refine ⟨h.stored, ?_⟩
  intro other m' hm'
  simp only [System.noteEngines, Table.get_put] at hm'
  split at hm'
  · cases hm'
    exact hm
  · exact h.running other m' hm'

theorem narrow_engines (name ns : String) : EnginesProof name ns NarrowWorld :=
  { other := fun _ f _ hc hw => hw.respond hc rfl rfl f
    finished := fun _ hw => hw.noteEngines name builtRankSet_empty
    touched := fun _ _ hw => hw.noteEngines name (hw.memory name) }

theorem wp_reconcileEngineRestart_narrow
    {ns : String} {p : Pass} (h : NarrowWorld s.world) (hp : NarrowRanks p.status) :
    (reconcileEngineRestart ns p).wp cluster rely s
      (fun _ t => NarrowWorld t.world) fun t => NarrowWorld t.world :=
  (narrow_engines p.sys.name ns).wp_reconcileEngineRestart
    (h.noteEngines p.sys.name (built_planRestart hp (h.memory p.sys.name)))

theorem narrow_stages {sys : DaosSystem}
    (hranks : NarrowRanks sys.status) :
    StageProof sys rely (fun t => NarrowWorld t.world) (fun t => NarrowWorld t.world)
      fun _ p t => NarrowWorld t.world ∧ NarrowRanks p.status :=
  { render := fun c f t hc _ _ ht => ht.respond hc rfl rfl f
    stop := fun _ ht => ht
    enter := fun p t hp ht => by
      have hmask := congrArg DaosSystemStatus.ranks hp.carried.status_eq
      exact ⟨ht, hranks.congr hmask⟩
    cond := fun _ p st t hst ht => by
      have hmask := congrArg DaosSystemStatus.ranks hst
      exact ⟨ht.1, ht.2.congr hmask⟩
    skip := fun _ _ _ ht => ht
    upgrade := fun rendered p t hp ht => by
      have hobeys := hp.carried.obeys_upgrade rendered
      refine Prog.wp_mono (ht.1.wp hobeys rfl rfl) ?_ fun _ h => h
      rintro r u ⟨hadv, hu⟩
      have hmask := congrArg DaosSystemStatus.ranks hadv.status
      exact ⟨hu, ht.2.congr hmask⟩
    format := fun inp p t hp ht => by
      have hobeys := obeys_reconcileFormat hp.patched.name hp.ns
      refine Prog.wp_mono (Prog.wp_and_returns (ht.1.wp hobeys rfl rfl)
        (obeys_reconcileFormat_result inp p)) ?_ fun _ h => h
      rintro r u ⟨⟨-, hu⟩, hr⟩
      exact ⟨hu, ht.2.format hr⟩
    rankOp := fun p t hp ht => by
      have hobeys := hp.obeys
      refine Prog.wp_mono (ht.1.wp hobeys rfl rfl) ?_ fun _ h => h
      rintro r u ⟨hadv, hu⟩
      have hmask := congrArg DaosSystemStatus.ranks hadv.status
      exact ⟨hu, ht.2.congr hmask⟩
    engines := fun p t hp ht => by
      have hobeys := hp.obeys_engines
      refine Prog.wp_mono (Prog.wp_and_returns (wp_reconcileEngineRestart_narrow ht.1 ht.2)
        hobeys) ?_ fun _ h => h
      rintro r u ⟨hu, hadv⟩
      have hmask := congrArg DaosSystemStatus.ranks hadv.status
      exact ⟨hu, ht.2.congr hmask⟩
    write := fun _ p t requeue _ _ ht => by
      have hwrite : ∀ f, NarrowWorld
          (cluster.next t (.updateSystemStatus p.sys.name p.status) f).world := by
        intro f
        constructor
        · exact AllStored.write ht.1.stored ht.2 f
        · intro other m hm
          rw [Handler.next_world, Handler.respond_world] at hm
          split at hm
          · exact ht.1.running other m hm
          · exact ht.1.running other m hm
      refine Prog.wp_bind (A := fun _ u => NarrowWorld u.world) ?_ fun _ _ hu => hu
      exact Prog.wp_ask (fun _ => hwrite .none) fun f _ _ _ => hwrite f }

theorem wp_reconcile_narrow {name : String} (h : NarrowWorld s.world) :
    (reconcile name).wp cluster rely s (fun _ t => NarrowWorld t.world)
      fun t => NarrowWorld t.world := by
  have hread : ∀ f, NarrowWorld (cluster.next s (.getSystem name) f).world := by
    intro f
    rw [Handler.next_world, respond_quiet rfl]
    exact h
  refine wp_reconcile (fun f _ => hread f) ?_
  intro sys hsys _ _
  exact (narrow_stages (h.stored name sys hsys)).wp_reconcileSystem (hread .none)

theorem NarrowWorld.congr {w' : World} (h : NarrowWorld w) (hside : systemSide w' = systemSide w) :
    NarrowWorld w' := by
  have hengines : w'.memory.engines = w.memory.engines := congrArg SystemSide.engines hside
  constructor
  · exact AllStored.congr h.stored hside
  · rw [hengines]
    exact h.running

theorem NarrowWorld.apply (h : NarrowWorld w) (c : Change) : NarrowWorld (c.apply w) := by
  constructor
  · exact AllStored.apply h.stored (fun rk hrk => by cases hrk) c
  · intro name m hm
    have hmemory : (c.apply w).memory = w.memory ∨ (c.apply w).memory = {} := by
      cases c with
      | restart => exact Or.inr rfl
      | createPool other annotations spec =>
          left
          simp only [Change.apply]
          split <;> rfl
      | setReadyReplicas key ready =>
          left
          simp only [Change.apply]
          split <;> rfl
      | jobProgress key conditions pods | jobRemoved key | jobCollected key =>
          left
          simp only [Change.apply, onJob]
          split <;> rfl
      | daosRuns key ranks =>
          left
          simp only [Change.apply, runInDaos]
          split
          · rfl
          · split <;> rfl
      | _ => exact Or.inl rfl
    rcases hmemory with hsame | hempty
    · rw [hsame] at hm
      exact h.running name m hm
    · rw [hempty] at hm
      simp at hm

theorem NarrowWorld.step (h : NarrowWorld w) (e : Event) :
    NarrowWorld (operator.step w e).1 := by
  cases e with
  | change c => exact h.apply c
  | reconcileSystem name faults =>
      have hwp : (reconcile name).wp cluster (fun _ => True) ⟨w, []⟩
          (fun _ t => NarrowWorld t.world) fun t => NarrowWorld t.world := wp_reconcile_narrow h
      exact Prog.exec_ends hwp faults fun _ _ => trivial
  | reconcilePool name faults =>
      exact step_keeps (fun _ _ _ hc hv => hv.congr (hc.systemSide rfl)) (by rintro c ⟨⟩) h
  | reconcileContainer key faults =>
      exact step_keeps (fun _ _ _ hc hv => hv.congr (hc.systemSide rfl)) (by rintro c ⟨⟩) h

/-- In every run, stored ranks are narrow and engine starts have rank sets that end. -/
theorem narrowWorld_final (events : List Event) : NarrowWorld (final events) :=
  Machine.final_induction (R := fun _ => True) ⟨by simp [DaosOperator.stored], by simp⟩
    (fun _ e hw _ => hw.step e) events fun _ _ => trivial

end System
end DaosOperator
