import DaosOperator.Safety.Lifetimes
import DaosOperator.Safety.RankSets
import Mathlib.Data.List.Dedup

/-!
# The ranks a pool is extended to

An extend is built from the ranks of the spec that the pool does not have.  What the pool
has is what its query lists as enabled, and a rank that DAOS excluded is not listed, so the
extend is about new ranks as long as none is excluded.
-/

namespace DaosOperator

open Effect
open DaosOperator.System (namespaceOf)

/-! ## The property -/

/-- The ranks that the words of an extend name. -/
def extendTargets : List String → List String
  | ["pool", "extend", target, _] =>
      Text.split (String.ofList (target.toList.drop "--ranks=".length)) ','
  | _ => []

def Dmg.RunSpec.daosPool (spec : Dmg.RunSpec) : Option (String × String) :=
  match spec.owner with
  | .pool name => (lookupKey spec.labels "daos.gluesys.com/system").map (·, name)
  | .system _ => none

/-- No Job extends a pool to a rank that it was created on or extended to before. -/
def ExtendsToNew (_ : List Step) (step : Step) : Prop :=
  ∀ spec ∈ step.obs.filterMap created, ∀ label ∈ spec.daosPool,
    ∀ fact ∈ step.before.daosPools.get label,
      ∀ r ∈ fact.ranks, toString r ∉ extendTargets spec.command.args

instance (past : List Step) (step : Step) : Decidable (ExtendsToNew past step) :=
  inferInstanceAs (Decidable (∀ spec ∈ step.obs.filterMap created, ∀ label ∈ spec.daosPool,
    ∀ fact ∈ step.before.daosPools.get label,
      ∀ r ∈ fact.ranks, toString r ∉ extendTargets spec.command.args))

/-- The ranks that a full answer of the query lists as enabled. -/
def Pool.reportedRanks (res : Dmg.Result) : Option (List Int) :=
  match Pool.queryAnswer res with
  | .found info false => Dmg.ranks info.enabledRanks
  | _ => none

/-- The ranks that a reconcile takes for those of the pool: what the query that is read lists,
and what is recorded while an extend is in progress. -/
def knownRanks (w : World) (pool : DaosPool) (sys : DaosSystem) : Option (List Int) :=
  match pool.status.operation with
  | none =>
      (Dmg.resultOf w (Pool.jobKey pool.name (namespaceOf sys) .query)).bind Pool.reportedRanks
  | some .extend => some pool.status.enabledRanks
  | some _ => none

/-- The reconcile takes none of the ranks of the pool for missing. -/
def KnowsAll (w : World) (pool : DaosPool) (sys : DaosSystem) : Prop :=
  ∀ known ∈ knownRanks w pool sys, ∀ fact ∈ w.daosPools.get (sys.name, pool.name),
    ∀ r ∈ fact.ranks, r ∈ known
  deriving Decidable

/-- A reconcile of a pool without an extend Job takes none of its ranks for missing. -/
def KnowsRanks (_ : List Step) (step : Step) : Prop :=
  ∀ name ∈ step.event.pool, ∀ pool ∈ cached step.before.pools name,
    ∀ sys ∈ cached step.before.systems pool.spec.systemRef,
      (step.before.jobs.get (Pool.jobKey pool.name (namespaceOf sys) (.op .extend))).isNone →
        KnowsAll step.before pool sys
  deriving Decidable

/-! ## What an extend names -/

namespace Pool

theorem mem_missingRanks {want have_ : List Int} {r : Int} :
    r ∈ missingRanks want have_ ↔ r ∈ want ∧ r ∉ have_ := by
  simp [missingRanks, List.mem_dedup]

/-- The words of an extend name the ranks they were built from. -/
theorem extendTargets_ranksCSV {ranks : List Int} (hne : ranks ≠ []) (label : String) :
    extendTargets ["pool", "extend", "--ranks=" ++ ranksCSV ranks, label] =
      ranks.map toString := by
  have hdrop : String.ofList (("--ranks=" ++ ranksCSV ranks).toList.drop "--ranks=".length) =
      ranksCSV ranks := by
    rw [String.toList_append, ← String.length_toList, List.drop_left, String.ofList_toList]
  change Text.split (String.ofList (("--ranks=" ++ ranksCSV ranks).toList.drop "--ranks=".length))
    ',' = _
  rw [hdrop]
  refine Text.split_join rfl (by simpa using hne) ?_
  intro s hs
  obtain ⟨n, -, rfl⟩ := List.mem_map.mp hs
  exact Text.notMem_toString_int (by decide) (by decide)

/-- An extend names no rank that the pool is known to have. -/
theorem notMem_extendTargets {pool : DaosPool} {sys : DaosSystem} {ns : String} {r : Int}
    (h : r ∈ pool.status.enabledRanks) :
    toString r ∉ extendTargets (opSpec pool sys ns (.op .extend)).command.args := by
  intro hmem
  by_cases hne : missingRanks pool.spec.ranks pool.status.enabledRanks = []
  · -- nothing is missing: the list of ranks is empty
    have hargs : (opSpec pool sys ns (.op .extend)).command.args =
        ["pool", "extend", "--ranks=" ++ ranksCSV [], poolLabel pool] := by
      rw [← hne]
      rfl
    have htargets : extendTargets ["pool", "extend", "--ranks=" ++ ranksCSV [], poolLabel pool] =
        [""] := by
      rfl
    rw [hargs, htargets, List.mem_singleton] at hmem
    exact Text.toString_ne_empty r hmem
  · have htargets := extendTargets_ranksCSV hne (poolLabel pool)
    rw [show extendTargets (opSpec pool sys ns (.op .extend)).command.args = _ from htargets]
      at hmem
    obtain ⟨m, hm, hsame⟩ := List.mem_map.mp hmem
    rw [Text.toString_injective hsame] at hm
    exact (mem_missingRanks.mp hm).2 h

theorem extendTargets_of_verb {verb : String} {rest : List String} (h : verb ≠ "extend") :
    extendTargets ("pool" :: verb :: rest) = [] := by
  unfold extendTargets
  split
  · next heq =>
      simp only [List.cons.injEq] at heq
      exact absurd heq.2.1 h
  · rfl

theorem extendTargets_opSpec {pool : DaosPool} {sys : DaosSystem} {ns : String} {job : PoolJob}
    (h : job ≠ .op .extend) : extendTargets (opSpec pool sys ns job).command.args = [] := by
  cases job with
  | query => exact extendTargets_of_verb (by decide)
  | op op =>
      cases op with
      | extend => exact absurd rfl h
      | heal => rfl
      | _ => exact extendTargets_of_verb (by decide)

/-- A Job that extends a pool names only ranks that the reconcile does not take for those of
the pool. -/
theorem Act.notMem_knownRanks {w : World} {log : Log} {pool : DaosPool} {spec : Dmg.RunSpec}
    {r : Int} (h : Act w pool log (.createJob spec))
    (hr : toString r ∈ extendTargets spec.command.args) :
    ∃ sys known, cached w.systems pool.spec.systemRef = some sys ∧
      spec.key = jobKey pool.name (namespaceOf sys) (.op .extend) ∧
      spec.daosPool = some (sys.name, pool.name) ∧ known ∈ knownRanks w pool sys ∧ r ∉ known := by
  have hother : ∀ {pool' : DaosPool} {sys : DaosSystem} {ns : String} {job : PoolJob},
      spec = opSpec pool' sys ns job → job = .op .extend := by
    rintro pool' sys ns job rfl
    by_contra hjob
    rw [extendTargets_opSpec hjob] at hr
    cases hr
  generalize hcall : Call.createJob spec = call at h
  cases h with
  | quiet h =>
      subst hcall
      cases h
  | query _ _ =>
      cases hcall
      cases hother rfl
  | @polls sys op h hop =>
      cases hcall
      cases hother rfl
      refine ⟨sys, pool.status.enabledRanks, h.system, rfl, rfl, ?_, ?_⟩
      · simp [knownRanks, hop]
      · exact fun hmem => notMem_extendTargets hmem hr
  | creates _ =>
      cases hcall
      cases hother rfl
  | @drifts sys res info enabled op h =>
      cases hcall
      cases hother rfl
      refine ⟨sys, enabled, h.system, rfl, rfl, ?_, ?_⟩
      · simp [knownRanks, h.idle, h.read.1, reportedRanks, h.answer, h.ranks]
      · intro hmem
        have hmem : r ∈ (startPool pool enabled .extend).status.enabledRanks := hmem
        exact notMem_extendTargets hmem hr
  | destroys _ _ =>
      cases hcall
      cases hother rfl
  | _ => cases hcall

end Pool

/-- The Jobs of a container extend no pool. -/
theorem Container.Act.extendTargets {w : World} {log : Log} {c : DaosContainer}
    {spec : Dmg.RunSpec} (h : Container.Act w c log (.createJob spec)) :
    extendTargets spec.command.args = [] := by
  generalize hcall : Call.createJob spec = call at h
  cases h with
  | quiet h =>
      subst hcall
      cases h
  | @polls pool sys op _ _ =>
      cases hcall
      cases op <;> rfl
  | query _ | creates _ | drifts _ _ | heals _ _ | destroys _ =>
      cases hcall
      rfl
  | _ => cases hcall

/-! ## Runs -/

theorem extendsToNew_step {past : List Step} {w : World} {e : Event}
    (hknows : KnowsRanks past (operator.record w e)) :
    ExtendsToNew past (operator.record w e) := by
  intro spec hspec label hlabel fact hfact r hr htarget
  obtain ⟨x, hx, hcreated⟩ := List.mem_filterMap.mp hspec
  obtain ⟨hcall, -, hnone⟩ := created_eq_some.mp hcreated
  have h := stepCall_of_mem hx
  rw [hcall] at h
  cases h with
  | quiet h => cases h
  | system _ h =>
      cases h with
      | quiet h => cases h
      | createJob kind _ _ hjob =>
          rw [show spec.daosPool = none by simp [Dmg.RunSpec.daosPool, hjob.owner]] at hlabel
          cases hlabel
  | container _ h =>
      rw [h.extendTargets] at htarget
      cases htarget
  | @pool name faults pool _ hpool h =>
      obtain ⟨sys, known, hsys, hkey, hat, hknown, hmissing⟩ := h.notMem_knownRanks htarget
      rw [hat] at hlabel
      cases hlabel
      -- where the Job exists already, none is created
      have hfree : (w.jobs.get (Pool.jobKey pool.name (namespaceOf sys) (.op .extend))).isNone := by
        rw [Option.isNone_iff_eq_none, ← Option.not_isSome_iff_eq_none]
        intro hexists
        have hstill := job_of_mem hexists (by rintro c ⟨⟩) hx
        rw [← hkey, hnone] at hstill
        cases hstill
      exact hmissing (hknows name rfl pool hpool sys hsys hfree known hknown fact hfact r hr)

/-- Where no rank of a pool is taken for missing, a pool is extended to new ranks only. -/
theorem extends_to_new (events : List Event) (hknows : Along KnowsRanks [] (history events)) :
    Along ExtendsToNew [] (history events) := by
  refine Machine.along_induction (I := fun _ _ => True) ?_ trivial events hknows
  intro past w e _ hstep
  exact ⟨extendsToNew_step hstep, trivial⟩

/-- A pool is created on the ranks 0 and 1, as its spec says; then the spec becomes this one,
and the next query lists these ranks. -/
def extendingRun (ranks : List Int) (enabled : String) : List Event :=
  queriedRun { systemRef := "s", ranks := [0, 1] } ++
    [jobAnswers ⟨"daos-system", "pool-p-dmg-query"⟩ "\x7b\"error\":\"not found\"\x7d"] ++
    poolPass "p" ++
    [.change (.daosRuns ⟨"daos-system", "pool-p-dmg-create"⟩ [0, 1]),
      jobAnswers ⟨"daos-system", "pool-p-dmg-create"⟩
        "\x7b\"response\":\x7b\"uuid\":\"u\"\x7d\x7d"] ++ poolPass "p" ++
    [.change (.editPool "p" { systemRef := "s", ranks }), .change (.deliverPool "p"),
      .change (.jobRemoved ⟨"daos-system", "pool-p-dmg-query"⟩)] ++ poolPass "p" ++
    [jobAnswers ⟨"daos-system", "pool-p-dmg-query"⟩
      ("\x7b\"response\":\x7b\"uuid\":\"u\",\"enabled_ranks\":\"" ++ enabled ++
        "\"\x7d\x7d")] ++ poolPass "p"

/-- The spec asks for a third rank while the other two are enabled. -/
theorem extends_to_new_third :
    (∃ step ∈ history (extendingRun [0, 1, 2] "0-1"), ∃ spec ∈ step.obs.filterMap created,
        "2" ∈ extendTargets spec.command.args) ∧
      Along ExtendsToNew [] (history (extendingRun [0, 1, 2] "0-1")) := by
  have hrun : (∃ step ∈ history (extendingRun [0, 1, 2] "0-1"),
      ∃ spec ∈ step.obs.filterMap created, "2" ∈ extendTargets spec.command.args) ∧
        Along KnowsRanks [] (history (extendingRun [0, 1, 2] "0-1")) := by
    decide +kernel
  exact ⟨hrun.1, extends_to_new (extendingRun [0, 1, 2] "0-1") hrun.2⟩

/-- DAOS excluded rank 1: the pool is extended to a rank it was created on. -/
theorem extends_to_excluded : ¬Along ExtendsToNew [] (history (extendingRun [0, 1] "0")) := by
  decide +kernel

end DaosOperator
