import DaosOperator.Safety.ContainersApart
import DaosOperator.Safety.OwnEvidence
import DaosOperator.Safety.PoolIdentity

/-!
# The reintegration mode behind a heal

A container is cleared only while the recorded reintegration mode of its pool is
`incremental`.  The record says what the latest query or the latest repair left, not what
the mode was when a rank came back, so it can be clean again while the container is not.
-/

namespace DaosOperator

open Effect
open DaosOperator.System (namespaceOf)

/-! ## The property -/

/-- The mode under which a reintegrate discards nothing. -/
def incremental : String := "incremental"

/-- The reintegration mode that the query read by a step reports. -/
def reportedMode (name : String) (r : Step) : Option String :=
  if r.event.pool = some name then
    (queryKey r.before name).bind fun key =>
      if readsJob r.obs key then
        (Dmg.resultOf r.before key).bind fun res => Pool.queriedProp res.output "reintegration"
      else none
  else none

/-- The query of the container that a step reads finds it in this pool. -/
def opens (key : ObjectKey) (pool : String) (r : Step) : Bool :=
  r.event.container = some key && (containerQueryKey r.before key).any fun k =>
    readsJob r.obs k &&
    (r.before.jobs.get k).any (fun job => job.spec.command.args.take 3 = ["cont", "query", pool]) &&
    (Dmg.resultOf r.before k).any fun res =>
      match Container.queryAnswer res with
      | .found _ => true
      | _ => false

/-- Since the container last answered a query, one of its pool reported another mode. -/
def Tainted (past : List Step) (pool : String) (key : ObjectKey) : Prop :=
  ∃ r ∈ past.takeWhile fun r => !opens key pool r,
    ∃ mode ∈ reportedMode pool r, mode ≠ incremental
  deriving Decidable

/-- A container whose data may have been discarded is not cleared. -/
def ClearsWhole (past : List Step) (step : Step) : Prop :=
  ∀ key ∈ step.event.container, jobsFor isHeal (.container key) step ≠ [] →
    ∀ c ∈ cached step.before.containers key, ¬Tainted past c.spec.poolRef key
  deriving Decidable

/-! ## When it holds -/

/-- The Job of a pool's operation, where its reconcile gets as far as the system. -/
def operationKey (w : World) (name : String) (op : Operation) : Option ObjectKey :=
  (cached w.pools name).bind fun pool => (cached w.systems pool.spec.systemRef).map fun sys =>
    Pool.jobKey pool.name (namespaceOf sys) (.op op)

/-- The heal Job of a container, where its reconcile gets as far as the system. -/
def healKey (w : World) (key : ObjectKey) : Option ObjectKey :=
  (cached w.containers key).bind fun c => (cached w.pools c.spec.poolRef).bind fun pool =>
    (cached w.systems pool.spec.systemRef).map fun sys =>
      Container.jobKey c.key (namespaceOf sys) (.op .heal)

/-- A Job has finished that makes the recorded mode what it should be: a query that reports
it, a create, or a repair. -/
def restores (w : World) (name : String) : Bool :=
  ((queryKey w name).any fun key => (Dmg.resultOf w key).any fun res =>
    Pool.queriedProp res.output "reintegration" = some incremental) ||
  [Operation.create, .reintMode].any fun op =>
    (cached w.pools name).any (fun pool => pool.status.operation = some op) &&
      (operationKey w name op).any fun key => (Dmg.resultOf w key).isSome

/-- Another mode, once it was read, stays recorded until every container of the pool has
answered a query; containers come to a pool that did not report one; pools are read up to
date, and a heal in progress has its Job. -/
def ModeRemembered (past : List Step) (step : Step) : Prop :=
  (∀ d ∈ declares step.event, ¬Tainted past d.2.1 d.1) ∧
  (∀ name ∈ step.event.pool,
    cached step.before.pools name = stored step.before.pools name ∧
    (restores step.before name = true → ∀ key ∈ step.before.containers.keys,
      ∀ x ∈ versions step.before.containers key, ∀ c ∈ x, c.spec.poolRef = name →
        ¬Tainted past name key) ∧
    ∀ mode ∈ reportedMode name step, mode ≠ incremental →
      ∀ p ∈ stored step.after.pools name, p.status.reintegrationMode = mode) ∧
  ∀ key ∈ step.event.container, ∀ c ∈ cached step.before.containers key,
    cached step.before.pools c.spec.poolRef = stored step.before.pools c.spec.poolRef ∧
    (c.status.operation = some .heal →
      ∀ k ∈ healKey step.before key, (step.before.jobs.get k).isSome = true)
  deriving Decidable

/-! ## What a pool's status says about the mode -/

/-- A move keeps the mode, takes the one that the query reports, or ends a create or a
repair. -/
theorem Pool.Move.mode {w : World} {log : Log} {pool : DaosPool} {st : DaosPoolStatus}
    (h : Pool.Move w log pool st) :
    st.reintegrationMode = pool.status.reintegrationMode ∨
      (∃ sys res, Pool.Queried w log pool sys res ∧ st.reintegrationMode =
        (Pool.queriedProp res.output "reintegration").getD pool.status.reintegrationMode) ∨
      ∃ sys op res, Pool.Ended w log pool sys op res ∧ op ∈ [Operation.create, .reintMode] := by
  cases h with
  | noSystem _ hst _ | notFormatted _ _ hst _ | waits _ _ hst _ | unclear _ _ hst _
  | missing _ _ _ hst _ | keeps _ _ _ _ hst _ | creates _ hst _ | destroys _ hst
  | destroyFails _ hst =>
      have hmode := congrArg DaosPoolStatus.reintegrationMode hst
      exact Or.inl hmode
  | @settles sys res info healthOnly enabled h _ hst =>
      have hmode := congrArg DaosPoolStatus.reintegrationMode hst
      obtain ⟨percent, hrecord⟩ :=
        Pool.record_queriedStatus pool sys info healthOnly enabled res w.clock
      have hquery := congrArg DaosPoolStatus.reintegrationMode hrecord
      exact Or.inr (Or.inl ⟨sys, res, h.toQueried, hmode.trans hquery⟩)
  | @drifts sys res info enabled op h hst _ =>
      have hmode := congrArg DaosPoolStatus.reintegrationMode hst
      obtain ⟨percent, hrecord⟩ := Pool.record_queriedStatus pool sys info false enabled res w.clock
      have hquery := congrArg DaosPoolStatus.reintegrationMode hrecord
      exact Or.inr (Or.inl ⟨sys, res, h.toQueried, hmode.trans hquery⟩)
  | @fails sys op res msg h _ hst _ =>
      have hmode := congrArg DaosPoolStatus.reintegrationMode hst
      have hended := congrArg DaosPoolStatus.reintegrationMode
        (Pool.record_setDegraded pool sys pool.status)
      exact Or.inl (hmode.trans hended)
  | @succeeds st' sys op res ev h hres hst _ =>
      have hmode := congrArg DaosPoolStatus.reintegrationMode hst
      by_cases hop : op ∈ [Operation.create, .reintMode]
      · exact Or.inr (Or.inr ⟨sys, op, res, h, hop⟩)
      · obtain ⟨env, happly⟩ := Pool.opResult_applyOp hres
        have hended := congrArg DaosPoolStatus.reintegrationMode
          (Pool.record_setDegraded pool sys pool.status)
        refine Or.inl (hmode.trans (Eq.trans ?_ hended))
        cases op with
        | create | reintMode => simp at hop
        | _ =>
            cases happly
            rfl

theorem Container.incremental_of_unclear {pool : DaosPool} {q : Time}
    (h : Container.unclear pool q = none) : pool.status.reintegrationMode = incremental := by
  unfold Container.unclear at h
  dsimp only at h
  split at h
  · cases h
  · split at h
    · cases h
    · next hmode => exact not_not.mp hmode

/-! ## What a run keeps -/

/-- What a run keeps: the pool of a tainted container has another mode recorded. -/
structure ModeKnown (past : List Step) (w : World) : Prop where
  named : WellNamed w
  modes : ∀ key c p, some c ∈ versions w.containers key →
    stored w.pools c.spec.poolRef = some p → Tainted past c.spec.poolRef key →
      p.status.reintegrationMode ≠ incremental

section Steps

variable {past : List Step} {w : World} {e : Event} {name : String}

theorem tainted_cons {r : Step} {key : ObjectKey} (h : Tainted (r :: past) name key) :
    Tainted past name key ∨ ∃ mode ∈ reportedMode name r, mode ≠ incremental := by
  obtain ⟨r', hr', mode, hmode, hne⟩ := h
  rw [List.takeWhile_cons] at hr'
  split at hr'
  · rcases List.mem_cons.mp hr' with rfl | hr'
    · exact Or.inr ⟨mode, hmode, hne⟩
    · exact Or.inl ⟨r', hr', mode, hmode, hne⟩
  · cases hr'

theorem pool_of_reportedMode {r : Step} {mode : String} (h : reportedMode name r = some mode) :
    r.event.pool = some name := by
  unfold reportedMode at h
  split at h
  · assumption
  · cases h

/-- What a step does to the recorded mode. -/
theorem mode_step (hw : WellNamed w) (hmem : ModeRemembered past (operator.record w e))
    {p' : DaosPool} (hp : stored (operator.step w e).1.pools name = some p') :
    p'.status.reintegrationMode ≠ incremental ∨
      (∃ p, stored w.pools name = some p ∧
        p'.status.reintegrationMode = p.status.reintegrationMode) ∨
      e.pool = some name ∧ restores w name = true := by
  have hfresh : ReadsFresh past (operator.record w e) := fun name hname =>
    decide_eq_true (hmem.2.1 name hname).1
  by_cases he : ∃ c, e = .change c
  · obtain ⟨c, rfl⟩ := he
    cases poolStep hw hfresh hp with
    | created _ hstatus _ =>
        left
        rw [hstatus]
        decide
    | same hstored hstatus _ => exact Or.inr (Or.inl ⟨_, hstored, by rw [hstatus]⟩)
    | moved he _ _ _ _ => cases he
  · obtain ⟨p, hstored, hleft⟩ := pool_left hw (fun c hc => he ⟨c, hc⟩) hp
    rcases hleft.status with hstatus | ⟨faults, pool, rfl, hpool, hmove⟩
    · exact Or.inr (Or.inl ⟨p, hstored, by rw [hstatus]⟩)
    · have hread := hfresh.reads
      rw [hpool, hstored] at hread
      cases hread
      rcases hmove.mode with hmode | ⟨sys, res, h, hmode⟩ | ⟨sys, op, res, h, hop⟩
      · exact Or.inr (Or.inl ⟨p, hstored, hmode⟩)
      · have hkey : queryKey w name = some (Pool.jobKey p.name (namespaceOf sys) .query) := by
          simp [queryKey, hpool, h.system]
        cases hprop : Pool.queriedProp res.output "reintegration" with
        | none =>
            rw [hprop] at hmode
            exact Or.inr (Or.inl ⟨p, hstored, hmode⟩)
        | some mode =>
            rw [hprop] at hmode
            by_cases hinc : mode = incremental
            · refine Or.inr (Or.inr ⟨rfl, ?_⟩)
              simp [restores, hkey, h.read.1, hprop, hinc]
            · left
              rw [hmode]
              exact hinc
      · refine Or.inr (Or.inr ⟨rfl, ?_⟩)
        have hkey : operationKey w name op =
            some (Pool.jobKey p.name (namespaceOf sys) (.op op)) := by
          simp [operationKey, hpool, h.system]
        unfold restores
        rw [Bool.or_eq_true, List.any_eq_true]
        exact Or.inr ⟨op, hop, by simp [hpool, h.operation, hkey, h.read.1]⟩

theorem ModeKnown.step (hinv : ModeKnown past w)
    (hmem : ModeRemembered past (operator.record w e)) :
    ModeKnown (operator.record w e :: past) (operator.step w e).1 := by
  refine ⟨hinv.named.step e, ?_⟩
  intro key c p' hc hp' htainted
  rcases tainted_cons htainted with hbefore | ⟨mode, hmode, hne⟩
  · -- an older version is tainted, so the pool has another mode recorded already
    rcases version_declared hc with ⟨c₀, hc₀, hspec⟩ | hdeclares
    · rw [← hspec] at hp' hbefore
      rcases mode_step hinv.named hmem hp' with hmode | ⟨p, hp, hmode⟩ | ⟨hpool, hrestores⟩
      · exact hmode
      · rw [hmode]
        exact hinv.modes key c₀ p hc₀ hp hbefore
      · have hkey : key ∈ w.containers.keys := by
          unfold versions at hc₀
          cases hget : w.containers.get key with
          | none => simp [hget] at hc₀
          | some cell => exact w.containers.covers key cell hget
        exact absurd hbefore ((hmem.2.1 _ hpool).2.1 hrestores key hkey (some c₀) hc₀ c₀ rfl rfl)
    · exact absurd hbefore (hmem.1 _ hdeclares)
  · rw [(hmem.2.1 _ (pool_of_reportedMode hmode)).2.2 mode hmode hne p' hp']
    exact hne

theorem clearsWhole_step (hinv : ModeKnown past w)
    (hmem : ModeRemembered past (operator.record w e)) :
    ClearsWhole past (operator.record w e) := by
  intro key hkey hjobs c hc htainted
  obtain ⟨j, hj⟩ := List.exists_mem_of_ne_nil _ hjobs
  obtain ⟨ho, x, hx, spec, hcreated, hheal⟩ := created_of_jobsFor hj
  obtain ⟨hcall, -, hnone⟩ := created_eq_some.mp hcreated
  have h := stepCall_of_mem hx
  rw [hcall] at h
  have hread : cached w.containers key = some c := hc
  cases h with
  | quiet h => cases h
  | system _ _ => cases ho
  | pool _ _ => cases ho
  | container hcont h =>
      cases ho
      rw [hread] at hcont
      cases hcont
      obtain ⟨hpool, hbusy⟩ := hmem.2.2 key rfl c hread
      obtain ⟨pool, sys, rfl, hserves, hop | ⟨q, -, hwhole⟩⟩ := h.of_heal hheal
      · -- the heal in progress has its Job, so none is created
        have hexists := hbusy hop (Container.jobKey c.key (namespaceOf sys) (.op .heal))
          (by simp [healKey, hread, hserves.inPool, hserves.inSystem])
        have hstill := job_of_mem hexists (by rintro c ⟨⟩) hx
        rw [show x.before.jobs.get (Container.jobKey c.key (namespaceOf sys) (.op .heal)) = none
          from hnone] at hstill
        cases hstill
      · have hstored : stored w.pools c.spec.poolRef = some pool := by
          rw [← hserves.inPool]
          exact hpool.symm
        exact hinv.modes key c pool (cached_mem_versions hread) hstored htainted
          (Container.incremental_of_unclear hwhole)

end Steps

/-- Where another mode is remembered long enough, only whole containers are cleared. -/
theorem clears_whole (events : List Event) (hmem : Along ModeRemembered [] (history events)) :
    Along ClearsWhole [] (history events) := by
  refine Machine.along_induction (I := ModeKnown) ?_ ?_ events hmem
  · intro past w e hinv hmem
    exact ⟨clearsWhole_step hinv hmem, hinv.step hmem⟩
  · exact ⟨wellNamed_empty, by simp [versions]⟩

/-- The container is queried once more. -/
def contQueried : List Event :=
  .change (.jobRemoved ⟨"daos-system", "cont-a-c-daos-query"⟩) :: .change (.tick 600) ::
    contPass ⟨"a", "c"⟩

/-- The container answers; then these events happen, DAOS refuses to open the container, the
pool is queried, and the container is cleared. -/
def healedRun (meanwhile : List Event) : List Event :=
  formattedRun ++ clearingPool ++ newContainer ++
    jobAnswers ⟨"daos-system", "cont-a-c-daos-query"⟩
      "\x7b\"response\":\x7b\"container_uuid\":\"v\",\"health\":\"HEALTHY\"\x7d\x7d" ::
    contPass ⟨"a", "c"⟩ ++ meanwhile ++ contQueried ++ refuses ++
    poolQueried (wholeOutput "incremental") ++ contPass ⟨"a", "c"⟩

/-- Nothing happens meanwhile: the container is cleared under the mode it always had. -/
theorem clears_whole_incremental :
    (∃ step ∈ history (healedRun []), jobsFor isHeal (.container ⟨"a", "c"⟩) step ≠ []) ∧
      Along ClearsWhole [] (history (healedRun [])) := by
  have hrun : (∃ step ∈ history (healedRun []),
      jobsFor isHeal (.container ⟨"a", "c"⟩) step ≠ []) ∧
        Along ModeRemembered [] (history (healedRun [])) := by
    decide +kernel
  exact ⟨hrun.1, clears_whole (healedRun []) hrun.2⟩

/-- The mode is `data_sync` for a while: the next query makes the record clean again. -/
theorem clears_tainted : ¬Along ClearsWhole [] (history (healedRun
    (poolQueried (wholeOutput "data_sync") ++ poolQueried (wholeOutput "incremental")))) := by
  decide +kernel

end DaosOperator
