import DaosOperator.Safety.Reintegration

/-!
# When the evidence for a heal was taken

A container that DAOS refused to open is cleared once its pool is known to be whole, and
what is known of the pool has to be younger than the refusal.  The operator compares when
the two queries started.  Here a query also has a time at which it was answered, which is
when its answer was true.
-/

namespace DaosOperator

open Effect
open DaosOperator.System (namespaceOf)
open Container (contKey)

variable {pool : DaosPool} {st : DaosPoolStatus} {faults : List Fault} {key : ObjectKey}

/-! ## The property -/

/-- The query that a reconcile of the container reads and that answered `DER_RF`: when it
counts as made, and its Job. -/
def refusedQuery (key : ObjectKey) (r : Step) : Option (Time × Nat) :=
  if r.event.container = some key then
    (containerQueryKey r.before key).bind fun k =>
      if readsJob r.obs k then
        (r.before.jobs.get k).bind fun job => (Dmg.resultOf r.before k).bind fun res =>
          if Dmg.rfExceeded res.output then some (res.queriedAt r.before.clock, job.uid) else none
      else none
  else none

/-- The query that a reconcile of the container decides: the remembered one, or the one it
reads. -/
def decided (past : List Step) (step : Step) (key : ObjectKey) : Option (Time × Nat) :=
  match step.before.memory.rfPending.get (contKey key) with
  | some q => (past.findSome? (refusedQuery key)).map fun d => (q, d.2)
  | none => refusedQuery key step

/-- The Job of the query that a step reads, where the status has its data from that query. -/
def provides (name : String) (ps : DaosPoolStatus) (r : Step) : Option Nat :=
  if r.event.pool = some name then
    (queryKey r.before name).bind fun k =>
      if readsJob r.obs k then
        (r.before.jobs.get k).bind fun job => (Dmg.resultOf r.before k).bind fun res =>
          match Pool.queryAnswer res with
          | .found info _ =>
              if ps.state = info.state ∧ ps.disabledTargets = info.disabledTargets ∧
                  ps.rebuildState = info.rebuildState ∧
                  ps.lastQueryTime = some (res.queriedAt r.before.clock) then some job.uid
              else none
          | _ => none
      else none
  else none

/-- The status of the pool that a heal relies on comes from a query that was answered no
earlier than the refusal. -/
def NewerEvidence (answer : Nat → Time) (past : List Step) (step : Step) : Prop :=
  ∀ key ∈ step.event.container, jobsFor isHeal (.container key) step ≠ [] →
    ∀ c ∈ cached step.before.containers key, ∀ pool ∈ cached step.before.pools c.spec.poolRef,
      ∃ d ∈ decided past step key, ∃ r ∈ past,
        ∃ uid ∈ provides c.spec.poolRef pool.status r, answer d.2 ≤ answer uid
  deriving Decidable

/-! ## When it holds -/

def StartsFirst (answer : Nat → Time) (_ : List Step) (step : Step) : Prop :=
  ∀ key ∈ step.before.jobs.keys, ∀ job ∈ step.before.jobs.get key,
    ∀ res ∈ Dmg.resultOf step.before key, ∀ start ∈ res.started, start ≤ answer job.uid
  deriving Decidable

/-- The query of the pool did not start while the refused query ran; the start of a pool's
query is known, a heal in progress has its Job, and a namespace has no slash in its name. -/
def NotBetween (answer : Nat → Time) (past : List Step) (step : Step) : Prop :=
  (∀ name ∈ step.event.pool, ∀ k ∈ queryKey step.before name,
    ∀ res ∈ Dmg.resultOf step.before k, res.started ≠ none) ∧
  ∀ key ∈ step.event.container, '/' ∉ key.ns.toList ∧
    ∀ c ∈ cached step.before.containers key,
      (c.status.operation = some .heal →
        ∀ k ∈ healKey step.before key, (step.before.jobs.get k).isSome = true) ∧
      ∀ pool ∈ cached step.before.pools c.spec.poolRef, ∀ last ∈ pool.status.lastQueryTime,
        ∀ d ∈ decided past step key, last < d.1 ∨ answer d.2 ≤ last
  deriving Decidable

/-- A container is cleared only when its pool was queried no earlier than itself. -/
theorem Container.queried_of_unclear {q : Time}
    (h : Container.unclear pool q = none) :
    ∃ last, pool.status.lastQueryTime = some last ∧ q ≤ last := by
  unfold Container.unclear at h
  dsimp only at h
  split at h
  · cases h
  split at h
  · cases h
  split at h
  · cases h
  split at h
  · cases h
  split at h
  · cases h
  · next last hlast =>
      split at h
      · cases h
      · next hle => exact ⟨last, hlast, not_lt.mp hle⟩

/-! ## Where a status comes from -/

/-- What a decision about a container goes by. -/
def DaosPoolStatus.health (st : DaosPoolStatus) : String × Int × String × Option Time :=
  (st.state, st.disabledTargets, st.rebuildState, st.lastQueryTime)

theorem Pool.applyOp_health {st' : DaosPoolStatus} {env : Dmg.Envelope}
    {op : Operation} {ev : Option (String × String)}
    (h : Pool.applyOp pool st env op = .ok (st', ev)) : st'.health = st.health := by
  cases op with
  | create =>
      unfold Pool.applyOp at h
      cases hpool : Dmg.poolCreate env with
      | error e => simp [hpool, Except.map] at h
      | ok answer =>
          simp only [hpool, Except.map] at h
          cases h
          rfl
  | _ =>
      cases h
      rfl

/-- A move keeps what is known of the pool, or takes it from the query. -/
theorem Pool.Move.health {w : World} {log : Log}
    (h : Pool.Move w log pool st) :
    st.health = pool.status.health ∨
      ∃ sys res info healthOnly, Pool.Queried w log pool sys res ∧
        Pool.queryAnswer res = .found info healthOnly ∧
        st.health = (info.state, info.disabledTargets, info.rebuildState,
          some (res.queriedAt w.clock)) := by
  cases h with
  | noSystem _ hst _ | notFormatted _ _ hst _ | waits _ _ hst _ | unclear _ _ hst _
  | missing _ _ _ hst _ | keeps _ _ _ _ hst _ | creates _ hst _ | destroys _ hst
  | destroyFails _ hst =>
      have hhealth := congrArg DaosPoolStatus.health hst
      exact Or.inl hhealth
  | @settles sys res info healthOnly enabled h _ hst =>
      have hhealth := congrArg DaosPoolStatus.health hst
      obtain ⟨percent, hrecord⟩ :=
        Pool.record_queriedStatus pool sys info healthOnly enabled res w.clock
      have hquery := congrArg DaosPoolStatus.health hrecord
      exact Or.inr ⟨sys, res, info, healthOnly, h.toQueried, h.answer, hhealth.trans hquery⟩
  | @drifts sys res info enabled op h hst _ =>
      have hhealth := congrArg DaosPoolStatus.health hst
      obtain ⟨percent, hrecord⟩ := Pool.record_queriedStatus pool sys info false enabled res w.clock
      have hquery := congrArg DaosPoolStatus.health hrecord
      exact Or.inr ⟨sys, res, info, false, h.toQueried, h.answer, hhealth.trans hquery⟩
  | @fails sys op res msg h _ hst _ =>
      have hhealth := congrArg DaosPoolStatus.health hst
      have hended := congrArg DaosPoolStatus.health
        (Pool.record_setDegraded pool sys pool.status)
      exact Or.inl (hhealth.trans hended)
  | @succeeds st' sys op res ev h hres hst _ =>
      have hhealth := congrArg DaosPoolStatus.health hst
      obtain ⟨env, happly⟩ := Pool.opResult_applyOp hres
      have hended := congrArg DaosPoolStatus.health
        (Pool.record_setDegraded pool sys pool.status)
      exact Or.inl (hhealth.trans ((Pool.applyOp_health happly).trans hended))

theorem provides_congr {name : String} {ps ps' : DaosPoolStatus} (h : ps.health = ps'.health)
    (r : Step) : provides name ps r = provides name ps' r := by
  obtain ⟨hstate, htargets, hrebuild, htime⟩ : ps.state = ps'.state ∧
      ps.disabledTargets = ps'.disabledTargets ∧ ps.rebuildState = ps'.rebuildState ∧
        ps.lastQueryTime = ps'.lastQueryTime := by
    simpa [DaosPoolStatus.health] using h
  unfold provides
  rw [hstate, htargets, hrebuild, htime]

/-- The status goes back to a query that was answered no earlier than it counts as made. -/
def Sourced (answer : Nat → Time) (past : List Step) (name : String) (st : DaosPoolStatus) : Prop :=
  ∀ last, st.lastQueryTime = some last →
    ∃ r ∈ past, ∃ uid ∈ provides name st r, last ≤ answer uid

theorem Sourced.congr {answer : Nat → Time} {past past' : List Step} {name : String}
    {st' : DaosPoolStatus} (h : Sourced answer past name st) (hsub : past ⊆ past')
    (hhealth : st'.health = st.health) : Sourced answer past' name st' := by
  intro last hlast
  have htime : st.lastQueryTime = st'.lastQueryTime :=
    (congrArg (fun h => h.2.2.2) hhealth).symm
  obtain ⟨r, hr, uid, huid, hle⟩ := h last (htime.trans hlast)
  refine ⟨r, hsub hr, uid, ?_, hle⟩
  rw [provides_congr hhealth]
  exact huid

/-- What a run keeps: every version of a pool goes back to a query, and so does every mark. -/
structure Traced (answer : Nat → Time) (past : List Step) (w : World) : Prop where
  named : WellNamed w
  sourced : AllVersions (fun name (p : DaosPool) => Sourced answer past name p.status) w.pools
  marked : ∀ key, '/' ∉ key.ns.toList → w.memory.rfPending.get (contKey key) ≠ none →
    past.findSome? (refusedQuery key) ≠ none

section Steps

variable {answer : Nat → Time} {past : List Step} {w : World} {e : Event}

theorem sourced_of_queried {name : String}
    {sys : DaosSystem} {res : Dmg.Result} {info : Dmg.PoolInfo} {healthOnly : Bool}
    (hstarts : StartsFirst answer past (operator.record w (.reconcilePool name faults)))
    (hapart : NotBetween answer past (operator.record w (.reconcilePool name faults)))
    (hpool : cached w.pools name = some pool)
    (h : Pool.Queried w (operator.step w (.reconcilePool name faults)).2 pool sys res)
    (hanswer : Pool.queryAnswer res = .found info healthOnly)
    (hst : st.health = (info.state, info.disabledTargets, info.rebuildState,
      some (res.queriedAt w.clock))) :
    Sourced answer (operator.record w (.reconcilePool name faults) :: past) name st := by
  intro last hlast
  obtain ⟨hstate, htargets, hrebuild, htime⟩ : st.state = info.state ∧
      st.disabledTargets = info.disabledTargets ∧ st.rebuildState = info.rebuildState ∧
        st.lastQueryTime = some (res.queriedAt w.clock) := by
    simpa [DaosPoolStatus.health] using hst
  obtain ⟨job, hjob, -⟩ := Option.bind_eq_some_iff.mp h.read.1
  have hkey : queryKey w name = some (Pool.jobKey pool.name (namespaceOf sys) .query) := by
    simp [queryKey, hpool, h.system]
  refine ⟨_, List.mem_cons_self, job.uid, ?_, ?_⟩
  · simp [provides, Event.pool, hkey, readsJob_of_read h.read, hjob, h.read.1, hanswer, hstate,
      htargets, hrebuild, htime]
  · have hknown := hapart.1 name rfl _ hkey res h.read.1
    obtain ⟨start, hstart⟩ := Option.ne_none_iff_exists'.mp hknown
    have hle := hstarts _ (w.jobs.covers _ _ hjob) job hjob res h.read.1 start hstart
    rw [htime, Dmg.Result.queriedAt, hstart] at hlast
    cases hlast
    exact hle

theorem Traced.sourced_step (hinv : Traced answer past w)
    (hstarts : StartsFirst answer past (operator.record w e))
    (hapart : NotBetween answer past (operator.record w e)) :
    AllVersions (fun name (p : DaosPool) =>
      Sourced answer (operator.record w e :: past) name p.status) (operator.step w e).1.pools := by
  have hold : AllVersions (fun name (p : DaosPool) =>
      Sourced answer (operator.record w e :: past) name p.status) w.pools :=
    fun name p hp => (hinv.sourced name p hp).congr (List.subset_cons_self _ _) rfl
  intro name p hp
  have hfrom := poolStatusFrom_of_version hinv.named hp
  generalize p.status = st at hfrom ⊢
  cases hfrom with
  | older h => exact hold name _ h
  | initial =>
      intro last hlast
      cases hlast
  | @moved faults pool _ he hpool hmove =>
      subst he
      rcases hmove.health with hsame | ⟨sys, res, info, healthOnly, hqueried, hanswer, hst⟩
      · exact (hold.cached hpool).congr (List.Subset.refl _) hsame
      · exact sourced_of_queried hstarts hapart hpool hqueried hanswer hst

theorem refusedQuery_of_read {c : DaosContainer} {sys : DaosSystem} {res : Dmg.Result}
    (hcont : cached w.containers key = some c)
    (h : Container.Queried w (operator.step w (.reconcileContainer key faults)).2 c pool sys res)
    (hanswer : Container.queryAnswer res = .refused) :
    ∃ uid, refusedQuery key (operator.record w (.reconcileContainer key faults)) =
      some (res.queriedAt w.clock, uid) := by
  obtain ⟨job, hjob, -⟩ := Option.bind_eq_some_iff.mp h.read.1
  have hkey : containerQueryKey w key =
      some (Container.jobKey c.key (namespaceOf sys) .query) := by
    simp [containerQueryKey, hcont, h.inPool, h.inSystem]
  refine ⟨job.uid, ?_⟩
  simp [refusedQuery, Event.container, hkey, readsJob_of_read h.read, hjob, h.read.1,
    Container.rfExceeded_of_refused hanswer]

theorem findSome_cons_of_ne {r : Step}
    (h : past.findSome? (refusedQuery key) ≠ none) :
    (r :: past).findSome? (refusedQuery key) ≠ none := by
  rw [List.findSome?_cons]
  split
  · simp
  · exact h

theorem Traced.marked_step (hinv : Traced answer past w)
    (hapart : NotBetween answer past (operator.record w e))
    (hvalid : '/' ∉ key.ns.toList)
    (hmark : (operator.step w e).1.memory.rfPending.get (contKey key) ≠ none) :
    (operator.record w e :: past).findSome? (refusedQuery key) ≠ none := by
  have hreplay := step_replay (w := w) (e := e) (I := fun v =>
    v.memory.rfPending.get (contKey key) ≠ none →
      (operator.record w e :: past).findSome? (refusedQuery key) ≠ none)
    (fun h => findSome_cons_of_ne (hinv.marked key hvalid h)) ?_ ?_
  · exact hreplay.1 hmark
  · intro x hx hkept hafter
    have hcall := markCall x.before (contKey key) x.call x.fault
    generalize hc : x.call = call at hcall hafter
    generalize (cluster.respond call x.fault x.before).2.memory.rfPending.get (contKey key) =
      mark at hcall hafter
    cases hcall with
    | same => exact hkept hafter
    | marked _ q =>
        obtain ⟨key', faults, c, pool, sys, rfl, hcont, hkeys, hmarked, -⟩ := marked_of_set hx hc
        have hname := hinv.named.containers.cached hcont
        rw [hname] at hkeys
        obtain rfl := contKey_inj hvalid (hapart.2 key' rfl).1 hkeys
        cases hmarked with
        | remembered _ _ hbefore =>
            rw [hname] at hbefore
            exact findSome_cons_of_ne (hinv.marked key hvalid (by simp [hbefore]))
        | read h hanswer _ =>
            obtain ⟨uid, hrefused⟩ := refusedQuery_of_read hcont h hanswer
            rw [List.findSome?_cons, hrefused]
            simp
    | cleared _ => exact absurd rfl hafter
  · rintro c rfl hafter
    refine findSome_cons_of_ne (hinv.marked key hvalid ?_)
    rcases mark_change w (contKey key) c with h | ⟨-, h⟩
    · exact h ▸ hafter
    · exact absurd h hafter

/-- The query that a heal decides, and when it counts as made. -/
theorem decided_of_marked (hinv : Traced answer past w)
    {c : DaosContainer} {sys : DaosSystem} {q : Time}
    (hvalid : '/' ∉ key.ns.toList) (hcont : cached w.containers key = some c)
    (h : Container.Marked w (operator.step w (.reconcileContainer key faults)).2 c pool sys q) :
    ∃ uid, decided past (operator.record w (.reconcileContainer key faults)) key =
      some (q, uid) := by
  have hname : c.key = key := hinv.named.containers.cached hcont
  cases h with
  | remembered _ _ hmark =>
      rw [hname] at hmark
      obtain ⟨d, hd⟩ := Option.ne_none_iff_exists'.mp (hinv.marked key hvalid (by simp [hmark]))
      exact ⟨d.2, by simp [decided, hmark, hd]⟩
  | read h hanswer hq =>
      obtain ⟨uid, hrefused⟩ := refusedQuery_of_read hcont h hanswer
      have hunmarked := h.unmarked
      rw [hname] at hunmarked
      exact ⟨uid, by simp [decided, hunmarked, hrefused, hq]⟩

theorem newerEvidence_step (hinv : Traced answer past w)
    (hapart : NotBetween answer past (operator.record w e)) :
    NewerEvidence answer past (operator.record w e) := by
  intro key hkey hjobs c hc pool hpool
  obtain ⟨j, hj⟩ := List.exists_mem_of_ne_nil _ hjobs
  obtain ⟨ho, x, hx, spec, hcreated, hheal⟩ := created_of_jobsFor hj
  obtain ⟨hcall, -, hnone⟩ := created_eq_some.mp hcreated
  have h := stepCall_of_mem hx
  rw [hcall] at h
  have hread : cached w.containers key = some c := hc
  cases h with
  | quiet h => cases h
  | system _ _ => cases ho
  | pool _ _ => cases ho
  | container hcont h =>
      cases ho
      rw [hread] at hcont
      cases hcont
      obtain ⟨hvalid, hrest⟩ := hapart.2 key rfl
      obtain ⟨hbusy, hbetween⟩ := hrest c hread
      obtain ⟨pool', sys, rfl, hserves, hop | ⟨q, hmarked, hwhole⟩⟩ := h.of_heal hheal
      · -- the heal in progress has its Job, so none is created
        have hexists := hbusy hop (Container.jobKey c.key (namespaceOf sys) (.op .heal))
          (by simp [healKey, hread, hserves.inPool, hserves.inSystem])
        have hstill := job_of_mem hexists (by rintro c ⟨⟩) hx
        rw [show x.before.jobs.get (Container.jobKey c.key (namespaceOf sys) (.op .heal)) = none
          from hnone] at hstill
        cases hstill
      · obtain rfl : pool' = pool := Option.some.inj (hserves.inPool.symm.trans hpool)
        obtain ⟨uid, hdecided⟩ := decided_of_marked hinv hvalid hread hmarked
        obtain ⟨last, hlast, hle⟩ := Container.queried_of_unclear hwhole
        obtain ⟨r, hr, uid', huid, hanswered⟩ :=
          hinv.sourced.cached hserves.inPool last hlast
        refine ⟨_, hdecided, r, hr, uid', huid, ?_⟩
        rcases hbetween pool' hpool last hlast _ hdecided with hbefore | hafter
        · exact absurd hle (not_le.mpr hbefore)
        · exact hafter.trans hanswered

end Steps

/-- Where no query of the pool starts while the refused query runs, a heal relies on newer
evidence. -/
theorem newer_evidence (answer : Nat → Time) (events : List Event)
    (hstarts : Along (StartsFirst answer) [] (history events))
    (hapart : Along (NotBetween answer) [] (history events)) :
    Along (NewerEvidence answer) [] (history events) := by
  refine Machine.along_induction (I := Traced answer) ?_ ?_ events (hstarts.and hapart)
  · intro past w e hinv ⟨hstarts, hapart⟩
    exact ⟨newerEvidence_step hinv hapart, hinv.named.step e, hinv.sourced_step hstarts hapart,
      fun key hvalid hmark => hinv.marked_step hapart hvalid hmark⟩
  · exact ⟨wellNamed_empty, allVersions_empty, by simp⟩

/-! ## A slow refusal -/

/-- A Job completes with this output; its pod started at this time. -/
def answersFrom (key : ObjectKey) (start : Time) (output : String) : Event :=
  .change (.jobProgress key [.complete true]
    [{ name := "pod", created := 0, log := output, terminated := some (0, start) }])

/-- The query of a container starts at 10 and is still running when its pool is queried at
100; then it is refused. -/
def slowRun : List Event :=
  formattedRun ++
    [.change (.createPool "p" { autoClearUnclean := some "true" } { systemRef := "s" }),
      .change (.deliverPool "p")] ++ poolPass "p" ++ poolPass "p" ++
    answersFrom ⟨"daos-system", "pool-p-dmg-query"⟩ 0 (wholeOutput "incremental") ::
    poolPass "p" ++ newContainer ++
    .change (.jobRemoved ⟨"daos-system", "pool-p-dmg-query"⟩) :: .change (.tick 100) ::
    poolPass "p" ++
    answersFrom ⟨"daos-system", "pool-p-dmg-query"⟩ 100 (wholeOutput "incremental") ::
    poolPass "p" ++ .change (.tick 100) ::
    answersFrom ⟨"daos-system", "cont-a-c-daos-query"⟩ 10 "DER_RF(-2031)" ::
    contPass ⟨"a", "c"⟩

/-- The query of the container, which is Job 2, is answered at this time, and that of the pool
at 101. -/
def slowAnswers (answered : Time) (uid : Nat) : Time := if uid = 2 then answered else 101

/-- The container is refused before the query of the pool starts. -/
theorem newer_evidence_refusedFirst :
    (∃ step ∈ history slowRun, jobsFor isHeal (.container ⟨"a", "c"⟩) step ≠ []) ∧
      Along (NewerEvidence (slowAnswers 20)) [] (history slowRun) := by
  have hrun : (∃ step ∈ history slowRun, jobsFor isHeal (.container ⟨"a", "c"⟩) step ≠ []) ∧
      Along (StartsFirst (slowAnswers 20)) [] (history slowRun) ∧
        Along (NotBetween (slowAnswers 20)) [] (history slowRun) := by
    decide +kernel
  exact ⟨hrun.1, newer_evidence (slowAnswers 20) slowRun hrun.2.1 hrun.2.2⟩

/-- The container is refused after the pool was found whole, and is cleared on that. -/
theorem older_evidence_slowRefusal :
    Along (StartsFirst (slowAnswers 150)) [] (history slowRun) ∧
      ¬Along (NewerEvidence (slowAnswers 150)) [] (history slowRun) := by
  decide +kernel

end DaosOperator
