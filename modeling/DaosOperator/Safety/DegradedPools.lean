import DaosOperator.Safety.PoolIdentity

/-!
# The condition `Degraded` of a cache pool

`setDegraded` compares the ranks of a `kvcache` pool with the membership of its system.  It
takes the ranks from the last answer that listed them: those the create reported, and after
the next query those that are enabled.  DAOS does not list a rank that it excluded, so the
pool that lost a rank may be reported as whole.
-/

namespace DaosOperator

open Effect
open DaosOperator.System (namespaceOf)

/-! ## The property -/

namespace Pool

/-- The ranks that a finished create reports. -/
def targetRanks (res : Dmg.Result) : Option (List Int) :=
  match System.parseResult res with
  | .ok env => if env.error.isNone then (Dmg.poolCreate env).toOption.map (·.2) else none
  | .error _ => none

def listedRanks (res : Dmg.Result) : Option (List Int) :=
  match queryAnswer res with
  | .found info _ => Dmg.ranks info.enabledRanks
  | _ => none

/-- The reconcile of a pool that exists gets as far as `setDegraded`, and that looks at the
membership. -/
def looksAtRanks (pool : DaosPool) (sys : DaosSystem) : Bool :=
  pool.finalizer && !pool.deleting && sys.status.formatted &&
    pool.spec.profile = profileKVCache && pool.status.uuid ≠ ""

end Pool

/-- The result of a Job of the pool that the step reads while the pool is busy with `busy`. -/
def readWhile (busy : Option Operation) (job : Pool.PoolJob) (name : String) (r : Step) :
    Option Dmg.Result :=
  if r.event.pool = some name then
    (cached r.before.pools name).bind fun pool =>
      (cached r.before.systems pool.spec.systemRef).bind fun sys =>
        let key := Pool.jobKey pool.name (namespaceOf sys) job
        if pool.status.operation = busy ∧ readsJob r.obs key = true then Dmg.resultOf r.before key
        else none
  else none

/-- The `tgt_ranks` that the step reads off the create of the pool. -/
def tgtRanks (name : String) (r : Step) : Option (List Int) :=
  (readWhile (some .create) (.op .create) name r).bind Pool.targetRanks

/-- The lists of ranks that the step reads off a create or a query of the pool. -/
def rankLists (name : String) (r : Step) : List (List Int) :=
  (tgtRanks name r).toList ++ ((readWhile none .query name r).bind Pool.listedRanks).toList

/-- A reconcile of a cache pool reports it as degraded when a rank that its create reported is
not joined. -/
def SaysDegraded (past : List Step) (step : Step) : Prop :=
  ∀ name ∈ step.event.pool, (stored step.before.pools name).isSome →
    ∀ pool ∈ cached step.before.pools name,
      ∀ sys ∈ cached step.before.systems pool.spec.systemRef, Pool.looksAtRanks pool sys = true →
        ∀ r ∈ lifetime past (.pool name), ∀ tgt ∈ tgtRanks name r,
          ∀ rk ∈ sys.status.ranks, rk.rank ∈ tgt → Text.equalFold rk.state "joined" = false →
            isStatusConditionTrue
              (Pool.setDegraded pool sys pool.status).conditions .degraded = true
  deriving Decidable

/-- Every list of ranks that was read for the pool in its lifetime is empty, or has all the
ranks that its create reported. -/
def ListsTargets (past : List Step) (step : Step) : Prop :=
  ∀ name ∈ step.event.pool, ∀ r ∈ lifetime past (.pool name), ∀ tgt ∈ tgtRanks name r,
    ∀ r' ∈ lifetime past (.pool name), ∀ ranks ∈ rankLists name r',
      ranks = [] ∨ ∀ k ∈ tgt, k ∈ ranks
  deriving Decidable

/-! ## What a status knows of the ranks -/

namespace Pool

theorem targetRanks_of_opResult {pool : DaosPool} {st st' : DaosPoolStatus} {res : Dmg.Result}
    {ev : Option (String × String)} (h : opResult pool st .create res = .ok (st', ev)) :
    targetRanks res = some st'.enabledRanks := by
  unfold opResult at h
  unfold targetRanks
  dsimp only at h
  cases hparse : System.parseResult res with
  | error e => simp [hparse] at h
  | ok env =>
      simp only [hparse] at h
      cases herror : env.error with
      | some e => simp [herror] at h
      | none =>
          simp only [herror, applyOp] at h
          cases hcreate : Dmg.poolCreate env with
          | error e => simp [hcreate, Except.map] at h
          | ok answer =>
              simp only [hcreate, Except.map] at h
              cases h
              simp [herror, hcreate, Except.toOption]

theorem applyOp_enabledRanks {pool : DaosPool} {st st' : DaosPoolStatus} {env : Dmg.Envelope}
    {op : Operation} {ev : Option (String × String)}
    (h : applyOp pool st env op = .ok (st', ev)) (hop : op ≠ .create) :
    st'.enabledRanks = st.enabledRanks := by
  cases op with
  | create => exact absurd rfl hop
  | _ =>
      cases h
      rfl

/-- A move keeps the ranks, or takes them from the query or the create. -/
theorem Move.enabledRanks {w : World} {log : Log} {pool : DaosPool} {st : DaosPoolStatus}
    (h : Move w log pool st) :
    st.enabledRanks = pool.status.enabledRanks ∨
      (∃ sys res, Queried w log pool sys res ∧ listedRanks res = some st.enabledRanks) ∨
      ∃ sys res, Ended w log pool sys .create res ∧ targetRanks res = some st.enabledRanks := by
  cases h with
  | noSystem _ hst _ | notFormatted _ _ hst _ | waits _ _ hst _ | unclear _ _ hst _
  | missing _ _ _ hst _ | keeps _ _ _ _ hst _ | creates _ hst _ | destroys _ hst
  | destroyFails _ hst =>
      have hranks := congrArg DaosPoolStatus.enabledRanks hst
      exact Or.inl hranks
  | @settles sys res info healthOnly enabled h _ hst =>
      have hranks := congrArg DaosPoolStatus.enabledRanks hst
      obtain ⟨percent, hrecord⟩ := record_queriedStatus pool sys info healthOnly enabled res w.clock
      have hquery := congrArg DaosPoolStatus.enabledRanks hrecord
      have henabled : st.enabledRanks = enabled := hranks.trans hquery
      exact Or.inr (Or.inl ⟨sys, res, h.toQueried, by
        simp [listedRanks, h.answer, h.ranks, henabled]⟩)
  | @drifts sys res info enabled op h hst _ =>
      have hranks := congrArg DaosPoolStatus.enabledRanks hst
      obtain ⟨percent, hrecord⟩ := record_queriedStatus pool sys info false enabled res w.clock
      have hquery := congrArg DaosPoolStatus.enabledRanks hrecord
      have henabled : st.enabledRanks = enabled := hranks.trans hquery
      exact Or.inr (Or.inl ⟨sys, res, h.toQueried, by
        simp [listedRanks, h.answer, h.ranks, henabled]⟩)
  | @fails sys op res msg h _ hst _ =>
      have hranks := congrArg DaosPoolStatus.enabledRanks hst
      have hended := congrArg DaosPoolStatus.enabledRanks (record_setDegraded pool sys pool.status)
      exact Or.inl (hranks.trans hended)
  | @succeeds st' sys op res ev h hres hst _ =>
      have hranks := congrArg DaosPoolStatus.enabledRanks hst
      have hranks : st.enabledRanks = st'.enabledRanks := hranks
      by_cases hcreate : op = .create
      · subst hcreate
        exact Or.inr (Or.inr ⟨sys, res, h, hranks ▸ targetRanks_of_opResult hres⟩)
      · obtain ⟨env, happly⟩ := opResult_applyOp hres
        have hended := congrArg DaosPoolStatus.enabledRanks
          (record_setDegraded pool sys pool.status)
        exact Or.inl (hranks.trans ((applyOp_enabledRanks happly hcreate).trans hended))

theorem isStatusConditionTrue_setC (st : DaosPoolStatus) (t : ConditionType)
    (reason msg : String) :
    isStatusConditionTrue (setC st t .isTrue reason msg).conditions t = true := by
  simp only [isStatusConditionTrue, setC]
  rw [findStatusCondition_set_self st.conditions ⟨t, .isTrue, reason, msg⟩]
  rfl

/-- A rank of the span that is not joined is reported. -/
theorem degraded_of_down {pool : DaosPool} {sys : DaosSystem} {rk : RankStatus}
    (hlooks : looksAtRanks pool sys = true) (hrk : rk ∈ sys.status.ranks)
    (hspan : pool.status.enabledRanks = [] ∨ rk.rank ∈ pool.status.enabledRanks)
    (hstate : Text.equalFold rk.state "joined" = false) :
    isStatusConditionTrue (setDegraded pool sys pool.status).conditions .degraded = true := by
  obtain ⟨⟨_, hprofile⟩, huuid⟩ : ((_ ∧ pool.spec.profile = profileKVCache) ∧
      pool.status.uuid ≠ "") := by
    simpa only [looksAtRanks, Bool.and_eq_true, decide_eq_true_eq] using hlooks
  have hranks : sys.status.ranks.isEmpty = false :=
    List.isEmpty_eq_false_iff.mpr (List.ne_nil_of_mem hrk)
  unfold setDegraded
  rw [if_neg (by simp [hprofile, huuid, hranks])]
  dsimp only
  rw [if_neg (by simpa using ⟨rk, hrk, by simpa using hspan, hstate⟩)]
  exact isStatusConditionTrue_setC pool.status .degraded _ _

end Pool

/-! ## What a run keeps -/

/-- What a run keeps: the ranks of a version of a pool were read in its lifetime. -/
structure RanksRead (past : List Step) (w : World) : Prop where
  named : WellNamed w
  read : ∀ name, (stored w.pools name).isSome → ∀ p, some p ∈ versions w.pools name →
    p.status.enabledRanks = [] ∨
      ∃ r ∈ lifetime past (.pool name), p.status.enabledRanks ∈ rankLists name r

section Steps

variable {past : List Step} {w : World} {e : Event} {name : String}

theorem status_of_new_pool {p' : DaosPool} (hreused : ReusedLate past (operator.record w e))
    (hnone : stored w.pools name = none)
    (hsome : stored (operator.step w e).1.pools name = some p') {p : DaosPool}
    (hp : some p ∈ versions (operator.step w e).1.pools name) : p.status = {} := by
  by_cases he : ∃ c, e = .change c
  · obtain ⟨c, rfl⟩ := he
    have hwrites : ∀ cell new, PoolEdit name c cell new → cell.stored ≠ none := by
      rintro cell new hedit
      cases hedit with
      | edit h _ | refused h | annotate h | delete h _ | remove h _ => simp [h]
    obtain ⟨⟨annotations, spec, rfl, -, rfl⟩, hall⟩ :=
      (poolCell_change w name c).appears hwrites hnone hsome
    rcases hall p hp with hold | rfl
    · cases hreused.1 name rfl hnone _ hold
    · rfl
  · obtain ⟨f, hf, -⟩ := face_reconcile (o := .pool name) (fun c hc => he ⟨c, hc⟩)
      (show face (operator.step w e).1 (.pool name) = some (DaosPool.face p') by
        simp [face, hsome])
    simp [face, hnone] at hf

theorem readWhile_of_read {pool : DaosPool} {sys : DaosSystem} {res : Dmg.Result}
    {busy : Option Operation} {job : Pool.PoolJob} {faults : List Fault}
    (hpool : cached w.pools name = some pool)
    (hsys : cached w.systems pool.spec.systemRef = some sys) (hbusy : pool.status.operation = busy)
    (h : Dmg.Read w (operator.step w (.reconcilePool name faults)).2
      (Pool.jobKey pool.name (namespaceOf sys) job) res) :
    readWhile busy job name (operator.record w (.reconcilePool name faults)) = some res := by
  have hreads := readsJob_of_read h
  simp [readWhile, Event.pool, hpool, hsys, hbusy, hreads, h.1]

theorem rankLists_of_move {pool : DaosPool} {st : DaosPoolStatus} {faults : List Fault}
    (hpool : cached w.pools name = some pool)
    (h : Pool.Move w (operator.step w (.reconcilePool name faults)).2 pool st) :
    st.enabledRanks = pool.status.enabledRanks ∨
      st.enabledRanks ∈ rankLists name (operator.record w (.reconcilePool name faults)) := by
  rcases h.enabledRanks with hsame | ⟨sys, res, hqueried, hranks⟩ | ⟨sys, res, hended, hranks⟩
  · exact Or.inl hsame
  · have hread := readWhile_of_read hpool hqueried.system hqueried.idle hqueried.read
    refine Or.inr (List.mem_append_right _ ?_)
    simp [hread, hranks]
  · have hread := readWhile_of_read hpool hended.system hended.operation hended.read
    refine Or.inr (List.mem_append_left _ ?_)
    simp [tgtRanks, hread, hranks]

theorem RanksRead.step (hinv : RanksRead past w)
    (hreused : ReusedLate past (operator.record w e)) :
    RanksRead (operator.record w e :: past) (operator.step w e).1 := by
  refine ⟨hinv.named.step e, fun name hsome p hp => ?_⟩
  obtain ⟨p', hp'⟩ := Option.isSome_iff_exists.mp hsome
  cases hbefore : stored w.pools name with
  | none =>
      rw [status_of_new_pool hreused hbefore hp' hp]
      exact Or.inl rfl
  | some p₀ =>
      have hlife : lifetime (operator.record w e :: past) (.pool name) =
          operator.record w e :: lifetime past (.pool name) :=
        lifetime_cons_of_some (f := DaosPool.face p₀)
          (show face w (.pool name) = _ by simp [face, hbefore])
      have hold := hinv.read name (by simp [hbefore])
      have hkept : ∀ q, some q ∈ versions w.pools name → q.status.enabledRanks = [] ∨
          ∃ r ∈ operator.record w e :: lifetime past (.pool name),
            q.status.enabledRanks ∈ rankLists name r := by
        intro q hq
        refine (hold q hq).imp_right ?_
        rintro ⟨r, hr, hmem⟩
        exact ⟨r, List.mem_cons_of_mem _ hr, hmem⟩
      rw [hlife]
      have hfrom := poolStatusFrom_of_version hinv.named hp
      generalize p.status = st at hfrom ⊢
      cases hfrom with
      | older h => exact hkept _ h
      | initial => exact Or.inl rfl
      | @moved faults pool _ he hpool hmove =>
          subst he
          rcases rankLists_of_move hpool hmove with hsame | hread
          · rw [hsame]
            exact hkept pool (cached_mem_versions hpool)
          · exact Or.inr ⟨_, List.mem_cons_self, hread⟩

/-- The ranks that a reconcile knows span all those that the create reported. -/
theorem saysDegraded_step (hinv : RanksRead past w)
    (hlists : ListsTargets past (operator.record w e)) :
    SaysDegraded past (operator.record w e) := by
  intro name hname hsome pool hpool sys hsys hlooks r hr tgt htgt rk hrk hmem hstate
  refine Pool.degraded_of_down hlooks hrk ?_ hstate
  rcases hinv.read name hsome pool (cached_mem_versions hpool) with hnil | ⟨r', hr', hread⟩
  · exact Or.inl hnil
  · exact (hlists name hname r hr tgt htgt r' hr' _ hread).imp_right fun h => h _ hmem

end Steps

/-- Where no answer leaves out a rank of the create and names are reused late, a cache pool
that has a rank down is reported as degraded. -/
theorem lost_rank_reported (events : List Event) (h : Along ListsTargets [] (history events))
    (hreused : Along ReusedLate [] (history events)) : Along SaysDegraded [] (history events) := by
  refine Machine.along_induction (I := RanksRead) ?_ ?_ events (h.and hreused)
  · rintro past w e hinv ⟨hlists, hreused⟩
    exact ⟨saysDegraded_step hinv hlists, hinv.step hreused⟩
  · exact ⟨wellNamed_empty, by simp [stored]⟩

/-- A cache pool over the ranks 0 and 1, of which 1 is excluded; the query lists these ranks as
enabled, and the pool is looked at again. -/
def lostRankRun (enabled : String) : List Event :=
  [.change (.createSystem "s" {}
      { externalMsReplicas := ["m"], allowInsecure := true, msReplicas := 1 }),
    .change (.setNodes [{ name := "a" }]), .reconcileSystem "s" [],
    jobAnswers ⟨"daos-system", "s-dmg-query"⟩
      ("\x7b\"response\":\x7b\"members\":[\x7b\"rank\":0,\"state\":\"joined\"\x7d," ++
        "\x7b\"rank\":1,\"state\":\"excluded\"\x7d]\x7d\x7d"),
    .reconcileSystem "s" [],
    .change (.deliverSystem "s"), .change (.deliverSystem "s"), .change (.deliverSystem "s"),
    .change (.createPool "p" {} { systemRef := "s", profile := Pool.profileKVCache }),
    .change (.deliverPool "p")] ++ poolPass "p" ++ poolPass "p" ++
    jobAnswers ⟨"daos-system", "pool-p-dmg-query"⟩ "\x7b\"error\":\"DER_NONEXIST\"\x7d" ::
      poolPass "p" ++
    jobAnswers ⟨"daos-system", "pool-p-dmg-create"⟩
      "\x7b\"response\":\x7b\"uuid\":\"u\",\"tgt_ranks\":[0,1]\x7d\x7d" :: poolPass "p" ++
    [.change (.jobRemoved ⟨"daos-system", "pool-p-dmg-query"⟩), .change (.tick 3600)] ++
      poolPass "p" ++
    jobAnswers ⟨"daos-system", "pool-p-dmg-query"⟩
      ("\x7b\"response\":\x7b\"uuid\":\"u\",\"state\":\"Degraded\",\"enabled_ranks\":\"" ++
        enabled ++ "\"\x7d\x7d") :: poolPass "p" ++
    [.change (.jobRemoved ⟨"daos-system", "pool-p-dmg-query"⟩), .change (.tick 3600)] ++
      poolPass "p"

/-- The query lists both ranks, so the pool stays degraded. -/
theorem lost_rank_reported_listed :
    (∃ r ∈ history (lostRankRun "0-1"), ∃ tgt ∈ tgtRanks "p" r, (1 : Int) ∈ tgt) ∧
      Along SaysDegraded [] (history (lostRankRun "0-1")) := by
  have hrun : (∃ r ∈ history (lostRankRun "0-1"), ∃ tgt ∈ tgtRanks "p" r, (1 : Int) ∈ tgt) ∧
      Along ListsTargets [] (history (lostRankRun "0-1")) ∧
        Along ReusedLate [] (history (lostRankRun "0-1")) := by
    decide +kernel
  exact ⟨hrun.1, lost_rank_reported (lostRankRun "0-1") hrun.2.1 hrun.2.2⟩

/-- The query leaves the excluded rank out, and the pool that lost it is reported as whole. -/
theorem lost_rank_forgotten : ¬Along SaysDegraded [] (history (lostRankRun "0")) := by
  decide +kernel

end DaosOperator
