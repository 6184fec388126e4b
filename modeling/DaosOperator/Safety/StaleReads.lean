import DaosOperator.Safety.PoolIdentity

/-!
# Stale reads of a pool

A reconcile of a pool builds the whole status from the version it finds in the cache and
writes it after a second read, so the API server has no reason to refuse a status that
rests on an old version.  Progress is kept as long as the version read and the stored one
agree on it; a version read too late takes a uuid back, forgets a failed destroy, or
creates a pool once more.
-/

namespace DaosOperator

open Effect
open DaosOperator.System (namespaceOf)

/-! ## Progress -/

def DaosPoolStatus.progress (st : DaosPoolStatus) : String × Option Operation × Int :=
  (st.uuid, st.operation, st.destroyAttempts)

/-- The operation that a reconcile of the pool finds in progress. -/
def readOperation (w : World) (name : String) : Option Operation :=
  (cached w.pools name).bind (·.status.operation)

/-- Writing `new` over `old` undoes nothing: a uuid stays, no failed destroy is forgotten, and
an operation that was only read is one the stored pool is still busy with. -/
def KeepsStatus (read : Option Operation) (old new : DaosPoolStatus) : Prop :=
  (old.uuid ≠ "" → new.uuid ≠ "") ∧ old.destroyAttempts ≤ new.destroyAttempts ∧
    ∀ op ∈ new.operation, read = some op → old.operation = some op
  deriving Decidable

/-- The pool had a uuid before one of the steps. -/
def everNamed (steps : List Step) (name : String) : Bool :=
  steps.any fun r => (stored r.before.pools name).any fun p => p.status.uuid ≠ ""

/-- No status of a pool undoes progress, and no create Job follows a status with a uuid. -/
def KeepsProgress (past : List Step) (step : Step) : Prop :=
  ∀ name ∈ step.before.pools.keys, ∀ p ∈ stored step.before.pools name,
    (∀ p' ∈ stored step.after.pools name,
      KeepsStatus (readOperation step.before name) p.status p'.status) ∧
    (everNamed (step :: lifetime past (.pool name)) name = true →
      createJobs (.pool name) step = [])
  deriving Decidable

/-- A reconcile reads the progress that is stored, the count of failed destroys is not at its
end, and the finished query of a pool with a uuid does not answer without one. -/
def ReadsProgress (_ : List Step) (step : Step) : Prop :=
  ∀ name ∈ step.event.pool, ∀ pool ∈ cached step.before.pools name,
    ∀ p ∈ stored step.before.pools name,
      pool.status.progress = p.status.progress ∧ p.status.destroyAttempts < 2147483647 ∧
        (p.status.uuid ≠ "" → ∀ key ∈ queryKey step.before name,
          ∀ res ∈ Dmg.resultOf step.before key, Pool.queryUuid res ≠ some "")
  deriving Decidable

/-! ## Moves -/

theorem Pool.applyOp_attempts {pool : DaosPool} {st st' : DaosPoolStatus} {env : Dmg.Envelope}
    {op : Operation} {ev : Option (String × String)}
    (h : Pool.applyOp pool st env op = .ok (st', ev)) :
    st'.destroyAttempts = st.destroyAttempts := by
  cases op with
  | create =>
      obtain ⟨uuid, ranks, -, rfl⟩ := Pool.applyOp_create h
      rfl
  | _ =>
      cases h
      rfl

/-- A status counts the failed destroys of the version it was built from, or one more. -/
theorem Pool.Move.attempts {w : World} {log : Log} {pool : DaosPool} {st : DaosPoolStatus}
    (h : Pool.Move w log pool st) : st.destroyAttempts = pool.status.destroyAttempts ∨
      st.destroyAttempts = Text.toInt32 (pool.status.destroyAttempts + 1) := by
  cases h with
  | noSystem _ hst _ | notFormatted _ _ hst _ | waits _ _ hst _ | unclear _ _ hst _
  | missing _ _ _ hst _ | keeps _ _ _ _ hst _ | creates _ hst _ | destroys _ hst =>
      have hcount := congrArg DaosPoolStatus.destroyAttempts hst
      exact Or.inl hcount
  | destroyFails _ hst =>
      have hcount := congrArg DaosPoolStatus.destroyAttempts hst
      exact Or.inr hcount
  | @settles sys res info healthOnly enabled h _ hst =>
      have hcount := congrArg DaosPoolStatus.destroyAttempts hst
      obtain ⟨percent, hrecord⟩ :=
        Pool.record_queriedStatus pool sys info healthOnly enabled res w.clock
      have hquery := congrArg DaosPoolStatus.destroyAttempts hrecord
      exact Or.inl (hcount.trans hquery)
  | @drifts sys res info enabled op h hst _ =>
      have hcount := congrArg DaosPoolStatus.destroyAttempts hst
      obtain ⟨percent, hrecord⟩ :=
        Pool.record_queriedStatus pool sys info false enabled res w.clock
      have hquery := congrArg DaosPoolStatus.destroyAttempts hrecord
      exact Or.inl (hcount.trans hquery)
  | @fails sys op res msg h _ hst _ =>
      have hcount := congrArg DaosPoolStatus.destroyAttempts hst
      have hended := congrArg DaosPoolStatus.destroyAttempts
        (Pool.record_setDegraded pool sys pool.status)
      exact Or.inl (hcount.trans hended)
  | @succeeds st' sys op res ev h hres hst _ =>
      have hcount := congrArg DaosPoolStatus.destroyAttempts hst
      obtain ⟨env, happly⟩ := Pool.opResult_applyOp hres
      have hended := congrArg DaosPoolStatus.destroyAttempts
        (Pool.record_setDegraded pool sys pool.status)
      exact Or.inl (hcount.trans ((Pool.applyOp_attempts happly).trans hended))

theorem toInt32_succ {n : Int} (hn : 0 ≤ n) (hlt : n < 2147483647) :
    Text.toInt32 (n + 1) = n + 1 := by
  unfold Text.toInt32
  omega

/-! ## What a run keeps -/

/-- What a run keeps: a create belongs to a pool without a uuid, and a pool that had a uuid
has one. -/
structure Progressed (past : List Step) (w : World) : Prop where
  named : WellNamed w
  fresh : ∀ name p, stored w.pools name = some p → p.status.operation = some .create →
    p.status.uuid = ""
  counted : ∀ name p, stored w.pools name = some p → 0 ≤ p.status.destroyAttempts
  kept : ∀ name p, stored w.pools name = some p →
    everNamed (lifetime past (.pool name)) name = true → p.status.uuid ≠ ""

section Steps

variable {past : List Step} {w : World} {e : Event} {name : String}

/-- What a move over the progress it was built from does to the uuid. -/
theorem uuid_of_moved {faults : List Fault} {pool p : DaosPool} {st : DaosPoolStatus}
    (hinv : Progressed past w)
    (hreads : ReadsProgress past (operator.record w (.reconcilePool name faults)))
    (hp : stored w.pools name = some p) (hread : cached w.pools name = some pool)
    (h : Pool.Move w (operator.step w (.reconcilePool name faults)).2 pool st)
    (hne : p.status.uuid ≠ "") : st.uuid ≠ "" := by
  obtain ⟨hprogress, -, hanswers⟩ := hreads name rfl pool hread p hp
  have huuid : pool.status.uuid = p.status.uuid := congrArg Prod.fst hprogress
  have hop : pool.status.operation = p.status.operation := congrArg (·.2.1) hprogress
  cases h.identity with
  | kept hsame _ | destroys hsame _ _ => rwa [hsame, huuid]
  | creates hnone _ _ => exact absurd (huuid.symm.trans hnone) hne
  | created hcreate _ _ => exact absurd (hinv.fresh name p hp (hop.symm.trans hcreate)) hne
  | @queried sys res hqueried hanswer _ =>
      have hkey : queryKey w name = some (Pool.jobKey pool.name (namespaceOf sys) .query) := by
        simp [queryKey, hread, hqueried.system]
      have hnamed := hanswers hne _ hkey res hqueried.read.1
      rw [hanswer] at hnamed
      exact fun hempty => hnamed (congrArg some hempty)

/-- A step undoes no progress of a pool. -/
theorem keepsStatus_step (hinv : Progressed past w)
    (hreads : ReadsProgress past (operator.record w e)) {p p' : DaosPool}
    (hp : stored w.pools name = some p) (hp' : stored (operator.step w e).1.pools name = some p') :
    KeepsStatus (readOperation w name) p.status p'.status := by
  cases pool_after hinv.named hp' with
  | created hnone _ _ =>
      rw [hp] at hnone
      cases hnone
  | same hq hstatus _ =>
      rw [hp] at hq
      cases hq
      rw [hstatus]
      exact ⟨id, le_refl _, fun _ hop _ => hop⟩
  | @moved q pool faults he hq hread _ h =>
      subst he
      rw [hp] at hq
      cases hq
      obtain ⟨hprogress, hlt, -⟩ := hreads name rfl pool hread p hp
      have hop : pool.status.operation = p.status.operation := congrArg (·.2.1) hprogress
      have hcount : pool.status.destroyAttempts = p.status.destroyAttempts :=
        congrArg (·.2.2) hprogress
      refine ⟨uuid_of_moved hinv hreads hp hread h, ?_, ?_⟩
      · rcases h.attempts with hsame | hmore
        · rw [hsame, hcount]
        · rw [hmore, hcount, toInt32_succ (hinv.counted name p hp) hlt]
          omega
      · intro op _ hreadop
        rw [← hop]
        simpa [readOperation, hread] using hreadop

/-- The pool that had a uuid before one of the steps of its lifetime has one. -/
theorem uuid_of_everNamed (hinv : Progressed past w) {p : DaosPool}
    (hp : stored w.pools name = some p)
    (h : everNamed (operator.record w e :: lifetime past (.pool name)) name = true) :
    p.status.uuid ≠ "" := by
  simp only [everNamed, List.any_cons, Bool.or_eq_true, Machine.record_before, hp,
    Option.any_some, decide_eq_true_eq] at h
  rcases h with h | h
  · exact h
  · exact hinv.kept name p hp h

/-- A pool that had a uuid is not created again. -/
theorem createJobs_step (hinv : Progressed past w)
    (hreads : ReadsProgress past (operator.record w e)) {p : DaosPool}
    (hp : stored w.pools name = some p) (hne : p.status.uuid ≠ "") :
    createJobs (.pool name) (operator.record w e) = [] := by
  refine List.eq_nil_iff_forall_not_mem.mpr ?_
  intro j hj
  obtain ⟨faults, spec, pool, rfl, hread, hact, hcreate⟩ := act_of_jobsFor hj
  obtain ⟨hprogress, -, -⟩ := hreads name rfl pool hread p hp
  have huuid : pool.status.uuid = p.status.uuid := congrArg Prod.fst hprogress
  have hop : pool.status.operation = p.status.operation := congrArg (·.2.1) hprogress
  rcases hact.uuid_of_create hcreate with hnone | hcreate
  · exact hne (huuid.symm.trans hnone)
  · exact hne (hinv.fresh name p hp (hop.symm.trans hcreate))

theorem keepsProgress_step (hinv : Progressed past w)
    (hreads : ReadsProgress past (operator.record w e)) :
    KeepsProgress past (operator.record w e) := by
  intro name _ p hp
  refine ⟨fun p' hp' => keepsStatus_step hinv hreads hp hp', fun hnamed => ?_⟩
  exact createJobs_step hinv hreads hp (uuid_of_everNamed hinv hp hnamed)

theorem Progressed.step (hinv : Progressed past w)
    (hreads : ReadsProgress past (operator.record w e)) :
    Progressed (operator.record w e :: past) (operator.step w e).1 where
  named := hinv.named.step e
  fresh := by
    intro name p' hafter hcreate
    cases pool_after hinv.named hafter with
    | created _ hstatus _ => rw [hstatus]
    | same hp hstatus _ =>
        rw [hstatus] at hcreate ⊢
        exact hinv.fresh name _ hp hcreate
    | @moved p pool faults he hp hread _ h =>
        subst he
        obtain ⟨hprogress, -, -⟩ := hreads name rfl pool hread p hp
        have huuid : pool.status.uuid = p.status.uuid := congrArg Prod.fst hprogress
        have hop : pool.status.operation = p.status.operation := congrArg (·.2.1) hprogress
        cases h.identity with
        | kept hsame hkept =>
            rcases hkept with hidle | hkept
            · rw [hidle] at hcreate
              cases hcreate
            · rw [hsame, huuid]
              exact hinv.fresh name p hp (hop ▸ hkept ▸ hcreate)
        | creates _ hnone _ => exact hnone
        | created _ hidle _ =>
            rw [hidle] at hcreate
            cases hcreate
        | queried _ _ hnot | destroys _ _ hnot => exact absurd hcreate hnot
  counted := by
    intro name p' hafter
    cases hbefore : stored w.pools name with
    | some p =>
        have hkeeps := keepsStatus_step hinv hreads hbefore hafter
        exact le_trans (hinv.counted name p hbefore) hkeeps.2.1
    | none =>
        cases pool_after hinv.named hafter with
        | created _ hstatus _ => rw [hstatus]
        | same hp _ _ | moved _ hp _ _ _ =>
            rw [hbefore] at hp
            cases hp
  kept := by
    intro name p' hafter hnamed
    cases hbefore : stored w.pools name with
    | some p =>
        have hface : face (operator.record w e).before (.pool name) = some p.face := by
          simp [face, hbefore]
        rw [lifetime_cons_of_some hface] at hnamed
        exact (keepsStatus_step hinv hreads hbefore hafter).1
          (uuid_of_everNamed hinv hbefore hnamed)
    | none =>
        have hface : face (operator.record w e).before (.pool name) = none := by
          simp [face, hbefore]
        rw [lifetime_cons_of_none hface] at hnamed
        cases hnamed

end Steps

/-- Where reconciles of pools read the progress that is stored, no progress is undone. -/
theorem pools_keep_progress (events : List Event) (h : Along ReadsProgress [] (history events)) :
    Along KeepsProgress [] (history events) := by
  refine Machine.along_induction (I := Progressed) ?_ ?_ events h
  · intro past w e hinv hreads
    exact ⟨keepsProgress_step hinv hreads, hinv.step hreads⟩
  · exact ⟨wellNamed_empty, by simp [stored], by simp [stored], by simp [stored]⟩

/-- A pool is created: the create Job answers, and its answer is recorded and seen or not. -/
def createdRun (seen : List Event) : List Event :=
  queriedRun { systemRef := "s" } ++
    [jobAnswers ⟨"daos-system", "pool-p-dmg-query"⟩ "\x7b\"error\":\"not found\"\x7d"] ++
    poolPass "p" ++
    [jobAnswers ⟨"daos-system", "pool-p-dmg-create"⟩
      "\x7b\"response\":\x7b\"uuid\":\"u\"\x7d\x7d", .reconcilePool "p" []] ++
    seen ++ [.change (.jobRemoved ⟨"daos-system", "pool-p-dmg-create"⟩), .reconcilePool "p" []]

/-- A pool is found by its first query, and queried again before the cache has its uuid. -/
def forgottenRun : List Event :=
  queriedRun { systemRef := "s" } ++
    [jobAnswers ⟨"daos-system", "pool-p-dmg-query"⟩
      "\x7b\"response\":\x7b\"uuid\":\"u\"\x7d\x7d", .reconcilePool "p" [],
      .change (.jobRemoved ⟨"daos-system", "pool-p-dmg-query"⟩), .change (.tick 60),
      .reconcilePool "p" []]

/-- The uuid of the pool at the end of a run. -/
def recordedUuid (events : List Event) : Option String :=
  (stored (final events).pools "p").map (·.status.uuid)

/-- Where the answer of the create is seen in time, the pool is left alone. -/
theorem pools_keep_progress_created :
    recordedUuid (createdRun [.change (.deliverPool "p")]) = some "u" ∧
      Along KeepsProgress [] (history (createdRun [.change (.deliverPool "p")])) := by
  have hrun : recordedUuid (createdRun [.change (.deliverPool "p")]) = some "u" ∧
      Along ReadsProgress [] (history (createdRun [.change (.deliverPool "p")])) := by
    decide +kernel
  exact ⟨hrun.1, pools_keep_progress _ hrun.2⟩

/-- Where it is not, the pool is created once more; and a late read takes a uuid back. -/
theorem stale_reads_undo_progress :
    ¬Along KeepsProgress [] (history (createdRun [])) ∧
      recordedUuid forgottenRun = some "" ∧ ¬Along KeepsProgress [] (history forgottenRun) := by
  decide +kernel

end DaosOperator
