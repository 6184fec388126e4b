import DaosOperator.Safety.Lifetimes

/-!
# The identity of a pool

DAOS commands address a pool by its label, and a `DaosPool` knows its pool by the uuid
in its status.  A query writes the uuid it reports over the recorded one, so the two stay
together as long as the label is not used for another pool.
-/

namespace DaosOperator

open Effect
open DaosOperator.System (namespaceOf)

variable {res : Dmg.Result} {pool : DaosPool} {st st' : DaosPoolStatus}
  {ev : Option (String × String)}

/-! ## What the queries reported -/

def queryArgs (label : String) : List String := ["pool", "query", "--show-enabled", label]

def Pool.queryUuid (res : Dmg.Result) : Option String :=
  match Pool.queryAnswer res with
  | .found info _ => some info.uuid
  | _ => none

/-- The query Job of a pool, where its reconcile gets as far as the system. -/
def queryKey (w : World) (name : String) : Option ObjectKey :=
  (cached w.pools name).bind fun pool => (cached w.systems pool.spec.systemRef).map fun sys =>
    Pool.jobKey pool.name (namespaceOf sys) .query

/-- The uuid that the finished query of the label reports. -/
def answeredUuid (w : World) (name : String) (key : ObjectKey) : Option String :=
  (w.jobs.get key).bind fun job =>
    if job.spec.command.args = queryArgs name then (Dmg.resultOf w key).bind Pool.queryUuid
    else none

/-- The log reads the result of the Job: its deletion is answered. -/
def readsJob (log : Log) (key : ObjectKey) : Bool :=
  log.any fun x =>
    match x.call with
    | .deleteJob other => other = key && x.fault = .none
    | _ => false

/-- The uuid that the query read by a step reports. -/
def reported (name : String) (r : Step) : Option String :=
  if r.event.owned = some (.pool name) then
    (queryKey r.before name).bind fun key =>
      if readsJob r.obs key then answeredUuid r.before name key else none
  else none

/-- The uuid that the latest successful query of the label reported. -/
def lastReported (past : List Step) (name : String) : Option String :=
  past.findSome? (reported name)

/-! ## The property -/

/-- The words of an operation on a pool that exists. -/
def changesPool : List String → Bool
  | "pool" :: verb :: _ => verb ∈ ["extend", "overwrite-acl", "set-prop", "destroy"]
  | _ => false

/-- A pool with a uuid keeps it, is not created again, and is worked on only while the latest
query reported that uuid. -/
def KeepsIdentity (past : List Step) (step : Step) : Prop :=
  ∀ name ∈ step.before.pools.keys, ∀ p ∈ stored step.before.pools name, p.status.uuid ≠ "" →
    (∀ p' ∈ stored step.after.pools name, p'.status.uuid = p.status.uuid) ∧
      createJobs (.pool name) step = [] ∧
      (jobsFor changesPool (.pool name) step ≠ [] →
        lastReported (step :: past) name = some p.status.uuid)
  deriving Decidable

def Event.deletesPool : Event → Option String
  | .change (.deletePool name) => some name
  | _ => none

/-- Reconciles of pools read the pool as it is stored. -/
def ReadsFresh (_ : List Step) (step : Step) : Prop :=
  ∀ name ∈ step.event.pool, upToDate step.before (.pool name) = true
  deriving Decidable

def Pool.createUuid (res : Dmg.Result) : Option String :=
  match System.parseResult res with
  | .ok env => (Dmg.poolCreate env).toOption.map (·.1)
  | .error _ => none

/-- The answers of queries and creates carry a uuid. -/
def AnswersNamed (_ : List Step) (step : Step) : Prop :=
  ∀ key ∈ step.before.jobs.keys, ∀ job ∈ step.before.jobs.get key,
    ∀ res ∈ Dmg.resultOf step.before key,
      (job.spec.command.args.take 2 = ["pool", "query"] → Pool.queryUuid res ≠ some "") ∧
        (job.spec.command.args.take 2 = ["pool", "create"] → Pool.createUuid res ≠ some "")
  deriving Decidable

/-- The query of a pool that has a uuid reports it, if anything, and such a pool is deleted
only when the latest query did. -/
def SameUuid (past : List Step) (step : Step) : Prop :=
  (∀ name ∈ step.event.pool, ∀ key ∈ queryKey step.before name,
    ∀ job ∈ step.before.jobs.get key, job.spec.command.args = queryArgs name ∧
      ∀ p ∈ stored step.before.pools name, p.status.uuid ≠ "" →
        ∀ uuid ∈ answeredUuid step.before name key, uuid = p.status.uuid) ∧
  ∀ name ∈ step.event.deletesPool, ∀ p ∈ stored step.before.pools name, p.status.uuid ≠ "" →
    lastReported past name = some p.status.uuid
  deriving Decidable

/-! ## What a status says about the pool -/

namespace Pool

/-- What a move does to the uuid and the operation. -/
inductive Identity (w : World) (log : Log) (pool : DaosPool) (st : DaosPoolStatus) : Prop where
  | kept (huuid : st.uuid = pool.status.uuid)
      (hop : st.operation = none ∨ st.operation = pool.status.operation)
  | creates (hnone : pool.status.uuid = "") (huuid : st.uuid = "")
      (hop : st.operation = some .create)
  | created (hold : pool.status.operation = some .create) (hop : st.operation = none)
      (hlive : pool.deleting = false)
  | queried {sys : DaosSystem} {res : Dmg.Result} (h : Queried w log pool sys res)
      (hanswer : queryUuid res = some st.uuid) (hop : st.operation ≠ some .create)
  | destroys (huuid : st.uuid = pool.status.uuid) (hdeleting : pool.deleting = true)
      (hop : st.operation ≠ some .create)

theorem drift_ne_create (pool : DaosPool) (st : DaosPoolStatus) : drift pool st ≠ some .create := by
  unfold drift
  dsimp only
  repeat' split
  all_goals simp

theorem uuid_queriedStatus (pool : DaosPool) (sys : DaosSystem) (info : Dmg.PoolInfo)
    (healthOnly : Bool) (enabled : List Int) (res : Dmg.Result) (now : Time) :
    (queriedStatus pool sys info healthOnly enabled res now).uuid = info.uuid ∧
      (queriedStatus pool sys info healthOnly enabled res now).operation =
        pool.status.operation := by
  obtain ⟨percent, hrecord⟩ := record_queriedStatus pool sys info healthOnly enabled res now
  have huuid := congrArg DaosPoolStatus.uuid hrecord
  have hoperation := congrArg DaosPoolStatus.operation hrecord
  exact ⟨huuid, hoperation⟩

theorem queryUuid_of_found {info : Dmg.PoolInfo} {healthOnly : Bool}
    (h : queryAnswer res = .found info healthOnly) : queryUuid res = some info.uuid := by
  simp [queryUuid, h]

theorem uuid_endedStatus (pool : DaosPool) (sys : DaosSystem) :
    (endedStatus pool sys).uuid = pool.status.uuid := by
  have hrecord := congrArg DaosPoolStatus.uuid (record_setDegraded pool sys pool.status)
  exact hrecord

theorem applyOp_identity {env : Dmg.Envelope}
    {op : Operation} (h : applyOp pool st env op = .ok (st', ev))
    (hop : op ≠ .create) : st'.uuid = st.uuid := by
  cases op with
  | create => exact absurd rfl hop
  | _ =>
      cases h
      rfl

theorem applyOp_create {env : Dmg.Envelope} (h : applyOp pool st env .create = .ok (st', ev)) :
    ∃ uuid ranks, Dmg.poolCreate env = .ok (uuid, ranks) ∧
      st' = { st with
        uuid, label := poolLabel pool, enabledRanks := ranks
        reintegrationMode := reintegrationMode pool
        appliedACLHash := aclHash pool.spec.acl } := by
  unfold applyOp at h
  cases hpool : Dmg.poolCreate env with
  | error e => simp [hpool, Except.map] at h
  | ok answer =>
      simp only [hpool, Except.map] at h
      cases h
      exact ⟨_, _, rfl, rfl⟩

theorem applyOp_operation {env : Dmg.Envelope}
    {op : Operation} (h : applyOp pool st env op = .ok (st', ev)) :
    st'.operation = st.operation := by
  cases op with
  | create =>
      obtain ⟨uuid, ranks, -, rfl⟩ := applyOp_create h
      rfl
  | _ =>
      cases h
      rfl

theorem opResult_applyOp {op : Operation}
    (h : opResult pool st op res = .ok (st', ev)) :
    ∃ env, applyOp pool st env op = .ok (st', ev) := by
  unfold opResult at h
  dsimp only at h
  split at h
  · cases h
  · split at h
    · cases h
    · exact ⟨_, h⟩

theorem Move.identity {w : World} {log : Log}
    (h : Move w log pool st) : Identity w log pool st := by
  cases h with
  | noSystem _ hst _ | notFormatted _ _ hst _ | waits _ _ hst _ | unclear _ _ hst _
  | missing _ _ _ hst _ | keeps _ _ _ _ hst _ =>
      have huuid := congrArg DaosPoolStatus.uuid hst
      have hop := congrArg DaosPoolStatus.operation hst
      exact .kept huuid (Or.inr hop)
  | creates h hst _ =>
      have huuid := congrArg DaosPoolStatus.uuid hst
      have hop := congrArg DaosPoolStatus.operation hst
      exact .creates h.uuid (huuid.trans h.uuid) hop
  | @settles sys res info healthOnly enabled h _ hst =>
      have huuid := congrArg DaosPoolStatus.uuid hst
      have hop := congrArg DaosPoolStatus.operation hst
      obtain ⟨hinfo, hidle⟩ := uuid_queriedStatus pool sys info healthOnly enabled res w.clock
      refine .queried h.toQueried ?_ ?_
      · rw [queryUuid_of_found h.answer, ← hinfo]
        exact congrArg some huuid.symm
      · rw [show st.operation = _ from hop]
        exact fun hcreate => absurd (hidle.symm.trans hcreate) (by simp [h.idle])
  | @drifts sys res info enabled op h hst _ =>
      have huuid := congrArg DaosPoolStatus.uuid hst
      have hop := congrArg DaosPoolStatus.operation hst
      obtain ⟨hinfo, -⟩ := uuid_queriedStatus pool sys info false enabled res w.clock
      refine .queried h.toQueried ?_ ?_
      · rw [queryUuid_of_found h.answer, ← hinfo]
        exact congrArg some huuid.symm
      · rw [show st.operation = some op from hop]
        rintro ⟨⟩
        exact drift_ne_create _ _ h.drift
  | fails h _ hst _ =>
      have huuid := congrArg DaosPoolStatus.uuid hst
      have hop := congrArg DaosPoolStatus.operation hst
      exact .kept (huuid.trans (uuid_endedStatus _ _)) (Or.inl hop)
  | @succeeds st' sys op res ev h hres hst _ =>
      have huuid := congrArg DaosPoolStatus.uuid hst
      have hop := congrArg DaosPoolStatus.operation hst
      obtain ⟨env, happly⟩ := opResult_applyOp hres
      have hidle : st.operation = none := hop.trans (applyOp_operation happly)
      by_cases hcreate : op = .create
      · subst hcreate
        exact .created h.operation hidle h.live
      · exact .kept (huuid.trans ((applyOp_identity happly hcreate).trans
          (uuid_endedStatus pool sys))) (Or.inl hidle)
  | destroys h hst =>
      have huuid := congrArg DaosPoolStatus.uuid hst
      have hop : st.operation = some .destroy := congrArg DaosPoolStatus.operation hst
      exact .destroys huuid h.1 (by simp [hop])
  | destroyFails h hst =>
      have huuid := congrArg DaosPoolStatus.uuid hst
      have hop : st.operation = none := congrArg DaosPoolStatus.operation hst
      exact .destroys huuid h.1 (by simp [hop])

/-- Why a pool is created: the query says that it does not exist, or a create is polled. -/
theorem Act.of_create {w : World} {log : Log} {spec : Dmg.RunSpec}
    (h : Act w pool log (.createJob spec)) (hcreate : isCreate spec.command.args = true) :
    (∃ sys res, Creates w log pool sys res) ∨ pool.status.operation = some .create := by
  generalize hcall : Call.createJob spec = call at h
  cases h with
  | quiet h =>
      subst hcall
      cases h
  | query _ _ =>
      cases hcall
      cases hcreate
  | @polls sys op _ hop =>
      cases hcall
      cases op with
      | create => exact Or.inr hop
      | _ => cases hcreate
  | creates h => exact Or.inl ⟨_, _, h⟩
  | @drifts sys res info enabled op h =>
      cases hcall
      cases op with
      | create => exact absurd h.drift (drift_ne_create _ _)
      | _ => cases hcreate
  | destroys _ _ =>
      cases hcall
      cases hcreate
  | _ => cases hcall

/-- A pool with a uuid is created again only where a create is being polled. -/
theorem Act.uuid_of_create {w : World} {log : Log} {spec : Dmg.RunSpec}
    (h : Act w pool log (.createJob spec)) (hcreate : isCreate spec.command.args = true) :
    pool.status.uuid = "" ∨ pool.status.operation = some .create := by
  rcases h.of_create hcreate with ⟨sys, res, h⟩ | hop
  · exact Or.inl h.uuid
  · exact Or.inr hop

/-- Why a pool that exists is worked on: it is being deleted, an operation is in progress, or
the query that was just read says that it differs from its spec. -/
theorem Act.of_change {w : World} {log : Log} {spec : Dmg.RunSpec}
    (h : Act w pool log (.createJob spec)) (hchange : changesPool spec.command.args = true) :
    pool.deleting = true ∨ (∃ op, pool.status.operation = some op ∧ op ≠ .create) ∨
      ∃ sys res info, Queried w log pool sys res ∧ queryAnswer res = .found info false := by
  generalize hcall : Call.createJob spec = call at h
  cases h with
  | quiet h =>
      subst hcall
      cases h
  | query _ _ =>
      cases hcall
      simp [opSpec, jobCommand, changesPool, Dmg.Command.args] at hchange
  | @polls sys op _ hop =>
      cases hcall
      refine Or.inr (Or.inl ⟨op, hop, ?_⟩)
      rintro rfl
      simp [opSpec, jobCommand, createArgs, changesPool, Dmg.Command.args] at hchange
  | creates _ =>
      cases hcall
      simp [opSpec, jobCommand, createArgs, changesPool, Dmg.Command.args] at hchange
  | drifts h => exact Or.inr (Or.inr ⟨_, _, _, h.toQueried, h.answer⟩)
  | destroys _ h => exact Or.inl h.1
  | _ => cases hcall

end Pool

/-! ## What a run keeps -/

/-- What a run keeps: a create belongs to a pool without a uuid, and a pool that is being
deleted or changed has the uuid that the latest query reported. -/
structure Identified (past : List Step) (w : World) : Prop where
  named : WellNamed w
  fresh : ∀ name p, stored w.pools name = some p → p.status.operation = some .create →
    p.status.uuid = ""
  busy : ∀ name p, stored w.pools name = some p →
    (p.deleting = true ∨ ∃ op, p.status.operation = some op ∧ op ≠ .create) →
      p.status.uuid ≠ "" → lastReported past name = some p.status.uuid

section Steps

variable {past : List Step} {w : World} {e : Event} {name : String}

theorem lastReported_cons (r : Step) :
    lastReported (r :: past) name = (reported name r).or (lastReported past name) := by
  unfold lastReported
  rw [List.findSome?_cons]
  cases reported name r <;> rfl

theorem readsJob_of_read {log : Log} {key : ObjectKey}
    (h : Dmg.Read w log key res) : readsJob log key = true := by
  obtain ⟨-, x, hx, hcall, hfault⟩ := h
  exact List.any_eq_true.mpr ⟨x, hx, by simp [hcall, hfault]⟩

theorem reported_of_queried {sys : DaosSystem}
    {uuid : String} {faults : List Fault}
    (hsame : SameUuid past (operator.record w (.reconcilePool name faults)))
    (hpool : cached w.pools name = some pool)
    (h : Pool.Queried w (operator.step w (.reconcilePool name faults)).2 pool sys res)
    (huuid : Pool.queryUuid res = some uuid) :
    reported name (operator.record w (.reconcilePool name faults)) = some uuid := by
  have hkey : queryKey w name = some (Pool.jobKey pool.name (namespaceOf sys) .query) := by
    simp [queryKey, hpool, h.system]
  obtain ⟨job, hjob, -⟩ := Option.bind_eq_some_iff.mp h.read.1
  obtain ⟨hargs, -⟩ := hsame.1 name rfl _ hkey job hjob
  simp [reported, Event.owned, hkey, readsJob_of_read h.read, answeredUuid, hjob, hargs,
    h.read.1, huuid]

/-- A query that is read while the pool has a uuid reports that one. -/
theorem reported_eq {p : DaosPool} (hsame : SameUuid past (operator.record w e))
    (hp : stored w.pools name = some p) (hne : p.status.uuid ≠ "") {uuid : String}
    (h : reported name (operator.record w e) = some uuid) : uuid = p.status.uuid := by
  unfold reported at h
  split at h
  · next ho =>
      obtain ⟨key, hkey, hif⟩ := Option.bind_eq_some_iff.mp h
      split at hif
      · obtain ⟨job, hjob, -⟩ := Option.bind_eq_some_iff.mp hif
        cases e with
        | reconcilePool name' faults =>
            cases ho
            exact (hsame.1 name rfl key hkey job hjob).2 p hp hne uuid hif
        | _ => cases ho
      · cases hif
  · cases h

/-- What the latest query reported stays true of a pool that has a uuid. -/
theorem lastReported_keep {p : DaosPool} (hsame : SameUuid past (operator.record w e))
    (hp : stored w.pools name = some p) (hne : p.status.uuid ≠ "")
    (h : lastReported past name = some p.status.uuid) :
    lastReported (operator.record w e :: past) name = some p.status.uuid := by
  rw [lastReported_cons]
  cases hr : reported name (operator.record w e) with
  | none => exact h
  | some uuid => rw [reported_eq hsame hp hne hr, Option.some_or]

theorem ReadsFresh.reads {faults : List Fault}
    (h : ReadsFresh past (operator.record w (.reconcilePool name faults))) :
    cached w.pools name = stored w.pools name := of_decide_eq_true (h name rfl)

/-- What a step does to the uuid of a stored pool, and to what it is busy with. -/
inductive PoolStep (w : World) (e : Event) (name : String) (p' : DaosPool) : Prop where
  | created (h : stored w.pools name = none) (hstatus : p'.status = {})
      (hlive : p'.deleting = false)
  | same {p : DaosPool} (hp : stored w.pools name = some p) (hstatus : p'.status = p.status)
      (hdeleting : p'.deleting = p.deleting ∨ e.deletesPool = some name)
  | moved {p : DaosPool} {faults : List Fault} (he : e = .reconcilePool name faults)
      (hp : stored w.pools name = some p) (hread : cached w.pools name = some p)
      (hdeleting : p'.deleting = p.deleting)
      (h : Pool.Identity w (operator.step w e).2 p p'.status)

theorem poolStep (hw : WellNamed w) (hfresh : ReadsFresh past (operator.record w e))
    {p' : DaosPool} (hp : stored (operator.step w e).1.pools name = some p') :
    PoolStep w e name p' := by
  cases pool_after hw hp with
  | created hnone hstatus hlive => exact .created hnone hstatus hlive
  | same hstored hstatus hdeleting =>
      refine .same hstored hstatus (hdeleting.imp_right ?_)
      rintro rfl
      rfl
  | moved he hstored hpool hdeleting hmove =>
      subst he
      have hread := hfresh.reads
      rw [hpool, hstored] at hread
      cases hread
      exact .moved rfl hstored hpool hdeleting hmove.identity

theorem Identified.step (hinv : Identified past w)
    (hfresh : ReadsFresh past (operator.record w e)) (hsame : SameUuid past (operator.record w e)) :
    Identified (operator.record w e :: past) (operator.step w e).1 := by
  refine ⟨hinv.named.step e, ?_, ?_⟩
  · intro name p' hafter hcreate
    cases poolStep hinv.named hfresh hafter with
    | created _ hstatus _ => rw [hstatus]
    | same hp hstatus _ =>
        rw [hstatus] at hcreate ⊢
        exact hinv.fresh name _ hp hcreate
    | moved _ hp _ _ h =>
        cases h with
        | kept huuid hop =>
            rcases hop with hop | hop
            · rw [hop] at hcreate
              cases hcreate
            · rw [huuid]
              exact hinv.fresh name _ hp (hop ▸ hcreate)
        | creates _ huuid _ => exact huuid
        | created _ hop _ =>
            rw [hop] at hcreate
            cases hcreate
        | queried _ _ hop | destroys _ _ hop => exact absurd hcreate hop
  · intro name p' hafter hbusy hne
    cases poolStep hinv.named hfresh hafter with
    | created _ hstatus _ =>
        rw [hstatus] at hne
        exact absurd rfl hne
    | same hp hstatus hdeleting =>
        rw [hstatus] at hbusy hne ⊢
        refine lastReported_keep hsame hp hne ?_
        rcases hdeleting with hdeleting | hdeletes
        · rw [hdeleting] at hbusy
          exact hinv.busy name _ hp hbusy hne
        · exact hsame.2 name hdeletes _ hp hne
    | @moved p faults he hp hread hdeleting h =>
        subst he
        rw [hdeleting] at hbusy
        cases h with
        | kept huuid hop =>
            rw [huuid] at hne ⊢
            refine lastReported_keep hsame hp hne (hinv.busy name p hp ?_ hne)
            refine hbusy.imp_right ?_
            rintro ⟨op, hop', hnot⟩
            rcases hop with hop | hop
            · rw [hop] at hop'
              cases hop'
            · exact ⟨op, hop ▸ hop', hnot⟩
        | creates _ huuid _ => exact absurd huuid hne
        | created _ hop hlive =>
            rcases hbusy with hbusy | ⟨op, hop', -⟩
            · simp [hlive] at hbusy
            · rw [hop] at hop'
              cases hop'
        | queried h hanswer _ =>
            rw [lastReported_cons, reported_of_queried hsame hread h hanswer, Option.some_or]
        | destroys huuid hdeleted _ =>
            rw [huuid] at hne ⊢
            exact lastReported_keep hsame hp hne (hinv.busy name p hp (Or.inl hdeleted) hne)

/-- The Jobs of a step are calls of the reconcile of the pool as it is read. -/
theorem act_of_jobsFor {command : List String → Bool} {j : ObjectKey × Nat}
    (hj : j ∈ jobsFor command (.pool name) (operator.record w e)) :
    ∃ faults spec pool, e = .reconcilePool name faults ∧ cached w.pools name = some pool ∧
      Pool.Act w pool (operator.step w e).2 (.createJob spec) ∧
        command spec.command.args = true := by
  obtain ⟨ho, x, hx, spec, hcall, hcommand⟩ := mem_jobsFor hj
  have h := stepCall_of_mem hx
  rw [hcall] at h
  cases h with
  | quiet h => cases h
  | system _ _ => cases ho
  | container _ _ => cases ho
  | pool hpool h =>
      cases ho
      exact ⟨_, spec, _, rfl, hpool, h, hcommand⟩

theorem act_of_fresh {command : List String → Bool} {p : DaosPool}
    (hfresh : ReadsFresh past (operator.record w e)) (hp : stored w.pools name = some p)
    {j : ObjectKey × Nat} (hj : j ∈ jobsFor command (.pool name) (operator.record w e)) :
    ∃ faults spec, e = .reconcilePool name faults ∧ cached w.pools name = some p ∧
      Pool.Act w p (operator.step w e).2 (.createJob spec) ∧ command spec.command.args = true := by
  obtain ⟨faults, spec, pool, rfl, hpool, h, hcommand⟩ := act_of_jobsFor hj
  have hread := hfresh.reads
  rw [hpool, hp] at hread
  cases hread
  exact ⟨faults, spec, rfl, hpool, h, hcommand⟩

/-- One step keeps the identity of a pool. -/
theorem keepsIdentity_step (hinv : Identified past w)
    (hfresh : ReadsFresh past (operator.record w e)) (hsame : SameUuid past (operator.record w e)) :
    KeepsIdentity past (operator.record w e) := by
  intro name _ p hmem hne
  have hp : stored w.pools name = some p := hmem
  refine ⟨?_, ?_, ?_⟩
  · intro p' hp'
    cases poolStep hinv.named hfresh hp' with
    | created hnone _ _ =>
        rw [hp] at hnone
        cases hnone
    | same hq hstatus _ =>
        rw [hp] at hq
        cases hq
        rw [hstatus]
    | moved he hq hread _ h =>
        subst he
        rw [hp] at hq
        cases hq
        cases h with
        | kept huuid _ | destroys huuid _ _ => exact huuid
        | creates hnone _ _ => exact absurd hnone hne
        | created hold _ _ => exact absurd (hinv.fresh name p hp hold) hne
        | queried h hanswer _ =>
            exact reported_eq hsame hp hne (reported_of_queried hsame hread h hanswer)
  · refine List.eq_nil_iff_forall_not_mem.mpr ?_
    intro j hj
    obtain ⟨faults, spec, rfl, -, hact, hcreate⟩ := act_of_fresh hfresh hp hj
    rcases hact.uuid_of_create hcreate with huuid | hop
    · exact hne huuid
    · exact hne (hinv.fresh name p hp hop)
  · intro hjobs
    obtain ⟨j, hj⟩ := List.exists_mem_of_ne_nil _ hjobs
    obtain ⟨faults, spec, rfl, hread, hact, hchange⟩ := act_of_fresh hfresh hp hj
    rcases hact.of_change hchange with hdeleting | hop | ⟨sys, res, info, hqueried, hanswer⟩
    · exact lastReported_keep hsame hp hne (hinv.busy name p hp (Or.inl hdeleting) hne)
    · exact lastReported_keep hsame hp hne (hinv.busy name p hp (Or.inr hop) hne)
    · have hreported := reported_of_queried hsame hread hqueried (Pool.queryUuid_of_found hanswer)
      rw [lastReported_cons, hreported, reported_eq hsame hp hne hreported, Option.some_or]

end Steps

/-- Where the label of a pool is not used for another one, a `DaosPool` keeps its identity. -/
theorem pool_keeps_identity (events : List Event) (hfresh : Along ReadsFresh [] (history events))
    (hsame : Along SameUuid [] (history events)) : Along KeepsIdentity [] (history events) := by
  refine Machine.along_induction (I := Identified) ?_ ?_ events (hfresh.and hsame)
  · intro past w e hinv hstep
    exact ⟨keepsIdentity_step hinv hstep.1 hstep.2, hinv.step hstep.1 hstep.2⟩
  · exact ⟨wellNamed_empty, by simp [stored], by simp [stored]⟩

/-- A pool with a uuid is queried once more, and the query reports this uuid. -/
def requeriedRun (uuid : String) : List Event :=
  pooledRun ++ [.change (.jobRemoved ⟨"daos-system", "pool-p-dmg-query"⟩),
    .change (.tick 3600)] ++ poolPass "p" ++
    [jobAnswers ⟨"daos-system", "pool-p-dmg-query"⟩
      ("\x7b\"response\":\x7b\"uuid\":\"" ++ uuid ++ "\"\x7d\x7d")] ++ poolPass "p"

/-- The query reports the recorded uuid again. -/
theorem pool_keeps_identity_requeried :
    lastReported (history (requeriedRun "u")).reverse "p" = some "u" ∧
      Along KeepsIdentity [] (history (requeriedRun "u")) := by
  have hrun : lastReported (history (requeriedRun "u")).reverse "p" = some "u" ∧
      Along ReadsFresh [] (history (requeriedRun "u")) ∧
        Along SameUuid [] (history (requeriedRun "u")) := by
    decide +kernel
  exact ⟨hrun.1, pool_keeps_identity (requeriedRun "u") hrun.2.1 hrun.2.2⟩

/-- The pool was destroyed by hand and another one made under its label: the next query
overwrites the recorded uuid. -/
theorem pool_takes_over :
    Along ReadsFresh [] (history (requeriedRun "v")) ∧
      Along AnswersNamed [] (history (requeriedRun "v")) ∧
        ¬Along KeepsIdentity [] (history (requeriedRun "v")) := by
  decide +kernel

end DaosOperator
