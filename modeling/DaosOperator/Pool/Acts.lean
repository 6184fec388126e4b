import DaosOperator.Effect.Account
import DaosOperator.Pool.Footprint

/-!
# What a `DaosPool` reconcile does, and why

Every Job that a reconcile creates, every status it writes and every change of the
finalizer is traced back to the pool that was read and to the Jobs that were found.  So
all its calls are within the footprint.
-/

namespace DaosOperator

open Effect

/-- The reason of the condition `Ready`. -/
def DaosPoolStatus.readyReason (st : DaosPoolStatus) : Option String :=
  (findStatusCondition st.conditions .ready).map (·.reason)

def DaosPoolStatus.record (st : DaosPoolStatus) : DaosPoolStatus := { st with conditions := [] }

namespace Pool

open DaosOperator.System (namespaceOf)

/-! ## What a query says -/

/-- What the query of a pool says. -/
inductive QueryAnswer where
  /-- Nothing to go by; the reason and the message it is reported with. -/
  | unclear (reason msg : String)
  | absent
  | found (info : Dmg.PoolInfo) (healthOnly : Bool)

/-- The envelope a query is decided on, and whether it is the one of the health-only form. -/
def queryEnvelope (first : Dmg.Envelope) (output : String) : Dmg.Envelope × Bool :=
  let fallback :=
    if first.error.any fun e => Dmg.classify e = .timeout then fallbackAnswer output else none
  (fallback.getD first, fallback.isSome)

/-- What an envelope says about the pool. -/
def envelopeAnswer (env : Dmg.Envelope) (healthOnly : Bool) : QueryAnswer :=
  match env.error with
  | some e =>
      match Dmg.classify e with
      | .notFound => .absent
      | .unreachable => .unclear "ManagementUnreachable" e
      | _ => .unclear "QueryError" e
  | none =>
      match Dmg.poolQuery env with
      | .error e => .unclear "ProbeFailed" e
      | .ok info => .found info healthOnly

def queryAnswer (res : Dmg.Result) : QueryAnswer :=
  match System.parseResult res with
  | .error e => .unclear "ProbeFailed" e
  | .ok first =>
      envelopeAnswer (queryEnvelope first res.output).1 (queryEnvelope first res.output).2

/-- What a reconcile makes of the pool that a query did not find. -/
def poolAbsent (pool : DaosPool) (sys : DaosSystem) (ns : String) (st : DaosPoolStatus) :
    Op Duration :=
  if st.uuid ≠ "" then
    updateStatus pool (setC st .ready .isFalse "PoolMissing"
      ("pool " ++ poolLabel pool ++ " (uuid " ++ st.uuid ++ ") no longer exists in DAOS; " ++
        "delete and re-create the DaosPool to make a new, empty pool")) requeueIdle
  else if failedForThisSpec pool st "CreateFailed" then updateStatus pool st requeueFailed
  else startOp pool sys ns st .create

/-- Act on what a query says. -/
def onAnswer (pool : DaosPool) (sys : DaosSystem) (ns : String) (res : Dmg.Result)
    (st : DaosPoolStatus) : QueryAnswer → Op Duration
  | .unclear reason e => updateStatus pool (setC st .ready .unknown reason e) requeueWait
  | .absent => poolAbsent pool sys ns st
  | .found info healthOnly => readInfo pool sys ns info healthOnly res st

theorem readQuery_eq (pool : DaosPool) (sys : DaosSystem) (ns : String) (res : Dmg.Result)
    (st : DaosPoolStatus) :
    readQuery pool sys ns res st = onAnswer pool sys ns res st (queryAnswer res) := by
  have henvelope : ∀ (env : Dmg.Envelope) (healthOnly : Bool),
      (match env.error with
        | some e => queryError pool sys ns st e
        | none =>
            match Dmg.poolQuery env with
            | .error e => updateStatus pool (setC st .ready .unknown "ProbeFailed" e) requeueWait
            | .ok info => readInfo pool sys ns info healthOnly res st) =
        onAnswer pool sys ns res st (envelopeAnswer env healthOnly) := by
    intro env healthOnly
    unfold envelopeAnswer
    cases env.error with
    | some e =>
        unfold queryError
        dsimp only
        cases Dmg.classify e <;> rfl
    | none =>
        dsimp only
        cases Dmg.poolQuery env <;> rfl
  unfold readQuery queryAnswer
  cases System.parseResult res with
  | error e => rfl
  | ok first => exact henvelope (queryEnvelope first res.output).1 _

/-- The status right after a query answered. -/
def queriedStatus (pool : DaosPool) (sys : DaosSystem) (info : Dmg.PoolInfo) (healthOnly : Bool)
    (enabled : List Int) (res : Dmg.Result) (now : Time) : DaosPoolStatus :=
  setMismatch pool (checkSpace pool (withInfo pool info enabled healthOnly res.output
    (res.queriedAt now) (setDegraded pool sys pool.status))).1

/-! ## What an operation left -/

/-- The status a finished operation starts from. -/
def endedStatus (pool : DaosPool) (sys : DaosSystem) : DaosPoolStatus :=
  { setDegraded pool sys pool.status with operation := none, observedGeneration := pool.generation }

/-- The new status, or why the operation failed. -/
def opResult (pool : DaosPool) (st : DaosPoolStatus) (op : Operation) (res : Dmg.Result) :
    Except String (DaosPoolStatus × Option (String × String)) :=
  let what := "dmg pool " ++ opCommand op
  match System.parseResult res with
  | .error e => .error (what ++ ": " ++ e)
  | .ok env =>
      match env.error with
      | some e => .error (what ++ ": " ++ e)
      | none => applyOp pool st env op

theorem finishOp_eq (pool : DaosPool) (st : DaosPoolStatus) (op : Operation) (res : Dmg.Result) :
    finishOp pool st op res =
      match opResult pool { st with operation := none, observedGeneration := pool.generation } op
        res with
      | .error msg => failOp pool { st with
          operation := none, observedGeneration := pool.generation } op msg
      | .ok (st', ev) =>
          (match ev with
            | some (reason, msg) => event pool false reason msg
            | none => .ret ()).bind fun _ =>
            (ask (.clearHold (poolKey pool.name))).bind fun _ =>
              updateStatus pool (setC st' .ready .unknown "Querying"
                ("dmg pool " ++ opCommand op ++ " succeeded; refreshing")) 1 := by
  unfold finishOp opResult
  dsimp only
  cases System.parseResult res with
  | error e => rfl
  | ok env =>
      dsimp only
      cases env.error with
      | some e => rfl
      | none => cases applyOp pool _ env op <;> rfl

/-! ## Moves of the status -/

/-- The pool is worked on: its system is there and formatted, and nobody deletes it. -/
structure Serves (w : World) (pool : DaosPool) (sys : DaosSystem) : Prop where
  system : cached w.systems pool.spec.systemRef = some sys
  finalizer : pool.finalizer = true
  live : pool.deleting = false
  formatted : sys.status.formatted = true

/-- The pool is idle, and its query was read. -/
structure Queried (w : World) (log : List (Entry Call World)) (pool : DaosPool) (sys : DaosSystem)
    (res : Dmg.Result) : Prop extends Serves w pool sys where
  idle : pool.status.operation = none
  read : Dmg.Read w log (jobKey pool.name (namespaceOf sys) .query) res

/-- The pool is to be created: it does not exist, and never did. -/
structure Creates (w : World) (log : List (Entry Call World)) (pool : DaosPool) (sys : DaosSystem)
    (res : Dmg.Result) : Prop extends Queried w log pool sys res where
  absent : queryAnswer res = .absent
  uuid : pool.status.uuid = ""
  untried : failedForThisSpec pool pool.status "CreateFailed" = false

/-- The query described the pool, up to its space where it is health-only. -/
structure Described (w : World) (log : List (Entry Call World)) (pool : DaosPool)
    (sys : DaosSystem) (res : Dmg.Result) (info : Dmg.PoolInfo) (healthOnly : Bool)
    (enabled : List Int) : Prop extends Queried w log pool sys res where
  answer : queryAnswer res = .found info healthOnly
  ranks : Dmg.ranks info.enabledRanks = some enabled

/-- The pool differs from its spec. -/
structure Drifts (w : World) (log : List (Entry Call World)) (pool : DaosPool) (sys : DaosSystem)
    (res : Dmg.Result) (info : Dmg.PoolInfo) (enabled : List Int) (op : Operation) : Prop
    extends Described w log pool sys res info false enabled where
  drift : drift pool (queriedStatus pool sys info false enabled res w.clock) = some op

/-- The operation in progress finished, and its result was read. -/
structure Ended (w : World) (log : List (Entry Call World)) (pool : DaosPool) (sys : DaosSystem)
    (op : Operation) (res : Dmg.Result) : Prop extends Serves w pool sys where
  operation : pool.status.operation = some op
  read : Dmg.Read w log (jobKey pool.name (namespaceOf sys) (.op op)) res

/-- The statuses a reconcile writes, and when. -/
inductive Move (w : World) (log : List (Entry Call World)) (pool : DaosPool) :
    DaosPoolStatus → Prop where
  | noSystem {st : DaosPoolStatus} (h : cached w.systems pool.spec.systemRef = none)
      (hst : st.record = pool.status.record) (hreason : st.readyReason = some "SystemNotFound") :
      Move w log pool st
  | notFormatted {st : DaosPoolStatus} {sys : DaosSystem}
      (h : cached w.systems pool.spec.systemRef = some sys) (hsys : sys.status.formatted = false)
      (hst : st.record = pool.status.record)
      (hreason : st.readyReason = some "SystemNotFormatted") : Move w log pool st
  /-- The query is running. -/
  | waits {st : DaosPoolStatus} {sys : DaosSystem} (h : Serves w pool sys)
      (hidle : pool.status.operation = none) (hst : st.record = pool.status.record)
      (hreason : pool.status.readyReason = none ∨ st.readyReason = pool.status.readyReason) :
      Move w log pool st
  | unclear {st : DaosPoolStatus} {sys : DaosSystem} {res : Dmg.Result} {reason msg : String}
      (h : Queried w log pool sys res) (hanswer : queryAnswer res = .unclear reason msg)
      (hst : st.record = pool.status.record) (hreason : st.readyReason = some reason) :
      Move w log pool st
  | missing {st : DaosPoolStatus} {sys : DaosSystem} {res : Dmg.Result}
      (h : Queried w log pool sys res) (hanswer : queryAnswer res = .absent)
      (huuid : pool.status.uuid ≠ "") (hst : st.record = pool.status.record)
      (hreason : st.readyReason = some "PoolMissing") : Move w log pool st
  /-- The create failed before and is not repeated. -/
  | keeps {st : DaosPoolStatus} {sys : DaosSystem} {res : Dmg.Result}
      (h : Queried w log pool sys res) (hanswer : queryAnswer res = .absent)
      (huuid : pool.status.uuid = "")
      (hfailed : failedForThisSpec pool pool.status "CreateFailed" = true)
      (hst : st.record = pool.status.record) (hreason : st.readyReason = pool.status.readyReason) :
      Move w log pool st
  | creates {st : DaosPoolStatus} {sys : DaosSystem} {res : Dmg.Result}
      (h : Creates w log pool sys res)
      (hst : st.record = { pool.status with operation := some .create }.record)
      (hreason : st.readyReason = some "CreateInProgress") : Move w log pool st
  | settles {st : DaosPoolStatus} {sys : DaosSystem} {res : Dmg.Result} {info : Dmg.PoolInfo}
      {healthOnly : Bool} {enabled : List Int}
      (h : Described w log pool sys res info healthOnly enabled)
      (hdrift : healthOnly = true ∨
        drift pool (queriedStatus pool sys info healthOnly enabled res w.clock) = none)
      (hst : st.record = (queriedStatus pool sys info healthOnly enabled res w.clock).record) :
      Move w log pool st
  | drifts {st : DaosPoolStatus} {sys : DaosSystem} {res : Dmg.Result} {info : Dmg.PoolInfo}
      {enabled : List Int} {op : Operation} (h : Drifts w log pool sys res info enabled op)
      (hst : st.record = { queriedStatus pool sys info false enabled res w.clock with
        operation := some op }.record)
      (hreason : st.readyReason = some (Text.title op.text ++ "InProgress")) : Move w log pool st
  | fails {st : DaosPoolStatus} {sys : DaosSystem} {op : Operation} {res : Dmg.Result}
      {msg : String} (h : Ended w log pool sys op res)
      (hres : opResult pool (endedStatus pool sys) op res = .error msg)
      (hst : st.record = (endedStatus pool sys).record)
      (hreason : st.readyReason = some (Text.title op.text ++ "Failed")) : Move w log pool st
  | succeeds {st st' : DaosPoolStatus} {sys : DaosSystem} {op : Operation} {res : Dmg.Result}
      {ev : Option (String × String)} (h : Ended w log pool sys op res)
      (hres : opResult pool (endedStatus pool sys) op res = .ok (st', ev))
      (hst : st.record = st'.record) (hreason : st.readyReason = some "Querying") :
      Move w log pool st
  /-- A destroy runs. -/
  | destroys {st : DaosPoolStatus} (h : DestroyGate pool)
      (hst : st.record = { pool.status with operation := some .destroy }.record) :
      Move w log pool st
  | destroyFails {st : DaosPoolStatus} (h : DestroyGate pool)
      (hst : st.record = { pool.status with
        operation := none
        destroyAttempts := Text.toInt32 (pool.status.destroyAttempts + 1) }.record) :
      Move w log pool st

/-- Nothing but a destroy is recorded for a pool that is being deleted. -/
theorem Move.uuid_of_deleting {w : World} {log : List (Entry Call World)} {pool : DaosPool}
    {st : DaosPoolStatus} (h : Move w log pool st) (hdeleting : pool.deleting = true) :
    st.uuid = pool.status.uuid := by
  have hlive : ∀ {sys : DaosSystem}, Serves w pool sys → st.uuid = pool.status.uuid := by
    intro sys h
    simp [h.live] at hdeleting
  cases h with
  | noSystem _ hst _ | notFormatted _ _ hst _ | destroys _ hst | destroyFails _ hst =>
      have huuid := congrArg DaosPoolStatus.uuid hst
      exact huuid
  | waits h _ _ _ => exact hlive h
  | unclear h _ _ _ | missing h _ _ _ _ | keeps h _ _ _ _ _ => exact hlive h.toServes
  | creates h _ _ => exact hlive h.toServes
  | settles h _ _ => exact hlive h.toServes
  | drifts h _ _ => exact hlive h.toServes
  | fails h _ _ _ | succeeds h _ _ _ => exact hlive h.toServes

/-! ## Calls -/

/-- An approved destroy succeeded, and its result was read. -/
structure Destroyed (w : World) (log : List (Entry Call World)) (pool : DaosPool)
    (sys : DaosSystem) (res : Dmg.Result) : Prop where
  system : cached w.systems pool.spec.systemRef = some sys
  gate : DestroyGate pool
  read : Dmg.Read w log (jobKey pool.name (namespaceOf sys) (.op .destroy)) res
  succeeded : destroyFailure res = none

/-- The pool an operation is built from: an extend takes the ranks just read. -/
def startPool (pool : DaosPool) (enabled : List Int) (op : Operation) : DaosPool :=
  if op = .extend then
    { pool with status := { pool.status with enabledRanks := enabled } }
  else pool

/-- The calls of a reconcile of a pool, and when it makes them. -/
inductive Act (w : World) (pool : DaosPool) (log : List (Entry Call World)) : Call → Prop where
  | quiet {c : Call} (h : c.quiet = true) : Act w pool log c
  | setHold (key : String) (interval : Duration) : Act w pool log (.setHold key interval)
  | clearHold (key : String) : Act w pool log (.clearHold key)
  | query {sys : DaosSystem} (h : Serves w pool sys) (hidle : pool.status.operation = none) :
      Act w pool log (.createJob (opSpec pool sys (namespaceOf sys) .query))
  | polls {sys : DaosSystem} {op : Operation} (h : Serves w pool sys)
      (hop : pool.status.operation = some op) :
      Act w pool log (.createJob (opSpec pool sys (namespaceOf sys) (.op op)))
  | creates {sys : DaosSystem} {res : Dmg.Result} (h : Creates w log pool sys res) :
      Act w pool log (.createJob (opSpec pool sys (namespaceOf sys) (.op .create)))
  | drifts {sys : DaosSystem} {res : Dmg.Result} {info : Dmg.PoolInfo} {enabled : List Int}
      {op : Operation} (h : Drifts w log pool sys res info enabled op) :
      Act w pool log
        (.createJob (opSpec (startPool pool enabled op) sys (namespaceOf sys) (.op op)))
  | destroys {sys : DaosSystem} (hsys : cached w.systems pool.spec.systemRef = some sys)
      (h : DestroyGate pool) :
      Act w pool log (.createJob (opSpec pool sys (namespaceOf sys) (.op .destroy)))
  | reads {sys : DaosSystem} (job : PoolJob)
      (hsys : cached w.systems pool.spec.systemRef = some sys) :
      Act w pool log (.deleteJob (jobKey pool.name (namespaceOf sys) job))
  | status {st : DaosPoolStatus} (h : Move w log pool st) :
      Act w pool log (.updatePoolStatus pool.name st)
  | holds (hlive : pool.deleting = false) (hfinalizer : pool.finalizer = false) :
      Act w pool log (.setPoolFinalizer pool.name true)
  | releases {sys : DaosSystem} (hsys : cached w.systems pool.spec.systemRef = some sys)
      (hdeleting : pool.deleting = true)
      (hgate : destroyApproved pool = false ∨ pool.status.uuid = "") :
      Act w pool log (.setPoolFinalizer pool.name false)
  | destroyed {sys : DaosSystem} {res : Dmg.Result} (h : Destroyed w log pool sys res) :
      Act w pool log (.setPoolFinalizer pool.name false)

/-- Every call so far is one of those, and the clock stands still. -/
def Acts (w : World) (pool : DaosPool) (t : Point Call World) : Prop :=
  t.world.clock = w.clock ∧ Accounted (Act w pool) t

/-- A Job is created for a pool that is worked on, or to destroy it. -/
theorem Act.of_createJob {w : World} {pool : DaosPool} {log : List (Entry Call World)}
    {spec : Dmg.RunSpec} (h : Act w pool log (.createJob spec)) :
    (∃ sys, Serves w pool sys) ∨
      ∃ sys, spec = opSpec pool sys (namespaceOf sys) (.op .destroy) ∧ DestroyGate pool := by
  generalize hcall : Call.createJob spec = call at h
  cases h with
  | quiet h =>
      subst hcall
      cases h
  | query h _ | polls h _ => exact Or.inl ⟨_, h⟩
  | creates h => exact Or.inl ⟨_, h.toServes⟩
  | drifts h => exact Or.inl ⟨_, h.toServes⟩
  | destroys _ h =>
      cases hcall
      exact Or.inr ⟨_, rfl, h⟩
  | _ => cases hcall

/-! ## Within the footprint -/

theorem operation_queriedStatus (pool : DaosPool) (sys : DaosSystem) (info : Dmg.PoolInfo)
    (healthOnly : Bool) (enabled : List Int) (res : Dmg.Result) (now : Time) :
    (queriedStatus pool sys info healthOnly enabled res now).operation = pool.status.operation := by
  unfold queriedStatus setMismatch
  dsimp only
  split <;> simp only [setC, operation_checkSpace, withInfo, operation_setDegraded]

theorem operation_opResult {pool : DaosPool} {st st' : DaosPoolStatus} {op : Operation}
    {res : Dmg.Result} {ev : Option (String × String)}
    (h : opResult pool st op res = .ok (st', ev)) : st'.operation = st.operation := by
  unfold opResult at h
  dsimp only at h
  split at h
  · cases h
  · split at h
    · cases h
    · exact operation_applyOp h

/-- A destroy is recorded only where the pool is being deleted or had one recorded. -/
theorem Move.destroying {w : World} {log : List (Entry Call World)} {pool : DaosPool}
    {st : DaosPoolStatus} (h : Move w log pool st) (hop : st.operation = some .destroy) :
    pool.deleting = true ∨ pool.status.operation = some .destroy := by
  have hrecord : ∀ {st' : DaosPoolStatus}, st.record = st'.record →
      st'.operation = some .destroy := by
    intro st' hst
    have hsame := congrArg DaosPoolStatus.operation hst
    exact hsame.symm.trans hop
  cases h with
  | noSystem _ hst _ | notFormatted _ _ hst _ | waits _ _ hst _ | unclear _ _ hst _
  | missing _ _ _ hst _ | keeps _ _ _ _ hst _ => exact Or.inr (hrecord hst)
  | creates _ hst _ | fails _ _ hst _ => cases hrecord hst
  | settles h _ hst =>
      have hqueried := hrecord hst
      rw [operation_queriedStatus, h.idle] at hqueried
      cases hqueried
  | drifts h hst _ => exact absurd (Option.some.inj (hrecord hst)) (drift_ne_destroy h.drift)
  | succeeds _ hres hst _ =>
      have hended := hrecord hst
      rw [operation_opResult hres] at hended
      cases hended
  | destroys h _ | destroyFails h _ => exact Or.inl h.1

theorem Act.poolCall {w : World} {pool : DaosPool} {log : List (Entry Call World)} {c : Call}
    (h : Act w pool log c) : PoolCall pool c := by
  cases h with
  | quiet h => exact .quiet h
  | setHold key interval => exact .setHold key interval
  | clearHold key => exact .clearHold key
  | query _ _ | creates _ => exact .createJob pool _ _ _ rfl rfl (by simp)
  | polls h hop =>
      refine .createJob pool _ _ _ rfl rfl ?_
      rintro ⟨⟩
      exact Or.inr ⟨h.live, hop⟩
  | @drifts sys res info enabled op h =>
      have hpool : (startPool pool enabled op).name = pool.name ∧
          (startPool pool enabled op).spec = pool.spec := by
        unfold startPool
        split <;> exact ⟨rfl, rfl⟩
      refine .createJob _ _ _ _ hpool.1 hpool.2 ?_
      rintro ⟨⟩
      exact absurd rfl (drift_ne_destroy h.drift)
  | destroys _ h => exact .createJob pool _ _ _ rfl rfl fun _ => Or.inl h
  | reads job _ => exact .deleteJob _ job
  | status h => exact .status _ h.destroying
  | holds _ _ => exact .finalizer true
  | releases _ _ _ | destroyed _ => exact .finalizer false

/-! ## Justifications stay valid -/

section Stability

variable {w : World} {pool : DaosPool} {sys : DaosSystem} {res : Dmg.Result}
  {log : List (Entry Call World)} (new : List (Entry Call World))

theorem Queried.append (h : Queried w log pool sys res) : Queried w (log ++ new) pool sys res :=
  { h with read := h.read.append new }

theorem Creates.append (h : Creates w log pool sys res) : Creates w (log ++ new) pool sys res :=
  { h with toQueried := h.toQueried.append new }

theorem Described.append {info : Dmg.PoolInfo} {healthOnly : Bool} {enabled : List Int}
    (h : Described w log pool sys res info healthOnly enabled) :
    Described w (log ++ new) pool sys res info healthOnly enabled :=
  { h with toQueried := h.toQueried.append new }

theorem Drifts.append {info : Dmg.PoolInfo} {enabled : List Int} {op : Operation}
    (h : Drifts w log pool sys res info enabled op) :
    Drifts w (log ++ new) pool sys res info enabled op :=
  { h with toDescribed := h.toDescribed.append new }

theorem Ended.append {op : Operation} (h : Ended w log pool sys op res) :
    Ended w (log ++ new) pool sys op res :=
  { h with read := h.read.append new }

theorem Destroyed.append (h : Destroyed w log pool sys res) :
    Destroyed w (log ++ new) pool sys res :=
  { h with read := h.read.append new }

theorem Move.append {st : DaosPoolStatus} (h : Move w log pool st) :
    Move w (log ++ new) pool st := by
  cases h with
  | noSystem h hst hreason => exact .noSystem h hst hreason
  | notFormatted h hsys hst hreason => exact .notFormatted h hsys hst hreason
  | waits h hidle hst hreason => exact .waits h hidle hst hreason
  | unclear h hanswer hst hreason => exact .unclear (h.append new) hanswer hst hreason
  | missing h hanswer huuid hst hreason => exact .missing (h.append new) hanswer huuid hst hreason
  | keeps h hanswer huuid hfailed hst hreason =>
      exact .keeps (h.append new) hanswer huuid hfailed hst hreason
  | creates h hst hreason => exact .creates (h.append new) hst hreason
  | settles h hdrift hst => exact .settles (h.append new) hdrift hst
  | drifts h hst hreason => exact .drifts (h.append new) hst hreason
  | fails h hres hst hreason => exact .fails (h.append new) hres hst hreason
  | succeeds h hres hst hreason => exact .succeeds (h.append new) hres hst hreason
  | destroys h hst => exact .destroys h hst
  | destroyFails h hst => exact .destroyFails h hst

theorem stable_act : Stable (Act w pool) := by
  intro log new c h
  cases h with
  | quiet h => exact .quiet h
  | setHold key interval => exact .setHold key interval
  | clearHold key => exact .clearHold key
  | query h hidle => exact .query h hidle
  | polls h hop => exact .polls h hop
  | creates h => exact .creates (h.append new)
  | drifts h => exact .drifts (h.append new)
  | destroys hsys h => exact .destroys hsys h
  | reads job hsys => exact .reads job hsys
  | status h => exact .status (h.append new)
  | holds hlive hfinalizer => exact .holds hlive hfinalizer
  | releases hsys hdeleting hgate => exact .releases hsys hdeleting hgate
  | destroyed h => exact .destroyed (h.append new)

end Stability

/-! ## The condition `Ready` and the rest of the status -/

section Status

variable (pool : DaosPool) (sys : DaosSystem) (st : DaosPoolStatus)

@[simp] theorem record_setC (t : ConditionType) (v : ConditionStatus) (reason msg : String) :
    (setC st t v reason msg).record = st.record := rfl

@[simp] theorem readyReason_setC_ready (v : ConditionStatus) (reason msg : String) :
    (setC st .ready v reason msg).readyReason = some reason := by
  simp only [DaosPoolStatus.readyReason, setC]
  rw [findStatusCondition_set_self st.conditions ⟨.ready, v, reason, msg⟩]
  rfl

theorem readyReason_setC_of_ne {t : ConditionType} (ht : t ≠ .ready) (v : ConditionStatus)
    (reason msg : String) : (setC st t v reason msg).readyReason = st.readyReason := by
  simp only [DaosPoolStatus.readyReason, setC]
  rw [findStatusCondition_set_of_ne _ ht]

@[simp] theorem record_setDegraded : (setDegraded pool sys st).record = st.record := by
  unfold setDegraded
  extract_lets down
  split
  · rfl
  · split <;> rfl

@[simp] theorem readyReason_setDegraded :
    (setDegraded pool sys st).readyReason = st.readyReason := by
  unfold setDegraded
  extract_lets down
  split
  · rfl
  · split <;> exact readyReason_setC_of_ne _ (by decide) _ _ _

@[simp] theorem record_setMismatch : (setMismatch pool st).record = st.record := by
  unfold setMismatch
  extract_lets why
  split <;> rfl

theorem record_checkSpace : ∃ percent : Int,
    (checkSpace pool st).1.record = { st with usedPercent := percent }.record := by
  unfold checkSpace
  extract_lets threshold used percent st' was msg
  split
  · exact ⟨0, rfl⟩
  · refine ⟨percent, ?_⟩
    split
    · rfl
    · split <;> rfl

theorem failedForThisSpec_congr {st st' : DaosPoolStatus}
    (hreason : st.readyReason = st'.readyReason)
    (hgeneration : st.observedGeneration = st'.observedGeneration) (reason : String) :
    failedForThisSpec pool st reason = failedForThisSpec pool st' reason := by
  have hany : ∀ st : DaosPoolStatus, (findStatusCondition st.conditions .ready).any
      (fun c => c.reason = reason) = decide (st.readyReason = some reason) := by
    intro st
    unfold DaosPoolStatus.readyReason
    cases findStatusCondition st.conditions .ready with
    | none => rfl
    | some c => simp
  unfold failedForThisSpec
  rw [hany st, hany st', hreason, hgeneration]

variable (info : Dmg.PoolInfo) (healthOnly : Bool) (enabled : List Int) (res : Dmg.Result)
  (now : Time)

theorem record_queriedStatus : ∃ percent : Int,
    (queriedStatus pool sys info healthOnly enabled res now).record =
      { withInfo pool info enabled healthOnly res.output (res.queriedAt now) pool.status with
        usedPercent := percent }.record := by
  have hsame : ∀ st st' : DaosPoolStatus, st.record = st'.record → ∀ percent : Int,
      { withInfo pool info enabled healthOnly res.output (res.queriedAt now) st with
        usedPercent := percent }.record =
      { withInfo pool info enabled healthOnly res.output (res.queriedAt now) st' with
        usedPercent := percent }.record := by
    intro st st' h percent
    have hwith := congrArg (fun st => { withInfo pool info enabled healthOnly res.output
      (res.queriedAt now) st with usedPercent := percent }.record) h
    exact hwith
  obtain ⟨percent, hpercent⟩ := record_checkSpace pool (withInfo pool info enabled healthOnly
    res.output (res.queriedAt now) (setDegraded pool sys pool.status))
  refine ⟨percent, ?_⟩
  unfold queriedStatus
  rw [record_setMismatch, hpercent]
  exact hsame _ _ (record_setDegraded pool sys pool.status) percent

end Status

/-! ## Parts of a reconcile -/

section Parts

variable {w : World} {pool : DaosPool} {sys : DaosSystem} {s t : Point Call World}
  {rely : Entry Call World → Prop}

theorem Acts.next {c : Call} (ht : Acts w pool t) (hc : Act w pool t.log c) (f : Fault) :
    Acts w pool (cluster.next t c f) := by
  refine ⟨?_, ht.2.next stable_act hc f⟩
  rw [Handler.next_world, Handler.respond_world]
  split
  · exact (perform_clock c t.world).trans ht.1
  · exact ht.1

theorem wp_act {c : Call} (hs : Acts w pool s) (hc : Act w pool s.log c) :
    (ask c).wp cluster rely s
      (fun a t => a = (perform c s.world).1 ∧ (∃ new, t.log = s.log ++ new) ∧ Acts w pool t)
      (Acts w pool) :=
  Prog.wp_ask (fun _ => ⟨rfl, ⟨_, rfl⟩, hs.next hc .none⟩) fun f _ _ _ => hs.next hc f

theorem wp_event (hs : Acts w pool s) (warning : Bool) (reason msg : String) :
    (event pool warning reason msg).wp cluster rely s
      (fun _ t => (∃ new, t.log = s.log ++ new) ∧ Acts w pool t) (Acts w pool) :=
  Prog.wp_mono (wp_act hs (.quiet rfl)) (fun _ _ h => h.2) fun _ h => h

theorem wp_updateStatus {st : DaosPoolStatus} (hs : Acts w pool s) (h : Move w s.log pool st)
    (requeue : Duration) :
    (updateStatus pool st requeue).wp cluster rely s (fun _ => Acts w pool) (Acts w pool) :=
  Prog.wp_bind (wp_act hs (.status h)) fun _ _ ht => ht.2.2

theorem wp_setReady {st : DaosPoolStatus} {reason : String} (hs : Acts w pool s)
    (h : ∀ st', st'.record = st.record → st'.readyReason = some reason → Move w s.log pool st')
    (v : ConditionStatus) (msg : String) (requeue : Duration) :
    (updateStatus pool (setC st .ready v reason msg) requeue).wp cluster rely s
      (fun _ => Acts w pool) (Acts w pool) :=
  wp_updateStatus hs (h (setC st .ready v reason msg) rfl (readyReason_setC_ready _ _ _ _)) requeue

theorem wp_setFinalizer {present : Bool} (hs : Acts w pool s)
    (h : Act w pool s.log (.setPoolFinalizer pool.name present)) (requeue : Duration) :
    (setFinalizer pool present requeue).wp cluster rely s (fun _ => Acts w pool) (Acts w pool) := by
  refine Prog.wp_bind (wp_act hs h) ?_
  rintro (e | u) t ⟨-, -, ht⟩
  · exact ht
  · exact ht

theorem wp_run {pool' : DaosPool} {job : PoolJob} (hname : pool'.name = pool.name)
    (hsys : cached w.systems pool.spec.systemRef = some sys) (hs : Acts w pool s)
    (hcreate : Act w pool s.log (.createJob (opSpec pool' sys (namespaceOf sys) job)))
    (g : String → String) :
    ((Dmg.run (opSpec pool' sys (namespaceOf sys) job)).mapError g).wp cluster rely s
      (fun res t => (res.done = false ∨
        Dmg.Read s.world t.log (jobKey pool.name (namespaceOf sys) job) res) ∧
        (∃ new, t.log = s.log ++ new) ∧ Acts w pool t)
      (Acts w pool) := by
  have hkey : (opSpec pool' sys (namespaceOf sys) job).key =
      jobKey pool.name (namespaceOf sys) job := by
    simp only [opSpec, hname]
  refine Prog.wp_mapError.mpr (Prog.wp_mono (Dmg.wp_run_keeps (I := Acts w pool) ?_ hs) ?_
    fun _ h => h)
  · rintro c f t (hc | rfl | rfl) ⟨new, hnew⟩ ht
    · exact ht.next (.quiet hc) f
    · exact ht.next (hnew ▸ stable_act _ new _ hcreate) f
    · exact ht.next (hkey ▸ .reads job hsys) f
  · rintro res t ⟨hres, ⟨new, hnew⟩, ht⟩
    exact ⟨hkey ▸ hres, ⟨new, hnew.symm⟩, ht⟩

theorem wp_startOp {pool' : DaosPool} {st : DaosPoolStatus} {op : Operation}
    (hname : pool'.name = pool.name) (hsys : cached w.systems pool.spec.systemRef = some sys)
    (hs : Acts w pool s)
    (hcreate : Act w pool s.log (.createJob (opSpec pool' sys (namespaceOf sys) (.op op))))
    (hmove : Move w s.log pool (setC { st with operation := some op } .ready .isFalse
      (Text.title op.text ++ "InProgress") ("dmg pool " ++ opCommand op ++ " is running"))) :
    (startOp pool' sys (namespaceOf sys) st op).wp cluster rely s (fun _ => Acts w pool)
      (Acts w pool) := by
  refine Prog.wp_bind (wp_run hname hsys hs hcreate _) ?_
  rintro _ t ⟨-, ⟨new, hnew⟩, ht⟩
  refine Prog.wp_bind (wp_act ht (.quiet rfl)) ?_
  rintro _ u ⟨-, ⟨new', hnew'⟩, hu⟩
  refine Prog.wp_bind (A := fun _ => Acts w pool) ?_ fun _ _ h => h
  rw [hname]
  refine Prog.wp_mono (wp_act hu (.status ?_)) (fun _ _ h => h.2.2) fun _ h => h
  rw [hnew', hnew]
  exact (hmove.append new).append new'

/-! ## The query -/

theorem wp_followSpec {res : Dmg.Result} {info : Dmg.PoolInfo} {enabled : List Int}
    (h : Described w s.log pool sys res info false enabled) (hs : Acts w pool s) :
    (followSpec pool sys (namespaceOf sys) info
      (queriedStatus pool sys info false enabled res w.clock)).wp cluster rely s
      (fun _ => Acts w pool) (Acts w pool) := by
  unfold followSpec
  split
  · next op hdrift =>
      have hop : Drifts w s.log pool sys res info enabled op := { h with drift := hdrift }
      have hquiet : (driftEvent pool (queriedStatus pool sys info false enabled res w.clock) op).wp
          cluster rely s (fun _ t => (∃ new, t.log = s.log ++ new) ∧ Acts w pool t)
          (Acts w pool) := by
        have hnone : (Prog.ret () : Op Unit).wp cluster rely s
            (fun _ t => (∃ new, t.log = s.log ++ new) ∧ Acts w pool t) (Acts w pool) :=
          ⟨⟨[], by simp⟩, hs⟩
        unfold driftEvent
        split
        · exact wp_event hs _ _ _
        · exact Prog.wp_ite (fun _ => hnone) fun _ => wp_event hs _ _ _
        · exact hnone
      refine Prog.wp_bind hquiet ?_
      rintro _ t ⟨⟨new, hnew⟩, ht⟩
      have hranks : (queriedStatus pool sys info false enabled res w.clock).enabledRanks =
          enabled := by
        obtain ⟨percent, hrecord⟩ := record_queriedStatus pool sys info false enabled res w.clock
        have hfield := congrArg DaosPoolStatus.enabledRanks hrecord
        exact hfield
      have hop' : Drifts w t.log pool sys res info enabled op := hnew ▸ hop.append new
      refine wp_startOp ?_ h.system ht ?_ (.drifts hop' rfl (readyReason_setC_ready _ _ _ _))
      · split <;> rfl
      · rw [hranks]
        exact .drifts hop'
  · next hdrift =>
      refine wp_updateStatus hs (.settles h (Or.inr hdrift) ?_) _
      unfold settled
      split <;> rfl

theorem wp_readInfo {res : Dmg.Result} {info : Dmg.PoolInfo} {healthOnly : Bool}
    (h : Queried w s.log pool sys res) (hanswer : queryAnswer res = .found info healthOnly)
    (hs : Acts w pool s) :
    (readInfo pool sys (namespaceOf sys) info healthOnly res
      (setDegraded pool sys pool.status)).wp cluster rely s (fun _ => Acts w pool)
      (Acts w pool) := by
  refine Prog.wp_bind (wp_act hs (.quiet rfl)) ?_
  rintro now t ⟨hnow, ⟨new, hnew⟩, ht⟩
  obtain rfl : now = w.clock := hnow.trans hs.1
  dsimp only
  split
  · next _ _ enabled hranks =>
      have hdescribed : Described w t.log pool sys res info healthOnly enabled :=
        { hnew ▸ h.append new with answer := hanswer, ranks := hranks }
      refine Prog.wp_bind (A := fun _ u => (∃ new, u.log = t.log ++ new) ∧ Acts w pool u) ?_ ?_
      · split
        · exact wp_event ht _ _ _
        · exact ⟨⟨[], by simp⟩, ht⟩
      · rintro _ u ⟨⟨new', hnew'⟩, hu⟩
        have hlater : Described w u.log pool sys res info healthOnly enabled :=
          hnew' ▸ hdescribed.append new'
        refine Prog.wp_ite (fun hhealth => ?_) fun hfull => ?_
        · split
          · refine wp_updateStatus hu (.settles hlater (Or.inl hhealth) ?_) _
            unfold healthOnlyStatus
            dsimp only
            split <;> rfl
          · exact hu
        · obtain rfl : healthOnly = false := by simpa using hfull
          exact wp_followSpec hlater hu
  · exact ht

theorem wp_poolAbsent {res : Dmg.Result} (h : Queried w s.log pool sys res)
    (hanswer : queryAnswer res = .absent) (hs : Acts w pool s) :
    (poolAbsent pool sys (namespaceOf sys) (setDegraded pool sys pool.status)).wp cluster rely s
      (fun _ => Acts w pool) (Acts w pool) := by
  have hrecord := record_setDegraded pool sys pool.status
  have huuid : (setDegraded pool sys pool.status).uuid = pool.status.uuid := by
    have hfield := congrArg DaosPoolStatus.uuid hrecord
    exact hfield
  have hgeneration : (setDegraded pool sys pool.status).observedGeneration =
      pool.status.observedGeneration := by
    have hfield := congrArg DaosPoolStatus.observedGeneration hrecord
    exact hfield
  have hfailed := failedForThisSpec_congr pool (readyReason_setDegraded pool sys pool.status)
    hgeneration "CreateFailed"
  unfold poolAbsent
  rw [hfailed, huuid]
  refine Prog.wp_ite (fun hknown => ?_) fun hnew => ?_
  · exact wp_setReady hs (fun _ hst => .missing h hanswer hknown (hst.trans hrecord)) _ _ _
  have hempty : pool.status.uuid = "" := by simpa using hnew
  refine Prog.wp_ite (fun hagain => ?_) fun huntried => ?_
  · exact wp_updateStatus hs (.keeps h hanswer hempty hagain hrecord
      (readyReason_setDegraded _ _ _)) _
  · have hcreates : Creates w s.log pool sys res :=
      { h with absent := hanswer, uuid := hempty, untried := by simpa using huntried }
    refine wp_startOp rfl h.system hs (.creates hcreates) (.creates hcreates ?_ ?_)
    · have hcreate := congrArg (fun st : DaosPoolStatus => { st with operation := some .create })
        hrecord
      exact hcreate
    · exact readyReason_setC_ready _ _ _ _

theorem wp_readQuery {res : Dmg.Result} (h : Queried w s.log pool sys res) (hs : Acts w pool s) :
    (readQuery pool sys (namespaceOf sys) res (setDegraded pool sys pool.status)).wp cluster rely s
      (fun _ => Acts w pool) (Acts w pool) := by
  rw [readQuery_eq]
  cases hanswer : queryAnswer res with
  | unclear reason msg =>
      exact wp_setReady hs (fun _ hst => .unclear h hanswer (hst.trans (record_setDegraded _ _ _)))
        _ _ _
  | absent => exact wp_poolAbsent h hanswer hs
  | found info healthOnly => exact wp_readInfo h hanswer hs

theorem wp_probe (h : Serves w pool sys) (hidle : pool.status.operation = none)
    (hworld : s.world = w) (hs : Acts w pool s) :
    (probe pool sys (namespaceOf sys) (setDegraded pool sys pool.status)).wp cluster rely s
      (fun _ => Acts w pool) (Acts w pool) := by
  refine Prog.wp_bind (A := fun _ t => t.world = w ∧ Acts w pool t) ?_ ?_
  · exact Prog.wp_ask (fun _ => ⟨hworld, hs.next (.quiet rfl) .none⟩)
      fun f _ _ _ => hs.next (.quiet rfl) f
  rintro wait t ⟨ht', ht⟩
  refine Prog.wp_ite (fun _ => ht) fun _ => ?_
  refine Prog.wp_bind (wp_run rfl h.system ht (.query h hidle) _) ?_
  rintro res u ⟨hres, -, hu⟩
  refine Prog.wp_ite (fun _ => ?_) fun hdone => ?_
  · refine wp_updateStatus hu (.waits h hidle ?_ ?_) _
    · split
      · exact record_setDegraded pool sys pool.status
      · exact record_setDegraded pool sys pool.status
    · split
      · next hnone =>
          left
          rw [← readyReason_setDegraded pool sys pool.status]
          simpa [DaosPoolStatus.readyReason] using hnone
      · right
        exact readyReason_setDegraded pool sys pool.status
  · have hread : Dmg.Read w u.log (jobKey pool.name (namespaceOf sys) .query) res := by
      rcases hres with hres | hres
      · simp [hres] at hdone
      · exact ht' ▸ hres
    refine Prog.wp_bind (wp_act hu (.setHold _ _)) ?_
    rintro _ v ⟨-, ⟨new, hnew⟩, hv⟩
    exact wp_readQuery { h with idle := hidle, read := hnew ▸ hread.append new } hv

/-! ## Operations -/

theorem wp_finishOp {op : Operation} {res : Dmg.Result} (h : Ended w s.log pool sys op res)
    (hs : Acts w pool s) :
    (finishOp pool (setDegraded pool sys pool.status) op res).wp cluster rely s
      (fun _ => Acts w pool) (Acts w pool) := by
  rw [finishOp_eq]
  change (match opResult pool (endedStatus pool sys) op res with
    | .error msg => failOp pool (endedStatus pool sys) op msg
    | .ok (st', ev) => _ : Op Duration).wp cluster rely s _ _
  cases hres : opResult pool (endedStatus pool sys) op res with
  | error msg =>
      refine Prog.wp_bind (wp_event hs _ _ _) ?_
      rintro _ t ⟨⟨new, hnew⟩, ht⟩
      exact wp_setReady ht (fun _ => .fails (hnew ▸ h.append new) hres) _ _ _
  | ok r =>
      obtain ⟨st', ev⟩ := r
      refine Prog.wp_bind (A := fun _ t => (∃ new, t.log = s.log ++ new) ∧ Acts w pool t) ?_ ?_
      · cases ev with
        | none => exact ⟨⟨[], by simp⟩, hs⟩
        | some ev => exact wp_event hs _ _ _
      rintro _ t ⟨⟨new, hnew⟩, ht⟩
      refine Prog.wp_bind (wp_act ht (.clearHold _)) ?_
      rintro _ u ⟨-, ⟨new', hnew'⟩, hu⟩
      have hended : Ended w u.log pool sys op res := by
        rw [hnew', hnew]
        exact (h.append new).append new'
      exact wp_setReady hu (fun _ => .succeeds hended hres) _ _ _

theorem wp_pollOp {op : Operation} (h : Serves w pool sys) (hop : pool.status.operation = some op)
    (hworld : s.world = w) (hs : Acts w pool s) :
    (pollOp pool sys (namespaceOf sys) (setDegraded pool sys pool.status) op).wp cluster rely s
      (fun _ => Acts w pool) (Acts w pool) := by
  refine Prog.wp_bind (wp_run rfl h.system hs (.polls h hop) _) ?_
  rintro res t ⟨hres, -, ht⟩
  refine Prog.wp_ite (fun _ => ht) fun hdone => ?_
  rcases hres with hres | hres
  · simp [hres] at hdone
  · exact wp_finishOp { h with operation := hop, read := hworld ▸ hres } ht

/-! ## Deletion -/

theorem wp_destroyPool (hsys : cached w.systems pool.spec.systemRef = some sys)
    (hgate : DestroyGate pool) (hworld : s.world = w) (hs : Acts w pool s) :
    (destroyPool pool sys (namespaceOf sys) pool.status).wp cluster rely s
      (fun _ => Acts w pool) (Acts w pool) := by
  refine Prog.wp_bind (wp_run rfl hsys hs (.destroys hsys hgate) _) ?_
  rintro res t ⟨hres, -, ht⟩
  refine Prog.wp_ite (fun _ => ?_) fun hdone => ?_
  · refine Prog.wp_ite (fun _ => ht) fun _ => ?_
    refine wp_updateStatus ht (.destroys hgate ?_) _
    split <;> rfl
  split
  · next why _ =>
      have hfailed : ∀ (u : Point Call World) (reason msg : String) (requeue : Duration),
          Acts w pool u → (updateStatus pool (setC { pool.status with
            operation := none
            destroyAttempts := Text.toInt32 (pool.status.destroyAttempts + 1) } .ready .isFalse
            reason msg) requeue).wp cluster rely u (fun _ => Acts w pool) (Acts w pool) :=
        fun u reason msg requeue hu =>
          wp_setReady hu (fun _ hst _ => .destroyFails hgate hst) _ _ _
      unfold destroyFailed
      extract_lets n st'
      refine Prog.wp_ite (fun _ => ?_) fun _ => ?_
      · refine Prog.wp_bind (A := fun _ => Acts w pool) ?_ fun _ u hu => hfailed u _ _ _ hu
        refine Prog.wp_ite (fun _ => ?_) fun _ => ht
        exact Prog.wp_mono (wp_event ht _ _ _) (fun _ _ h => h.2) fun _ h => h
      · exact Prog.wp_bind (wp_event ht _ _ _) fun _ u hu => hfailed u _ _ _ hu.2
  · next hsucceeded =>
      refine Prog.wp_bind (wp_event ht _ _ _) ?_
      rintro _ u ⟨⟨new, hnew⟩, hu⟩
      rcases hres with hres | hres
      · simp [hres] at hdone
      · have hread : Dmg.Read w u.log (jobKey pool.name (namespaceOf sys) (.op .destroy)) res :=
          hnew ▸ (hworld ▸ hres).append new
        exact wp_setFinalizer hu (.destroyed ⟨hsys, hgate, hread, hsucceeded⟩) _

theorem wp_finalize (hsys : cached w.systems pool.spec.systemRef = some sys)
    (hdeleting : pool.deleting = true) (hworld : s.world = w) (hs : Acts w pool s) :
    (finalize pool sys (namespaceOf sys) pool.status).wp cluster rely s
      (fun _ => Acts w pool) (Acts w pool) := by
  refine Prog.wp_ite (fun _ => hs) fun _ => ?_
  refine Prog.wp_ite (fun hkept => ?_) fun hgate => ?_
  · have hgate : destroyApproved pool = false ∨ pool.status.uuid = "" := by simpa using hkept
    refine Prog.wp_bind (A := fun _ => Acts w pool) ?_ fun _ u hu =>
      wp_setFinalizer hu (.releases hsys hdeleting hgate) _
    refine Prog.wp_ite (fun _ => hs) fun _ => ?_
    exact Prog.wp_mono (wp_event hs _ _ _) (fun _ _ h => h.2) fun _ h => h
  · have hopen : DestroyGate pool := by
      simp only [destroyApproved, Bool.or_eq_true, Bool.not_eq_true', decide_eq_false_iff_not,
        decide_eq_true_eq, not_or, not_not] at hgate
      exact ⟨hdeleting, hgate.1, hgate.2⟩
    exact wp_destroyPool hsys hopen hworld hs

/-! ## The reconcile -/

theorem wp_reconcileIn (hsys : cached w.systems pool.spec.systemRef = some sys)
    (hworld : s.world = w) (hs : Acts w pool s) :
    (reconcileIn pool sys).wp cluster rely s (fun _ => Acts w pool) (Acts w pool) := by
  unfold reconcileIn
  dsimp only
  refine Prog.wp_ite (fun hnew => ?_) fun hkept => ?_
  · have hfree : pool.deleting = false ∧ pool.finalizer = false := by simpa using hnew
    exact wp_setFinalizer hs (.holds hfree.1 hfree.2) _
  refine Prog.wp_ite (fun hdeleting => wp_finalize hsys hdeleting hworld hs) fun hlive => ?_
  refine Prog.wp_ite (fun hunformatted => ?_) fun hformatted => ?_
  · exact wp_setReady hs (fun _ => .notFormatted hsys (by simpa using hunformatted)) _ _ _
  have hserves : Serves w pool sys := by
    refine ⟨hsys, ?_, by simpa using hlive, by simpa using hformatted⟩
    simp only [Bool.and_eq_true, Bool.not_eq_true', not_and] at hkept
    simpa using hkept (by simpa using hlive)
  have hoperation : (setDegraded pool sys pool.status).operation = pool.status.operation :=
    operation_setDegraded
  split
  · next op hop => exact wp_pollOp hserves (hoperation.symm.trans hop) hworld hs
  · next hop => exact wp_probe hserves (hoperation.symm.trans hop) hworld hs

end Parts

/-- Every call of a reconcile is accounted for. -/
theorem wp_reconcile_acts {w : World} {rely : Entry Call World → Prop} {name : String} :
    (reconcile name).wp cluster rely ⟨w, []⟩
      (fun _ t => ∀ x ∈ t.log, x.call.quiet = true ∨
        ∃ pool, cached w.pools name = some pool ∧ Act w pool t.log x.call)
      fun t => ∀ x ∈ t.log, x.call.quiet = true ∨
        ∃ pool, cached w.pools name = some pool ∧ Act w pool t.log x.call := by
  have hone : ∀ f, ∀ x ∈ (cluster.next ⟨w, []⟩ (.getPool name) f).log, x.call.quiet = true ∨
      ∃ pool, cached w.pools name = some pool ∧
        Act w pool (cluster.next ⟨w, []⟩ (.getPool name) f).log x.call := by
    intro f x hx
    simp only [Handler.next_log, List.nil_append, List.mem_singleton] at hx
    subst hx
    exact Or.inl rfl
  refine Prog.wp_bind (A := fun r t => r = cached w.pools name ∧ t.world = w ∧
    t.log = [⟨.getPool name, .none, w⟩]) ?_ ?_
  · exact Prog.wp_ask (fun _ => ⟨rfl, rfl, rfl⟩) fun f _ _ _ => hone f
  rintro (_ | pool) t ⟨hpool, hworld, hlog⟩
  · intro x hx
    rw [hlog, List.mem_singleton] at hx
    subst hx
    exact Or.inl rfl
  have hstart : Acts w pool t := by
    refine ⟨by rw [hworld], ?_⟩
    intro x hx
    rw [hlog, List.mem_singleton] at hx
    subst hx
    exact .quiet rfl
  refine Prog.wp_mono (A := fun _ => Acts w pool) (W := Acts w pool) ?_ ?_ ?_
  · refine Prog.wp_bind (A := fun r u => r = cached w.systems pool.spec.systemRef ∧
      u.world = w ∧ Acts w pool u) ?_ ?_
    · refine Prog.wp_ask (fun _ => ⟨?_, hworld, hstart.next (.quiet rfl) .none⟩)
        fun f _ _ _ => hstart.next (.quiet rfl) f
      exact congrArg (fun w => cached w.systems pool.spec.systemRef) hworld
    · rintro (_ | sys) u ⟨hsys, hu', hu⟩
      · exact wp_setReady hu (fun _ => .noSystem hsys.symm) _ _ _
      · exact wp_reconcileIn hsys.symm hu' hu
  · exact fun _ u hu x hx => Or.inr ⟨pool, hpool.symm, hu.2 x hx⟩
  · exact fun u hu x hx => Or.inr ⟨pool, hpool.symm, hu.2 x hx⟩

end Pool
end DaosOperator
