import DaosOperator.Container.Footprint
import DaosOperator.Pool.Acts

/-!
# What a `DaosContainer` reconcile does, and why

As for a pool, every Job, every status and every change of the finalizer is traced
back to the objects that were read and to the Jobs that were found.  A decision about a
container that DAOS refuses to open is traced back to the query it decides, which is the
one just read or the one the process remembers.
-/

namespace DaosOperator

open Effect

variable {w : World} {log : List (Entry Call World)} {c : DaosContainer}
  {st : DaosContainerStatus}

/-- The reason of the condition `Ready`. -/
def DaosContainerStatus.readyReason (st : DaosContainerStatus) : Option String :=
  (findStatusCondition st.conditions .ready).map (·.reason)

/-- A status without its conditions and the flag that repeats one of them. -/
def DaosContainerStatus.record (st : DaosContainerStatus) : DaosContainerStatus :=
  { st with conditions := [], ready := false }

namespace Container

open DaosOperator.System (namespaceOf)
open Pool (requeueIdle requeueOp requeueWait requeueFailed aclHash poolLabel)

/-! ## What a query says -/

/-- What the query of a container says. -/
inductive QueryAnswer where
  /-- DAOS refuses to open the container: failures exceed its redundancy factor. -/
  | refused
  /-- Nothing to go by; the reason and the message it is reported with. -/
  | unclear (reason msg : String)
  | absent
  | found (info : Dmg.ContainerInfo)

/-- What an envelope says about the container. -/
def envelopeAnswer (env : Dmg.Envelope) : QueryAnswer :=
  match env.error with
  | some e =>
      match Dmg.classify e with
      | .notFound => .absent
      | .unreachable => .unclear "ManagementUnreachable" e
      | _ => .unclear "QueryError" e
  | none =>
      match Dmg.containerQuery env with
      | .error e => .unclear "ProbeFailed" e
      | .ok info => .found info

def queryAnswer (res : Dmg.Result) : QueryAnswer :=
  if Dmg.rfExceeded res.output then .refused
  else
    match System.parseResult res with
    | .error e => .unclear "ProbeFailed" e
    | .ok env => envelopeAnswer env

/-- What a reconcile makes of the container that a query did not find. -/
def contAbsent (c : DaosContainer) (pool : DaosPool) (sys : DaosSystem) (ns : String)
    (st : DaosContainerStatus) : Op Duration :=
  if st.uuid ≠ "" then
    updateStatus c (setC st .isFalse "ContainerMissing" ("container " ++ contLabel c ++
      " (uuid " ++ st.uuid ++ ") no longer exists in pool " ++ poolLabel pool ++
      "; delete and re-create the DaosContainer to make a new, empty one")) requeueIdle
  else if failedForThisSpec c st "CreateFailed" then updateStatus c st requeueFailed
  else startOp c pool sys ns st .create

/-- Act on what a query says. -/
def onAnswer (c : DaosContainer) (pool : DaosPool) (sys : DaosSystem) (ns : String)
    (res : Dmg.Result) (st : DaosContainerStatus) : QueryAnswer → Op Duration
  | .refused => (ask .now).bind fun now => rfExceeded c pool sys ns st (res.queriedAt now)
  | .unclear reason e => updateStatus c (setC st .unknown reason e) requeueWait
  | .absent => contAbsent c pool sys ns st
  | .found info => readInfo c pool sys ns info res st

theorem readQuery_eq (c : DaosContainer) (pool : DaosPool) (sys : DaosSystem) (ns : String)
    (res : Dmg.Result) (st : DaosContainerStatus) :
    readQuery c pool sys ns res st = onAnswer c pool sys ns res st (queryAnswer res) := by
  unfold readQuery queryAnswer
  by_cases hrf : Dmg.rfExceeded res.output = true
  · rw [if_pos hrf, if_pos hrf]
    rfl
  rw [if_neg hrf, if_neg hrf]
  cases System.parseResult res with
  | error e => rfl
  | ok env =>
      unfold envelopeAnswer
      dsimp only
      cases env.error with
      | some e =>
          unfold queryError
          dsimp only
          cases Dmg.classify e <;> rfl
      | none =>
          dsimp only
          cases Dmg.containerQuery env <;> rfl

/-- The status right after a query answered. -/
def queriedStatus (c : DaosContainer) (info : Dmg.ContainerInfo) (res : Dmg.Result) (now : Time) :
    DaosContainerStatus :=
  { c.status with
    uuid := info.uuid, poolUUID := info.poolUUID, health := info.health, type := info.type
    lastQueryTime := some (res.queriedAt now) }

/-- `spec.acl` is not the one recorded, and setting it did not fail for this spec. -/
def aclDrift (c : DaosContainer) (st : DaosContainerStatus) : Bool :=
  aclHash c.spec.acl ≠ "" ∧ aclHash c.spec.acl ≠ st.appliedACLHash ∧
    !failedForThisSpec c st "AclFailed"

/-! ## What an operation left -/

/-- The status a finished operation starts from. -/
def endedStatus (c : DaosContainer) : DaosContainerStatus :=
  { c.status with operation := none, observedGeneration := c.generation }

/-- The answer of an operation, or why it failed. -/
def opResult (op : Operation) (res : Dmg.Result) : Except String Dmg.Envelope :=
  let what := "daos cont " ++ op.text
  match System.parseResult res with
  | .error e => .error (what ++ ": " ++ e)
  | .ok env =>
      match env.error with
      | some e => .error (what ++ ": " ++ e)
      | none => .ok env

/-- Record a finished operation. -/
def onResult (c : DaosContainer) (pool : DaosPool) (op : Operation) :
    Except String Dmg.Envelope → Op Duration
  | .error msg => failOp c (endedStatus c) op msg
  | .ok env =>
      (match (applyOp c pool (endedStatus c) env op).2 with
        | some (reason, msg) => event c false reason msg
        | none => .ret ()).bind fun _ =>
        (ask (.clearHold (contKey c.key))).bind fun _ =>
          updateStatus c (setCond (applyOp c pool (endedStatus c) env op).1 .unknown "Querying"
            ("daos cont " ++ op.text ++ " succeeded; refreshing")) 1

theorem finishOp_eq (c : DaosContainer) (pool : DaosPool) (op : Operation) (res : Dmg.Result) :
    finishOp c pool c.status op res = onResult c pool op (opResult op res) := by
  unfold finishOp opResult
  dsimp only
  cases System.parseResult res with
  | error e => rfl
  | ok env =>
      dsimp only
      cases env.error <;> rfl

/-! ## Moves of the status -/

structure Reaches (w : World) (c : DaosContainer) (pool : DaosPool) (sys : DaosSystem) : Prop where
  inPool : cached w.pools c.spec.poolRef = some pool
  inSystem : cached w.systems pool.spec.systemRef = some sys

/-- The pool or the system of the container is not there. -/
def Unreached (w : World) (c : DaosContainer) : Prop :=
  cached w.pools c.spec.poolRef = none ∨
    ∃ pool, cached w.pools c.spec.poolRef = some pool ∧
      cached w.systems pool.spec.systemRef = none

/-- The container is worked on: its pool is created, and nobody deletes it. -/
structure Serves (w : World) (c : DaosContainer) (pool : DaosPool) (sys : DaosSystem) : Prop
    extends Reaches w c pool sys where
  finalizer : c.finalizer = true
  live : c.deleting = false
  created : pool.status.uuid ≠ ""

/-- The container is idle, and no query waits for the pool's. -/
structure Idle (w : World) (c : DaosContainer) (pool : DaosPool) (sys : DaosSystem) : Prop
    extends Serves w c pool sys where
  idle : c.status.operation = none
  unmarked : w.memory.rfPending.get (contKey c.key) = none

/-- The query of the container was read. -/
structure Queried (w : World) (log : List (Entry Call World)) (c : DaosContainer)
    (pool : DaosPool) (sys : DaosSystem) (res : Dmg.Result) : Prop extends Idle w c pool sys where
  read : Dmg.Read w log (jobKey c.key (namespaceOf sys) .query) res

/-- The time `q` belongs to a query that DAOS refused: it is remembered, or was just read. -/
inductive Marked (w : World) (log : List (Entry Call World)) (c : DaosContainer)
    (pool : DaosPool) (sys : DaosSystem) (q : Time) : Prop where
  | remembered (h : Serves w c pool sys) (hidle : c.status.operation = none)
      (hmark : w.memory.rfPending.get (contKey c.key) = some q)
  | read {res : Dmg.Result} (h : Queried w log c pool sys res)
      (hanswer : queryAnswer res = .refused) (hq : q = res.queriedAt w.clock)

theorem Marked.serves
    {pool : DaosPool} {sys : DaosSystem} {q : Time} (h : Marked w log c pool sys q) :
    Serves w c pool sys := by
  cases h with
  | remembered h _ _ => exact h
  | read h _ _ => exact h.toServes

theorem Marked.reaches
    {pool : DaosPool} {sys : DaosSystem} {q : Time} (h : Marked w log c pool sys q) :
    Reaches w c pool sys := h.serves.toReaches

/-- The container is to be created: it does not exist, and never did. -/
structure Creates (w : World) (log : List (Entry Call World)) (c : DaosContainer)
    (pool : DaosPool) (sys : DaosSystem) (res : Dmg.Result) : Prop
    extends Queried w log c pool sys res where
  absent : queryAnswer res = .absent
  uuid : c.status.uuid = ""
  untried : failedForThisSpec c c.status "CreateFailed" = false

structure Described (w : World) (log : List (Entry Call World)) (c : DaosContainer)
    (pool : DaosPool) (sys : DaosSystem) (res : Dmg.Result) (info : Dmg.ContainerInfo) : Prop
    extends Queried w log c pool sys res where
  answer : queryAnswer res = .found info

/-- The operation in progress finished, and its result was read. -/
structure Ended (w : World) (log : List (Entry Call World)) (c : DaosContainer) (pool : DaosPool)
    (sys : DaosSystem) (op : Operation) (res : Dmg.Result) : Prop extends Serves w c pool sys where
  operation : c.status.operation = some op
  read : Dmg.Read w log (jobKey c.key (namespaceOf sys) (.op op)) res

/-- The container may be destroyed, and its pool is there. -/
structure Destroys (w : World) (c : DaosContainer) (pool : DaosPool) (sys : DaosSystem) : Prop
    extends Reaches w c pool sys where
  gate : DestroyGate c
  created : pool.status.uuid ≠ ""

/-- The statuses a reconcile writes, and when. -/
inductive Move (w : World) (log : List (Entry Call World)) (c : DaosContainer) :
    DaosContainerStatus → Prop where
  | unreached {st : DaosContainerStatus} {reason : String} (h : Unreached w c)
      (hlive : c.deleting = false) (hst : st.record = c.status.record)
      (hreason : st.readyReason = some reason)
      (hwhich : reason = "PoolNotFound" ∨ reason = "SystemNotFound") : Move w log c st
  | poolNotReady {st : DaosContainerStatus} {pool : DaosPool} {sys : DaosSystem}
      (h : Reaches w c pool sys) (hlive : c.deleting = false) (huuid : pool.status.uuid = "")
      (hst : st.record = c.status.record) (hreason : st.readyReason = some "PoolNotReady") :
      Move w log c st
  /-- The query is running. -/
  | waits {st : DaosContainerStatus} {pool : DaosPool} {sys : DaosSystem} (h : Idle w c pool sys)
      (hst : st.record = c.status.record)
      (hreason : c.status.readyReason = none ∧ st.readyReason = some "Probing" ∨
        st.readyReason = c.status.readyReason) : Move w log c st
  | unclear {st : DaosContainerStatus} {pool : DaosPool} {sys : DaosSystem} {res : Dmg.Result}
      {reason msg : String} (h : Queried w log c pool sys res)
      (hanswer : queryAnswer res = .unclear reason msg) (hst : st.record = c.status.record)
      (hreason : st.readyReason = some reason) : Move w log c st
  | missing {st : DaosContainerStatus} {pool : DaosPool} {sys : DaosSystem} {res : Dmg.Result}
      (h : Queried w log c pool sys res) (hanswer : queryAnswer res = .absent)
      (huuid : c.status.uuid ≠ "") (hst : st.record = c.status.record)
      (hreason : st.readyReason = some "ContainerMissing") : Move w log c st
  /-- The create failed before and is not repeated. -/
  | keeps {st : DaosContainerStatus} {pool : DaosPool} {sys : DaosSystem} {res : Dmg.Result}
      (h : Queried w log c pool sys res) (hanswer : queryAnswer res = .absent)
      (huuid : c.status.uuid = "") (hfailed : failedForThisSpec c c.status "CreateFailed" = true)
      (hst : st.record = c.status.record) (hreason : st.readyReason = c.status.readyReason) :
      Move w log c st
  | creates {st : DaosContainerStatus} {pool : DaosPool} {sys : DaosSystem} {res : Dmg.Result}
      (h : Creates w log c pool sys res)
      (hst : st.record = { c.status with operation := some .create }.record)
      (hreason : st.readyReason = some "CreateInProgress") : Move w log c st
  | settles {st : DaosContainerStatus} {pool : DaosPool} {sys : DaosSystem} {res : Dmg.Result}
      {info : Dmg.ContainerInfo} {reason : String} (h : Described w log c pool sys res info)
      (hdrift : aclDrift c (queriedStatus c info res w.clock) = false)
      (hst : st.record = (queriedStatus c info res w.clock).record)
      (hreason : st.readyReason = some reason)
      (hwhich : reason = "Ready" ∨ reason = "Health" ++ info.health) : Move w log c st
  | drifts {st : DaosContainerStatus} {pool : DaosPool} {sys : DaosSystem} {res : Dmg.Result}
      {info : Dmg.ContainerInfo} (h : Described w log c pool sys res info)
      (hdrift : aclDrift c (queriedStatus c info res w.clock) = true)
      (hst : st.record = { queriedStatus c info res w.clock with operation := some .acl }.record)
      (hreason : st.readyReason = some "AclInProgress") : Move w log c st
  /-- DAOS refused to open the container, and it stays as it is. -/
  | reports {st : DaosContainerStatus} {pool : DaosPool} {sys : DaosSystem} {q : Time}
      {why : Unclear} (h : Marked w log c pool sys q) (hwhy : unclear pool q = some why)
      (hst : st.record = c.status.record) (hreason : st.readyReason = some "FailuresExceedRF") :
      Move w log c st
  | heals {st : DaosContainerStatus} {pool : DaosPool} {sys : DaosSystem} {q : Time}
      (h : Marked w log c pool sys q) (hwhole : unclear pool q = none)
      (hst : st.record = { c.status with operation := some .heal }.record)
      (hreason : st.readyReason = some "HealInProgress") : Move w log c st
  | fails {st : DaosContainerStatus} {pool : DaosPool} {sys : DaosSystem} {op : Operation}
      {res : Dmg.Result} {msg : String} (h : Ended w log c pool sys op res)
      (hres : opResult op res = .error msg) (hst : st.record = (endedStatus c).record)
      (hreason : st.readyReason = some (Text.title op.text ++ "Failed")) : Move w log c st
  | succeeds {st : DaosContainerStatus} {pool : DaosPool} {sys : DaosSystem} {op : Operation}
      {res : Dmg.Result} {env : Dmg.Envelope} (h : Ended w log c pool sys op res)
      (hres : opResult op res = .ok env)
      (hst : st.record = (applyOp c pool (endedStatus c) env op).1.record)
      (hreason : st.readyReason = some "Querying") : Move w log c st
  /-- A destroy runs, or it failed. -/
  | destroys {st : DaosContainerStatus} {pool : DaosPool} {sys : DaosSystem}
      (h : Destroys w c pool sys) (o : Option Operation) {reason : String}
      (ho : o = none ∨ o = some .destroy)
      (hst : st.record = { c.status with operation := o }.record)
      (hreason : st.readyReason = some reason)
      (hwhich : reason = "Destroying" ∨ reason = "DestroyFailed") : Move w log c st

/-- Nothing but a destroy is recorded for a container that is being deleted. -/
theorem Move.uuid_of_deleting (h : Move w log c st) (hdeleting : c.deleting = true) :
    st.uuid = c.status.uuid := by
  have hlive : ∀ {pool : DaosPool} {sys : DaosSystem}, Serves w c pool sys →
      st.uuid = c.status.uuid := by
    intro pool sys h
    simp [h.live] at hdeleting
  cases h with
  | unreached _ _ hst _ _ | poolNotReady _ _ _ hst _ | destroys _ _ _ hst _ _ =>
      have huuid := congrArg DaosContainerStatus.uuid hst
      exact huuid
  | waits h _ _ => exact hlive h.toServes
  | unclear h _ _ _ | missing h _ _ _ _ | keeps h _ _ _ _ _ => exact hlive h.toServes
  | creates h _ _ => exact hlive h.toServes
  | settles h _ _ _ _ | drifts h _ _ _ => exact hlive h.toServes
  | reports h _ _ _ | heals h _ _ _ => exact hlive h.serves
  | fails h _ _ _ | succeeds h _ _ _ => exact hlive h.toServes

/-! ## Calls -/

/-- An approved destroy succeeded, and its result was read. -/
structure Destroyed (w : World) (log : List (Entry Call World)) (c : DaosContainer)
    (pool : DaosPool) (sys : DaosSystem) (res : Dmg.Result) : Prop
    extends Destroys w c pool sys where
  read : Dmg.Read w log (jobKey c.key (namespaceOf sys) (.op .destroy)) res
  succeeded : Pool.destroyFailure res = none

/-- The calls of a reconcile of a container, and when it makes them. -/
inductive Act (w : World) (c : DaosContainer) (log : List (Entry Call World)) : Call → Prop where
  | quiet {call : Call} (h : call.quiet = true) : Act w c log call
  | setHold (key : String) (interval : Duration) : Act w c log (.setHold key interval)
  | clearHold (key : String) : Act w c log (.clearHold key)
  | marks {pool : DaosPool} {sys : DaosSystem} {q : Time} {last : String}
      (h : Marked w log c pool sys q) (hstale : unclear pool q = some (.stale last))
      (hage : w.clock < q + rfPendingMax) : Act w c log (.rfPendingSet (contKey c.key) q)
  | unmarks {pool : DaosPool} {sys : DaosSystem} {q : Time} (h : Marked w log c pool sys q) :
      Act w c log (.rfPendingClear (contKey c.key))
  | forgets {pool : DaosPool} {sys : DaosSystem} (h : Reaches w c pool sys)
      (hdeleting : c.deleting = true) : Act w c log (.rfPendingClear (contKey c.key))
  | query {pool : DaosPool} {sys : DaosSystem} (h : Idle w c pool sys) :
      Act w c log (.createJob (opSpec c pool sys (namespaceOf sys) .query))
  | polls {pool : DaosPool} {sys : DaosSystem} {op : Operation} (h : Serves w c pool sys)
      (hop : c.status.operation = some op) :
      Act w c log (.createJob (opSpec c pool sys (namespaceOf sys) (.op op)))
  | creates {pool : DaosPool} {sys : DaosSystem} {res : Dmg.Result}
      (h : Creates w log c pool sys res) :
      Act w c log (.createJob (opSpec c pool sys (namespaceOf sys) (.op .create)))
  | drifts {pool : DaosPool} {sys : DaosSystem} {res : Dmg.Result} {info : Dmg.ContainerInfo}
      (h : Described w log c pool sys res info)
      (hdrift : aclDrift c (queriedStatus c info res w.clock) = true) :
      Act w c log (.createJob (opSpec c pool sys (namespaceOf sys) (.op .acl)))
  | heals {pool : DaosPool} {sys : DaosSystem} {q : Time} (h : Marked w log c pool sys q)
      (hwhole : unclear pool q = none) :
      Act w c log (.createJob (opSpec c pool sys (namespaceOf sys) (.op .heal)))
  | destroys {pool : DaosPool} {sys : DaosSystem} (h : Destroys w c pool sys) :
      Act w c log (.createJob (opSpec c pool sys (namespaceOf sys) (.op .destroy)))
  | reads {pool : DaosPool} {sys : DaosSystem} (job : ContJob) (h : Reaches w c pool sys) :
      Act w c log (.deleteJob (jobKey c.key (namespaceOf sys) job))
  | status {st : DaosContainerStatus} (h : Move w log c st) :
      Act w c log (.updateContainerStatus c.key st)
  | holds (hlive : c.deleting = false) (hfinalizer : c.finalizer = false) :
      Act w c log (.setContainerFinalizer c.key true)
  | releases {pool : DaosPool} {sys : DaosSystem} (h : Reaches w c pool sys)
      (hdeleting : c.deleting = true)
      (hgate : approvedToDestroy c = false ∨ c.status.uuid = "" ∨ pool.status.uuid = "") :
      Act w c log (.setContainerFinalizer c.key false)
  | orphans (h : Unreached w c) (hdeleting : c.deleting = true) :
      Act w c log (.setContainerFinalizer c.key false)
  | destroyed {pool : DaosPool} {sys : DaosSystem} {res : Dmg.Result}
      (h : Destroyed w log c pool sys res) : Act w c log (.setContainerFinalizer c.key false)

/-- Every call so far is one of those, and the clock stands still. -/
def Acts (w : World) (c : DaosContainer) (t : Point Call World) : Prop :=
  t.world.clock = w.clock ∧ Accounted (Act w c) t

/-- A Job is created for a container that is worked on, or to destroy it. -/
theorem Act.served_of_createJob
    {spec : Dmg.RunSpec} (h : Act w c log (.createJob spec)) :
    ∃ pool sys job, spec = opSpec c pool sys (namespaceOf sys) job ∧
      (Serves w c pool sys ∨ job = .op .destroy ∧ Destroys w c pool sys) := by
  generalize hcall : Call.createJob spec = call at h
  cases h with
  | quiet h =>
      subst hcall
      cases h
  | query h =>
      cases hcall
      exact ⟨_, _, _, rfl, Or.inl h.toServes⟩
  | polls h _ =>
      cases hcall
      exact ⟨_, _, _, rfl, Or.inl h⟩
  | creates h =>
      cases hcall
      exact ⟨_, _, _, rfl, Or.inl h.toServes⟩
  | drifts h _ =>
      cases hcall
      exact ⟨_, _, _, rfl, Or.inl h.toServes⟩
  | heals h _ =>
      cases hcall
      exact ⟨_, _, _, rfl, Or.inl h.serves⟩
  | destroys h =>
      cases hcall
      exact ⟨_, _, _, rfl, Or.inr ⟨rfl, h⟩⟩
  | _ => cases hcall

/-- Every Job of a container is built from the container and the pool it names. -/
theorem Act.of_createJob
    {spec : Dmg.RunSpec} (h : Act w c log (.createJob spec)) :
    ∃ pool sys job, Reaches w c pool sys ∧ spec = opSpec c pool sys (namespaceOf sys) job := by
  obtain ⟨pool, sys, job, hspec, h | ⟨-, h⟩⟩ := h.served_of_createJob
  · exact ⟨pool, sys, job, h.toReaches, hspec⟩
  · exact ⟨pool, sys, job, h.toReaches, hspec⟩

/-! ## Within the footprint -/

/-- A destroy is recorded only where the container is being deleted or had one recorded. -/
theorem Move.destroying (h : Move w log c st) (hop : st.operation = some .destroy) :
    c.deleting = true ∨ c.status.operation = some .destroy := by
  have hrecord : ∀ {st' : DaosContainerStatus}, st.record = st'.record →
      st'.operation = some .destroy := by
    intro st' hst
    have hsame := congrArg DaosContainerStatus.operation hst
    exact hsame.symm.trans hop
  cases h with
  | unreached _ _ hst _ _ | poolNotReady _ _ _ hst _ | waits _ hst _ | unclear _ _ hst _
  | missing _ _ _ hst _ | keeps _ _ _ _ hst _ | reports _ _ hst _ => exact Or.inr (hrecord hst)
  | settles _ _ hst _ _ =>
      have hqueried := hrecord hst
      exact Or.inr hqueried
  | creates _ hst _ | drifts _ _ hst _ | heals _ _ hst _ | fails _ _ hst _ => cases hrecord hst
  | succeeds _ _ hst _ =>
      have hended := hrecord hst
      rw [operation_applyOp] at hended
      cases hended
  | destroys h _ _ _ _ _ => exact Or.inl h.gate.1

theorem Act.containerCall {call : Call} (h : Act w c log call) : ContainerCall c call := by
  cases h with
  | quiet h => exact .quiet h
  | setHold key interval => exact .setHold key interval
  | clearHold key => exact .clearHold key
  | marks _ _ _ => exact .rfPendingSet _ _
  | unmarks _ | forgets _ _ => exact .rfPendingClear _
  | query _ | creates _ | drifts _ _ | heals _ _ => exact .createJob _ _ _ _ (by simp)
  | polls h hop =>
      refine .createJob _ _ _ _ ?_
      rintro ⟨⟩
      exact Or.inr ⟨h.live, hop⟩
  | destroys h => exact .createJob _ _ _ _ fun _ => Or.inl h.gate
  | reads job _ => exact .deleteJob _ job
  | status h => exact .status _ h.destroying
  | holds _ _ => exact .finalizer true
  | releases _ _ _ | orphans _ _ | destroyed _ => exact .finalizer false

/-! ## Justifications stay valid -/

section Stability

variable {w : World} {c : DaosContainer} {pool : DaosPool} {sys : DaosSystem} {res : Dmg.Result}
  {log : List (Entry Call World)} (new : List (Entry Call World))

theorem Queried.append (h : Queried w log c pool sys res) :
    Queried w (log ++ new) c pool sys res :=
  { h with read := h.read.append new }

theorem Marked.append {q : Time} (h : Marked w log c pool sys q) :
    Marked w (log ++ new) c pool sys q := by
  cases h with
  | remembered h hidle hmark => exact .remembered h hidle hmark
  | read h hanswer hq => exact .read (h.append new) hanswer hq

theorem Creates.append (h : Creates w log c pool sys res) :
    Creates w (log ++ new) c pool sys res :=
  { h with toQueried := h.toQueried.append new }

theorem Described.append {info : Dmg.ContainerInfo} (h : Described w log c pool sys res info) :
    Described w (log ++ new) c pool sys res info :=
  { h with toQueried := h.toQueried.append new }

theorem Ended.append {op : Operation} (h : Ended w log c pool sys op res) :
    Ended w (log ++ new) c pool sys op res :=
  { h with read := h.read.append new }

theorem Destroyed.append (h : Destroyed w log c pool sys res) :
    Destroyed w (log ++ new) c pool sys res :=
  { h with read := h.read.append new }

theorem Move.append (h : Move w log c st) : Move w (log ++ new) c st := by
  cases h with
  | unreached h hlive hst hreason hwhich => exact .unreached h hlive hst hreason hwhich
  | poolNotReady h hlive huuid hst hreason => exact .poolNotReady h hlive huuid hst hreason
  | waits h hst hreason => exact .waits h hst hreason
  | unclear h hanswer hst hreason => exact .unclear (h.append new) hanswer hst hreason
  | missing h hanswer huuid hst hreason => exact .missing (h.append new) hanswer huuid hst hreason
  | keeps h hanswer huuid hfailed hst hreason =>
      exact .keeps (h.append new) hanswer huuid hfailed hst hreason
  | creates h hst hreason => exact .creates (h.append new) hst hreason
  | settles h hdrift hst hreason hwhich => exact .settles (h.append new) hdrift hst hreason hwhich
  | drifts h hdrift hst hreason => exact .drifts (h.append new) hdrift hst hreason
  | reports h hwhy hst hreason => exact .reports (h.append new) hwhy hst hreason
  | heals h hwhole hst hreason => exact .heals (h.append new) hwhole hst hreason
  | fails h hres hst hreason => exact .fails (h.append new) hres hst hreason
  | succeeds h hres hst hreason => exact .succeeds (h.append new) hres hst hreason
  | destroys h o ho hst hreason hwhich => exact .destroys h o ho hst hreason hwhich

theorem stable_act : Stable (Act w c) := by
  intro log new call h
  cases h with
  | quiet h => exact .quiet h
  | setHold key interval => exact .setHold key interval
  | clearHold key => exact .clearHold key
  | marks h hstale hage => exact .marks (h.append new) hstale hage
  | unmarks h => exact .unmarks (h.append new)
  | forgets h hdeleting => exact .forgets h hdeleting
  | query h => exact .query h
  | polls h hop => exact .polls h hop
  | creates h => exact .creates (h.append new)
  | drifts h hdrift => exact .drifts (h.append new) hdrift
  | heals h hwhole => exact .heals (h.append new) hwhole
  | destroys h => exact .destroys h
  | reads job h => exact .reads job h
  | status h => exact .status (h.append new)
  | holds hlive hfinalizer => exact .holds hlive hfinalizer
  | releases h hdeleting hgate => exact .releases h hdeleting hgate
  | orphans h hdeleting => exact .orphans h hdeleting
  | destroyed h => exact .destroyed (h.append new)

end Stability

/-! ## The condition `Ready` and the rest of the status -/

section Status

variable (st : DaosContainerStatus)

@[simp] theorem readyReason_setCond (v : ConditionStatus) (reason msg : String) :
    (setCond st v reason msg).readyReason = some reason := by
  simp only [DaosContainerStatus.readyReason, setCond]
  rw [findStatusCondition_set_self st.conditions ⟨.ready, v, reason, msg⟩]
  rfl

@[simp] theorem readyReason_setC (v : ConditionStatus) (reason msg : String) :
    (setC st v reason msg).readyReason = some reason := readyReason_setCond st v reason msg

end Status

/-! ## Parts of a reconcile -/

section Parts

variable {w : World} {c : DaosContainer} {pool : DaosPool} {sys : DaosSystem}
  {s t : Point Call World} {rely : Entry Call World → Prop}

theorem Acts.next {call : Call} (ht : Acts w c t) (hc : Act w c t.log call) (f : Fault) :
    Acts w c (cluster.next t call f) := by
  refine ⟨?_, ht.2.next stable_act hc f⟩
  rw [Handler.next_world, Handler.respond_world]
  split
  · exact (perform_clock call t.world).trans ht.1
  · exact ht.1

theorem wp_act {call : Call} (hs : Acts w c s) (hc : Act w c s.log call) :
    (ask call).wp cluster rely s
      (fun a t => a = (perform call s.world).1 ∧ (∃ new, t.log = s.log ++ new) ∧ Acts w c t)
      (Acts w c) :=
  Prog.wp_ask (fun _ => ⟨rfl, ⟨_, rfl⟩, hs.next hc .none⟩) fun f _ _ _ => hs.next hc f

theorem wp_event (hs : Acts w c s) (warning : Bool) (reason msg : String) :
    (event c warning reason msg).wp cluster rely s
      (fun _ t => (∃ new, t.log = s.log ++ new) ∧ Acts w c t) (Acts w c) :=
  Prog.wp_mono (wp_act hs (.quiet rfl)) (fun _ _ h => h.2) fun _ h => h

theorem wp_updateStatus (hs : Acts w c s) (h : Move w s.log c st)
    (requeue : Duration) :
    (updateStatus c st requeue).wp cluster rely s (fun _ => Acts w c) (Acts w c) :=
  Prog.wp_bind (wp_act hs (.status h)) fun _ _ ht => ht.2.2

theorem wp_setCond {reason : String} (hs : Acts w c s)
    (h : ∀ st', st'.record = st.record → st'.readyReason = some reason → Move w s.log c st')
    (v : ConditionStatus) (msg : String) (requeue : Duration) :
    (updateStatus c (setCond st v reason msg) requeue).wp cluster rely s
      (fun _ => Acts w c) (Acts w c) :=
  wp_updateStatus hs (h (setCond st v reason msg) rfl (readyReason_setCond _ _ _ _)) requeue

theorem wp_setReady {reason : String} (hs : Acts w c s)
    (h : ∀ st', st'.record = st.record → st'.readyReason = some reason → Move w s.log c st')
    (v : ConditionStatus) (msg : String) (requeue : Duration) :
    (updateStatus c (setC st v reason msg) requeue).wp cluster rely s
      (fun _ => Acts w c) (Acts w c) :=
  wp_updateStatus hs (h (setC st v reason msg) rfl (readyReason_setC _ _ _ _)) requeue

theorem wp_setFinalizer {present : Bool} (hs : Acts w c s)
    (h : Act w c s.log (.setContainerFinalizer c.key present)) (requeue : Duration) :
    (setFinalizer c present requeue).wp cluster rely s (fun _ => Acts w c) (Acts w c) := by
  refine Prog.wp_bind (wp_act hs h) ?_
  rintro (e | u) t ⟨-, -, ht⟩
  · exact ht
  · exact ht

theorem wp_run {job : ContJob} (h : Reaches w c pool sys) (hs : Acts w c s)
    (hcreate : Act w c s.log (.createJob (opSpec c pool sys (namespaceOf sys) job)))
    (g : String → String) :
    ((Dmg.run (opSpec c pool sys (namespaceOf sys) job)).mapError g).wp cluster rely s
      (fun res t => (res.done = false ∨
        Dmg.Read s.world t.log (jobKey c.key (namespaceOf sys) job) res) ∧
        (∃ new, t.log = s.log ++ new) ∧ Acts w c t)
      (Acts w c) := by
  refine Prog.wp_mapError.mpr (Prog.wp_mono (Dmg.wp_run_keeps (I := Acts w c) ?_ hs) ?_
    fun _ h => h)
  · rintro call f t (hc | rfl | rfl) ⟨new, hnew⟩ ht
    · exact ht.next (.quiet hc) f
    · exact ht.next (hnew ▸ stable_act _ new _ hcreate) f
    · exact ht.next (.reads job h) f
  · rintro res t ⟨hres, ⟨new, hnew⟩, ht⟩
    exact ⟨hres, ⟨new, hnew.symm⟩, ht⟩

theorem wp_startOp {op : Operation} (h : Reaches w c pool sys)
    (hs : Acts w c s)
    (hcreate : Act w c s.log (.createJob (opSpec c pool sys (namespaceOf sys) (.op op))))
    (hmove : ∀ st', st'.record = { st with operation := some op }.record →
      st'.readyReason = some (Text.title op.text ++ "InProgress") → Move w s.log c st') :
    (startOp c pool sys (namespaceOf sys) st op).wp cluster rely s (fun _ => Acts w c)
      (Acts w c) := by
  refine Prog.wp_bind (wp_run h hs hcreate _) ?_
  rintro _ t ⟨-, ⟨new, hnew⟩, ht⟩
  refine Prog.wp_bind (wp_event ht _ _ _) ?_
  rintro _ u ⟨⟨new', hnew'⟩, hu⟩
  refine wp_setReady hu (fun st' hst hreason => ?_) _ _ _
  rw [hnew', hnew]
  exact ((hmove st' hst hreason).append new).append new'

/-! ## Failures exceed the redundancy factor -/

theorem wp_reportUnclean {q : Time} {why : Unclear} (h : Marked w s.log c pool sys q)
    (hwhy : unclear pool q = some why) (msg : String) (hs : Acts w c s) :
    (reportUnclean c pool c.status msg).wp cluster rely s (fun _ => Acts w c) (Acts w c) := by
  unfold reportUnclean
  extract_lets manual cache st
  refine Prog.wp_bind (wp_act hs (.quiet rfl)) ?_
  rintro pending t ⟨-, ⟨new, hnew⟩, ht⟩
  exact wp_setReady ht (fun _ => .reports (hnew ▸ h.append new) hwhy) _ _ _

theorem wp_rfExceeded {q : Time} (h : Marked w s.log c pool sys q) (hs : Acts w c s) :
    (rfExceeded c pool sys (namespaceOf sys) c.status q).wp cluster rely s (fun _ => Acts w c)
      (Acts w c) := by
  refine Prog.wp_bind (wp_act hs (.unmarks h)) ?_
  rintro _ t ⟨-, ⟨new, hnew⟩, ht⟩
  have hmarked : Marked w t.log c pool sys q := hnew ▸ h.append new
  split
  · next why hwhy => exact wp_reportUnclean hmarked hwhy why ht
  · next last hstale =>
      refine Prog.wp_bind (wp_act ht (.quiet rfl)) ?_
      rintro now u ⟨hnow, ⟨new', hnew'⟩, hu⟩
      obtain rfl : now = w.clock := hnow.trans ht.1
      have hlater : Marked w u.log c pool sys q := hnew' ▸ hmarked.append new'
      refine Prog.wp_ite (fun hage => ?_) fun _ => ?_
      · refine Prog.wp_bind (wp_act hu (.marks hlater hstale hage)) ?_
        rintro _ v ⟨-, ⟨new'', hnew''⟩, hv⟩
        exact wp_reportUnclean (hnew'' ▸ hlater.append new'') hstale _ hv
      · refine Prog.wp_bind (wp_event hu _ _ _) ?_
        rintro _ v ⟨⟨new'', hnew''⟩, hv⟩
        exact wp_reportUnclean (hnew'' ▸ hlater.append new'') hstale _ hv
  · next hwhole =>
      refine Prog.wp_bind (wp_event ht _ _ _) ?_
      rintro _ u ⟨⟨new', hnew'⟩, hu⟩
      have hlater : Marked w u.log c pool sys q := hnew' ▸ hmarked.append new'
      exact wp_startOp h.reaches hu (.heals hlater hwhole) fun _ => .heals hlater hwhole

/-! ## The query -/

theorem wp_readInfo {res : Dmg.Result} {info : Dmg.ContainerInfo}
    (h : Described w s.log c pool sys res info) (hs : Acts w c s) :
    (readInfo c pool sys (namespaceOf sys) info res c.status).wp cluster rely s
      (fun _ => Acts w c) (Acts w c) := by
  refine Prog.wp_bind (wp_act hs (.quiet rfl)) ?_
  rintro now t ⟨hnow, ⟨new, hnew⟩, ht⟩
  obtain rfl : now = w.clock := hnow.trans hs.1
  have hlater : Described w t.log c pool sys res info := hnew ▸ h.append new
  refine Prog.wp_ite (fun hacl => ?_) fun hacl => ?_
  · have hdrift : aclDrift c (queriedStatus c info res w.clock) = true := decide_eq_true hacl
    exact wp_startOp h.toReaches ht (.drifts hlater hdrift) fun _ => .drifts hlater hdrift
  · have hdrift : aclDrift c (queriedStatus c info res w.clock) = false := decide_eq_false hacl
    refine Prog.wp_ite (fun _ => ?_) fun _ => ?_
    · exact wp_setReady ht (fun _ hst hreason =>
        .settles hlater hdrift hst hreason (Or.inl rfl)) _ _ _
    · exact wp_setReady ht (fun _ hst hreason =>
        .settles hlater hdrift hst hreason (Or.inr rfl)) _ _ _

theorem wp_contAbsent {res : Dmg.Result} (h : Queried w s.log c pool sys res)
    (hanswer : queryAnswer res = .absent) (hs : Acts w c s) :
    (contAbsent c pool sys (namespaceOf sys) c.status).wp cluster rely s
      (fun _ => Acts w c) (Acts w c) := by
  refine Prog.wp_ite (fun hknown => ?_) fun hnew => ?_
  · exact wp_setReady hs (fun _ => .missing h hanswer hknown) _ _ _
  have hempty : c.status.uuid = "" := by simpa using hnew
  refine Prog.wp_ite (fun hagain => ?_) fun huntried => ?_
  · exact wp_updateStatus hs (.keeps h hanswer hempty hagain rfl rfl) _
  · have hcreates : Creates w s.log c pool sys res :=
      { h with absent := hanswer, uuid := hempty, untried := by simpa using huntried }
    exact wp_startOp h.toReaches hs (.creates hcreates) fun _ => .creates hcreates

theorem wp_readQuery {res : Dmg.Result} (h : Queried w s.log c pool sys res) (hs : Acts w c s) :
    (readQuery c pool sys (namespaceOf sys) res c.status).wp cluster rely s
      (fun _ => Acts w c) (Acts w c) := by
  rw [readQuery_eq]
  cases hanswer : queryAnswer res with
  | refused =>
      refine Prog.wp_bind (wp_act hs (.quiet rfl)) ?_
      rintro now t ⟨hnow, ⟨new, hnew⟩, ht⟩
      obtain rfl : now = w.clock := hnow.trans hs.1
      exact wp_rfExceeded (.read (hnew ▸ h.append new) hanswer rfl) ht
  | unclear reason msg => exact wp_setReady hs (fun _ => .unclear h hanswer) _ _ _
  | absent => exact wp_contAbsent h hanswer hs
  | found info => exact wp_readInfo { h with answer := hanswer } hs

/-- Query a container that no earlier query waits for. -/
def probeUnmarked (c : DaosContainer) (pool : DaosPool) (sys : DaosSystem) (ns : String)
    (st : DaosContainerStatus) : Op Duration :=
  (ask (.holdFor (contKey c.key))).bind fun wait =>
    if 0 < wait then .ret wait
    else
      ((Dmg.run (opSpec c pool sys ns .query)).mapError ("cont query job: " ++ ·)).bind fun res =>
        if !res.done then
          updateStatus c (if (findStatusCondition st.conditions .ready).isNone then
              setC st .unknown "Probing" "daos cont query is running" else st) requeueOp
        else
          (ask (.setHold (contKey c.key) requeueWait)).bind fun _ => readQuery c pool sys ns res st

theorem wp_probeUnmarked (h : Idle w c pool sys) (hworld : s.world = w) (hs : Acts w c s) :
    (probeUnmarked c pool sys (namespaceOf sys) c.status).wp cluster rely s
      (fun _ => Acts w c) (Acts w c) := by
  refine Prog.wp_bind (A := fun _ t => t.world = w ∧ Acts w c t) ?_ ?_
  · exact Prog.wp_ask (fun _ => ⟨hworld, hs.next (.quiet rfl) .none⟩)
      fun f _ _ _ => hs.next (.quiet rfl) f
  rintro wait t ⟨ht', ht⟩
  refine Prog.wp_ite (fun _ => ht) fun _ => ?_
  refine Prog.wp_bind (wp_run h.toReaches ht (.query h) _) ?_
  rintro res u ⟨hres, -, hu⟩
  refine Prog.wp_ite (fun _ => ?_) fun hdone => ?_
  · refine wp_updateStatus hu (.waits h ?_ ?_) _
    · split <;> rfl
    · split
      · next hnone =>
          left
          exact ⟨by simpa [DaosContainerStatus.readyReason] using hnone, readyReason_setC _ _ _ _⟩
      · right
        rfl
  · have hread : Dmg.Read w u.log (jobKey c.key (namespaceOf sys) .query) res := by
      rcases hres with hres | hres
      · simp [hres] at hdone
      · exact ht' ▸ hres
    refine Prog.wp_bind (wp_act hu (.setHold _ _)) ?_
    rintro _ v ⟨-, ⟨new, hnew⟩, hv⟩
    exact wp_readQuery { h with read := hnew ▸ hread.append new } hv

theorem wp_probe (h : Serves w c pool sys) (hidle : c.status.operation = none)
    (hworld : s.world = w) (hs : Acts w c s) :
    (probe c pool sys (namespaceOf sys) c.status).wp cluster rely s
      (fun _ => Acts w c) (Acts w c) := by
  refine Prog.wp_bind (A := fun r t => r = w.memory.rfPending.get (contKey c.key) ∧
    t.world = w ∧ Acts w c t) ?_ ?_
  · refine Prog.wp_ask (fun _ => ⟨?_, hworld, hs.next (.quiet rfl) .none⟩)
      fun f _ _ _ => hs.next (.quiet rfl) f
    exact congrArg (fun w => w.memory.rfPending.get (contKey c.key)) hworld
  intro r t ⟨hmark, ht', ht⟩
  cases r with
  | none =>
      change (probeUnmarked c pool sys (namespaceOf sys) c.status).wp cluster rely t _ _
      exact wp_probeUnmarked { h with idle := hidle, unmarked := hmark.symm } ht' ht
  | some q =>
      change (rfExceeded c pool sys (namespaceOf sys) c.status q).wp cluster rely t _ _
      exact wp_rfExceeded (.remembered h hidle hmark.symm) ht

/-! ## Operations -/

theorem wp_pollOp {op : Operation} (h : Serves w c pool sys) (hop : c.status.operation = some op)
    (hworld : s.world = w) (hs : Acts w c s) :
    (pollOp c pool sys (namespaceOf sys) c.status op).wp cluster rely s
      (fun _ => Acts w c) (Acts w c) := by
  refine Prog.wp_bind (wp_run h.toReaches hs (.polls h hop) _) ?_
  rintro res t ⟨hres, -, ht⟩
  refine Prog.wp_ite (fun _ => ht) fun hdone => ?_
  have hended : Ended w t.log c pool sys op res := by
    rcases hres with hres | hres
    · simp [hres] at hdone
    · exact { h with operation := hop, read := hworld ▸ hres }
  rw [finishOp_eq]
  cases hanswer : opResult op res with
  | error msg =>
      refine Prog.wp_bind (wp_event ht _ _ _) ?_
      rintro _ u ⟨⟨new, hnew⟩, hu⟩
      exact wp_setReady hu (fun _ => .fails (hnew ▸ hended.append new) hanswer) _ _ _
  | ok env =>
      refine Prog.wp_bind (A := fun _ u => (∃ new, u.log = t.log ++ new) ∧ Acts w c u) ?_ ?_
      · split
        · exact wp_event ht _ _ _
        · exact ⟨⟨[], by simp⟩, ht⟩
      rintro _ u ⟨⟨new, hnew⟩, hu⟩
      refine Prog.wp_bind (wp_act hu (.clearHold _)) ?_
      rintro _ v ⟨-, ⟨new', hnew'⟩, hv⟩
      have hlater : Ended w v.log c pool sys op res := by
        rw [hnew', hnew]
        exact (hended.append new).append new'
      exact wp_setCond hv (fun _ => .succeeds hlater hanswer) _ _ _

/-! ## Deletion -/

theorem wp_destroyContainer (h : Destroys w c pool sys) (hjobs : s.world.jobs = w.jobs)
    (hs : Acts w c s) :
    (destroyContainer c pool sys (namespaceOf sys) c.status).wp cluster rely s
      (fun _ => Acts w c) (Acts w c) := by
  refine Prog.wp_bind (A := fun _ t => t.world.jobs = w.jobs ∧ Acts w c t) ?_ ?_
  · exact Prog.wp_ask (fun _ => ⟨hjobs, hs.next (.quiet rfl) .none⟩)
      fun f _ _ _ => hs.next (.quiet rfl) f
  rintro wait t ⟨ht', ht⟩
  refine Prog.wp_ite (fun _ => ht) fun _ => ?_
  refine Prog.wp_bind (wp_run h.toReaches ht (.destroys h) _) ?_
  rintro res u ⟨hres, -, hu⟩
  refine Prog.wp_ite (fun _ => ?_) fun hdone => ?_
  · refine Prog.wp_ite (fun _ => hu) fun _ => ?_
    exact wp_setCond hu (fun _ hst hreason =>
      .destroys h (some .destroy) (Or.inr rfl) hst hreason (Or.inl rfl)) _ _ _
  split
  · refine Prog.wp_bind (wp_event hu _ _ _) fun _ v hv => ?_
    refine Prog.wp_bind (wp_act hv.2 (.setHold _ _)) fun _ x hx => ?_
    exact wp_setCond hx.2.2 (fun _ hst hreason =>
      .destroys h none (Or.inl rfl) hst hreason (Or.inr rfl)) _ _ _
  · next hsucceeded =>
      refine Prog.wp_bind (wp_event hu _ _ _) ?_
      rintro _ v ⟨⟨new, hnew⟩, hv⟩
      rcases hres with hres | hres
      · simp [hres] at hdone
      · have hread : Dmg.Read w u.log (jobKey c.key (namespaceOf sys) (.op .destroy)) res := by
          refine ⟨?_, hres.2⟩
          have hfinished := hres.1
          unfold Dmg.resultOf at hfinished ⊢
          rwa [ht'] at hfinished
        exact wp_setFinalizer hv (.destroyed
          { h with read := hnew ▸ hread.append new, succeeded := hsucceeded }) _

theorem wp_finalize (h : Reaches w c pool sys) (hdeleting : c.deleting = true)
    (hjobs : s.world.jobs = w.jobs) (hs : Acts w c s) :
    (finalize c pool sys (namespaceOf sys) c.status).wp cluster rely s
      (fun _ => Acts w c) (Acts w c) := by
  refine Prog.wp_ite (fun _ => hs) fun _ => ?_
  refine Prog.wp_ite (fun hkept => ?_) fun hgate => ?_
  · have hgate : approvedToDestroy c = false ∨ c.status.uuid = "" ∨ pool.status.uuid = "" := by
      simpa [or_assoc] using hkept
    refine Prog.wp_bind (A := fun _ => Acts w c) ?_ fun _ u hu =>
      wp_setFinalizer hu (.releases h hdeleting hgate) _
    refine Prog.wp_ite (fun _ => hs) fun _ => ?_
    exact Prog.wp_mono (wp_event hs _ _ _) (fun _ _ h => h.2) fun _ h => h
  · simp only [approvedToDestroy, Bool.or_eq_true, Bool.not_eq_true', decide_eq_false_iff_not,
      decide_eq_true_eq, not_or, not_not] at hgate
    exact wp_destroyContainer
      { h with gate := ⟨hdeleting, hgate.1.1, hgate.1.2⟩, created := hgate.2 } hjobs hs

/-! ## The reconcile -/

theorem wp_reconcileIn (h : Reaches w c pool sys) (hworld : s.world = w) (hs : Acts w c s) :
    (reconcileIn c pool sys).wp cluster rely s (fun _ => Acts w c) (Acts w c) := by
  unfold reconcileIn
  dsimp only
  refine Prog.wp_ite (fun hnew => ?_) fun hkept => ?_
  · have hfree : c.deleting = false ∧ c.finalizer = false := by simpa using hnew
    exact wp_setFinalizer hs (.holds hfree.1 hfree.2) _
  refine Prog.wp_ite (fun hdeleting => ?_) fun hlive => ?_
  · refine Prog.wp_bind (A := fun _ t => t.world.jobs = w.jobs ∧ Acts w c t) ?_ ?_
    · refine Prog.wp_ask (fun _ => ⟨?_, hs.next (.forgets h hdeleting) .none⟩)
        fun f _ _ _ => hs.next (.forgets h hdeleting) f
      rw [← hworld]
      rfl
    · rintro _ t ⟨ht', ht⟩
      exact wp_finalize h hdeleting ht' ht
  have hlive' : c.deleting = false := by simpa using hlive
  refine Prog.wp_ite (fun hempty => ?_) fun hcreated => ?_
  · exact wp_setReady hs (fun _ => .poolNotReady h hlive' hempty) _ _ _
  have hserves : Serves w c pool sys := by
    refine { h with finalizer := ?_, live := hlive', created := hcreated }
    simp only [Bool.and_eq_true, Bool.not_eq_true', not_and] at hkept
    simpa using hkept hlive'
  split
  · next op hop => exact wp_pollOp hserves hop hworld hs
  · next hop => exact wp_probe hserves hop hworld hs

theorem wp_unreachable (h : Unreached w c) (hs : Acts w c s) {reason : String}
    (hreason : reason = "PoolNotFound" ∨ reason = "SystemNotFound") (why : String) :
    (unreachable c reason why).wp cluster rely s (fun _ => Acts w c) (Acts w c) := by
  refine Prog.wp_ite (fun hdeleting => ?_) fun hlive => ?_
  · refine Prog.wp_bind (wp_event hs _ _ _) fun _ t ht => ?_
    exact Prog.wp_ite (fun _ => wp_setFinalizer ht.2 (.orphans h hdeleting) _) fun _ => ht.2
  · exact wp_setReady hs
      (fun _ hst hr => .unreached h (by simpa using hlive) hst hr hreason) _ _ _

end Parts

/-- Every call of a reconcile is accounted for. -/
theorem wp_reconcile_acts {rely : Entry Call World → Prop} {key : ObjectKey} :
    (reconcile key).wp cluster rely ⟨w, []⟩
      (fun _ t => ∀ x ∈ t.log, x.call.quiet = true ∨
        ∃ c, cached w.containers key = some c ∧ Act w c t.log x.call)
      fun t => ∀ x ∈ t.log, x.call.quiet = true ∨
        ∃ c, cached w.containers key = some c ∧ Act w c t.log x.call := by
  have hone : ∀ f, ∀ x ∈ (cluster.next ⟨w, []⟩ (.getContainer key) f).log, x.call.quiet = true ∨
      ∃ c, cached w.containers key = some c ∧
        Act w c (cluster.next ⟨w, []⟩ (.getContainer key) f).log x.call := by
    intro f x hx
    simp only [Handler.next_log, List.nil_append, List.mem_singleton] at hx
    subst hx
    exact Or.inl rfl
  refine Prog.wp_bind (A := fun r t => r = cached w.containers key ∧ t.world = w ∧
    t.log = [⟨.getContainer key, .none, w⟩]) ?_ ?_
  · exact Prog.wp_ask (fun _ => ⟨rfl, rfl, rfl⟩) fun f _ _ _ => hone f
  rintro (_ | c) t ⟨hcont, hworld, hlog⟩
  · intro x hx
    rw [hlog, List.mem_singleton] at hx
    subst hx
    exact Or.inl rfl
  have hstart : Acts w c t := by
    refine ⟨by rw [hworld], ?_⟩
    intro x hx
    rw [hlog, List.mem_singleton] at hx
    subst hx
    exact .quiet rfl
  -- the pool and the system are read before anything is decided
  have hread : ∀ {call : Call} {u : Point Call World}, call.quiet = true → u.world = w →
      Acts w c u → (ask call).wp cluster rely u
        (fun a v => a = (perform call w).1 ∧ v.world = w ∧ Acts w c v) (Acts w c) := by
    intro call u hquiet hu' hu
    refine Prog.wp_ask (fun _ => ⟨?_, ?_, hu.next (.quiet hquiet) .none⟩)
      fun f _ _ _ => hu.next (.quiet hquiet) f
    · rw [hu']
      rfl
    · rw [Handler.next_world, respond_quiet hquiet, hu']
  refine Prog.wp_mono (A := fun _ => Acts w c) (W := Acts w c) ?_ ?_ ?_
  · refine Prog.wp_bind (hread rfl hworld hstart) ?_
    rintro (_ | pool) u ⟨hpool, hu', hu⟩
    · exact wp_unreachable (Or.inl hpool.symm) hu (Or.inl rfl) _
    refine Prog.wp_bind (hread rfl hu' hu) ?_
    rintro (_ | sys) v ⟨hsys, hv', hv⟩
    · exact wp_unreachable (Or.inr ⟨pool, hpool.symm, hsys.symm⟩) hv (Or.inr rfl) _
    · exact wp_reconcileIn ⟨hpool.symm, hsys.symm⟩ hv' hv
  · exact fun _ u hu x hx => Or.inr ⟨c, hcont.symm, hu.2 x hx⟩
  · exact fun u hu x hx => Or.inr ⟨c, hcont.symm, hu.2 x hx⟩

end Container
end DaosOperator
