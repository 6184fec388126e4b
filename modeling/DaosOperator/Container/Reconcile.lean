import DaosOperator.Pool.Reconcile

/-!
# Reconciling a `DaosContainer`

The controller follows the rules of the pool controller with the `daos` client in
place of `dmg`.  A container DAOS refuses to open is reported, and set healthy only
on request and only on evidence that no data was dropped.
-/

namespace DaosOperator.Container

open Effect
open Pool (requeueIdle requeueOp requeueWait requeueFailed aclHash poolLabel
  annotationDestroyApproved)

/-! ## Jobs -/

def contLabel (c : DaosContainer) : String := if c.spec.label ≠ "" then c.spec.label else c.key.name

/-- `contKey`: the key of the probe hold. -/
def contKey (key : ObjectKey) : String := "cont/" ++ key.ns ++ "/" ++ key.name

def contJobLabel (key : ObjectKey) : String := key.ns ++ "." ++ key.name

/-- The Jobs of a container: the query, and one for each operation. -/
inductive ContJob where
  | query
  | op (operation : Operation)
  deriving DecidableEq

/-- The last part of a Job's name. -/
def ContJob.text : ContJob → String
  | query => "query"
  | op o => o.text

/-- Namespace and name of a container's Job. -/
def jobKey (key : ObjectKey) (ns : String) (job : ContJob) : ObjectKey :=
  ⟨ns, jobName "cont" (key.ns ++ "/" ++ key.name) ("daos-" ++ job.text)⟩

/-- The `--properties` list of a create. -/
def createProperties (c : DaosContainer) : List String :=
  (match c.spec.redundancyFactor with
    | some f => ["rd_fac:" ++ toString f]
    | none => []) ++
  (if c.spec.checksum ≠ "" then ["cksum:" ++ c.spec.checksum] else []) ++
  (c.spec.properties.insertionSort fun a b => a.1 ≤ b.1).map fun kv => kv.1 ++ ":" ++ kv.2

/-- The words of `daos cont create`. -/
def createArgs (c : DaosContainer) (pool : DaosPool) : List String :=
  let props := createProperties c
  ["cont", "create", poolLabel pool, contLabel c] ++
    (if c.spec.type ≠ "" then ["--type", c.spec.type] else []) ++
    (if c.spec.fileOclass ≠ "" then ["--file-oclass", c.spec.fileOclass] else []) ++
    (if c.spec.dirOclass ≠ "" then ["--dir-oclass", c.spec.dirOclass] else []) ++
    (if 0 < c.spec.chunkSize then ["--chunk-size", toString c.spec.chunkSize] else []) ++
    (if props.isEmpty then [] else ["--properties", Text.join props ","]) ++
    (if c.spec.acl.isEmpty then [] else ["--acl-file", Dmg.aclFilePath])

/-- The ACL file and the words of a container's Job. -/
def jobArgs (c : DaosContainer) (pool : DaosPool) : ContJob → List String × List String
  | .query => ([], ["cont", "query", poolLabel pool, contLabel c])
  | .op .create => (c.spec.acl, createArgs c pool)
  | .op .acl =>
      (c.spec.acl, ["cont", "overwrite-acl", poolLabel pool, contLabel c, "--acl-file",
        Dmg.aclFilePath])
  | .op .destroy => ([], ["cont", "destroy", poolLabel pool, contLabel c])
  | .op .heal =>
      ([], ["cont", "set-prop", poolLabel pool, contLabel c, "--properties", "status:healthy"])
  -- no operations of a container
  | .op .extend | .op .reintMode | .op .selfHeal => ([], [])

/-- `opSpec`: the Job runs in the system's namespace and is owned by the pool. -/
def opSpec (c : DaosContainer) (pool : DaosPool) (sys : DaosSystem) (ns : String) (job : ContJob) :
    Dmg.RunSpec where
  owner := .pool pool.name
  key := jobKey c.key ns job
  image := sys.spec.images.client
  controlConfigMap := sys.name ++ "-control"
  command := .daos (System.systemName sys) (jobArgs c pool job).1 (jobArgs c pool job).2
  nodeSelector := sys.spec.nodeSelector
  labels := [("daos.gluesys.com/system", sys.name), ("daos.gluesys.com/pool", pool.name),
    ("daos.gluesys.com/container", contJobLabel c.key)]
  certsSecret := System.adminCertsSecret sys

/-! ## Small steps -/

def event (c : DaosContainer) (warning : Bool) (reason msg : String) : Op Unit :=
  ask (.event (.container c.key) warning reason msg)

/-- Set the condition `Ready` without `status.ready`. -/
def setCond (st : DaosContainerStatus) (v : ConditionStatus) (reason msg : String) :
    DaosContainerStatus :=
  { st with conditions := setStatusCondition st.conditions ⟨.ready, v, reason, msg⟩ }

/-- `setC`: the condition `Ready` and `status.ready`. -/
def setC (st : DaosContainerStatus) (v : ConditionStatus) (reason msg : String) :
    DaosContainerStatus :=
  { setCond st v reason msg with ready := decide (v = .isTrue) }

/-- `updateStatus`; a container that is gone is no error and is not looked at again. -/
def updateStatus (c : DaosContainer) (st : DaosContainerStatus) (requeue : Duration) :
    Op Duration :=
  (ask (.updateContainerStatus c.key st)).bind fun found => .ret (if found then requeue else 0)

/-- `r.Update` with the finalizer set or removed. -/
def setFinalizer (c : DaosContainer) (present : Bool) (requeue : Duration) : Op Duration :=
  (ask (.setContainerFinalizer c.key present)).bind fun
    | .ok _ => .ret requeue
    | .error e => .fail e

def releaseOrphan (c : DaosContainer) (why : String) : Op Duration :=
  (event c true "DestroySkipped" ("deleting without destroying: " ++ why ++
    ". If the container still exists in DAOS, destroy it by hand")).bind fun _ =>
    if c.finalizer then setFinalizer c false 0 else .ret 0

/-! ## Operations -/

def startOp (c : DaosContainer) (pool : DaosPool) (sys : DaosSystem) (ns : String)
    (st : DaosContainerStatus) (op : Operation) : Op Duration :=
  ((Dmg.run (opSpec c pool sys ns (.op op))).mapError fun e =>
    "start " ++ op.text ++ ": " ++ e).bind fun _ =>
    let title := Text.title op.text
    let st := setC { st with operation := some op } .isFalse (title ++ "InProgress")
      ("daos cont " ++ op.text ++ " is running")
    (event c false ("Container" ++ title) ("daos cont " ++ op.text ++ " started")).bind fun _ =>
      updateStatus c st requeueOp

/-- `failed`: the outcome of an operation that did not succeed. -/
def failOp (c : DaosContainer) (st : DaosContainerStatus) (op : Operation) (msg : String) :
    Op Duration :=
  let reason := Text.title op.text ++ "Failed"
  (event c true reason msg).bind fun _ => updateStatus c (setC st .isFalse reason msg) requeueFailed

/-- What a successful operation leaves in the status, and the event for it. -/
def applyOp (c : DaosContainer) (pool : DaosPool) (st : DaosContainerStatus) (env : Dmg.Envelope) :
    Operation → DaosContainerStatus × Option (String × String)
  | .create =>
      let st := match Dmg.containerQuery env with
        | .ok info => { st with uuid := info.uuid, poolUUID := info.poolUUID, type := info.type }
        | .error _ => st
      ({ st with appliedACLHash := aclHash c.spec.acl }, some ("ContainerCreated",
        "container " ++ contLabel c ++ " created in pool " ++ poolLabel pool ++ ", uuid " ++
          st.uuid))
  | .acl =>
      ({ st with appliedACLHash := aclHash c.spec.acl },
        some ("ContainerACLApplied", "ACL overwritten from spec.acl"))
  | .heal =>
      (st, some ("ContainerHealthRestored",
        "container status set to healthy after the pool was reintegrated"))
  | .destroy | .extend | .reintMode | .selfHeal => (st, none)

def finishOp (c : DaosContainer) (pool : DaosPool) (st : DaosContainerStatus) (op : Operation)
    (res : Dmg.Result) : Op Duration :=
  let st := { st with operation := none, observedGeneration := c.generation }
  let what := "daos cont " ++ op.text
  match System.parseResult res with
  | .error e => failOp c st op (what ++ ": " ++ e)
  | .ok env =>
      match env.error with
      | some e => failOp c st op (what ++ ": " ++ e)
      | none =>
          let (st, ev) := applyOp c pool st env op
          (match ev with
            | some (reason, msg) => event c false reason msg
            | none => .ret ()).bind fun _ =>
            (ask (.clearHold (contKey c.key))).bind fun _ =>
              updateStatus c (setCond st .unknown "Querying" (what ++ " succeeded; refreshing")) 1

def pollOp (c : DaosContainer) (pool : DaosPool) (sys : DaosSystem) (ns : String)
    (st : DaosContainerStatus) (op : Operation) : Op Duration :=
  ((Dmg.run (opSpec c pool sys ns (.op op))).mapError fun e =>
    "poll " ++ op.text ++ ": " ++ e).bind fun res =>
    if !res.done then .ret requeueOp else finishOp c pool st op res

/-! ## Deletion -/

/-- `c.Annotations[AnnotationDestroyApproved] == "true"`. -/
def approvedToDestroy (c : DaosContainer) : Bool := c.destroyApproved = some "true"

/-- A destroy that failed; the retry is held so that a busy container does not spin. -/
def destroyFailed (c : DaosContainer) (st : DaosContainerStatus) (why : String) : Op Duration :=
  let msg :=
    if Text.contains why "DER_BUSY" then
      "daos cont destroy: the container is still open (DER_BUSY) -- a node still has it " ++
        "mounted; retrying. If a pod was force-deleted, its dfuse mount can outlive it: check " ++
        "`mount | grep dfuse` on the nodes."
    else
      "daos cont destroy: " ++ why ++ "; the DaosContainer stays until destroy succeeds or the " ++
        "annotation is removed (then the container is kept)"
  (event c true "DestroyFailed" msg).bind fun _ =>
    (ask (.setHold (contKey c.key) requeueWait)).bind fun _ =>
      updateStatus c (setCond { st with operation := none } .isFalse "DestroyFailed" msg)
        requeueWait

/-- Run an approved destroy. -/
def destroyContainer (c : DaosContainer) (pool : DaosPool) (sys : DaosSystem) (ns : String)
    (st : DaosContainerStatus) : Op Duration :=
  (ask (.holdFor (contKey c.key))).bind fun wait =>
    if 0 < wait then .ret wait
    else
      ((Dmg.run (opSpec c pool sys ns (.op .destroy))).mapError ("destroy job: " ++ ·)).bind
        fun res =>
        if !res.done then
          if st.operation = some .destroy then .ret requeueOp
          else
            updateStatus c (setCond { st with operation := some .destroy } .isFalse "Destroying"
              "daos cont destroy is running") requeueOp
        else
          match Pool.destroyFailure res with
          | some why => destroyFailed c st why
          | none =>
              (event c false "ContainerDestroyed"
                ("DAOS container " ++ contLabel c ++ " destroyed on request")).bind fun _ =>
                setFinalizer c false 0

def finalize (c : DaosContainer) (pool : DaosPool) (sys : DaosSystem) (ns : String)
    (st : DaosContainerStatus) : Op Duration :=
  if !c.finalizer then .ret 0
  else if !approvedToDestroy c || st.uuid = "" || pool.status.uuid = "" then
    (if st.uuid = "" then .ret ()
    else event c true "ContainerOrphaned" ("DaosContainer deleted without " ++
      annotationDestroyApproved ++ "=true: DAOS container " ++ contLabel c ++ " (uuid " ++
      st.uuid ++ ") in pool " ++ poolLabel pool ++ " is kept; remove it by hand with " ++
      "`daos cont destroy " ++ poolLabel pool ++ " " ++ contLabel c ++
        "` if that is intended")).bind fun _ =>
      setFinalizer c false 0
  else destroyContainer c pool sys ns st

/-! ## Failures exceed the redundancy factor -/

def rfPendingMax : Duration := 180

/-- What keeps `rfExceeded` from clearing the container status. -/
inductive Unclear where
  | reason (why : String)
  /-- The pool status is older than the container query. -/
  | stale (last : String)

/-- The cases of `rfExceeded` in order; `none` when the pool is known to be whole. -/
def unclear (pool : DaosPool) (queried : Time) : Option Unclear :=
  let ps := pool.status
  if pool.annotations.autoClearUnclean ≠ some "true" then
    some (.reason ("the operator does not clear it unless DaosPool " ++ pool.name ++
      " has daos.gluesys.com/auto-clear-unclean=true"))
  else if ps.reintegrationMode ≠ "incremental" then
    some (.reason ("pool reintegration mode is " ++ Text.quote ps.reintegrationMode ++
      ", not incremental: a reintegrate may have discarded data"))
  else if ps.disabledTargets ≠ 0 ∨ ps.state ≠ "Ready" then
    some (.reason ("pool is " ++ ps.state ++ " with " ++ toString ps.disabledTargets ++
      " disabled target(s)"))
  else if ps.rebuildState ≠ "done" ∧ ps.rebuildState ≠ "idle" then
    some (.reason ("pool rebuild is " ++ ps.rebuildState))
  else
    match ps.lastQueryTime with
    | none => some (.stale "never")
    | some last => if last < queried then some (.stale (Text.rfc3339 last)) else none

def reportUnclean (c : DaosContainer) (pool : DaosPool) (st : DaosContainerStatus) (why : String) :
    Op Duration :=
  let manual := "daos cont set-prop " ++ poolLabel pool ++ " " ++ contLabel c ++
    " --properties status:healthy"
  let cache :=
    if pool.spec.profile = Pool.profileKVCache then
      ". Pool " ++ pool.name ++ " has profile kvcache, where this should not happen: check its " ++
        "status.selfHeal and the DaosSystem's lastRankOp for an exclude. The data is a cache, " ++
        "so deleting and re-creating this DaosContainer (an empty cache) is a valid recovery too"
    else ""
  let st := setC st .isFalse "FailuresExceedRF"
    ("DAOS refuses to open the container (DER_RF, failures exceed its redundancy factor); " ++
      why ++ ". Once the ranks are back and the data is known to be intact: " ++ manual ++ cache)
  (ask (.rfPendingSince (contKey c.key))).bind fun pending =>
    updateStatus c st (if pending.isSome then requeueOp else requeueWait)

def rfExceeded (c : DaosContainer) (pool : DaosPool) (sys : DaosSystem) (ns : String)
    (st : DaosContainerStatus) (queried : Time) : Op Duration :=
  (ask (.rfPendingClear (contKey c.key))).bind fun _ =>
    match unclear pool queried with
    | some (.reason why) => reportUnclean c pool st why
    | some (.stale last) =>
        (ask .now).bind fun now =>
          let at_ := Text.rfc3339 queried
          -- a query in the future of the clock is younger than any bound
          if now < queried + rfPendingMax then
            (ask (.rfPendingSet (contKey c.key) queried)).bind fun _ =>
              reportUnclean c pool st ("waiting for a pool status queried after " ++ at_ ++
                " (pool last queried " ++ last ++ ")")
          else
            let within := " within " ++ Text.showDuration rfPendingMax ++ " (pool last queried " ++
              last ++ "); querying the container again"
            (event c true "RFPendingDeadlineExceeded"
              ("no pool status queried after the DER_RF query at " ++ at_ ++ within)).bind fun _ =>
              reportUnclean c pool st ("no pool status queried after " ++ at_ ++ within)
    | none =>
        (event c true "ContainerUnclean" ("DAOS reports failures exceed RF; pool " ++
          poolLabel pool ++ " is whole again (incremental reintegration, 0 disabled targets, " ++
          "rebuild " ++ pool.status.rebuildState ++ "), clearing the container status")).bind
          fun _ => startOp c pool sys ns st .heal

/-! ## The query -/

/-- An operation that failed is not repeated for the same spec. -/
def failedForThisSpec (c : DaosContainer) (st : DaosContainerStatus) (reason : String) : Bool :=
  (findStatusCondition st.conditions .ready).any (fun k => k.reason = reason) &&
    st.observedGeneration = c.generation

def queryError (c : DaosContainer) (pool : DaosPool) (sys : DaosSystem) (ns : String)
    (st : DaosContainerStatus) (e : String) : Op Duration :=
  match Dmg.classify e with
  | .notFound =>
      if st.uuid ≠ "" then
        updateStatus c (setC st .isFalse "ContainerMissing" ("container " ++ contLabel c ++
          " (uuid " ++ st.uuid ++ ") no longer exists in pool " ++ poolLabel pool ++
          "; delete and re-create the DaosContainer to make a new, empty one")) requeueIdle
      else if failedForThisSpec c st "CreateFailed" then updateStatus c st requeueFailed
      else startOp c pool sys ns st .create
  | .unreachable => updateStatus c (setC st .unknown "ManagementUnreachable" e) requeueWait
  | _ => updateStatus c (setC st .unknown "QueryError" e) requeueWait

/-- A query that answered. -/
def readInfo (c : DaosContainer) (pool : DaosPool) (sys : DaosSystem) (ns : String)
    (info : Dmg.ContainerInfo) (res : Dmg.Result) (st : DaosContainerStatus) : Op Duration :=
  (ask .now).bind fun now =>
    let st := { st with
      uuid := info.uuid, poolUUID := info.poolUUID, health := info.health, type := info.type
      lastQueryTime := some (res.queriedAt now) }
    let hash := aclHash c.spec.acl
    if hash ≠ "" ∧ hash ≠ st.appliedACLHash ∧ !failedForThisSpec c st "AclFailed" then
      startOp c pool sys ns st .acl
    else if info.health = "HEALTHY" ∨ info.health = "" then
      updateStatus c (setC st .isTrue "Ready" (info.type ++ " container " ++ info.uuid ++
        ", health " ++ info.health)) requeueIdle
    else
      updateStatus c (setC st .isFalse ("Health" ++ info.health)
        ("daos cont query reports health " ++ info.health)) requeueIdle

/-- A finished query Job. -/
def readQuery (c : DaosContainer) (pool : DaosPool) (sys : DaosSystem) (ns : String)
    (res : Dmg.Result) (st : DaosContainerStatus) : Op Duration :=
  if Dmg.rfExceeded res.output then
    (ask .now).bind fun now => rfExceeded c pool sys ns st (res.queriedAt now)
  else
    match System.parseResult res with
    | .error e => updateStatus c (setC st .unknown "ProbeFailed" e) requeueWait
    | .ok env =>
        match env.error with
        | some e => queryError c pool sys ns st e
        | none =>
            match Dmg.containerQuery env with
            | .error e => updateStatus c (setC st .unknown "ProbeFailed" e) requeueWait
            | .ok info => readInfo c pool sys ns info res st

/-- Query a container that is idle; a query that waits for the pool's is decided first. -/
def probe (c : DaosContainer) (pool : DaosPool) (sys : DaosSystem) (ns : String)
    (st : DaosContainerStatus) : Op Duration :=
  (ask (.rfPendingSince (contKey c.key))).bind fun
    | some queried => rfExceeded c pool sys ns st queried
    | none =>
        (ask (.holdFor (contKey c.key))).bind fun wait =>
          if 0 < wait then .ret wait
          else
            ((Dmg.run (opSpec c pool sys ns .query)).mapError ("cont query job: " ++ ·)).bind
              fun res =>
              if !res.done then
                updateStatus c (if (findStatusCondition st.conditions .ready).isNone then
                    setC st .unknown "Probing" "daos cont query is running" else st) requeueOp
              else
                (ask (.setHold (contKey c.key) requeueWait)).bind fun _ =>
                  readQuery c pool sys ns res st

/-! ## `Reconcile` -/

def reconcileIn (c : DaosContainer) (pool : DaosPool) (sys : DaosSystem) : Op Duration :=
  let ns := System.namespaceOf sys
  let st := c.status
  if !c.deleting && !c.finalizer then setFinalizer c true 1
  else if c.deleting then
    (ask (.rfPendingClear (contKey c.key))).bind fun _ => finalize c pool sys ns st
  else if pool.status.uuid = "" then
    updateStatus c (setC st .isFalse "PoolNotReady" ("DaosPool " ++ pool.name ++
      " has no pool yet")) requeueWait
  else
    match st.operation with
    | some op => pollOp c pool sys ns st op
    | none => probe c pool sys ns st

/-- A container whose pool or system does not exist. -/
def unreachable (c : DaosContainer) (reason why : String) : Op Duration :=
  if c.deleting then releaseOrphan c why
  else updateStatus c (setC c.status .isFalse reason why) requeueWait

/-- `Reconcile` of the `DaosContainer` controller. -/
def reconcile (key : ObjectKey) : Op Duration :=
  (ask (.getContainer key)).bind fun
    | none => .ret 0
    | some c =>
        (ask (.getPool c.spec.poolRef)).bind fun
          | none =>
              unreachable c "PoolNotFound" ("DaosPool " ++ c.spec.poolRef ++ " does not exist")
          | some pool =>
              (ask (.getSystemCached pool.spec.systemRef)).bind fun
                | none => unreachable c "SystemNotFound"
                    ("DaosSystem " ++ pool.spec.systemRef ++ " does not exist")
                | some sys => reconcileIn c pool sys

end DaosOperator.Container
