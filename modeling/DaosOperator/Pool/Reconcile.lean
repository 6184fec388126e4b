import DaosOperator.Pool.Jobs

/-!
# Reconciling a `DaosPool`

The controller queries the pool, creates it when it does not exist, runs at most
one operation per pass to follow the spec, and on deletion destroys the DAOS pool
only with an approval.  All reads go through the cache.
-/

namespace DaosOperator.Pool

open Effect

/-! ## Constants -/

def requeueIdle : Duration := 60
def requeueOp : Duration := 10
def requeueWait : Duration := 30
def requeueFailed : Duration := 300
def destroyStallAfter : Int := 3
def destroyStalledRetry : Duration := 1800

def annotationDestroyApproved : String := "daos.gluesys.com/destroy-approved"

/-! ## Small steps -/

def event (pool : DaosPool) (warning : Bool) (reason msg : String) : Op Unit :=
  ask (.event (.pool pool.name) warning reason msg)

def setC (st : DaosPoolStatus) (t : ConditionType) (v : ConditionStatus) (reason msg : String) :
    DaosPoolStatus :=
  { st with conditions := setStatusCondition st.conditions ⟨t, v, reason, msg⟩ }

/-- `updateStatus`; a pool that is gone is no error and is not looked at again. -/
def updateStatus (pool : DaosPool) (st : DaosPoolStatus) (requeue : Duration) : Op Duration :=
  (ask (.updatePoolStatus pool.name st)).bind fun found => .ret (if found then requeue else 0)

/-- `r.Update` with the finalizer set or removed. -/
def setFinalizer (pool : DaosPool) (present : Bool) (requeue : Duration) : Op Duration :=
  (ask (.setPoolFinalizer pool.name present)).bind fun
    | .ok _ => .ret requeue
    | .error e => .fail e

def opCommand : Operation → String
  | .reintMode => "set-prop reintegration"
  | .selfHeal => "set-prop self_heal"
  | op => op.text

/-- The quotient rounded to the nearest integer, ties to even. -/
def roundDiv (a d : Nat) : Nat :=
  let q := a / d
  let rest := a % d
  if d < 2 * rest ∨ (2 * rest = d ∧ q % 2 = 1) then q + 1 else q

/-- The conversion to `float64`, which keeps 53 bits. -/
def float64 (n : Nat) : Nat :=
  let unit := 2 ^ (n.log2 - 52)
  roundDiv n unit * unit

def humanBytes (b : Int) : String :=
  if b < 1024 then toString b ++ " B"
  else
    let n := b.toNat
    let exp := (List.range 6).foldl (fun e i => if 1024 ^ (i + 1) ≤ n then i else e) 0
    -- the division by a power of two is exact
    let tenths := roundDiv (10 * float64 n) (1024 ^ (exp + 1))
    toString (tenths / 10) ++ "." ++ toString (tenths % 10) ++ " " ++
      (["K", "M", "G", "T", "P", "E"].getD exp "") ++ "iB"

/-- `checkSpace`: the new status and the event when the answer changed. -/
def checkSpace (pool : DaosPool) (st : DaosPoolStatus) :
    DaosPoolStatus × Option (Bool × String × String) :=
  let threshold := pool.spec.spaceWarningPercent.getD 85
  if st.totalBytes ≤ 0 then ({ st with usedPercent := 0 }, none)
  else
    let used := toInt64 (st.totalBytes - st.freeBytes)
    let percent := Text.toInt32 ((toInt64 (used * 100)).tdiv st.totalBytes)
    let st := { st with usedPercent := percent }
    if threshold ≤ 0 then
      ({ st with conditions := removeStatusCondition st.conditions .spaceLow }, none)
    else
      let was := isStatusConditionTrue st.conditions .spaceLow
      let msg := toString percent ++ "% used (" ++ humanBytes used ++ " of " ++
        humanBytes st.totalBytes ++ "), " ++ humanBytes st.freeBytes ++
        " free; DAOS enforces capacity per pool, so this applies to every container in it"
      if threshold ≤ percent then
        (setC st .spaceLow .isTrue "AboveThreshold" msg,
          if was then none else some (true, "PoolSpaceLow", msg))
      else
        (setC st .spaceLow .isFalse "BelowThreshold" msg,
          if was then some (false, "PoolSpaceRecovered", msg) else none)

def setDegraded (pool : DaosPool) (sys : DaosSystem) (st : DaosPoolStatus) : DaosPoolStatus :=
  if pool.spec.profile ≠ profileKVCache ∨ st.uuid = "" ∨ sys.status.ranks.isEmpty then st
  else
    let down := (sys.status.ranks.filter fun r =>
        (st.enabledRanks.isEmpty ∨ r.rank ∈ st.enabledRanks) ∧ !Text.equalFold r.state "joined").map
      fun r => toString r.rank ++ " (" ++ r.state ++ ")"
    if down.isEmpty then
      setC st .degraded .isFalse "AllRanksJoined" "every rank the pool spans is Joined"
    else
      setC st .degraded .isTrue "RanksDown" ("rank " ++ Text.join down ", " ++
        if kvcacheRedundancy pool = "ec" then
          " not Joined: the cache is served degraded and DAOS rebuilds that rank's share; once " ++
            "it is back, reintegrate it (dmg pool reintegrate)"
        else
          " not Joined: blocks on it are misses until it returns, and a client that starts now " ++
            "cannot connect to the pool until then (running clients are unaffected)")

def fallbackAnswer (out : String) : Option Dmg.Envelope :=
  match Dmg.parseAll out with
  | .ok [first, answer, _] =>
      if first.error.any fun e => Dmg.classify e = .timeout then some answer else none
  | _ => none

def queriedProp (out name : String) : Option String :=
  match Dmg.parseAll out with
  | .ok (_ :: second :: rest) =>
      let props := if (fallbackAnswer out).isSome then rest.headD second else second
      if props.error.isSome then none
      else
        match Dmg.poolProp props name with
        | .ok (some v) => if v = "" then none else some v
        | _ => none
  | _ => none

/-! ## Operations -/

def startOp (pool : DaosPool) (sys : DaosSystem) (ns : String) (st : DaosPoolStatus)
    (op : Operation) : Op Duration :=
  ((Dmg.run (opSpec pool sys ns (.op op))).mapError fun e =>
    "start " ++ op.text ++ ": " ++ e).bind fun _ =>
    let st := setC { st with operation := some op } .ready .isFalse
      (Text.title op.text ++ "InProgress") ("dmg pool " ++ opCommand op ++ " is running")
    (event pool false ("Pool" ++ Text.title op.text)
      ("dmg pool " ++ opCommand op ++ " started")).bind fun _ => updateStatus pool st requeueOp

/-- `failed`: the outcome of an operation that did not succeed. -/
def failOp (pool : DaosPool) (st : DaosPoolStatus) (op : Operation) (msg : String) : Op Duration :=
  let reason := Text.title op.text ++ "Failed"
  (event pool true reason msg).bind fun _ =>
    updateStatus pool (setC st .ready .isFalse reason msg) requeueFailed

/-- What a successful operation leaves in the status, and the event for it. -/
def applyOp (pool : DaosPool) (st : DaosPoolStatus) (env : Dmg.Envelope) :
    Operation → Except String (DaosPoolStatus × Option (String × String))
  | .create =>
      (Dmg.poolCreate env).map fun (uuid, ranks) =>
        ({ st with
            uuid, label := poolLabel pool, enabledRanks := ranks
            reintegrationMode := reintegrationMode pool
            appliedACLHash := aclHash pool.spec.acl },
          some ("PoolCreated", "pool " ++ poolLabel pool ++ " created, uuid " ++ uuid))
  | .acl =>
      .ok ({ st with appliedACLHash := aclHash pool.spec.acl },
        some ("PoolACLApplied", "ACL overwritten from spec.acl"))
  | .extend =>
      .ok (st, some ("PoolExtended", "pool extended to ranks " ++ ranksCSV pool.spec.ranks))
  | .reintMode =>
      let want := (pinnedReintegration pool).getD ""
      .ok ({ st with reintegrationMode := want }, some ("ReintegrationModeRestored",
        "pool " ++ poolLabel pool ++ " set back to reintegration:" ++ want))
  | .selfHeal =>
      let want := (pinnedSelfHeal pool).getD ""
      .ok ({ st with selfHeal := want }, some ("SelfHealPinned",
        "pool " ++ poolLabel pool ++ " set to self_heal:" ++ want ++ " (profile kvcache)"))
  | .destroy | .heal => .ok (st, none)

def finishOp (pool : DaosPool) (st : DaosPoolStatus) (op : Operation) (res : Dmg.Result) :
    Op Duration :=
  let st := { st with operation := none, observedGeneration := pool.generation }
  let what := "dmg pool " ++ opCommand op
  match System.parseResult res with
  | .error e => failOp pool st op (what ++ ": " ++ e)
  | .ok env =>
      match env.error with
      | some e => failOp pool st op (what ++ ": " ++ e)
      | none =>
          match applyOp pool st env op with
          | .error e => failOp pool st op e
          | .ok (st, ev) =>
              (match ev with
                | some (reason, msg) => event pool false reason msg
                | none => .ret ()).bind fun _ =>
                (ask (.clearHold (poolKey pool.name))).bind fun _ =>
                  updateStatus pool
                    (setC st .ready .unknown "Querying" (what ++ " succeeded; refreshing")) 1

def pollOp (pool : DaosPool) (sys : DaosSystem) (ns : String) (st : DaosPoolStatus)
    (op : Operation) : Op Duration :=
  ((Dmg.run (opSpec pool sys ns (.op op))).mapError fun e =>
    "poll " ++ op.text ++ ": " ++ e).bind fun res =>
    if !res.done then .ret requeueOp else finishOp pool st op res

/-! ## Deletion -/

/-- `pool.Annotations[AnnotationDestroyApproved] == "true"`. -/
def destroyApproved (pool : DaosPool) : Bool := pool.annotations.destroyApproved = some "true"

/-- Why a finished destroy did not succeed. -/
def destroyFailure (res : Dmg.Result) : Option String :=
  match System.parseResult res with
  | .error e => some e
  | .ok env =>
      match env.error with
      | some e => if Dmg.classify e = .notFound then none else some e
      | none => none

/-- A destroy that failed: count it in an `int32`, and report it as stalled after a few. -/
def destroyFailed (pool : DaosPool) (st : DaosPoolStatus) (why : String) : Op Duration :=
  let n := Text.toInt32 (st.destroyAttempts + 1)
  let st := { st with operation := none, destroyAttempts := n }
  if destroyStallAfter ≤ n then
    let msg := "dmg pool destroy failed " ++ toString n ++ " attempts in a row, last: " ++ why ++
      ". A rank holding the pool is probably down (kubectl daos system status). The operator " ++
      "now retries every " ++ Text.showDuration destroyStalledRetry ++ ": bring the rank back, " ++
      "or remove the " ++ annotationDestroyApproved ++ " annotation to release the DaosPool " ++
      "and keep the DAOS pool (uuid " ++ st.uuid ++ ")"
    (if n = destroyStallAfter then event pool true "DestroyStalled" msg else .ret ()).bind fun _ =>
      updateStatus pool (setC st .ready .isFalse "DestroyStalled" msg) destroyStalledRetry
  else
    let msg := "dmg pool destroy (attempt " ++ toString n ++ "/" ++ toString destroyStallAfter ++
      "): " ++ why ++ "; retrying. The DaosPool stays until destroy succeeds or the annotation " ++
      "is removed (then the pool is kept)"
    (event pool true "DestroyFailed" msg).bind fun _ =>
      updateStatus pool (setC st .ready .isFalse "DestroyFailed" msg) requeueIdle

/-- Run an approved destroy. -/
def destroyPool (pool : DaosPool) (sys : DaosSystem) (ns : String) (st : DaosPoolStatus) :
    Op Duration :=
  ((Dmg.run (opSpec pool sys ns (.op .destroy))).mapError ("destroy job: " ++ ·)).bind fun res =>
    if !res.done then
      if st.operation = some .destroy then .ret requeueOp
      else
        let st := { st with operation := some .destroy }
        -- a slow retry keeps DestroyStalled visible
        updateStatus pool (if st.destroyAttempts < destroyStallAfter then
            setC st .ready .isFalse "Destroying" "dmg pool destroy is running" else st) requeueOp
    else
      match destroyFailure res with
      | some why => destroyFailed pool st why
      | none =>
          (event pool false "PoolDestroyed"
            ("DAOS pool " ++ poolLabel pool ++ " destroyed on request")).bind fun _ =>
            setFinalizer pool false 0

def finalize (pool : DaosPool) (sys : DaosSystem) (ns : String) (st : DaosPoolStatus) :
    Op Duration :=
  if !pool.finalizer then .ret 0
  else if !destroyApproved pool || st.uuid = "" then
    (if st.uuid = "" then .ret ()
    else event pool true "PoolOrphaned" ("DaosPool deleted without " ++ annotationDestroyApproved ++
      "=true: DAOS pool " ++ poolLabel pool ++ " (uuid " ++ st.uuid ++ ") is kept; remove it by " ++
      "hand with `dmg pool destroy " ++ poolLabel pool ++ "` if that is intended")).bind fun _ =>
      setFinalizer pool false 0
  else destroyPool pool sys ns st

/-! ## The query -/

/-- An operation that failed is not repeated for the same spec. -/
def failedForThisSpec (pool : DaosPool) (st : DaosPoolStatus) (reason : String) : Bool :=
  (findStatusCondition st.conditions .ready).any (fun c => c.reason = reason) &&
    st.observedGeneration = pool.generation

/-- The message for a pool much smaller than the spec asks for; empty otherwise. -/
def sizeMismatch (pool : DaosPool) (st : DaosPoolStatus) : String :=
  if 0 < pool.spec.size ∧ 0 < st.totalBytes ∧ toInt64 (st.totalBytes * 2) < pool.spec.size then
    "pool " ++ Text.quote st.label ++ " is " ++ humanBytes st.totalBytes ++ " but spec.size " ++
      "asks for " ++ humanBytes pool.spec.size ++ "; the operator never resizes a pool, so this " ++
      "resource is not describing what exists. Causes seen: the name was re-applied while the " ++
      "old pool was still being destroyed, or the pool predates this spec. Destroy it and let " ++
      "the operator create it, or set spec.size to what is there"
  else ""

/-- The condition `SpecMismatch`. -/
def setMismatch (pool : DaosPool) (st : DaosPoolStatus) : DaosPoolStatus :=
  let why := sizeMismatch pool st
  if why = "" then
    setC st .specMismatch .isFalse "Matches" "pool size is within what spec.size asks for"
  else setC st .specMismatch .isTrue "SizeMismatch" why

/-- The status after a query answered. -/
def withInfo (pool : DaosPool) (info : Dmg.PoolInfo) (enabled : List Int) (healthOnly : Bool)
    (output : String) (queried : Time) (st : DaosPoolStatus) : DaosPoolStatus :=
  { st with
    uuid := info.uuid, state := info.state, rebuildState := info.rebuildState
    disabledTargets := info.disabledTargets, label := poolLabel pool
    totalBytes := if healthOnly then st.totalBytes else info.totals.1
    freeBytes := if healthOnly then st.freeBytes else info.totals.2
    enabledRanks := enabled, lastQueryTime := some queried
    reintegrationMode := (queriedProp output "reintegration").getD st.reintegrationMode
    selfHeal := (queriedProp output "self_heal").getD st.selfHeal }

/-- The operation that follows from the difference between spec and pool. -/
def drift (pool : DaosPool) (st : DaosPoolStatus) : Option Operation :=
  let hash := aclHash pool.spec.acl
  if !pool.spec.ranks.isEmpty ∧ !st.enabledRanks.isEmpty ∧
      !(missingRanks pool.spec.ranks st.enabledRanks).isEmpty ∧
      !failedForThisSpec pool st "ExtendFailed" then some .extend
  else if hash ≠ "" ∧ hash ≠ st.appliedACLHash ∧ !failedForThisSpec pool st "ACLFailed" then
    some .acl
  else if (pinnedReintegration pool).any (fun want =>
      st.reintegrationMode ≠ "" ∧ st.reintegrationMode ≠ want) ∧
      !failedForThisSpec pool st "ReintmodeFailed" then some .reintMode
  else if (pinnedSelfHeal pool).any (fun want => st.selfHeal ≠ "" ∧ st.selfHeal ≠ want) ∧
      !failedForThisSpec pool st "SelfhealFailed" then some .selfHeal
  else none

/-- The event before an operation that sets a property back. -/
def driftEvent (pool : DaosPool) (st : DaosPoolStatus) : Operation → Op Unit
  | .reintMode => event pool true "ReintegrationModeDrift"
      ("pool " ++ poolLabel pool ++ " has reintegration:" ++ st.reintegrationMode ++
        " but the DaosPool pins " ++ (pinnedReintegration pool).getD "" ++ "; setting it back")
  | .selfHeal =>
      if pool.status.selfHeal = "" then .ret ()
      else event pool true "SelfHealDrift"
        ("pool " ++ poolLabel pool ++ " has self_heal:" ++ st.selfHeal ++
          " but profile kvcache pins " ++ (pinnedSelfHeal pool).getD "" ++ "; setting it back")
  | _ => .ret ()

def settled (pool : DaosPool) (info : Dmg.PoolInfo) (st : DaosPoolStatus) : DaosPoolStatus :=
  if info.state = "Ready" then
    setC st .ready .isTrue "Ready" ("state " ++ info.state ++ ", rebuild " ++ info.rebuildState ++
      ", " ++ toString st.enabledRanks.length ++ " ranks" ++
      (if sizeMismatch pool st = "" then ""
      else "; spec.size does not match this pool (see the SpecMismatch condition)"))
  else
    setC st .ready .isFalse ("State" ++ info.state) ("dmg reports state " ++ info.state ++
      " (rebuild " ++ info.rebuildState ++ ", " ++ toString info.disabledTargets ++
      " disabled targets)")

/-- The status of a pool that only its health-only query described. -/
def healthOnlyStatus (info : Dmg.PoolInfo) (dead : List Int) (st : DaosPoolStatus) :
    DaosPoolStatus :=
  let msg := "state " ++ info.state ++ ", rebuild " ++ info.rebuildState ++ ", " ++
    toString st.enabledRanks.length ++ " ranks, dead ranks " ++ Text.showInts dead ++
    "; dmg pool query did not answer within " ++ toString poolQueryTimeout ++ " s, so this is " ++
    "its health-only form (-t): space is from the last full answer. A rank down in a self_heal " ++
    "none pool stays in the pool map and the space query waits on it"
  if info.state = "Ready" then setC st .ready .isTrue "ReadyHealthOnly" msg
  else setC st .ready .isFalse ("State" ++ info.state) msg

def followSpec (pool : DaosPool) (sys : DaosSystem) (ns : String) (info : Dmg.PoolInfo)
    (st : DaosPoolStatus) : Op Duration :=
  match drift pool st with
  | some op =>
      (driftEvent pool st op).bind fun _ =>
        -- the extend Job is built from the ranks just read
        let pool := if op = .extend then
            { pool with status := { pool.status with enabledRanks := st.enabledRanks } } else pool
        startOp pool sys ns st op
  | none => updateStatus pool (settled pool info st) requeueIdle

/-- A query that answered. -/
def readInfo (pool : DaosPool) (sys : DaosSystem) (ns : String) (info : Dmg.PoolInfo)
    (healthOnly : Bool) (res : Dmg.Result) (st : DaosPoolStatus) : Op Duration :=
  (ask .now).bind fun now =>
    match Dmg.ranks info.enabledRanks, Dmg.ranks info.deadRanks with
    | some enabled, dead =>
        let st := withInfo pool info enabled healthOnly res.output (res.queriedAt now) st
        let (st, ev) := checkSpace pool st
        (match ev with
          | some (warning, reason, msg) => event pool warning reason msg
          | none => .ret ()).bind fun _ =>
          let st := setMismatch pool st
          if healthOnly then
            match dead with
            | some dead => updateStatus pool (healthOnlyStatus info dead st) requeueIdle
            | none => .fail "the dead ranks never end"
          else followSpec pool sys ns info st
    | none, _ => .fail "the enabled ranks never end"

def queryError (pool : DaosPool) (sys : DaosSystem) (ns : String) (st : DaosPoolStatus)
    (e : String) : Op Duration :=
  match Dmg.classify e with
  | .notFound =>
      if st.uuid ≠ "" then
        -- an existing pool that disappeared is data loss and is never created again
        updateStatus pool (setC st .ready .isFalse "PoolMissing"
          ("pool " ++ poolLabel pool ++ " (uuid " ++ st.uuid ++ ") no longer exists in DAOS; " ++
            "delete and re-create the DaosPool to make a new, empty pool")) requeueIdle
      else if failedForThisSpec pool st "CreateFailed" then updateStatus pool st requeueFailed
      else startOp pool sys ns st .create
  | .unreachable =>
      updateStatus pool (setC st .ready .unknown "ManagementUnreachable" e) requeueWait
  | _ => updateStatus pool (setC st .ready .unknown "QueryError" e) requeueWait

/-- A finished query Job. -/
def readQuery (pool : DaosPool) (sys : DaosSystem) (ns : String) (res : Dmg.Result)
    (st : DaosPoolStatus) : Op Duration :=
  match System.parseResult res with
  | .error e => updateStatus pool (setC st .ready .unknown "ProbeFailed" e) requeueWait
  | .ok first =>
      let fallback :=
        if first.error.any fun e => Dmg.classify e = .timeout then fallbackAnswer res.output
        else none
      let env := fallback.getD first
      match env.error with
      | some e => queryError pool sys ns st e
      | none =>
          match Dmg.poolQuery env with
          | .error e => updateStatus pool (setC st .ready .unknown "ProbeFailed" e) requeueWait
          | .ok info => readInfo pool sys ns info fallback.isSome res st

/-- Query a pool that is idle. -/
def probe (pool : DaosPool) (sys : DaosSystem) (ns : String) (st : DaosPoolStatus) : Op Duration :=
  (ask (.holdFor (poolKey pool.name))).bind fun wait =>
    if 0 < wait then .ret wait
    else
      ((Dmg.run (opSpec pool sys ns .query)).mapError ("pool query job: " ++ ·)).bind fun res =>
        if !res.done then
          updateStatus pool (if (findStatusCondition st.conditions .ready).isNone then
              setC st .ready .unknown "Probing" "dmg pool query is running" else st) requeueOp
        else
          (ask (.setHold (poolKey pool.name) requeueWait)).bind fun _ =>
            readQuery pool sys ns res st

/-! ## `Reconcile` -/

def reconcileIn (pool : DaosPool) (sys : DaosSystem) : Op Duration :=
  let ns := System.namespaceOf sys
  let st := pool.status
  if !pool.deleting && !pool.finalizer then setFinalizer pool true 1
  else if pool.deleting then finalize pool sys ns st
  else if !sys.status.formatted then
    updateStatus pool (setC st .ready .isFalse "SystemNotFormatted"
      ("DaosSystem " ++ sys.name ++ " is not formatted yet")) requeueWait
  else
    let st := setDegraded pool sys st
    match st.operation with
    | some op => pollOp pool sys ns st op
    | none => probe pool sys ns st

/-- `Reconcile` of the `DaosPool` controller. -/
def reconcile (name : String) : Op Duration :=
  (ask (.getPool name)).bind fun
    | none => .ret 0
    | some pool =>
        (ask (.getSystemCached pool.spec.systemRef)).bind fun
          | none =>
              updateStatus pool (setC pool.status .ready .isFalse "SystemNotFound"
                ("DaosSystem " ++ pool.spec.systemRef ++ " does not exist")) requeueWait
          | some sys => reconcileIn pool sys

end DaosOperator.Pool
