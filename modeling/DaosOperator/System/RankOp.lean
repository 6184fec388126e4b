import DaosOperator.System.Basic

/-!
# Rank membership operations

`reconcileRankOp` runs one requested `dmg system <op> --ranks=<ranks>` through a
Job whose name is the same for every request, records the outcome in
`status.lastRankOp` and removes the annotation.
-/

namespace DaosOperator

open Effect

/-! ## What the guards read from a pool -/

namespace Pool

/-- `PoolProfileKVCache`. -/
def profileKVCache : String := "kvcache"

def kvcacheRedundancy (pool : DaosPool) : String :=
  match pool.spec.kvcache with
  | some r => if r = "" then "none" else r
  | none => "none"

def redundancyFactor (pool : DaosPool) : Int :=
  if pool.spec.profile = profileKVCache then
    if kvcacheRedundancy pool = "ec" then 1 else 0
  else pool.spec.redundancyFactor.getD 2

end Pool

namespace System

def dmgStatusUnreachable : Int := -1009

def rankOpRetryWindow : Duration := 180
def rankOpRetryDelay : Duration := 20

/-! ## Requests -/

/-- The operations the operator will run. -/
def rankOps : List String := ["drain", "exclude", "reintegrate", "clear-exclude"]

/-- One component of `rankSetRe`: a number or a range. -/
def isRankRange (part : List Char) : Bool :=
  match Text.cutChars '-' part with
  | none => Text.isDigits part
  | some (lo, hi) => Text.isDigits lo && Text.isDigits hi

/-- `rankSetRe.MatchString`. -/
def isRankSet (ranks : String) : Bool :=
  (Text.splitChars ',' ranks.toList).all isRankRange

def parseRankOp (v : String) : Except String (String × String) :=
  match Text.cut v ':' with
  | none => .error "want \"<op>:<ranks>\", e.g. drain:2 or exclude:1,3-4"
  | some (before, after) =>
      if before = "" || after = "" then
        .error "want \"<op>:<ranks>\", e.g. drain:2 or exclude:1,3-4"
      else
        let op := Text.trimSpace before
        let ranks := Text.trimSpace after
        if op ∉ rankOps then
          .error ("unknown operation " ++ Text.quote op ++ " (want one of " ++
            Text.join rankOps ", " ++ ")")
        else if !isRankSet ranks then
          .error (Text.quote ranks ++
            " is not a rank set (ranks are numbers and ranges: 1 or 0,2 or 1-3)")
        else .ok (op, ranks)

/-- The ranks of `parseRankSet`, by the ranges its loops run over. -/
structure RankSet where
  ranges : List (Int × Int)

/-- `want[rank]`.  The loop counter is an `int` and the key an `int32`, so a range
marks every rank it meets modulo the width of `int32`. -/
def RankSet.contains (s : RankSet) (rank : Int) : Bool :=
  s.ranges.any fun r => r.1 + (rank - r.1) % 4294967296 ≤ r.2

/-- One component of `parseRankSet`: the range of its loop. -/
def rankRange (part : String) : Option (Int × Int) :=
  match Text.cut part '-' with
  | none => (Text.atoi (Text.trimSpace part)).map fun a => (a, a)
  | some (lo, hi) =>
      (Text.atoi (Text.trimSpace lo)).map fun a => (a, (Text.atoi (Text.trimSpace hi)).getD a)

/-- `parseRankSet`; `none` when a loop runs to the largest `int` and never ends. -/
def parseRankSet (ranks : String) : Option RankSet :=
  let ranges := (Text.split ranks ',').filterMap rankRange
  if ranges.any fun r => r.1 ≤ r.2 ∧ r.2 = 9223372036854775807 then none else some ⟨ranges⟩

/-! ## Guards -/

/-- `ready[rk.Node]` of the node configs: the last entry of a node counts. -/
def nodeServerReady (status : DaosSystemStatus) (node : String) : Bool :=
  ((status.nodeConfigs.filter fun nc => nc.node = node).getLast?.map (·.serverReady)).getD false

/-- States in which a rank has no running engine unless its server pod is ready. -/
def engineGoneStates : List String := ["excluded", "errored", "unknown", "stopped", "awaitformat"]

/-- Why ranks cannot be reintegrated, empty when they can. -/
def reintegrateRefusal (want : RankSet) (status : DaosSystemStatus) : String :=
  let wanted := status.ranks.filter fun rk => want.contains rk.rank
  let admin := (wanted.filter fun rk => rk.state = "adminexcluded").map fun rk => toString rk.rank
  let down := (wanted.filter fun rk =>
      rk.state ∈ engineGoneStates ∧ !nodeServerReady status rk.node).map fun rk =>
    toString rk.rank ++ " (" ++ rk.state ++ ", on " ++ rk.node ++ ")"
  if !admin.isEmpty then
    let names := Text.join admin ","
    "refused: rank(s) " ++ names ++ " are administratively excluded; DAOS will not " ++
      "reintegrate them. Clear the exclusion first (" ++ annotationRankOp ++
      "=clear-exclude:" ++ names ++ "), restart that node's server pod so the engine rejoins, " ++
      "then reintegrate"
  else if !down.isEmpty then
    "refused: rank(s) " ++ Text.join down ", " ++ " have no running engine (their server pod " ++
      "is not ready); reintegrate would wait out the 5 minute drain timeout and fail. Restart " ++
      "that node's server pod first, then reintegrate"
  else ""

/-- `rankOpPrecondition`: why the operation is refused, empty when it is not; `none`
when the function does not return. -/
def rankOpPrecondition (op ranks : String) (status : DaosSystemStatus) : Option String :=
  if op ≠ "reintegrate" then some ""
  else (parseRankSet ranks).map fun want => reintegrateRefusal want status

/-- The spec places the pool on one of the ranks; an empty list is every rank. -/
def spansAny (pool : DaosPool) (want : RankSet) : Bool :=
  pool.spec.ranks.isEmpty || pool.spec.ranks.any want.contains

/-- A reintegrate may empty the pool: no redundancy, and data_sync or an unknown mode
that the spec did not choose. -/
def isUnprotected (pool : DaosPool) : Bool :=
  Pool.redundancyFactor pool = 0 &&
    (pool.status.reintegrationMode = "" || pool.status.reintegrationMode = "data_sync") &&
    !(lookupKey pool.spec.properties "reintegration" = some "data_sync" &&
      pool.status.reintegrationMode = "data_sync")

def unprotectedPools (want : RankSet) (pools : List DaosPool) : List String :=
  (pools.filter fun p => isUnprotected p && spansAny p want).map fun p =>
    let mode := if p.status.reintegrationMode = "" then "unknown, DAOS default data_sync"
      else p.status.reintegrationMode
    p.name ++ " (reintegration " ++ mode ++ ")"

def isKVCacheNone (pool : DaosPool) : Bool :=
  pool.spec.profile = Pool.profileKVCache && Pool.kvcacheRedundancy pool = "none"

def kvcachePoolsOn (want : RankSet) (pools : List DaosPool) : List String :=
  (pools.filter fun p => isKVCacheNone p && spansAny p want).map (·.name)

/-- Why the pools of a system forbid an operation, empty when they do not. -/
def poolRefusal (sys : DaosSystem) (op ranks : String) (want : RankSet)
    (pools : List DaosPool) : String :=
  let mine := pools.filter fun p => p.spec.systemRef = sys.name
  let caches := kvcachePoolsOn want mine
  let unprotected := unprotectedPools want mine
  let accept :=
    annotationRankOpDiscardData ++ "=" ++ ranks ++ " with the request (kubectl daos rank "
  if op = "exclude" ∧ !caches.isEmpty then
    "refused: excluding rank(s) " ++ ranks ++ " takes them out of kvcache pool(s) " ++
      Text.join caches ", " ++ ", which have no redundancy: the system's self_heal then " ++
      "excludes their targets from the pool and the data on them is lost. A rank that reboots " ++
      "does not need this -- it rejoins by itself and its blocks hit again. To accept the " ++
      "loss, set " ++ accept ++ "exclude " ++ sys.name ++ " --ranks=" ++ ranks ++ " --discard-data)"
  else if op = "reintegrate" ∧ !unprotected.isEmpty then
    "refused: reintegrating rank(s) " ++ ranks ++ " would discard their data in pool(s) " ++
      Text.join unprotected ", " ++ ": DAOS empties the returning ranks before it rebuilds, and " ++
      "rd_fac 0 has no other copy. To accept that loss, set " ++ accept ++ "reintegrate " ++
      sys.name ++ " --ranks=" ++ ranks ++ " --discard-data)"
  else ""

/-- The data-loss guard: why the operation is refused, empty when it is not; `none` when
the function does not return. -/
def guardRefusal (sys : DaosSystem) (op ranks : String) (pools : List DaosPool) : Option String :=
  (parseRankSet ranks).map fun want => poolRefusal sys op ranks want pools

/-! ## The operation -/

def clearRankOp (sys : DaosSystem) : Op DaosSystem :=
  if sys.annotations.rankOp.isNone then .ret sys else patch sys .removeRankOp

/-- When the request was first seen: kept across the Job's run and its retries. -/
def requestedAt (status : DaosSystemStatus) (now : Time) (op ranks : String) : Time :=
  match status.lastRankOp with
  | some lr =>
      if lr.finishedAt.isNone ∧ lr.op = op ∧ lr.ranks = ranks then lr.requestedAt.getD now else now
  | none => now

/-- `record`: write the outcome into the status and consume the request. -/
def recordRankOp (p : Pass) (now : Time) (op ranks : String) (ok : Bool) (msg : String) :
    Op (Duration × Pass) :=
  let outcome : RankOpStatus :=
    ⟨op, ranks, some (requestedAt p.status now op ranks), some now, ok, msg⟩
  (event p.sys (!ok) (if ok then "RankOpCompleted" else "RankOpFailed") msg).bind fun _ =>
    (clearRankOp p.sys).bind fun sys =>
      .ret (0, ⟨sys, { p.status with lastRankOp := some outcome }⟩)

/-- The failures a finished rank operation reports. -/
def rankFailures (results : List Dmg.RankResult) : List String :=
  (results.filter (·.errored)).map fun rr =>
    "rank " ++ toString rr.rank ++ (if rr.pool = "" then "" else " (pool " ++ rr.pool ++ ")") ++
      ": " ++ rr.msg

/-- What the result of a rank operation comes to. -/
inductive RankOpVerdict where
  /-- DAOS never saw the request: it is safe to send it again. -/
  | retry (msg : String)
  /-- The outcome is recorded; `answered` means that DAOS gave results for the ranks. -/
  | record (answered ok : Bool) (msg : String)
  deriving DecidableEq

/-- The verdict on a result; `fresh` means that the request is within the retry window. -/
def rankOpVerdict (op ranks : String) (fresh : Bool) (res : Dmg.Result) : RankOpVerdict :=
  let what := "dmg system " ++ op ++ " " ++ ranks
  match parseResult res with
  | .error e => .record false false (what ++ ": " ++ e)
  | .ok env =>
      match env.error with
      | some e =>
          if (op = "drain" ∨ op = "reintegrate") ∧
              Text.contains e "no pool-ranks found to operate on" then
            .record false true (what ++ ": nothing to do, no pool has these ranks to " ++ op)
          else if env.status = dmgStatusUnreachable ∧ fresh then
            .retry (what ++ ": " ++ e ++ "; retrying (the request never reached DAOS; gives up " ++
              Text.showDuration rankOpRetryWindow ++ " after it was made)")
          else .record false false (what ++ ": " ++ e)
      | none =>
          match Dmg.rankOp env with
          | .error e => .record false false e
          | .ok results =>
              let failed := rankFailures results
              if !failed.isEmpty then
                .record true false (what ++ ": " ++ Text.join failed "; ")
              else
                .record true true
                  (what ++ ": " ++ toString results.length ++ " rank result(s), no errors")

def finishRankOp (p : Pass) (now : Time) (op ranks : String) (res : Dmg.Result) :
    Op (Duration × Pass) :=
  let since := requestedAt p.status now op ranks
  match rankOpVerdict op ranks (now - since < rankOpRetryWindow) res with
  | .retry msg =>
      (event p.sys true "RankOpRetrying" msg).bind fun _ =>
        .ret (rankOpRetryDelay, { p with status := { p.status with
          lastRankOp := some ⟨op, ranks, some since, none, false, msg⟩ } })
  | .record answered ok msg =>
      -- the membership reported next comes from the query, not from here
      (if answered then ask (.clearHold p.sys.name) else .ret ()).bind fun _ =>
        recordRankOp p now op ranks ok msg

/-- The words of a rank operation. -/
def rankOpArgs (op ranks : String) : List String := ["system", op, "--ranks=" ++ ranks]

/-- Run an accepted request. -/
def runRankOp (ns : String) (p : Pass) (now : Time) (op ranks : String) : Op (Duration × Pass) :=
  ((runDmg p.sys ns .rankOp (rankOpArgs op ranks)).mapError ("rank op job: " ++ ·)).bind
    fun res =>
      if !res.done then
        let running : RankOpStatus :=
          ⟨op, ranks, some now, none, false, "dmg system " ++ op ++ " is running"⟩
        let idle := match p.status.lastRankOp with
          | none => true
          | some lr => lr.finishedAt.isSome
        .ret (requeueProbe,
          if idle then { p with status := { p.status with lastRankOp := some running } } else p)
      else finishRankOp p now op ranks res

/-- The data-loss guard applies to a request without a matching acceptance. -/
def guarded (sys : DaosSystem) (op ranks : String) : Bool :=
  (op = "reintegrate" || op = "exclude") && sys.annotations.rankOpDiscardData ≠ some ranks

/-- Go on with `next` unless a check refuses the request. -/
def unlessRefused (p : Pass) (now : Time) (op ranks : String) (why : Option String)
    (next : Op (Duration × Pass)) : Op (Duration × Pass) :=
  match why with
  | none => .fail "the rank set never ends"
  | some why => if why ≠ "" then recordRankOp p now op ranks false why else next

/-- Check a request against the pools of the system, then run it. -/
def guardRankOp (ns : String) (p : Pass) (now : Time) (op ranks : String) :
    Op (Duration × Pass) :=
  if guarded p.sys op ranks then
    ((ask .listPools).mapError ("list pools: " ++ ·)).bind fun pools =>
      unlessRefused p now op ranks (guardRefusal p.sys op ranks pools)
        (runRankOp ns p now op ranks)
  else runRankOp ns p now op ranks

def reconcileRankOp (ns : String) (p : Pass) : Op (Duration × Pass) :=
  match p.sys.annotations.rankOp with
  | none => .ret (0, p)
  | some req =>
      (ask .now).bind fun now =>
        match parseRankOp req with
        | .error e =>
            recordRankOp p now req "" false
              ("rejected " ++ annotationRankOp ++ "=" ++ Text.quote req ++ ": " ++ e)
        | .ok (op, ranks) =>
            if !p.status.formatted then
              recordRankOp p now op ranks false
                "refused: the system is not formatted, so it has no ranks to operate on"
            else
              unlessRefused p now op ranks (rankOpPrecondition op ranks p.status)
                (guardRankOp ns p now op ranks)

end System
end DaosOperator
