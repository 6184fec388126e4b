import DaosOperator.System.Basic

/-!
# The format gate and the membership query

`reconcileFormat`: a system that was seen unformatted is formatted once a human
approved it and every server is ready; otherwise the management service is asked
for its membership, and everything the status says about formatting and ranks is
copied from the answer.
-/

namespace DaosOperator.System

open Effect

/-- `formatInput`. -/
structure FormatInput where
  ns : String
  /-- Control address to node name. -/
  nodeByAddr : List (String × String)
  rendered : Nat
  serversAllReady : Bool

def formatApproved (sys : DaosSystem) : Bool := sys.annotations.formatApproved = some "true"

def clearApproval (sys : DaosSystem) : Op DaosSystem :=
  if sys.annotations.formatApproved.isNone then .ret sys
  else patch sys .removeFormatApproved

/-! ## The format path -/

/-- The node has a member, and it has one that waits for a format. -/
def isMember (ranks : List RankStatus) (node : String) : Bool :=
  ranks.any fun r => r.node = node

def awaitsFormat (ranks : List RankStatus) (node : String) : Bool :=
  ranks.any fun r => r.node = node ∧ r.state = memberAwaitFormat

/-- The node's drives may be formatted. -/
def needsFormat (ranks : List RankStatus) (nc : NodeConfigStatus) : Bool :=
  nc.ready && nc.serverReady && nc.controlAddr ≠ "" &&
    (!isMember ranks nc.node || awaitsFormat ranks nc.node)

def formatHosts (status : DaosSystemStatus) : List String :=
  Text.sortStrings
    ((status.nodeConfigs.filter fun nc => needsFormat status.ranks nc).map (·.controlAddr))

/-- Whether to format, and the hosts the format is restricted to. -/
def formatDecision (approved : Bool) (status : DaosSystemStatus) : Option (List String) :=
  if approved && status.pendingFormat then
    if status.formatted then
      match formatHosts status with
      | [] => none
      | hosts => some hosts
    else some []
  else none

/-- The words of the format command. -/
def formatArgs (only : List String) : List String :=
  if only.isEmpty then ["storage", "format"]
  else ["-l", Text.join only ",", "storage", "format"]

def formatHint (msg : String) : String :=
  if Text.contains msg "does not match running system" then
    " -- another DAOS system answers on the control port of that host;" ++
      " on a node recycled from a native install, stop and mask it" ++
      " (systemctl mask --now daos_server daos_agent)"
  else ""

/-- `formatFailure`: empty on success. -/
def formatFailure (res : Dmg.Result) : String :=
  if res.failure ≠ "" && res.output = "" then "format Job failed: " ++ res.failure
  else
    match Dmg.parse res.output with
    | .error e => "format output: " ++ e
    | .ok env =>
        let hostErrors := Dmg.storageFormat env
        let hostMsgs := match hostErrors with
          | .ok m => Text.sortStrings (m.map fun e => e.2 ++ ": " ++ e.1)
          | .error _ => []
        match env.error, hostErrors with
        | some e, _ =>
            "dmg storage format: " ++ e ++
              (if hostMsgs.isEmpty then "" else ": " ++ Text.join hostMsgs "; ")
        | none, .error e => e
        | none, .ok _ =>
            if !hostMsgs.isEmpty then
              "dmg storage format host errors: " ++ Text.join hostMsgs "; "
            else if res.exitCode ≠ 0 then "dmg exited " ++ toString res.exitCode
            else ""

def formatFailed (only : List String) (msg : String) (now : Time) (st : DaosSystemStatus) :
    DaosSystemStatus :=
  setCond { st with lastFormat := some ⟨now, only, false, msg⟩ } .formatted .isFalse
    "FormatFailed" msg

/-- What a successful format is reported as. -/
def formatDone (only : List String) : String :=
  "dmg storage format succeeded" ++ (if only.isEmpty then "" else " on " ++ Text.join only ",")

def formatSucceeded (only : List String) (now : Time) (st : DaosSystemStatus) :
    DaosSystemStatus :=
  setCond { st with formatted := true, pendingFormat := false, formatTime := some now,
                    lastFormat := some ⟨now, only, true, ""⟩ } .formatted .isTrue
    "Formatted" (formatDone only ++ "; querying membership")

def recordFormat (only : List String) (res : Dmg.Result) (p : Pass) : Op (Duration × Pass) :=
  (ask .now).bind fun now =>
    let why := formatFailure res
    if why ≠ "" then
      let msg := why ++ formatHint why
      (event p.sys true "FormatFailed" msg).bind fun _ =>
        .ret (requeueSlow, { p with status := formatFailed only msg now p.status })
    else
      (event p.sys false "Formatted" (formatDone only)).bind fun _ =>
        (ask (.clearHold p.sys.name)).bind fun _ =>
          .ret (requeueProbe, { p with status := formatSucceeded only now p.status })

/-- The format path of `reconcileFormat`. -/
def formatPath (inp : FormatInput) (only : List String) (p : Pass) : Op (Duration × Pass) :=
  if !inp.serversAllReady then
    .ret (requeueSlow, p.cond .formatted .isFalse "AwaitingServers"
      "format approved but not every server pod is ready; refusing to format a partial system")
  else
    ((runDmg p.sys inp.ns .format (formatArgs only)).mapError ("format job: " ++ ·)).bind
      fun res =>
        if !res.done then
          .ret (requeueProbe,
            p.cond .formatted .isFalse "Formatting" "dmg storage format is running")
        else
          -- one shot: the approval is consumed by this attempt, success or not
          (clearApproval p.sys).bind fun sys => recordFormat only res { p with sys }

/-! ## The query path -/

def awaitSuffix (n : Nat) : String :=
  if n = 0 then "" else ", " ++ toString n ++ " awaiting format"

/-- How a failed format attempt is carried in the condition. -/
def lastAttempt (st : DaosSystemStatus) : Option String :=
  match st.lastFormat with
  | some lf =>
      if lf.succeeded then none
      else some ("; last attempt " ++ Text.rfc3339 lf.time ++ " failed: " ++ lf.message)
  | none => none

/-- `setMsCondition`: the new status and, if the service got worse, the event. -/
def setMsCondition (st : DaosSystemStatus) (env : Dmg.Envelope) :
    DaosSystemStatus × Option String :=
  let was := ((findCond st .managementService).map (·.status)).getD .unknown
  let (status, reason, msg) : ConditionStatus × String × String :=
    match env.error, Dmg.leaderQuery env with
    | some e, _ => (.unknown, "QueryError", e)
    | none, .error e => (.unknown, "QueryError", e)
    | none, .ok none => (.unknown, "NoAnswer", "dmg system leader-query returned no response")
    | none, .ok (some info) =>
        let down := Text.join info.downReplicas ","
        let total := info.replicas.length
        if info.currentLeader = "" then
          (.isFalse, "NoQuorum", "no replica holds the leadership; " ++
            toString ((total : Int) - info.downReplicas.length) ++ "/" ++ toString total ++
            " replicas answer" ++
            (if info.downReplicas.isEmpty then "" else " (down: " ++ down ++ ")") ++
            "; membership queries still answer from a replica's local copy")
        else
          (.isTrue, "Leader", "leader " ++ info.currentLeader ++ ", " ++ toString total ++
            " replicas" ++ (if info.downReplicas.isEmpty then "" else "; down: " ++ down))
  (setCond st .managementService status reason msg,
    if status ≠ was ∧ status ≠ .isTrue then some msg else none)

/-- The nodes `markUnresponsive` takes as down. -/
def downNodes (status : DaosSystemStatus) (leader : Option Dmg.Envelope) : List String :=
  let notReady :=
    (status.nodeConfigs.filter fun nc => nc.workload ≠ "" && !nc.serverReady).map (·.node)
  -- the map from addresses to nodes: the last entry of an address counts
  let nodeAt (addr : String) : Option String :=
    ((status.nodeConfigs.filter fun nc => Dmg.host nc.controlAddr = addr).getLast?).map (·.node)
  match leader.map Dmg.leaderQuery with
  | some (.ok (some info)) =>
      notReady ++ (info.downReplicas.filterMap fun a => nodeAt (Dmg.host a)).filter (· ≠ "")
  | _ => notReady

def markUnresponsive (status : DaosSystemStatus) (leader : Option Dmg.Envelope) :
    DaosSystemStatus :=
  let down := downNodes status leader
  let ranks := status.ranks.map fun r =>
    if r.node ∈ down then { r with state := memberUnresponsive } else r
  let marked := (status.ranks.filter fun r => r.node ∈ down).map fun r =>
    toString r.rank ++ " (" ++ r.node ++ ")"
  let since := match status.lastQueryTime with
    | some t => Text.rfc3339 t
    | none => "never"
  setCond { status with
      ranks, ranksJoined := (ranks.filter fun r => r.state = memberJoined).length }
    .formatted .isTrue "MembershipStale"
    ("dmg system query did not answer within " ++ toString membershipQueryTimeout ++
      " s (the management service can block while a rank is down); membership as of " ++ since ++
      (if marked.isEmpty then ""
        else "; reported unresponsive because their server pod is not Ready or their replica " ++
          "does not answer: rank " ++ Text.join marked ", "))

def rankStatus (nodeByAddr : List (String × String)) (m : Dmg.Member) : RankStatus :=
  let host := Dmg.host m.addr
  let node := (lookupKey nodeByAddr host).getD ""
  ⟨m.rank, if node = "" then host else node, m.state⟩

/-- The status after an answer that the storage is not formatted. -/
def unformattedAnswer (sys : DaosSystem) (approved : Bool) (error : String)
    (st : DaosSystemStatus) : DaosSystemStatus :=
  let msg :=
    (if external sys then
      "the external system reports it is not formatted (" ++ error ++ "); format it where it runs"
    else "storage is not formatted (" ++ error ++ ")") ++ (lastAttempt st).getD "" ++
    (if approved then "; approval present, formatting on the next pass"
    else "; a human must approve: kubectl annotate daossystem " ++ sys.name ++ " " ++
      annotationFormatApproved ++ "=true")
  setCond { st with pendingFormat := true, formatted := false, ranks := [], ranksJoined := 0,
                    ranksTotal := 0 } .formatted .isFalse "AwaitingApproval" msg

def withMembers (nodeByAddr : List (String × String)) (members : List Dmg.Member)
    (queried : Time) (st : DaosSystemStatus) : DaosSystemStatus :=
  { st with
    formatted := true
    lastQueryTime := some queried
    ranks := members.map (rankStatus nodeByAddr)
    ranksJoined := (members.filter fun m => m.state = memberJoined).length
    ranksTotal := members.length }

def membersAnswer (sys : DaosSystem) (nodeByAddr : List (String × String)) (approved : Bool)
    (members : List Dmg.Member) (queried : Time) (st : DaosSystemStatus) : DaosSystemStatus :=
  let st := withMembers nodeByAddr members queried st
  let joined := (members.filter fun m => m.state = memberJoined).length
  let awaiting := (members.filter fun m => m.state = memberAwaitFormat).length
  -- a node that never joined has no member, so the member list alone cannot see it
  let unformatted := formatHosts st
  let msg := toString joined ++ "/" ++ toString members.length ++ " ranks joined" ++
    awaitSuffix awaiting ++
    (if unformatted.isEmpty then ""
    else "; not formatted yet: " ++ Text.join unformatted "," ++
      match lastAttempt st with
      | some why => why
      | none =>
          if approved then ""
          else " (a human must approve: kubectl annotate daossystem " ++ sys.name ++ " " ++
            annotationFormatApproved ++ "=true)")
  setCond { st with pendingFormat := 0 < awaiting || !unformatted.isEmpty }
    .formatted .isTrue "Formatted" msg

/-- What a finished query leads to. -/
structure QueryRead where
  requeue : Duration
  status : DaosSystemStatus
  /-- The event that the management service got worse. -/
  degraded : Option String := none
  /-- The approval is stale and is dropped. -/
  dropApproval : Bool := false

/-- The membership answer: the first envelope of the query's output. -/
def readMembership (sys : DaosSystem) (inp : FormatInput) (approved : Bool) (queried : Time)
    (env : Dmg.Envelope) (leader : Option Dmg.Envelope) (st : DaosSystemStatus) : QueryRead :=
  match env.error with
  | some e =>
      match Dmg.classify e with
      | .unformatted =>
          ⟨if approved then requeueProbe else requeueSlow, unformattedAnswer sys approved e st,
            none, false⟩
      | .unreachable =>
          ⟨requeueSlow, setCond st .formatted .unknown "ManagementUnreachable" e, none, false⟩
      | .timeout => ⟨requeueSlow, markUnresponsive st leader, none, false⟩
      | _ => ⟨requeueSlow, setCond st .formatted .unknown "QueryError" e, none, false⟩
  | none =>
      match Dmg.systemQuery env with
      | .error e => ⟨requeueSlow, setCond st .formatted .unknown "ProbeFailed" e, none, false⟩
      | .ok members =>
          let st := membersAnswer sys inp.nodeByAddr approved members queried st
          ⟨requeueMembership, st, none, approved && !st.pendingFormat⟩

/-- A finished query Job. -/
def readQuery (sys : DaosSystem) (inp : FormatInput) (approved : Bool) (now : Time)
    (res : Dmg.Result) (st : DaosSystemStatus) : QueryRead :=
  if res.failure ≠ "" && res.output = "" then
    ⟨requeueSlow, setCond st .formatted .unknown "ProbeFailed" ("dmg Job failed: " ++ res.failure),
      none, false⟩
  else
    match Dmg.parseAll res.output with
    | .error e => ⟨requeueSlow, setCond st .formatted .unknown "ProbeFailed" e, none, false⟩
    | .ok [] => ⟨requeueSlow, st, none, false⟩
    | .ok [env] => readMembership sys inp approved (res.queriedAt now) env none st
    | .ok (env :: leader :: _) =>
        let (st, degraded) := setMsCondition st leader
        { readMembership sys inp approved (res.queriedAt now) env (some leader) st with degraded }

/-- `setProbeHold`: the interval to the next query. -/
def probeInterval (st : DaosSystemStatus) : Duration :=
  if (findCond st .formatted).any (fun c => c.status = .isTrue) && !st.pendingFormat then
    requeueMembership
  else requeueSlow

/-- Act on a finished query: drop a stale approval and set the probe hold, which
happens even when dropping the approval fails. -/
def finishQuery (q : QueryRead) (sys : DaosSystem) : Op (Duration × Pass) :=
  (match q.degraded with
    | some msg => event sys true "ManagementServiceDegraded" msg
    | none => .ret ()).bind fun _ =>
    (if q.dropApproval then (clearApproval sys).attempt else .ret (.ok sys)).bind fun dropped =>
      (ask (.setHold sys.name (probeInterval q.status))).bind fun _ =>
        match dropped with
        | .error e => .fail e
        | .ok sys' =>
            (if q.dropApproval then
              event sys' false "ApprovalIgnored"
                "format approval removed: system is already formatted"
            else .ret ()).bind fun _ => .ret (q.requeue, ⟨sys', q.status⟩)

/-- The query path of `reconcileFormat`. -/
def queryPath (inp : FormatInput) (approved : Bool) (p : Pass) : Op (Duration × Pass) :=
  (ask (.holdFor p.sys.name)).bind fun wait =>
    if 0 < wait then .ret (wait, p)
    else
      ((runDmgThen p.sys inp.ns .query ["system", "leader-query"]
        ["system", "query", "-v"]).mapError ("query job: " ++ ·)).bind fun res =>
          if !res.done then
            .ret (requeueProbe,
              if (findCond p.status .formatted).isNone then
                p.cond .formatted .unknown "Probing" "dmg system query is running"
              else p)
          else
            (ask .now).bind fun now =>
              finishQuery (readQuery p.sys inp approved now res p.status) p.sys

/-! ## `reconcileFormat` -/

/-- Refuse to format a system that somebody else runs, and drop the approval. -/
def refuseExternalFormat (sys : DaosSystem) : Op DaosSystem :=
  if external sys && formatApproved sys then
    (event sys true "FormatRefused"
      ("spec.externalMsReplicas is set: the operator will not format a DAOS system it does " ++
        "not run")).bind fun _ => clearApproval sys
  else .ret sys

def reconcileFormat (inp : FormatInput) (p : Pass) : Op (Duration × Pass) :=
  if !external p.sys && (!serverEnabled p.sys || inp.rendered = 0) then
    .ret (0, p.cond .formatted .unknown "NoServers" "no server workloads to query")
  else
    let approved := formatApproved p.sys && !external p.sys
    (refuseExternalFormat p.sys).bind fun sys =>
      match formatDecision approved p.status with
      | some only => formatPath inp only { p with sys }
      | none => queryPath inp approved { p with sys }

end DaosOperator.System
