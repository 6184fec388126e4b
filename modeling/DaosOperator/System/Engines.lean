import DaosOperator.System.RankOp
import DaosOperator.System.Upgrade
import Mathlib.Algebra.GroupWithZero.Nat

/-!
# Engines: condition and automatic restart

`setEnginesCondition` compares the engines a spec runs with the ranks that joined.
`reconcileEngineRestart` starts engines that died under a ready server pod, and
deletes the server pod of a node whose engines the start could not bring back.
What it knows about earlier starts is kept in memory only.
-/

namespace DaosOperator.System

open Effect

/-! ## The condition -/

def engineDownHint : String :=
  "the server pod is up but its engine is not: read /var/log/daos/daos_engine.*.log " ++
    "in that pod (kubectl exec). A common cause is hugepages exhausted on the node (DER_NOMEM)"

def staleMembersHint : String :=
  "the server nodes keep /var/daos/<system>/control_metadata across helm uninstall, and a " ++
    "reinstall with another layout reuses it. Pool operations that span these ranks hang. " ++
    "Either put the servers back on those nodes, or remove the system and clear " ++
    "/var/daos/<system> on every server node before installing again (that erases its pools)"

def membershipKnown (st : DaosSystemStatus) : Bool :=
  (findCond st .formatted).any fun c =>
    c.status = .isTrue && !Text.hasSuffix c.message "querying membership"

/-- Ranks on nodes without a server pod of this system. -/
def staleRanks (st : DaosSystemStatus) : List RankStatus :=
  st.ranks.filter fun r =>
    !(st.nodeConfigs.any fun nc => nc.workload ≠ "" ∧ nc.node = r.node)

def joinedOn (st : DaosSystemStatus) (node : String) : Nat :=
  (st.ranks.filter fun r => r.node = node ∧ r.state = memberJoined).length

def served (nc : NodeConfigStatus) : Bool := nc.workload ≠ "" && nc.serverReady

/-- Why a node with a ready server pod lacks engines. -/
def enginesMissing (st : DaosSystemStatus) (want : Nat) (nc : NodeConfigStatus) : String :=
  let others := (st.ranks.filter fun r => r.node = nc.node ∧ r.state ≠ memberJoined).map fun r =>
    "rank " ++ toString r.rank ++ " " ++ r.state
  let why := if others.isEmpty then
      "no rank registered: not formatted yet, or the engine died before joining"
    else Text.join others ", "
  nc.node ++ ": " ++ toString (joinedOn st nc.node) ++ "/" ++ toString want ++
    " engine(s) joined (" ++ why ++ ")"

def setEnginesCondition (sys : DaosSystem) (st : DaosSystemStatus) (serversAllReady : Bool) :
    DaosSystemStatus :=
  if !serverEnabled sys then
    setCond st .enginesReady .isFalse "ServersDisabled" "spec.server.enabled=false"
  else if !serversAllReady then
    setCond st .enginesReady .unknown "ServersNotReady"
      "not every server pod is ready; see condition ServersReady"
  else if !membershipKnown st then
    setCond st .enginesReady .unknown "MembershipUnknown"
      "the management service has not reported the ranks; see condition Formatted"
  else
    let stale := staleRanks st
    let want := sys.spec.engines.length
    let ready := st.nodeConfigs.filter served
    let short := ready.filter fun nc => joinedOn st nc.node < want
    if !stale.isEmpty then
      setCond st .enginesReady .isFalse "StaleMembers"
        (Text.join (stale.map fun r =>
            "rank " ++ toString r.rank ++ " at " ++ r.node ++ " (" ++ r.state ++ ")") ", " ++
          ": the management service lists these ranks but no server pod of this system runs " ++
          "there; " ++ staleMembersHint)
    else if !short.isEmpty then
      setCond st .enginesReady .isFalse "EnginesDown"
        (Text.join (Text.sortStrings (short.map (enginesMissing st want))) "; " ++ "; " ++
          engineDownHint)
    else
      setCond st .enginesReady .isTrue "AllJoined"
        (toString ((ready.map fun nc => joinedOn st nc.node).sum) ++ "/" ++
          toString (want * ready.length) ++ " engine(s) joined on " ++ toString ready.length ++
          " node(s)")

def enginesReason (st : DaosSystemStatus) : String :=
  ((findCond st .enginesReady).map (·.reason)).getD ""

def enginesDown (st : DaosSystemStatus) : Bool :=
  (findCond st .enginesReady).any fun c => c.status = .isFalse

/-! ## Candidates -/

def engineRestartGrace : Duration := 120
def engineRestartInterval : Duration := 300
def engineRestartMax : Nat := 3

/-- Rank states whose engine may have died. -/
def engineRestartStates : List String := ["errored", "excluded"]

/-- The node's server pod is ready: the last entry of a node counts. -/
def nodeServed (st : DaosSystemStatus) (node : String) : Bool :=
  ((st.nodeConfigs.filter fun nc => nc.node = node).getLast?.map served).getD false

def engineRestartCandidates (sys : DaosSystem) (st : DaosSystemStatus) : List RankStatus :=
  if !serverEnabled sys || !membershipKnown st || sys.annotations.rankOp.isSome then []
  else st.ranks.filter fun rk => rk.state ∈ engineRestartStates ∧ nodeServed st rk.node

def rankList (ranks : List Int) : String := Text.join (ranks.map toString) ","

/-! ## Which ranks are due -/

/-- The accumulator of the loop over the candidates. -/
structure Due where
  tracks : Table Int EngineTrack
  due : List Int := []
  gaveUp : List String := []
  next : Duration := 0

/-- A rank that joined or left starts over; a new candidate gets a track. -/
def refreshTracks (now : Time) (cands ranks : List RankStatus) (tracks : Table Int EngineTrack) :
    Table Int EngineTrack :=
  (cands.foldl (fun (t : Table Int EngineTrack) rk =>
    if (t.get rk.rank).isNone then t.put rk.rank (some { downSince := now })
    else t) tracks).restrict
    fun rank => ranks.any fun rk => rk.rank = rank ∧ rk.state ≠ memberJoined

/-- One candidate of the loop. -/
def considerRank (now : Time) (d : Due) (rk : RankStatus) : Due :=
  match d.tracks.get rk.rank with
  | none => d
  | some t =>
      if engineRestartMax ≤ t.tries then
        if t.gaveUp then d
        else { d with
          tracks := d.tracks.put rk.rank (some { t with gaveUp := true })
          gaveUp := d.gaveUp ++ ["rank " ++ toString rk.rank ++ " (" ++ rk.state ++ ", on " ++
            rk.node ++ ")"] }
      else if now - t.downSince < engineRestartGrace then
        { d with next := minRequeue d.next (engineRestartGrace - (now - t.downSince)) }
      else if 0 < t.tries ∧ now - t.lastTry < engineRestartInterval then
        { d with next := minRequeue d.next (engineRestartInterval - (now - t.lastTry)) }
      else { d with due := d.due ++ [rk.rank] }

/-- Count one start of every due rank. -/
def countTries (now : Time) (due : List Int) (tracks : Table Int EngineTrack) :
    Table Int EngineTrack :=
  due.foldl (fun (t : Table Int EngineTrack) rank =>
    match t.get rank with
    | none => t
    | some tr => t.put rank (some { tr with tries := tr.tries + 1, lastTry := now })) tracks

/-- What one pass over the candidates decides. -/
structure RestartPlan where
  memory : EngineMemory
  /-- The ranks of a start that begins now. -/
  due : List Int := []
  gaveUp : List String := []
  next : Duration := 0

/-- The part of `reconcileEngineRestart` that runs under its lock. -/
def planRestart (now : Time) (cands : List RankStatus) (st : DaosSystemStatus)
    (m : EngineMemory) : RestartPlan :=
  let tracks := refreshTracks now cands st.ranks m.tracks
  if m.running ≠ "" then { memory := { m with tracks } }
  else
    let d := cands.foldl (considerRank now) { tracks }
    if d.due.isEmpty then
      { memory := { m with tracks := d.tracks }, gaveUp := d.gaveUp, next := d.next }
    else
      let due := d.due.insertionSort (· ≤ ·)
      { memory := ⟨countTries now due d.tracks, rankList due⟩
        due, gaveUp := d.gaveUp, next := d.next }

/-- `noteEngineRestarts`: append to the message of `EnginesDown`. -/
def noteEngineRestarts (st : DaosSystemStatus) (cands : List RankStatus)
    (tracks : Table Int EngineTrack) : DaosSystemStatus :=
  let tries (rank : Int) : Nat := ((tracks.get rank).map (·.tries)).getD 0
  let notes := (cands.filter fun rk => 0 < tries rk.rank).map fun rk =>
    "rank " ++ toString rk.rank ++ " " ++ toString (tries rk.rank) ++ "/" ++
      toString engineRestartMax
  match findCond st .enginesReady with
  | some c =>
      if c.reason = "EnginesDown" ∧ !notes.isEmpty then
        setCond st .enginesReady c.status c.reason
          (c.message ++ "; engine start requested by the operator: " ++ Text.join notes ", ")
      else st
  | none => st

/-! ## The outcome of a start -/

/-- What a finished start Job says. -/
structure StartOutcome where
  msg : String
  ok : Bool
  /-- DAOS was reached but did not start the engines. -/
  stuck : Bool

def engineStartOutcome (res : Dmg.Result) (ranks : String) : StartOutcome :=
  let what := "dmg system start --ranks=" ++ ranks ++ ": "
  match parseResult res with
  | .error e => ⟨what ++ e, false, false⟩
  | .ok env =>
      match env.error with
      | some e => ⟨what ++ e, false, Text.contains e "timed out"⟩
      | none =>
          match Dmg.rankOp env with
          | .error e => ⟨what ++ e, false, false⟩
          | .ok results =>
              let failed := (results.filter (·.errored)).map fun rr =>
                "rank " ++ toString rr.rank ++ ": " ++ rr.msg
              if !failed.isEmpty then ⟨what ++ Text.join failed "; ", false, true⟩
              else ⟨what ++ toString results.length ++ " rank result(s), no errors; the next " ++
                "membership query shows whether the engine joined", true, false⟩

def stuckOn (st : DaosSystemStatus) (want : RankSet) (node : String) : List Int :=
  (st.ranks.filter fun rk => want.contains rk.rank ∧ rk.node = node).map (·.rank)

/-- A rank outside the start is joined on the node. -/
def healthyOn (st : DaosSystemStatus) (want : RankSet) (node : String) : Bool :=
  st.ranks.any fun rk => !want.contains rk.rank ∧ rk.state = memberJoined ∧ rk.node = node

def stuckNodes (st : DaosSystemStatus) (want : RankSet) : List String :=
  Text.sortStrings (((st.ranks.filter fun rk => want.contains rk.rank).map (·.node)).dedup)

def deleteStuckPod (sys : DaosSystem) (node ranks : String) (_ : Unit) (pod : ServerPod) :
    Op Unit :=
  if pod.node ≠ node ∨ pod.terminating then .ret ()
  else
    (ask (.deletePod pod.key)).bind fun _ =>
      event sys true "EngineRestartPodDeleted"
        ("rank(s) " ++ ranks ++ " on " ++ node ++ " did not start: daos_server does not recover " ++
          "an engine that died before it was ready, deleted " ++ pod.key.name ++
          " so a new one starts it")

/-- The next start counts from the new pod, not from the start that failed. -/
def touchTries (now : Time) (ranks : List Int) (m : EngineMemory) : EngineMemory :=
  { m with tracks := ranks.foldl (fun (t : Table Int EngineTrack) rank =>
      match t.get rank with
      | none => t
      | some tr => t.put rank (some { tr with lastTry := now })) m.tracks }

/-- The server pods of one node. -/
def restartNode (sys : DaosSystem) (st : DaosSystemStatus) (want : RankSet)
    (pods : List ServerPod) (_ : Unit) (node : String) : Op Unit :=
  let ranks := stuckOn st want node
  let names := rankList ranks
  if healthyOn st want node then
    event sys true "EngineRestartNeedsPodRestart"
      ("rank(s) " ++ names ++ " on " ++ node ++ " did not start and daos_server may be stuck on " ++
        "them; restarting the server pod would also stop the joined engine(s) there, so the " ++
        "operator leaves it: delete the pod when that is acceptable")
  else
    (Prog.foldList (deleteStuckPod sys node names) pods ()).bind fun _ =>
      (ask .now).bind fun now =>
        (ask (.engineMemory sys.name)).bind fun m =>
          ask (.setEngineMemory sys.name (touchTries now ranks m))

def restartStuckServers (ns : String) (sys : DaosSystem) (st : DaosSystemStatus) (ranks : String) :
    Op Unit :=
  match parseRankSet ranks with
  | none => .fail "the rank set never ends"
  | some want =>
      (serverPods sys ns).bind fun pods =>
        Prog.foldList (restartNode sys st want pods) (stuckNodes st want) ()

/-! ## `reconcileEngineRestart` -/

/-- The event for a rank the operator no longer starts. -/
def reportGaveUp (sys : DaosSystem) (_ : Unit) (rank : String) : Op Unit :=
  event sys true "EngineRestartGaveUp"
    (rank ++ " still down after " ++ toString engineRestartMax ++ " start attempt(s); read the " ++
      "engine log on that node (/var/log/daos/daos_engine.*.log). If its engine is running " ++
      "again, the rank waits for kubectl daos rank reintegrate")

def finishStart (ns : String) (p : Pass) (running : String) (res : Dmg.Result) :
    Op (Duration × Pass) :=
  (ask (.engineMemory p.sys.name)).bind fun m =>
    (ask (.setEngineMemory p.sys.name { m with running := "" })).bind fun _ =>
      (ask (.clearHold p.sys.name)).bind fun _ =>
        let out := engineStartOutcome res running
        (event p.sys (!out.ok) (if out.ok then "EngineRestartSent" else "EngineRestartFailed")
          out.msg).bind fun _ =>
          (if out.stuck then restartStuckServers ns p.sys p.status running else .ret ()).bind
            fun _ => .ret (requeueProbe, p)

/-- Run the start Job of a rank set. -/
def runStart (ns : String) (p : Pass) (running : String) : Op (Duration × Pass) :=
  ((runDmg p.sys ns .engineStart ["system", "start", "--ranks=" ++ running]).mapError
    ("engine start job: " ++ ·)).bind fun res =>
      if !res.done then .ret (requeueProbe, p) else finishStart ns p running res

def reconcileEngineRestart (ns : String) (p : Pass) : Op (Duration × Pass) :=
  (ask .now).bind fun now =>
    let cands := engineRestartCandidates p.sys p.status
    (ask (.engineMemory p.sys.name)).bind fun m =>
      let plan := planRestart now cands p.status m
      (ask (.setEngineMemory p.sys.name plan.memory)).bind fun _ =>
        (Prog.foldList (reportGaveUp p.sys) plan.gaveUp ()).bind fun _ =>
          let p := { p with status := noteEngineRestarts p.status cands plan.memory.tracks }
          let running := plan.memory.running
          if running = "" then .ret (plan.next, p)
          else
            (if plan.due.isEmpty then .ret ()
            else event p.sys false "EngineRestartRequested"
              ("dmg system start --ranks=" ++ running ++
                ": the engine is down while its server pod is Ready")).bind fun _ =>
              runStart ns p running

end DaosOperator.System
