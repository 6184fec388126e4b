import DaosOperator.System.Engines
import DaosOperator.System.Format

/-!
# Reconciling a `DaosSystem`

One reconcile selects nodes, refuses those that share a drive, keeps or picks the
management-service replicas, renders and runs the servers, and then hands over to
the restart, the format gate, the rank operations and the engine restart.  The
status is rebuilt from a list of carried fields and replaces the stored one at the
end of every path.
-/

namespace DaosOperator.System

open Effect

/-! ## Nodes and replicas -/

/-- The number of management-service replicas. -/
def msWant (sys : DaosSystem) : Nat :=
  if sys.spec.msReplicas = 0 then 1 else sys.spec.msReplicas.toNat

/-- The status a reconcile starts from: what dmg told last time, and the nodes. -/
def carryStatus (sys : DaosSystem) (nodes : List Node) : DaosSystemStatus where
  conditions := sys.status.conditions
  formatted := sys.status.formatted
  pendingFormat := sys.status.pendingFormat
  formatTime := sys.status.formatTime
  lastQueryTime := sys.status.lastQueryTime
  ranks := sys.status.ranks
  ranksJoined := sys.status.ranksJoined
  ranksTotal := sys.status.ranksTotal
  observedVersion := sys.status.observedVersion
  upgrade := sys.status.upgrade
  certificates := sys.status.certificates
  lastRankOp := sys.status.lastRankOp
  lastFormat := sys.status.lastFormat
  selectedNodes := nodes.map (·.name)

/-- `conflicted`: the nodes that share a drive, each with a serial it shares. -/
def conflictedNodes (conflicts : List (String × List String)) : List (String × String) :=
  conflicts.foldl (fun m c => c.2.foldl (fun m n => Discovery.mapSet m n c.1) m) []

/-- The condition on shared drives. -/
def setDriveConflict (conflicts : List (String × List String)) (st : DaosSystemStatus) :
    DaosSystemStatus :=
  if conflicts.isEmpty then setCond st .driveConflict .isFalse "None" "no shared drives detected"
  else
    let msgs := Text.sortStrings
      (conflicts.map fun c => "DSN " ++ c.1 ++ " on " ++ Text.join c.2 "+")
    setCond st .driveConflict .isTrue "SharedPhysicalDrive"
      ("nodes expose the same NVMe (dual-port chassis); they are excluded until fixed: " ++
        Text.join msgs "; ")

/-- `addrOf`: the control addresses of the nodes without a conflict. -/
def healthyAddrs (facts : List Discovery.NodeFacts) (conflicted : List (String × String)) :
    List (String × String) :=
  (facts.filter fun f => (lookupKey conflicted f.name).isNone).map fun f => (f.name, f.controlAddr)

/-- Take one node for the management service, unless there are enough or it has the role. -/
def takeReplica (want : Nat) (addrOf : List (String × String)) (chosen : List (String × String))
    (node : String) : List (String × String) :=
  match lookupKey addrOf node with
  | none => chosen
  | some addr =>
      if (chosen.any fun c => c.1 = node) || want ≤ chosen.length then chosen
      else chosen ++ [(node, addr)]

/-- The replicas: recorded nodes keep the role, then the first nodes by name fill up. -/
def chooseReplicas (want : Nat) (addrOf : List (String × String)) (recorded : List String)
    (facts : List Discovery.NodeFacts) : List (String × String) :=
  (recorded ++ facts.map (·.name)).foldl (takeReplica want addrOf) []

/-! ## Server configuration of a node -/

def withoutBdevList (miss : List String) : List String := miss.filter (· ≠ annotationBdevList)

def uniq (l : List String) : List String := Text.sortStrings l.dedup

/-- The accumulator of the loop over the engines. -/
structure EngineAcc where
  missing : List String := []
  fileHints : List String := []
  engines : List Render.Engine := []
  fabric : String := ""
  count : Nat := 0

def tierOf (i : Nat) (f : Discovery.NodeFacts) (t : BdevTierSpec × Nat) :
    List String × List String × Render.Tier :=
  let devs := Discovery.resolveTier t.1 t.2 f.ann
  let hints := if devs.isEmpty && t.1.cls = "file" then
      ["spec.engines[" ++ toString i ++ "].bdevTiers[" ++ toString t.2 ++ "].bdevList"] else []
  let miss := if devs.isEmpty && t.1.cls ≠ "file" then
      [annotationBdevListTierPrefix ++ toString t.2] else []
  (hints, miss, ⟨t.1.cls, t.1.roles, devs, t.1.bdevSizeGiB⟩)

def engineOf (f : Discovery.NodeFacts) (acc : EngineAcc) (e : EngineSpec × Nat) : EngineAcc :=
  let (spec, i) := e
  let r := Discovery.resolve spec f
  -- hostprep discovers drives, never files
  let filesMissing := spec.bdevClass = "file" ∧ spec.bdevTiers.isEmpty ∧ r.bdevs.isEmpty
  let miss := if filesMissing then withoutBdevList r.missing else r.missing
  let hints := if filesMissing then ["spec.engines[" ++ toString i ++ "].bdevList"] else []
  let port := if spec.fabricPort = 0 then 31316 else spec.fabricPort
  let tiers := spec.bdevTiers.zipIdx.map (tierOf i f)
  let tiered := !spec.bdevTiers.isEmpty
  let engine : Render.Engine :=
    { index := i, targets := spec.targets, helpers := helpersOf spec, fabricIface := r.fabric
      fabricPort := port + i * 100, pinnedNuma := r.numa, scmSizeGiB := spec.scmSizeGiB
      bdevs := r.bdevs, bdevClass := spec.bdevClass, bdevSizeGiB := spec.bdevSizeGiB
      tiers := tiers.map fun t => t.2.2 }
  { missing := acc.missing ++ (if tiered then withoutBdevList miss else miss) ++
      tiers.flatMap (fun t => t.2.1)
    fileHints := acc.fileHints ++ hints ++ tiers.flatMap (fun t => t.1)
    engines := acc.engines ++ [engine]
    fabric := r.fabric
    count := if tiered then (tiers.map fun t => t.2.2.bdevs.length).sum else r.bdevs.length }

/-- What a node's configuration waits for. -/
def missingMessage (acc : EngineAcc) : String :=
  let files := if acc.fileHints.isEmpty then [] else
    ["bdevClass file needs file paths, which no node fact provides: set " ++
      Text.join acc.fileHints ", " ++ " (e.g. [/var/daos/bdev0]) or annotate the node with " ++
      annotationBdevList]
  let facts := if acc.missing.isEmpty then [] else
    ["waiting for node facts: " ++ Text.join (uniq acc.missing) ", "]
  Text.join (files ++ facts) "; "

/-- The `ServerConfig` of a node. -/
def serverConfig (sys : DaosSystem) (msAddrs : List String) (engines : List Render.Engine) :
    Render.ServerConfig where
  label := sys.name
  systemName := systemName sys
  msReplicas := msAddrs
  port := controlPortOf sys
  provider := sys.spec.provider
  nrHugepages := hugepagesOf sys
  allowInsecure := sys.spec.allowInsecure
  telemetryPort := telemetryPort sys
  systemRamReservedGiB := sys.spec.systemRamReservedGiB
  disableVFIO := sys.spec.disableVFIO
  engines := engines

/-- The configuration of a node, or the reason it has none, with its status entry. -/
def renderNode (sys : DaosSystem) (msAddrs : List String) (conflicted : List (String × String))
    (f : Discovery.NodeFacts) : NodeConfigStatus × Option Render.ServerConfig :=
  let ncs : NodeConfigStatus := { node := f.name, controlAddr := f.controlAddr }
  match lookupKey conflicted f.name with
  | some dsn =>
      ({ ncs with message := "excluded: shares physical drive " ++ dsn ++ " with another node" },
        none)
  | none =>
      let acc := sys.spec.engines.zipIdx.foldl (engineOf f) {}
      let ncs := { ncs with fabricIface := acc.fabric, bdevCount := acc.count }
      if !acc.missing.isEmpty || !acc.fileHints.isEmpty then
        ({ ncs with message := missingMessage acc }, none)
      else
        match Render.server (serverConfig sys msAddrs acc.engines) with
        | .error e => ({ ncs with message := e }, none)
        | .ok cfg =>
            ({ ncs with configMap := sys.name ++ "-server-" ++ f.name, ready := true }, some cfg)

/-! ## Servers -/

/-- `serverReady`, with the reason when the server is not. -/
def serverReady (sys : DaosSystem) (ns node : String) : Op (Bool × String) :=
  (ask (.getStatefulSet ⟨ns, serverWorkloadName sys node⟩)).attempt.bind fun
    | .ok (some sts) =>
        if 1 ≤ sts.readyReplicas then .ret (true, "")
        else
          (ask (.listServerPods ns sys.name)).attempt.bind fun
            | .ok pods =>
                match pods.find? fun p => p.node = node with
                | some pod => .ret (false, pod.notReadyMessage)
                | none => .ret (false, "server pod not scheduled")
            | .error _ => .ret (false, "server pod not scheduled")
    | _ => .ret (false, "server workload not found")

def ensureServer (sys : DaosSystem) (ns node : String) : Op Unit :=
  let key : ObjectKey := ⟨ns, serverWorkloadName sys node⟩
  if serverEnabled sys then ask (.ensureStatefulSet key sys.spec.images.server)
  else ask (.deleteStatefulSet key)

/-- The accumulator of the loop over the nodes. -/
structure Rendering where
  nodeConfigs : List NodeConfigStatus := []
  rendered : Nat := 0
  allReady : Bool := true
  hostlist : List String := []
  serversNotReady : List String := []

/-- Publish the configuration of a node and run its server. -/
def runNode (sys : DaosSystem) (ns : String) (acc : Rendering) (f : Discovery.NodeFacts)
    (ncs : NodeConfigStatus) (cfg : Render.ServerConfig) : Op Rendering :=
  (ask (.upsertConfigMap ⟨ns, ncs.configMap⟩ (.server cfg))).bind fun _ =>
    ((ensureServer sys ns f.name).mapError fun e =>
      "server workload for " ++ f.name ++ ": " ++ e).bind fun _ =>
      let acc := { acc with
        rendered := acc.rendered + 1, hostlist := acc.hostlist ++ [f.controlAddr] }
      if serverEnabled sys then
        (serverReady sys ns f.name).bind fun (ready, why) =>
          let ncs := { ncs with
            workload := serverWorkloadName sys f.name, serverReady := ready }
          .ret { acc with
            nodeConfigs := acc.nodeConfigs ++ [ncs]
            serversNotReady :=
              if ready then acc.serversNotReady
              else acc.serversNotReady ++ [f.name ++ ": " ++ why] }
      else .ret { acc with nodeConfigs := acc.nodeConfigs ++ [ncs] }

def reconcileNode (sys : DaosSystem) (ns : String) (msAddrs : List String)
    (conflicted : List (String × String)) (acc : Rendering) (f : Discovery.NodeFacts) :
    Op Rendering :=
  -- disabling servers removes the workload even of a node that is excluded below
  (if serverEnabled sys then .ret () else ensureServer sys ns f.name).bind fun _ =>
    match renderNode sys msAddrs conflicted f with
    | (ncs, none) =>
        .ret { acc with allReady := false, nodeConfigs := acc.nodeConfigs ++ [ncs] }
    | (ncs, some cfg) => runNode sys ns acc f ncs cfg

/-! ## Conditions of a rendered system -/

/-- The condition `ConfigRendered`. -/
def setConfigRendered (r : Rendering) (nodes : Nat) (st : DaosSystemStatus) : DaosSystemStatus :=
  if r.allReady then
    setCond st .configRendered .isTrue "Rendered"
      (toString r.rendered ++ " server config(s) + agent + control")
  else
    setCond st .configRendered .isFalse "Partial"
      (toString r.rendered ++ " of " ++ toString nodes ++ " node(s) rendered; see nodeConfigs")

/-- The condition `ServersReady`, and how soon to look again. -/
def setServersReady (sys : DaosSystem) (r : Rendering) (st : DaosSystemStatus) :
    Duration × DaosSystemStatus :=
  if !serverEnabled sys then
    (0, setCond st .serversReady .isFalse "Disabled"
      "spec.server.enabled=false: configuration only, no server pods")
  else if r.rendered = 0 then
    (0, setCond st .serversReady .isFalse "NoWorkloads" "no node rendered yet")
  else if !r.serversNotReady.isEmpty then
    (requeueSlow, setCond st .serversReady .isFalse "PodsNotReady"
      (Text.join (Text.sortStrings r.serversNotReady) "; "))
  else
    (0, setCond st .serversReady .isTrue "AllReady"
      (toString r.rendered ++ " server pod(s) ready"))

/-- The condition `Ready`. -/
def setReady (sys : DaosSystem) (serversAllReady : Bool) (st : DaosSystemStatus) :
    DaosSystemStatus :=
  let joined := toString st.ranksJoined
  if !serverEnabled sys then
    setCond st .ready .isFalse "ServersDisabled" "spec.server.enabled=false"
  else if !serversAllReady then
    setCond st .ready .isFalse "ServersNotReady" "not every server pod is ready"
  else if st.pendingFormat && !st.formatted then
    setCond st .ready .isFalse "AwaitingFormat" "storage is not formatted; see condition Formatted"
  else if !st.formatted then
    setCond st .ready .isFalse "FormatUnknown"
      "management service state unknown; see condition Formatted"
  else if enginesReason st = "StaleMembers" then
    setCond st .ready .isFalse "StaleMembers" (joined ++ " ranks joined, but some are left from " ++
      "an earlier install on nodes without a server pod; see condition EnginesReady")
  else if 0 < st.ranksTotal ∧ st.ranksJoined = st.ranksTotal ∧ enginesDown st then
    setCond st .ready .isFalse "EnginesDown"
      (joined ++ " ranks joined, but not every engine registered; see condition EnginesReady")
  else if st.ranksTotal = 0 ∨ st.ranksJoined < st.ranksTotal then
    setCond st .ready .isFalse "RanksNotJoined"
      (joined ++ "/" ++ toString st.ranksTotal ++ " ranks joined" ++
        (if enginesDown st then
          "; see condition EnginesReady: server pods are up but engines are not" else ""))
  else setCond st .ready .isTrue "Ready" (joined ++ " ranks joined")

/-! ## The phases of a reconcile -/

/-- Steps 8 to 9: format and membership, rank operations, engines. -/
def operate (ns : String) (inp : FormatInput) (requeue : Duration) (p : Pass) : Op Duration :=
  (reconcileFormat inp p).bind fun (fmtRequeue, p) =>
    (reconcileRankOp ns p).bind fun (rankRequeue, p) =>
      let p := { p with status := setEnginesCondition p.sys p.status inp.serversAllReady }
      (reconcileEngineRestart ns p).bind fun (restartRequeue, p) =>
        let requeue := minRequeue (minRequeue (minRequeue requeue fmtRequeue) rankRequeue)
          restartRequeue
        updateStatus { p with status := setReady p.sys inp.serversAllReady p.status } requeue

/-- The conditions of a reconcile that ends in a restart. -/
def Pass.duringUpgrade (p : Pass) : Pass :=
  let why := (p.status.upgrade.map fun up => up.phase.text ++ ": " ++ up.message).getD ""
  (p.cond .ready .isFalse "Upgrading" why).cond .enginesReady .unknown "Upgrading"
    "engines are stopped and restarted by the upgrade"

/-- `nodeByAddr`: the last node of an address counts. -/
def nodeByAddr (facts : List Discovery.NodeFacts) : List (String × String) :=
  facts.foldl (fun m f => Discovery.mapSet m f.controlAddr f.name) []

/-- Steps 6 to 9 for a system whose nodes are rendered. -/
def afterRendering (ns : String) (facts : List Discovery.NodeFacts) (msAddrs : List String)
    (r : Rendering) (p : Pass) : Op Duration :=
  let sys := p.sys
  let port := controlPortOf sys
  (ask (.upsertConfigMap ⟨ns, sys.name ++ "-agent"⟩ (.agent (systemName sys) msAddrs port
    sys.spec.allowInsecure (clientIfaces sys)))).bind fun _ =>
  (ask (.upsertConfigMap ⟨ns, sys.name ++ "-control"⟩ (.control (systemName sys) r.hostlist port
    sys.spec.allowInsecure))).bind fun _ =>
  (ask (.ensureClientAgent sys.name ns)).bind fun agent =>
    let p := p.cond .clientAgent agent.status agent.reason agent.message
    let st := setConfigRendered r facts.length p.status
    let (requeue, st) := setServersReady sys r st
    (ask (.ensureTelemetry sys.name ns)).bind fun t =>
      let p := { p with status := setCond st .telemetry t.status t.reason t.message }
      (reconcileUpgrade ns r.rendered p).bind fun up =>
        let requeue := minRequeue requeue up.requeue
        if up.inProgress then updateStatus up.pass.duringUpgrade requeue
        else
          let serversAllReady := serverEnabled sys && 0 < r.rendered && r.serversNotReady.isEmpty
          operate ns ⟨ns, nodeByAddr facts, r.rendered, serversAllReady⟩ requeue up.pass

/-- Steps 2 to 9 for a system the operator runs. -/
def reconcileServers (ns : String) (nodes : List Node) (p : Pass) : Op Duration :=
  let facts := nodes.map Discovery.fromNode
  let conflicts := Discovery.driveConflicts facts
  let conflicted := conflictedNodes conflicts
  let want := msWant p.sys
  let replicas := chooseReplicas want (healthyAddrs facts conflicted)
    p.sys.status.msReplicaNodes facts
  let p := { p with status := { setDriveConflict conflicts p.status with
    msReplicaNodes := replicas.map (·.1) } }
  let msAddrs := replicas.map (·.2)
  if msAddrs.length < want then
    updateStatus ((p.cond .configRendered .isFalse "InsufficientHealthyNodes"
      ("only " ++ toString msAddrs.length ++ " conflict-free node(s) for msReplicas=" ++
        toString want)).cond .ready .isFalse "NotReady"
          "waiting for conflict-free nodes") requeueSlow
  else
    (ask (.ensureNamespace ns)).bind fun _ =>
      (ensureCerts ns p).bind fun (_, p) =>
        (Prog.foldList (reconcileNode p.sys ns msAddrs conflicted) facts {}).bind fun r =>
          afterRendering ns facts msAddrs r
            { p with status := { p.status with nodeConfigs := r.nodeConfigs } }

/-! ## Systems run elsewhere -/

/-- The conditions that do not apply to an external system. -/
def externalConditions (p : Pass) : Pass :=
  let p := p.cond .serversReady .isFalse "External" (if serverEnabled p.sys then
      "spec.externalMsReplicas is set: this system is run elsewhere, so no server pods are " ++
        "created (spec.server is ignored)"
    else "external system: no server pods")
  let p := p.cond .driveConflict .isFalse "NotApplicable"
    "external system: drives are not managed here"
  let p := p.cond .telemetry .isFalse "External"
    "external system: scrape its servers directly, there are no pods here"
  let p := p.cond .upgrading .isFalse "External"
    "external system: upgrades are done where the engines run"
  let p := p.cond .certificates .isFalse "External"
    ("external system: mount its certificates yourself; the operator does not generate them " ++
      "for a system it does not run")
  { p with status := { p.status with msReplicaNodes := [] } }

/-- The condition `Ready` of an external system. -/
def setExternalReady (st : DaosSystemStatus) : DaosSystemStatus :=
  if !st.formatted then
    setCond st .ready .isFalse "SystemUnavailable"
      "cannot read the external system yet; see condition Formatted"
  else if st.ranksTotal = 0 ∨ st.ranksJoined < st.ranksTotal then
    setCond st .ready .isFalse "RanksNotJoined"
      (toString st.ranksJoined ++ "/" ++ toString st.ranksTotal ++ " ranks joined")
  else
    setCond st .ready .isTrue "Ready"
      ("external system: " ++ toString st.ranksJoined ++ " ranks joined")

/-- `reconcileExternal` up to the membership, with `reconcileFormatExternal`. -/
def externalMembership (ns : String) (p : Pass) : Op (Duration × Pass) :=
  let p := externalConditions p
  let sys := p.sys
  let addrs := sys.spec.externalMsReplicas
  let port := controlPortOf sys
  (ask (.upsertConfigMap ⟨ns, sys.name ++ "-agent"⟩ (.agent (systemName sys) addrs port
    sys.spec.allowInsecure (clientIfaces sys)))).bind fun _ =>
  (ask (.upsertConfigMap ⟨ns, sys.name ++ "-control"⟩ (.control (systemName sys) addrs port
    sys.spec.allowInsecure))).bind fun _ =>
  (ask (.ensureClientAgent sys.name ns)).bind fun agent =>
    let p := p.cond .clientAgent agent.status agent.reason agent.message
    let p := p.cond .configRendered .isTrue "ExternalClientConfig"
      ("agent and control config for management service " ++ Text.join addrs ",")
    reconcileFormat ⟨ns, p.status.selectedNodes.map fun n => (n, n), 1, true⟩ p

def reconcileExternal (ns : String) (p : Pass) : Op Duration :=
  (externalMembership ns p).bind fun (requeue, p) =>
    (reconcileRankOp ns p).bind fun (rankRequeue, p) =>
      updateStatus { p with status := setExternalReady p.status } (minRequeue requeue rankRequeue)

/-! ## `Reconcile` -/

/-- Host preparation runs on whatever matches the selector. -/
def prepareHosts (sys : DaosSystem) (ns : String) (nodes : List Node) : Op Unit :=
  if nodes.isEmpty then .ret ()
  else
    (ask (.ensureNamespace ns)).bind fun _ =>
      if external sys then .ret () else ask (.ensureHostPrep sys.name ns)

def reconcileSystem (sys : DaosSystem) : Op Duration :=
  let ns := namespaceOf sys
  (ask (.listNodes sys.spec.nodeSelector)).bind fun nodes =>
    let nodes := nodes.insertionSort fun a b => a.name ≤ b.name
    let want := msWant sys
    let p : Pass := ⟨sys, carryStatus sys nodes⟩
    (prepareHosts sys ns nodes).bind fun _ =>
      if nodes.length < want then
        let p := p.cond .nodesSelected .isFalse "InsufficientNodes"
          (toString nodes.length ++ " node(s) match nodeSelector " ++
            Text.showMap sys.spec.nodeSelector ++ ", need at least msReplicas=" ++ toString want)
        let p := p.cond .configRendered .isFalse "Waiting" "no configuration rendered"
        updateStatus (p.cond .ready .isFalse "NotReady" "waiting for nodes") requeueSlow
      else
        let p := p.cond .nodesSelected .isTrue "Selected" (toString nodes.length ++ " node(s)")
        if external sys then reconcileExternal ns p
        else if sys.spec.engines.isEmpty then
          let p := p.cond .configRendered .isFalse "NoEngines"
            ("spec.engines is empty: define at least one engine, or set " ++
              "spec.externalMsReplicas to consume a DAOS system run elsewhere")
          updateStatus (p.cond .ready .isFalse "NotReady" "no engines defined") requeueSlow
        else reconcileServers ns nodes p

/-- `Reconcile` of the `DaosSystem` controller. -/
def reconcile (name : String) : Op Duration :=
  (ask (.getSystem name)).bind fun
    | none => .ret 0
    | some sys => if sys.deleting then .ret 0 else reconcileSystem sys

end DaosOperator.System
