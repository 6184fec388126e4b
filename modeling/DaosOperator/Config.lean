import DaosOperator.Api
import DaosOperator.Text

/-!
# Node facts and server configuration

What the operator knows about a node (`internal/discovery`), which nodes it
excludes because they share a drive, and the server configuration it renders for
the others (`internal/render`).  A rendered file is kept as the values it is
filled with.
-/

namespace DaosOperator

/-! ## Nodes and their facts -/

/-- The fields of a Kubernetes node the operator reads. -/
structure Node where
  name : String
  labels : List (String × String) := []
  annotations : List (String × String) := []
  /-- Type and address. -/
  addresses : List (String × String) := []
  deriving DecidableEq

/-- `client.MatchingLabels`. -/
def Node.matches (n : Node) (selector : List (String × String)) : Bool :=
  selector.all fun kv => lookupKey n.labels kv.1 = some kv.2

def annotationFabricIface : String := "daos.gluesys.com/fabric-iface"
def annotationBdevList : String := "daos.gluesys.com/bdev-list"
def annotationBdevListTierPrefix : String := "daos.gluesys.com/bdev-list-"
def annotationBdevDSN : String := "daos.gluesys.com/bdev-dsn"
def annotationNumaNode : String := "daos.gluesys.com/numa-node"
def annotationControlAddr : String := "daos.gluesys.com/control-addr"

namespace Discovery

structure NodeFacts where
  name : String
  controlAddr : String
  fabricIface : String
  ann : List (String × String)
  bdevs : List String
  /-- PCI address to serial. -/
  dsn : List (String × String)
  numaNode : Option Int
  deriving DecidableEq

def splitList (s : String) : List String :=
  ((Text.split s ',').map Text.trimSpace).filter (· ≠ "")

/-- Write one entry of a Go map. -/
def mapSet (m : List (String × String)) (k v : String) : List (String × String) :=
  m.filter (fun kv => kv.1 ≠ k) ++ [(k, v)]

/-- The serials of the annotation `bdev-dsn`. -/
def parseDSNs (s : String) : List (String × String) :=
  (splitList s).foldl (fun m kv =>
    match Text.cut kv '=' with
    | some (pci, serial) =>
        if pci = "" then m else mapSet m (Text.trimSpace pci) (Text.trimSpace serial)
    | none => m) []

/-- The annotation `numa-node`; the accumulator is an `int32`. -/
def parseNuma (v : String) : Option Int :=
  let cs := v.toList
  if cs.isEmpty then none
  else if cs.all fun c => (Text.digit? c).isSome then
    let numa := cs.foldl (fun n c => Text.toInt32 (10 * n + (Text.digit? c).getD 0)) (0 : Int)
    if 0 ≤ numa then some numa else none
  else none

/-- `FromNode`. -/
def fromNode (n : Node) : NodeFacts :=
  let ann (k : String) : String := (lookupKey n.annotations k).getD ""
  let addr := Text.trimSpace (ann annotationControlAddr)
  let internalIP := ((n.addresses.find? fun a => a.1 = "InternalIP").map (·.2)).getD ""
  let addr := if addr ≠ "" then addr else internalIP
  { name := n.name
    controlAddr := if addr ≠ "" then addr else n.name
    fabricIface := Text.trimSpace (ann annotationFabricIface)
    ann := n.annotations
    bdevs := splitList (ann annotationBdevList)
    dsn := parseDSNs (ann annotationBdevDSN)
    numaNode := parseNuma (Text.trimSpace (ann annotationNumaNode)) }

def addSeen (seen : List (String × List String)) (serial node : String) :
    List (String × List String) :=
  if seen.any fun e => e.1 = serial then
    seen.map fun e => if e.1 = serial then (e.1, e.2 ++ [node]) else e
  else seen ++ [(serial, [node])]

/-- `DriveConflicts`: serials seen more than once, with the nodes that show them. -/
def driveConflicts (facts : List NodeFacts) : List (String × List String) :=
  let seen := facts.foldl (fun seen f =>
    (f.dsn.filter fun e => e.2 ≠ "").foldl (fun seen e => addSeen seen e.2 f.name) seen) []
  (seen.filter fun e => 1 < e.2.length).map fun e => (e.1, Text.sortStrings e.2)

/-- `ResolveTier`. -/
def resolveTier (tier : BdevTierSpec) (index : Nat) (ann : List (String × String)) :
    List String :=
  let listed (k : String) := splitList ((lookupKey ann k).getD "")
  if !tier.bdevList.isEmpty then tier.bdevList
  else
    let own := listed (annotationBdevListTierPrefix ++ toString index)
    if !own.isEmpty then own
    else if index = 0 then listed annotationBdevList
    else []

/-- The result of `Resolve`. -/
structure Resolved where
  fabric : String
  bdevs : List String
  numa : Option Int
  missing : List String

/-- `Resolve`. -/
def resolve (spec : EngineSpec) (f : NodeFacts) : Resolved :=
  let fabric := if spec.fabricIface = "" then f.fabricIface else spec.fabricIface
  let bdevs := if spec.bdevList.isEmpty then f.bdevs else spec.bdevList
  { fabric
    bdevs
    numa := if spec.pinnedNumaNode.isNone then f.numaNode else spec.pinnedNumaNode
    missing := (if fabric = "" then [annotationFabricIface] else []) ++
      (if bdevs.isEmpty then [annotationBdevList] else []) }

end Discovery

/-! ## Rendered configuration -/

namespace Render

structure Tier where
  cls : String
  roles : List String
  bdevs : List String
  sizeGiB : Int
  deriving DecidableEq

structure Engine where
  index : Int
  targets : Int
  helpers : Int
  fabricIface : String
  fabricPort : Int
  pinnedNuma : Option Int
  scmSizeGiB : Int
  bdevs : List String
  bdevClass : String
  bdevSizeGiB : Int
  tiers : List Tier
  deriving DecidableEq

structure ServerConfig where
  label : String
  systemName : String
  msReplicas : List String
  port : Int
  provider : String
  nrHugepages : Int
  allowInsecure : Bool
  telemetryPort : Int
  systemRamReservedGiB : Int
  disableVFIO : Bool
  engines : List Engine
  deriving DecidableEq

def checkRole (engine : Int) (tier : Nat) (seen : List String) (r : String) :
    Except String (List String) :=
  if r = "wal" || r = "meta" || r = "data" then
    if r ∈ seen then
      .error ("render: engine " ++ toString engine ++ ": role " ++ Text.quote r ++
        " appears in more than one tier")
    else .ok (seen ++ [r])
  else .error ("render: engine " ++ toString engine ++ " tier " ++ toString tier ++
    ": unknown bdev role " ++ Text.quote r ++ " (want wal, meta or data)")

def checkTier (engine : Int) (seen : List String) (t : Tier × Nat) :
    Except String (List String) :=
  let place := "render: engine " ++ toString engine ++ " tier " ++ toString t.2
  if t.1.bdevs.isEmpty then .error (place ++ " needs bdev_list")
  else if t.1.roles.isEmpty then .error (place ++ " needs bdev_roles")
  else t.1.roles.foldlM (checkRole engine t.2) seen

/-- One engine of a server configuration. -/
def checkEngine (e : Engine) : Except String Engine :=
  let place := "render: engine " ++ toString e.index
  if e.fabricIface = "" then .error (place ++ " needs fabric_iface")
  else if e.tiers.isEmpty then
    if e.bdevs.isEmpty then .error (place ++ " needs bdev_list")
    else .ok { e with bdevClass := if e.bdevClass = "" then "nvme" else e.bdevClass }
  else do
    let seen ← e.tiers.zipIdx.foldlM (checkTier e.index) []
    match ["wal", "meta", "data"].find? fun r => r ∉ seen with
    | some r => .error (place ++ ": no tier carries role " ++ Text.quote r)
    | none =>
        .ok { e with tiers := e.tiers.map fun t =>
          { t with cls := if t.cls = "" then "nvme" else t.cls } }

/-- `Server`: the values of `daos_server.yml`, or the reason there is none. -/
def server (c : ServerConfig) : Except String ServerConfig :=
  if c.systemName = "" || c.msReplicas.isEmpty || c.engines.isEmpty then
    .error "render: system name, mgmt_svc_replicas and at least one engine are required"
  else
    (c.engines.mapM checkEngine).map fun engines =>
      { c with label := if c.label = "" then c.systemName else c.label, engines }

/-- The three files the operator renders. -/
inductive ConfigFile where
  /-- `daos_server.yml`. -/
  | server (config : ServerConfig)
  /-- `daos_agent.yml`. -/
  | agent (systemName : String) (accessPoints : List String) (port : Int)
      (allowInsecure : Bool) (includeIfaces : List String)
  /-- `daos_control.yml`. -/
  | control (systemName : String) (hostlist : List String) (port : Int) (allowInsecure : Bool)
  deriving DecidableEq

end Render
end DaosOperator
