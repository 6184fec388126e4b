import Mathlib.Data.List.Basic

/-!
# API objects of the operator

The custom resources `DaosSystem`, `DaosPool` and `DaosContainer` with the fields
their controllers read and write.  Times are seconds since the epoch, the
resolution in which the API server stores them; sizes and counters are integers.
Maps are association lists without a meaning for the order of their keys.
-/

namespace DaosOperator

/-- A time of the API, in seconds. -/
abbrev Time := Nat

/-- A duration, in seconds. -/
abbrev Duration := Nat

/-- The value of a key in a map of strings. -/
def lookupKey (m : List (String × String)) (k : String) : Option String :=
  (m.find? fun kv => kv.1 = k).map (·.2)

theorem isSome_lookupKey {m : List (String × String)} {k : String} :
    (lookupKey m k).isSome ↔ k ∈ m.map (·.1) := by
  simp [lookupKey]

theorem mem_of_lookupKey {m : List (String × String)} {k v : String}
    (h : lookupKey m k = some v) : (k, v) ∈ m := by
  obtain ⟨kv, hfind, rfl⟩ := Option.map_eq_some_iff.mp h
  have hkey : kv.1 = k := by simpa using List.find?_some hfind
  subst hkey
  exact List.mem_of_find?_eq_some hfind

/-! ## Conditions -/

/-- `metav1.ConditionStatus`. -/
inductive ConditionStatus where
  | isTrue
  | isFalse
  | unknown
  deriving DecidableEq

/-- The condition types of the three resources. -/
inductive ConditionType where
  | nodesSelected
  | driveConflict
  | configRendered
  | serversReady
  | enginesReady
  | formatted
  | managementService
  | telemetry
  | clientAgent
  | certificates
  | upgrading
  | ready
  | spaceLow
  | specMismatch
  | degraded
  deriving DecidableEq

/-- `metav1.Condition`; nothing reads its transition time. -/
structure Condition where
  type : ConditionType
  status : ConditionStatus
  reason : String
  message : String
  deriving DecidableEq

/-- `meta.SetStatusCondition`. -/
def setStatusCondition : List Condition → Condition → List Condition
  | [], c => [c]
  | d :: cs, c => if d.type = c.type then c :: cs else d :: setStatusCondition cs c

/-- `meta.FindStatusCondition`. -/
def findStatusCondition (cs : List Condition) (t : ConditionType) : Option Condition :=
  cs.find? fun c => c.type = t

theorem findStatusCondition_set_self (cs : List Condition) (c : Condition) :
    findStatusCondition (setStatusCondition cs c) c.type = some c := by
  induction cs with
  | nil => simp [setStatusCondition, findStatusCondition]
  | cons d cs ih =>
      unfold setStatusCondition
      split
      · simp [findStatusCondition]
      · next hd =>
          simp only [findStatusCondition, List.find?_cons, decide_eq_false hd] at ih ⊢
          exact ih

theorem findStatusCondition_set_of_ne (cs : List Condition) {c : Condition} {t : ConditionType}
    (h : c.type ≠ t) :
    findStatusCondition (setStatusCondition cs c) t = findStatusCondition cs t := by
  induction cs with
  | nil => simp [setStatusCondition, findStatusCondition, h]
  | cons d cs ih =>
      unfold setStatusCondition
      split
      · next hd =>
          have hne : d.type ≠ t := fun heq => h (hd.symm.trans heq)
          simp [findStatusCondition, h, hne]
      · simp only [findStatusCondition, List.find?_cons] at ih ⊢
        rw [ih]

/-- `meta.RemoveStatusCondition`. -/
def removeStatusCondition (cs : List Condition) (t : ConditionType) : List Condition :=
  cs.filter fun c => c.type ≠ t

/-- `meta.IsStatusConditionTrue`. -/
def isStatusConditionTrue (cs : List Condition) (t : ConditionType) : Bool :=
  (findStatusCondition cs t).any fun c => c.status = .isTrue

/-! ## DaosSystem -/

structure BdevTierSpec where
  cls : String := "nvme"
  roles : List String
  bdevList : List String := []
  bdevSizeGiB : Int := 0
  deriving DecidableEq

structure EngineSpec where
  targets : Int := 8
  helpers : Option Int := none
  fabricIface : String := ""
  fabricPort : Int := 31316
  bdevList : List String := []
  scmSizeGiB : Int := 32
  bdevClass : String := "nvme"
  bdevSizeGiB : Int := 0
  pinnedNumaNode : Option Int := none
  bdevTiers : List BdevTierSpec := []
  deriving DecidableEq

structure ImagesSpec where
  server : String := ""
  agent : String := ""
  admin : String := ""
  client : String := ""
  deriving DecidableEq

structure UpgradeSpec where
  approved : Bool := false
  timeoutMinutes : Int := 0
  deriving DecidableEq

structure DaosSystemSpec where
  version : String := ""
  systemName : String := ""
  ns : String := "daos-system"
  images : ImagesSpec := {}
  externalMsReplicas : List String := []
  nodeSelector : List (String × String) := []
  msReplicas : Int := 3
  provider : String := "ofi+verbs;ofi_rxm"
  nrHugepages : Option Int := none
  systemRamReservedGiB : Int := 0
  disableVFIO : Bool := false
  controlPort : Int := 10001
  engines : List EngineSpec := []
  allowInsecure : Bool := false
  serverEnabled : Option Bool := none
  includeFabricIfaces : Option (List String) := none
  renewBeforeDays : Int := 0
  telemetryEnabled : Option Bool := none
  telemetryPort : Int := 0
  upgrade : UpgradeSpec := {}
  deriving DecidableEq

structure FormatAttempt where
  time : Time
  hosts : List String
  succeeded : Bool
  message : String := ""
  deriving DecidableEq

structure RankStatus where
  rank : Int
  node : String
  state : String
  deriving DecidableEq

structure NodeConfigStatus where
  node : String
  configMap : String := ""
  controlAddr : String := ""
  fabricIface : String := ""
  bdevCount : Int := 0
  ready : Bool := false
  message : String := ""
  workload : String := ""
  serverReady : Bool := false
  deriving DecidableEq

/-- The phases of a full-stop restart. -/
inductive UpgradePhase where
  | pending
  | stopping
  | updating
  | starting
  | startingSystem
  | verifying
  | completed
  | failed
  deriving DecidableEq

/-- A phase as it is written in status. -/
def UpgradePhase.text : UpgradePhase → String
  | pending => "Pending"
  | stopping => "Stopping"
  | updating => "Updating"
  | starting => "Starting"
  | startingSystem => "StartingSystem"
  | verifying => "Verifying"
  | completed => "Completed"
  | failed => "Failed"

/-- Why the system is restarted. -/
inductive UpgradeTrigger where
  | imageChange
  | certificateRotation
  deriving DecidableEq

structure UpgradeStatus where
  trigger : UpgradeTrigger
  phase : UpgradePhase
  message : String := ""
  fromImage : String := ""
  toImage : String := ""
  startedAt : Option Time := none
  finishedAt : Option Time := none
  deriving DecidableEq

structure CertificatesStatus where
  secretName : String
  notAfter : Option Time := none
  rotatedAt : Option Time := none
  previousSecret : String := ""
  deriving DecidableEq

structure RankOpStatus where
  op : String
  ranks : String
  requestedAt : Option Time := none
  finishedAt : Option Time := none
  succeeded : Bool := false
  message : String := ""
  deriving DecidableEq

structure DaosSystemStatus where
  conditions : List Condition := []
  selectedNodes : List String := []
  lastFormat : Option FormatAttempt := none
  msReplicaNodes : List String := []
  nodeConfigs : List NodeConfigStatus := []
  formatted : Bool := false
  ranksJoined : Int := 0
  ranksTotal : Int := 0
  ranks : List RankStatus := []
  observedVersion : String := ""
  pendingFormat : Bool := false
  formatTime : Option Time := none
  lastQueryTime : Option Time := none
  upgrade : Option UpgradeStatus := none
  certificates : Option CertificatesStatus := none
  lastRankOp : Option RankOpStatus := none
  deriving DecidableEq

/-- The annotations of a `DaosSystem` the operator reads. -/
structure SystemAnnotations where
  formatApproved : Option String := none
  certsRenewApproved : Option String := none
  rankOp : Option String := none
  rankOpDiscardData : Option String := none
  deriving DecidableEq

structure DaosSystem where
  name : String
  annotations : SystemAnnotations := {}
  deleting : Bool := false
  spec : DaosSystemSpec := {}
  status : DaosSystemStatus := {}
  deriving DecidableEq

/-! ## DaosPool -/

/-- `DaosPoolSpec`; an absent `kvcache.redundancy` is `none`, the default of the CRD. -/
structure DaosPoolSpec where
  systemRef : String
  size : Int := 0
  ranks : List Int := []
  redundancyFactor : Option Int := none
  properties : List (String × String) := []
  acl : List String := []
  spaceWarningPercent : Option Int := none
  memRatioPercent : Option Int := none
  profile : String := ""
  /-- `spec.kvcache.redundancy` where `spec.kvcache` is present. -/
  kvcache : Option String := none
  deriving DecidableEq

/-- The operations of the pool and container controllers. -/
inductive Operation where
  | create
  | extend
  | acl
  | destroy
  | heal
  | reintMode
  | selfHeal
  deriving DecidableEq

/-- An operation as it is written in status and Job names. -/
def Operation.text : Operation → String
  | create => "create"
  | extend => "extend"
  | acl => "acl"
  | destroy => "destroy"
  | heal => "heal"
  | reintMode => "reintmode"
  | selfHeal => "selfheal"

/-- `DaosPoolStatus`; `operation` is empty when idle. -/
structure DaosPoolStatus where
  conditions : List Condition := []
  uuid : String := ""
  label : String := ""
  state : String := ""
  freeBytes : Int := 0
  totalBytes : Int := 0
  rebuildState : String := ""
  disabledTargets : Int := 0
  enabledRanks : List Int := []
  usedPercent : Int := 0
  operation : Option Operation := none
  observedGeneration : Nat := 0
  appliedACLHash : String := ""
  lastQueryTime : Option Time := none
  reintegrationMode : String := ""
  selfHeal : String := ""
  destroyAttempts : Int := 0
  deriving DecidableEq

/-- The annotations of a `DaosPool` the operator reads. -/
structure PoolAnnotations where
  destroyApproved : Option String := none
  autoClearUnclean : Option String := none
  deriving DecidableEq

structure DaosPool where
  name : String
  generation : Nat := 1
  annotations : PoolAnnotations := {}
  finalizer : Bool := false
  deleting : Bool := false
  spec : DaosPoolSpec
  status : DaosPoolStatus := {}
  deriving DecidableEq

/-! ## DaosContainer -/

structure DaosContainerSpec where
  poolRef : String
  type : String := "POSIX"
  fileOclass : String := "RP_2GX"
  dirOclass : String := "RP_2G1"
  chunkSize : Int := 4194304
  redundancyFactor : Option Int := none
  checksum : String := "crc32"
  properties : List (String × String) := []
  acl : List String := []
  label : String := ""
  deriving DecidableEq

structure DaosContainerStatus where
  conditions : List Condition := []
  uuid : String := ""
  poolUUID : String := ""
  ready : Bool := false
  health : String := ""
  type : String := ""
  operation : Option Operation := none
  observedGeneration : Nat := 0
  appliedACLHash : String := ""
  lastQueryTime : Option Time := none
  deriving DecidableEq

/-- A namespaced name. -/
structure ObjectKey where
  ns : String
  name : String
  deriving DecidableEq

structure DaosContainer where
  key : ObjectKey
  generation : Nat := 1
  /-- The annotation `destroy-approved`. -/
  destroyApproved : Option String := none
  finalizer : Bool := false
  deleting : Bool := false
  spec : DaosContainerSpec
  status : DaosContainerStatus := {}
  deriving DecidableEq

end DaosOperator
