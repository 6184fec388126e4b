import DaosOperator.Dmg.Runner

/-!
# The `DaosSystem` controller: shared pieces

Spec accessors with their documented defaults, condition updates, the Jobs a
system runs, and the writes that end a reconcile.  A reconcile works on its copy
of the object and on the status it is about to write; the two travel together as a
`Pass`.
-/

namespace DaosOperator

open Effect

namespace System

/-! ## Constants -/

def requeueSlow : Duration := 30
def requeueProbe : Duration := 10
def requeueMembership : Duration := 60
def requeueUpgrade : Duration := 15

def memberJoined : String := "joined"
def memberUnresponsive : String := "unresponsive"
def memberAwaitFormat : String := "awaitformat"

def annotationFormatApproved : String := "daos.gluesys.com/format-approved"
def annotationCertsRenewApproved : String := "daos.gluesys.com/certs-renew-approved"
def annotationRankOp : String := "daos.gluesys.com/rank-op"
def annotationRankOpDiscardData : String := "daos.gluesys.com/rank-op-discard-data"

/-! ## Accessors -/

def namespaceOf (sys : DaosSystem) : String :=
  if sys.spec.ns = "" then "daos-system" else sys.spec.ns

def external (sys : DaosSystem) : Bool := !sys.spec.externalMsReplicas.isEmpty

def serverEnabled (sys : DaosSystem) : Bool := sys.spec.serverEnabled.getD true

def systemName (sys : DaosSystem) : String :=
  if sys.spec.systemName = "" then "daos_server" else sys.spec.systemName

def hugepagesOf (sys : DaosSystem) : Int := sys.spec.nrHugepages.getD 8192

def helpersOf (e : EngineSpec) : Int := e.helpers.getD 2

def controlPortOf (sys : DaosSystem) : Int :=
  if 0 < sys.spec.controlPort then sys.spec.controlPort else 10001

def telemetryPort (sys : DaosSystem) : Int :=
  if sys.spec.telemetryEnabled.getD true then
    if 0 < sys.spec.telemetryPort then sys.spec.telemetryPort else 9191
  else 0

def clientIfaces (sys : DaosSystem) : List String :=
  match sys.spec.includeFabricIfaces with
  | some l => l
  | none =>
      sys.spec.engines.foldl (fun out e =>
        if e.fabricIface = "" || e.fabricIface ∈ out then out else out ++ [e.fabricIface]) []

def certsNeeded (sys : DaosSystem) : Bool := !sys.spec.allowInsecure

def certsSecretName (sys : DaosSystem) : String := sys.name ++ "-certs"

def adminCertsSecret (sys : DaosSystem) : String :=
  if certsNeeded sys then certsSecretName sys else ""

def serverWorkloadName (sys : DaosSystem) (node : String) : String :=
  sys.name ++ "-server-" ++ node

/-- `minRequeue`: 0 stands for no requeue. -/
def minRequeue (a b : Duration) : Duration :=
  if a = 0 then b else if b = 0 then a else if a < b then a else b

/-! ## Conditions -/

def setCond (st : DaosSystemStatus) (t : ConditionType) (v : ConditionStatus)
    (reason msg : String) : DaosSystemStatus :=
  { st with conditions := setStatusCondition st.conditions ⟨t, v, reason, msg⟩ }

def findCond (st : DaosSystemStatus) (t : ConditionType) : Option Condition :=
  findStatusCondition st.conditions t

theorem findCond_setCond_self (st : DaosSystemStatus) (t : ConditionType) (v : ConditionStatus)
    (reason msg : String) : findCond (setCond st t v reason msg) t = some ⟨t, v, reason, msg⟩ :=
  findStatusCondition_set_self st.conditions ⟨t, v, reason, msg⟩

theorem findCond_setCond_of_ne (st : DaosSystemStatus) {t t' : ConditionType} (h : t ≠ t')
    (v : ConditionStatus) (reason msg : String) :
    findCond (setCond st t v reason msg) t' = findCond st t' :=
  findStatusCondition_set_of_ne st.conditions (c := ⟨t, v, reason, msg⟩) h

/-- A reconcile's copy of the object and the status it is about to write. -/
structure Pass where
  sys : DaosSystem
  status : DaosSystemStatus

def Pass.cond (p : Pass) (t : ConditionType) (v : ConditionStatus) (reason msg : String) : Pass :=
  { p with status := setCond p.status t v reason msg }

/-! ## Jobs -/

/-- The Jobs a system runs. -/
inductive JobKind where
  | query
  | format
  | rankOp
  | stop
  | start
  | verify
  | engineStart
  deriving DecidableEq

def JobKind.suffix : JobKind → String
  | query => "-dmg-query"
  | format => "-dmg-format"
  | rankOp => "-dmg-rankop"
  | stop => "-dmg-stop"
  | start => "-dmg-start"
  | verify => "-dmg-verify"
  | engineStart => "-dmg-enginestart"

/-- Namespace and name of a system's Job. -/
def jobKey (name ns : String) (kind : JobKind) : ObjectKey := ⟨ns, name ++ kind.suffix⟩

/-- The `RunSpec` of `runDmgThen`. -/
def jobSpec (sys : DaosSystem) (ns : String) (kind : JobKind) (command : Dmg.Command) :
    Dmg.RunSpec where
  owner := .system sys.name
  key := jobKey sys.name ns kind
  image := sys.spec.images.admin
  controlConfigMap := sys.name ++ "-control"
  command := command
  nodeSelector := sys.spec.nodeSelector
  labels := [("daos.gluesys.com/system", sys.name)]
  certsSecret := adminCertsSecret sys

def membershipQueryTimeout : Nat := 60

def runDmg (sys : DaosSystem) (ns : String) (kind : JobKind) (args : List String) :
    Op Dmg.Result :=
  Dmg.run (jobSpec sys ns kind (.dmg args))

/-- `runDmgThen`: a second command in the same pod bounds the first one. -/
def runDmgThen (sys : DaosSystem) (ns : String) (kind : JobKind) (andThen args : List String) :
    Op Dmg.Result :=
  Dmg.run (jobSpec sys ns kind (.dmg args andThen membershipQueryTimeout))

def parseResult (res : Dmg.Result) : Except String Dmg.Envelope :=
  if res.failure ≠ "" && res.output = "" then .error ("job failed: " ++ res.failure)
  else Dmg.parse res.output

/-! ## Writes -/

/-- Apply a patch and refresh the copy of the object. -/
def patch (sys : DaosSystem) (p : SystemPatch) : Op DaosSystem :=
  (ask (.patchSystem sys.name p)).bind fun _ => .ret (p.apply sys)

def event (sys : DaosSystem) (warning : Bool) (reason msg : String) : Op Unit :=
  ask (.event (.system sys.name) warning reason msg)

/-- `updateStatus`: the status replaces the stored one. -/
def updateStatus (p : Pass) (requeue : Duration) : Op Duration :=
  (ask (.updateSystemStatus p.sys.name p.status)).bind fun _ => .ret requeue

end System
end DaosOperator
