import DaosOperator.Config
import DaosOperator.Dmg.Command
import DaosOperator.Effect.Exec
import DaosOperator.Effect.Table

/-!
# The cluster the operator works on

The state of the API server as far as the controllers read or write it, the
operator's own memory, and the calls that connect the two.  Every call that leaves
the process can fail; time, memory and events cannot.

Custom resources are watched cells: the `DaosSystem` controller reads its object
from the API server, everything else reads the informer cache.  The controllers read Jobs
and their pods through the cache too; these reads are taken as current.
-/

namespace DaosOperator

open Effect

/-! ## Objects -/

/-- A server pod with the labels the operator selects by. -/
structure ServerPod where
  key : ObjectKey
  system : String
  node : String
  /-- Container names and images. -/
  containers : List (String × String)
  /-- The deletion timestamp is set. -/
  terminating : Bool := false
  /-- The condition `Ready` of the pod. -/
  readyCondition : Bool := false
  /-- What `podNotReadyMessage` says about the pod. -/
  notReadyMessage : String := ""
  deriving DecidableEq

/-- The StatefulSet of one node's server. -/
structure StatefulSet where
  readyReplicas : Int := 0
  /-- The image of the pod template. -/
  image : String
  deriving DecidableEq

/-- A set of transport certificates; two generated bundles never have the same id. -/
structure Bundle where
  id : Nat
  notAfter : Time
  /-- Why `certs.Verify` rejects the bundle at any time. -/
  defect : Option String := none
  deriving DecidableEq

/-- `certs.Verify`. -/
def Bundle.verify (b : Bundle) (now : Time) : Except String Time :=
  match b.defect with
  | some why => .error why
  | none =>
      if now ≤ b.notAfter then .ok b.notAfter
      else .error "server.crt: x509: certificate has expired or is not yet valid"

/-- A condition of a Job. -/
inductive JobCondition where
  | complete (isTrue : Bool)
  | failed (isTrue : Bool) (reason message : String)
  | other
  deriving DecidableEq

/-- A pod of a Job. -/
structure JobPod where
  name : String
  created : Time
  /-- Exit code and start time of the terminated container `dmg`. -/
  terminated : Option (Int × Time) := none
  log : String := ""
  deriving DecidableEq

/-- A Job. -/
structure Job where
  uid : Nat
  spec : Dmg.RunSpec
  created : Time
  conditions : List JobCondition := []
  /-- The deletion timestamp is set. -/
  deleting : Bool := false
  pods : List JobPod := []
  deriving DecidableEq

/-- `engineRestartTrack`. -/
structure EngineTrack where
  downSince : Time
  lastTry : Time := 0
  tries : Nat := 0
  gaveUp : Bool := false
  deriving DecidableEq

/-- What the operator keeps in memory about one system's engines. -/
structure EngineMemory where
  tracks : Table Int EngineTrack := Table.empty
  /-- The rank set of the start Job in flight. -/
  running : String := ""

/-- The operator's memory; a restart empties it. -/
structure Memory where
  probeNext : Table String Time := Table.empty
  engines : Table String EngineMemory := Table.empty
  rfPending : Table String Time := Table.empty

/-- Status, reason and message of a condition. -/
structure Report where
  status : ConditionStatus
  reason : String
  message : String
  deriving DecidableEq

/-- What DAOS has under a pool label. -/
structure DaosPoolFact where
  /-- The ranks the pool was created on or extended to. -/
  ranks : List Int
  /-- The pool was created with `rd_fac:0`. -/
  unprotected : Bool
  deriving DecidableEq

/-- The state of the world. -/
structure World where
  clock : Time := 0
  systems : Table String (Watched DaosSystem) := Table.empty
  pools : Table String (Watched DaosPool) := Table.empty
  containers : Table ObjectKey (Watched DaosContainer) := Table.empty
  nodes : List Node := []
  serverPods : List ServerPod := []
  statefulSets : Table ObjectKey StatefulSet := Table.empty
  secrets : Table ObjectKey Bundle := Table.empty
  configMaps : Table ObjectKey Render.ConfigFile := Table.empty
  jobs : Table ObjectKey Job := Table.empty
  /-- The next uid of a Job and the next id of a bundle. -/
  nextId : Nat := 0
  /-- What `ensureTelemetry` and `setClientAgentCondition` report. -/
  telemetry : Report := ⟨.isFalse, "Disabled", "telemetry disabled or no server workloads"⟩
  clientAgent : Report := ⟨.isFalse, "Disabled", "spec.clientAgent.enabled is false"⟩
  /-- The pools of each DAOS system by label.  No call of the operator reads them. -/
  daosPools : Table (String × String) DaosPoolFact := Table.empty
  memory : Memory := {}

/-- The object of a table of watched cells as the API server has it. -/
def stored {K α : Type} (t : Table K (Watched α)) (k : K) : Option α :=
  (t.get k).bind Watched.stored

/-- The object of a table of watched cells as the cache has it. -/
def cached {K α : Type} (t : Table K (Watched α)) (k : K) : Option α :=
  (t.get k).bind Watched.cached

/-- Change an existing object; the cache falls behind. -/
def modify {K α : Type} [DecidableEq K] (t : Table K (Watched α)) (k : K) (f : α → Option α) :
    Table K (Watched α) :=
  match t.get k with
  | none => t
  | some c =>
      match c.stored with
      | none => t
      | some a => t.put k (some (c.write (f a)))

/-- Every version of an object that a reader can still see. -/
def versions {K α : Type} (t : Table K (Watched α)) (k : K) : List (Option α) :=
  ((t.get k).map Watched.versions).getD []

section Watched

variable {K α : Type} {t : Table K (Watched α)} {k k' : K} {f : α → Option α}

theorem stored_mem_versions {a : α} (h : stored t k = some a) : some a ∈ versions t k := by
  unfold stored at h
  unfold versions
  cases hc : t.get k with
  | none => simp [hc] at h
  | some c =>
      rw [hc] at h
      rw [← h]
      exact c.stored_mem_versions

theorem cached_mem_versions {a : α} (h : cached t k = some a) : some a ∈ versions t k := by
  unfold cached at h
  unfold versions
  cases hc : t.get k with
  | none => simp [hc] at h
  | some c =>
      rw [hc] at h
      rw [← h]
      exact c.cached_mem_versions

/-- The cell of a name, vacant if the name was never used. -/
def cellOf (t : Table K (Watched α)) (k : K) : Watched α := (t.get k).getD Watched.vacant

theorem stored_cellOf : (cellOf t k).stored = stored t k := by
  unfold cellOf stored
  cases t.get k <;> rfl

theorem mem_versions_cellOf {a : α} : some a ∈ (cellOf t k).versions ↔ some a ∈ versions t k := by
  unfold cellOf versions
  cases t.get k <;> simp [Watched.versions, Watched.vacant]

variable [DecidableEq K]

theorem modify_get_of_ne (h : k' ≠ k) : (modify t k f).get k' = t.get k' := by
  unfold modify
  split
  · rfl
  · split
    · rfl
    · exact t.get_put_of_ne h _

theorem stored_modify_self : stored (modify t k f) k = (stored t k).bind f := by
  unfold stored modify
  cases hc : t.get k with
  | none => simp [hc]
  | some c =>
      cases ha : c.stored with
      | none => simp [hc, ha]
      | some a => simp [ha, Watched.write]

theorem stored_modify_of_ne (h : k' ≠ k) : stored (modify t k f) k' = stored t k' := by
  unfold stored
  rw [modify_get_of_ne h]

theorem mem_versions_modify {x : Option α} (h : x ∈ versions (modify t k f) k') :
    x ∈ versions t k' ∨ k' = k ∧ ∃ a, stored t k = some a ∧ x = f a := by
  by_cases hk : k' = k
  · subst hk
    unfold modify versions at h
    cases hc : t.get k' with
    | none => simp [hc] at h
    | some c =>
        cases ha : c.stored with
        | none =>
            simp only [hc, ha] at h
            exact Or.inl (by simpa [versions, hc] using h)
        | some a =>
            simp only [hc, ha, Table.get_put_self, Option.map_some, Option.getD_some,
              Watched.mem_versions_write] at h
            rcases h with h | h
            · exact Or.inl (by simpa [versions, hc] using h)
            · exact Or.inr ⟨rfl, a, by simp [stored, hc, ha], h⟩
  · left
    unfold versions at h ⊢
    rwa [modify_get_of_ne hk] at h

end Watched

/-! ## Calls -/

/-- The patches the operator applies to a `DaosSystem`. -/
inductive SystemPatch where
  /-- `clearApproval`. -/
  | removeFormatApproved
  /-- `clearRankOp`. -/
  | removeRankOp
  /-- `clearCertsApproval`. -/
  | removeCertsRenewApproved
  /-- `resetApproval`. -/
  | resetUpgradeApproved
  deriving DecidableEq

/-- The effect of a patch. -/
def SystemPatch.apply (sys : DaosSystem) : SystemPatch → DaosSystem
  | removeFormatApproved =>
      { sys with annotations := { sys.annotations with formatApproved := none } }
  | removeRankOp =>
      { sys with
        annotations := { sys.annotations with rankOp := none, rankOpDiscardData := none } }
  | removeCertsRenewApproved =>
      { sys with annotations := { sys.annotations with certsRenewApproved := none } }
  | resetUpgradeApproved =>
      { sys with spec := { sys.spec with upgrade := { sys.spec.upgrade with approved := false } } }

/-- The object an event is recorded on. -/
inductive EventObject where
  | system (name : String)
  | pool (name : String)
  | container (key : ObjectKey)
  deriving DecidableEq

/-- What the controllers ask of the cluster and of their own process. -/
inductive Call where
  | getSystem (name : String)
  | getSystemCached (name : String)
  | updateSystemStatus (name : String) (status : DaosSystemStatus)
  | patchSystem (name : String) (patch : SystemPatch)
  | getPool (name : String)
  | listPools
  | updatePoolStatus (name : String) (status : DaosPoolStatus)
  | setPoolFinalizer (name : String) (present : Bool)
  | getContainer (key : ObjectKey)
  | updateContainerStatus (key : ObjectKey) (status : DaosContainerStatus)
  | setContainerFinalizer (key : ObjectKey) (present : Bool)
  | listNodes (selector : List (String × String))
  | ensureNamespace (ns : String)
  | ensureHostPrep (system ns : String)
  | ensureTelemetry (system ns : String)
  | ensureClientAgent (system ns : String)
  | upsertConfigMap (key : ObjectKey) (file : Render.ConfigFile)
  | ensureStatefulSet (key : ObjectKey) (image : String)
  | deleteStatefulSet (key : ObjectKey)
  | getStatefulSet (key : ObjectKey)
  | listServerPods (ns system : String)
  | deletePod (key : ObjectKey)
  | getSecret (key : ObjectKey)
  | createSecret (key : ObjectKey) (bundle : Bundle)
  | putSecret (key : ObjectKey) (bundle : Bundle)
  | generateCerts
  | getJob (key : ObjectKey)
  | createJob (spec : Dmg.RunSpec)
  | listJobPods (key : ObjectKey)
  | podLogs (key : ObjectKey) (pod : JobPod)
  | deleteJob (key : ObjectKey)
  | now
  | holdFor (key : String)
  | setHold (key : String) (interval : Duration)
  | clearHold (key : String)
  | engineMemory (system : String)
  | setEngineMemory (system : String) (m : EngineMemory)
  | rfPendingSince (key : String)
  | rfPendingSet (key : String) (t : Time)
  | rfPendingClear (key : String)
  | event (on : EventObject) (warning : Bool) (reason message : String)

/-- The answers of the calls. -/
abbrev Answer : Call → Type
  | .getSystem _ | .getSystemCached _ => Option DaosSystem
  | .getPool _ => Option DaosPool
  | .listPools => List DaosPool
  | .getContainer _ => Option DaosContainer
  | .setPoolFinalizer _ _ | .setContainerFinalizer _ _ => Except String Unit
  | .listNodes _ => List Node
  | .ensureTelemetry _ _ | .ensureClientAgent _ _ => Report
  | .getStatefulSet _ => Option StatefulSet
  | .listServerPods _ _ => List ServerPod
  | .getSecret _ => Option Bundle
  | .generateCerts => Bundle
  | .getJob _ => Option Job
  | .listJobPods _ => List JobPod
  | .podLogs _ _ => String
  | .now => Time
  | .holdFor _ => Duration
  | .engineMemory _ => EngineMemory
  | .rfPendingSince _ => Option Time
  -- whether the object still exists
  | .updatePoolStatus _ _ | .updateContainerStatus _ _ => Bool
  | _ => Unit

/-- A program of the operator. -/
abbrev Op (α : Type) := Prog Call Answer α

/-- Issue a call; its failure ends the program. -/
abbrev ask (c : Call) : Op (Answer c) := Prog.ask c

/-! ## The handler -/

/-- How long a generated bundle is valid. -/
def certsValidity : Duration := 1095 * 24 * 3600

/-- `labels` of the server pods of a system. -/
def World.serverPodsOf (w : World) (ns system : String) : List ServerPod :=
  w.serverPods.filter fun p => p.key.ns = ns ∧ p.system = system

/-- Mark the pods of a key as terminating. -/
def markTerminating (key : ObjectKey) (pods : List ServerPod) : List ServerPod :=
  pods.map fun p => if p.key = key then { p with terminating := true } else p

/-- `r.Update` of an object read from the cache, with a finalizer set or removed: a
conflict unless the cache is up to date.  A deleted object without finalizer is gone. -/
def setFinalizer {K α : Type} [DecidableEq K] (t : Table K (Watched α)) (k : K)
    (set : α → α) (gone : α → Bool) : Except String Unit × Table K (Watched α) :=
  match t.get k with
  | none => (.error "not found", t)
  | some c =>
      match c.stored, c.behind with
      | none, _ => (.error "not found", t)
      | some _, _ :: _ => (.error "the object has been modified", t)
      | some a, [] =>
          (.ok (), t.put k (some (c.write (if gone (set a) then none else some (set a)))))

/-- The effect of a call on the world. -/
def perform : (c : Call) → World → Answer c × World
  | .getSystem name, w => (stored w.systems name, w)
  | .getSystemCached name, w => (cached w.systems name, w)
  | .updateSystemStatus name status, w =>
      ((), { w with systems := modify w.systems name fun s => some { s with status } })
  | .patchSystem name patch, w =>
      ((), { w with systems := modify w.systems name fun s => some (patch.apply s) })
  | .getPool name, w => (cached w.pools name, w)
  | .listPools, w => (w.pools.entries.filterMap fun e => e.2.cached, w)
  | .updatePoolStatus name status, w =>
      ((stored w.pools name).isSome,
        { w with pools := modify w.pools name fun p => some { p with status } })
  | .setPoolFinalizer name present, w =>
      let r := setFinalizer w.pools name (fun p => { p with finalizer := present })
        fun p => p.deleting && !p.finalizer
      (r.1, { w with pools := r.2 })
  | .getContainer key, w => (cached w.containers key, w)
  | .updateContainerStatus key status, w =>
      ((stored w.containers key).isSome,
        { w with containers := modify w.containers key fun c => some { c with status } })
  | .setContainerFinalizer key present, w =>
      let r := setFinalizer w.containers key (fun c => { c with finalizer := present })
        fun c => c.deleting && !c.finalizer
      (r.1, { w with containers := r.2 })
  | .listNodes selector, w => (w.nodes.filter fun n => n.matches selector, w)
  | .ensureNamespace _, w => ((), w)
  | .ensureHostPrep _ _, w => ((), w)
  | .ensureTelemetry _ _, w => (w.telemetry, w)
  | .ensureClientAgent _ _, w => (w.clientAgent, w)
  | .upsertConfigMap key file, w =>
      ((), { w with configMaps := w.configMaps.put key (some file) })
  | .ensureStatefulSet key image, w =>
      let readyReplicas := ((w.statefulSets.get key).map (·.readyReplicas)).getD 0
      ((), { w with statefulSets := w.statefulSets.put key (some { readyReplicas, image }) })
  | .deleteStatefulSet key, w =>
      ((), { w with statefulSets := w.statefulSets.put key none })
  | .getStatefulSet key, w => (w.statefulSets.get key, w)
  | .listServerPods ns system, w => (w.serverPodsOf ns system, w)
  | .deletePod key, w => ((), { w with serverPods := markTerminating key w.serverPods })
  | .getSecret key, w => (w.secrets.get key, w)
  | .createSecret key bundle, w =>
      ((), { w with secrets := w.secrets.put key (some ((w.secrets.get key).getD bundle)) })
  | .putSecret key bundle, w => ((), { w with secrets := w.secrets.put key (some bundle) })
  | .generateCerts, w =>
      (⟨w.nextId, w.clock + certsValidity, none⟩, { w with nextId := w.nextId + 1 })
  | .getJob key, w => (w.jobs.get key, w)
  | .createJob spec, w =>
      match w.jobs.get spec.key with
      -- a Job of that name exists: the caller takes that for success
      | some _ => ((), w)
      | none =>
          ((), { w with
            jobs := w.jobs.put spec.key (some ⟨w.nextId, spec, w.clock, [], false, []⟩)
            nextId := w.nextId + 1 })
  | .listJobPods key, w => (((w.jobs.get key).map (·.pods)).getD [], w)
  | .podLogs _ pod, w => (pod.log, w)
  | .deleteJob key, w =>
      match w.jobs.get key with
      | none => ((), w)
      | some job => ((), { w with jobs := w.jobs.put key (some { job with deleting := true }) })
  | .now, w => (w.clock, w)
  | .holdFor key, w => (((w.memory.probeNext.get key).getD 0) - w.clock, w)
  | .setHold key interval, w =>
      ((), { w with memory := { w.memory with
        probeNext := w.memory.probeNext.put key (some (w.clock + interval)) } })
  | .clearHold key, w =>
      ((), { w with memory := { w.memory with probeNext := w.memory.probeNext.put key none } })
  | .engineMemory system, w => ((w.memory.engines.get system).getD {}, w)
  | .setEngineMemory system m, w =>
      ((), { w with memory := { w.memory with engines := w.memory.engines.put system (some m) } })
  | .rfPendingSince key, w => (w.memory.rfPending.get key, w)
  | .rfPendingSet key t, w =>
      ((), { w with memory := { w.memory with rfPending := w.memory.rfPending.put key (some t) } })
  | .rfPendingClear key, w =>
      ((), { w with memory := { w.memory with rfPending := w.memory.rfPending.put key none } })
  | .event _ _ _ _, w => ((), w)

/-- Calls without an effect on the world. -/
def Call.quiet : Call → Bool
  | .getSystem _ | .getSystemCached _ | .getPool _ | .listPools | .getContainer _ | .listNodes _
  | .ensureNamespace _ | .ensureHostPrep _ _ | .ensureTelemetry _ _ | .ensureClientAgent _ _
  | .getStatefulSet _ | .listServerPods _ _ | .getSecret _ | .getJob _ | .listJobPods _
  | .podLogs _ _ | .now | .holdFor _ | .engineMemory _ | .rfPendingSince _ | .event _ _ _ _ => true
  | _ => false

theorem perform_quiet {c : Call} (h : c.quiet = true) (w : World) : (perform c w).2 = w := by
  cases c <;> first | rfl | cases h

theorem perform_clock (c : Call) (w : World) : (perform c w).2.clock = w.clock := by
  cases c with
  | createJob spec =>
      simp only [perform]
      split <;> rfl
  | deleteJob key =>
      simp only [perform]
      split <;> rfl
  | _ => rfl

/-- Calls that stay within the operator's process. -/
def Call.inProcess : Call → Bool
  | .now | .holdFor _ | .setHold _ _ | .clearHold _ | .engineMemory _ | .setEngineMemory _ _
  | .rfPendingSince _ | .rfPendingSet _ _ | .rfPendingClear _ | .event _ _ _ _ => true
  | _ => false

/-- The cluster as a handler of calls. -/
def cluster : Handler Call Answer World where
  perform := perform
  fallible c := !c.inProcess

theorem respond_quiet {c : Call} (h : c.quiet = true) (f : Fault) (w : World) :
    (cluster.respond c f w).2 = w := by
  rw [Handler.respond_world]
  split
  · exact perform_quiet h w
  · rfl

end DaosOperator
