import DaosOperator.Container.Reconcile
import DaosOperator.Effect.Run
import DaosOperator.System.Reconcile

/-!
# The operator and its surroundings as one machine

An event is either a reconcile of one object, under a script of faults, or a
change made by somebody else: a human, a kubelet, a Job's pod, DAOS, or the
informer cache catching up.  Changes fall between reconciles.  The observation of a
reconcile is the log of its calls.
-/

namespace DaosOperator

open Effect

/-! ## Admission of pool specs -/

namespace Pool

/-- `spec.properties.reintegration`, empty when it is not set. -/
def specReintegration (spec : DaosPoolSpec) : String :=
  (lookupKey spec.properties "reintegration").getD ""

/-- `spec.kvcache.redundancy` with its default. -/
def specRedundancy (spec : DaosPoolSpec) : String :=
  match spec.kvcache with
  | some r => if r = "" then "none" else r
  | none => "none"

/-- The validation of a `DaosPoolSpec` by its CRD. -/
def specAdmitted (spec : DaosPoolSpec) : Bool :=
  (spec.kvcache.isNone || spec.profile = profileKVCache) &&
  (spec.profile = "" || spec.profile = profileKVCache) &&
  specRedundancy spec ∈ ["none", "ec"] &&
  (spec.profile ≠ profileKVCache ||
    spec.redundancyFactor.all fun f => f = if specRedundancy spec = "ec" then 1 else 0) &&
  (lookupKey spec.properties "reintegration").all
    (· ∈ ["data_sync", "incremental", "no_data_sync"]) &&
  (spec.redundancyFactor ≠ some 0 || specReintegration spec ≠ "no_data_sync") &&
  spec.redundancyFactor.all (fun f => 0 ≤ f ∧ f ≤ 4) &&
  spec.spaceWarningPercent.all (fun p => 0 ≤ p ∧ p ≤ 100) &&
  spec.memRatioPercent.all (fun p => 1 ≤ p ∧ p ≤ 100)

/-- The transition rules of the CRD: redundancy is fixed once `status.uuid` is set. -/
def updateAdmitted (old : DaosPool) (new : DaosPoolSpec) : Bool :=
  specAdmitted new &&
  (old.status.uuid = "" ||
    (new.profile = old.spec.profile && specRedundancy new = specRedundancy old.spec &&
      new.redundancyFactor = old.spec.redundancyFactor &&
      specReintegration new = specReintegration old.spec))

/-- The words of a create carry `rd_fac:0`. -/
def createsUnprotected : List String → Bool
  | "pool" :: "create" :: "-z" :: _ :: "-P" :: props :: _ =>
      props = "rd_fac:0" || Text.hasPrefix props "rd_fac:0,"
  | _ => false

/-- The ranks a create is restricted to, as they are written on its command line. -/
def createRanks : List String → Option String
  | "-r" :: ranks :: _ => some ranks
  | _ :: rest => createRanks rest
  | [] => none

end Pool

/-! ## Changes -/

/-- The annotations of a `DaosSystem` that drive the operator. -/
inductive SystemAnnotation where
  | formatApproved
  | certsRenewApproved
  | rankOp
  | rankOpDiscardData
  deriving DecidableEq

/-- Set or, with `none`, remove an annotation. -/
def SystemAnnotations.set (a : SystemAnnotations) (v : Option String) :
    SystemAnnotation → SystemAnnotations
  | .formatApproved => { a with formatApproved := v }
  | .certsRenewApproved => { a with certsRenewApproved := v }
  | .rankOp => { a with rankOp := v }
  | .rankOpDiscardData => { a with rankOpDiscardData := v }

/-- What happens around the operator. -/
inductive Change where
  | tick (seconds : Duration)
  /-- The operator's process starts over. -/
  | restart
  | createSystem (name : String) (annotations : SystemAnnotations) (spec : DaosSystemSpec)
  | editSystem (name : String) (spec : DaosSystemSpec)
  | annotateSystem (name : String) (key : SystemAnnotation) (value : Option String)
  /-- The deletion timestamp is set. -/
  | deleteSystem (name : String)
  | removeSystem (name : String)
  | createPool (name : String) (annotations : PoolAnnotations) (spec : DaosPoolSpec)
  | editPool (name : String) (spec : DaosPoolSpec)
  | annotatePool (name : String) (annotations : PoolAnnotations)
  | deletePool (name : String)
  | createContainer (key : ObjectKey) (destroyApproved : Option String) (spec : DaosContainerSpec)
  | editContainer (key : ObjectKey) (spec : DaosContainerSpec)
  | annotateContainer (key : ObjectKey) (destroyApproved : Option String)
  | deleteContainer (key : ObjectKey)
  /-- The cache sees the next version of an object. -/
  | deliverSystem (name : String)
  | deliverPool (name : String)
  | deliverContainer (key : ObjectKey)
  | setNodes (nodes : List Node)
  | setServerPods (pods : List ServerPod)
  | setReadyReplicas (key : ObjectKey) (ready : Int)
  | supplySecret (key : ObjectKey) (bundle : Option Bundle)
  | setReports (telemetry clientAgent : Report)
  /-- A Job gets further, finishes or fails. -/
  | jobProgress (key : ObjectKey) (conditions : List JobCondition) (pods : List JobPod)
  /-- A Job the operator deleted is gone. -/
  | jobRemoved (key : ObjectKey)
  /-- Somebody else removes a Job. -/
  | jobCollected (key : ObjectKey)
  /-- DAOS carries out the command of a pool's Job; `ranks` are the ranks it acts on. -/
  | daosRuns (key : ObjectKey) (ranks : List Int)

/-- Put a new object; a name is free as soon as the API server has removed the old object, and
the cache may still have versions of that one in front of the new one. -/
def create {K α : Type} [DecidableEq K] (t : Table K (Watched α)) (k : K) (a : α) :
    Table K (Watched α) :=
  let c := cellOf t k
  if c.stored.isNone then t.put k (some (c.write (some a))) else t

/-- Let the cache of an object catch up by one version. -/
def deliver {K α : Type} [DecidableEq K] (t : Table K (Watched α)) (k : K) : Table K (Watched α) :=
  match t.get k with
  | none => t
  | some c => t.put k (some c.deliver)

/-- What the command of a pool's Job does to the pools of DAOS. -/
def daosEffect (pools : Table (String × String) DaosPoolFact) (at_ : String × String)
    (ranks : List Int) : List String → Table (String × String) DaosPoolFact
  | "pool" :: "create" :: rest =>
      -- without `-r` DAOS chooses the ranks
      if (pools.get at_).isNone ∧ (Pool.createRanks rest).all (· = Pool.ranksCSV ranks) then
        pools.put at_ (some ⟨ranks, Pool.createsUnprotected ("pool" :: "create" :: rest)⟩)
      else pools
  | ["pool", "extend", target, _] =>
      match pools.get at_ with
      | some fact =>
          if target = "--ranks=" ++ Pool.ranksCSV ranks then
            pools.put at_ (some { fact with ranks := fact.ranks ++ ranks })
          else pools
      | none => pools
  | "pool" :: "destroy" :: _ => pools.put at_ none
  | _ => pools

/-- DAOS carries out the command of a Job. -/
def runInDaos (w : World) (key : ObjectKey) (ranks : List Int) : World :=
  match w.jobs.get key with
  | none => w
  | some job =>
      match job.spec.owner, lookupKey job.spec.labels "daos.gluesys.com/system" with
      | .pool pool, some system =>
          { w with
            daosPools := daosEffect w.daosPools (system, pool) ranks job.spec.command.args }
      | _, _ => w

/-- Change a stored object. -/
def onSystem (w : World) (name : String) (f : DaosSystem → Option DaosSystem) : World :=
  { w with systems := modify w.systems name f }

def onPool (w : World) (name : String) (f : DaosPool → Option DaosPool) : World :=
  { w with pools := modify w.pools name f }

def onContainer (w : World) (key : ObjectKey) (f : DaosContainer → Option DaosContainer) :
    World :=
  { w with containers := modify w.containers key f }

/-- Change a Job that exists; `none` removes it. -/
def onJob (w : World) (key : ObjectKey) (f : Job → Option Job) : World :=
  match w.jobs.get key with
  | none => w
  | some job => { w with jobs := w.jobs.put key (f job) }

/-- The effect of a change. -/
def Change.apply (w : World) : Change → World
  | tick seconds => { w with clock := w.clock + seconds }
  | restart => { w with memory := {} }
  | createSystem name annotations spec =>
      { w with systems := create w.systems name { name, annotations, spec } }
  | editSystem name spec => onSystem w name fun s => some { s with spec }
  | annotateSystem name key value =>
      onSystem w name fun s => some { s with annotations := s.annotations.set value key }
  | deleteSystem name => onSystem w name fun s => some { s with deleting := true }
  | removeSystem name => onSystem w name fun s => if s.deleting then none else some s
  | createPool name annotations spec =>
      if Pool.specAdmitted spec then
        { w with pools := create w.pools name { name, annotations, spec } }
      else w
  | editPool name spec =>
      onPool w name fun p =>
        if Pool.updateAdmitted p spec then some { p with spec, generation := p.generation + 1 }
        else some p
  | annotatePool name annotations => onPool w name fun p => some { p with annotations }
  | deletePool name =>
      onPool w name fun p => if p.finalizer then some { p with deleting := true } else none
  | createContainer key destroyApproved spec =>
      { w with containers := create w.containers key { key, destroyApproved, spec } }
  | editContainer key spec =>
      onContainer w key fun c => some { c with spec, generation := c.generation + 1 }
  | annotateContainer key destroyApproved =>
      onContainer w key fun c => some { c with destroyApproved }
  | deleteContainer key =>
      onContainer w key fun c => if c.finalizer then some { c with deleting := true } else none
  | deliverSystem name => { w with systems := deliver w.systems name }
  | deliverPool name => { w with pools := deliver w.pools name }
  | deliverContainer key => { w with containers := deliver w.containers key }
  | setNodes nodes => { w with nodes }
  | setServerPods pods => { w with serverPods := pods }
  | setReadyReplicas key ready =>
      match w.statefulSets.get key with
      | none => w
      | some sts =>
          { w with
            statefulSets := w.statefulSets.put key (some { sts with readyReplicas := ready }) }
  | supplySecret key bundle => { w with secrets := w.secrets.put key bundle }
  | setReports telemetry clientAgent => { w with telemetry, clientAgent }
  | jobProgress key conditions pods => onJob w key fun job => some { job with conditions, pods }
  | jobRemoved key => onJob w key fun job => if job.deleting then none else some job
  | jobCollected key => onJob w key fun _ => none
  | daosRuns key ranks => runInDaos w key ranks

/-! ## The machine -/

/-- One event of a run. -/
inductive Event where
  | reconcileSystem (name : String) (faults : List Fault)
  | reconcilePool (name : String) (faults : List Fault)
  | reconcileContainer (key : ObjectKey) (faults : List Fault)
  | change (c : Change)

/-- The system that an event reconciles. -/
def Event.system : Event → Option String
  | .reconcileSystem name _ => some name
  | _ => none

/-- The pool that an event reconciles. -/
def Event.pool : Event → Option String
  | .reconcilePool name _ => some name
  | _ => none

/-- The container that an event reconciles. -/
def Event.container : Event → Option ObjectKey
  | .reconcileContainer key _ => some key
  | _ => none

theorem Event.eq_of_system {e : Event} {name : String} (h : e.system = some name) :
    ∃ faults, e = .reconcileSystem name faults := by
  cases e <;> cases h
  exact ⟨_, rfl⟩

theorem Event.eq_of_pool {e : Event} {name : String} (h : e.pool = some name) :
    ∃ faults, e = .reconcilePool name faults := by
  cases e <;> cases h
  exact ⟨_, rfl⟩

theorem Event.eq_of_container {e : Event} {key : ObjectKey} (h : e.container = some key) :
    ∃ faults, e = .reconcileContainer key faults := by
  cases e <;> cases h
  exact ⟨_, rfl⟩

/-- The calls of a reconcile. -/
abbrev Log := List (Entry Call World)

/-- The machine of the operator in its cluster. -/
def operator : Machine World Event Log where
  step w
    | .reconcileSystem name faults =>
        let o := (System.reconcile name).exec cluster faults w
        (o.world, o.log)
    | .reconcilePool name faults =>
        let o := (Pool.reconcile name).exec cluster faults w
        (o.world, o.log)
    | .reconcileContainer key faults =>
        let o := (Container.reconcile key).exec cluster faults w
        (o.world, o.log)
    | .change c => (c.apply w, [])

/-- A recorded step of the operator. -/
abbrev Step := Record World Event Log

/-- The recorded steps of a run that starts in an empty cluster. -/
abbrev history (events : List Event) : List Step := operator.history {} events

/-- The world at the end of a run that starts in an empty cluster. -/
abbrev final (events : List Event) : World := operator.final {} events

/-- The Job that an entry of a log creates: the call takes effect, and no Job of that name
exists. -/
def created (x : Entry Call World) : Option Dmg.RunSpec :=
  match x.call with
  | .createJob spec =>
      if x.fault.effective && (x.before.jobs.get spec.key).isNone then some spec else none
  | _ => none

end DaosOperator
