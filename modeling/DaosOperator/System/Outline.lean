import DaosOperator.System.Frame

/-!
# The outline of a `DaosSystem` reconcile

A reconcile reads its object, renders the configuration of its nodes and then ends
in one of three ways: it writes the status early, it follows a system that is run
elsewhere, or it hands over to the restart and everything behind it.  The rule at
the end asks for one obligation per way and supplies what every reconcile has
established by then.
-/

namespace DaosOperator.System

open Effect

variable {sys : DaosSystem} {w : World} {f : Discovery.NodeFacts}
  {visited : List Discovery.NodeFacts} {r : Rendering} {nc : NodeConfigStatus}

/-! ## What a reconcile works on -/

/-- The selected nodes, in the order of their names. -/
def selectedNodes (sys : DaosSystem) (w : World) : List Node :=
  (w.nodes.filter fun n => n.matches sys.spec.nodeSelector).insertionSort fun a b =>
    a.name ≤ b.name

def nodeFacts (sys : DaosSystem) (w : World) : List Discovery.NodeFacts :=
  (selectedNodes sys w).map Discovery.fromNode

def sharingNodes (sys : DaosSystem) (w : World) : List (String × String) :=
  conflictedNodes (Discovery.driveConflicts (nodeFacts sys w))

/-- The management-service replicas, by node and address. -/
def replicas (sys : DaosSystem) (w : World) : List (String × String) :=
  chooseReplicas (msWant sys) (healthyAddrs (nodeFacts sys w) (sharingNodes sys w))
    sys.status.msReplicaNodes (nodeFacts sys w)

/-- The management-service addresses a reconcile puts into its config files. -/
def servedBy (sys : DaosSystem) (w : World) : List String :=
  if external sys then sys.spec.externalMsReplicas else (replicas sys w).map (·.2)

/-- The node has a server configuration. -/
def renders (sys : DaosSystem) (w : World) (f : Discovery.NodeFacts) : Bool :=
  (renderNode sys ((replicas sys w).map (·.2)) (sharingNodes sys w) f).2.isSome

def ServerReady (sys : DaosSystem) (ns node : String) (w : World) : Prop :=
  ∃ sts, w.statefulSets.get ⟨ns, serverWorkloadName sys node⟩ = some sts ∧ 1 ≤ sts.readyReplicas

theorem nodeFacts_congr {w' : World} (h : w.nodes = w'.nodes) :
    nodeFacts sys w = nodeFacts sys w' := by
  simp only [nodeFacts, selectedNodes, h]

theorem replicas_congr {w' : World} (h : w.nodes = w'.nodes) :
    replicas sys w = replicas sys w' := by
  simp only [replicas, sharingNodes, nodeFacts_congr h]

theorem servedBy_congr {w' : World} (h : w.nodes = w'.nodes) :
    servedBy sys w = servedBy sys w' := by
  simp only [servedBy, replicas_congr h]

theorem renders_congr {w' : World} (h : w.nodes = w'.nodes) :
    renders sys w = renders sys w' := by
  funext f
  simp only [renders, replicas_congr h, sharingNodes, nodeFacts_congr h]

/-- The fields a reconcile carries over from the stored status, certificates apart. -/
def carriedMask (st : DaosSystemStatus) : DaosSystemStatus :=
  { st with
    conditions := [], selectedNodes := [], msReplicaNodes := [], nodeConfigs := []
    certificates := none }

@[simp] theorem carriedMask_setCond (st : DaosSystemStatus) (t : ConditionType)
    (v : ConditionStatus) (reason msg : String) :
    carriedMask (setCond st t v reason msg) = carriedMask st := rfl

theorem carriedMask_of_conditionMask {st st' : DaosSystemStatus}
    (h : conditionMask st = conditionMask st') : carriedMask st = carriedMask st' := by
  have hmask : carriedMask (conditionMask st) = carriedMask (conditionMask st') := by rw [h]
  exact hmask

/-- A pass on the object as it was read, with the carried status. -/
structure Carried (sys : DaosSystem) (p : Pass) : Prop where
  sys_eq : p.sys = sys
  status_eq : carriedMask p.status = carriedMask sys.status

/-- A node config describes a selected node. -/
def Describes (sys : DaosSystem) (w : World) (st : DaosSystemStatus) : Prop :=
  ∀ nc ∈ st.nodeConfigs, ∃ f ∈ nodeFacts sys w, nc.node = f.name ∧ nc.controlAddr = f.controlAddr

/-- How a reconcile leaves its first half. -/
inductive Enters (sys : DaosSystem) (w : World) (p : Pass) : Prop where
  /-- Too few nodes, or no engines: the status is written at once. -/
  | unready (hp : Carried sys p)
      (hwhy : (selectedNodes sys w).length < msWant sys ∨
        external sys = false ∧ sys.spec.engines = [])
      (hreplicas : p.status.msReplicaNodes = [])
  /-- Too few nodes without a conflict: the status is written at once. -/
  | unhealthy (hp : Carried sys p) (hwhy : (replicas sys w).length < msWant sys)
      (hreplicas : p.status.msReplicaNodes = (replicas sys w).map (·.1))
  /-- The system is run elsewhere. -/
  | elsewhere (hp : Carried sys p) (hexternal : external sys = true)
      (hreplicas : p.status.msReplicaNodes = []) (hconfigs : p.status.nodeConfigs = [])
  /-- The configuration is rendered. -/
  | rendered (hp : Carried sys p) (hexternal : external sys = false)
      (hwhy : msWant sys ≤ (replicas sys w).length)
      (hreplicas : p.status.msReplicaNodes = (replicas sys w).map (·.1))
      (hconfigs : Describes sys w p.status)

theorem Enters.carried {p : Pass} (h : Enters sys w p) :
    Carried sys p := by
  cases h <;> assumption

/-! ## Conditions while rendering -/

theorem formatted_setDriveConflict (conflicts : List (String × List String))
    (st : DaosSystemStatus) :
    findCond (setDriveConflict conflicts st) .formatted = findCond st .formatted := by
  unfold setDriveConflict
  split <;> exact findCond_setCond_of_ne _ (by decide) ..

theorem formatted_setConfigRendered (r : Rendering) (nodes : Nat) (st : DaosSystemStatus) :
    findCond (setConfigRendered r nodes st) .formatted = findCond st .formatted := by
  unfold setConfigRendered
  split <;> exact findCond_setCond_of_ne _ (by decide) ..

theorem formatted_setServersReady (sys : DaosSystem) (r : Rendering) (st : DaosSystemStatus) :
    findCond (setServersReady sys r st).2 .formatted = findCond st .formatted := by
  simp only [setServersReady, apply_ite Prod.snd, apply_ite fun st => findCond st .formatted,
    findCond_setCond_of_ne _ (show ConditionType.serversReady ≠ .formatted by decide), ite_self]

theorem notReady_cond (p : Pass) (reason msg : String) :
    isStatusConditionTrue (p.cond .ready .isFalse reason msg).status.conditions .ready = false := by
  have hfind := findCond_setCond_self p.status .ready .isFalse reason msg
  unfold isStatusConditionTrue
  rw [show findStatusCondition (p.cond .ready .isFalse reason msg).status.conditions .ready = _ from
    hfind]
  rfl

/-! ## The loop over the nodes -/

section Nodes

variable {sys : DaosSystem} {ns : String} {addrs : List String}
  {conflicted : List (String × String)} {rely : Entry Call World → Prop}
  {I : Point Call World → Prop} {s : Point Call World}

/-- A ready server stays ready under calls that remove no StatefulSet. -/
theorem ServerReady.respond {name : String} {S : Scope} {c : Call} {f : Fault}
    {node : String} (h : ServerReady sys ns node w) (hc : SystemCall name ns S c)
    (hS : S.removals = false) : ServerReady sys ns node (cluster.respond c f w).2 := by
  obtain ⟨sts, hget, hready⟩ := h
  rw [Handler.respond_world]
  split
  · cases hc with
    | quiet hc =>
        rw [show cluster.perform = perform from rfl, perform_quiet hc]
        exact ⟨sts, hget, hready⟩
    | ensureStatefulSet key image _ =>
        by_cases hkey : (⟨ns, serverWorkloadName sys node⟩ : ObjectKey) = key
        · refine ⟨⟨sts.readyReplicas, image⟩, ?_, hready⟩
          simp [cluster, perform, ← hkey, hget]
        · refine ⟨sts, ?_, hready⟩
          simp only [cluster, perform]
          rw [Table.get_put_of_ne _ hkey, hget]
    | deleteStatefulSet key h => simp [hS] at h
    | createJob kind spec _ _ =>
        simp only [cluster, perform]
        split <;> exact ⟨sts, hget, hready⟩
    | deleteJob kind _ =>
        simp only [cluster, perform]
        split <;> exact ⟨sts, hget, hready⟩
    | _ => exact ⟨sts, hget, hready⟩
  · exact ⟨sts, hget, hready⟩

/-- What the loop has established after some nodes. -/
structure Visited (sys : DaosSystem) (ns : String) (addrs : List String)
    (conflicted : List (String × String)) (visited : List Discovery.NodeFacts) (r : Rendering)
    (w : World) : Prop where
  configs : ∀ nc ∈ r.nodeConfigs, ∃ f ∈ visited, nc.node = f.name ∧ nc.controlAddr = f.controlAddr
  ready : serverEnabled sys = true → r.serversNotReady = [] → ∀ f ∈ visited,
    (renderNode sys addrs conflicted f).2.isSome = true → ServerReady sys ns f.name w

/-- Calls that remove no StatefulSet of an enabled server keep what the loop established. -/
theorem Visited.next {S : Scope} {c : Call}
    {f : Fault} (h : Visited sys ns addrs conflicted visited r w)
    (hc : SystemCall sys.name ns S c) (hS : serverEnabled sys = true → S.removals = false) :
    Visited sys ns addrs conflicted visited r (cluster.respond c f w).2 := by
  refine ⟨h.configs, ?_⟩
  intro henabled hnone f' hf' hsome
  exact (h.ready henabled hnone f' hf' hsome).respond hc (hS henabled)

theorem removals_renderScope (h : serverEnabled sys = true) :
    (renderScope sys addrs).removals = false := by
  simp [renderScope, h]

/-- One more node that renders nothing, or whose server is looked at. -/
theorem Visited.add
    {r' : Rendering}
    (h : Visited sys ns addrs conflicted visited r w)
    (hconfigs : r'.nodeConfigs = r.nodeConfigs ++ [nc])
    (hnc : nc.node = f.name ∧ nc.controlAddr = f.controlAddr)
    (hmore : r'.serversNotReady = [] → r.serversNotReady = [])
    (hready : serverEnabled sys = true → r'.serversNotReady = [] →
      (renderNode sys addrs conflicted f).2.isSome = true → ServerReady sys ns f.name w) :
    Visited sys ns addrs conflicted (visited ++ [f]) r' w := by
  constructor
  · intro nc' hnc'
    rw [hconfigs, List.mem_append, List.mem_singleton] at hnc'
    rcases hnc' with hnc' | rfl
    · obtain ⟨f', hf', heq⟩ := h.configs nc' hnc'
      exact ⟨f', by simp [hf'], heq⟩
    · exact ⟨f, by simp, hnc⟩
  · intro henabled hnone f' hf' hsome
    rw [List.mem_append, List.mem_singleton] at hf'
    rcases hf' with hf' | rfl
    · exact h.ready henabled (hmore hnone) f' hf' hsome
    · exact hready henabled hnone hsome

/-- What a format reads of a status entry: the node, its address, and whether it is up. -/
def hostEntry (nc : NodeConfigStatus) : String × String × Bool :=
  (nc.node, nc.controlAddr, nc.ready && nc.serverReady)

/-- What the loop has counted and reported after some nodes. -/
structure Tally (sys : DaosSystem) (addrs : List String) (conflicted : List (String × String))
    (visited : List Discovery.NodeFacts) (r : Rendering) : Prop where
  rendered : r.rendered =
    (visited.filter fun f => (renderNode sys addrs conflicted f).2.isSome).length
  /-- A workload is the server of a node that renders. -/
  workload : ∀ nc ∈ r.nodeConfigs, nc.workload ≠ "" → serverEnabled sys = true ∧
    ∃ f ∈ visited, (renderNode sys addrs conflicted f).2.isSome = true ∧ nc.node = f.name
  /-- Every node that renders has one. -/
  served : serverEnabled sys = true → ∀ f ∈ visited,
    (renderNode sys addrs conflicted f).2.isSome = true →
      ∃ nc ∈ r.nodeConfigs, nc.node = f.name ∧ nc.workload ≠ ""
  ready : r.serversNotReady = [] → ∀ nc ∈ r.nodeConfigs, nc.workload ≠ "" → nc.serverReady = true
  /-- With every server up, the nodes that render are the nodes that are up. -/
  hosts : serverEnabled sys = true → r.serversNotReady = [] → r.nodeConfigs.map hostEntry =
    visited.map fun f => (f.name, f.controlAddr, (renderNode sys addrs conflicted f).2.isSome)

theorem Tally.skip (h : Tally sys addrs conflicted visited r)
    (hrender : (renderNode sys addrs conflicted f).2 = none) (hidle : nc.workload = "")
    (hentry : hostEntry nc = (f.name, f.controlAddr, false)) :
    Tally sys addrs conflicted (visited ++ [f])
      { r with allReady := false, nodeConfigs := r.nodeConfigs ++ [nc] } where
  rendered := by simp [h.rendered, List.filter_append, hrender]
  workload := by
    intro nc' hnc' hne
    rcases List.mem_append.mp hnc' with hold | hnew
    · obtain ⟨henabled, f', hf', hsome⟩ := h.workload nc' hold hne
      exact ⟨henabled, f', by simp [hf'], hsome⟩
    · rw [List.mem_singleton.mp hnew] at hne
      exact absurd hidle hne
  served := by
    intro henabled f' hf' hsome
    rcases List.mem_append.mp hf' with hold | hnew
    · obtain ⟨nc', hnc', hnode⟩ := h.served henabled f' hold hsome
      exact ⟨nc', by simp [hnc'], hnode⟩
    · rw [List.mem_singleton.mp hnew, hrender] at hsome
      cases hsome
  ready := by
    intro hnone nc' hnc' hne
    rcases List.mem_append.mp hnc' with hold | hnew
    · exact h.ready hnone nc' hold hne
    · rw [List.mem_singleton.mp hnew] at hne
      exact absurd hidle hne
  hosts := by
    intro henabled hnone
    simp [h.hosts henabled hnone, hentry, hrender]

/-- One more node that renders; `more` is what is reported about its server. -/
theorem Tally.add
    {r' : Rendering} (h : Tally sys addrs conflicted visited r)
    (hrender : (renderNode sys addrs conflicted f).2.isSome = true)
    (hrendered : r'.rendered = r.rendered + 1)
    (hconfigs : r'.nodeConfigs = r.nodeConfigs ++ [nc]) (hnode : nc.node = f.name)
    (hworkload : serverEnabled sys = true ↔ nc.workload ≠ "")
    (hmore : r'.serversNotReady = [] → r.serversNotReady = [])
    (hready : r'.serversNotReady = [] → nc.workload ≠ "" → nc.serverReady = true)
    (haddr : nc.controlAddr = f.controlAddr) (hup : nc.ready = true) :
    Tally sys addrs conflicted (visited ++ [f]) r' where
  rendered := by simp [hrendered, h.rendered, List.filter_append, hrender]
  workload := by
    intro nc' hnc' hne
    rw [hconfigs] at hnc'
    rcases List.mem_append.mp hnc' with hold | hnew
    · obtain ⟨henabled, f', hf', hsome⟩ := h.workload nc' hold hne
      exact ⟨henabled, f', by simp [hf'], hsome⟩
    · rw [List.mem_singleton.mp hnew] at hne ⊢
      exact ⟨hworkload.mpr hne, f, by simp, hrender, hnode⟩
  served := by
    intro henabled f' hf' hsome
    rw [hconfigs]
    rcases List.mem_append.mp hf' with hold | hnew
    · obtain ⟨nc', hnc', hnode'⟩ := h.served henabled f' hold hsome
      exact ⟨nc', by simp [hnc'], hnode'⟩
    · rw [List.mem_singleton.mp hnew]
      exact ⟨nc, by simp, hnode, hworkload.mp henabled⟩
  ready := by
    intro hnone nc' hnc' hne
    rw [hconfigs] at hnc'
    rcases List.mem_append.mp hnc' with hold | hnew
    · exact h.ready (hmore hnone) nc' hold hne
    · rw [List.mem_singleton.mp hnew] at hne ⊢
      exact hready hnone hne
  hosts := by
    intro henabled hnone
    have hserver := hready hnone (hworkload.mp henabled)
    simp [hconfigs, h.hosts henabled (hmore hnone), hostEntry, hnode, haddr, hup, hserver, hrender]

theorem obeys_reconcileNode {acc : Rendering}
    (f : Discovery.NodeFacts) (h : Tally sys addrs conflicted visited acc) :
    (reconcileNode sys ns addrs conflicted acc f).Obeys (fun _ => True)
      (Tally sys addrs conflicted (visited ++ [f])) := by
  obtain ⟨hnode, haddr, -⟩ := renderNode_spec sys addrs conflicted f
  have hidle := renderNode_idle sys addrs conflicted f
  have hready := renderNode_ready sys addrs conflicted f
  have hall : ∀ {α : Type} {q : Op α},
      q.Obeys (SystemCall sys.name ns (renderScope sys addrs)) (fun _ => True) →
        q.Obeys (fun _ => True) fun _ => True :=
    fun hq => hq.mono (fun _ _ => trivial) fun _ h => h
  have hfirst : (if serverEnabled sys then Prog.ret () else ensureServer sys ns f.name :
      Op Unit).Obeys (fun _ => True) fun _ => True :=
    Prog.obeys_ite (fun _ => trivial) fun _ => hall (obeys_ensureServer f.name)
  refine hfirst.bind fun _ _ => ?_
  split
  · next ncs hrender =>
      rw [hrender] at hnode haddr hidle hready
      refine h.skip (by rw [hrender]) hidle ?_
      unfold hostEntry
      rw [show ncs.node = f.name from hnode, show ncs.controlAddr = f.controlAddr from haddr,
        show ncs.ready = false from hready, Bool.false_and]
  · next ncs cfg hrender =>
      have hsome : (renderNode sys addrs conflicted f).2.isSome = true := by simp [hrender]
      rw [hrender] at hnode haddr hidle hready
      refine Prog.obeys_ask_bind trivial fun _ => ?_
      refine (hall (obeys_ensureServer f.name).mapError).bind fun _ _ => ?_
      dsimp only
      refine Prog.obeys_ite (fun henabled => ?_) fun hdisabled => ?_
      · refine (hall (obeys_serverReady _ f.name)).bind ?_
        rintro ⟨ready, why⟩ -
        refine h.add hsome rfl rfl hnode ?_ ?_ ?_ haddr hready
        · exact ⟨fun _ => serverWorkloadName_ne sys f.name, fun _ => henabled⟩
        · intro hnone
          cases ready with
          | true => exact hnone
          | false => simp at hnone
        · intro hnone _
          cases ready with
          | true => rfl
          | false => simp at hnone
      · refine h.add hsome rfl rfl hnode ?_ (fun hnone => hnone) ?_ haddr hready
        · exact ⟨fun henabled => absurd henabled hdisabled, fun hne => absurd hidle hne⟩
        · exact fun _ hne => absurd hidle hne

/-- The answer of `serverReady` is about the StatefulSet of the node. -/
theorem wp_serverReady (node : String)
    (hI : ∀ c f s, SystemCall sys.name ns (renderScope sys addrs) c → cluster.Admits c f →
      rely ⟨c, f, s.world⟩ → I s → I (cluster.next s c f))
    (hs : I s) :
    (serverReady sys ns node).wp cluster rely s
      (fun r t => I t ∧ (r.1 = true → ServerReady sys ns node t.world)) I := by
  unfold serverReady
  refine Prog.wp_bind (A := fun r t => I t ∧ ∀ sts, r = .ok (some sts) →
    t.world.statefulSets.get ⟨ns, serverWorkloadName sys node⟩ = some sts) ?_ ?_
  · refine Prog.wp_attempt (Prog.wp_ask ?_ ?_)
    · intro hrely
      refine ⟨hI _ _ s (.quiet rfl) (Or.inl rfl) hrely hs, ?_⟩
      intro sts hsts
      simpa [cluster, perform, Handler.respond] using hsts
    · intro f _ hf hrely e
      exact ⟨hI _ _ s (.quiet rfl) (Or.inr hf) hrely hs, by simp⟩
  · rintro r t ⟨ht, hget⟩
    split
    · next sts =>
        split
        · next hready => exact ⟨ht, fun _ => ⟨sts, hget sts rfl, hready⟩⟩
        · refine Prog.wp_bind (A := fun _ t => I t) ?_ ?_
          · refine Prog.wp_attempt (Prog.wp_ask ?_ ?_)
            · intro hrely
              exact hI _ _ t (.quiet rfl) (Or.inl rfl) hrely ht
            · intro f _ hf hrely e
              exact hI _ _ t (.quiet rfl) (Or.inr hf) hrely ht
          · intro r' t' ht'
            split
            · split
              · exact ⟨ht', by simp⟩
              · exact ⟨ht', by simp⟩
            · exact ⟨ht', by simp⟩
    · exact ⟨ht, by simp⟩

theorem wp_reconcileNode {acc : Rendering}
    (f : Discovery.NodeFacts)
    (hI : ∀ c f s, SystemCall sys.name ns (renderScope sys addrs) c → cluster.Admits c f →
      rely ⟨c, f, s.world⟩ → I s → I (cluster.next s c f))
    (hs : I s) (hv : Visited sys ns addrs conflicted visited acc s.world) :
    (reconcileNode sys ns addrs conflicted acc f).wp cluster rely s
      (fun acc' t => I t ∧ Visited sys ns addrs conflicted (visited ++ [f]) acc' t.world) I := by
  obtain ⟨hnode, haddr, hcfg⟩ := renderNode_spec sys addrs conflicted f
  -- the calls of the loop keep the invariant and what has been visited
  have hkeep : ∀ c g t, SystemCall sys.name ns (renderScope sys addrs) c → cluster.Admits c g →
      rely ⟨c, g, t.world⟩ → (I t ∧ Visited sys ns addrs conflicted visited acc t.world) →
      I (cluster.next t c g) ∧
        Visited sys ns addrs conflicted visited acc (cluster.next t c g).world := by
    intro c g t hc hg hrely ht
    exact ⟨hI c g t hc hg hrely ht.1, ht.2.next hc removals_renderScope⟩
  have hfirst : (if serverEnabled sys then Prog.ret () else ensureServer sys ns f.name :
      Op Unit).Obeys (SystemCall sys.name ns (renderScope sys addrs)) fun _ => True :=
    Prog.obeys_ite (fun _ => trivial) fun _ => obeys_ensureServer f.name
  refine Prog.wp_bind (Prog.wp_mono (hfirst.wp hkeep ⟨hs, hv⟩) (fun _ _ h => h.2)
    fun _ h => h.1) ?_
  rintro _ t ⟨ht, hvt⟩
  split
  · next ncs hrender =>
      refine ⟨ht, hvt.add rfl ⟨by rw [← hnode, hrender], by rw [← haddr, hrender]⟩ (fun h => h) ?_⟩
      intro _ _ hsome
      simp [hrender] at hsome
  · next ncs cfg hrender =>
      have hfile : (renderScope sys addrs).files (.server cfg) := by
        rintro l ⟨⟩
        exact hcfg cfg (by rw [hrender])
      have hpublish : (ask (.upsertConfigMap ⟨ns, ncs.configMap⟩ (.server cfg))).Obeys
          (SystemCall sys.name ns (renderScope sys addrs)) fun _ => True :=
        Prog.obeys_ask (.configMap _ _ hfile)
      refine Prog.wp_bind (Prog.wp_mono (hpublish.wp hkeep ⟨ht, hvt⟩) (fun _ _ h => h.2)
        fun _ h => h.1) ?_
      rintro _ t ⟨ht, hvt⟩
      refine Prog.wp_bind (Prog.wp_mono ((obeys_ensureServer f.name).mapError.wp hkeep ⟨ht, hvt⟩)
        (fun _ _ h => h.2) fun _ h => h.1) ?_
      rintro _ t ⟨ht, hvt⟩
      dsimp only
      split
      · refine Prog.wp_bind (Prog.wp_mono (wp_serverReady f.name hkeep ⟨ht, hvt⟩)
          (fun _ _ h => h) fun _ h => h.1) ?_
        rintro ⟨ready, why⟩ t ⟨⟨ht, hvt⟩, hready⟩
        refine ⟨ht, hvt.add rfl ⟨by rw [← hnode, hrender], by rw [← haddr, hrender]⟩ ?_ ?_⟩
        · intro hnone
          cases ready with
          | true => exact hnone
          | false => simp at hnone
        · intro _ hnone _
          cases ready with
          | true => exact hready rfl
          | false => simp at hnone
      · next hdisabled =>
          refine ⟨ht, hvt.add rfl ⟨by rw [← hnode, hrender], by rw [← haddr, hrender]⟩
            (fun h => h) ?_⟩
          intro henabled
          exact absurd henabled hdisabled

theorem wp_reconcileNodes (facts : List Discovery.NodeFacts)
    (hI : ∀ c f s, SystemCall sys.name ns (renderScope sys addrs) c → cluster.Admits c f →
      rely ⟨c, f, s.world⟩ → I s → I (cluster.next s c f))
    (hs : I s) :
    (Prog.foldList (reconcileNode sys ns addrs conflicted) facts {}).wp cluster rely s
      (fun acc t => I t ∧ Visited sys ns addrs conflicted facts acc t.world ∧
        Tally sys addrs conflicted facts acc) I := by
  refine Prog.wp_foldList (J := fun visited acc t => I t ∧
    Visited sys ns addrs conflicted visited acc t.world ∧ Tally sys addrs conflicted visited acc)
    ?_ ?_
  · rintro pre f post acc t - ⟨ht, hv, htally⟩
    refine Prog.wp_mono (Prog.wp_and_returns (wp_reconcileNode f hI ht hv)
      (obeys_reconcileNode f htally)) ?_ fun _ h => h
    rintro acc' u ⟨⟨hu, hv'⟩, htally'⟩
    exact ⟨hu, hv', htally'⟩
  · exact ⟨hs, ⟨by simp, by simp⟩, ⟨by simp, by simp, by simp, by simp, by simp⟩⟩

end Nodes

/-! ## The ways a reconcile ends -/

/-- The fields of a rendered pass that later stages rely on. -/
structure RenderedPass (sys : DaosSystem) (w : World) (r : Rendering) (p : Pass) : Prop where
  carried : Carried sys p
  replicas : p.status.msReplicaNodes = (replicas sys w).map (·.1)
  configs : p.status.nodeConfigs = r.nodeConfigs

theorem RenderedPass.setStatus {p : Pass}
    (hp : RenderedPass sys w r p) {st : DaosSystemStatus}
    (hst : conditionMask st = conditionMask p.status) :
    RenderedPass sys w r { p with status := st } := by
  refine ⟨⟨hp.carried.sys_eq, ?_⟩, ?_, ?_⟩
  · exact (carriedMask_of_conditionMask hst).trans hp.carried.status_eq
  · have hmask := congrArg DaosSystemStatus.msReplicaNodes hst
    exact hmask.trans hp.replicas
  · have hmask := congrArg DaosSystemStatus.nodeConfigs hst
    exact hmask.trans hp.configs

theorem formatted_cond (p : Pass) {t : ConditionType} (ht : t ≠ .formatted) (v : ConditionStatus)
    (reason msg : String) :
    findCond (p.cond t v reason msg).status .formatted = findCond p.status .formatted :=
  findCond_setCond_of_ne _ ht ..

theorem formatted_externalConditions (p : Pass) :
    findCond (externalConditions p).status .formatted = findCond p.status .formatted := by
  unfold externalConditions
  extract_lets p₁ p₂ p₃ p₄ p₅
  change findCond p₅.status .formatted = _
  rw [formatted_cond p₄ (by decide), formatted_cond p₃ (by decide), formatted_cond p₂ (by decide),
    formatted_cond p₁ (by decide), formatted_cond p (by decide)]

/-- A pass whose status is written early. -/
structure EndsEarly (sys : DaosSystem) (w : World) (p : Pass) : Prop where
  enters : Enters sys w p
  notReady : isStatusConditionTrue p.status.conditions .ready = false
  formatted : findCond p.status .formatted = findCond sys.status .formatted

structure RunElsewhere (sys : DaosSystem) (w : World) (p : Pass) : Prop where
  enters : Enters sys w p
  external : external sys = true
  configs : p.status.nodeConfigs = []
  formatted : findCond p.status .formatted = findCond sys.status .formatted

structure HandsOver (sys : DaosSystem) (w : World) (r : Rendering) (p : Pass) : Prop where
  pass : RenderedPass sys w r p
  external : external sys = false
  engines : sys.spec.engines ≠ []
  enough : msWant sys ≤ (System.replicas sys w).length
  visited : Visited sys (namespaceOf sys) ((System.replicas sys w).map (·.2)) (sharingNodes sys w)
    (nodeFacts sys w) r w
  tally : Tally sys ((System.replicas sys w).map (·.2)) (sharingNodes sys w) (nodeFacts sys w) r
  formatted : findCond p.status .formatted = findCond sys.status .formatted

theorem HandsOver.enters {p : Pass}
    (h : HandsOver sys w r p) : Enters sys w p := by
  refine .rendered h.pass.carried h.external h.enough h.pass.replicas ?_
  intro nc hnc
  rw [h.pass.configs] at hnc
  exact h.visited.configs nc hnc

/-- From the restart to the status write. -/
def fromUpgrade (ns : String) (facts : List Discovery.NodeFacts) (r : Rendering)
    (requeue : Duration) (p : Pass) : Op Duration :=
  (reconcileUpgrade ns r.rendered p).bind fun up =>
    if up.inProgress then updateStatus up.pass.duringUpgrade (minRequeue requeue up.requeue)
    else operate ns ⟨ns, nodeByAddr facts, r.rendered,
      serverEnabled p.sys && 0 < r.rendered && r.serversNotReady.isEmpty⟩
      (minRequeue requeue up.requeue) up.pass

/-- From the format gate to the status write, for a system that is run elsewhere. -/
def fromGateElsewhere (ns : String) (p : Pass) : Op Duration :=
  (reconcileFormat ⟨ns, p.status.selectedNodes.map fun n => (n, n), 1, true⟩ p).bind fun r =>
    (reconcileRankOp ns r.2).bind fun r' =>
      updateStatus { r'.2 with status := setExternalReady r'.2.status } (minRequeue r.1 r'.1)

/-- The obligations of a proof about a reconcile of `sys`: `Base` holds while it renders,
and `W` holds wherever it can end. -/
structure Outline (sys : DaosSystem) (rely : Entry Call World → Prop)
    (Base W : Point Call World → Prop) : Prop where
  render : ∀ c f s,
    SystemCall sys.name (namespaceOf sys) (renderScope sys (servedBy sys s.world)) c →
    cluster.Admits c f → rely ⟨c, f, s.world⟩ → Base s → Base (cluster.next s c f)
  stop : ∀ s, Base s → W s
  early : ∀ p s requeue, EndsEarly sys s.world p → Base s →
    (updateStatus p requeue).wp cluster rely s (fun _ t => W t) W
  elsewhere : ∀ p s, RunElsewhere sys s.world p → Base s →
    (fromGateElsewhere (namespaceOf sys) p).wp cluster rely s (fun _ t => W t) W
  handOver : ∀ r p s requeue, HandsOver sys s.world r p → Base s →
    (fromUpgrade (namespaceOf sys) (nodeFacts sys s.world) r requeue p).wp cluster rely s
      (fun _ t => W t) W

namespace Outline

variable {sys : DaosSystem} {rely : Entry Call World → Prop} {Base W : Point Call World → Prop}
  {p : Pass} {s : Point Call World} {w₀ : World}

/-- While it renders, a reconcile keeps `Base` and the nodes. -/
theorem keeps (h : Outline sys rely Base W) (w₀ : World) {addrs : List String}
    (haddrs : servedBy sys w₀ = addrs) (c : Call) (f : Fault) (t : Point Call World)
    (hc : SystemCall sys.name (namespaceOf sys) (renderScope sys addrs) c)
    (hf : cluster.Admits c f) (hrely : rely ⟨c, f, t.world⟩)
    (ht : Base t ∧ t.world.nodes = w₀.nodes) :
    Base (cluster.next t c f) ∧ (cluster.next t c f).world.nodes = w₀.nodes := by
  constructor
  · refine h.render c f t ?_ hf hrely ht.1
    rwa [servedBy_congr ht.2, haddrs]
  · exact hc.surroundings.1.trans ht.2

theorem wp_afterRendering (h : Outline sys rely Base W)
    {facts : List Discovery.NodeFacts} {addrs : List String} (hexternal : external sys = false)
    (hengines : sys.spec.engines ≠ [])
    (hfacts : nodeFacts sys w₀ = facts) (haddrs : (replicas sys w₀).map (·.2) = addrs)
    (henough : msWant sys ≤ (replicas sys w₀).length) (hp : RenderedPass sys w₀ r p)
    (hformatted : findCond p.status .formatted = findCond sys.status .formatted)
    (hs : Base s ∧ s.world.nodes = w₀.nodes)
    (hv : Visited sys (namespaceOf sys) addrs (sharingNodes sys w₀) facts r s.world)
    (htally : Tally sys addrs (sharingNodes sys w₀) facts r) :
    (afterRendering (namespaceOf sys) facts addrs r p).wp cluster rely s (fun _ t => W t) W := by
  obtain ⟨psys, pst⟩ := p
  obtain rfl : psys = sys := hp.carried.sys_eq
  have hserved : servedBy psys w₀ = addrs := by simp [servedBy, hexternal, haddrs]
  -- the calls before the restart keep `Base`, the nodes and what the loop established
  have hcall : ∀ {c : Call} {t : Point Call World},
      SystemCall psys.name (namespaceOf psys) (renderScope psys addrs) c →
      ((Base t ∧ t.world.nodes = w₀.nodes) ∧
        Visited psys (namespaceOf psys) addrs (sharingNodes psys w₀) facts r t.world) →
      (ask c).wp cluster rely t (fun _ t => (Base t ∧ t.world.nodes = w₀.nodes) ∧
        Visited psys (namespaceOf psys) addrs (sharingNodes psys w₀) facts r t.world) W := by
    intro c t hc ht
    refine Prog.wp_mono ((Prog.obeys_ask hc).wp ?_ ht) (fun _ _ h => h.2)
      fun t ht => h.stop t ht.1.1
    intro c f t hc hf hrely ht
    exact ⟨keeps h w₀ hserved c f t hc hf hrely ht.1, ht.2.next hc removals_renderScope⟩
  unfold afterRendering
  refine Prog.wp_bind (hcall (.configMap _ _ (by rintro l ⟨⟩; rfl)) ⟨hs, hv⟩) ?_
  intro _ t ht
  refine Prog.wp_bind (hcall (.configMap _ _ (by rintro l ⟨⟩)) ht) ?_
  intro _ t ht
  refine Prog.wp_bind (hcall (.quiet rfl) ht) ?_
  intro agent t ht
  dsimp only
  refine Prog.wp_bind (hcall (.quiet rfl) ht) ?_
  rintro telemetry t ⟨⟨hbase, hnodes⟩, hvt⟩
  have hfacts' : nodeFacts psys t.world = facts := (nodeFacts_congr hnodes).trans hfacts
  have hsharing : sharingNodes psys t.world = sharingNodes psys w₀ := by
    simp only [sharingNodes, nodeFacts_congr hnodes]
  let st₁ := setConfigRendered r facts.length
    (setCond pst .clientAgent agent.status agent.reason agent.message)
  let st₂ := setCond (setServersReady psys r st₁).2 .telemetry telemetry.status telemetry.reason
    telemetry.message
  have hmask : conditionMask st₂ = conditionMask pst := by
    simp only [st₂, st₁]
    rw [conditionMask_setCond, conditionMask_setServersReady, conditionMask_setConfigRendered]
    rfl
  have hcond : findCond st₂ .formatted = findCond pst .formatted := by
    simp only [st₂, st₁]
    rw [findCond_setCond_of_ne _ (by decide), formatted_setServersReady,
      formatted_setConfigRendered, findCond_setCond_of_ne _ (by decide)]
  have hover : HandsOver psys t.world r ⟨psys, st₂⟩ := by
    refine ⟨?_, hexternal, hengines, ?_, ?_, ?_, hcond.trans hformatted⟩
    · have hp' : RenderedPass psys t.world r ⟨psys, pst⟩ :=
        ⟨hp.carried, by rw [replicas_congr hnodes]; exact hp.replicas, hp.configs⟩
      exact hp'.setStatus hmask
    · rwa [replicas_congr hnodes]
    · rwa [replicas_congr hnodes, hsharing, haddrs, hfacts']
    · rwa [replicas_congr hnodes, hsharing, haddrs, hfacts']
  have hwp := h.handOver r _ t (setServersReady psys r st₁).1 hover hbase
  rw [hfacts'] at hwp
  exact hwp

theorem wp_reconcileServers (h : Outline sys rely Base W) (hexternal : external sys = false)
    (hengines : sys.spec.engines ≠ []) (hp : Carried sys p)
    (hformatted : findCond p.status .formatted = findCond sys.status .formatted)
    (hs : Base s ∧ s.world.nodes = w₀.nodes) :
    (reconcileServers (namespaceOf sys) (selectedNodes sys w₀) p).wp cluster rely s
      (fun _ t => W t) W := by
  obtain ⟨psys, pst⟩ := p
  obtain rfl : psys = sys := hp.sys_eq
  have hserved : servedBy psys w₀ = (replicas psys w₀).map (·.2) := by simp [servedBy, hexternal]
  have hstop : ∀ t, (Base t ∧ t.world.nodes = w₀.nodes) → W t := fun t ht => h.stop t ht.1
  -- the status the loop starts from
  let st₀ : DaosSystemStatus :=
    { setDriveConflict (Discovery.driveConflicts (nodeFacts psys w₀)) pst with
      msReplicaNodes := (replicas psys w₀).map (·.1) }
  have hcarried : carriedMask st₀ = carriedMask psys.status := by
    have hmask := carriedMask_of_conditionMask
      (conditionMask_setDriveConflict (Discovery.driveConflicts (nodeFacts psys w₀)) pst)
    exact hmask.trans hp.status_eq
  have hst₀ : findCond st₀ .formatted = findCond psys.status .formatted :=
    (formatted_setDriveConflict _ pst).trans hformatted
  change Prog.wp cluster rely (if ((replicas psys w₀).map (·.2)).length < msWant psys then
      updateStatus (((⟨psys, st₀⟩ : Pass).cond _ _ _ _).cond _ _ _ _) _
    else (ask (.ensureNamespace _)).bind fun _ => (ensureCerts _ ⟨psys, st₀⟩).bind fun r =>
      (Prog.foldList (reconcileNode r.2.sys _ _ _) _ _).bind fun _ => _) s _ W
  rw [List.length_map]
  refine Prog.wp_ite (fun hfew => ?_) fun hmany => ?_
  · refine h.early _ s _ ⟨?_, notReady_cond .., ?_⟩ hs.1
    · refine .unhealthy ⟨rfl, hcarried⟩ ?_ ?_
      · rwa [replicas_congr hs.2]
      · rw [replicas_congr hs.2]
        rfl
    · rw [formatted_cond _ (by decide), formatted_cond _ (by decide)]
      exact hst₀
  · have henough : msWant psys ≤ (replicas psys w₀).length := by omega
    refine Prog.wp_bind (Prog.wp_mono ((Prog.obeys_ask (.quiet rfl)).wp (keeps h w₀ hserved) hs)
      (fun _ _ h => h.2) hstop) ?_
    intro _ t ht
    refine Prog.wp_bind (Prog.wp_mono ((obeys_ensureCerts _ rfl).wp (keeps h w₀ hserved) ht)
      (fun _ _ h => h) hstop) ?_
    rintro ⟨secret, ⟨qsys, qst⟩⟩ t ⟨⟨hqsys, ⟨certs, hqst⟩, hqcond⟩, ht⟩
    obtain rfl : qsys = psys := hqsys
    have hqcarried : carriedMask qst = carriedMask qsys.status := by
      have hmask := carriedMask_of_conditionMask hqst
      exact hmask.trans hcarried
    have hqreplicas : qst.msReplicaNodes = (replicas qsys w₀).map (·.1) := by
      have hmask := congrArg DaosSystemStatus.msReplicaNodes hqst
      exact hmask
    refine Prog.wp_bind (Prog.wp_mono
      (wp_reconcileNodes (nodeFacts qsys w₀) (keeps h w₀ hserved) ht)
      (fun _ _ h => h) hstop) ?_
    rintro r t ⟨ht, hv, htally⟩
    refine wp_afterRendering h hexternal hengines rfl rfl henough ?_
      (hqcond.trans hst₀) ht hv htally
    exact ⟨⟨rfl, hqcarried⟩, hqreplicas, rfl⟩

theorem wp_reconcileExternal (h : Outline sys rely Base W) (hexternal : external sys = true)
    (hp : Carried sys p) (hconfigs : p.status.nodeConfigs = [])
    (hformatted : findCond p.status .formatted = findCond sys.status .formatted)
    (hs : Base s ∧ s.world.nodes = w₀.nodes) :
    (reconcileExternal (namespaceOf sys) p).wp cluster rely s (fun _ t => W t) W := by
  obtain ⟨psys, pst⟩ := p
  obtain rfl : psys = sys := hp.sys_eq
  have hserved : servedBy psys w₀ = psys.spec.externalMsReplicas := by simp [servedBy, hexternal]
  have hstop : ∀ t, (Base t ∧ t.world.nodes = w₀.nodes) → W t := fun t ht => h.stop t ht.1
  simp only [reconcileExternal, externalMembership, Prog.bind_assoc]
  refine Prog.wp_bind (Prog.wp_mono ((Prog.obeys_ask (.configMap _ _
    (by rintro l ⟨⟩; rfl))).wp (keeps h w₀ hserved) hs) (fun _ _ h => h.2) hstop) ?_
  intro _ t ht
  refine Prog.wp_bind (Prog.wp_mono ((Prog.obeys_ask (.configMap _ _
    (by rintro l ⟨⟩))).wp (keeps h w₀ hserved) ht) (fun _ _ h => h.2) hstop) ?_
  intro _ t ht
  refine Prog.wp_bind (Prog.wp_mono ((Prog.obeys_ask (.quiet rfl)).wp (keeps h w₀ hserved) ht)
    (fun _ _ h => h.2) hstop) ?_
  intro agent t ht
  refine h.elsewhere _ t
    ⟨.elsewhere ⟨rfl, hp.status_eq⟩ hexternal rfl hconfigs, hexternal, hconfigs, ?_⟩ ht.1
  rw [formatted_cond _ (by decide), formatted_cond _ (by decide)]
  exact (formatted_externalConditions _).trans hformatted

theorem wp_reconcileSystem (h : Outline sys rely Base W) (hs : Base s) :
    (reconcileSystem sys).wp cluster rely s (fun _ t => W t) W := by
  have hcarried : ∀ nodes, carriedMask (carryStatus sys nodes) = carriedMask sys.status :=
    fun _ => rfl
  have hkeep := keeps h s.world rfl
  have hstop : ∀ t, (Base t ∧ t.world.nodes = s.world.nodes) → W t := fun t ht => h.stop t ht.1
  unfold reconcileSystem
  refine Prog.wp_bind (A := fun nodes t =>
    nodes = s.world.nodes.filter (fun n => n.matches sys.spec.nodeSelector) ∧
      (Base t ∧ t.world.nodes = s.world.nodes)) ?_ ?_
  · refine Prog.wp_ask ?_ ?_
    · intro hrely
      exact ⟨rfl, hkeep _ _ s (.quiet rfl) (Or.inl rfl) hrely ⟨hs, rfl⟩⟩
    · intro f _ hf hrely
      exact hstop _ (hkeep _ _ s (.quiet rfl) (Or.inr hf) hrely ⟨hs, rfl⟩)
  rintro _ t ⟨rfl, ht⟩
  refine Prog.wp_bind (Prog.wp_mono ((obeys_prepareHosts _ _).wp hkeep ht) (fun _ _ h => h.2)
    hstop) ?_
  intro _ t ht
  have hselected : selectedNodes sys t.world = selectedNodes sys s.world := by
    simp only [selectedNodes, ht.2]
  refine Prog.wp_ite (fun hfew => ?_) fun _ => ?_
  · refine h.early _ t _ ⟨?_, notReady_cond .., ?_⟩ ht.1
    · refine .unready ⟨rfl, hcarried (selectedNodes sys s.world)⟩ (Or.inl ?_) rfl
      rw [hselected]
      exact hfew
    · rw [formatted_cond _ (by decide), formatted_cond _ (by decide), formatted_cond _ (by decide)]
      rfl
  refine Prog.wp_ite (fun hexternal => ?_) fun hexternal => ?_
  · exact wp_reconcileExternal h hexternal ⟨rfl, hcarried (selectedNodes sys s.world)⟩ rfl
      (formatted_cond _ (by decide) ..) ht
  have hinternal : external sys = false := by simpa using hexternal
  refine Prog.wp_ite (fun hempty => ?_) fun hsome => ?_
  · refine h.early _ t _ ⟨?_, notReady_cond .., ?_⟩ ht.1
    · exact .unready ⟨rfl, hcarried (selectedNodes sys s.world)⟩
        (Or.inr ⟨hinternal, by simpa using hempty⟩) rfl
    · rw [formatted_cond _ (by decide), formatted_cond _ (by decide), formatted_cond _ (by decide)]
      rfl
  · refine wp_reconcileServers h hinternal (by simpa using hsome)
      ⟨rfl, hcarried (selectedNodes sys s.world)⟩ ?_ ht
    exact formatted_cond _ (by decide) ..

end Outline

theorem wp_reconcile {name : String} {rely : Entry Call World → Prop}
    {W : Point Call World → Prop} {s : Point Call World}
    (hread : ∀ f, rely ⟨.getSystem name, f, s.world⟩ → W (cluster.next s (.getSystem name) f))
    (hsys : ∀ sys, stored s.world.systems name = some sys → sys.deleting = false →
      rely ⟨.getSystem name, .none, s.world⟩ →
      (reconcileSystem sys).wp cluster rely (cluster.next s (.getSystem name) .none)
        (fun _ t => W t) W) :
    (reconcile name).wp cluster rely s (fun _ t => W t) W := by
  refine Prog.wp_bind (A := fun r t => rely ⟨.getSystem name, .none, s.world⟩ ∧
    r = stored s.world.systems name ∧ t = cluster.next s (.getSystem name) .none) ?_ ?_
  · exact Prog.wp_ask (fun hrely => ⟨hrely, rfl, rfl⟩) fun f _ _ hrely => hread f hrely
  rintro r t ⟨hrely, hr, rfl⟩
  cases r with
  | none => exact hread _ hrely
  | some sys =>
      refine Prog.wp_ite (fun _ => hread _ hrely) fun hlive => ?_
      exact hsys sys hr.symm (by simpa using hlive) hrely

end DaosOperator.System
