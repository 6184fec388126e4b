import DaosOperator.Hostprep.Annotate
import DaosOperator.Operator
import DaosOperator.System.Conflicts

/-!
# Shared drives from hostprep to the rendered configuration

Two engines that write one physical drive destroy each other's data.  The serials that
`hostprep` publishes about the bound devices of a node come back to the operator as they
were, the conflict check finds every serial of two nodes, and a reconcile over such nodes
neither renders one of them nor gives it the management service.
-/

namespace DaosOperator

open Effect Discovery

variable {addrs : List String} {conflicted : List (String × String)} {facts : List NodeFacts}
  {sys : DaosSystem} {w : World} {s : Point Call World}

namespace System

/-! ## What a reconcile renders and chooses -/

/-- A call that writes no configuration and no role for a node that shares a drive. -/
def Spares (sys : DaosSystem) (shared : List String) : Call → Prop
  | .upsertConfigMap key (.server _) =>
      ∃ node, node ∉ shared ∧ key = ⟨namespaceOf sys, sys.name ++ "-server-" ++ node⟩
  | .updateSystemStatus _ st => ∀ node ∈ st.msReplicaNodes, node ∉ shared
  | _ => True

section Spares

variable {sys : DaosSystem} {shared : List String} {α : Type}

/-- Calls that write neither a server configuration nor a status. -/
theorem SystemCall.spares {name ns : String} {S : Scope} {c : Call} (h : SystemCall name ns S c)
    (hfiles : ∀ cfg, ¬S.files (.server cfg)) (hstatus : S.status = false) :
    Spares sys shared c := by
  cases h with
  | quiet hquiet =>
      cases c with
      | upsertConfigMap key file => cases hquiet
      | updateSystemStatus other st => cases hquiet
      | _ => trivial
  | configMap key file hfile =>
      cases file with
      | server cfg => exact absurd hfile (hfiles cfg)
      | _ => trivial
  | status st hst => simp [hstatus] at hst
  | _ => trivial

theorem spares_stage {name ns : String} {S : Scope} {P : α → Prop} {q : Op α}
    (h : q.Obeys (SystemCall name ns S) P) (hfiles : ∀ cfg, ¬S.files (.server cfg))
    (hstatus : S.status = false) : q.Obeys (Spares sys shared) P :=
  h.mono (fun _ hc => hc.spares hfiles hstatus) fun _ h => h

/-- The status gives the management service to no node that shares a drive. -/
def Pass.Spares (shared : List String) (p : Pass) : Prop :=
  ∀ node ∈ p.status.msReplicaNodes, node ∉ shared

theorem obeys_updateStatus_spares (p : Pass) (h : p.Spares shared) (requeue : Duration) :
    (updateStatus p requeue).Obeys (Spares sys shared) fun _ => True := by
  exact Prog.obeys_ask_bind h fun _ => trivial

theorem Pass.Spares.congr {p q : Pass} (h : p.Spares shared)
    (heq : q.status.msReplicaNodes = p.status.msReplicaNodes) : q.Spares shared := by
  unfold Pass.Spares
  rwa [heq]

/-! ## The stages -/

theorem obeys_operate_spares {ns : String} {inp : FormatInput} (hns : inp.ns = ns) {p : Pass}
    (hp : p.Spares shared) (requeue : Duration) :
    (operate ns inp requeue p).Obeys (Spares sys shared) fun _ => True := by
  refine (spares_stage (obeys_reconcileFormat rfl hns) (fun _ h => h) rfl).bind ?_
  rintro ⟨fmtRequeue, q⟩ hq
  refine (spares_stage (obeys_reconcileRankOp rfl) (fun _ h => h) rfl).bind ?_
  rintro ⟨rankRequeue, q'⟩ hq'
  refine (spares_stage (obeys_reconcileEngineRestart rfl) (fun _ h => h) rfl).bind ?_
  rintro ⟨restartRequeue, q''⟩ hq''
  refine obeys_updateStatus_spares _ (hp.congr ?_) _
  -- no stage touches the replicas
  have h₁ : q.status.msReplicaNodes = p.status.msReplicaNodes := by
    have hmask := congrArg DaosSystemStatus.msReplicaNodes hq.status
    exact hmask
  have h₂ : q'.status.msReplicaNodes = q.status.msReplicaNodes := by
    have hmask := congrArg DaosSystemStatus.msReplicaNodes hq'.status
    exact hmask
  have h₃ : q''.status.msReplicaNodes = q'.status.msReplicaNodes := by
    have hmask := congrArg DaosSystemStatus.msReplicaNodes
      (hq''.status.trans (conditionMask_setEnginesCondition ..))
    exact hmask
  have h₄ := congrArg DaosSystemStatus.msReplicaNodes
    (conditionMask_setReady q''.sys inp.serversAllReady q''.status)
  exact h₄.trans (h₃.trans (h₂.trans h₁))

/-- A node renders only where it is not in the map of shared drives. -/
theorem renderNode_some
    {f : NodeFacts} {cfg : Render.ServerConfig}
    (h : (renderNode sys addrs conflicted f).2 = some cfg) :
    f.name ∉ conflicted.map (·.1) ∧
      (renderNode sys addrs conflicted f).1.configMap = sys.name ++ "-server-" ++ f.name := by
  unfold renderNode at h ⊢
  cases hlookup : lookupKey conflicted f.name with
  | some dsn => simp [hlookup] at h
  | none =>
      simp only [hlookup] at h ⊢
      refine ⟨fun hmem => ?_, ?_⟩
      · have hsome := isSome_lookupKey.mpr hmem
        simp [hlookup] at hsome
      · split_ifs at h ⊢
        split at h <;> simp_all

theorem obeys_reconcileNode_spares
    (acc : Rendering) (f : NodeFacts) :
    (reconcileNode sys (namespaceOf sys) addrs conflicted acc f).Obeys
      (Spares sys (conflicted.map (·.1))) fun _ => True := by
  have hserver : (ensureServer sys (namespaceOf sys) f.name).Obeys
      (Spares sys (conflicted.map (·.1))) fun _ => True :=
    Prog.obeys_ite (fun _ => Prog.obeys_ask trivial) fun _ => Prog.obeys_ask trivial
  have hfirst : (if serverEnabled sys then Prog.ret () else
      ensureServer sys (namespaceOf sys) f.name : Op Unit).Obeys
      (Spares sys (conflicted.map (·.1))) fun _ => True :=
    Prog.obeys_ite (fun _ => trivial) fun _ => hserver
  refine hfirst.bind fun _ _ => ?_
  split
  · trivial
  · next ncs cfg hrender =>
      obtain ⟨hspared, hname⟩ := renderNode_some
        (show (renderNode sys addrs conflicted f).2 = some cfg by rw [hrender])
      rw [hrender] at hname
      refine Prog.obeys_ask_bind ⟨f.name, hspared, by rw [← hname]⟩ fun _ => ?_
      refine hserver.mapError.bind fun _ _ => ?_
      refine Prog.obeys_ite (fun _ => ?_) fun _ => trivial
      have hready : (serverReady sys (namespaceOf sys) f.name).Obeys
          (SystemCall sys.name (namespaceOf sys) {}) fun _ => True := obeys_serverReady {} f.name
      exact (spares_stage hready (fun _ h => h) rfl).bind fun _ _ => trivial

/-- The replicas are chosen among the nodes without a conflict. -/
theorem mem_chooseReplicas {want : Nat} {addrOf : List (String × String)} {recorded : List String}
    {c : String × String}
    (h : c ∈ chooseReplicas want addrOf recorded facts) : c.1 ∈ addrOf.map (·.1) := by
  have hfold (nodes : List String) (chosen : List (String × String))
      (hchosen : ∀ c ∈ chosen, c.1 ∈ addrOf.map (·.1)) :
      ∀ c ∈ nodes.foldl (takeReplica want addrOf) chosen, c.1 ∈ addrOf.map (·.1) := by
    induction nodes generalizing chosen with
    | nil => exact hchosen
    | cons node rest ih =>
        refine ih _ fun c hc => ?_
        unfold takeReplica at hc
        cases hlookup : lookupKey addrOf node with
        | none =>
            rw [hlookup] at hc
            exact hchosen c hc
        | some addr =>
            simp only [hlookup] at hc
            split_ifs at hc
            · exact hchosen c hc
            · rcases List.mem_append.mp hc with hc | hc
              · exact hchosen c hc
              · rw [List.mem_singleton.mp hc]
                exact isSome_lookupKey.mp (by simp [hlookup])
  exact hfold _ [] (by simp) c h

theorem replicas_spared {want : Nat} {recorded : List String} {node : String}
    (h : node ∈ (chooseReplicas want (healthyAddrs facts conflicted) recorded facts).map (·.1)) :
    node ∉ conflicted.map (·.1) := by
  obtain ⟨c, hc, rfl⟩ := List.mem_map.mp h
  obtain ⟨a, ha, heq⟩ := List.mem_map.mp (mem_chooseReplicas hc)
  obtain ⟨f, hf, rfl⟩ := List.mem_map.mp ha
  rw [← heq, ← isSome_lookupKey, Option.not_isSome_iff_eq_none]
  simpa using (List.mem_filter.mp hf).2

theorem obeys_afterRendering_spares
    {r : Rendering} {p : Pass} (hsys : p.sys = sys) (hp : p.Spares shared) :
    (afterRendering (namespaceOf sys) facts addrs r p).Obeys (Spares sys shared) fun _ => True := by
  subst hsys
  refine Prog.obeys_ask_bind trivial fun _ => ?_
  refine Prog.obeys_ask_bind trivial fun _ => ?_
  refine Prog.obeys_ask_bind trivial fun agent => ?_
  refine Prog.obeys_ask_bind trivial fun telemetry => ?_
  let st₁ := setConfigRendered r facts.length
    (setCond p.status .clientAgent agent.status agent.reason agent.message)
  let st₂ := setCond (setServersReady p.sys r st₁).2 .telemetry telemetry.status telemetry.reason
    telemetry.message
  have hst₂ : st₂.msReplicaNodes = p.status.msReplicaNodes := by
    have hready :=
      congrArg DaosSystemStatus.msReplicaNodes (conditionMask_setServersReady p.sys r st₁)
    have hrendered := congrArg DaosSystemStatus.msReplicaNodes (conditionMask_setConfigRendered r
      facts.length (setCond p.status .clientAgent agent.status agent.reason agent.message))
    exact hready.trans hrendered
  have hupgrade : (reconcileUpgrade (namespaceOf p.sys) r.rendered ⟨p.sys, st₂⟩).Obeys
      (Spares p.sys shared) fun up => UpgradeAdvances ⟨p.sys, st₂⟩ up.pass :=
    spares_stage (obeys_reconcileUpgrade rfl _) (fun _ h => h) rfl
  refine hupgrade.bind fun up hup => ?_
  have hup' : up.pass.status.msReplicaNodes = p.status.msReplicaNodes := by
    have hmask := congrArg DaosSystemStatus.msReplicaNodes hup.status
    exact hmask.trans hst₂
  refine Prog.obeys_ite (fun _ => ?_) fun _ => ?_
  · refine obeys_updateStatus_spares _ ?_ _
    exact hp.congr hup'
  · exact obeys_operate_spares rfl (hp.congr hup') _

theorem obeys_reconcileServers_spares {nodes : List Node} {p : Pass} (hsys : p.sys = sys) :
    (reconcileServers (namespaceOf sys) nodes p).Obeys
      (Spares sys ((sharing (nodes.map fromNode)).map (·.1))) fun _ => True := by
  subst hsys
  unfold reconcileServers
  extract_lets facts conflicts conflicted want replicas st q addrs
  have hq : q.Spares (conflicted.map (·.1)) := fun node hnode => replicas_spared hnode
  change Prog.Obeys (Spares p.sys (conflicted.map (·.1))) _ _
  refine Prog.obeys_ite (fun _ => ?_) fun _ => ?_
  · refine obeys_updateStatus_spares _ ?_ _
    exact hq.congr rfl
  refine Prog.obeys_ask_bind trivial fun _ => ?_
  refine (spares_stage (obeys_ensureCerts {} rfl) (fun _ h => h) rfl).bind ?_
  rintro ⟨secret, r⟩ ⟨hrsys, ⟨certs, hrst⟩, -⟩
  have hrsys' : r.sys = p.sys := hrsys
  have hr : r.status.msReplicaNodes = q.status.msReplicaNodes := by
    have hmask := congrArg DaosSystemStatus.msReplicaNodes hrst
    exact hmask
  have hloop : (Prog.foldList (reconcileNode r.sys (namespaceOf p.sys) addrs conflicted) facts
      {}).Obeys (Spares p.sys (conflicted.map (·.1))) fun _ => True := by
    rw [hrsys']
    exact Prog.obeys_foldList (fun acc f _ _ => obeys_reconcileNode_spares acc f) trivial
  refine hloop.bind fun rendering _ => ?_
  exact obeys_afterRendering_spares hrsys' (hq.congr hr)

/-- A system run elsewhere gives no node a role. -/
theorem obeys_reconcileExternal_spares {p : Pass} (hsys : p.sys = sys) :
    (reconcileExternal (namespaceOf sys) p).Obeys (Spares sys shared) fun _ => True := by
  subst hsys
  simp only [reconcileExternal, externalMembership, Prog.bind_assoc]
  refine Prog.obeys_ask_bind trivial fun _ => ?_
  refine Prog.obeys_ask_bind trivial fun _ => ?_
  refine Prog.obeys_ask_bind trivial fun agent => ?_
  refine (spares_stage (obeys_reconcileFormat rfl rfl) (fun _ h => h) rfl).bind ?_
  rintro ⟨requeue, r⟩ hr
  refine (spares_stage (obeys_reconcileRankOp rfl) (fun _ h => h) rfl).bind ?_
  rintro ⟨rankRequeue, r'⟩ hr'
  have h₁ : r.status.msReplicaNodes = [] := by
    have hmask := congrArg DaosSystemStatus.msReplicaNodes hr.status
    exact hmask
  have h₂ : r'.status.msReplicaNodes = [] := by
    have hmask := congrArg DaosSystemStatus.msReplicaNodes hr'.status
    exact hmask.trans h₁
  have h₃ := congrArg DaosSystemStatus.msReplicaNodes (conditionMask_setExternalReady r'.status)
  refine obeys_updateStatus_spares _ ?_ _
  intro node hnode
  rw [show (setExternalReady r'.status).msReplicaNodes = [] from h₃.trans h₂] at hnode
  cases hnode

end Spares

/-- The calls of a reconcile, as far as they go, spare the nodes that share a drive. -/
def SparesLog (sys : DaosSystem) (w : World) (s : Point Call World) : Prop :=
  ∀ x ∈ s.log, Spares sys ((sharing (nodeFacts sys w)).map (·.1)) x.call

theorem SparesLog.next {c : Call} {f : Fault}
    (h : SparesLog sys w s) (hc : Spares sys ((sharing (nodeFacts sys w)).map (·.1)) c) :
    SparesLog sys w (cluster.next s c f) := by
  intro x hx
  rcases List.mem_append.mp hx with hx | hx
  · exact h x hx
  · rw [List.mem_singleton.mp hx]
    exact hc

theorem wp_reconcileSystem_spares
    (hnodes : s.world.nodes = w.nodes) (hs : SparesLog sys w s) :
    (reconcileSystem sys).wp cluster (fun _ => True) s (fun _ => SparesLog sys w)
      (SparesLog sys w) := by
  have hframe : ∀ {q : Op Duration} {t : Point Call World},
      q.Obeys (Spares sys ((sharing (nodeFacts sys w)).map (·.1))) (fun _ => True) →
      SparesLog sys w t →
      q.wp cluster (fun _ => True) t (fun _ => SparesLog sys w) (SparesLog sys w) := by
    intro q t hq ht
    exact Prog.wp_mono (hq.wp (fun c f t hc _ _ ht => ht.next hc) ht) (fun _ _ h => h.2)
      fun _ h => h
  unfold reconcileSystem
  refine Prog.wp_bind (A := fun nodes t =>
    nodes = w.nodes.filter (fun n => n.matches sys.spec.nodeSelector) ∧ SparesLog sys w t) ?_ ?_
  · refine Prog.wp_ask (fun _ => ⟨?_, hs.next trivial⟩) fun f _ _ _ => hs.next trivial
    rw [← hnodes]
    rfl
  rintro _ t ⟨rfl, ht⟩
  refine hframe ?_ ht
  have hprepare (nodes : List Node) : (prepareHosts sys (namespaceOf sys) nodes).Obeys
      (SystemCall sys.name (namespaceOf sys) {}) fun _ => True := obeys_prepareHosts {} nodes
  refine (spares_stage (hprepare _) (fun _ h => h) rfl).bind fun _ _ => ?_
  have hnone (p : Pass) (h : p.status.msReplicaNodes = []) :
      p.Spares ((sharing (nodeFacts sys w)).map (·.1)) := by
    intro node hnode
    rw [h] at hnode
    cases hnode
  refine Prog.obeys_ite (fun _ => obeys_updateStatus_spares _ (hnone _ rfl) _) fun _ => ?_
  refine Prog.obeys_ite (fun _ => obeys_reconcileExternal_spares rfl) fun _ => ?_
  refine Prog.obeys_ite (fun _ => obeys_updateStatus_spares _ (hnone _ rfl) _) fun _ => ?_
  exact obeys_reconcileServers_spares rfl

theorem sparesLog_reconcile {name : String}
    (hsys : stored w.systems name = some sys) (faults : List Fault) :
    SparesLog sys w ⟨(operator.step w (.reconcileSystem name faults)).1,
      (operator.step w (.reconcileSystem name faults)).2⟩ := by
  have hread : ∀ f, SparesLog sys w (cluster.next ⟨w, []⟩ (.getSystem name) f) := by
    intro f
    have hstart : SparesLog sys w ⟨w, []⟩ := by simp [SparesLog]
    exact hstart.next trivial
  have hwp : (reconcile name).wp cluster (fun _ => True) ⟨w, []⟩ (fun _ => SparesLog sys w)
      (SparesLog sys w) := by
    refine wp_reconcile (fun f _ => hread f) ?_
    intro sys' hsys' _ _
    obtain rfl : sys' = sys := by simpa [hsys] using hsys'.symm
    exact wp_reconcileSystem_spares rfl (hread _)
  exact Prog.exec_ends hwp faults fun _ _ => trivial

/-- The reconcile writes the server configuration of the node. -/
def RendersIn (sys : DaosSystem) (log : List (Entry Call World)) (node : String) : Prop :=
  ∃ x ∈ log, ∃ cfg,
    x.call = .upsertConfigMap ⟨namespaceOf sys, sys.name ++ "-server-" ++ node⟩ (.server cfg)

/-- The reconcile writes a status that gives the node the management service. -/
def ChoosesIn (log : List (Entry Call World)) (node : String) : Prop :=
  ∃ x ∈ log, ∃ other st, x.call = .updateSystemStatus other st ∧ node ∈ st.msReplicaNodes

theorem not_rendersIn {node : String}
    (h : SparesLog sys w s) (hnode : node ∈ (sharing (nodeFacts sys w)).map (·.1)) :
    ¬RendersIn sys s.log node := by
  rintro ⟨x, hx, cfg, hcall⟩
  have hspares := h x hx
  rw [hcall] at hspares
  obtain ⟨other, hother, hkey⟩ := hspares
  have hname := congrArg (fun k : ObjectKey => k.name.toList) hkey
  simp only [String.toList_append] at hname
  have hsame : node = other := String.toList_inj.mp (List.append_cancel_left hname)
  exact hother (hsame ▸ hnode)

theorem not_choosesIn {node : String}
    (h : SparesLog sys w s) (hnode : node ∈ (sharing (nodeFacts sys w)).map (·.1)) :
    ¬ChoosesIn s.log node := by
  rintro ⟨x, hx, other, st, hcall, hmem⟩
  have hspares := h x hx
  rw [hcall] at hspares
  exact hspares node hmem hnode

end System

/-! ## From hostprep to the configuration -/

open DaosOperator.System Hostprep

/-- Two runs of hostprep found devices with one serial. -/
def ShareDrive (f g : Hostprep.Facts) : Prop :=
  ∃ serial, serial ≠ "" ∧ serial ∈ f.bound.map (·.dsn) ∧ serial ∈ g.bound.map (·.dsn)

theorem exposes_of_recovers {f : Hostprep.Facts} {g : NodeFacts} (h : Recovers f g)
    {serial : String} (hne : serial ≠ "") (hmem : serial ∈ f.bound.map (·.dsn)) :
    g.Exposes serial := by
  obtain ⟨d, hd, rfl⟩ := List.mem_map.mp hmem
  rw [NodeFacts.Exposes, h.dsn]
  refine List.mem_map.mpr ⟨(d.pci, d.dsn), ?_, rfl⟩
  exact List.mem_map.mpr ⟨d, List.mem_filter.mpr ⟨hd, decide_eq_true hne⟩, rfl⟩

/-- Nodes that share a drive are in the map a reconcile spares. -/
theorem mem_sharing_of_shareDrive {n m : Node}
    {f g : Hostprep.Facts} (hn : n ∈ selectedNodes sys w) (hm : m ∈ selectedNodes sys w)
    (hne : n.name ≠ m.name) (hf : Recovers f (fromNode n)) (hg : Recovers g (fromNode m))
    (hshare : ShareDrive f g) : n.name ∈ (sharing (nodeFacts sys w)).map (·.1) := by
  obtain ⟨serial, hserial, hfs, hgs⟩ := hshare
  have hn' : fromNode n ∈ nodeFacts sys w := List.mem_map.mpr ⟨n, hn, rfl⟩
  have hm' : fromNode m ∈ nodeFacts sys w := List.mem_map.mpr ⟨m, hm, rfl⟩
  have hexposed := exposes_of_recovers hf hserial hfs
  refine mem_keys_sharing.mpr ⟨serial, ?_, ?_⟩
  · exact one_lt_sightings hn' hm' hne hserial hexposed (exposes_of_recovers hg hserial hgs)
  · exact mem_sightings.mpr ⟨fromNode n, hn', rfl, hserial, hexposed⟩

/-- What hostprep found is what the operator reads, and a reconcile neither renders nor
chooses a node that shares a drive with another one it selected. -/
theorem shared_drives_caught (w : World) (name : String) (faults : List Fault) (sys : DaosSystem)
    (run : Node → Hostprep.Facts) (time : Node → Time)
    (hsys : stored w.systems name = some sys)
    (hrun : ∀ n ∈ selectedNodes sys w, (run n).WellFormed ∧ Published (run n) (time n) n) :
    (∀ n ∈ selectedNodes sys w, Recovers (run n) (fromNode n)) ∧
    (∀ n ∈ selectedNodes sys w, ∀ m ∈ selectedNodes sys w, n.name ≠ m.name →
      ShareDrive (run n) (run m) →
      ¬RendersIn sys (operator.step w (.reconcileSystem name faults)).2 n.name ∧
      ¬ChoosesIn (operator.step w (.reconcileSystem name faults)).2 n.name) ∧
    ∀ n ∈ selectedNodes sys w, ∀ m ∈ selectedNodes sys w, n.name ≠ m.name →
      RendersIn sys (operator.step w (.reconcileSystem name faults)).2 n.name →
      RendersIn sys (operator.step w (.reconcileSystem name faults)).2 m.name →
      ¬ShareDrive (run n) (run m) := by
  have hrecovers : ∀ n ∈ selectedNodes sys w, Recovers (run n) (fromNode n) :=
    fun n hn => recovers_fromNode (hrun n hn).1 (hrun n hn).2
  have hlog := sparesLog_reconcile hsys faults
  refine ⟨hrecovers, ?_, ?_⟩
  · intro n hn m hm hne hshare
    have hmem := mem_sharing_of_shareDrive hn hm hne (hrecovers n hn) (hrecovers m hm) hshare
    exact ⟨not_rendersIn hlog hmem, not_choosesIn hlog hmem⟩
  · intro n hn m hm hne hrenders _ hshare
    have hmem := mem_sharing_of_shareDrive hn hm hne (hrecovers n hn) (hrecovers m hm) hshare
    exact not_rendersIn hlog hmem hrenders

/-- A run of hostprep that found one device with this serial. -/
def oneDevice (serial : String) : Hostprep.Facts where
  fabric := { name := "ib0", rdma := true, numa := 1, ipv4 := "10.0.0.1" }
  bound := [{ pci := "0000:81:00.0", driver := "vfio-pci", dsn := serial, numa := 1 }]

/-- The serial of each node; `a` and `b` are the two ports of one chassis. -/
def serialOf (n : Node) : String := if n.name = "c" then "S2" else "S1"

/-- A node as hostprep leaves it. -/
def publishedNode (name : String) : Node :=
  { name, annotations := annotations (oneDevice (serialOf { name })) 0 }

def threeNodes : DaosSystem where
  name := "s"
  spec := { allowInsecure := true, msReplicas := 1, engines := [{}] }

/-- The cluster of that system. -/
def sharedDriveWorld : World :=
  final [.change (.createSystem "s" {} threeNodes.spec),
    .change (.setNodes (["a", "b", "c"].map publishedNode))]

/-- The node without the shared drive is rendered, the other two are not. -/
theorem shared_drives_caught_two_ports :
    ((operator.step sharedDriveWorld (.reconcileSystem "s" [])).2.any fun x =>
      match x.call with
      | .upsertConfigMap key (.server _) => key.name = "s-server-c"
      | _ => false) ∧
    ¬RendersIn threeNodes (operator.step sharedDriveWorld (.reconcileSystem "s" [])).2 "a" ∧
    ¬ChoosesIn (operator.step sharedDriveWorld (.reconcileSystem "s" [])).2 "a" := by
  have hselected :
      selectedNodes threeNodes sharedDriveWorld = ["a", "b", "c"].map publishedNode := by
    decide +kernel
  have hwell : ∀ serial ∈ ["S1", "S2"], (oneDevice serial).WellFormed := by
    intro serial hserial
    have hcases : serial = "S1" ∨ serial = "S2" := by simpa using hserial
    have hfabric : ∀ c ∈ "ib0".toList, Text.isSpace c = false := by
      have hall : "ib0".toList.all (fun c => !Text.isSpace c) = true := by decide
      simpa only [Bool.not_eq_true'] using List.all_eq_true.mp hall
    rcases hcases with rfl | rfl
    · exact ⟨by decide, by decide, by decide, hfabric, by decide, by decide⟩
    · exact ⟨by decide, by decide, by decide, hfabric, by decide, by decide⟩
  have hcaught := shared_drives_caught sharedDriveWorld "s" [] threeNodes
    (fun n => oneDevice (serialOf n)) (fun _ => 0) (by decide +kernel) (by
      intro n hn
      rw [hselected] at hn
      refine ⟨hwell _ ?_, ?_⟩
      · unfold serialOf
        split <;> simp
      · have hpublished : ∀ n ∈ ["a", "b", "c"].map publishedNode,
            Published (oneDevice (serialOf n)) 0 n := by decide +kernel
        exact hpublished n hn)
  refine ⟨by decide +kernel, ?_⟩
  refine hcaught.2.1 (publishedNode "a") ?_ (publishedNode "b") ?_ (by decide) ?_
  · rw [hselected]
    simp
  · rw [hselected]
    simp
  · exact ⟨"S1", by decide, by decide, by decide⟩

end DaosOperator
