import DaosOperator.Safety.Completion

/-!
# Nothing else touches a system that is being restarted

A reconcile that finds a restart under way leaves formatting, membership queries,
rank operations and engine starts alone because `reconcileUpgrade` reports itself in
progress.  It does so only while it runs at all: with `spec.server.enabled` off, or
without a node that renders, it returns before it looks at the phase.
-/

namespace DaosOperator

open Effect
open DaosOperator.System

/-! ## The property -/

/-- The stored status says that a restart is under way. -/
def restarting (w : World) (name : String) : Bool :=
  (stored w.systems name).any fun sys => upgradeInProgress sys.status

/-- The Jobs a restart must not be mixed with. -/
def foreignKinds : List JobKind := [.format, .query, .rankOp, .engineStart]

/-- The call creates such a Job of the system. -/
def disturbs (name : String) (x : Entry Call World) : Bool :=
  (created x).any fun spec => foreignKinds.any fun k => spec.key = jobKey name spec.key.ns k

/-- A reconcile of a system the operator runs, before and after which a restart is under
way, creates none of these Jobs. -/
def Undisturbed (step : Step) : Prop :=
  ∀ name ∈ step.event.system, ∀ sys ∈ stored step.before.systems name, external sys = false →
    restarting step.before name = true → restarting step.after name = true →
      ∀ x ∈ step.obs, disturbs name x = false
  deriving Decidable

/-! ## When it holds -/

/-- The restart is looked after: there are servers to restart. -/
def looksAfter (sys : DaosSystem) (w : World) : Bool :=
  serverEnabled sys && (nodeFacts sys w).any fun f => renders sys w f

/-- Neither a rank operation is requested nor an engine start in flight. -/
def nothingAsked (sys : DaosSystem) (w : World) : Bool :=
  sys.annotations.rankOp.isNone && ((w.memory.engines.get sys.name).getD {}).running = ""

/-- A reconcile that finds a restart under way looks after it and is not interrupted, or
there is nothing to look after and nothing else to do. -/
def LookedAfter (step : Step) : Prop :=
  ∀ name ∈ step.event.system, ∀ sys ∈ stored step.before.systems name, external sys = false →
    upgradeInProgress sys.status = true →
      looksAfter sys step.before = true ∧ endlessRequest sys = false ∧
          (∀ x ∈ step.obs, interrupts x = false) ∨
        looksAfter sys step.before = false ∧ nothingAsked sys step.before = true
  deriving Decidable

/-! ## Calls that create no foreign Job -/

theorem disturbs_eq_false {name ns : String} {S : Scope} {x : Entry Call World}
    (hc : SystemCall name ns S x.call) (hS : ∀ k, S.jobs k = true → k ∉ foreignKinds) :
    disturbs name x = false := by
  obtain ⟨call, fault, before⟩ := x
  by_contra hdisturbs
  simp only [disturbs, created, Bool.not_eq_false] at hdisturbs
  split at hdisturbs
  · next spec =>
      obtain ⟨kind, hkind, hjob⟩ := SystemCall.of_createJob hc
      split at hdisturbs
      · obtain ⟨k, hk, hkey⟩ := List.any_eq_true.mp hdisturbs
        have hsame := of_decide_eq_true hkey
        rw [hjob.key] at hsame
        exact hS kind hkind ((jobKey_inj hsame).2.2 ▸ hk)
      · cases hdisturbs
  · cases hdisturbs

/-- No entry of the log creates a foreign Job. -/
def Quiet (name : String) (log : Log) : Prop := ∀ x ∈ log, disturbs name x = false

theorem Quiet.next {name ns : String} {S : Scope} {c : Call} {s : Point Call World}
    (h : Quiet name s.log) (hc : SystemCall name ns S c)
    (hS : ∀ k, S.jobs k = true → k ∉ foreignKinds) (f : Fault) :
    Quiet name (cluster.next s c f).log := by
  intro x hx
  rcases Handler.mem_next_log hx with hx | rfl
  · exact h x hx
  · exact disturbs_eq_false hc hS

theorem Quiet.wp {α : Type} {name ns : String} {S : Scope} {P : α → Prop} {q : Op α}
    {rely : Entry Call World → Prop} {s : Point Call World} (h : Quiet name s.log)
    (hq : q.Obeys (SystemCall name ns S) P) (hS : ∀ k, S.jobs k = true → k ∉ foreignKinds) :
    q.wp cluster rely s (fun a t => P a ∧ Quiet name t.log) fun t => Quiet name t.log :=
  hq.wp (I := fun t => Quiet name t.log) (fun _ f _ hc _ _ ht => ht.next hc hS f) h

theorem wp_updateStatus_quiet {name : String} {rely : Entry Call World → Prop}
    {s : Point Call World} {p : Pass} (hname : p.sys.name = name) (hs : Quiet name s.log)
    (requeue : Duration) :
    (updateStatus p requeue).wp cluster rely s (fun _ t => Quiet name t.log)
      fun t => Quiet name t.log := by
  have hobeys : (updateStatus p requeue).Obeys (SystemCall name "" { status := true }) _ :=
    obeys_updateStatus hname rfl requeue
  exact Prog.wp_mono (hs.wp hobeys (by simp)) (fun _ _ h => h.2) fun _ h => h

/-! ## The phase a restart is left in -/

section Phase

variable {ns : String}

theorem obeys_failUpgrade_phase (p : Pass) (up : UpgradeStatus) (msg : String) :
    (failUpgrade p up msg).Obeys (fun _ => True) fun r =>
      upgradeInProgress r.pass.status = false := by
  have hobeys : (failUpgrade p up msg).Obeys (SystemCall p.sys.name "" (restartScope true)) _ :=
    obeys_failUpgrade rfl up msg
  exact hobeys.mono (fun _ _ => trivial) fun _ h => h.2

/-- A restart that is looked after says it is over only when it has ended. -/
theorem obeys_reconcileUpgrade_phase {rendered : Nat} {p : Pass}
    (henabled : serverEnabled p.sys = true) (hrendered : rendered ≠ 0)
    (hp : upgradeInProgress p.status = true) :
    (reconcileUpgrade ns rendered p).Obeys (fun _ => True) fun r =>
      r.inProgress = true ∨ upgradeInProgress r.pass.status = false := by
  refine Prog.obeys_ite (fun hguard => ?_) fun _ => ?_
  · simp [henabled, hrendered] at hguard
  refine Prog.Obeys.bind (P := fun _ => True)
    (Prog.obeys_ask_bind trivial fun _ => trivial) fun pods _ => ?_
  split
  · next up hup _ =>
      have hobeys : (continueUpgrade ns rendered pods up p).Obeys
          (SystemCall p.sys.name ns (restartScope true)) _ :=
        obeys_continueUpgrade rfl rendered pods up fun _ => rfl
      exact hobeys.mono (fun _ _ => trivial) fun _ h => h.ends hup
  · next hnone =>
      cases hup : p.status.upgrade with
      | none => simp [upgradeInProgress, hup] at hp
      | some up => exact absurd hp (by simpa using hnone up hup)

end Phase

/-! ## Once the restart has ended -/

section Ended

variable {rely : Entry Call World → Prop} {s : Point Call World} {sys : DaosSystem}
  {name ns : String}

/-- How a reconcile may end: it was quiet, the restart is over, or it was interrupted. -/
def Ends (name : String) (sys : DaosSystem) (t : Point Call World) : Prop :=
  Quiet name t.log ∨ restarting t.world name = false ∨ (∃ x ∈ t.log, interrupts x = true) ∨
    endlessRequest sys = true

theorem wp_interrupted {α : Type} {q : Op α} {S : Scope} {P : α → Prop}
    {A : α → Point Call World → Prop} (hq : q.Obeys (SystemCall name ns S) P)
    (hS : S.status = false) (hs : BeforeWrite s.log)
    (hfails : q.wp cluster rely s A fun t =>
      ∃ new, t.log = s.log ++ new ∧ ∃ y ∈ new, y.fault ≠ .none) :
    q.wp cluster rely s (fun a t => A a t ∧ P a ∧ BeforeWrite t.log)
      fun t => ∃ x ∈ t.log, interrupts x = true := by
  have hbeforeWrite : q.wp cluster rely s (fun a t => P a ∧ BeforeWrite t.log)
      fun t => BeforeWrite t.log :=
    hq.wp (I := fun t => BeforeWrite t.log) (fun _ f _ hc _ _ ht => ht.next hc hS f) hs
  refine Prog.wp_mono (Prog.wp_and hfails hbeforeWrite) (fun _ _ h => h) ?_
  rintro t ⟨⟨new, hnew, y, hy, hfault⟩, ht⟩
  have hmem : y ∈ t.log := by simp [hnew, hy]
  exact ⟨y, hmem, ht.interrupts hmem hfault⟩

theorem restarting_eq_false {w : World} {f : DaosSystem → Option DaosSystem}
    (hf : ∀ s s', f s = some s' → upgradeInProgress s'.status = false) :
    restarting { w with systems := modify w.systems name f } name = false := by
  unfold restarting
  rw [stored_modify_self]
  cases hstored : stored w.systems name with
  | none => rfl
  | some s =>
      cases hs' : f s with
      | none => simp [hs']
      | some s' => simp [hs', hf s s' hs']

theorem wp_updateStatus_ended {p : Pass} (hname : p.sys.name = name)
    (hended : upgradeInProgress p.status = false) (requeue : Duration) :
    (updateStatus p requeue).wp cluster rely s (fun _ t => Ends name sys t) (Ends name sys) := by
  subst hname
  have hwrite : ∀ f, Ends p.sys.name sys
      (cluster.next s (.updateSystemStatus p.sys.name p.status) f) := by
    intro f
    cases f with
    | failed e =>
        exact Or.inr (Or.inr (Or.inl
          ⟨_, List.mem_append_right _ (List.mem_singleton_self _), rfl⟩))
    | none | lost e =>
        refine Or.inr (Or.inl (restarting_eq_false ?_))
        rintro s' _ ⟨⟩
        exact hended
  refine Prog.wp_bind (A := fun _ t => Ends p.sys.name sys t) ?_ fun _ _ ht => ht
  exact Prog.wp_ask (fun _ => hwrite .none) fun f _ _ _ => hwrite f

theorem endlessRequest_eq {sys sys' : DaosSystem}
    (h : sys'.annotations.rankOp = sys.annotations.rankOp) :
    endlessRequest sys' = endlessRequest sys := by
  unfold endlessRequest
  rw [h]

theorem wp_operate_ended {q : Pass} {inp : FormatInput} (hname : q.sys.name = name)
    (hns : inp.ns = ns) (hrequest : q.sys.annotations.rankOp = sys.annotations.rankOp)
    (hended : upgradeInProgress q.status = false) (hranks : NarrowRanks q.status)
    (hnarrow : NarrowWorld s.world) (hs : BeforeWrite s.log) (requeue : Duration) :
    (operate ns inp requeue q).wp cluster rely s (fun _ t => Ends name sys t) (Ends name sys) := by
  by_cases hendless : endlessRequest sys = true
  · exact Prog.wp_mono (Prog.wp_log _) (fun _ _ _ => Or.inr (Or.inr (Or.inr hendless)))
      fun _ _ => Or.inr (Or.inr (Or.inr hendless))
  have hstop : ∀ t : Point Call World, (∃ x ∈ t.log, interrupts x = true) → Ends name sys t :=
    fun t ht => Or.inr (Or.inr (Or.inl ht))
  have hformat := obeys_reconcileFormat hname hns
  refine Prog.wp_bind (Prog.wp_mono (Prog.wp_and (wp_interrupted hformat rfl hs
    (steady_reconcileFormat inp q).wp) (Prog.wp_and_returns (hnarrow.wp hformat rfl rfl)
      (obeys_reconcileFormat_result inp q))) (fun _ _ h => h) fun t h => hstop t h.1) ?_
  rintro ⟨fmtRequeue, q₁⟩ t ⟨⟨-, hadv₁, ht⟩, ⟨-, hnarrow⟩, hresult⟩
  have hranks₁ : NarrowRanks q₁.status := hranks.format hresult
  have hrequest₁ : q₁.sys.annotations.rankOp = sys.annotations.rankOp := by
    rw [← hrequest]
    refine hadv₁.sys.proj (f := fun s => s.annotations.rankOp) fun s p hp => ?_
    cases p with
    | removeFormatApproved => rfl
    | _ => cases hp
  have hended₁ : q₁.status.upgrade = q.status.upgrade := by
    have hmask := congrArg DaosSystemStatus.upgrade hadv₁.status
    exact hmask
  have hends : endlessRequest q₁.sys = false := by
    rw [endlessRequest_eq hrequest₁]
    simpa using hendless
  have hname₁ : q₁.sys.name = name := hadv₁.name.trans hname
  have hrankOp : (reconcileRankOp ns q₁).Obeys (SystemCall name ns rankOpScope) _ :=
    obeys_reconcileRankOp hname₁
  refine Prog.wp_bind (Prog.wp_mono (Prog.wp_and (wp_interrupted hrankOp rfl ht
    (steady_reconcileRankOp ns (hangs_eq_false hends _)).wp) (hnarrow.wp hrankOp rfl rfl))
      (fun _ _ h => h) fun t h => hstop t h.1) ?_
  rintro ⟨rankRequeue, q₂⟩ t ⟨⟨-, hadv₂, ht⟩, -, hnarrow⟩
  have hranks₂ : NarrowRanks q₂.status := by
    have hmask := congrArg DaosSystemStatus.ranks hadv₂.status
    exact hranks₁.congr hmask
  have hended₂ : q₂.status.upgrade = q.status.upgrade := by
    have hmask := congrArg DaosSystemStatus.upgrade hadv₂.status
    exact hmask.trans hended₁
  let q₃ : Pass := { q₂ with status := setEnginesCondition q₂.sys q₂.status inp.serversAllReady }
  have hmask₃ : conditionMask q₃.status = conditionMask q₂.status :=
    conditionMask_setEnginesCondition ..
  have hranks₃ : NarrowRanks q₃.status := by
    have hmask := congrArg DaosSystemStatus.ranks hmask₃
    exact hranks₂.congr hmask
  have hname₃ : q₃.sys.name = name := hadv₂.name.trans hname₁
  have hengines : (reconcileEngineRestart ns q₃).Obeys (SystemCall name ns enginesScope) _ :=
    obeys_reconcileEngineRestart hname₃
  refine Prog.wp_bind (Prog.wp_mono (wp_interrupted hengines rfl ht
    (wp_reconcileEngineRestart_fails ns hnarrow hranks₃)) (fun _ _ h => h) fun t h => hstop t h) ?_
  rintro ⟨restartRequeue, q₄⟩ t ⟨-, hadv₄, -⟩
  have hname₄ : q₄.sys.name = name := hadv₄.name.trans hname₃
  have hupgrade : (setReady q₄.sys inp.serversAllReady q₄.status).upgrade = q.status.upgrade := by
    have hready := congrArg DaosSystemStatus.upgrade
      (conditionMask_setReady q₄.sys inp.serversAllReady q₄.status)
    have hmask₄ := congrArg DaosSystemStatus.upgrade hadv₄.status
    have hmask := congrArg DaosSystemStatus.upgrade hmask₃
    exact hready.trans (hmask₄.trans (hmask.trans hended₂))
  have hended₄ : upgradeInProgress (setReady q₄.sys inp.serversAllReady q₄.status) = false := by
    simpa only [upgradeInProgress, hupgrade] using hended
  exact wp_updateStatus_ended (p := { q₄ with status := setReady q₄.sys _ q₄.status })
    hname₄ hended₄ _

/-! ## A restart nobody looks after -/

theorem candidates_eq_nil {sys : DaosSystem} {st : DaosSystemStatus}
    (h : serverEnabled sys = true → ∀ nc ∈ st.nodeConfigs, nc.workload = "") :
    engineRestartCandidates sys st = [] := by
  unfold engineRestartCandidates
  split
  · rfl
  · next henabled =>
      have henabled : serverEnabled sys = true := by
        simp only [Bool.or_eq_true, not_or, Bool.not_eq_true, Bool.not_eq_false'] at henabled
        exact henabled.1.1
      have hserved : ∀ node, nodeServed st node = false := by
        intro node
        unfold nodeServed
        cases hlast : (st.nodeConfigs.filter fun nc => nc.node = node).getLast? with
        | none => rfl
        | some nc =>
            have hmem := List.mem_of_mem_filter (List.mem_of_getLast? hlast)
            simp [served, h henabled nc hmem]
      simp [hserved]

theorem planRestart_nil (now : Time) (st : DaosSystemStatus) {m : EngineMemory}
    (hm : m.running = "") : (planRestart now [] st m).memory.running = "" := by
  simp [planRestart, hm]

/-- Without candidates and without a start in flight, no start Job is created. -/
theorem wp_reconcileEngineRestart_idle {p : Pass} (hname : p.sys.name = name)
    (hidle : engineRestartCandidates p.sys p.status = [])
    (hmemory : ((s.world.memory.engines.get name).getD {}).running = "")
    (hs : Quiet name s.log) :
    (reconcileEngineRestart ns p).wp cluster rely s (fun r t => Quiet name t.log ∧ r.2.sys = p.sys)
      fun t => Quiet name t.log := by
  subst hname
  have hnext : ∀ {c : Call} {t : Point Call World}, SystemCall p.sys.name ns { engines := true } c →
      Quiet p.sys.name t.log → ∀ f, Quiet p.sys.name (cluster.next t c f).log :=
    fun hc ht f => ht.next hc (by simp) f
  unfold reconcileEngineRestart
  refine Prog.wp_bind (A := fun _ t => Quiet p.sys.name t.log ∧ t.world = s.world) ?_ ?_
  · exact Prog.wp_ask (fun _ => ⟨hnext (.quiet rfl) hs _, rfl⟩) fun f _ _ _ =>
      hnext (.quiet rfl) hs f
  rintro now t ⟨ht, hworld⟩
  rw [hidle]
  refine Prog.wp_bind (A := fun m t => Quiet p.sys.name t.log ∧ m.running = "") ?_ ?_
  · refine Prog.wp_ask (fun _ => ⟨hnext (.quiet rfl) ht _, ?_⟩) fun f _ _ _ =>
      hnext (.quiet rfl) ht f
    rw [hworld]
    exact hmemory
  rintro m t ⟨ht, hm⟩
  refine Prog.wp_bind (A := fun _ t => Quiet p.sys.name t.log) ?_ ?_
  · exact Prog.wp_ask (fun _ => hnext (.setEngineMemory _ rfl) ht _) fun f _ _ _ =>
      hnext (.setEngineMemory _ rfl) ht f
  intro _ t ht
  refine Prog.wp_bind (A := fun _ t => Quiet p.sys.name t.log) ?_ ?_
  · refine Prog.wp_foldList (J := fun _ _ t => Quiet p.sys.name t.log) ?_ ht
    intro _ rank _ _ t _ ht
    exact Prog.wp_ask (fun _ => hnext (.quiet rfl) ht _) fun f _ _ _ => hnext (.quiet rfl) ht f
  intro _ t ht
  refine Prog.wp_ite (fun _ => ⟨ht, rfl⟩) fun hrunning => ?_
  exact absurd (planRestart_nil now p.status hm) hrunning

/-- The stages behind a restart nobody looks after, when nothing is asked. -/
theorem wp_operate_idle {p : Pass} {inp : FormatInput} (hname : p.sys.name = name)
    (hinternal : external p.sys = false)
    (hguard : (!serverEnabled p.sys || inp.rendered = 0) = true)
    (hrequest : p.sys.annotations.rankOp = none)
    (hconfigs : ∀ nc ∈ p.status.nodeConfigs, nc.workload = "")
    (hmemory : ((s.world.memory.engines.get name).getD {}).running = "")
    (hs : Quiet name s.log) (requeue : Duration) :
    (operate ns inp requeue p).wp cluster rely s (fun _ t => Quiet name t.log)
      fun t => Quiet name t.log := by
  have hformat : reconcileFormat inp p = .ret (0, p.cond .formatted .unknown "NoServers"
      "no server workloads to query") := by
    unfold reconcileFormat
    rw [if_pos (by rw [hinternal, hguard]; rfl)]
  have hrankOp : ∀ st,
      reconcileRankOp ns { p with status := st } = .ret (0, { p with status := st }) := by
    intro st
    unfold reconcileRankOp
    rw [hrequest]
  unfold operate
  rw [hformat]
  dsimp only [Prog.bind, Pass.cond]
  rw [hrankOp]
  dsimp only [Prog.bind]
  refine Prog.wp_bind (wp_reconcileEngineRestart_idle hname ?_ hmemory hs) ?_
  · refine candidates_eq_nil fun _ nc hnc => ?_
    have hmask := congrArg DaosSystemStatus.nodeConfigs
      (conditionMask_setEnginesCondition p.sys (setCond p.status .formatted .unknown "NoServers"
        "no server workloads to query") inp.serversAllReady)
    have hsame : _ = p.status.nodeConfigs := hmask
    exact hconfigs nc (hsame ▸ hnc)
  rintro ⟨restartRequeue, q⟩ t ⟨ht, hq⟩
  have hqname : q.sys.name = name := (congrArg DaosSystem.name hq).trans hname
  exact wp_updateStatus_quiet (p := { q with status := setReady q.sys _ q.status }) hqname ht _

/-! ## A whole reconcile -/

/-- What holds until the restart is looked at. -/
structure Unlooked (name : String) (w₀ : World) (t : Point Call World) : Prop where
  quiet : Quiet name t.log
  beforeWrite : BeforeWrite t.log
  narrow : NarrowWorld t.world
  nodes : t.world.nodes = w₀.nodes
  memory : t.world.memory.engines = w₀.memory.engines

theorem Unlooked.next {w₀ : World} {S : Scope} {c : Call} (h : Unlooked name w₀ s)
    (hc : SystemCall name ns S c) (hjobs : ∀ k, S.jobs k = true → k ∉ foreignKinds)
    (hstatus : S.status = false) (hengines : S.engines = false) (f : Fault) :
    Unlooked name w₀ (cluster.next s c f) where
  quiet := h.quiet.next hc hjobs f
  beforeWrite := h.beforeWrite.next hc hstatus f
  narrow := h.narrow.respond hc hstatus hengines f
  nodes := hc.surroundings.1.trans h.nodes
  memory := (hc.engines hengines).trans h.memory

theorem looksAfter_congr {w w' : World} (h : w.nodes = w'.nodes) :
    looksAfter sys w = looksAfter sys w' := by
  simp only [looksAfter, nodeFacts_congr h, renders_congr h]

/-- The loop rendered a node exactly when the restart is looked after. -/
theorem looksAfter_iff {w : World} {r : Rendering} {p : Pass} (h : HandsOver sys w r p) :
    looksAfter sys w = true ↔ serverEnabled sys = true ∧ r.rendered ≠ 0 := by
  rw [h.tally.rendered, looksAfter, Bool.and_eq_true, List.any_eq_true, ne_eq,
    List.length_eq_zero_iff, List.filter_eq_nil_iff]
  simp only [renders, not_forall, not_not, exists_prop]

/-- A restart that is looked after ends the reconcile, or has ended. -/
theorem wp_fromUpgrade_looksAfter {w₀ : World} {r : Rendering} {p : Pass}
    {facts : List Discovery.NodeFacts} (hup : upgradeInProgress sys.status = true)
    (hover : HandsOver sys s.world r p) (hranks : NarrowRanks sys.status)
    (hlooks : looksAfter sys s.world = true) (hs : Unlooked sys.name w₀ s) (requeue : Duration) :
    (fromUpgrade (namespaceOf sys) facts r requeue p).wp cluster rely s
      (fun _ t => Ends sys.name sys t) (Ends sys.name sys) := by
  obtain ⟨psys, pst⟩ := p
  obtain rfl : psys = sys := hover.pass.carried.sys_eq
  have hmask := hover.pass.carried.status_eq
  have hpst : pst.upgrade = psys.status.upgrade := by
    have hupgrade := congrArg DaosSystemStatus.upgrade hmask
    exact hupgrade
  have hin : upgradeInProgress pst = true := by
    simpa only [upgradeInProgress, hpst] using hup
  have hpranks : NarrowRanks pst := by
    have hsame := congrArg DaosSystemStatus.ranks hmask
    exact hranks.congr hsame
  obtain ⟨henabled, hrendered⟩ := (looksAfter_iff hover).mp hlooks
  have hobeys : (reconcileUpgrade (namespaceOf psys) r.rendered ⟨psys, pst⟩).Obeys
      (SystemCall psys.name (namespaceOf psys) upgradeScope) _ :=
    obeys_reconcileUpgrade (p := ⟨psys, pst⟩) rfl r.rendered
  refine Prog.wp_bind (Prog.wp_mono (Prog.wp_and_returns (hobeys.wp
    (I := Unlooked psys.name w₀) (fun c f t hc _ _ ht => ht.next hc ?_ rfl rfl f) hs)
      (obeys_reconcileUpgrade_phase henabled hrendered hin)) (fun _ _ h => h)
        fun t ht => Or.inl ht.quiet) ?_
  · intro k hk
    cases k <;> first | decide | cases hk
  rintro ⟨inProgress, upRequeue, q⟩ t ⟨⟨hadv, ht⟩, hphase⟩
  have hname : q.sys.name = psys.name := hadv.name
  refine Prog.wp_ite (fun _ => ?_) fun hended => ?_
  · exact Prog.wp_mono (wp_updateStatus_quiet (p := q.duringUpgrade) hname ht.quiet _)
      (fun _ _ h => Or.inl h) fun _ h => Or.inl h
  · have hover' : upgradeInProgress q.status = false := hphase.resolve_left hended
    have hqranks : NarrowRanks q.status := by
      have hsame := congrArg DaosSystemStatus.ranks hadv.status
      exact hpranks.congr hsame
    refine wp_operate_ended hname rfl ?_ hover' hqranks ht.narrow ht.beforeWrite _
    refine hadv.sys.proj (f := fun s => s.annotations.rankOp) fun s p hp => ?_
    cases p with
    | removeRankOp | removeFormatApproved => cases hp
    | _ => rfl

/-- A restart nobody looks after lets the other stages run, which find nothing to do. -/
theorem wp_fromUpgrade_idle {w₀ : World} {r : Rendering} {p : Pass}
    {facts : List Discovery.NodeFacts} (hover : HandsOver sys s.world r p)
    (hlooks : looksAfter sys s.world = false) (hidle : nothingAsked sys s.world = true)
    (hs : Unlooked sys.name w₀ s) (requeue : Duration) :
    (fromUpgrade (namespaceOf sys) facts r requeue p).wp cluster rely s
      (fun _ t => Quiet sys.name t.log) fun t => Quiet sys.name t.log := by
  obtain ⟨psys, pst⟩ := p
  obtain rfl : psys = sys := hover.pass.carried.sys_eq
  have hguard : (!serverEnabled psys || r.rendered = 0) = true := by
    have hneither := mt (looksAfter_iff hover).mpr (by simp [hlooks])
    by_contra hnot
    simp only [Bool.not_eq_true, Bool.or_eq_false_iff, Bool.not_eq_false', decide_eq_false_iff_not]
      at hnot
    exact hneither hnot
  simp only [nothingAsked, Bool.and_eq_true, Option.isNone_iff_eq_none, decide_eq_true_eq] at hidle
  have hskip : reconcileUpgrade (namespaceOf psys) r.rendered ⟨psys, pst⟩ =
      .ret ⟨false, 0, ⟨psys, pst⟩⟩ := by
    unfold reconcileUpgrade
    rw [if_pos hguard]
  unfold fromUpgrade
  rw [hskip]
  refine wp_operate_idle rfl hover.external hguard hidle.1 ?_ hidle.2 hs.quiet _
  intro nc hnc
  by_contra hworkload
  have hnc' : nc ∈ r.nodeConfigs := hover.pass.configs ▸ hnc
  obtain ⟨henabled, f, hf, hrenders, -⟩ := hover.tally.workload nc hnc' hworkload
  have hlooks' : looksAfter psys s.world = true := by
    simp only [looksAfter, henabled, Bool.true_and, List.any_eq_true]
    exact ⟨f, hf, hrenders⟩
  rw [hlooks] at hlooks'
  cases hlooks'

theorem outline_alone {w₀ : World} (hinternal : external sys = false)
    (hup : upgradeInProgress sys.status = true) (hranks : NarrowRanks sys.status)
    (hcare : looksAfter sys w₀ = true ∨
      looksAfter sys w₀ = false ∧ nothingAsked sys w₀ = true) :
    Outline sys rely (Unlooked sys.name w₀) fun t =>
      Quiet sys.name t.log ∨ looksAfter sys w₀ = true ∧ Ends sys.name sys t where
  render c f t hc _ _ ht := ht.next hc (by simp [renderScope]) rfl rfl f
  stop _ ht := Or.inl ht.quiet
  early p t requeue hp ht := by
    have hname : p.sys.name = sys.name := by rw [hp.enters.carried.sys_eq]
    exact Prog.wp_mono (wp_updateStatus_quiet hname ht.quiet requeue) (fun _ _ h => Or.inl h)
      fun _ h => Or.inl h
  elsewhere p t hp _ := by
    have hexternal := hp.external
    rw [hinternal] at hexternal
    cases hexternal
  handOver r p t requeue hover ht := by
    rcases hcare with hlooks | ⟨hlooks, hidle⟩
    · have hlooks' : looksAfter sys t.world = true := by rwa [looksAfter_congr ht.nodes]
      exact Prog.wp_mono (wp_fromUpgrade_looksAfter hup hover hranks hlooks' ht requeue)
        (fun _ _ h => Or.inr ⟨hlooks, h⟩) fun _ h => Or.inr ⟨hlooks, h⟩
    · rw [← looksAfter_congr ht.nodes] at hlooks
      rw [nothingAsked, ← ht.memory] at hidle
      exact Prog.wp_mono (wp_fromUpgrade_idle hover hlooks hidle ht requeue)
        (fun _ _ h => Or.inl h) fun _ h => Or.inl h

end Ended

/-! ## Every run -/

/-- While a restart is under way and looked after, nothing else touches the system. -/
theorem restart_undisturbed (events : List Event)
    (hcare : ∀ step ∈ history events, LookedAfter step) :
    ∀ step ∈ history events, Undisturbed step := by
  intro step hstep name hname sys hsys hinternal hbefore hafter
  have hup : upgradeInProgress sys.status = true := by
    simpa [restarting, show stored step.before.systems name = some sys from hsys] using hbefore
  have hlooked := hcare step hstep name hname sys hsys hinternal hup
  obtain ⟨before, e, after, rfl, rfl⟩ := Machine.exists_of_mem_history hstep
  obtain ⟨faults, rfl⟩ := Event.eq_of_system (e := e) hname
  obtain rfl : sys.name = name := (wellNamed_final before).systems.stored hsys
  have hnarrow := narrowWorld_final before
  have hwp : (reconcile sys.name).wp cluster (fun _ => True) ⟨final before, []⟩
      (fun _ t => Quiet sys.name t.log ∨ looksAfter sys (final before) = true ∧
        Ends sys.name sys t) fun t => Quiet sys.name t.log ∨
          looksAfter sys (final before) = true ∧ Ends sys.name sys t := by
    have hstart : Unlooked sys.name (final before) ⟨final before, []⟩ :=
      ⟨by simp [Quiet], by simp [BeforeWrite], hnarrow, rfl, rfl⟩
    have hread : ∀ f, Unlooked sys.name (final before)
        (cluster.next ⟨final before, []⟩ (.getSystem sys.name) f) := fun f =>
      hstart.next (.quiet rfl : SystemCall sys.name "" {} _) (by simp) rfl rfl f
    refine wp_reconcile (fun f _ => Or.inl (hread f).quiet) ?_
    intro sys' hsys' _ _
    obtain rfl : sys = sys' := Option.some.inj (hsys.symm.trans hsys')
    exact (outline_alone hinternal hup (hnarrow.stored _ _ hsys)
      (hlooked.imp_left fun h => h.1)).wp_reconcileSystem (hread .none)
  have hafter' : restarting ((reconcile sys.name).exec cluster faults (final before)).world
      sys.name = true := hafter
  rcases Prog.exec_ends hwp faults fun _ _ => trivial with hquiet | ⟨hlooks, hends⟩
  · exact hquiet
  obtain ⟨hendless, hcalls⟩ : endlessRequest sys = false ∧
      ∀ x ∈ ((reconcile sys.name).exec cluster faults (final before)).log,
        interrupts x = false := by
    rcases hlooked with hlooked | hidle
    · exact hlooked.2
    · have hcontra : looksAfter sys (final before) = false := hidle.1
      rw [hlooks] at hcontra
      cases hcontra
  rcases hends with hquiet | hover | ⟨x, hx, hinterrupts⟩ | hrequest
  · exact hquiet
  · exact absurd hafter' (by simp [hover])
  · exact absurd hinterrupts (by simp [hcalls x hx])
  · exact absurd hrequest (by simp [hendless])

/-- A formatted system whose approved restart has stopped it; then `spec.server.enabled` is
edited and a rank operation requested. -/
def restartingRun (enabled : Option Bool) : List Event :=
  let spec : DaosSystemSpec :=
    { msReplicas := 1, allowInsecure := true, images := { server := "new" }
      upgrade := { approved := true }
      engines := [{ fabricIface := "ib0", bdevList := ["0000:81:00.0"] }] }
  [.change (.createSystem "s" {} spec),
    .change (.setNodes [{ name := "a" }]),
    .reconcileSystem "s" [],
    .change (.setReadyReplicas ⟨"daos-system", "s-server-a"⟩ 1),
    .change (.jobProgress ⟨"daos-system", "s-dmg-query"⟩ [.complete true]
      [{ name := "query", created := 0
         log := "\x7b\"response\":\x7b\"members\":" ++
          "[\x7b\"rank\":0,\"addr\":\"a\",\"state\":\"joined\"\x7d]\x7d\x7d" }]),
    .reconcileSystem "s" [],
    .change (.setServerPods [{ key := ⟨"daos-system", "s-server-a-0"⟩, system := "s", node := "a"
                               containers := [("daos-server", "old")] }]),
    .reconcileSystem "s" [],
    .change (.editSystem "s" { spec with serverEnabled := enabled }),
    .change (.annotateSystem "s" .rankOp (some "drain:0")),
    .reconcileSystem "s" []]

/-- With its servers enabled, the restart makes the request wait. -/
theorem restart_undisturbed_enabled :
    restarting (final (restartingRun none)) "s" = true ∧
      ∀ step ∈ history (restartingRun none), Undisturbed step := by
  have hrun : restarting (final (restartingRun none)) "s" = true ∧
      ∀ step ∈ history (restartingRun none), LookedAfter step := by
    decide +kernel
  exact ⟨hrun.1, restart_undisturbed (restartingRun none) hrun.2⟩

/-- With its servers switched off, the stopped system is told to drain a rank. -/
theorem restart_disturbed_disabled :
    ¬∀ step ∈ history (restartingRun (some false)), Undisturbed step := by
  decide +kernel

end DaosOperator
