import DaosOperator.Safety.PodCount
import DaosOperator.Safety.RestartOrder
import DaosOperator.Steps

/-!
# The images of a restarted system

A restart for a new image replaces the pods in one phase, waits for them in the next and
is completed two phases later, when every rank joined.  The images of the pods are looked
at for the last time when the pods are counted; from then on the restart goes by the
states of the ranks, while the image it reports is read from the spec again.
-/

namespace DaosOperator

open Effect
open DaosOperator.System

/-! ## The property -/

/-- Every server pod of the system runs the image of its spec. -/
def RunsImage (w : World) (sys : DaosSystem) : Prop :=
  ∀ pod ∈ w.serverPodsOf (namespaceOf sys) sys.name, podImage pod = sys.spec.images.server
  deriving Decidable

/-- The restart for a new image is completed, and the version of the spec recorded. -/
def completedOn (version : String) (st : DaosSystemStatus) : Bool :=
  st.observedVersion = version &&
    st.upgrade.any fun up => up.trigger = .imageChange && up.phase = .completed

/-- A reconcile that completes a restart for a new image finds every pod on the image that it
reads. -/
def CompletesTruly (_ : List Step) (step : Step) : Prop :=
  ∀ name ∈ step.event.system, ∀ sys ∈ stored step.before.systems name,
    ∀ sys' ∈ stored step.after.systems name,
      phaseOf step.before name ≠ some .completed →
        completedOn sys.spec.version sys'.status = true → RunsImage step.before sys
  deriving Decidable

/-! ## When it holds -/

/-- The pods were counted, and the restart is not completed. -/
def counted (st : DaosSystemStatus) : Bool :=
  st.upgrade.any fun up => up.phase = .startingSystem || up.phase = .verifying

/-- How many nodes a reconcile renders. -/
def System.renderedNodes (sys : DaosSystem) (w : World) : Nat :=
  ((nodeFacts sys w).filter (renders sys w)).length

/-- The event leaves the pods of a system that were counted on its image. -/
def Event.keepsImages (w : World) : Event → Bool
  | .change (.editSystem name spec) => (stored w.systems name).all fun sys =>
      decide (counted sys.status = true →
        spec.images.server = sys.spec.images.server ∧ spec.ns = sys.spec.ns)
  | .change (.setServerPods pods) => pods.all fun pod =>
      (stored w.systems pod.system).all fun sys => decide (counted sys.status = true →
        pod.key.ns = namespaceOf sys → podImage pod = sys.spec.images.server)
  | _ => true

/-- No pod is left on another image when enough pods are back, and from then on neither the
image of the spec nor that of a pod changes. -/
def ImagesSettle (_ : List Step) (step : Step) : Prop :=
  (∀ name ∈ step.event.system, ∀ sys ∈ stored step.before.systems name,
    phaseOf step.before name = some .starting →
      renderedNodes sys step.before ≤
        (podsBack step.before (namespaceOf sys) sys).length → RunsImage step.before sys) ∧
  step.event.keepsImages step.before = true
  deriving Decidable

/-! ## Leaving the phase `Starting` -/

section Starting

variable {sys : DaosSystem} {w₀ : World} {rely : Entry Call World → Prop} {s : Point Call World}
  {up : UpgradeStatus}

def isStarted (up : Option UpgradeStatus) : Bool := up.any fun up => up.phase = .startingSystem

theorem isStarted_of_over {st : DaosSystemStatus} (h : upgradeInProgress st = false) :
    isStarted st.upgrade = false := by
  unfold isStarted
  cases hup : st.upgrade with
  | none => rfl
  | some up =>
      unfold upgradeInProgress at h
      rw [hup] at h
      cases hphase : up.phase <;> simp_all

theorem wp_reconcileUpgrade_counts {p : Pass} (hsys : p.sys = sys)
    (hup : p.status.upgrade = some up) (hphase : up.phase = .starting)
    (hpods : s.world.serverPods = w₀.serverPods) (rendered : Nat) :
    (reconcileUpgrade (namespaceOf sys) rendered p).wp cluster rely s
      (fun r _ => isStarted r.pass.status.upgrade = true →
        rendered ≤ (podsBack w₀ (namespaceOf sys) sys).length) fun _ => True := by
  have hprogress : upgradeInProgress p.status = true := by simp [upgradeInProgress, hup, hphase]
  refine Prog.wp_ite (fun _ hstarted => ?_) fun _ => ?_
  · simp [isStarted, hup, hphase] at hstarted
  refine Prog.wp_bind (A := fun pods _ => pods = (w₀.serverPodsOf (namespaceOf sys)
    sys.name).insertionSort fun a b => a.key.name ≤ b.key.name) ?_ ?_
  · refine Prog.wp_bind (A := fun pods _ => pods = w₀.serverPodsOf (namespaceOf sys) sys.name)
      (Prog.wp_ask (fun _ => ?_) fun _ _ _ _ => trivial) ?_
    · simp only [cluster, perform, World.serverPodsOf, hpods, hsys]
    · rintro _ t rfl
      rfl
  rintro _ t rfl
  rw [hup, hprogress]
  refine Prog.wp_bind (A := fun _ _ => True) (Prog.wp_ask (fun _ => trivial)
    fun _ _ _ _ => trivial) fun now u _ => ?_
  refine Prog.wp_ite (fun _ => ?_) fun _ => ?_
  · have hover : (failUpgrade p up ("upgrade timed out in phase " ++ up.phase.text ++ " after " ++
        Text.showDuration (upgradeTimeout p.sys))).wp cluster rely u
        (fun r _ => upgradeInProgress r.pass.status = false ∧ True) fun _ => True :=
      (obeys_failUpgrade_phase p up _).wp (fun _ _ _ _ _ _ _ => trivial) trivial
    refine Prog.wp_mono hover ?_ fun _ h => h
    rintro r _ ⟨hover, -⟩ hstarted
    rw [isStarted_of_over hover] at hstarted
    cases hstarted
  · simp only [upgradeStep, hphase]
    intro hstarted
    have henough := (startingPhase_leaves rendered _ hphase p).mp hstarted
    rw [((List.perm_insertionSort _ _).filter _).length_eq, hsys] at henough
    exact henough

/-- The stored restart starts the system only when enough pods are back. -/
def StartsCounted (sys : DaosSystem) (w₀ : World) (t : Point Call World) : Prop :=
  ∀ sys' ∈ stored t.world.systems sys.name, isStarted sys'.status.upgrade = true →
    renderedNodes sys w₀ ≤ (podsBack w₀ (namespaceOf sys) sys).length

/-- Until the restart is looked after. -/
structure Uncounted (sys : DaosSystem) (w₀ : World) (t : Point Call World) : Prop where
  kept : UpgradeKept sys t.world
  pods : t.world.serverPods = w₀.serverPods
  nodes : t.world.nodes = w₀.nodes

theorem startsCounted_of_kept (hup : sys.status.upgrade = some up) (hphase : up.phase = .starting)
    (h : UpgradeKept sys s.world) : StartsCounted sys w₀ s := by
  intro sys' hsys' hstarted
  have hsame := h
  rw [UpgradeKept, show stored s.world.systems sys.name = some sys' from hsys', Option.map_some,
    Option.some.injEq] at hsame
  simp [isStarted, hsame, hup, hphase] at hstarted

/-- What a pass has made of the restart after the restart was looked after. -/
def PassCounted (sys : DaosSystem) (w₀ : World) : Stage → Pass → Point Call World → Prop
  | .entered, p, t => Uncounted sys w₀ t ∧ p.status.upgrade = sys.status.upgrade
  | _, p, t => UpgradeKept sys t.world ∧ (isStarted p.status.upgrade = true →
      renderedNodes sys w₀ ≤ (podsBack w₀ (namespaceOf sys) sys).length)

theorem counted_passes (hup : sys.status.upgrade = some up) (hphase : up.phase = .starting) :
    PassProof sys rely (Uncounted sys w₀) (StartsCounted sys w₀) (PassCounted sys w₀) := by
  have hunstarted : isStarted sys.status.upgrade = false := by simp [isStarted, hup, hphase]
  -- a stage behind the restart keeps `status.upgrade`, stored and in the pass
  have hbehind : ∀ {q : Op (Duration × Pass)} {S : Scope} {P : Duration × Pass → Prop} {p : Pass}
      {t : Point Call World}, q.Obeys (SystemCall sys.name (namespaceOf sys) S) P →
      S.status = false → (∀ r, P r → r.2.status.upgrade = p.status.upgrade) →
      PassCounted sys w₀ .gate p t → q.wp cluster rely t (fun r u => PassCounted sys w₀ .gate r.2 u)
        (StartsCounted sys w₀) := by
    intro q S P p t hq hS hP ht
    refine Prog.wp_mono (hq.wp (I := fun u => UpgradeKept sys u.world)
      (fun c f u hc _ _ hu => hu.respond hc hS f) ht.1) ?_
      fun _ h => startsCounted_of_kept hup hphase h
    rintro r u ⟨hr, hu⟩
    refine ⟨hu, ?_⟩
    rw [hP r hr]
    exact ht.2
  exact
    { render := fun c f t hc _ _ ht =>
        ⟨ht.kept.respond hc rfl f, (hc.serverPods rfl).trans ht.pods,
          hc.surroundings.1.trans ht.nodes⟩
      stop := fun _ ht => startsCounted_of_kept hup hphase ht.kept
      enter := fun p t hp ht => by
        have hmask := congrArg DaosSystemStatus.upgrade hp.carried.status_eq
        exact ⟨ht, hmask⟩
      cond := fun g p st t hst ht => by
        have hsame : st.upgrade = p.status.upgrade := by
          have hmask := congrArg DaosSystemStatus.upgrade hst
          exact hmask
        cases g with
        | entered => exact ⟨ht.1, hsame.trans ht.2⟩
        | _ => exact ⟨ht.1, by rw [hsame]; exact ht.2⟩
      skip := fun p t _ ht => ⟨ht.1.kept, by rw [ht.2, hunstarted]; rintro ⟨⟩⟩
      upgrade := fun r p t hp ht => by
        have hsys := hp.pass.carried.sys_eq
        have hobeys : (reconcileUpgrade (namespaceOf sys) r.rendered p).Obeys
            (SystemCall sys.name (namespaceOf sys) upgradeScope) _ :=
          obeys_reconcileUpgrade (by rw [hsys]) r.rendered
        have hkept : (reconcileUpgrade (namespaceOf sys) r.rendered p).wp cluster rely t
            (fun r u => UpgradeAdvances p r.pass ∧ UpgradeKept sys u.world)
            fun u => UpgradeKept sys u.world :=
          hobeys.wp (I := fun u => UpgradeKept sys u.world)
            (fun c f u hc _ _ hu => hu.respond hc rfl f) ht.1.kept
        have hrendered : r.rendered = renderedNodes sys w₀ := by
          rw [renderedNodes, ← nodeFacts_congr ht.1.nodes, ← renders_congr ht.1.nodes]
          exact hp.tally.rendered
        refine Prog.wp_mono (Prog.wp_and hkept (wp_reconcileUpgrade_counts hsys (ht.2.trans hup)
          hphase ht.1.pods r.rendered)) ?_ fun _ h => startsCounted_of_kept hup hphase h.1
        rintro q u ⟨⟨-, hu⟩, hcounts⟩
        exact ⟨hu, fun hstarted => hrendered ▸ hcounts hstarted⟩
      format := fun inp p t hp ht => by
        refine hbehind (obeys_reconcileFormat hp.patched.name hp.ns) rfl ?_ ht
        intro r hr
        have hmask := congrArg DaosSystemStatus.upgrade hr.status
        exact hmask
      rankOp := fun p t hp ht => by
        refine hbehind (obeys_reconcileRankOp hp.patched.name) rfl ?_ ht
        intro r hr
        have hmask := congrArg DaosSystemStatus.upgrade hr.status
        exact hmask
      engines := fun p t hp ht => by
        refine hbehind (obeys_reconcileEngineRestart hp.name) rfl ?_ ht
        intro r hr
        have hmask := congrArg DaosSystemStatus.upgrade hr.status
        exact hmask
      write := fun g p t requeue _ hp ht => by
        have hpass : PassCounted sys w₀ .gate p t := by
          cases g with
          | entered => exact ⟨ht.1.kept, by rw [ht.2, hunstarted]; rintro ⟨⟩⟩
          | _ => exact ht
        have hwrite : ∀ f, StartsCounted sys w₀
            (cluster.next t (.updateSystemStatus p.sys.name p.status) f) := by
          intro f
          by_cases heffective : f.effective = true
          · intro sys' hsys' hstarted
            refine hpass.2 ?_
            rw [Handler.next_world, Handler.respond_world, if_pos heffective, hp.name] at hsys'
            simp only [cluster, perform, stored_modify_self] at hsys'
            obtain ⟨old, -, hnew⟩ := Option.bind_eq_some_iff.mp hsys'
            cases hnew
            exact hstarted
          · refine startsCounted_of_kept hup hphase ?_
            rw [Handler.next_world, Handler.respond_world, if_neg heffective]
            exact hpass.1
        refine Prog.wp_bind (A := fun _ => StartsCounted sys w₀) ?_ fun _ _ h => h
        exact Prog.wp_ask (fun _ => hwrite .none) fun f _ _ _ => hwrite f }

theorem started_of_step (hsys : stored w₀.systems sys.name = some sys)
    (hup : sys.status.upgrade = some up) (hphase : up.phase = .starting) (faults : List Fault)
    {sys' : DaosSystem}
    (hafter : stored (operator.step w₀ (.reconcileSystem sys.name faults)).1.systems sys.name =
      some sys') (hstarted : isStarted sys'.status.upgrade = true) :
    renderedNodes sys w₀ ≤ (podsBack w₀ (namespaceOf sys) sys).length := by
  have hread : ∀ f, Uncounted sys w₀ (cluster.next ⟨w₀, []⟩ (.getSystem sys.name) f) := by
    intro f
    have hworld : (cluster.next ⟨w₀, []⟩ (.getSystem sys.name) f).world = w₀ := by
      rw [Handler.next_world, respond_quiet rfl]
    exact ⟨by rw [hworld]; simp [UpgradeKept, hsys], by rw [hworld], by rw [hworld]⟩
  have hwp : (reconcile sys.name).wp cluster (fun _ => True) ⟨w₀, []⟩
      (fun _ t => StartsCounted sys w₀ t) (StartsCounted sys w₀) := by
    refine wp_reconcile (fun f _ => startsCounted_of_kept hup hphase (hread f).kept) ?_
    intro other hother _ _
    obtain rfl : sys = other := Option.some.inj (hsys.symm.trans hother)
    exact (counted_passes hup hphase).wp_reconcileSystem (hread .none)
  exact Prog.exec_ends hwp faults (fun _ _ => trivial) sys' hafter hstarted

end Starting

/-! ## What a reconcile leaves of pods and specs -/

section Left

variable {w : World} {e : Event} {name : String}

theorem serverPods_respond (c : Call) (f : Fault) (v : World) :
    (cluster.respond c f v).2.serverPods = v.serverPods ∨
      ∃ key, (cluster.respond c f v).2.serverPods = markTerminating key v.serverPods := by
  rw [Handler.respond_world]
  split
  · cases c with
    | deletePod key => exact Or.inr ⟨key, rfl⟩
    | createJob spec =>
        simp only [cluster, perform]
        split <;> exact Or.inl rfl
    | deleteJob key =>
        simp only [cluster, perform]
        split <;> exact Or.inl rfl
    | _ => exact Or.inl rfl
  · exact Or.inl rfl

/-- A reconcile makes no pods, and no pod changes its image. -/
theorem pods_of_reconcile (he : ∀ c, e ≠ .change c) :
    ∀ pod ∈ (operator.step w e).1.serverPods, ∃ old ∈ w.serverPods,
      old.key = pod.key ∧ old.system = pod.system ∧ podImage old = podImage pod := by
  refine (step_replay (w := w) (e := e) (I := fun v => ∀ pod ∈ v.serverPods, ∃ old ∈ w.serverPods,
    old.key = pod.key ∧ old.system = pod.system ∧ podImage old = podImage pod)
    (fun pod hpod => ⟨pod, hpod, rfl, rfl, rfl⟩) ?_ fun c hc => absurd hc (he c)).1
  intro x _ hkept pod hpod
  rcases serverPods_respond x.call x.fault x.before with hsame | ⟨key, hmarked⟩
  · exact hkept pod (hsame ▸ hpod)
  · rw [hmarked] at hpod
    obtain ⟨before, hbefore, rfl⟩ := List.mem_map.mp hpod
    obtain ⟨old, hold, hkey, hsystem, himage⟩ := hkept before hbefore
    refine ⟨old, hold, ?_⟩
    split
    · exact ⟨hkey, hsystem, himage⟩
    · exact ⟨hkey, hsystem, himage⟩

/-- What says which pods a system has, and on which image. -/
def DaosSystem.podSpec (sys : DaosSystem) : String × String × String :=
  (sys.name, sys.spec.ns, sys.spec.images.server)

theorem podSpec_of_reconcile (he : ∀ c, e ≠ .change c) (name : String) :
    (stored (operator.step w e).1.systems name).map DaosSystem.podSpec =
      (stored w.systems name).map DaosSystem.podSpec := by
  refine step_keeps (I := fun v => (stored v.systems name).map DaosSystem.podSpec =
    (stored w.systems name).map DaosSystem.podSpec) ?_ (fun c hc => absurd hc (he c)) rfl
  intro c f v hc hv
  refine Eq.trans ?_ hv
  cases hc with
  | read hc => rw [respond_quiet hc]
  | @system _ _ sys _ hsys hc =>
      by_cases hname : sys.name = name
      · subst hname
        refine hc.stored_proj (g := DaosSystem.podSpec) (fun s p _ => ?_) fun _ _ _ => rfl
        cases p <;> rfl
      · have hget := hc.systems_get (f := f) (w := v) (Ne.symm hname)
        simp only [stored, hget]
  | pool _ hc =>
      have hside := congrArg SystemSide.systems (hc.systemSide (f := f) (w := v))
      exact congrArg (fun t => (stored t name).map DaosSystem.podSpec) hside
  | container _ hc =>
      have hside := congrArg SystemSide.systems (hc.systemSide (f := f) (w := v))
      exact congrArg (fun t => (stored t name).map DaosSystem.podSpec) hside

theorem RunsImage.reconcile {sys sys' : DaosSystem} (h : RunsImage w sys)
    (he : ∀ c, e ≠ .change c) (hspec : sys'.podSpec = sys.podSpec) :
    RunsImage (operator.step w e).1 sys' := by
  obtain ⟨hname, hns, himage⟩ : sys'.name = sys.name ∧ sys'.spec.ns = sys.spec.ns ∧
      sys'.spec.images.server = sys.spec.images.server := by
    simpa [DaosSystem.podSpec] using hspec
  have hnamespace : namespaceOf sys' = namespaceOf sys := by simp only [namespaceOf, hns]
  intro pod hpod
  simp only [World.serverPodsOf, List.mem_filter, decide_eq_true_eq] at hpod
  obtain ⟨old, hold, hkey, hsystem, hsame⟩ := pods_of_reconcile he pod hpod.1
  rw [himage, ← hsame]
  refine h old ?_
  simp only [World.serverPodsOf, List.mem_filter, decide_eq_true_eq]
  exact ⟨hold, by rw [hkey, hpod.2.1, hnamespace], by rw [hsystem, hpod.2.2, hname]⟩

end Left

/-! ## Every run -/

/-- What a run keeps: pods that were counted run the image of the spec. -/
structure ImagesKept (_ : List Step) (w : World) : Prop where
  named : WellNamed w
  runs : ∀ name sys, stored w.systems name = some sys → counted sys.status = true → RunsImage w sys

section Steps

variable {past : List Step} {w : World} {e : Event} {name : String}

theorem serverPods_apply (w : World) (c : Change) :
    (∃ pods, c = .setServerPods pods) ∨ (c.apply w).serverPods = w.serverPods := by
  cases c with
  | setServerPods pods => exact Or.inl ⟨pods, rfl⟩
  | createPool name annotations spec =>
      simp only [Change.apply]
      split <;> exact Or.inr rfl
  | setReadyReplicas key ready =>
      simp only [Change.apply]
      split <;> exact Or.inr rfl
  | jobProgress key conditions pods | jobRemoved key | jobCollected key =>
      simp only [Change.apply, onJob]
      split <;> exact Or.inr rfl
  | daosRuns key ranks =>
      simp only [Change.apply, runInDaos]
      split
      · exact Or.inr rfl
      · split <;> exact Or.inr rfl
  | _ => exact Or.inr rfl

theorem ImagesKept.change {c : Change} (hinv : ImagesKept past w)
    (hsettle : ImagesSettle past (operator.record w (.change c))) {sys' : DaosSystem}
    (hsys' : stored (c.apply w).systems name = some sys') (hcounted : counted sys'.status = true) :
    RunsImage (c.apply w) sys' := by
  have hkeeps : (Event.change c).keepsImages w = true := hsettle.2
  rcases serverPods_apply w c with ⟨pods, rfl⟩ | hpods
  · have hsys : stored w.systems name = some sys' := hsys'
    intro pod hpod
    simp only [World.serverPodsOf, Change.apply, List.mem_filter, decide_eq_true_eq] at hpod
    simp only [Event.keepsImages, List.all_eq_true] at hkeeps
    have hpod' := hkeeps pod hpod.1
    rw [hpod.2.2, hinv.named.systems.stored hsys, hsys, Option.all_some, decide_eq_true_eq] at hpod'
    exact hpod' hcounted hpod.2.1
  · have hsame : ∀ sys, RunsImage w sys → RunsImage (c.apply w) sys := by
      intro sys h pod hpod
      rw [World.serverPodsOf, hpods] at hpod
      exact h pod hpod
    refine hsame sys' ?_
    have hchange := systemChange w name c
    rw [hsys'] at hchange
    generalize hold : stored w.systems name = old at hchange
    cases hchange with
    | same => exact hinv.runs name sys' hold hcounted
    | create annotations spec => cases hcounted
    | edit spec sys =>
        have hrun := hinv.runs name sys hold hcounted
        simp only [Event.keepsImages, hold, Option.all_some, decide_eq_true_eq] at hkeeps
        obtain ⟨himage, hns⟩ := hkeeps hcounted
        have hnamespace : namespaceOf { sys with spec } = namespaceOf sys := by
          simp only [namespaceOf, hns]
        rw [RunsImage, hnamespace, himage]
        exact hrun
    | annotate key value sys => exact hinv.runs name sys hold hcounted
    | delete sys => exact hinv.runs name sys hold hcounted

/-- A reconcile that goes on behind the count found the pods on the image. -/
theorem ImagesKept.own {sys sys' : DaosSystem} {faults : List Fault} (hinv : ImagesKept past w)
    (hsettle : ImagesSettle past (operator.record w (.reconcileSystem name faults)))
    (hsys : stored w.systems name = some sys)
    (hsys' : stored (operator.step w (.reconcileSystem name faults)).1.systems name = some sys')
    (hlate : counted sys'.status = true ∨ phaseOf w name ≠ some .completed ∧
      sys'.status.upgrade.map (·.phase) = some .completed) : RunsImage w sys := by
  have hname : sys.name = name := hinv.named.systems.stored hsys
  subst hname
  have hbefore : phaseOf w sys.name = sys.status.upgrade.map (·.phase) := phaseOf_eq hsys
  have hwp : (reconcile sys.name).wp cluster (fun _ => True) ⟨w, []⟩ (fun _ t => MovesTo sys w t)
      (MovesTo sys w) := wp_reconcile_moves hsys
  obtain ⟨reached, hreached, hmoves⟩ := Prog.exec_ends hwp faults fun _ _ => trivial
  have hreached' : some sys'.status.upgrade = some reached := by
    rw [← hreached]
    exact (congrArg (Option.map fun s => s.status.upgrade) hsys').symm
  obtain rfl := Option.some.inj hreached'
  have hkept : counted sys.status = true → RunsImage w sys := hinv.runs sys.name sys hsys
  rw [hbefore] at hlate
  unfold counted at hlate
  generalize hreach : sys'.status.upgrade = after at hlate hmoves
  cases hmoves with
  | kept => exact hkept (hlate.resolve_right fun h => h.1 h.2)
  | dropped _ => simp at hlate
  | waits _ up hpending => simp [hpending] at hlate
  | moved up up' hunder _ hstep _ =>
      -- behind the first phase the restart is the stored one
      have hstored : up.phase ≠ .stopping → sys.status.upgrade = some up := by
        intro hphase
        cases hunder with
        | goesOn h _ => exact h
        | begun _ hstopping _ => exact absurd hstopping hphase
      simp only [Option.any_some, Option.map_some, Option.some.injEq] at hlate
      generalize hph : up.phase = ph at hstep
      generalize hph' : up'.phase = ph' at hstep hlate
      cases hstep with
      | stays =>
          have hup : sys.status.upgrade = some up := by
            refine hstored fun hstopping => ?_
            rw [hph] at hstopping
            subst hstopping
            simp at hlate
          rcases hlate with hlate | ⟨hnew, hdone⟩
          · exact hkept (by simpa [counted, hup, hph] using hlate)
          · simp [hup, hph, hdone] at hnew
      | fails _ _ | stopped _ | replaced => simp at hlate
      | ready =>
          have hup := hstored (by simp [hph])
          have hstarted : isStarted sys'.status.upgrade = true := by simp [isStarted, hreach, hph']
          refine hsettle.1 sys.name rfl sys hsys ?_
            (started_of_step hsys hup hph faults hsys' hstarted)
          exact hbefore.trans (by simp [hup, hph])
      | started _ | completed _ _ =>
          have hup := hstored (by simp [hph])
          exact hkept (by simp [counted, hup, hph])

theorem ImagesKept.runs_step (hinv : ImagesKept past w)
    (hsettle : ImagesSettle past (operator.record w e)) {sys' : DaosSystem}
    (hsys' : stored (operator.step w e).1.systems name = some sys')
    (hcounted : counted sys'.status = true) : RunsImage (operator.step w e).1 sys' := by
  by_cases he : ∃ c, e = .change c
  · obtain ⟨c, rfl⟩ := he
    exact hinv.change hsettle hsys' hcounted
  · have he' : ∀ c, e ≠ .change c := fun c hc => he ⟨c, hc⟩
    have hspec := podSpec_of_reconcile (w := w) he' name
    rw [hsys', Option.map_some] at hspec
    obtain ⟨sys, hsys, hsame⟩ := Option.map_eq_some_iff.mp hspec.symm
    refine RunsImage.reconcile ?_ he' hsame.symm
    by_cases hown : e.system = some name
    · obtain ⟨faults, rfl⟩ := Event.eq_of_system (e := e) hown
      exact hinv.own hsettle hsys hsys' (Or.inl hcounted)
    · rcases upgrade_elsewhere hinv.named hown hsys' with hnone | ⟨old, hold, hupgrade⟩
      · simp [counted, hnone] at hcounted
      · obtain rfl := Option.some.inj (hsys.symm.trans hold)
        exact hinv.runs name sys hsys (by simpa [counted, hupgrade] using hcounted)

theorem completesTruly_step (hinv : ImagesKept past w)
    (hsettle : ImagesSettle past (operator.record w e)) :
    CompletesTruly past (operator.record w e) := by
  intro name hname sys hsys sys' hsys' hbefore hcompleted
  obtain ⟨faults, rfl⟩ := Event.eq_of_system (e := e) hname
  refine hinv.own hsettle hsys hsys' (Or.inr ⟨hbefore, ?_⟩)
  simp only [completedOn, Bool.and_eq_true] at hcompleted
  cases hup : sys'.status.upgrade with
  | none => simp [hup] at hcompleted
  | some up =>
      simp only [hup, Option.any_some, Bool.and_eq_true, decide_eq_true_eq] at hcompleted
      simp [hcompleted.2.2]

end Steps

/-- Where the images settle before the system is started, a completed restart tells the truth
about the pods. -/
theorem completes_truly (events : List Event) (hsettle : Along ImagesSettle [] (history events)) :
    Along CompletesTruly [] (history events) := by
  refine Machine.along_induction (I := ImagesKept) ?_ ?_ events hsettle
  · intro past w e hinv hsettle
    exact ⟨completesTruly_step hinv hsettle, hinv.named.step e,
      fun name sys' hsys' hcounted => hinv.runs_step hsettle hsys' hcounted⟩
  · exact ⟨wellNamed_empty, by simp [stored]⟩

/-! ## An edit behind the count -/

/-- A restart for the image `new`; before its last reconcile these events happen. -/
def completingRun (meanwhile : List Event) : List Event :=
  restartRun.dropLast ++ meanwhile ++ [.reconcileSystem "s" []]

/-- Nothing happens: the restart is completed, and the pod runs the image. -/
theorem completes_truly_unedited :
    phaseOf (final (completingRun [])) "s" = some .completed ∧
      Along CompletesTruly [] (history (completingRun [])) := by
  have hrun : phaseOf (final (completingRun [])) "s" = some .completed ∧
      Along ImagesSettle [] (history (completingRun [])) := by
    decide +kernel
  exact ⟨hrun.1, completes_truly (completingRun []) hrun.2⟩

/-- The image and the version are edited once more: the restart is completed on an image that
no pod runs. -/
theorem completes_untruly_edited : ¬Along CompletesTruly [] (history (completingRun
    [.change (.editSystem "s"
      { msReplicas := 1, allowInsecure := true, version := "2", images := { server := "newer" }
        engines := [{ fabricIface := "ib0", bdevList := ["0000:81:00.0"] }] })])) := by
  decide +kernel

end DaosOperator
