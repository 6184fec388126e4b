import DaosOperator.System.Outline

/-!
# A `DaosSystem` reconcile in stages

A proof rule for whole reconciles, finer than the outline.  A pass goes through the
restart, the format gate, the rank operation and the engine restart to the status
write; the rule asks for one obligation per stage and supplies, at the entry of each
stage, what every reconcile has established by then.
-/

namespace DaosOperator.System

open Effect

/-! ## What holds at the stages -/

/-- What holds when the format gate is entered. -/
structure Gate (sys : DaosSystem) (inp : FormatInput) (p : Pass) (w : World) : Prop where
  ns : inp.ns = namespaceOf sys
  patched : Patched upgradeScope.patches sys p.sys
  carried : upgradeMask (carriedMask p.status) = upgradeMask (carriedMask sys.status)
  configs : Describes sys w p.status
  /-- `serversAllReady` means what it says. -/
  ready : external sys = false → inp.serversAllReady = true →
    ∀ f ∈ nodeFacts sys w, renders sys w f = true → ServerReady sys (namespaceOf sys) f.name w
  hosts : external sys = false → inp.serversAllReady = true → p.status.nodeConfigs.map hostEntry =
    (nodeFacts sys w).map fun f => (f.name, f.controlAddr, renders sys w f)

def gatePatches (p : SystemPatch) : Bool := upgradeScope.patches p || formatScope.patches p

/-- What holds when the rank operation is entered. -/
structure AtRankOp (sys : DaosSystem) (p : Pass) : Prop where
  patched : Patched gatePatches sys p.sys
  lastRankOp : p.status.lastRankOp = sys.status.lastRankOp

theorem AtRankOp.ofGate {sys : DaosSystem} {inp : FormatInput} {q q' : Pass} {w : World}
    (hg : Gate sys inp q w) (hadv : FormatAdvances q q') : AtRankOp sys q' := by
  constructor
  · refine (hg.patched.mono ?_).trans (hadv.sys.mono ?_)
    · intro p hp
      simp [gatePatches, hp]
    · intro p hp
      simp [gatePatches, hp]
  · have hformat := congrArg DaosSystemStatus.lastRankOp hadv.status
    have hcarried := congrArg DaosSystemStatus.lastRankOp hg.carried
    exact hformat.trans hcarried

/-- The pass works on a patched copy of the object. -/
abbrev Follows (sys : DaosSystem) (p : Pass) : Prop := Patched (fun _ => true) sys p.sys

theorem Carried.obeys_upgrade {sys : DaosSystem} {p : Pass} (h : Carried sys p) (rendered : Nat) :
    (reconcileUpgrade (namespaceOf sys) rendered p).Obeys
      (SystemCall sys.name (namespaceOf sys) upgradeScope) fun r => UpgradeAdvances p r.pass :=
  obeys_reconcileUpgrade (by rw [h.sys_eq]) rendered

theorem AtRankOp.obeys {sys : DaosSystem} {p : Pass} (h : AtRankOp sys p) :
    (reconcileRankOp (namespaceOf sys) p).Obeys
      (SystemCall sys.name (namespaceOf sys) rankOpScope) fun r => RankOpAdvances p r.2 :=
  obeys_reconcileRankOp h.patched.name

theorem Follows.obeys_engines {sys : DaosSystem} {p : Pass} (h : Follows sys p) :
    (reconcileEngineRestart (namespaceOf sys) p).Obeys
      (SystemCall sys.name (namespaceOf sys) enginesScope) fun r => EnginesAdvances p r.2 :=
  obeys_reconcileEngineRestart h.name

/-! ## The rule -/

/-- How far a reconcile has come: it is about to restart the system, to enter the format
gate, to run a rank operation, or to look after the engines; or all of this is done. -/
inductive Stage where
  | entered
  | gate
  | rankOp
  | engines
  | done

/-- The obligations of a proof about a reconcile of `sys`: `Base` holds while it
renders, `A` relates the pass to the execution from then on, stage by stage, and `W`
holds wherever it can end. -/
structure PassProof (sys : DaosSystem) (rely : Entry Call World → Prop)
    (Base W : Point Call World → Prop) (A : Stage → Pass → Point Call World → Prop) : Prop where
  render : ∀ c f s,
    SystemCall sys.name (namespaceOf sys) (renderScope sys (servedBy sys s.world)) c →
    cluster.Admits c f → rely ⟨c, f, s.world⟩ → Base s → Base (cluster.next s c f)
  stop : ∀ s, Base s → W s
  enter : ∀ p s, Enters sys s.world p → Base s → A .entered p s
  cond : ∀ g p st s, conditionMask st = conditionMask p.status → A g p s →
    A g { p with status := st } s
  upgrade : ∀ r p s, HandsOver sys s.world r p → A .entered p s →
    (reconcileUpgrade (namespaceOf sys) r.rendered p).wp cluster rely s
      (fun r t => A .gate r.pass t) W
  /-- A system run elsewhere is never restarted. -/
  skip : ∀ p s, external sys = true → A .entered p s → A .gate p s
  format : ∀ inp p s, Gate sys inp p s.world → A .gate p s →
    (reconcileFormat inp p).wp cluster rely s (fun r t => A .rankOp r.2 t) W
  rankOp : ∀ p s, AtRankOp sys p → A .rankOp p s →
    (reconcileRankOp (namespaceOf sys) p).wp cluster rely s (fun r t => A .engines r.2 t) W
  engines : ∀ p s, Follows sys p → A .engines p s →
    (reconcileEngineRestart (namespaceOf sys) p).wp cluster rely s (fun r t => A .done r.2 t) W
  /-- The status is never written between the format gate and the rank operation. -/
  write : ∀ g p s requeue, g ≠ .rankOp → Follows sys p → A g p s →
    (updateStatus p requeue).wp cluster rely s (fun _ t => W t) W

/-- The same where it does not matter how many nodes the restart counts. -/
structure StageProof (sys : DaosSystem) (rely : Entry Call World → Prop)
    (Base W : Point Call World → Prop) (A : Stage → Pass → Point Call World → Prop) : Prop where
  render : ∀ c f s,
    SystemCall sys.name (namespaceOf sys) (renderScope sys (servedBy sys s.world)) c →
    cluster.Admits c f → rely ⟨c, f, s.world⟩ → Base s → Base (cluster.next s c f)
  stop : ∀ s, Base s → W s
  enter : ∀ p s, Enters sys s.world p → Base s → A .entered p s
  cond : ∀ g p st s, conditionMask st = conditionMask p.status → A g p s →
    A g { p with status := st } s
  upgrade : ∀ rendered p s, Enters sys s.world p → A .entered p s →
    (reconcileUpgrade (namespaceOf sys) rendered p).wp cluster rely s
      (fun r t => A .gate r.pass t) W
  /-- A system run elsewhere is never restarted. -/
  skip : ∀ p s, external sys = true → A .entered p s → A .gate p s
  format : ∀ inp p s, Gate sys inp p s.world → A .gate p s →
    (reconcileFormat inp p).wp cluster rely s (fun r t => A .rankOp r.2 t) W
  rankOp : ∀ p s, AtRankOp sys p → A .rankOp p s →
    (reconcileRankOp (namespaceOf sys) p).wp cluster rely s (fun r t => A .engines r.2 t) W
  engines : ∀ p s, Follows sys p → A .engines p s →
    (reconcileEngineRestart (namespaceOf sys) p).wp cluster rely s (fun r t => A .done r.2 t) W
  /-- The status is never written between the format gate and the rank operation. -/
  write : ∀ g p s requeue, g ≠ .rankOp → Follows sys p → A g p s →
    (updateStatus p requeue).wp cluster rely s (fun _ t => W t) W

namespace PassProof

variable {sys : DaosSystem} {rely : Entry Call World → Prop} {Base W : Point Call World → Prop}
  {A : Stage → Pass → Point Call World → Prop} {p : Pass} {s : Point Call World} {w₀ : World}

/-- A stage, together with what its calls and its result say anyway. -/
theorem stage {α : Type} {q : Op α} {S : Scope} {P : α → Prop} {B : α → Point Call World → Prop}
    {J : World → Prop}
    (hq : q.Obeys (SystemCall sys.name (namespaceOf sys) S) P)
    (hJ : ∀ c f w, SystemCall sys.name (namespaceOf sys) S c → J w → J (cluster.respond c f w).2)
    (hs : J s.world) (hwp : q.wp cluster rely s B W) :
    q.wp cluster rely s (fun a t => B a t ∧ P a ∧ J t.world) W := by
  have hframe : q.wp cluster rely s (fun a t => P a ∧ J t.world) fun t => J t.world :=
    hq.wp (fun c f t hc _ _ ht => hJ c f t.world hc ht) hs
  exact Prog.wp_mono (Prog.wp_and hwp hframe) (fun _ _ h => h) fun _ h => h.1

theorem wp_afterFormat (h : PassProof sys rely Base W A) {q : Pass} (hq : AtRankOp sys q)
    (hA : A .rankOp q s) {k : Duration × Pass → Op Duration}
    (hk : ∀ r t, Follows sys r.2 → A .engines r.2 t →
      (k r).wp cluster rely t (fun _ t => W t) W) :
    ((reconcileRankOp (namespaceOf sys) q).bind k).wp cluster rely s (fun _ t => W t) W := by
  have hobeys := hq.obeys
  refine Prog.wp_bind (stage (J := fun _ => True) hobeys (fun _ _ _ _ h => h) trivial
    (h.rankOp q s hq hA)) ?_
  rintro r t ⟨hAt, hadv, -⟩
  refine hk r t ?_ hAt
  exact (hq.patched.mono fun _ _ => rfl).trans (hadv.sys.mono fun _ _ => rfl)

theorem wp_format (h : PassProof sys rely Base W A) {inp : FormatInput}
    (hg : Gate sys inp p s.world) (hA : A .gate p s) :
    (reconcileFormat inp p).wp cluster rely s
      (fun r t => A .rankOp r.2 t ∧ AtRankOp sys r.2) W := by
  have hobeys := obeys_reconcileFormat hg.patched.name hg.ns
  have hstage := stage (J := fun _ => True) hobeys (fun _ _ _ _ h => h) trivial
    (h.format inp p s hg hA)
  exact Prog.wp_mono hstage (fun r t ht => ⟨ht.1, .ofGate hg ht.2.1⟩) fun _ h => h

theorem wp_operate (h : PassProof sys rely Base W A) {inp : FormatInput}
    (hg : Gate sys inp p s.world) (hA : A .gate p s) (requeue : Duration) :
    (operate (namespaceOf sys) inp requeue p).wp cluster rely s (fun _ t => W t) W := by
  refine Prog.wp_bind (wp_format h hg hA) ?_
  rintro ⟨fmtRequeue, q⟩ t ⟨hAt, hq⟩
  refine wp_afterFormat h hq hAt ?_
  rintro ⟨rankRequeue, q⟩ t hq hAt
  have hq' : Follows sys
      { q with status := setEnginesCondition q.sys q.status inp.serversAllReady } := hq
  have hA' : A .engines
      { q with status := setEnginesCondition q.sys q.status inp.serversAllReady } t :=
    h.cond _ q _ t (conditionMask_setEnginesCondition ..) hAt
  have hobeys : (reconcileEngineRestart (namespaceOf sys)
      { q with status := setEnginesCondition q.sys q.status inp.serversAllReady }).Obeys
      (SystemCall sys.name (namespaceOf sys) enginesScope) _ :=
    obeys_reconcileEngineRestart hq'.name
  refine Prog.wp_bind (stage (J := fun _ => True) hobeys (fun _ _ _ _ h => h) trivial
    (h.engines _ t hq' hA')) ?_
  rintro ⟨restartRequeue, r⟩ u ⟨hAu, hadv, -⟩
  have hr : Follows sys r := hq'.trans (hadv.sys.mono fun _ _ => rfl)
  exact h.write .done _ u _ (fun h => nomatch h) hr (h.cond _ r _ u (conditionMask_setReady ..) hAu)

/-- The pass of a rendered system enters the gate after the restart. -/
theorem gate_of_rendered {r : Rendering} {q : Pass} {facts : List Discovery.NodeFacts}
    {w : World} (hfacts : nodeFacts sys w = facts) (hp : Carried sys p)
    (hconfigs : p.status.nodeConfigs = r.nodeConfigs)
    (hv : Visited sys (namespaceOf sys) ((replicas sys w).map (·.2)) (sharingNodes sys w) facts r w)
    (ht : Tally sys ((replicas sys w).map (·.2)) (sharingNodes sys w) facts r)
    (hadv : UpgradeAdvances p q) (rendered : Nat) :
    Gate sys ⟨namespaceOf sys, nodeByAddr facts, rendered,
      serverEnabled sys && 0 < r.rendered && r.serversNotReady.isEmpty⟩ q w where
  ns := rfl
  patched := by
    rw [← hp.sys_eq]
    exact hadv.sys
  carried := by
    have hup : carriedMask (upgradeMask q.status) = carriedMask (upgradeMask p.status) := by
      rw [hadv.status]
    have hcarried : upgradeMask (carriedMask p.status) = upgradeMask (carriedMask sys.status) := by
      rw [hp.status_eq]
    exact hup.trans hcarried
  configs := by
    intro nc hnc
    have hsame := congrArg DaosSystemStatus.nodeConfigs hadv.status
    rw [show q.status.nodeConfigs = p.status.nodeConfigs from hsame, hconfigs] at hnc
    rw [hfacts]
    exact hv.configs nc hnc
  ready := by
    intro _ hready f hf hrenders
    simp only [Bool.and_eq_true, decide_eq_true_eq, List.isEmpty_iff] at hready
    rw [hfacts] at hf
    exact hv.ready hready.1.1 hready.2 f hf hrenders
  hosts := by
    intro _ hready
    simp only [Bool.and_eq_true, decide_eq_true_eq, List.isEmpty_iff] at hready
    have hsame := congrArg DaosSystemStatus.nodeConfigs hadv.status
    rw [show q.status.nodeConfigs = p.status.nodeConfigs from hsame, hconfigs, hfacts]
    exact ht.hosts hready.1.1 hready.2

/-- From the restart to the status write, for a system the operator runs. -/
theorem wp_fromUpgrade (h : PassProof sys rely Base W A) {r : Rendering}
    (hp : HandsOver sys s.world r p) (hs : Base s) (requeue : Duration) :
    (fromUpgrade (namespaceOf sys) (nodeFacts sys s.world) r requeue p).wp cluster rely s
      (fun _ t => W t) W := by
  have hsys : p.sys = sys := hp.pass.carried.sys_eq
  have hobeys : (reconcileUpgrade (namespaceOf sys) r.rendered p).Obeys
      (SystemCall sys.name (namespaceOf sys) upgradeScope) _ :=
    obeys_reconcileUpgrade (by rw [hsys]) r.rendered
  unfold fromUpgrade
  refine Prog.wp_bind (stage (J := fun w => w.nodes = s.world.nodes ∧
      Visited sys (namespaceOf sys) ((replicas sys s.world).map (·.2)) (sharingNodes sys s.world)
        (nodeFacts sys s.world) r w) hobeys ?_ ⟨rfl, hp.visited⟩
    (h.upgrade r p s hp (h.enter p s hp.enters hs))) ?_
  · intro c f w hc hw
    exact ⟨hc.surroundings.1.trans hw.1, hw.2.next hc fun _ => rfl⟩
  · rintro up t ⟨hAt, hadv, hnodes, hvt⟩
    have hfollows : Follows sys up.pass := by
      rw [← hsys]
      exact hadv.sys.mono fun _ _ => rfl
    split
    · exact h.write .gate _ t _ (fun h => nomatch h) hfollows (h.cond _ up.pass _ t rfl hAt)
    · refine wp_operate h ?_ hAt _
      rw [hsys]
      have hsharing : sharingNodes sys t.world = sharingNodes sys s.world := by
        simp only [sharingNodes, nodeFacts_congr hnodes]
      refine gate_of_rendered (nodeFacts_congr hnodes) hp.pass.carried hp.pass.configs ?_ ?_ hadv _
      · rw [replicas_congr hnodes, hsharing]
        exact hvt
      · rw [replicas_congr hnodes, hsharing]
        exact hp.tally

/-- From the format gate to the status write, for a system run elsewhere. -/
theorem wp_fromGateElsewhere (h : PassProof sys rely Base W A)
    (hp : RunElsewhere sys s.world p) (hs : Base s) :
    (fromGateElsewhere (namespaceOf sys) p).wp cluster rely s (fun _ t => W t) W := by
  have hcarried := hp.enters.carried
  have hA : A .gate p s := h.skip p s hp.external (h.enter p s hp.enters hs)
  refine Prog.wp_bind (wp_format h ?_ hA) ?_
  · refine ⟨rfl, ?_, ?_, ?_, ?_, ?_⟩
    · rw [hcarried.sys_eq]
      exact .refl _
    · have hmask := congrArg upgradeMask hcarried.status_eq
      exact hmask
    · intro nc hnc
      rw [hp.configs] at hnc
      cases hnc
    · intro hfalse
      rw [hp.external] at hfalse
      cases hfalse
    · intro hfalse
      rw [hp.external] at hfalse
      cases hfalse
  rintro ⟨requeue, q⟩ t ⟨hAt, hq⟩
  refine wp_afterFormat h hq hAt ?_
  rintro ⟨rankRequeue, q⟩ t hq hAt
  exact h.write .engines _ t _ (fun h => nomatch h) hq
    (h.cond _ q _ t (conditionMask_setExternalReady _) hAt)

/-- A proof by stages fills in the outline. -/
theorem outline (h : PassProof sys rely Base W A) : Outline sys rely Base W where
  render := h.render
  stop := h.stop
  early := fun p s requeue hp hs => by
    refine h.write .entered p s requeue (fun h => nomatch h) ?_ (h.enter p s hp.enters hs)
    rw [Follows, hp.enters.carried.sys_eq]
    exact .refl _
  elsewhere := fun p s hp hs => wp_fromGateElsewhere h hp hs
  handOver := fun r p s requeue hp hs => wp_fromUpgrade h hp hs requeue

theorem wp_reconcileSystem (h : PassProof sys rely Base W A) (hs : Base s) :
    (reconcileSystem sys).wp cluster rely s (fun _ t => W t) W :=
  h.outline.wp_reconcileSystem hs

end PassProof

namespace StageProof

variable {sys : DaosSystem} {rely : Entry Call World → Prop} {Base W : Point Call World → Prop}
  {A : Stage → Pass → Point Call World → Prop} {s : Point Call World}

theorem pass (h : StageProof sys rely Base W A) : PassProof sys rely Base W A where
  render := h.render
  stop := h.stop
  enter := h.enter
  cond := h.cond
  upgrade r p s hp := h.upgrade r.rendered p s hp.enters
  skip := h.skip
  format := h.format
  rankOp := h.rankOp
  engines := h.engines
  write := h.write

theorem wp_reconcileSystem (h : StageProof sys rely Base W A) (hs : Base s) :
    (reconcileSystem sys).wp cluster rely s (fun _ t => W t) W :=
  h.pass.wp_reconcileSystem hs

end StageProof

/-! ## Framing a whole reconcile -/

/-- Everything a reconcile may touch. -/
def wholeScope : Scope where
  jobs _ := true
  patches _ := true
  files _ := True
  statefulSets := true
  removals := true
  pods := true
  secrets := true
  engines := true
  status := true

theorem Scope.le_wholeScope (S : Scope) : S.Le wholeScope :=
  ⟨fun _ _ => rfl, fun _ _ => rfl, fun _ _ => trivial, fun _ => rfl, fun _ => rfl, fun _ => rfl,
    fun _ => rfl, fun _ => rfl, fun _ => rfl⟩

/-- What every call of a reconcile keeps holds to its end. -/
theorem wp_reconcile_frame {name : String} {rely : Entry Call World → Prop}
    {I : Point Call World → Prop} {s : Point Call World}
    (hread : ∀ f, rely ⟨.getSystem name, f, s.world⟩ → I s →
      I (cluster.next s (.getSystem name) f))
    (hkeep : ∀ sys c f t, stored s.world.systems name = some sys →
      SystemCall sys.name (namespaceOf sys) wholeScope c → cluster.Admits c f →
      rely ⟨c, f, t.world⟩ → I t → I (cluster.next t c f))
    (hs : I s) : (reconcile name).wp cluster rely s (fun _ => I) I := by
  refine wp_reconcile (fun f hrely => hread f hrely hs) ?_
  intro sys hsys _ hrely
  have hframe : ∀ {α : Type} {S : Scope} {P : α → Prop} {q : Op α} {t : Point Call World},
      q.Obeys (SystemCall sys.name (namespaceOf sys) S) P → I t →
        q.wp cluster rely t (fun _ => I) I := by
    intro α S P q t hq ht
    refine Prog.wp_mono (hq.wp ?_ ht) (fun _ _ h => h.2) fun _ h => h
    intro c f u hc hf hrely hu
    exact hkeep sys c f u hsys (hc.mono S.le_wholeScope) hf hrely hu
  have hstages : StageProof sys rely I I fun _ _ => I :=
    { render := fun c f t hc hf hrely ht =>
        hkeep sys c f t hsys (hc.mono (Scope.le_wholeScope _)) hf hrely ht
      stop := fun _ h => h
      enter := fun _ _ _ h => h
      cond := fun _ _ _ _ _ h => h
      skip := fun _ _ _ h => h
      upgrade := fun rendered p t hp ht =>
        hframe (hp.carried.obeys_upgrade rendered) ht
      format := fun inp p t hp ht => hframe (obeys_reconcileFormat hp.patched.name hp.ns) ht
      rankOp := fun p t hp ht => hframe (obeys_reconcileRankOp hp.patched.name) ht
      engines := fun p t hp ht => hframe (obeys_reconcileEngineRestart hp.name) ht
      write := fun _ p t requeue _ hp ht =>
        hframe (S := wholeScope) (obeys_updateStatus hp.name rfl requeue) ht }
  exact hstages.wp_reconcileSystem (hread _ hrely hs)

end DaosOperator.System
