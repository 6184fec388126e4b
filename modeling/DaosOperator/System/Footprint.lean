import DaosOperator.System.Reconcile

/-!
# What the parts of a `DaosSystem` reconcile can touch

Every part of a reconcile is bounded by a scope: the Jobs it may run, the patches
it may apply, whether it may delete pods or write Secrets, and so on.  The bound
holds for arbitrary answers of the API server.  Next to the calls, each part says
which fields of the pass it can have changed.
-/

namespace DaosOperator

open Effect

variable {p : Pass} {sys : DaosSystem}

namespace System

/-- What a part of a reconcile may touch. -/
structure Scope where
  jobs : JobKind → Bool := fun _ => false
  patches : SystemPatch → Bool := fun _ => false
  /-- Config files it may write. -/
  files : Render.ConfigFile → Prop := fun _ => False
  statefulSets : Bool := false
  /-- StatefulSets it may remove. -/
  removals : Bool := false
  pods : Bool := false
  secrets : Bool := false
  engines : Bool := false
  status : Bool := false

def JobKind.Runs (args : List String) : JobKind → Prop
  | query | verify => args = ["system", "query", "-v"]
  | format => ∃ only, args = formatArgs only
  | rankOp => ∃ op ranks, op ∈ rankOps ∧ args = rankOpArgs op ranks
  | stop => args = ["system", "stop"]
  | start => args = ["system", "start"]
  | engineStart => ∃ ranks, args = ["system", "start", "--ranks=" ++ ranks]

structure SystemJob (name ns : String) (kind : JobKind) (spec : Dmg.RunSpec) : Prop where
  owner : spec.owner = .system name
  key : spec.key = jobKey name ns kind
  runs : kind.Runs spec.command.args

/-- The calls of a reconcile of the system `name` within a scope. -/
inductive SystemCall (name ns : String) (S : Scope) : Call → Prop where
  | quiet {c : Call} (h : c.quiet = true) : SystemCall name ns S c
  | setHold (key : String) (interval : Duration) : SystemCall name ns S (.setHold key interval)
  | clearHold (key : String) : SystemCall name ns S (.clearHold key)
  | setEngineMemory (m : EngineMemory) (h : S.engines = true) :
      SystemCall name ns S (.setEngineMemory name m)
  | configMap (key : ObjectKey) (file : Render.ConfigFile) (h : S.files file) :
      SystemCall name ns S (.upsertConfigMap key file)
  | ensureStatefulSet (key : ObjectKey) (image : String) (h : S.statefulSets = true) :
      SystemCall name ns S (.ensureStatefulSet key image)
  | deleteStatefulSet (key : ObjectKey) (h : S.removals = true) :
      SystemCall name ns S (.deleteStatefulSet key)
  | generateCerts : SystemCall name ns S .generateCerts
  /-- A bundle is created only where there is none. -/
  | createSecret (bundle : Bundle) : SystemCall name ns S (.createSecret (certsKey name ns) bundle)
  | putSecret (key : ObjectKey) (bundle : Bundle) (h : S.secrets = true) :
      SystemCall name ns S (.putSecret key bundle)
  | deletePod (key : ObjectKey) (h : S.pods = true) : SystemCall name ns S (.deletePod key)
  | createJob (kind : JobKind) (spec : Dmg.RunSpec) (h : S.jobs kind = true)
      (hspec : SystemJob name ns kind spec) : SystemCall name ns S (.createJob spec)
  | deleteJob (kind : JobKind) (h : S.jobs kind = true) :
      SystemCall name ns S (.deleteJob (jobKey name ns kind))
  | patch (p : SystemPatch) (h : S.patches p = true) : SystemCall name ns S (.patchSystem name p)
  | status (st : DaosSystemStatus) (h : S.status = true) :
      SystemCall name ns S (.updateSystemStatus name st)

/-- One scope within another. -/
structure Scope.Le (S T : Scope) : Prop where
  jobs : ∀ k, S.jobs k = true → T.jobs k = true
  patches : ∀ p, S.patches p = true → T.patches p = true
  files : ∀ f, S.files f → T.files f
  statefulSets : S.statefulSets = true → T.statefulSets = true
  removals : S.removals = true → T.removals = true
  pods : S.pods = true → T.pods = true
  secrets : S.secrets = true → T.secrets = true
  engines : S.engines = true → T.engines = true
  status : S.status = true → T.status = true

theorem SystemCall.mono {name ns : String} {S T : Scope} {c : Call} (h : SystemCall name ns S c)
    (hST : S.Le T) : SystemCall name ns T c := by
  cases h with
  | quiet h => exact .quiet h
  | setHold key interval => exact .setHold key interval
  | clearHold key => exact .clearHold key
  | setEngineMemory m h => exact .setEngineMemory m (hST.engines h)
  | configMap key file h => exact .configMap key file (hST.files file h)
  | ensureStatefulSet key image h => exact .ensureStatefulSet key image (hST.statefulSets h)
  | deleteStatefulSet key h => exact .deleteStatefulSet key (hST.removals h)
  | generateCerts => exact .generateCerts
  | createSecret bundle => exact .createSecret bundle
  | putSecret key bundle h => exact .putSecret key bundle (hST.secrets h)
  | deletePod key h => exact .deletePod key (hST.pods h)
  | createJob kind spec h hspec => exact .createJob kind spec (hST.jobs kind h) hspec
  | deleteJob kind h => exact .deleteJob kind (hST.jobs kind h)
  | patch p h => exact .patch p (hST.patches p h)
  | status st h => exact .status st (hST.status h)

/-! ## Passes -/

/-- `sys'` is `sys` after patches of the allowed kinds. -/
def Patched (allowed : SystemPatch → Bool) (sys sys' : DaosSystem) : Prop :=
  ∃ ps : List SystemPatch, (∀ p ∈ ps, allowed p = true) ∧ sys' = ps.foldl SystemPatch.apply sys

variable {allowed : SystemPatch → Bool} {sys sys' sys'' : DaosSystem}

theorem Patched.refl (sys : DaosSystem) : Patched allowed sys sys := ⟨[], by simp, rfl⟩

theorem Patched.step {p : SystemPatch} (h : allowed p = true) :
    Patched allowed sys (p.apply sys) :=
  ⟨[p], by simpa using h, rfl⟩

theorem Patched.trans (h : Patched allowed sys sys') (h' : Patched allowed sys' sys'') :
    Patched allowed sys sys'' := by
  obtain ⟨ps, hps, rfl⟩ := h
  obtain ⟨qs, hqs, rfl⟩ := h'
  refine ⟨ps ++ qs, ?_, by simp⟩
  intro p hp
  rcases List.mem_append.mp hp with hp | hp
  · exact hps p hp
  · exact hqs p hp

theorem Patched.mono {allowed' : SystemPatch → Bool} (h : Patched allowed sys sys')
    (hle : ∀ p, allowed p = true → allowed' p = true) : Patched allowed' sys sys' := by
  obtain ⟨ps, hps, rfl⟩ := h
  exact ⟨ps, fun p hp => hle p (hps p hp), rfl⟩

/-- What no allowed patch changes is the same before and after. -/
theorem Patched.proj {β : Type} {f : DaosSystem → β} (h : Patched allowed sys sys')
    (hf : ∀ s p, allowed p = true → f (p.apply s) = f s) : f sys' = f sys := by
  obtain ⟨ps, hps, rfl⟩ := h
  induction ps generalizing sys with
  | nil => rfl
  | cons p ps ih =>
      rw [List.foldl_cons, ih (fun q hq => hps q (by simp [hq])), hf sys p (hps p (by simp))]

theorem Patched.name (h : Patched allowed sys sys') : sys'.name = sys.name :=
  h.proj (f := DaosSystem.name) fun s p _ => by cases p <;> rfl

/-- The pass `q` comes from `p` by allowed patches and by changes of the status that
`mask` hides. -/
structure Advances (allowed : SystemPatch → Bool) (mask : DaosSystemStatus → DaosSystemStatus)
    (p q : Pass) : Prop where
  sys : Patched allowed p.sys q.sys
  status : mask q.status = mask p.status

variable {mask : DaosSystemStatus → DaosSystemStatus} {p q r : Pass}

theorem Advances.refl (p : Pass) : Advances allowed mask p p := ⟨.refl _, rfl⟩

theorem Advances.trans (h : Advances allowed mask p q) (h' : Advances allowed mask q r) :
    Advances allowed mask p r :=
  ⟨h.sys.trans h'.sys, h'.status.trans h.status⟩

theorem Advances.name (h : Advances allowed mask p q) : q.sys.name = p.sys.name := h.sys.name

/-- The fields of a status that no condition, and none of the restart, touches. -/
def upgradeMask (st : DaosSystemStatus) : DaosSystemStatus :=
  { st with conditions := [], upgrade := none, observedVersion := "", certificates := none }

/-- The fields the format gate and the membership query leave alone. -/
def formatMask (st : DaosSystemStatus) : DaosSystemStatus :=
  { st with
    conditions := [], formatted := false, pendingFormat := false, formatTime := none
    lastFormat := none, lastQueryTime := none, ranks := [], ranksJoined := 0, ranksTotal := 0 }

/-- The fields a rank operation leaves alone. -/
def rankOpMask (st : DaosSystemStatus) : DaosSystemStatus := { st with lastRankOp := none }

/-- Everything but the conditions. -/
def conditionMask (st : DaosSystemStatus) : DaosSystemStatus := { st with conditions := [] }

@[simp] theorem conditionMask_setCond (st : DaosSystemStatus) (t : ConditionType)
    (v : ConditionStatus) (reason msg : String) :
    conditionMask (setCond st t v reason msg) = conditionMask st := rfl

/-! ## Small parts -/

section Parts

variable {name ns : String} {S : Scope}

theorem obeys_event (sys : DaosSystem) (warning : Bool) (reason msg : String) :
    (event sys warning reason msg).Obeys (SystemCall name ns S) fun _ => True :=
  Prog.obeys_ask (.quiet rfl)

theorem obeys_patch {p : SystemPatch} (hname : sys.name = name)
    (hp : S.patches p = true) :
    (patch sys p).Obeys (SystemCall name ns S) (Patched S.patches sys) := by
  subst hname
  refine Prog.obeys_ask_bind (.patch p hp) ?_
  intro _
  exact Patched.step hp

theorem systemCall_of_runCall {kind : JobKind} {spec : Dmg.RunSpec} (hkind : S.jobs kind = true)
    (hspec : SystemJob name ns kind spec) {c : Call} (hc : Dmg.RunCall spec c) :
    SystemCall name ns S c := by
  cases hc with
  | getJob => exact .quiet rfl
  | createJob => exact .createJob kind spec hkind hspec
  | listJobPods => exact .quiet rfl
  | podLogs pod => exact .quiet rfl
  | deleteJob =>
      rw [hspec.key]
      exact .deleteJob kind hkind

theorem obeys_runJob (kind : JobKind) (command : Dmg.Command)
    (hname : sys.name = name) (hkind : S.jobs kind = true) (hruns : kind.Runs command.args) :
    (Dmg.run (jobSpec sys ns kind command)).Obeys (SystemCall name ns S) fun _ => True := by
  have hspec : SystemJob name ns kind (jobSpec sys ns kind command) := by
    subst hname
    exact ⟨rfl, rfl, hruns⟩
  exact (Dmg.obeys_run _).mono (fun _ hc => systemCall_of_runCall hkind hspec hc) fun _ h => h

theorem obeys_runDmg (kind : JobKind) {args : List String}
    (hname : sys.name = name) (hkind : S.jobs kind = true) (hruns : kind.Runs args) :
    (runDmg sys ns kind args).Obeys (SystemCall name ns S) fun _ => True :=
  obeys_runJob kind (.dmg args) hname hkind hruns

theorem obeys_updateStatus (hname : p.sys.name = name) (hS : S.status = true)
    (requeue : Duration) :
    (updateStatus p requeue).Obeys (SystemCall name ns S) fun _ => True := by
  subst hname
  exact Prog.obeys_ask_bind (.status p.status hS) fun _ => trivial

end Parts

/-! ## The restart -/

/-- What the restart may touch. -/
def upgradeScope : Scope where
  jobs k := k = .stop || k = .start || k = .verify
  patches p := p = .resetUpgradeApproved || p = .removeCertsRenewApproved
  pods := true
  secrets := true

/-- What one pass of the restart may touch; it replaces certificates and pods only in the
phase `Updating`. -/
def restartScope (updating : Bool) : Scope :=
  { upgradeScope with pods := updating, secrets := updating }

/-- How the restart moves a pass on. -/
abbrev UpgradeAdvances : Pass → Pass → Prop := Advances upgradeScope.patches upgradeMask

/-- The restart has no say in the condition `Formatted`. -/
structure Restarts (p q : Pass) : Prop extends Advances upgradeScope.patches upgradeMask p q where
  formatted : findCond q.status .formatted = findCond p.status .formatted

/-- How one step of a restart ends: the restart goes on, or it is over. -/
structure Continues (up : UpgradeStatus) (p : Pass) (r : UpgradeResult) : Prop
    extends Restarts p r.pass where
  ends : p.status.upgrade = some up → r.inProgress = true ∨ upgradeInProgress r.pass.status = false

section Upgrade

variable {name ns : String} {updating : Bool}

theorem Restarts.refl (p : Pass) : Restarts p p := ⟨.refl p, rfl⟩

theorem Restarts.trans (h : Restarts p q) (h' : Restarts q r) : Restarts p r :=
  ⟨h.toAdvances.trans h'.toAdvances, h'.formatted.trans h.formatted⟩

theorem restarts_upgrading (p : Pass) (up : UpgradeStatus) : Restarts p (p.upgrading up) :=
  ⟨⟨.refl _, rfl⟩, findCond_setCond_of_ne _ (by decide) ..⟩

theorem Restarts.goesOn {up : UpgradeStatus} {r : UpgradeResult} (h : Restarts p r.pass)
    (hr : r.inProgress = true) : Continues up p r :=
  ⟨h, fun _ => Or.inl hr⟩

theorem obeys_consumeApprovals (hname : sys.name = name) :
    (consumeApprovals sys).Obeys (SystemCall name ns (restartScope updating))
      (Patched upgradeScope.patches sys) := by
  refine Prog.Obeys.bind (P := Patched upgradeScope.patches sys) ?_ ?_
  · exact Prog.obeys_ite (fun _ => obeys_patch hname rfl) fun _ => Patched.refl sys
  · intro sys' hsys'
    refine Prog.obeys_ite (fun _ => hsys') fun _ => ?_
    exact (obeys_patch (hsys'.name.trans hname) rfl).mono (fun _ h => h) fun _ h => hsys'.trans h

theorem obeys_failUpgrade (hname : p.sys.name = name) (up : UpgradeStatus)
    (msg : String) :
    (failUpgrade p up msg).Obeys (SystemCall name ns (restartScope updating)) fun r =>
      Restarts p r.pass ∧ upgradeInProgress r.pass.status = false := by
  refine Prog.obeys_ask_bind (.quiet rfl) fun now => ?_
  refine (obeys_event _ _ _ _).bind fun _ _ => ?_
  refine (obeys_consumeApprovals hname).bind fun sys hsys => ?_
  exact ⟨⟨⟨hsys, rfl⟩, findCond_setCond_of_ne _ (by decide) ..⟩, rfl⟩

theorem obeys_failUpgrade_continues (hname : p.sys.name = name) (up : UpgradeStatus)
    (msg : String) :
    (failUpgrade p up msg).Obeys (SystemCall name ns (restartScope updating)) (Continues up p) :=
  (obeys_failUpgrade hname up msg).mono (fun _ h => h) fun _ h => ⟨h.1, fun _ => Or.inr h.2⟩

theorem obeys_upToDate (hname : p.sys.name = name) (pods : List ServerPod) :
    (upToDate p pods).Obeys (SystemCall name ns (restartScope updating)) fun
      | .idle r => Restarts p r.pass ∧
          (r.pass.status.upgrade = none ∨ r.pass.status.upgrade = p.status.upgrade)
      | .underWay _ _ => False := by
  unfold upToDate
  extract_lets st₀ st₁ st₂ st₃
  have hst : upgradeMask st₃ = upgradeMask p.status ∧
      findCond st₃ .formatted = findCond p.status .formatted ∧
      (st₃.upgrade = none ∨ st₃.upgrade = p.status.upgrade) := by
    have h₁ : upgradeMask st₁ = upgradeMask st₀ ∧
        findCond st₁ .formatted = findCond st₀ .formatted ∧
        (st₁.upgrade = none ∨ st₁.upgrade = st₀.upgrade) := by
      simp only [st₁]
      split
      · exact ⟨rfl, rfl, Or.inl rfl⟩
      · exact ⟨rfl, rfl, Or.inr rfl⟩
    have h₂ : upgradeMask st₂ = upgradeMask st₁ ∧
        findCond st₂ .formatted = findCond st₁ .formatted ∧
        st₂.upgrade = st₁.upgrade := by
      simp only [st₂]
      split <;> exact ⟨rfl, rfl, rfl⟩
    have h₃ : upgradeMask st₃ = upgradeMask st₂ ∧
        findCond st₃ .formatted = findCond st₂ .formatted ∧
        st₃.upgrade = st₂.upgrade := by
      simp only [st₃]
      split
      · exact ⟨rfl, findCond_setCond_of_ne _ (by decide) .., rfl⟩
      · exact ⟨rfl, rfl, rfl⟩
    rw [h₃.1, h₂.1, h₃.2.1, h₂.2.1, h₃.2.2, h₂.2.2]
    exact h₁
  refine Prog.obeys_ite (fun _ => ?_) fun _ => ⟨⟨⟨.refl _, hst.1⟩, hst.2.1⟩, hst.2.2⟩
  refine Prog.Obeys.bind (P := Patched upgradeScope.patches p.sys) ?_ fun sys hsys => ?_
  · exact Prog.obeys_ite (fun _ => obeys_patch hname rfl) fun _ => Patched.refl _
  · refine (obeys_event _ _ _ _).bind fun _ _ => ?_
    exact ⟨⟨⟨hsys, hst.1⟩, hst.2.1⟩, hst.2.2⟩

theorem obeys_beginUpgrade (hname : p.sys.name = name) (pods : List ServerPod) :
    (beginUpgrade p pods).Obeys (SystemCall name ns (restartScope updating)) fun
      | .idle r => Restarts p r.pass
      | .underWay up q => Restarts p q ∧ up.phase = .stopping := by
  refine Prog.obeys_ite (fun _ => ?_) fun _ => ?_
  · refine Prog.obeys_ask_bind (.quiet rfl) fun now => ?_
    refine (obeys_event _ _ _ _).bind fun _ _ => ?_
    exact ⟨restarts_upgrading .., rfl⟩
  · refine Prog.obeys_ite (fun _ => ?_) fun _ => ?_
    · refine (obeys_upToDate hname pods).mono (fun _ h => h) fun b hb => ?_
      cases b with
      | idle r => exact hb.1
      | underWay up q => exact hb.elim
    refine Prog.obeys_ite (fun _ => ?_) fun _ => ?_
    · exact ⟨⟨.refl _, rfl⟩, findCond_setCond_of_ne _ (by decide) ..⟩
    refine Prog.obeys_ask_bind (.quiet rfl) fun now => ?_
    refine (obeys_event _ _ _ _).bind fun _ _ => ?_
    exact ⟨restarts_upgrading .., rfl⟩

theorem obeys_commandPhase (hname : p.sys.name = name) {kind : JobKind} {verb : String}
    (hkind : (restartScope updating).jobs kind = true) (hruns : kind.Runs ["system", verb])
    (next : UpgradePhase) (msg : String) (up : UpgradeStatus) :
    (commandPhase ns kind verb next msg up p).Obeys (SystemCall name ns (restartScope updating))
      (Continues up p) := by
  refine (obeys_runDmg kind hname hkind hruns).bind fun res _ => ?_
  refine Prog.obeys_ite (fun _ => (Restarts.refl p).goesOn rfl) fun _ => ?_
  split
  · exact obeys_failUpgrade_continues hname up _
  · split
    · exact obeys_failUpgrade_continues hname up _
    · exact (restarts_upgrading p _).goesOn rfl

theorem obeys_rotateCerts {S : Scope} (hS : S.secrets = true) (p : Pass) :
    (rotateCerts ns p).Obeys (SystemCall name ns S) (Restarts p) := by
  refine (Prog.obeys_ask (.quiet rfl)).mapError.bind fun cur _ => ?_
  cases cur with
  | none => trivial
  | some cur =>
      refine (Prog.obeys_ask (.putSecret _ cur hS)).mapError.bind fun _ _ => ?_
      refine (Prog.obeys_ask .generateCerts).mapError.bind fun bundle _ => ?_
      refine (Prog.obeys_ask (.putSecret _ bundle hS)).mapError.bind fun _ _ => ?_
      refine Prog.obeys_ask_bind (.quiet rfl) fun now => ?_
      refine (obeys_event _ _ _ _).bind fun _ _ => ?_
      exact ⟨⟨.refl _, rfl⟩, rfl⟩

theorem obeys_replacePods (rendered : Nat) (pods : List ServerPod)
    (up : UpgradeStatus) :
    (replacePods rendered pods up p).Obeys (SystemCall name ns (restartScope true)) fun r =>
      Restarts p r.pass ∧ r.inProgress = true := by
  refine Prog.Obeys.bind (P := fun _ => True) ?_ fun deleted _ => ?_
  · refine Prog.obeys_foldList (fun n pod _ _ => ?_) trivial
    refine Prog.obeys_ite (fun _ => trivial) fun _ => ?_
    refine Prog.obeys_ite (fun _ => ?_) fun _ => trivial
    exact Prog.obeys_ask_bind (.deletePod pod.key rfl) fun _ => trivial
  · refine (obeys_event _ _ _ _).bind fun _ _ => ?_
    exact ⟨restarts_upgrading p _, rfl⟩

theorem obeys_updatingPhase (hname : p.sys.name = name) (rendered : Nat)
    (pods : List ServerPod) (up : UpgradeStatus) :
    (updatingPhase ns rendered pods up p).Obeys (SystemCall name ns (restartScope true))
      (Continues up p) := by
  have hreplace : ∀ q, Restarts p q → (replacePods rendered pods up q).Obeys
      (SystemCall name ns (restartScope true)) (Continues up p) := fun q hq =>
    (obeys_replacePods rendered pods up).mono (fun _ h => h) fun _ h => (hq.trans h.1).goesOn h.2
  refine Prog.obeys_ite (fun _ => ?_) fun _ => hreplace p (.refl p)
  refine (obeys_rotateCerts rfl p).attempt.bind fun r hr => ?_
  cases r with
  | error e => exact obeys_failUpgrade_continues hname up _
  | ok q => exact hreplace q (hr q rfl)

theorem obeys_completeUpgrade (hname : p.sys.name = name) (members : Nat) (up : UpgradeStatus) :
    (completeUpgrade members up p).Obeys (SystemCall name ns (restartScope updating))
      (Continues up p) := by
  unfold completeUpgrade
  refine Prog.obeys_ask_bind (.quiet rfl) fun now => ?_
  refine (obeys_event _ _ _ _).bind fun _ _ => ?_
  refine Prog.obeys_ask_bind (.clearHold _) fun _ => ?_
  refine Prog.Obeys.bind (P := Patched upgradeScope.patches p.sys) ?_ fun sys hsys => ?_
  · split
    · exact obeys_consumeApprovals hname
    · exact obeys_consumeApprovals hname
  · refine ⟨⟨⟨hsys, ?_⟩, ?_⟩, fun _ => Or.inr ?_⟩
    · split <;> rfl
    · split <;> exact findCond_setCond_of_ne _ (by decide) ..
    · split <;> rfl

theorem obeys_verifyingPhase (hname : p.sys.name = name) (up : UpgradeStatus) :
    (verifyingPhase ns up p).Obeys (SystemCall name ns (restartScope updating))
      (Continues up p) := by
  have hup : ∀ up', Restarts p (p.withUpgrade up') := fun _ => ⟨⟨.refl _, rfl⟩, rfl⟩
  refine (obeys_runDmg .verify hname rfl rfl).bind fun res _ => ?_
  refine Prog.obeys_ite (fun _ => (Restarts.refl p).goesOn rfl) fun _ => ?_
  split
  · exact (hup _).goesOn rfl
  · split
    · exact (restarts_upgrading p _).goesOn rfl
    · split
      · exact obeys_failUpgrade_continues hname up _
      · refine Prog.obeys_ite (fun _ => (restarts_upgrading p _).goesOn rfl) fun _ => ?_
        exact obeys_completeUpgrade hname _ up

/-- The calls of one step of the restart, by the phase it is in. -/
theorem obeys_continueUpgrade (hname : p.sys.name = name) (rendered : Nat)
    (pods : List ServerPod) (up : UpgradeStatus) (hup : up.phase = .updating → updating = true) :
    (continueUpgrade ns rendered pods up p).Obeys (SystemCall name ns (restartScope updating))
      (Continues up p) := by
  refine Prog.obeys_ask_bind (.quiet rfl) fun now => ?_
  refine Prog.obeys_ite (fun _ => obeys_failUpgrade_continues hname up _) fun _ => ?_
  unfold upgradeStep
  split
  · exact obeys_commandPhase hname (by rfl) (by rfl) _ _ up
  · next hphase =>
      rw [hup hphase]
      exact obeys_updatingPhase hname rendered pods up
  · unfold startingPhase
    simp only [Prog.obeys_ret]
    split <;> exact (restarts_upgrading p _).goesOn rfl
  · exact obeys_commandPhase hname (by rfl) (by rfl) _ _ up
  · exact obeys_verifyingPhase hname up
  all_goals
    next hphase =>
      refine ⟨.refl p, fun hup => Or.inr ?_⟩
      simp [upgradeInProgress, hup, hphase]

/-- The calls of the restart, and what it leaves. -/
theorem obeys_reconcileUpgrade_restarts (hname : p.sys.name = name) (rendered : Nat)
    (hup : ∀ up, p.status.upgrade = some up → up.phase = .updating → updating = true) :
    (reconcileUpgrade ns rendered p).Obeys (SystemCall name ns (restartScope updating)) fun r =>
      Restarts p r.pass := by
  have hcontinue : ∀ pods up q, Restarts p q → (up.phase = .updating → updating = true) →
      (continueUpgrade ns rendered pods up q).Obeys (SystemCall name ns (restartScope updating))
        fun r => Restarts p r.pass := by
    intro pods up q hq hphase
    refine (obeys_continueUpgrade (hq.name.trans hname) rendered pods up hphase).mono
      (fun _ h => h) fun _ h => hq.trans h.toRestarts
  refine Prog.obeys_ite (fun _ => Restarts.refl p) fun _ => ?_
  refine Prog.Obeys.bind (P := fun _ => True) ?_ fun pods _ => ?_
  · exact Prog.obeys_ask_bind (.quiet rfl) fun _ => trivial
  · split
    · next up hpup _ => exact hcontinue pods up p (.refl p) (hup up hpup)
    · refine (obeys_beginUpgrade hname pods).bind fun b hb => ?_
      cases b with
      | idle r => exact hb
      | underWay up q =>
          refine hcontinue pods up q hb.1 ?_
          rw [hb.2]
          exact fun h => nomatch h

theorem obeys_reconcileUpgrade_updating (hname : p.sys.name = name) (rendered : Nat)
    (hup : ∀ up, p.status.upgrade = some up → up.phase = .updating → updating = true) :
    (reconcileUpgrade ns rendered p).Obeys (SystemCall name ns (restartScope updating)) fun r =>
      UpgradeAdvances p r.pass :=
  (obeys_reconcileUpgrade_restarts hname rendered hup).mono (fun _ h => h) fun _ h => h.toAdvances

theorem obeys_reconcileUpgrade (hname : p.sys.name = name) (rendered : Nat) :
    (reconcileUpgrade ns rendered p).Obeys (SystemCall name ns upgradeScope) fun r =>
      UpgradeAdvances p r.pass := by
  have hobeys : (reconcileUpgrade ns rendered p).Obeys (SystemCall name ns (restartScope true)) _ :=
    obeys_reconcileUpgrade_updating hname rendered fun _ _ _ => rfl
  exact hobeys

end Upgrade

/-! ## Format and membership -/

/-- What the format gate and the membership query may touch. -/
def formatScope : Scope where
  jobs k := k = .query || k = .format
  patches p := p = .removeFormatApproved

/-- How the format gate and the membership query move a pass on. -/
abbrev FormatAdvances : Pass → Pass → Prop := Advances formatScope.patches formatMask

section Format

variable {name ns : String} {S : Scope}

theorem obeys_clearApproval (hname : sys.name = name)
    (hS : S.patches .removeFormatApproved = true) :
    (clearApproval sys).Obeys (SystemCall name ns S) (Patched formatScope.patches sys) := by
  refine Prog.obeys_ite (fun _ => Patched.refl sys) fun _ => ?_
  subst hname
  exact Prog.obeys_ask_bind (.patch _ hS) fun _ => Patched.step rfl

theorem obeys_recordFormat (S : Scope) (only : List String) (res : Dmg.Result) (p : Pass) :
    (recordFormat only res p).Obeys (SystemCall name ns S) fun r =>
      r.2.sys = p.sys ∧ formatMask r.2.status = formatMask p.status := by
  refine Prog.obeys_ask_bind (.quiet rfl) fun now => ?_
  refine Prog.obeys_ite (fun _ => ?_) fun _ => ?_
  · refine (obeys_event _ _ _ _).bind fun _ _ => ?_
    exact ⟨rfl, rfl⟩
  · refine (obeys_event _ _ _ _).bind fun _ _ => ?_
    refine Prog.obeys_ask_bind (.clearHold _) fun _ => ?_
    exact ⟨rfl, rfl⟩

theorem obeys_formatPath {inp : FormatInput} (hname : p.sys.name = name)
    (hns : inp.ns = ns) (only : List String) :
    (formatPath inp only p).Obeys (SystemCall name ns formatScope) fun r =>
      FormatAdvances p r.2 := by
  subst hns
  refine Prog.obeys_ite (fun _ => ⟨.refl _, rfl⟩) fun _ => ?_
  refine (obeys_runDmg .format hname rfl ⟨only, rfl⟩).mapError.bind fun res _ => ?_
  refine Prog.obeys_ite (fun _ => ⟨.refl _, rfl⟩) fun _ => ?_
  refine (obeys_clearApproval hname rfl).bind fun sys hsys => ?_
  refine (obeys_recordFormat _ only res _).mono (fun _ h => h) fun r hr => ?_
  exact ⟨by rw [hr.1]; exact hsys, hr.2⟩

theorem formatMask_readMembership (sys : DaosSystem) (inp : FormatInput) (approved : Bool)
    (queried : Time) (env : Dmg.Envelope) (leader : Option Dmg.Envelope) (st : DaosSystemStatus) :
    formatMask (readMembership sys inp approved queried env leader st).status = formatMask st := by
  unfold readMembership
  split
  · split <;> rfl
  · split <;> rfl

theorem formatMask_readQuery (sys : DaosSystem) (inp : FormatInput) (approved : Bool)
    (now : Time) (res : Dmg.Result) (st : DaosSystemStatus) :
    formatMask (readQuery sys inp approved now res st).status = formatMask st := by
  unfold readQuery
  split
  · rfl
  · split
    · rfl
    · rfl
    · exact formatMask_readMembership ..
    · exact formatMask_readMembership ..

theorem obeys_finishQuery {q : QueryRead} {st : DaosSystemStatus}
    (hname : sys.name = name) (hS : S.patches .removeFormatApproved = true)
    (hst : formatMask q.status = formatMask st) :
    (finishQuery q sys).Obeys (SystemCall name ns S) fun r =>
      FormatAdvances ⟨sys, st⟩ r.2 ∧ r.2.status = q.status := by
  refine Prog.Obeys.bind (P := fun _ => True) ?_ fun _ _ => ?_
  · split
    · exact obeys_event _ _ _ _
    · trivial
  refine Prog.Obeys.bind
    (P := fun r => ∀ sys', r = .ok sys' → Patched formatScope.patches sys sys') ?_
    fun dropped hdropped => ?_
  · refine Prog.obeys_ite (fun _ => (obeys_clearApproval hname hS).attempt) fun _ => ?_
    rintro sys' ⟨⟩
    exact .refl _
  refine Prog.obeys_ask_bind (.setHold _ _) fun _ => ?_
  cases dropped with
  | error e => trivial
  | ok sys' =>
      refine Prog.Obeys.bind (P := fun _ => True) ?_ fun _ _ => ?_
      · exact Prog.obeys_ite (fun _ => obeys_event _ _ _ _) fun _ => trivial
      · exact ⟨⟨hdropped sys' rfl, hst⟩, rfl⟩

theorem obeys_queryPath {inp : FormatInput} (hname : p.sys.name = name)
    (hns : inp.ns = ns) (hquery : S.jobs .query = true)
    (hS : S.patches .removeFormatApproved = true) (approved : Bool) :
    (queryPath inp approved p).Obeys (SystemCall name ns S) fun r =>
      FormatAdvances p r.2 := by
  subst hns
  refine Prog.obeys_ask_bind (.quiet rfl) fun wait => ?_
  refine Prog.obeys_ite (fun _ => Advances.refl p) fun _ => ?_
  refine (obeys_runJob .query (.dmg _ _ _ _) hname hquery rfl).mapError.bind fun res _ => ?_
  refine Prog.obeys_ite (fun _ => ?_) fun _ => ?_
  · simp only [Prog.obeys_ret]
    split
    · exact ⟨.refl _, rfl⟩
    · exact Advances.refl p
  · refine Prog.obeys_ask_bind (.quiet rfl) fun now => ?_
    exact (obeys_finishQuery hname hS (formatMask_readQuery ..)).mono (fun _ h => h) fun _ h => h.1

theorem obeys_refuseExternalFormat (hname : sys.name = name)
    (hS : S.patches .removeFormatApproved = true) :
    (refuseExternalFormat sys).Obeys (SystemCall name ns S)
      (Patched formatScope.patches sys) := by
  refine Prog.obeys_ite (fun _ => ?_) fun _ => Patched.refl sys
  exact (obeys_event _ _ _ _).bind fun _ _ => obeys_clearApproval hname hS

/-- The calls of the format gate and the membership query, and what they change. -/
theorem obeys_reconcileFormat {inp : FormatInput} (hname : p.sys.name = name)
    (hns : inp.ns = ns) :
    (reconcileFormat inp p).Obeys (SystemCall name ns formatScope) fun r =>
      FormatAdvances p r.2 := by
  refine Prog.obeys_ite (fun _ => ⟨.refl _, rfl⟩) fun _ => ?_
  refine (obeys_refuseExternalFormat hname rfl).bind fun sys hsys => ?_
  have hname' : sys.name = name := hsys.name.trans hname
  split
  · refine (obeys_formatPath hname' hns _).mono (fun _ h => h) fun r hr => ?_
    exact ⟨hsys.trans hr.sys, hr.status⟩
  · refine (obeys_queryPath hname' hns rfl rfl _).mono (fun _ h => h) fun r hr => ?_
    exact ⟨hsys.trans hr.sys, hr.status⟩

/-- What the format gate makes of the status it is given. -/
inductive FormatResult (inp : FormatInput) (st : DaosSystemStatus) : DaosSystemStatus → Prop where
  /-- The query is held back or still running. -/
  | waits : FormatResult inp st st
  /-- Nothing is asked, or the format or the first query is still running. -/
  | reports (v : ConditionStatus) (reason msg : String) (hv : v ≠ .isTrue) :
      FormatResult inp st (setCond st .formatted v reason msg)
  | failed (only : List String) (msg : String) (now : Time) :
      FormatResult inp st (formatFailed only msg now st)
  | succeeded (only : List String) (now : Time) :
      FormatResult inp st (formatSucceeded only now st)
  | read (sys : DaosSystem) (approved : Bool) (now : Time) (res : Dmg.Result) :
      FormatResult inp st (readQuery sys inp approved now res st).status

theorem obeys_formatPath_ends (inp : FormatInput) (only : List String) (p : Pass) :
    (formatPath inp only p).Obeys (fun _ => True) fun r =>
      (∃ v reason msg, v ≠ .isTrue ∧ r.2.status = setCond p.status .formatted v reason msg) ∨
        (∃ msg now, r.2.status = formatFailed only msg now p.status) ∨
        ∃ now, r.2.status = formatSucceeded only now p.status := by
  refine Prog.obeys_ite (fun _ => Or.inl ⟨_, _, _, by decide, rfl⟩) fun _ => ?_
  refine Prog.Obeys.bind (P := fun _ => True) ?_ fun res _ => ?_
  · exact (Dmg.obeys_run _).returns.mapError
  refine Prog.obeys_ite (fun _ => Or.inl ⟨_, _, _, by decide, rfl⟩) fun _ => ?_
  refine Prog.Obeys.bind (P := fun _ => True) ?_ fun sys _ => ?_
  · refine Prog.obeys_ite (fun _ => trivial) fun _ => ?_
    exact Prog.obeys_ask_bind trivial fun _ => trivial
  refine Prog.obeys_ask_bind trivial fun now => ?_
  refine Prog.obeys_ite (fun _ => ?_) fun _ => ?_
  · exact Prog.obeys_ask_bind trivial fun _ => Or.inr (Or.inl ⟨_, _, rfl⟩)
  · refine Prog.obeys_ask_bind trivial fun _ => ?_
    exact Prog.obeys_ask_bind trivial fun _ => Or.inr (Or.inr ⟨_, rfl⟩)

theorem obeys_formatPath_result (inp : FormatInput) (only : List String) (p : Pass) :
    (formatPath inp only p).Obeys (fun _ => True) fun r =>
      FormatResult inp p.status r.2.status := by
  refine (obeys_formatPath_ends inp only p).mono (fun _ h => h) ?_
  rintro r (⟨v, reason, msg, hv, hst⟩ | ⟨msg, now, hst⟩ | ⟨now, hst⟩) <;> rw [hst]
  · exact .reports v reason msg hv
  · exact .failed ..
  · exact .succeeded ..

theorem obeys_queryPath_result (inp : FormatInput) (approved : Bool) (p : Pass) :
    (queryPath inp approved p).Obeys (fun _ => True) fun r =>
      FormatResult inp p.status r.2.status := by
  refine Prog.obeys_ask_bind trivial fun wait => ?_
  refine Prog.obeys_ite (fun _ => .waits) fun _ => ?_
  refine Prog.Obeys.bind (P := fun _ => True) ?_ fun res _ => ?_
  · exact (Dmg.obeys_run _).returns.mapError
  refine Prog.obeys_ite (fun _ => ?_) fun _ => ?_
  · simp only [Prog.obeys_ret]
    split
    · exact .reports _ _ _ (by decide)
    · exact .waits
  · refine Prog.obeys_ask_bind trivial fun now => ?_
    have hobeys : (finishQuery (readQuery p.sys inp approved now res p.status) p.sys).Obeys
        (SystemCall p.sys.name inp.ns formatScope) _ :=
      obeys_finishQuery rfl rfl (formatMask_readQuery ..)
    refine hobeys.mono (fun _ _ => trivial) fun r hr => ?_
    rw [hr.2]
    exact .read ..

/-- The statuses the format gate can end with. -/
theorem obeys_reconcileFormat_result (inp : FormatInput) (p : Pass) :
    (reconcileFormat inp p).Obeys (fun _ => True) fun r =>
      FormatResult inp p.status r.2.status := by
  refine Prog.obeys_ite (fun _ => .reports _ _ _ (by decide)) fun _ => ?_
  have hobeys : (refuseExternalFormat p.sys).Obeys (SystemCall p.sys.name inp.ns formatScope) _ :=
    obeys_refuseExternalFormat rfl rfl
  refine hobeys.returns.bind fun sys _ => ?_
  split
  · exact obeys_formatPath_result inp _ ⟨sys, p.status⟩
  · exact obeys_queryPath_result inp _ ⟨sys, p.status⟩

end Format

/-! ## Rank operations -/

/-- What a rank operation may touch. -/
def rankOpScope : Scope where
  jobs k := k = .rankOp
  patches p := p = .removeRankOp

/-- How a rank operation moves a pass on. -/
abbrev RankOpAdvances : Pass → Pass → Prop := Advances rankOpScope.patches rankOpMask

section RankOp

variable {name ns : String}

theorem op_mem_rankOps {req op ranks : String} (h : parseRankOp req = .ok (op, ranks)) :
    op ∈ rankOps := by
  unfold parseRankOp at h
  split at h
  · cases h
  · split at h
    · cases h
    · dsimp only at h
      split at h
      · cases h
      · next hop =>
          split at h
          · cases h
          · cases h
            simpa using hop

theorem obeys_recordRankOp (hname : p.sys.name = name) (now : Time)
    (op ranks : String) (ok : Bool) (msg : String) :
    (recordRankOp p now op ranks ok msg).Obeys (SystemCall name ns rankOpScope) fun r =>
      RankOpAdvances p r.2 := by
  refine (obeys_event _ _ _ _).bind fun _ _ => ?_
  refine Prog.Obeys.bind (P := Patched rankOpScope.patches p.sys) ?_ fun sys hsys => ⟨hsys, rfl⟩
  exact Prog.obeys_ite (fun _ => Patched.refl _) fun _ => obeys_patch hname rfl

theorem obeys_finishRankOp (hname : p.sys.name = name) (now : Time)
    (op ranks : String) (res : Dmg.Result) :
    (finishRankOp p now op ranks res).Obeys (SystemCall name ns rankOpScope) fun r =>
      RankOpAdvances p r.2 := by
  unfold finishRankOp
  extract_lets since
  split
  · refine (obeys_event _ _ _ _).bind fun _ _ => ?_
    exact ⟨.refl _, rfl⟩
  · refine Prog.Obeys.bind (P := fun _ => True) ?_ fun _ _ => obeys_recordRankOp hname ..
    exact Prog.obeys_ite (fun _ => Prog.obeys_ask (.clearHold _)) fun _ => trivial

theorem obeys_runRankOp (hname : p.sys.name = name) (now : Time) {op : String}
    (hop : op ∈ rankOps) (ranks : String) :
    (runRankOp ns p now op ranks).Obeys (SystemCall name ns rankOpScope) fun r =>
      RankOpAdvances p r.2 := by
  refine (obeys_runDmg .rankOp hname rfl ⟨op, ranks, hop, rfl⟩).mapError.bind fun res _ => ?_
  refine Prog.obeys_ite (fun _ => ?_) fun _ => obeys_finishRankOp hname ..
  extract_lets running idle
  simp only [Prog.obeys_ret]
  split
  · exact ⟨.refl _, rfl⟩
  · exact Advances.refl p

theorem obeys_unlessRefused (hname : p.sys.name = name) (now : Time)
    (op ranks : String) (why : Option String) {next : Op (Duration × Pass)}
    (hnext : next.Obeys (SystemCall name ns rankOpScope) fun r => RankOpAdvances p r.2) :
    (unlessRefused p now op ranks why next).Obeys (SystemCall name ns rankOpScope) fun r =>
      RankOpAdvances p r.2 := by
  unfold unlessRefused
  split
  · trivial
  · exact Prog.obeys_ite (fun _ => obeys_recordRankOp hname ..) fun _ => hnext

/-- The calls of a rank operation, and what it changes. -/
theorem obeys_reconcileRankOp (hname : p.sys.name = name) :
    (reconcileRankOp ns p).Obeys (SystemCall name ns rankOpScope) fun r =>
      RankOpAdvances p r.2 := by
  unfold reconcileRankOp
  split
  · exact Advances.refl p
  · refine Prog.obeys_ask_bind (.quiet rfl) fun now => ?_
    split
    · exact obeys_recordRankOp hname ..
    · next op ranks hparse =>
        have hop := op_mem_rankOps hparse
        refine Prog.obeys_ite (fun _ => obeys_recordRankOp hname ..) fun _ => ?_
        refine obeys_unlessRefused hname now op ranks _ ?_
        refine Prog.obeys_ite (fun _ => ?_) fun _ => obeys_runRankOp hname now hop ranks
        refine (Prog.obeys_ask (.quiet rfl)).mapError.bind fun pools _ => ?_
        exact obeys_unlessRefused hname now op ranks _ (obeys_runRankOp hname now hop ranks)

end RankOp

/-! ## Engines -/

/-- What the engine restart may touch. -/
def enginesScope : Scope where
  jobs k := k = .engineStart
  pods := true
  engines := true

/-- How the engine restart moves a pass on. -/
abbrev EnginesAdvances : Pass → Pass → Prop := Advances enginesScope.patches conditionMask

section Engines

variable {name ns : String} {S : Scope}

theorem obeys_deleteStuckPod (hpods : S.pods = true) (sys : DaosSystem) (node ranks : String)
    (u : Unit) (pod : ServerPod) :
    (deleteStuckPod sys node ranks u pod).Obeys (SystemCall name ns S) fun _ => True := by
  refine Prog.obeys_ite (fun _ => trivial) fun _ => ?_
  exact Prog.obeys_ask_bind (.deletePod pod.key hpods) fun _ => obeys_event _ _ _ _

theorem obeys_restartNode (hpods : S.pods = true) (hengines : S.engines = true)
    (hname : sys.name = name) (st : DaosSystemStatus) (want : RankSet) (pods : List ServerPod)
    (u : Unit) (node : String) :
    (restartNode sys st want pods u node).Obeys (SystemCall name ns S) fun _ => True := by
  subst hname
  refine Prog.obeys_ite (fun _ => obeys_event _ _ _ _) fun _ => ?_
  refine Prog.Obeys.bind (P := fun _ => True) ?_ fun _ _ => ?_
  · exact Prog.obeys_foldList (fun u pod _ _ => obeys_deleteStuckPod hpods sys node _ u pod) trivial
  · refine Prog.obeys_ask_bind (.quiet rfl) fun now => ?_
    refine Prog.obeys_ask_bind (.quiet rfl) fun m => ?_
    exact Prog.obeys_ask (.setEngineMemory _ hengines)

theorem obeys_restartStuckServers (hpods : S.pods = true) (hengines : S.engines = true)
    (hname : sys.name = name) (st : DaosSystemStatus) (ranks : String) :
    (restartStuckServers ns sys st ranks).Obeys (SystemCall name ns S) fun _ => True := by
  unfold restartStuckServers
  split
  · trivial
  · refine Prog.Obeys.bind (P := fun _ => True) ?_ fun pods _ => ?_
    · exact Prog.obeys_ask_bind (.quiet rfl) fun _ => trivial
    · refine Prog.obeys_foldList (fun u node _ _ => ?_) trivial
      exact obeys_restartNode hpods hengines hname st _ pods u node

theorem obeys_finishStart (hpods : S.pods = true) (hengines : S.engines = true)
    (hname : p.sys.name = name) (running : String) (res : Dmg.Result) :
    (finishStart ns p running res).Obeys (SystemCall name ns S) fun r => r.2 = p := by
  refine Prog.obeys_ask_bind (.quiet rfl) fun m => ?_
  refine Prog.obeys_ask_bind (by rw [hname]; exact .setEngineMemory _ hengines) fun _ => ?_
  refine Prog.obeys_ask_bind (.clearHold _) fun _ => ?_
  refine (obeys_event _ _ _ _).bind fun _ _ => ?_
  refine Prog.Obeys.bind (P := fun _ => True) ?_ fun _ _ => rfl
  refine Prog.obeys_ite (fun _ => ?_) fun _ => trivial
  exact obeys_restartStuckServers hpods hengines hname _ _

theorem conditionMask_noteEngineRestarts (st : DaosSystemStatus) (cands : List RankStatus)
    (tracks : Table Int EngineTrack) :
    conditionMask (noteEngineRestarts st cands tracks) = conditionMask st := by
  unfold noteEngineRestarts
  extract_lets tries notes
  split
  · split <;> rfl
  · rfl

theorem obeys_runStart (hname : p.sys.name = name) (running : String) :
    (runStart ns p running).Obeys (SystemCall name ns enginesScope) fun r => r.2 = p := by
  unfold runStart
  refine (obeys_runDmg .engineStart hname rfl ⟨running, rfl⟩).mapError.bind fun res _ => ?_
  exact Prog.obeys_ite (fun _ => rfl) fun _ => obeys_finishStart rfl rfl hname running res

/-- The calls of the engine restart, and what it notes. -/
theorem obeys_reconcileEngineRestart_notes (hname : p.sys.name = name) :
    (reconcileEngineRestart ns p).Obeys (SystemCall name ns enginesScope) fun r =>
      r.2.sys = p.sys ∧ ∃ cands tracks, r.2.status = noteEngineRestarts p.status cands tracks := by
  unfold reconcileEngineRestart
  refine Prog.obeys_ask_bind (.quiet rfl) fun now => ?_
  refine Prog.obeys_ask_bind (.quiet rfl) fun m => ?_
  refine Prog.obeys_ask_bind (by rw [hname]; exact .setEngineMemory _ rfl) fun _ => ?_
  refine Prog.Obeys.bind (P := fun _ => True) ?_ fun _ _ => ?_
  · exact Prog.obeys_foldList (fun u rank _ _ => obeys_event _ _ _ _) trivial
  extract_lets q running
  refine Prog.obeys_ite (fun _ => ⟨rfl, _, _, rfl⟩) fun _ => ?_
  refine Prog.Obeys.bind (P := fun _ => True) ?_ fun _ _ => ?_
  · exact Prog.obeys_ite (fun _ => trivial) fun _ => obeys_event _ _ _ _
  have hq : q.sys.name = name := hname
  refine (obeys_runStart hq running).mono (fun _ h => h) fun r hr => ?_
  rw [hr]
  exact ⟨rfl, _, _, rfl⟩

theorem obeys_reconcileEngineRestart (hname : p.sys.name = name) :
    (reconcileEngineRestart ns p).Obeys (SystemCall name ns enginesScope) fun r =>
      EnginesAdvances p r.2 := by
  refine (obeys_reconcileEngineRestart_notes hname).mono (fun _ h => h) ?_
  rintro r ⟨hsys, cands, tracks, hstatus⟩
  constructor
  · rw [hsys]
    exact .refl _
  · rw [hstatus]
    exact conditionMask_noteEngineRestarts ..

theorem conditionMask_setEnginesCondition (sys : DaosSystem) (st : DaosSystemStatus)
    (serversAllReady : Bool) :
    conditionMask (setEnginesCondition sys st serversAllReady) = conditionMask st := by
  simp only [setEnginesCondition, apply_ite conditionMask, conditionMask_setCond, ite_self]

end Engines

/-! ## Rendering -/

/-- The management-service addresses of a config file. -/
def replicasOf : Render.ConfigFile → Option (List String)
  | .server config => some config.msReplicas
  | .agent _ accessPoints _ _ _ => some accessPoints
  | .control _ _ _ _ => none

/-- What rendering may touch, for a system with the given management service. -/
def renderScope (sys : DaosSystem) (addrs : List String) : Scope where
  files f := ∀ l, replicasOf f = some l → l = addrs
  statefulSets := true
  removals := !serverEnabled sys

section Render

variable {name ns : String} {sys : DaosSystem} {addrs : List String}

theorem msReplicas_server {c c' : Render.ServerConfig} (h : Render.server c = .ok c') :
    c'.msReplicas = c.msReplicas := by
  unfold Render.server at h
  split at h
  · cases h
  · cases hengines : c.engines.mapM Render.checkEngine with
    | error e => simp [hengines, Except.map] at h
    | ok engines =>
        simp only [hengines, Except.map, Except.ok.injEq] at h
        rw [← h]

/-- The status entry of a node names it, and its configuration names the replicas. -/
theorem renderNode_spec (sys : DaosSystem) (addrs : List String)
    (conflicted : List (String × String)) (f : Discovery.NodeFacts) :
    (renderNode sys addrs conflicted f).1.node = f.name ∧
      (renderNode sys addrs conflicted f).1.controlAddr = f.controlAddr ∧
      ∀ cfg, (renderNode sys addrs conflicted f).2 = some cfg → cfg.msReplicas = addrs := by
  unfold renderNode
  extract_lets ncs
  split
  · exact ⟨rfl, rfl, by simp⟩
  · split
    · exact ⟨rfl, rfl, by simp⟩
    · split
      · exact ⟨rfl, rfl, by simp⟩
      · next cfg hcfg =>
          refine ⟨rfl, rfl, ?_⟩
          rintro cfg' ⟨⟩
          exact msReplicas_server hcfg

/-- A status entry is ready exactly when the node has a configuration. -/
theorem renderNode_ready (sys : DaosSystem) (addrs : List String)
    (conflicted : List (String × String)) (f : Discovery.NodeFacts) :
    (renderNode sys addrs conflicted f).1.ready = (renderNode sys addrs conflicted f).2.isSome := by
  unfold renderNode
  extract_lets ncs
  split
  · rfl
  · split
    · rfl
    · split <;> rfl

/-- A server's workload is entered into the status entry only once it runs. -/
theorem renderNode_idle (sys : DaosSystem) (addrs : List String)
    (conflicted : List (String × String)) (f : Discovery.NodeFacts) :
    (renderNode sys addrs conflicted f).1.workload = "" := by
  unfold renderNode
  extract_lets ncs
  split
  · rfl
  · split
    · rfl
    · split <;> rfl

theorem serverWorkloadName_ne (sys : DaosSystem) (node : String) :
    serverWorkloadName sys node ≠ "" := by
  intro h
  have hlength := congrArg String.length h
  simp [serverWorkloadName] at hlength

theorem obeys_ensureServer (node : String) :
    (ensureServer sys ns node).Obeys (SystemCall name ns (renderScope sys addrs))
      fun _ => True := by
  unfold ensureServer
  refine Prog.obeys_ite (fun _ => Prog.obeys_ask (.ensureStatefulSet _ _ rfl)) fun h => ?_
  exact Prog.obeys_ask (.deleteStatefulSet _ (by simp [renderScope, h]))

theorem obeys_serverReady (S : Scope) (node : String) :
    (serverReady sys ns node).Obeys (SystemCall name ns S) fun _ => True := by
  refine (Prog.obeys_ask (.quiet rfl)).attempt.bind fun r _ => ?_
  split
  · refine Prog.obeys_ite (fun _ => trivial) fun _ => ?_
    refine (Prog.obeys_ask (.quiet rfl)).attempt.bind fun r _ => ?_
    split
    · split <;> trivial
    · trivial
  · trivial

theorem obeys_prepareHosts (S : Scope) (nodes : List Node) :
    (prepareHosts sys ns nodes).Obeys (SystemCall name ns S) fun _ => True := by
  refine Prog.obeys_ite (fun _ => trivial) fun _ => ?_
  refine Prog.obeys_ask_bind (.quiet rfl) fun _ => ?_
  exact Prog.obeys_ite (fun _ => trivial) fun _ => Prog.obeys_ask (.quiet rfl)

/-- `ensureCerts` changes the condition and the entry on certificates. -/
theorem obeys_ensureCerts (S : Scope) (hname : p.sys.name = name) :
    (ensureCerts ns p).Obeys (SystemCall name ns S) fun r =>
      r.2.sys = p.sys ∧ (∃ certs, conditionMask r.2.status =
        conditionMask { p.status with certificates := certs }) ∧
      findCond r.2.status .formatted = findCond p.status .formatted := by
  subst hname
  unfold ensureCerts
  refine Prog.obeys_ite (fun _ => ?_) fun _ => ?_
  · exact ⟨rfl, ⟨p.status.certificates, rfl⟩, findCond_setCond_of_ne _ (by decide) ..⟩
  extract_lets secret key
  refine Prog.obeys_ask_bind (.quiet rfl) fun cur => ?_
  cases cur with
  | none =>
      refine (Prog.obeys_ask .generateCerts).mapError.bind fun bundle _ => ?_
      refine (Prog.obeys_ask (.createSecret bundle)).mapError.bind fun _ _ => ?_
      refine (obeys_event _ _ _ _).bind fun _ _ => ?_
      exact ⟨rfl, ⟨p.status.certificates, rfl⟩, findCond_setCond_of_ne _ (by decide) ..⟩
  | some bundle =>
      refine Prog.obeys_ask_bind (.quiet rfl) fun now => ?_
      split
      · exact ⟨rfl, ⟨p.status.certificates, rfl⟩, findCond_setCond_of_ne _ (by decide) ..⟩
      · exact ⟨rfl, ⟨_, rfl⟩, findCond_setCond_of_ne _ (by decide) ..⟩

theorem conditionMask_setDriveConflict (conflicts : List (String × List String))
    (st : DaosSystemStatus) :
    conditionMask (setDriveConflict conflicts st) = conditionMask st := by
  simp only [setDriveConflict, apply_ite conditionMask, conditionMask_setCond, ite_self]

theorem conditionMask_setConfigRendered (r : Rendering) (nodes : Nat) (st : DaosSystemStatus) :
    conditionMask (setConfigRendered r nodes st) = conditionMask st := by
  simp only [setConfigRendered, apply_ite conditionMask, conditionMask_setCond, ite_self]

theorem conditionMask_setServersReady (sys : DaosSystem) (r : Rendering) (st : DaosSystemStatus) :
    conditionMask (setServersReady sys r st).2 = conditionMask st := by
  simp only [setServersReady, apply_ite Prod.snd, apply_ite conditionMask, conditionMask_setCond,
    ite_self]

theorem conditionMask_setReady (sys : DaosSystem) (serversAllReady : Bool)
    (st : DaosSystemStatus) :
    conditionMask (setReady sys serversAllReady st) = conditionMask st := by
  simp only [setReady, apply_ite conditionMask, conditionMask_setCond, ite_self]

theorem conditionMask_setExternalReady (st : DaosSystemStatus) :
    conditionMask (setExternalReady st) = conditionMask st := by
  simp only [setExternalReady, apply_ite conditionMask, conditionMask_setCond, ite_self]

end Render

end System
end DaosOperator
