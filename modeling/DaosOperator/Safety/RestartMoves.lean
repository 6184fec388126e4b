import DaosOperator.Effect.Failure
import DaosOperator.Surroundings

/-!
# How a reconcile moves a restart

A reconcile carries on the restart it finds under way, or begins one that is approved,
by at most one phase; each move rests on the result of a Job, and whatever ends the
restart consumes both approvals.
-/

namespace DaosOperator.System

open Effect

variable {up : UpgradeStatus} {t : Point Call World} {p : Pass}

/-! ## Moves -/

/-- A restart may begin: none is under way, and one is approved. -/
def begins (sys : DaosSystem) (w : World) : Bool :=
  !upgradeInProgress sys.status && (certsRenewApproved sys || sys.spec.upgrade.approved &&
    !(staleImages sys.spec.images.server (w.serverPodsOf (namespaceOf sys) sys.name)).isEmpty)

/-- The command answered without an error; a query lists at least one rank, all joined. -/
def answersWell (kind : JobKind) (res : Dmg.Result) : Bool :=
  match parseResult res with
  | .error _ => false
  | .ok env => env.error.isNone &&
      (kind ≠ .verify || match Dmg.systemQuery env with
        | .error _ => false
        | .ok members => !members.isEmpty && members.all fun m => m.state = memberJoined)

def answered (sys : DaosSystem) (w : World) (kind : JobKind) : Bool :=
  (finishedResult sys w kind).any (answersWell kind)

/-- Both approvals of a restart. -/
def approvals (sys : DaosSystem) : Bool × Option String :=
  (sys.spec.upgrade.approved, sys.annotations.certsRenewApproved)

/-- The stored object has the approvals of the copy. -/
def Synced (sys : DaosSystem) (w : World) : Prop :=
  (stored w.systems sys.name).map approvals = some (approvals sys)

/-- Both approvals are gone. -/
def Gone (name : String) (w : World) : Prop :=
  ∀ sys ∈ stored w.systems name, approvals sys = (false, none)

/-- The restart to carry on: the one under way, or one that begins now. -/
inductive UnderWay (sys : DaosSystem) (w : World) (up : UpgradeStatus) : Prop where
  | goesOn (h : sys.status.upgrade = some up) (hin : upgradeInProgress sys.status = true)
  | begun (h : begins sys w = true) (hphase : up.phase = .stopping)
      (hstarted : up.startedAt = some w.clock)

/-- The reconcile read the result of the Job of the kind. -/
def Collects (sys : DaosSystem) (log : Log) (kind : JobKind) : Prop :=
  ∃ x ∈ log, readsOff (jobKey sys.name (namespaceOf sys) kind) x = true

/-- The Job of the kind answered, and the reconcile read its result. -/
def Read (sys : DaosSystem) (w : World) (log : Log) (kind : JobKind) : Prop :=
  answered sys w kind = true ∧ Collects sys log kind

/-- One pass over a phase, as far as the execution has come. -/
inductive PhaseStep (sys : DaosSystem) (w : World) (t : Point Call World) :
    UpgradePhase → UpgradePhase → Prop where
  | stays (ph : UpgradePhase) : PhaseStep sys w t ph ph
  | fails (ph : UpgradePhase) (h : Gone sys.name t.world) : PhaseStep sys w t ph .failed
  | stopped (h : Read sys w t.log .stop) : PhaseStep sys w t .stopping .updating
  | replaced : PhaseStep sys w t .updating .starting
  | ready : PhaseStep sys w t .starting .startingSystem
  | started (h : Read sys w t.log .start) : PhaseStep sys w t .startingSystem .verifying
  | completed (h : Read sys w t.log .verify) (h' : Gone sys.name t.world) :
      PhaseStep sys w t .verifying .completed

/-- What a reconcile of `sys` from `w` can have made of `status.upgrade`. -/
inductive Moves (sys : DaosSystem) (w : World) (t : Point Call World) :
    Option UpgradeStatus → Prop where
  | kept : Moves sys w t sys.status.upgrade
  /-- There is nothing to restart any more. -/
  | dropped (hin : upgradeInProgress sys.status = false) : Moves sys w t none
  /-- The restart waits for its approval. -/
  | waits (hin : upgradeInProgress sys.status = false) (up : UpgradeStatus)
      (h : up.phase = .pending) : Moves sys w t (some up)
  /-- A restart that begins gets beyond its first phase only on a Job it finds. -/
  | moved (up up' : UpgradeStatus) (h : UnderWay sys w up) (hstarted : up'.startedAt = up.startedAt)
      (hstep : PhaseStep sys w t up.phase up'.phase)
      (hfirst : upgradeInProgress sys.status = false →
        up'.phase = .stopping ∨ Collects sys t.log .stop) : Moves sys w t (some up')

variable {sys : DaosSystem} {w₀ : World}

theorem UnderWay.inProgress (h : UnderWay sys w₀ up)
    (hphase : up.phase ≠ .stopping) : upgradeInProgress sys.status = true := by
  cases h with
  | goesOn _ hin => exact hin
  | begun _ hstopping => exact absurd hstopping hphase

theorem Collects.append {log new : Log} {kind : JobKind} (h : Collects sys log kind) :
    Collects sys (log ++ new) kind := by
  obtain ⟨x, hx, hreads⟩ := h
  exact ⟨x, List.mem_append_left _ hx, hreads⟩

theorem PhaseStep.mono {u : Point Call World} {ph ph' : UpgradePhase}
    (h : PhaseStep sys w₀ t ph ph') (hread : ∀ k, Collects sys t.log k → Collects sys u.log k)
    (hgone : Gone sys.name t.world → Gone sys.name u.world) : PhaseStep sys w₀ u ph ph' := by
  cases h with
  | stays => exact .stays _
  | fails _ h => exact .fails _ (hgone h)
  | stopped h => exact .stopped ⟨h.1, hread _ h.2⟩
  | replaced => exact .replaced
  | ready => exact .ready
  | started h => exact .started ⟨h.1, hread _ h.2⟩
  | completed h h' => exact .completed ⟨h.1, hread _ h.2⟩ (hgone h')

theorem Moves.mono {u : Point Call World} {after : Option UpgradeStatus}
    (h : Moves sys w₀ t after) (hread : ∀ k, Collects sys t.log k → Collects sys u.log k)
    (hgone : Gone sys.name t.world → Gone sys.name u.world) : Moves sys w₀ u after := by
  cases h with
  | kept => exact .kept
  | dropped hin => exact .dropped hin
  | waits hin up h => exact .waits hin up h
  | moved up up' h hstarted hstep hfirst =>
      exact .moved up up' h hstarted (hstep.mono hread hgone) fun hin =>
        (hfirst hin).imp_right (hread _)

/-! ## Approvals -/

theorem approvals_apply {s s' : DaosSystem} (h : approvals s = approvals s') (p : SystemPatch) :
    approvals (p.apply s) = approvals (p.apply s') := by
  obtain ⟨happroved, hcerts⟩ := Prod.mk.inj h
  cases p with
  | removeFormatApproved | removeRankOp => exact h
  | removeCertsRenewApproved => exact Prod.ext happroved rfl
  | resetUpgradeApproved => exact Prod.ext rfl hcerts

/-- Nothing a reconcile does brings an approval back. -/
theorem Gone.respond {name ns : String} {S : Scope} {c : Call} {w : World} (h : Gone name w)
    (hc : SystemCall name ns S c) (f : Fault) : Gone name (cluster.respond c f w).2 := by
  intro s hs
  rcases hc.stored_cases (f := f) (w := w) with hsame | ⟨p, -, -, hstored⟩ | ⟨st, -, -, hstored⟩
  · exact h s (hsame ▸ hs)
  · rw [hstored] at hs
    obtain ⟨old, hold, rfl⟩ := Option.map_eq_some_iff.mp hs
    have hnone := h old hold
    have hempty : approvals (p.apply old) = approvals (p.apply { old with
        spec := { old.spec with upgrade := { old.spec.upgrade with approved := false } }
        annotations := { old.annotations with certsRenewApproved := none } }) :=
      approvals_apply hnone p
    rw [hempty]
    cases p <;> rfl
  · rw [hstored] at hs
    obtain ⟨old, hold, rfl⟩ := Option.map_eq_some_iff.mp hs
    exact h old hold

section Passes

variable {rely : Entry Call World → Prop} {s : Point Call World} {ns : String}

theorem Synced.respond {S : Scope} {c : Call} {w : World} (h : Synced sys w)
    (hc : SystemCall sys.name ns S c) (hS : ∀ p, S.patches p = false) (f : Fault) :
    Synced sys (cluster.respond c f w).2 := by
  refine (hc.stored_proj (g := approvals) ?_ fun _ _ _ => rfl).trans h
  intro s p hp
  rw [hS p] at hp
  cases hp

theorem Synced.wp_patch (h : Synced sys s.world) (p : SystemPatch) :
    (patch sys p).wp cluster rely s
      (fun sys' t => sys' = p.apply sys ∧ Synced sys' t.world) fun _ => True := by
  refine Prog.wp_bind (A := fun _ t => Synced (p.apply sys) t.world) ?_ fun _ _ ht => ⟨rfl, ht⟩
  refine Prog.wp_ask (fun _ => ?_) fun _ _ _ _ => trivial
  obtain ⟨old, hold, happrovals⟩ := Option.map_eq_some_iff.mp h
  have hname : (p.apply sys).name = sys.name := by cases p <;> rfl
  simp only [Synced, hname, Handler.next_world, Handler.respond_world, Fault.effective, if_true,
    cluster, perform, stored_modify_self, hold]
  exact congrArg some (approvals_apply happrovals p)

/-- Whatever ends a restart consumes both approvals. -/
theorem Synced.wp_consumeApprovals (h : Synced sys s.world) :
    (consumeApprovals sys).wp cluster rely s (fun _ t => Gone sys.name t.world) fun _ => True := by
  have hgone : ∀ (sys' : DaosSystem) {t : Point Call World}, sys'.name = sys.name →
      Synced sys' t.world → approvals sys' = (false, none) → Gone sys.name t.world := by
    intro sys' t hname hsynced hnone s hs
    rw [Synced, hname, show stored t.world.systems sys.name = some s from hs] at hsynced
    exact (Option.some.inj hsynced).trans hnone
  refine Prog.wp_bind (A := fun sys' t => sys'.name = sys.name ∧ Synced sys' t.world ∧
    sys'.spec.upgrade.approved = false) ?_ ?_
  · refine Prog.wp_ite (fun _ => ?_) fun happroved => ⟨rfl, h, by simpa using happroved⟩
    refine Prog.wp_mono (h.wp_patch .resetUpgradeApproved) ?_ fun _ h => h
    rintro _ t ⟨rfl, ht⟩
    exact ⟨rfl, ht, rfl⟩
  · rintro sys' t ⟨hname, ht, happroved⟩
    refine Prog.wp_ite (fun hnone => ?_) fun _ => ?_
    · have hcerts : sys'.annotations.certsRenewApproved = none := by simpa using hnone
      exact hgone sys' hname ht (Prod.ext happroved hcerts)
    · refine Prog.wp_mono (ht.wp_patch .removeCertsRenewApproved) ?_ fun _ h => h
      rintro _ u ⟨rfl, hu⟩
      have hnone : approvals (SystemPatch.apply sys' .removeCertsRenewApproved) = (false, none) :=
        Prod.ext happroved rfl
      exact hgone (SystemPatch.apply sys' .removeCertsRenewApproved) hname hu hnone

/-! ## The restart step by step -/

theorem wp_failUpgrade_moves (hsys : p.sys = sys)
    (hup : UnderWay sys w₀ up) (h : Synced sys s.world)
    (hfirst : upgradeInProgress sys.status = false → Collects sys s.log .stop) (msg : String) :
    (failUpgrade p up msg).wp cluster rely s
      (fun r t => Moves sys w₀ t r.pass.status.upgrade) fun _ => True := by
  subst hsys
  have hquiet : ∀ {c : Call} {t : Point Call World}, c.quiet = true → Synced p.sys t.world →
      (ask c).wp cluster rely t (fun _ u => Synced p.sys u.world) fun _ => True := by
    intro c t hc ht
    refine Prog.wp_ask (fun _ => ?_) fun _ _ _ _ => trivial
    rw [Handler.next_world, respond_quiet hc]
    exact ht
  -- the restart fails, whatever happens to the log
  have hfails : (failUpgrade p up msg).wp cluster rely s (fun r t => Gone p.sys.name t.world ∧
      ∃ up', r.pass.status.upgrade = some up' ∧ up'.phase = .failed ∧
        up'.startedAt = up.startedAt) fun _ => True := by
    refine Prog.wp_bind (hquiet rfl h) fun now t ht => ?_
    refine Prog.wp_bind (hquiet rfl ht) fun _ t ht => ?_
    refine Prog.wp_bind ht.wp_consumeApprovals fun sys' t ht => ?_
    exact ⟨ht, _, rfl, rfl, rfl⟩
  refine Prog.wp_mono (Prog.wp_and hfails (Prog.wp_log _)) ?_ fun _ _ => trivial
  rintro r t ⟨⟨hgone, up', hup', hfailed, hstarted⟩, new, hnew⟩
  rw [hup']
  refine .moved up up' hup hstarted (hfailed ▸ .fails _ hgone) fun hin => Or.inr ?_
  rw [hnew]
  exact (hfirst hin).append

theorem wp_runDmg_read (h : Synced sys s.world) {kind : JobKind}
    (hjob : s.world.jobs.get (jobKey sys.name (namespaceOf sys) kind) =
      w₀.jobs.get (jobKey sys.name (namespaceOf sys) kind)) (args : List String)
    (hruns : kind.Runs args) :
    (runDmg sys (namespaceOf sys) kind args).wp cluster rely s
      (fun res t => Synced sys t.world ∧ (res.done = false ∨
        finishedResult sys w₀ kind = some res ∧ Collects sys t.log kind))
      fun _ => True := by
  have hobeys : (runDmg sys (namespaceOf sys) kind args).Obeys
      (SystemCall sys.name (namespaceOf sys) { jobs := fun k => k = kind }) fun _ => True :=
    obeys_runDmg kind rfl (by simp) hruns
  have hframe : (runDmg sys (namespaceOf sys) kind args).wp cluster rely s
      (fun _ t => True ∧ Synced sys t.world) fun t => Synced sys t.world :=
    hobeys.wp (I := fun t => Synced sys t.world)
      (fun c f t hc _ _ ht => ht.respond hc (fun _ => rfl) f) h
  refine Prog.wp_mono (Prog.wp_and hframe (Dmg.wp_run (I := fun _ => True)
    (A := fun res t => res.done = false ∨ finishedResult sys w₀ kind = some res ∧
      Collects sys t.log kind)
    (fun _ _ _ _ _ _ => trivial) trivial (fun _ _ => trivial) ?_ ?_ ?_))
    (fun _ _ h => ⟨h.1.2, h.2⟩) fun _ _ => trivial
  · intro t _ _ _
    exact Prog.wp_ask (fun _ => Or.inl rfl) fun _ _ _ _ => trivial
  · intro t job _ _ _
    exact Or.inl rfl
  · intro t job failure _ _ hget hlive hfinished
    have hget' : w₀.jobs.get (jobKey sys.name (namespaceOf sys) kind) = some job :=
      hjob.symm.trans hget
    refine Prog.wp_ask (fun _ => Or.inr ⟨?_, ?_⟩) fun _ _ _ _ => trivial
    · simp [finishedResult, hget', hlive, hfinished]
    · exact ⟨_, List.mem_append_right _ (List.mem_singleton_self _), by simp [readsOff, jobSpec]⟩

theorem Moves.stay (h : UnderWay sys w₀ up)
    {up' : UpgradeStatus} (hphase : up'.phase = up.phase)
    (hstarted : up'.startedAt = up.startedAt) : Moves sys w₀ t (some up') := by
  refine .moved up up' h hstarted (hphase ▸ .stays _) fun hin => Or.inl ?_
  by_contra hlater
  rw [h.inProgress (hphase ▸ hlater)] at hin
  cases hin

theorem Moves.later {up' : UpgradeStatus} (h : UnderWay sys w₀ up)
    (hphase : up.phase ≠ .stopping) (hstarted : up'.startedAt = up.startedAt)
    (hstep : PhaseStep sys w₀ t up.phase up'.phase) : Moves sys w₀ t (some up') := by
  refine .moved up up' h hstarted hstep fun hin => ?_
  rw [h.inProgress hphase] at hin
  cases hin

theorem wp_commandPhase_moves (hsys : p.sys = sys)
    (hpup : p.status.upgrade = some up) (hup : UnderWay sys w₀ up) (h : Synced sys s.world)
    {kind : JobKind} (hjob : s.world.jobs.get (jobKey sys.name (namespaceOf sys) kind) =
      w₀.jobs.get (jobKey sys.name (namespaceOf sys) kind)) {verb : String}
    (hruns : kind.Runs ["system", verb]) (hkind : kind ≠ .verify)
    (hfirst : upgradeInProgress sys.status = false → kind = .stop) {next : UpgradePhase}
    (hnext : ∀ t : Point Call World, Read sys w₀ t.log kind → PhaseStep sys w₀ t up.phase next)
    (msg : String) :
    (commandPhase (namespaceOf sys) kind verb next msg up p).wp cluster rely s
      (fun r t => Moves sys w₀ t r.pass.status.upgrade) fun _ => True := by
  unfold commandPhase
  rw [hsys]
  refine Prog.wp_bind (wp_runDmg_read h hjob _ hruns) ?_
  rintro res t ⟨ht, hres⟩
  refine Prog.wp_ite (fun _ => ?_) fun hdone => ?_
  · change Moves _ _ _ p.status.upgrade
    rw [hpup]
    exact .stay hup rfl rfl
  · obtain ⟨hfinished, hread⟩ := hres.resolve_left (by simpa using hdone)
    have hstop : upgradeInProgress sys.status = false → Collects sys t.log .stop := fun hin =>
      hfirst hin ▸ hread
    split
    · exact wp_failUpgrade_moves hsys hup ht hstop _
    · next env hparse =>
        split
        · exact wp_failUpgrade_moves hsys hup ht hstop _
        · next herror =>
            refine .moved up _ hup rfl (hnext t ⟨?_, hread⟩) fun hin => Or.inr (hstop hin)
            simp [answered, hfinished, answersWell, hparse, herror, hkind]

theorem wp_replacePods_moves (hup : UnderWay sys w₀ up)
    (hphase : up.phase = .updating) (rendered : Nat) (pods : List ServerPod) :
    (replacePods rendered pods up p).wp cluster rely s
      (fun r t => Moves sys w₀ t r.pass.status.upgrade) fun _ => True := by
  refine Prog.wp_bind (A := fun _ _ => True) ?_ fun deleted t _ => ?_
  · refine Prog.wp_foldList (J := fun _ _ _ => True) (fun _ pod _ n t _ _ => ?_) trivial
    refine Prog.wp_ite (fun _ => trivial) fun _ => Prog.wp_ite (fun _ => ?_) fun _ => trivial
    exact Prog.wp_bind (A := fun _ _ => True) (Prog.wp_ask (fun _ => trivial)
      fun _ _ _ _ => trivial) fun _ _ _ => trivial
  · refine Prog.wp_bind (A := fun _ _ => True) (Prog.wp_ask (fun _ => trivial)
      fun _ _ _ _ => trivial) fun _ t _ => ?_
    refine .later hup (by simp [hphase]) rfl ?_
    rw [hphase]
    exact .replaced

theorem wp_updatingPhase_moves (hsys : p.sys = sys)
    (hup : UnderWay sys w₀ up) (hphase : up.phase = .updating) (h : Synced sys s.world)
    (rendered : Nat) (pods : List ServerPod) :
    (updatingPhase (namespaceOf sys) rendered pods up p).wp cluster rely s
      (fun r t => Moves sys w₀ t r.pass.status.upgrade) fun _ => True := by
  refine Prog.wp_ite (fun _ => ?_) fun _ => wp_replacePods_moves hup hphase rendered pods
  have hobeys : (rotateCerts (namespaceOf sys) p).Obeys
      (SystemCall sys.name (namespaceOf sys) { secrets := true }) (Restarts p) :=
    obeys_rotateCerts rfl p
  have hframe : (rotateCerts (namespaceOf sys) p).wp cluster rely s
      (fun q t => Restarts p q ∧ Synced sys t.world) fun t => Synced sys t.world :=
    hobeys.wp (I := fun t => Synced sys t.world)
      (fun c f t hc _ _ ht => ht.respond hc (fun _ => rfl) f) h
  refine Prog.wp_bind (A := fun _ t => Synced sys t.world) (Prog.wp_attempt (Prog.wp_mono hframe
    (fun _ _ h => h.2) fun _ h _ => h)) ?_
  rintro (e | q) t ht
  · refine wp_failUpgrade_moves hsys hup ht (fun hin => ?_) _
    rw [hup.inProgress (by simp [hphase])] at hin
    cases hin
  · exact wp_replacePods_moves hup hphase rendered pods

theorem wp_completeUpgrade_moves (hsys : p.sys = sys)
    (hup : UnderWay sys w₀ up) (hphase : up.phase = .verifying) (h : Synced sys s.world)
    (hread : Read sys w₀ s.log .verify) (members : Nat) :
    (completeUpgrade members up p).wp cluster rely s
      (fun r t => Moves sys w₀ t r.pass.status.upgrade) fun _ => True := by
  subst hsys
  -- the calls in between touch neither the approvals nor what was read
  have hcall : ∀ {c : Call} {t : Point Call World}, SystemCall p.sys.name "" {} c →
      Synced p.sys t.world ∧ Read p.sys w₀ t.log .verify → (ask c).wp cluster rely t
        (fun _ u => Synced p.sys u.world ∧ Read p.sys w₀ u.log .verify) fun _ => True := by
    intro c t hc ht
    exact Prog.wp_ask (fun _ => ⟨ht.1.respond hc (fun _ => rfl) .none, ht.2.1, ht.2.2.append⟩)
      fun _ _ _ _ => trivial
  unfold completeUpgrade
  refine Prog.wp_bind (hcall (.quiet rfl) ⟨h, hread⟩) fun now t ht => ?_
  extract_lets rotated msg p₁ st p₂ p₃
  have hp₃ : p₃.sys = p.sys := by
    simp only [p₃, p₂]
    split <;> rfl
  have hupgrade : ∃ up', p₃.status.upgrade = some up' ∧ up'.phase = .completed ∧
      up'.startedAt = up.startedAt := by
    refine ⟨{ up with phase := .completed, finishedAt := some now, message := msg }, ?_, rfl, rfl⟩
    simp only [p₃, p₂]
    split <;> rfl
  refine Prog.wp_bind (hcall (.quiet rfl) ht) fun _ t ht => ?_
  refine Prog.wp_bind (hcall (.clearHold _) ht) fun _ t ht => ?_
  rw [hp₃]
  refine Prog.wp_bind (Prog.wp_mono (Prog.wp_and ht.1.wp_consumeApprovals (Prog.wp_log _))
    (fun _ _ h => h) fun _ _ => trivial) ?_
  rintro sys' u ⟨hgone, new, hnew⟩
  obtain ⟨up', hup', hcompleted, hstarted⟩ := hupgrade
  change Moves _ _ _ p₃.status.upgrade
  rw [hup']
  refine .later hup (by simp [hphase]) hstarted ?_
  rw [hphase, hcompleted]
  refine .completed ⟨ht.2.1, ?_⟩ hgone
  rw [hnew]
  exact ht.2.2.append

theorem wp_verifyingPhase_moves (hsys : p.sys = sys)
    (hpup : p.status.upgrade = some up) (hup : UnderWay sys w₀ up) (hphase : up.phase = .verifying)
    (h : Synced sys s.world)
    (hjob : s.world.jobs.get (jobKey sys.name (namespaceOf sys) .verify) =
      w₀.jobs.get (jobKey sys.name (namespaceOf sys) .verify)) :
    (verifyingPhase (namespaceOf sys) up p).wp cluster rely s
      (fun r t => Moves sys w₀ t r.pass.status.upgrade) fun _ => True := by
  unfold verifyingPhase
  rw [hsys]
  refine Prog.wp_bind (wp_runDmg_read h hjob _ rfl) ?_
  rintro res t ⟨ht, hres⟩
  refine Prog.wp_ite (fun _ => ?_) fun hdone => ?_
  · change Moves _ _ _ p.status.upgrade
    rw [hpup]
    exact .stay hup rfl rfl
  · obtain ⟨hfinished, hread⟩ := hres.resolve_left (by simpa using hdone)
    split
    · exact .stay hup rfl rfl
    · next env hparse =>
        split
        · exact .stay hup rfl rfl
        · next herror =>
            split
            · refine wp_failUpgrade_moves hsys hup ht (fun hin => ?_) _
              rw [hup.inProgress (by simp [hphase])] at hin
              cases hin
            · next members hquery =>
                extract_lets notJoined
                refine Prog.wp_ite (fun _ => .stay hup rfl rfl) fun hall => ?_
                simp only [Bool.or_eq_true, Bool.not_eq_true', not_or, Bool.not_eq_true,
                  Bool.not_eq_false] at hall
                have hjoined : (members.all fun m => m.state = memberJoined) = true := by
                  simpa [notJoined] using hall.2
                refine wp_completeUpgrade_moves hsys hup hphase ht ⟨?_, hread⟩ _
                simp only [answered, hfinished, Option.any_some, answersWell, hparse, herror,
                  hquery, hall.1, hjoined]
                rfl

/-- What holds until a reconcile looks after the restart. -/
structure Untouched (sys : DaosSystem) (w₀ w : World) : Prop where
  clock : w.clock = w₀.clock
  pods : w.serverPods = w₀.serverPods
  jobs : ∀ kind, upgradeScope.jobs kind = true →
    w.jobs.get (jobKey sys.name (namespaceOf sys) kind) =
      w₀.jobs.get (jobKey sys.name (namespaceOf sys) kind)
  synced : Synced sys w

theorem Untouched.respond {S : Scope} {c : Call} {w : World} (h : Untouched sys w₀ w)
    (hc : SystemCall sys.name (namespaceOf sys) S c) (hpods : S.pods = false)
    (hjobs : ∀ k, S.jobs k = false) (hpatches : ∀ p, S.patches p = false) (f : Fault) :
    Untouched sys w₀ (cluster.respond c f w).2 where
  clock := hc.surroundings.2.1.trans h.clock
  pods := (hc.serverPods hpods).trans h.pods
  jobs := by
    intro kind hkind
    refine (hc.jobs_get fun k hk => ?_).trans (h.jobs kind hkind)
    rw [hjobs k] at hk
    cases hk
  synced := h.synced.respond hc hpatches f

theorem Untouched.wp_ask {c : Call} (hc : c.quiet = true) (h : Untouched sys w₀ s.world) :
    (ask c).wp cluster rely s
      (fun a t => a = (perform c s.world).1 ∧ Untouched sys w₀ t.world) fun _ => True := by
  refine Prog.wp_ask (fun _ => ⟨rfl, ?_⟩) fun _ _ _ _ => trivial
  rw [Handler.next_world, respond_quiet hc]
  exact h

theorem wp_continueUpgrade_moves (hsys : p.sys = sys)
    (hpup : p.status.upgrade = some up) (hup : UnderWay sys w₀ up) (h : Untouched sys w₀ s.world)
    (rendered : Nat) (pods : List ServerPod) :
    (continueUpgrade (namespaceOf sys) rendered pods up p).wp cluster rely s
      (fun r t => Moves sys w₀ t r.pass.status.upgrade) fun _ => True := by
  refine Prog.wp_bind (h.wp_ask rfl) ?_
  rintro now t ⟨hnow, ht⟩
  refine Prog.wp_ite (fun htimeout => ?_) fun _ => ?_
  · -- a restart that begins now has not timed out
    refine wp_failUpgrade_moves hsys hup ht.synced (fun hin => ?_) _
    cases hup with
    | goesOn _ hin' =>
        rw [hin'] at hin
        cases hin
    | begun _ _ hstarted =>
        have hclock : now = w₀.clock := hnow.trans h.clock
        simp [hstarted, hclock] at htimeout
  have hstay : Moves sys w₀ t p.status.upgrade := by
    rw [hpup]
    exact .stay hup rfl rfl
  unfold upgradeStep
  split
  · next hphase =>
      refine wp_commandPhase_moves hsys hpup hup ht.synced (ht.jobs .stop rfl) rfl (by decide)
        (fun _ => rfl) ?_ _
      intro u h
      rw [hphase]
      exact .stopped h
  · next hphase => exact wp_updatingPhase_moves hsys hup hphase ht.synced rendered pods
  · next hphase =>
      simp only [Prog.wp, startingPhase]
      split
      · exact .stay hup rfl rfl
      · refine .later hup (by simp [hphase]) rfl ?_
        rw [hphase]
        exact .ready
  · next hphase =>
      refine wp_commandPhase_moves hsys hpup hup ht.synced (ht.jobs .start rfl) rfl (by decide)
        (fun hin => ?_) ?_ _
      · rw [hup.inProgress (by simp [hphase])] at hin
        cases hin
      · intro u h
        rw [hphase]
        exact .started h
  · next hphase => exact wp_verifyingPhase_moves hsys hpup hup hphase ht.synced (ht.jobs _ rfl)
  · exact hstay
  · exact hstay
  · exact hstay

/-! ## Beginning a restart -/

theorem staleImages_isEmpty_sort (want : String) (pods : List ServerPod)
    (r : ServerPod → ServerPod → Prop) [DecidableRel r] :
    (staleImages want (pods.insertionSort r)).isEmpty = (staleImages want pods).isEmpty := by
  have hperm : (staleImages want (pods.insertionSort r)).Perm (staleImages want pods) :=
    ((pods.perm_insertionSort r).map podImage).filter _
  rw [Bool.eq_iff_iff, List.isEmpty_iff, List.isEmpty_iff]
  constructor
  · intro h
    exact (h ▸ hperm).symm.eq_nil
  · intro h
    exact (h ▸ hperm).eq_nil

/-- What an idle restart leaves in `status.upgrade`. -/
theorem obeys_upToDate_idle (p : Pass) (pods : List ServerPod) :
    (upToDate p pods).Obeys (fun _ => True) fun
      | .idle r => r.pass.status.upgrade = none ∨ r.pass.status.upgrade = p.status.upgrade
      | .underWay _ _ => False := by
  have hobeys : (upToDate p pods).Obeys (SystemCall p.sys.name "" (restartScope true)) _ :=
    obeys_upToDate rfl pods
  refine hobeys.mono (fun _ _ => trivial) fun b hb => ?_
  cases b with
  | idle r => exact hb.2
  | underWay up q => exact hb

/-- What deciding about a restart comes to. -/
def DecidesAt (sys : DaosSystem) (w₀ : World) (p : Pass) (t : Point Call World) : Begun → Prop
  | .idle r => Moves sys w₀ t r.pass.status.upgrade
  | .underWay up q => q = p.upgrading up ∧ UnderWay sys w₀ up ∧ Untouched sys w₀ t.world

theorem wp_beginUpgrade_moves (hsys : p.sys = sys)
    (hup : p.status.upgrade = sys.status.upgrade) (hidle : upgradeInProgress sys.status = false)
    (h : Untouched sys w₀ s.world) {pods : List ServerPod}
    (hstale : (staleImages sys.spec.images.server pods).isEmpty = (staleImages
      sys.spec.images.server (w₀.serverPodsOf (namespaceOf sys) sys.name)).isEmpty) :
    (beginUpgrade p pods).wp cluster rely s (fun b t => DecidesAt sys w₀ p t b)
      fun _ => True := by
  unfold beginUpgrade
  extract_lets want stale
  have hwant : want = sys.spec.images.server := by simp only [want, hsys]
  -- what a begun restart records is the same for both triggers
  have hbegin : ∀ {k : Time → UpgradeStatus} {reason msg : String}, begins sys w₀ = true →
      (∀ now, (k now).phase = .stopping ∧ (k now).startedAt = some now) →
      ((ask .now).bind fun now => (event p.sys false reason msg).bind fun _ =>
        .ret (Begun.underWay (k now) (p.upgrading (k now)))).wp cluster rely s
          (fun b t => DecidesAt sys w₀ p t b) fun _ => True := by
    intro k reason msg hbegins hk
    refine Prog.wp_bind (h.wp_ask rfl) ?_
    rintro now t ⟨hnow, ht⟩
    have hclock : now = w₀.clock := hnow.trans h.clock
    refine Prog.wp_bind (ht.wp_ask rfl) ?_
    rintro _ u ⟨-, hu⟩
    refine ⟨rfl, .begun hbegins (hk now).1 ?_, hu⟩
    rw [(hk now).2, hclock]
  refine Prog.wp_ite (fun hcerts => ?_) fun _ => ?_
  · refine hbegin ?_ fun _ => ⟨rfl, rfl⟩
    rw [hsys] at hcerts
    simp [begins, hidle, hcerts]
  refine Prog.wp_ite (fun _ => ?_) fun hsome => ?_
  · refine Prog.wp_mono (Prog.wp_and_returns (Prog.wp_log _) (obeys_upToDate_idle p pods)) ?_
      fun _ _ => trivial
    rintro (r | ⟨up, q⟩) t ⟨-, hr⟩
    · change Moves _ _ _ r.pass.status.upgrade
      rcases hr with hr | hr
      · rw [hr]
        exact .dropped hidle
      · rw [hr, hup]
        exact .kept
    · exact hr.elim
  refine Prog.wp_ite (fun _ => ?_) fun happroved => ?_
  · refine .waits hidle _ ?_
    simp only
    split
    · split
      · assumption
      · rfl
    · rfl
  · refine hbegin ?_ fun _ => ⟨rfl, rfl⟩
    have happroved : sys.spec.upgrade.approved = true := by simpa [hsys] using happroved
    simp only [stale, hwant, hstale] at hsome
    simp [begins, hidle, hsome, happroved]

theorem wp_reconcileUpgrade_moves (hsys : p.sys = sys)
    (hup : p.status.upgrade = sys.status.upgrade) (h : Untouched sys w₀ s.world) (rendered : Nat) :
    (reconcileUpgrade (namespaceOf sys) rendered p).wp cluster rely s
      (fun r t => Moves sys w₀ t r.pass.status.upgrade) fun _ => True := by
  have hprogress : upgradeInProgress p.status = upgradeInProgress sys.status := by
    simp only [upgradeInProgress, hup]
  refine Prog.wp_ite (fun _ => ?_) fun _ => ?_
  · change Moves _ _ _ p.status.upgrade
    rw [hup]
    exact .kept
  refine Prog.wp_bind (A := fun pods t => Untouched sys w₀ t.world ∧
    (staleImages sys.spec.images.server pods).isEmpty = (staleImages sys.spec.images.server
      (w₀.serverPodsOf (namespaceOf sys) sys.name)).isEmpty) ?_ ?_
  · refine Prog.wp_bind (h.wp_ask rfl) ?_
    rintro pods t ⟨rfl, ht⟩
    refine ⟨ht, ?_⟩
    rw [staleImages_isEmpty_sort, hsys]
    simp only [perform, World.serverPodsOf, h.pods]
  rintro pods t ⟨ht, hstale⟩
  split
  · next up hpup hin =>
      exact wp_continueUpgrade_moves hsys hpup
        (.goesOn (hup.symm.trans hpup) (hprogress.symm.trans hin)) ht rendered pods
  · next hnone =>
      -- the restart is over, or there is none at all
      have hin : upgradeInProgress p.status = false := by
        by_contra hin
        rw [Bool.not_eq_false] at hin
        cases hpup : p.status.upgrade with
        | none => simp [upgradeInProgress, hpup] at hin
        | some up => exact hnone up hpup hin
      refine Prog.wp_bind
        (wp_beginUpgrade_moves hsys hup (hprogress.symm.trans hin) ht hstale) ?_
      rintro (r | ⟨up, q⟩) u hu
      · exact hu
      · obtain ⟨rfl, hunder, hu⟩ := hu
        have hupgrading : (p.upgrading up).sys = sys := hsys
        exact wp_continueUpgrade_moves hupgrading rfl hunder hu rendered pods

/-! ## A whole reconcile -/

/-- The stored restart is the one the reconcile began with. -/
def UpgradeKept (sys : DaosSystem) (w : World) : Prop :=
  (stored w.systems sys.name).map (·.status.upgrade) = some sys.status.upgrade

/-- What the reconcile has made of the stored restart. -/
def MovesTo (sys : DaosSystem) (w₀ : World) (t : Point Call World) : Prop :=
  ∃ after, (stored t.world.systems sys.name).map (·.status.upgrade) = some after ∧
    Moves sys w₀ t after

theorem UpgradeKept.movesTo (h : UpgradeKept sys s.world) : MovesTo sys w₀ s := ⟨_, h, .kept⟩

theorem UpgradeKept.respond {S : Scope} {c : Call} {w : World} (h : UpgradeKept sys w)
    (hc : SystemCall sys.name ns S c) (hS : S.status = false) (f : Fault) :
    UpgradeKept sys (cluster.respond c f w).2 := by
  refine (hc.stored_proj (g := fun s => s.status.upgrade) ?_ ?_).trans h
  · intro s p _
    cases p <;> rfl
  · intro hstatus
    rw [hS] at hstatus
    cases hstatus

theorem Moves.next {S : Scope} {c : Call} {after : Option UpgradeStatus}
    (h : Moves sys w₀ s after) (hc : SystemCall sys.name ns S c) (f : Fault) :
    Moves sys w₀ (cluster.next s c f) after := by
  exact Moves.mono h (fun k hread => hread.append) fun hgone => hgone.respond hc f

theorem wp_updateStatus_moves (hname : p.sys.name = sys.name)
    (hkept : UpgradeKept sys s.world) (h : Moves sys w₀ s p.status.upgrade) (requeue : Duration) :
    (updateStatus p requeue).wp cluster rely s (fun _ t => MovesTo sys w₀ t) (MovesTo sys w₀) := by
  have hc : SystemCall sys.name "" { status := true }
      (.updateSystemStatus p.sys.name p.status) := by
    rw [hname]
    exact .status _ rfl
  have hwrite : ∀ f, MovesTo sys w₀
      (cluster.next s (.updateSystemStatus p.sys.name p.status) f) := by
    intro f
    obtain ⟨old, hold, hupgrade⟩ := Option.map_eq_some_iff.mp hkept
    by_cases heffective : f.effective = true
    · refine ⟨p.status.upgrade, ?_, Moves.next h hc f⟩
      rw [Handler.next_world, Handler.respond_world, if_pos heffective, hname]
      simp only [cluster, perform, stored_modify_self, hold]
      rfl
    · refine ⟨sys.status.upgrade, ?_, .kept⟩
      rw [Handler.next_world, Handler.respond_world, if_neg heffective]
      exact hkept
  refine Prog.wp_bind (A := fun _ => MovesTo sys w₀) ?_ fun _ _ h => h
  exact Prog.wp_ask (fun _ => hwrite .none) fun f _ _ _ => hwrite f

/-- How a reconcile stands to the restart, stage by stage. -/
def AtMove (sys : DaosSystem) (w₀ : World) : Stage → Pass → Point Call World → Prop
  | .entered, p, t => Untouched sys w₀ t.world ∧ p.status.upgrade = sys.status.upgrade
  | _, p, t => Moves sys w₀ t p.status.upgrade

theorem AtMove.moves {g : Stage} (h : AtMove sys w₀ g p t) :
    Moves sys w₀ t p.status.upgrade := by
  cases g with
  | entered =>
      rw [h.2]
      exact .kept
  | _ => exact h

theorem moves_stages : StageProof sys rely
    (fun t => Untouched sys w₀ t.world ∧ UpgradeKept sys t.world) (MovesTo sys w₀)
    fun g p t => UpgradeKept sys t.world ∧ AtMove sys w₀ g p t := by
  -- a stage behind the restart that keeps `status.upgrade` of the pass
  have hquiet : ∀ {q : Op (Duration × Pass)} {S : Scope} {P : Duration × Pass → Prop} {p : Pass}
      {t : Point Call World}, q.Obeys (SystemCall sys.name (namespaceOf sys) S) P →
      S.status = false → (∀ r, P r → r.2.status.upgrade = p.status.upgrade) →
      UpgradeKept sys t.world → Moves sys w₀ t p.status.upgrade →
      q.wp cluster rely t (fun r u => UpgradeKept sys u.world ∧
        Moves sys w₀ u r.2.status.upgrade) (MovesTo sys w₀) := by
    intro q S P p t hq hS hP hkept hmoves
    refine Prog.wp_mono (hq.wp (I := fun u => UpgradeKept sys u.world ∧
      Moves sys w₀ u p.status.upgrade) (fun c f u hc _ _ hu =>
        ⟨hu.1.respond hc hS f, Moves.next hu.2 hc f⟩) ⟨hkept, hmoves⟩) ?_ fun _ h => h.1.movesTo
    rintro r u ⟨hr, hu⟩
    rw [hP r hr]
    exact hu
  exact
    { render := fun c f t hc _ _ ht =>
        ⟨ht.1.respond hc rfl (fun _ => rfl) (fun _ => rfl) f, ht.2.respond hc rfl f⟩
      stop := fun _ ht => ht.2.movesTo
      enter := fun p t hp ht => by
        have hmask := congrArg DaosSystemStatus.upgrade hp.carried.status_eq
        exact ⟨ht.2, ht.1, hmask⟩
      cond := fun g p st t hst ht => by
        have hsame : st.upgrade = p.status.upgrade := by
          have hmask := congrArg DaosSystemStatus.upgrade hst
          exact hmask
        refine ⟨ht.1, ?_⟩
        cases g with
        | entered => exact ⟨ht.2.1, hsame.trans ht.2.2⟩
        | _ =>
            change Moves _ _ _ st.upgrade
            rw [hsame]
            exact ht.2
      skip := fun p t _ ht => ⟨ht.1, ht.2.moves⟩
      upgrade := fun rendered p t hp ht => by
        have hsys := hp.carried.sys_eq
        have hobeys : (reconcileUpgrade (namespaceOf sys) rendered p).Obeys
            (SystemCall sys.name (namespaceOf sys) upgradeScope) _ :=
          obeys_reconcileUpgrade (by rw [hsys]) rendered
        have hkept : (reconcileUpgrade (namespaceOf sys) rendered p).wp cluster rely t
            (fun r u => UpgradeAdvances p r.pass ∧ UpgradeKept sys u.world)
            fun u => UpgradeKept sys u.world :=
          hobeys.wp (I := fun u => UpgradeKept sys u.world)
            (fun c f u hc _ _ hu => hu.respond hc rfl f) ht.1
        exact Prog.wp_mono
          (Prog.wp_and hkept (wp_reconcileUpgrade_moves hsys ht.2.2 ht.2.1 rendered))
          (fun _ _ h => ⟨h.1.2, h.2⟩) fun _ h => h.1.movesTo
      format := fun inp p t hp ht => by
        refine hquiet (obeys_reconcileFormat hp.patched.name hp.ns) rfl ?_ ht.1 ht.2
        intro r hr
        have hmask := congrArg DaosSystemStatus.upgrade hr.status
        exact hmask
      rankOp := fun p t hp ht => by
        refine hquiet (obeys_reconcileRankOp hp.patched.name) rfl ?_ ht.1 ht.2
        intro r hr
        have hmask := congrArg DaosSystemStatus.upgrade hr.status
        exact hmask
      engines := fun p t hp ht => by
        refine hquiet (obeys_reconcileEngineRestart hp.name) rfl ?_ ht.1 ht.2
        intro r hr
        have hmask := congrArg DaosSystemStatus.upgrade hr.status
        exact hmask
      write := fun _ p t requeue _ hp ht =>
        wp_updateStatus_moves hp.name ht.1 ht.2.moves requeue }

/-- What a reconcile makes of the stored restart. -/
theorem wp_reconcile_moves {w : World} (hsys : stored w.systems sys.name = some sys) :
    (reconcile sys.name).wp cluster rely ⟨w, []⟩ (fun _ t => MovesTo sys w t)
      (MovesTo sys w) := by
  have hstart : Untouched sys w w ∧ UpgradeKept sys w :=
    ⟨⟨rfl, rfl, fun _ _ => rfl, by simp [Synced, hsys]⟩, by simp [UpgradeKept, hsys]⟩
  have hread : ∀ f, (cluster.next ⟨w, []⟩ (.getSystem sys.name) f).world = w := by
    intro f
    rw [Handler.next_world, respond_quiet rfl]
  refine wp_reconcile (fun f _ => ?_) ?_
  · refine UpgradeKept.movesTo ?_
    rw [hread f]
    exact hstart.2
  · intro sys' hsys' _ _
    obtain rfl : sys = sys' := Option.some.inj (hsys.symm.trans hsys')
    refine moves_stages.wp_reconcileSystem ?_
    rw [hread .none]
    exact hstart

end Passes

end DaosOperator.System
