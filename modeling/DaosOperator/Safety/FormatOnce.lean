import DaosOperator.Surroundings

/-!
# One approval, one format

A format approval is consumed when the result of the format Job has been read: the
Job is deleted first, and the annotation is patched away after that.  As long as
those two writes are not torn apart, an approval pays for at most one format Job.
When the Patch fails, the Job is gone, the approval still stands, and the next
reconcile formats again.
-/

namespace DaosOperator

open Effect
open DaosOperator.System

/-! ## Attempts and approvals -/

/-- The words of `dmg storage format`. -/
def isFormat : List String → Bool
  | ["storage", "format"] => true
  | ["-l", _, "storage", "format"] => true
  | _ => false

/-- The entry creates a Job that formats the storage of the system. -/
def createsFormat (name : String) (x : Entry Call World) : Bool :=
  (created x).any fun spec => spec.owner = .system name && isFormat spec.command.args

def attempts (name : String) (log : Log) : Nat := log.countP (createsFormat name)

/-- A human sets `format-approved=true`. -/
def setsApproval (name : String) : Event → Bool
  | .change (.annotateSystem other .formatApproved value) => other = name && value = some "true"
  | .change (.createSystem other annotations _) =>
      other = name && annotations.formatApproved = some "true"
  | _ => false

/-- The result of the format Job has been read: the Job is being deleted. -/
def attemptRead (name : String) (w : World) : Bool :=
  (stored w.systems name).any fun sys =>
    (w.jobs.get (jobKey name (namespaceOf sys) .format)).any (·.deleting)

/-- The entry does not tear the end of an attempt apart: the Patch that consumes the
approval is not refused once the result has been read, and the Delete of the Job does not
take effect while it is reported as failed. -/
def endsWhole (name : String) (x : Entry Call World) : Bool :=
  match x.call with
  | .patchSystem other .removeFormatApproved =>
      !(other = name && x.fault.isFailed && attemptRead name x.before)
  | .deleteJob key => !(key.name = name ++ JobKind.format.suffix && x.fault.isLost)
  | _ => true

/-- The surroundings leave the attempt alone: nobody else removes the Job, and the system
stays in its namespace. -/
def leavesAttempt (name : String) (w : World) : Event → Bool
  | .change (.jobCollected key) => key.name ≠ name ++ JobKind.format.suffix
  | .change (.editSystem other spec) =>
      other ≠ name || (stored w.systems name).all fun sys =>
        namespaceOf { sys with spec } = namespaceOf sys
  | _ => true

def keepsWhole (name : String) (r : Step) : Bool :=
  r.obs.all (endsWhole name) && leavesAttempt name r.before r.event

/-! ## The invariant -/

/-- No format Job can be created: the approval is gone, or its Job exists. -/
def Settled (name : String) (w : World) : Prop :=
  ∀ sys, stored w.systems name = some sys → formatApproved sys = true →
    ∃ job, w.jobs.get (jobKey name (namespaceOf sys) .format) = some job ∧ job.deleting = false

/-- The attempts of an execution that started in `w₀`. -/
def Quota (name : String) (w₀ : World) (s : Point Call World) : Prop :=
  attempts name s.log ≤ 1 ∧ (Settled name w₀ → attempts name s.log = 0)

/-- The attempts are within the quota, and the approval is settled after one. -/
def Budget (name : String) (w₀ : World) (s : Point Call World) : Prop :=
  Quota name w₀ s ∧ (Settled name w₀ ∨ 0 < attempts name s.log → Settled name s.world)

/-- What the gate reads of a system: the approval and the namespace. -/
def gateView (sys : DaosSystem) : Option String × String :=
  (sys.annotations.formatApproved, namespaceOf sys)

/-- The copy of the object agrees with the stored one. -/
def InStep (name : String) (sys : DaosSystem) (s : Point Call World) : Prop :=
  (stored s.world.systems name).map gateView = some (gateView sys)

theorem budget_start (name : String) (w : World) : Budget name w ⟨w, []⟩ :=
  ⟨⟨by simp [attempts], by simp [attempts]⟩, by simp [attempts]⟩

theorem settled_of_unapproved {name : String} {w : World}
    (h : ∀ sys, stored w.systems name = some sys → formatApproved sys = false) :
    Settled name w := by
  intro sys hsys happroved
  rw [h sys hsys] at happroved
  cases happroved

/-- The approval is settled alike in worlds with the same approval and the same Job. -/
theorem Settled.congr {name : String} {w w' : World} {sys : DaosSystem}
    (hview : (stored w'.systems name).map gateView = some (gateView sys))
    (hview' : (stored w.systems name).map gateView = some (gateView sys))
    (hjob : w'.jobs.get (jobKey name (namespaceOf sys) .format) =
      w.jobs.get (jobKey name (namespaceOf sys) .format))
    (h : Settled name w) : Settled name w' := by
  intro sys' hsys' happroved
  obtain ⟨old, hold, holdview⟩ := Option.map_eq_some_iff.mp hview'
  rw [hsys', Option.map_some, Option.some.injEq] at hview
  have hns : namespaceOf sys' = namespaceOf sys := congrArg Prod.snd hview
  have hnsold : namespaceOf old = namespaceOf sys := congrArg Prod.snd holdview
  have hann : old.annotations.formatApproved = sys'.annotations.formatApproved :=
    (congrArg Prod.fst holdview).trans (congrArg Prod.fst hview).symm
  have hoa : formatApproved old = true := by
    simpa only [formatApproved, hann] using happroved
  obtain ⟨job, hget, hlive⟩ := h old hold hoa
  refine ⟨job, ?_, hlive⟩
  rw [hns, hjob, ← hnsold]
  exact hget

/-! ## Calls that have nothing to do with formatting -/

section Calls

variable {name ns : String} {S : Scope} {c : Call} {f : Fault} {w₀ : World} {sys : DaosSystem}
  {s : Point Call World}

theorem kind_of_isFormat {kind : JobKind} {args : List String} (h : kind.Runs args)
    (hformat : isFormat args = true) : kind = .format := by
  cases kind with
  | format => rfl
  | query | verify | stop | start =>
      rw [show args = _ from h] at hformat
      cases hformat
  | rankOp =>
      obtain ⟨op, ranks, _, rfl⟩ := h
      cases hformat
  | engineStart =>
      obtain ⟨ranks, rfl⟩ := h
      cases hformat

theorem isFormat_formatArgs (only : List String) : isFormat (formatArgs only) = true := by
  unfold formatArgs
  split <;> rfl

theorem createsFormat_eq_false {x : Entry Call World}
    (h : ∀ spec, x.call = .createJob spec → spec.owner = .system name →
      isFormat spec.command.args = false) : createsFormat name x = false := by
  unfold createsFormat created
  split
  · next spec hspec =>
      split
      · by_cases howner : spec.owner = .system name
        · simp [h spec hspec howner]
        · simp [howner]
      · rfl
  · rfl

theorem createsFormat_of_scope (hS : S.jobs .format = false) (hc : SystemCall name ns S c)
    (w : World) : createsFormat name ⟨c, f, w⟩ = false := by
  refine createsFormat_eq_false ?_
  rintro spec rfl _
  cases hc with
  | quiet hc => cases hc
  | createJob kind _ hkind hspec =>
      by_contra hformat
      rw [kind_of_isFormat hspec.runs (by simpa using hformat), hS] at hkind
      cases hkind

theorem attempts_concat {log : Log} {x : Entry Call World} :
    attempts name (log ++ [x]) =
      attempts name log + if createsFormat name x then 1 else 0 := by
  simp [attempts, List.countP_append, List.countP_singleton]

theorem Quota.next (h : Quota name w₀ s) (hc : createsFormat name ⟨c, f, s.world⟩ = false) :
    Quota name w₀ (cluster.next s c f) := by
  simpa [Quota, attempts_concat, hc] using h

theorem Budget.next (h : Budget name w₀ s) (hc : createsFormat name ⟨c, f, s.world⟩ = false)
    (hsettled : Settled name s.world → Settled name (cluster.respond c f s.world).2) :
    Budget name w₀ (cluster.next s c f) := by
  refine ⟨h.1.next hc, ?_⟩
  intro hwhen
  refine hsettled (h.2 ?_)
  simpa [attempts_concat, hc] using hwhen

theorem InStep.next (h : InStep name sys s) (hc : SystemCall name ns S c)
    (hpatch : S.patches .removeFormatApproved = false) : InStep name sys (cluster.next s c f) := by
  refine Eq.trans (hc.stored_proj ?_ ?_) h
  · intro s p hp
    cases p with
    | removeFormatApproved => simp [hpatch] at hp
    | removeRankOp | removeCertsRenewApproved | resetUpgradeApproved => rfl
  · intro _ s st
    rfl

/-- A call outside the format gate keeps the budget and the agreement with the stored object. -/
theorem budget_frame (hS : S.jobs .format = false)
    (hpatch : S.patches .removeFormatApproved = false)
    (hc : SystemCall name ns S c) (h : InStep name sys s ∧ Budget name w₀ s) :
    InStep name sys (cluster.next s c f) ∧ Budget name w₀ (cluster.next s c f) := by
  have hview := h.1.next (f := f) hc hpatch
  refine ⟨hview, h.2.next (createsFormat_of_scope hS hc s.world) ?_⟩
  refine Settled.congr hview h.1 (hc.jobs_get ?_)
  intro k hk hkey
  rw [← (jobKey_inj hkey).2.2, hS] at hk
  cases hk

theorem wp_outsideGate {α : Type} (name ns : String) {P : α → Prop} {q : Op α}
    {rely : Entry Call World → Prop}
    (hS : S.jobs .format = false) (hpatch : S.patches .removeFormatApproved = false)
    (hq : q.Obeys (SystemCall name ns S) P) (hs : InStep name sys s ∧ Budget name w₀ s) :
    q.wp cluster rely s (fun a t => P a ∧ InStep name sys t ∧ Budget name w₀ t)
      (Budget name w₀) :=
  Prog.wp_mono (hq.wp (I := fun t => InStep name sys t ∧ Budget name w₀ t)
    (fun _ _ _ hc _ _ ht => budget_frame hS hpatch hc ht) hs) (fun _ _ h => h) fun _ h => h.2

theorem settled_patch {w : World} :
    Settled name (perform (.patchSystem name .removeFormatApproved) w).2 := by
  refine settled_of_unapproved ?_
  intro sys hsys
  simp only [perform, stored_modify_self, Option.bind_eq_some_iff] at hsys
  obtain ⟨old, -, hold⟩ := hsys
  cases hold
  rfl

end Calls

/-! ## The format gate -/

section Gate

variable {name : String} {w₀ : World} {sys : DaosSystem} {s : Point Call World}
  {rely : Entry Call World → Prop}

theorem InStep.patch (h : InStep name sys s) {f : Fault} (hf : f.effective = true) :
    InStep name (SystemPatch.apply sys .removeFormatApproved)
      (cluster.next s (.patchSystem name .removeFormatApproved) f) := by
  obtain ⟨old, hold, hview⟩ := Option.map_eq_some_iff.mp h
  have hstored : stored (perform (.patchSystem name .removeFormatApproved) s.world).2.systems name =
      some (SystemPatch.apply old .removeFormatApproved) := by
    simp [perform, stored_modify_self, hold]
  unfold InStep
  rw [Handler.next_world, Handler.respond_world, if_pos hf]
  refine (congrArg (Option.map gateView) hstored).trans ?_
  exact congrArg (fun ns => some (none, ns)) (congrArg Prod.snd hview)

/-- Consuming the approval settles it, unless the Patch is refused after the result was
read. -/
theorem wp_clearApproval (hname : sys.name = name) (hstep : InStep name sys s)
    (hquota : Quota name w₀ s) (hrely : ∀ x, rely x → endsWhole name x = true)
    (hread : Budget name w₀ s ∨ formatApproved sys = true ∧ attemptRead name s.world = true) :
    (clearApproval sys).wp cluster rely s
      (fun sys' t => InStep name sys' t ∧ sys'.name = name ∧ Budget name w₀ t)
      (Budget name w₀) := by
  have hnone : ∀ f w, createsFormat name ⟨.patchSystem name .removeFormatApproved, f, w⟩ = false :=
    fun _ _ => rfl
  have hdone : ∀ f, f.effective = true →
      Budget name w₀ (cluster.next s (.patchSystem name .removeFormatApproved) f) := by
    intro f hf
    refine ⟨hquota.next (hnone f _), fun _ => ?_⟩
    rw [Handler.next_world, Handler.respond_world, if_pos hf]
    exact settled_patch
  unfold clearApproval
  refine Prog.wp_ite (fun hgone => ?_) fun _ => ?_
  · refine ⟨hstep, hname, ?_⟩
    rcases hread with hread | ⟨happroved, -⟩
    · exact hread
    · simp only [formatApproved, decide_eq_true_eq] at happroved
      simp [happroved] at hgone
  · unfold patch
    rw [hname]
    refine Prog.wp_bind (A := fun _ t =>
      t = cluster.next s (.patchSystem name .removeFormatApproved) .none) ?_ ?_
    · refine Prog.wp_ask (fun _ => rfl) fun f _ _ hx => ?_
      cases f with
      | none => exact hdone _ rfl
      | lost e => exact hdone _ rfl
      | failed e =>
          have hwhole := hrely _ hx
          rcases hread with hread | ⟨-, hread⟩
          · exact hread.next (hnone _ _) id
          · simp [endsWhole, Fault.isFailed, hread] at hwhole
    · rintro _ _ rfl
      refine ⟨hstep.patch rfl, ?_, hdone _ rfl⟩
      exact hname

theorem not_settled (hstep : InStep name sys s) (happroved : formatApproved sys = true)
    (hjob : s.world.jobs.get (jobKey name (namespaceOf sys) .format) = none) :
    ¬Settled name s.world := by
  intro hsettled
  obtain ⟨old, hold, hview⟩ := Option.map_eq_some_iff.mp hstep
  have hann : old.annotations.formatApproved = sys.annotations.formatApproved :=
    congrArg Prod.fst hview
  have hns : namespaceOf old = namespaceOf sys := congrArg Prod.snd hview
  obtain ⟨job, hget, -⟩ := hsettled old hold (by simpa only [formatApproved, hann] using happroved)
  rw [hns, hjob] at hget
  cases hget

/-- Creating the Job of a standing approval uses the quota up and settles the approval. -/
theorem Budget.create {spec : Dmg.RunSpec} {f : Fault} (hstep : InStep name sys s)
    (happroved : formatApproved sys = true) (howner : spec.owner = .system name)
    (hkey : spec.key = jobKey name (namespaceOf sys) .format)
    (hargs : isFormat spec.command.args = true) (hjob : s.world.jobs.get spec.key = none)
    (h : Budget name w₀ s) : Budget name w₀ (cluster.next s (.createJob spec) f) := by
  have hunsettled : ¬Settled name s.world := not_settled hstep happroved (by rw [← hkey, hjob])
  have hstart : ¬Settled name w₀ := fun hw => hunsettled (h.2 (Or.inl hw))
  have hzero : attempts name s.log = 0 := by
    by_contra hpos
    exact hunsettled (h.2 (Or.inr (by omega)))
  by_cases hf : f.effective = true
  · have hcreates : createsFormat name ⟨.createJob spec, f, s.world⟩ = true := by
      simp [createsFormat, created, hf, hjob, howner, hargs]
    refine ⟨⟨?_, fun hw => absurd hw hstart⟩, fun _ => ?_⟩
    · simp [attempts_concat, hcreates, hzero]
    · rw [Handler.next_world, Handler.respond_world, if_pos hf]
      intro sys' hsys' _
      refine ⟨⟨s.world.nextId, spec, s.world.clock, [], false, []⟩, ?_, rfl⟩
      have hns : namespaceOf sys' = namespaceOf sys := by
        have hstored : stored s.world.systems name = some sys' := by
          simpa [cluster, perform, hjob] using hsys'
        have hview : gateView sys' = gateView sys := by
          simpa [InStep, hstored] using hstep
        exact congrArg Prod.snd hview
      rw [hns, ← hkey]
      simp [cluster, perform, hjob]
  · have hcreates : createsFormat name ⟨.createJob spec, f, s.world⟩ = false := by
      simp [createsFormat, created, hf]
    refine h.next hcreates ?_
    rw [Handler.respond_world, if_neg hf]
    exact id

/-- The format path creates a Job for a standing approval without one, and settles the
approval when it reads the result. -/
theorem wp_formatPath {inp : FormatInput} {only : List String} {p : Pass}
    (hname : p.sys.name = name) (hns : inp.ns = namespaceOf p.sys)
    (happroved : formatApproved p.sys = true) (hrely : ∀ x, rely x → endsWhole name x = true)
    (hs : InStep name p.sys s ∧ Budget name w₀ s) :
    (formatPath inp only p).wp cluster rely s
      (fun r t => InStep name r.2.sys t ∧ Budget name w₀ t) (Budget name w₀) := by
  have hkey : (jobSpec p.sys inp.ns .format (.dmg (formatArgs only))).key =
      jobKey name (namespaceOf p.sys) .format := by
    simp only [jobSpec, hname, hns]
  unfold formatPath
  refine Prog.wp_ite (fun _ => hs) fun _ => ?_
  refine Prog.wp_bind (A := fun res t => InStep name p.sys t ∧ Quota name w₀ t ∧
    (Budget name w₀ t ∨ res.done = true ∧ attemptRead name t.world = true)) ?_ ?_
  · refine Prog.wp_mapError.mpr (Dmg.wp_run (I := fun t => InStep name p.sys t ∧ Budget name w₀ t)
      ?_ hs (fun _ ht => ht.2) ?_ ?_ ?_)
    · intro c f t hc _ ht
      exact budget_frame rfl rfl (.quiet hc : SystemCall name inp.ns {} c) ht
    · intro t ht hworld hjob
      rw [← hworld] at hjob
      have hbudget : ∀ f, Budget name w₀
          (cluster.next t (.createJob (jobSpec p.sys inp.ns .format (.dmg (formatArgs only)))) f) :=
        fun f => ht.2.create ht.1 happroved (by rw [jobSpec, hname]) hkey
          (isFormat_formatArgs only) hjob
      refine Prog.wp_ask (fun _ => ⟨?_, (hbudget _).1, Or.inl (hbudget _)⟩) fun f _ _ _ => hbudget f
      have hcall : SystemCall name (namespaceOf p.sys) { jobs := fun _ => true }
          (.createJob (jobSpec p.sys inp.ns .format (.dmg (formatArgs only)))) :=
        .createJob .format _ rfl ⟨by rw [jobSpec, hname], hkey, only, rfl⟩
      exact ht.1.next hcall rfl
    · intro t job ht _ _
      exact ⟨ht.1, ht.2.1, Or.inl ht.2⟩
    · intro t job failure ht hworld hjob hlive hfinished
      rw [← hworld] at hjob
      have hnone : ∀ f w, createsFormat name ⟨.deleteJob
          (jobSpec p.sys inp.ns .format (.dmg (formatArgs only))).key, f, w⟩ = false :=
        fun _ _ => rfl
      refine Prog.wp_ask (fun _ => ?_) fun f hf _ hx => ?_
      · have hstep : InStep name p.sys (cluster.next t (.deleteJob
            (jobSpec p.sys inp.ns .format (.dmg (formatArgs only))).key) .none) := by
          rw [hkey]
          exact ht.1.next (S := { jobs := fun _ => true }) (.deleteJob .format rfl) rfl
        refine ⟨hstep, ht.2.1.next (hnone _ _), Or.inr ⟨Dmg.done_jobResult .., ?_⟩⟩
        obtain ⟨old, hold, hview⟩ := Option.map_eq_some_iff.mp hstep
        have hns' : namespaceOf old = namespaceOf p.sys := congrArg Prod.snd hview
        rw [hkey] at hold hjob ⊢
        simp only [attemptRead, hold, Option.any_some, hns']
        simp [Handler.respond, cluster, perform, hjob]
      · cases f with
        | none => exact absurd rfl hf
        | failed e => exact ht.2.next (hnone _ _) id
        | lost e =>
            have hwhole := hrely _ hx
            rw [hkey] at hwhole
            simp [endsWhole, jobKey, Fault.isLost] at hwhole
  · rintro res t ⟨hstep, hquota, hread⟩
    refine Prog.wp_ite (fun hrunning => ?_) fun _ => ?_
    · rcases hread with hread | ⟨hdone, -⟩
      · exact ⟨hstep, hread⟩
      · simp [hdone] at hrunning
    · refine Prog.wp_bind (wp_clearApproval hname hstep hquota hrely
        (hread.imp_right fun h => ⟨happroved, h.2⟩)) ?_
      rintro sys t ⟨hstep, hname, hbudget⟩
      refine Prog.wp_mono (wp_outsideGate name inp.ns rfl rfl (obeys_recordFormat {} only res _)
        ⟨hstep, hbudget⟩) ?_ fun _ h => h
      rintro r u ⟨⟨hsys, -⟩, hu⟩
      rwa [hsys]

theorem wp_queryPath {inp : FormatInput} {p : Pass} (approved : Bool) (hname : p.sys.name = name)
    (hrely : ∀ x, rely x → endsWhole name x = true)
    (hs : InStep name p.sys s ∧ Budget name w₀ s) :
    (queryPath inp approved p).wp cluster rely s
      (fun r t => InStep name r.2.sys t ∧ Budget name w₀ t) (Budget name w₀) := by
  -- a part that neither formats nor patches
  have hframe : ∀ {α : Type} {P : α → Prop} {q : Op α} {sys : DaosSystem} {t : Point Call World},
      q.Obeys (SystemCall name inp.ns { jobs := fun k => k = .query }) P →
      InStep name sys t ∧ Budget name w₀ t →
      q.wp cluster rely t (fun a u => P a ∧ InStep name sys u ∧ Budget name w₀ u)
        (Budget name w₀) := fun hq ht => wp_outsideGate _ _ rfl rfl hq ht
  refine Prog.wp_bind (hframe (Prog.obeys_ask (.quiet rfl)) hs) ?_
  rintro wait t ⟨-, ht⟩
  refine Prog.wp_ite (fun _ => ht) fun _ => ?_
  refine Prog.wp_bind (hframe (obeys_runJob .query (.dmg _ _ _ _) hname rfl rfl).mapError ht) ?_
  rintro res t ⟨-, ht⟩
  refine Prog.wp_ite (fun _ => ?_) fun _ => ?_
  · simp only [Prog.wp_ret]
    split <;> exact ht
  refine Prog.wp_bind (hframe (Prog.obeys_ask (.quiet rfl)) ht) ?_
  rintro now t ⟨-, ht⟩
  unfold finishQuery
  refine Prog.wp_bind (hframe (P := fun _ => True) ?_ ht) ?_
  · split
    · exact obeys_event _ _ _ _
    · trivial
  rintro _ t ⟨-, ht⟩
  refine Prog.wp_bind (A := fun r t => Budget name w₀ t ∧
    ∀ sys', r = .ok sys' → InStep name sys' t) ?_ ?_
  · refine Prog.wp_ite (fun _ => Prog.wp_attempt ?_) fun _ => ⟨ht.2, ?_⟩
    · refine Prog.wp_mono (wp_clearApproval hname ht.1 ht.2.1 hrely (Or.inl ht.2)) ?_ ?_
      · rintro sys' u ⟨hstep, -, hbudget⟩
        refine ⟨hbudget, ?_⟩
        rintro _ ⟨⟩
        exact hstep
      · intro u hu e
        exact ⟨hu, by simp⟩
    · rintro _ ⟨⟩
      exact ht.1
  rintro dropped t ⟨hbudget, hdropped⟩
  cases dropped with
  | error e =>
      refine Prog.wp_bind (A := fun _ => Budget name w₀) ?_ fun _ _ h => h
      refine Prog.wp_ask (fun _ => hbudget.next rfl id) fun f _ hf _ => ?_
      cases hf
  | ok sys' =>
      refine Prog.wp_bind (hframe (Prog.obeys_ask (.setHold _ _)) ⟨hdropped sys' rfl, hbudget⟩) ?_
      rintro _ t ⟨-, ht⟩
      refine Prog.wp_bind (hframe (P := fun _ => True) ?_ ht) fun _ _ h => h.2
      exact Prog.obeys_ite (fun _ => obeys_event _ _ _ _) fun _ => trivial

theorem wp_reconcileFormat {inp : FormatInput} {p : Pass} (hname : p.sys.name = name)
    (hns : inp.ns = namespaceOf p.sys) (hrely : ∀ x, rely x → endsWhole name x = true)
    (hs : InStep name p.sys s ∧ Budget name w₀ s) :
    (reconcileFormat inp p).wp cluster rely s
      (fun r t => InStep name r.2.sys t ∧ Budget name w₀ t) (Budget name w₀) := by
  unfold reconcileFormat
  refine Prog.wp_ite (fun _ => hs) fun _ => ?_
  dsimp only
  refine Prog.wp_bind (A := fun sys t => InStep name sys t ∧ sys.name = name ∧ Budget name w₀ t ∧
    (external p.sys = false → sys = p.sys)) ?_ ?_
  · unfold refuseExternalFormat
    refine Prog.wp_ite (fun hexternal => ?_) fun _ => ⟨hs.1, hname, hs.2, fun _ => rfl⟩
    refine Prog.wp_bind (wp_outsideGate name inp.ns (S := {}) rfl rfl (obeys_event _ _ _ _) hs) ?_
    rintro _ t ⟨-, ht⟩
    refine Prog.wp_mono (wp_clearApproval hname ht.1 ht.2.1 hrely (Or.inl ht.2)) ?_ fun _ h => h
    rintro sys' u ⟨hstep, hname', hbudget⟩
    refine ⟨hstep, hname', hbudget, ?_⟩
    intro hinternal
    simp [hinternal] at hexternal
  · rintro sys t ⟨hstep, hname', hbudget, hsame⟩
    split
    · next only hdecision =>
        have happroved : formatApproved p.sys = true ∧ external p.sys = false := by
          unfold formatDecision at hdecision
          split at hdecision
          · next h => simpa using (Bool.and_eq_true_iff.mp h).1
          · cases hdecision
        obtain rfl := hsame happroved.2
        exact wp_formatPath hname' hns happroved.1 hrely ⟨hstep, hbudget⟩
    · exact wp_queryPath _ hname' hrely ⟨hstep, hbudget⟩

end Gate

/-! ## Steps -/

theorem gateView_patched {allowed : SystemPatch → Bool} {sys sys' : DaosSystem}
    (h : Patched allowed sys sys') (hallowed : allowed .removeFormatApproved = false) :
    gateView sys' = gateView sys := by
  refine h.proj ?_
  intro s p hp
  cases p with
  | removeFormatApproved => simp [hallowed] at hp
  | removeRankOp | removeCertsRenewApproved | resetUpgradeApproved => rfl

theorem budget_reconcileSystem {name : String} {w : World} (hw : WellNamed w)
    {faults : List Fault}
    (hwhole : ∀ x ∈ (operator.step w (.reconcileSystem name faults)).2, endsWhole name x = true) :
    Budget name w ⟨(operator.step w (.reconcileSystem name faults)).1,
      (operator.step w (.reconcileSystem name faults)).2⟩ := by
  have hread : ∀ f, Budget name w (cluster.next ⟨w, []⟩ (.getSystem name) f) := by
    intro f
    refine (budget_start name w).next rfl ?_
    cases f <;> exact id
  have hwp : (reconcile name).wp cluster (fun x => endsWhole name x = true) ⟨w, []⟩
      (fun _ => Budget name w) (Budget name w) := by
    refine wp_reconcile (fun f _ => hread f) ?_
    intro sys hsys _ _
    have hname : sys.name = name := hw.systems.stored hsys
    have houtside : ∀ {S : Scope} {α : Type} {pass : α → Pass} {q : Op α} {p : Pass}
        {t : Point Call World} {mask : DaosSystemStatus → DaosSystemStatus},
        S.jobs .format = false → S.patches .removeFormatApproved = false →
        q.Obeys (SystemCall name (namespaceOf sys) S)
          (fun r => Advances S.patches mask p (pass r)) →
        InStep name p.sys t ∧ Budget name w t →
        q.wp cluster (fun x => endsWhole name x = true) t
          (fun r u => InStep name (pass r).sys u ∧ Budget name w u) (Budget name w) := by
      intro S α pass q p t mask hS hpatch hq ht
      refine Prog.wp_mono (wp_outsideGate _ _ hS hpatch hq ht) ?_ fun _ h => h
      rintro r u ⟨hadv, hstep, hbudget⟩
      refine ⟨?_, hbudget⟩
      unfold InStep
      rw [gateView_patched hadv.sys hpatch]
      exact hstep
    have hstages : StageProof sys (fun x => endsWhole name x = true)
        (fun t => InStep name sys t ∧ Budget name w t) (Budget name w)
        (fun _ p t => InStep name p.sys t ∧ Budget name w t) :=
      { render := fun c f t hc _ _ ht => budget_frame rfl rfl (hname ▸ hc) ht
        stop := fun _ h => h.2
        enter := fun p t hp ht => by
          rw [hp.carried.sys_eq]
          exact ht
        cond := fun _ _ _ _ _ h => h
        skip := fun _ _ _ h => h
        upgrade := fun rendered p t hp ht => houtside rfl rfl
          (obeys_reconcileUpgrade (by rw [hp.carried.sys_eq, hname]) rendered) ht
        format := fun inp p t hp ht => by
          refine wp_reconcileFormat (hp.patched.name.trans hname) ?_ (fun _ h => h) ht
          have hview := gateView_patched hp.patched rfl
          rw [hp.ns]
          exact (congrArg Prod.snd hview).symm
        rankOp := fun p t hp ht => houtside rfl rfl
          (obeys_reconcileRankOp (hp.patched.name.trans hname)) ht
        engines := fun p t hp ht => houtside rfl rfl
          (obeys_reconcileEngineRestart (hp.name.trans hname)) ht
        write := fun _ p t requeue _ hp ht => Prog.wp_mono (wp_outsideGate _
          (namespaceOf sys) (S := { status := true }) rfl rfl
          (obeys_updateStatus (hp.name.trans hname) rfl requeue) ht)
          (fun _ _ h => h.2.2) fun _ h => h }
    refine hstages.wp_reconcileSystem ⟨?_, hread _⟩
    unfold InStep
    rw [show stored (cluster.next ⟨w, []⟩ (.getSystem name) .none).world.systems name =
      some sys from hsys]
    rfl
  exact Prog.exec_ends hwp faults hwhole

/-- A change that sets no approval and leaves the attempt alone keeps the approval settled. -/
theorem settled_change {name : String} {w : World} {c : Change}
    (hset : setsApproval name (.change c) = false)
    (hleaves : leavesAttempt name w (.change c) = true) (h : Settled name w) :
    Settled name (c.apply w) := by
  intro sys hsys happroved
  -- the approval stood before, in the same namespace
  obtain ⟨old, hold, holdapproved, hns⟩ : ∃ old, stored w.systems name = some old ∧
      formatApproved old = true ∧ namespaceOf old = namespaceOf sys := by
    have hchange := systemChange w name c
    rw [hsys] at hchange
    generalize hbefore : stored w.systems name = before at hchange
    cases hchange with
    | same => exact ⟨sys, rfl, happroved, rfl⟩
    | create annotations spec =>
        simp only [setsApproval, decide_true, Bool.true_and, decide_eq_false_iff_not] at hset
        simp [formatApproved, hset] at happroved
    | edit spec old =>
        refine ⟨old, rfl, happroved, ?_⟩
        have hsame : namespaceOf { old with spec } = namespaceOf old := by
          simpa [leavesAttempt, hbefore] using hleaves
        exact hsame.symm
    | annotate key value old =>
        refine ⟨old, rfl, ?_, rfl⟩
        cases key with
        | formatApproved =>
            simp only [setsApproval, decide_true, Bool.true_and, decide_eq_false_iff_not] at hset
            simp [formatApproved, SystemAnnotations.set, hset] at happroved
        | certsRenewApproved | rankOp | rankOpDiscardData => exact happroved
    | delete old => exact ⟨old, rfl, happroved, rfl⟩
  obtain ⟨job, hget, hlive⟩ := h old hold holdapproved
  rw [hns] at hget
  have hchange := jobChange w (jobKey name (namespaceOf sys) .format) c
  rw [hget] at hchange
  generalize (c.apply w).jobs.get (jobKey name (namespaceOf sys) .format) = after at hchange ⊢
  cases hchange with
  | same => exact ⟨job, rfl, hlive⟩
  | progress conditions pods => exact ⟨_, rfl, hlive⟩
  | removed _ hdeleting => simp [hlive] at hdeleting
  | collected => simp [leavesAttempt, jobKey] at hleaves

theorem budget_step {name : String} {w : World} {e : Event} (hw : WellNamed w)
    (hset : setsApproval name e = false) (hwhole : keepsWhole name (operator.record w e) = true) :
    Budget name w ⟨(operator.step w e).1, (operator.step w e).2⟩ := by
  simp only [keepsWhole, Machine.record_obs, Machine.record_before, Machine.record_event,
    Bool.and_eq_true, List.all_eq_true] at hwhole
  have helsewhere : e.elsewhere name →
      Budget name w ⟨(operator.step w e).1, (operator.step w e).2⟩ := by
    intro he
    obtain ⟨hsystem, hjobs⟩ := step_elsewhere name e hw he
    have hnone : attempts name (operator.step w e).2 = 0 := by
      refine List.countP_eq_zero.mpr ?_
      intro x hx
      simp only [Bool.not_eq_true]
      refine createsFormat_eq_false ?_
      intro spec hspec howner
      have hcall := eventCall_of_mem hx
      rw [hspec] at hcall
      exact absurd howner (hcall.owner_ne hw he)
    refine ⟨⟨by simp [hnone], fun _ => hnone⟩, ?_⟩
    rintro (hsettled | hpos)
    · intro sys hsys happroved
      rw [hjobs _ _ (by decide)]
      refine hsettled sys ?_ happroved
      simpa only [stored, hsystem] using hsys
    · simp [hnone] at hpos
  cases e with
  | change c =>
      refine ⟨⟨by simp [attempts, operator], by simp [attempts, operator]⟩, ?_⟩
      rintro (hsettled | hpos)
      · exact settled_change hset hwhole.2 hsettled
      · simp [attempts, operator] at hpos
  | reconcileSystem other faults =>
      by_cases hother : other = name
      · subst hother
        exact budget_reconcileSystem hw hwhole.1
      · exact helsewhere hother
  | reconcilePool other faults => exact helsewhere trivial
  | reconcileContainer key faults => exact helsewhere trivial

/-! ## Runs -/

/-- The format Jobs created along recorded steps. -/
def formatAttempts (name : String) (steps : List Step) : Nat :=
  (steps.map fun r => attempts name r.obs).sum

/-- A run without a new approval stays within one attempt, and makes none once the approval
is settled. -/
theorem attempts_run {name : String} (events : List Event) {w : World} (hw : WellNamed w)
    (hset : ∀ e ∈ events, setsApproval name e = false)
    (hwhole : ∀ r ∈ operator.history w events, keepsWhole name r = true) :
    formatAttempts name (operator.history w events) ≤ 1 ∧
      (Settled name w → formatAttempts name (operator.history w events) = 0) := by
  induction events generalizing w with
  | nil => simp [formatAttempts, Machine.history]
  | cons e events ih =>
      obtain ⟨⟨hone, hzero⟩, hafter⟩ :=
        budget_step hw (hset e (by simp)) (hwhole _ (by simp [Machine.history]))
      obtain ⟨hrest, hrestzero⟩ := ih (hw.step e) (fun e he => hset e (by simp [he]))
        fun r hr => hwhole r (by simp [Machine.history, hr])
      have hsum : formatAttempts name (operator.history w (e :: events)) =
          attempts name (operator.step w e).2 +
            formatAttempts name (operator.history (operator.step w e).1 events) := by
        simp [formatAttempts, Machine.history]
      rw [hsum]
      constructor
      · rcases Nat.eq_zero_or_pos (attempts name (operator.step w e).2) with h | h
        · omega
        · have := hrestzero (hafter (Or.inr h))
          dsimp only at hone
          omega
      · intro hsettled
        have := hrestzero (hafter (Or.inl hsettled))
        have := hzero hsettled
        dsimp only at this
        omega

/-- Between two approvals of a human, at most one format Job is created for a system,
provided that no attempt is torn apart at its end. -/
theorem formatAttempts_le_one (name : String) (before between : List Event)
    (hbetween : ∀ e ∈ between, setsApproval name e = false)
    (hwhole : ∀ r ∈ operator.history (final before) between, keepsWhole name r = true) :
    formatAttempts name (operator.history (final before) between) ≤ 1 :=
  (attempts_run between (wellNamed_final before) hbetween hwhole).1

/-- One node, its server ready and its storage unformatted, and a human who approves. -/
def approvedRun : List Event :=
  [.change (.createSystem "s" {}
      { msReplicas := 1, allowInsecure := true
        engines := [{ fabricIface := "ib0", bdevList := ["0000:81:00.0"] }] }),
    .change (.setNodes [{ name := "a" }]),
    .reconcileSystem "s" [],
    .change (.setReadyReplicas ⟨"daos-system", "s-server-a"⟩ 1),
    .change (.jobProgress ⟨"daos-system", "s-dmg-query"⟩ [.complete true]
      [{ name := "query", created := 0, log := "\x7b\"error\":\"system is uninitialized\"\x7d" }]),
    .reconcileSystem "s" [],
    .change (.annotateSystem "s" .formatApproved (some "true"))]

/-- The format Job runs and succeeds; `faults` strike the reconcile that reads its result. -/
def formattingRun (faults : List Fault) : List Event :=
  [.reconcileSystem "s" [],
    .change (.jobProgress ⟨"daos-system", "s-dmg-format"⟩ [.complete true]
      [{ name := "format", created := 0, terminated := some (0, 0), log := "\x7b\x7d" }]),
    .reconcileSystem "s" faults,
    .change (.jobRemoved ⟨"daos-system", "s-dmg-format"⟩),
    .reconcileSystem "s" []]

/-- Without faults the approval pays for one attempt. -/
theorem formatAttempts_formattingRun :
    formatAttempts "s" (operator.history (final approvedRun) (formattingRun [])) = 1 ∧
      formatAttempts "s" (operator.history (final approvedRun) (formattingRun [])) ≤ 1 := by
  have hrun : formatAttempts "s" (operator.history (final approvedRun) (formattingRun [])) = 1 ∧
      ∀ r ∈ operator.history (final approvedRun) (formattingRun []), keepsWhole "s" r = true := by
    decide +kernel
  exact ⟨hrun.1, formatAttempts_le_one "s" approvedRun (formattingRun []) (by decide) hrun.2⟩

/-- The Patch that consumes the approval is refused: the same approval formats twice. -/
theorem formatAttempts_refusedPatch :
    (∀ e ∈ formattingRun (List.replicate 17 .none ++ [.failed "timeout"]),
      setsApproval "s" e = false) ∧
    formatAttempts "s" (operator.history (final approvedRun)
      (formattingRun (List.replicate 17 .none ++ [.failed "timeout"]))) = 2 :=
  ⟨by decide +kernel, by decide +kernel⟩

end DaosOperator
