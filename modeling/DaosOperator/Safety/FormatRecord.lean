import DaosOperator.Safety.FormatOnce
import DaosOperator.Steps

/-!
# What a format record describes

`status.lastFormat` is written by the reconcile that reads the result of the format
Job.  That reconcile does not look at what the Job was told to format: it works out
the hosts anew, from the nodes and the members of now, and it consumes the approval
of now.  The record describes the Job it reports as long as the hosts to format are
those of the reconcile that created the Job, and as long as no approval is given
while a format Job of an earlier one is still around.
-/

namespace DaosOperator

open Effect
open DaosOperator.System

variable {sys : DaosSystem} {w : World} {st : DaosSystemStatus} {job : Job} {name : String}
  {e : Event}

/-! ## What a format has to cover -/

/-- What the format gate asks of a node: its name, its address, and whether it has a
configuration and a server. -/
def needsHost (ranks : List RankStatus) (e : String × String × Bool) : Bool :=
  e.2.2 && e.2.1 ≠ "" && (!isMember ranks e.1 || awaitsFormat ranks e.1)

/-- The addresses of the nodes with a configuration whose drives may be formatted. -/
def hostsToFormat (sys : DaosSystem) (w : World) : List String :=
  Text.sortStrings (((nodeFacts sys w).filter fun f =>
    needsHost sys.status.ranks (f.name, f.controlAddr, renders sys w f)).map (·.controlAddr))

/-- What a format of the system has to cover.  The first one is not restricted to hosts. -/
def formatTarget (sys : DaosSystem) (w : World) : List String :=
  if sys.status.formatted then hostsToFormat sys w else []

theorem hostsToFormat_congr {w' : World} (h : w.nodes = w'.nodes) :
    hostsToFormat sys w = hostsToFormat sys w' := by
  simp only [hostsToFormat, nodeFacts_congr h, renders_congr h]

/-- The entries of the status and the facts of the nodes agree on what has to be formatted. -/
theorem formatHosts_eq
    (hhosts : st.nodeConfigs.map hostEntry =
      (nodeFacts sys w).map fun f => (f.name, f.controlAddr, renders sys w f))
    (hranks : st.ranks = sys.status.ranks) : formatHosts st = hostsToFormat sys w := by
  have hentries : formatHosts st = Text.sortStrings
      (((st.nodeConfigs.map hostEntry).filter (needsHost st.ranks)).map fun e => e.2.1) := by
    rw [List.filter_map, List.map_map]
    rfl
  rw [hentries, hhosts, hranks, List.filter_map, List.map_map]
  rfl

/-- The hosts a gate decides on are those the system has to format. -/
theorem only_eq_formatTarget {approved : Bool} {only : List String}
    (h : formatDecision approved st = some only)
    (hformatted : st.formatted = sys.status.formatted)
    (hhosts : formatHosts st = hostsToFormat sys w) : only = formatTarget sys w := by
  unfold formatDecision at h
  unfold formatTarget
  rw [hformatted, hhosts] at h
  split at h
  · split at h
    · next hdone =>
        rw [if_pos hdone]
        split at h
        · cases h
        · exact (Option.some.inj h).symm
    · next hfirst =>
        rw [if_neg hfirst]
        exact (Option.some.inj h).symm
  · cases h

/-! ## The calls of one reconcile -/

def finishedFormat (sys : DaosSystem) (w : World) : Option Job :=
  (w.jobs.get (jobKey sys.name (namespaceOf sys) .format)).filter fun job =>
    !job.deleting && (Dmg.jobFinished job.conditions).isSome

theorem finishedFormat_eq_some :
    finishedFormat sys w = some job ↔
      w.jobs.get (jobKey sys.name (namespaceOf sys) .format) = some job ∧ job.deleting = false ∧
        (Dmg.jobFinished job.conditions).isSome = true := by
  simp [finishedFormat, Option.filter_eq_some_iff]

/-- The reconcile is to read a format Job: an approval stands, there is something to format,
and the Job has finished. -/
def reads (sys : DaosSystem) (w : World) : Bool :=
  formatApproved sys && sys.status.pendingFormat && (finishedFormat sys w).isSome

section Reconcile

variable {sys : DaosSystem} {w : World} {s : Point Call World} {rely : Entry Call World → Prop}

/-- The status keeps the stored record, or it has a new one for a Job that was to be read. -/
def Recorded (sys : DaosSystem) (w : World) (st : DaosSystemStatus) : Prop :=
  st.lastFormat = sys.status.lastFormat ∨
    reads sys w = true ∧ st.lastFormat.map (·.hosts) = some (formatTarget sys w)

/-- A format Job is told what the system has to format, and a record says so. -/
def Justified (sys : DaosSystem) (w : World) : Call → Prop
  | .createJob spec =>
      isFormat spec.command.args = true → spec.command.args = formatArgs (formatTarget sys w)
  | .updateSystemStatus _ st => Recorded sys w st
  | _ => True

/-- All calls so far are justified. -/
def JustifiedLog (sys : DaosSystem) (w : World) (log : Log) : Prop :=
  ∀ x ∈ log, Justified sys w x.call

/-- What holds until the format gate. -/
structure Unjudged (sys : DaosSystem) (w : World) (t : Point Call World) : Prop where
  log : JustifiedLog sys w t.log
  nodes : t.world.nodes = w.nodes
  job : t.world.jobs.get (jobKey sys.name (namespaceOf sys) .format) =
    w.jobs.get (jobKey sys.name (namespaceOf sys) .format)

theorem Recorded.congr {st' : DaosSystemStatus} (h : Recorded sys w st)
    (hlast : st'.lastFormat = st.lastFormat) : Recorded sys w st' := by
  unfold Recorded at h ⊢
  rw [hlast]
  exact h

theorem JustifiedLog.next {c : Call} {f : Fault} (h : JustifiedLog sys w s.log)
    (hc : Justified sys w c) : JustifiedLog sys w (cluster.next s c f).log := by
  intro x hx
  rcases Handler.mem_next_log hx with hx | rfl
  · exact h x hx
  · exact hc

theorem justified_of_scope {ns : String} {S : Scope} {c : Call}
    (hc : SystemCall name ns S c) (hjobs : S.jobs .format = false) (hstatus : S.status = false) :
    Justified sys w c := by
  cases c with
  | createJob spec =>
      obtain ⟨kind, hkind, hspec⟩ := hc.of_createJob
      intro hformat
      rw [kind_of_isFormat hspec.runs hformat, hjobs] at hkind
      cases hkind
  | updateSystemStatus other st =>
      have hwrites := hc.of_status.2
      rw [hstatus] at hwrites
      cases hwrites
  | _ => trivial

theorem JustifiedLog.wp {α : Type} {ns : String} {S : Scope} {P : α → Prop} {q : Op α}
    (h : JustifiedLog sys w s.log) (hq : q.Obeys (SystemCall name ns S) P)
    (hjobs : S.jobs .format = false) (hstatus : S.status = false) :
    q.wp cluster rely s (fun a t => P a ∧ JustifiedLog sys w t.log)
      fun t => JustifiedLog sys w t.log :=
  hq.wp (I := fun t => JustifiedLog sys w t.log)
    (fun _ _ _ hc _ _ ht => ht.next (justified_of_scope hc hjobs hstatus)) h

theorem Unjudged.next {S : Scope} {c : Call} (h : Unjudged sys w s)
    (hc : SystemCall sys.name (namespaceOf sys) S c) (hjobs : S.jobs .format = false)
    (hstatus : S.status = false) (f : Fault) : Unjudged sys w (cluster.next s c f) where
  log := h.log.next (justified_of_scope hc hjobs hstatus)
  nodes := hc.surroundings.1.trans h.nodes
  job := by
    refine (hc.jobs_get fun k hk hkey => ?_).trans h.job
    rw [← (jobKey_inj hkey).2.2, hjobs] at hk
    cases hk

/-! ### The query path keeps the record -/

theorem lastFormat_readMembership (inp : FormatInput) (approved : Bool) (queried : Time)
    (env : Dmg.Envelope) (leader : Option Dmg.Envelope) (st : DaosSystemStatus) :
    (readMembership sys inp approved queried env leader st).status.lastFormat =
      st.lastFormat := by
  unfold readMembership
  split
  · split <;> rfl
  · split <;> rfl

theorem lastFormat_readQuery (inp : FormatInput) (approved : Bool) (now : Time)
    (res : Dmg.Result) (st : DaosSystemStatus) :
    (readQuery sys inp approved now res st).status.lastFormat = st.lastFormat := by
  unfold readQuery
  split
  · rfl
  · split
    · rfl
    · rfl
    · exact lastFormat_readMembership ..
    · exact lastFormat_readMembership ..

theorem obeys_queryPath_lastFormat (inp : FormatInput) (approved : Bool) (p : Pass) :
    (queryPath inp approved p).Obeys (fun _ => True) fun r =>
      r.2.status.lastFormat = p.status.lastFormat := by
  refine Prog.obeys_ask_bind trivial fun wait => ?_
  refine Prog.obeys_ite (fun _ => rfl) fun _ => ?_
  refine Prog.Obeys.bind (P := fun _ => True) ?_ fun res _ => ?_
  · exact (Dmg.obeys_run _).returns.mapError
  refine Prog.obeys_ite (fun _ => ?_) fun _ => ?_
  · simp only [Prog.obeys_ret]
    split <;> rfl
  · refine Prog.obeys_ask_bind trivial fun now => ?_
    have hobeys : (finishQuery (readQuery p.sys inp approved now res p.status) p.sys).Obeys
        (SystemCall p.sys.name inp.ns formatScope) _ :=
      obeys_finishQuery rfl rfl (formatMask_readQuery ..)
    refine hobeys.mono (fun _ _ => trivial) fun r hr => ?_
    rw [hr.2]
    exact lastFormat_readQuery ..

/-! ### The format path -/

theorem obeys_recordFormat_hosts (name ns : String) (only : List String) (res : Dmg.Result)
    (p : Pass) : (recordFormat only res p).Obeys (SystemCall name ns {}) fun r =>
      r.2.status.lastFormat.map (·.hosts) = some only := by
  refine Prog.obeys_ask_bind (.quiet rfl) fun now => ?_
  refine Prog.obeys_ite (fun _ => ?_) fun _ => ?_
  · exact (obeys_event _ _ _ _).bind fun _ _ => rfl
  · refine (obeys_event _ _ _ _).bind fun _ _ => ?_
    exact Prog.obeys_ask_bind (.clearHold _) fun _ => rfl

/-- The format path tells its Job the hosts it decided on, and records them for the Job it
reads. -/
theorem wp_formatPath_recorded {p : Pass} {inp : FormatInput} {only : List String}
    (hname : p.sys.name = sys.name) (hns : inp.ns = namespaceOf sys)
    (hwanted : formatApproved sys = true ∧ sys.status.pendingFormat = true)
    (honly : inp.serversAllReady = true → only = formatTarget sys w)
    (hlast : p.status.lastFormat = sys.status.lastFormat) (h : Unjudged sys w s) :
    (formatPath inp only p).wp cluster rely s
      (fun r t => JustifiedLog sys w t.log ∧ Recorded sys w r.2.status)
      fun t => JustifiedLog sys w t.log := by
  refine Prog.wp_ite (fun _ => ⟨h.log, Or.inl hlast⟩) fun hready => ?_
  obtain rfl := honly (by simpa using hready)
  have hkey : (jobSpec p.sys inp.ns .format (.dmg (formatArgs (formatTarget sys w)))).key =
      jobKey sys.name (namespaceOf sys) .format := by
    rw [← hname, ← hns]
    rfl
  refine Prog.wp_bind (A := fun res t => JustifiedLog sys w t.log ∧
    (res.done = true → reads sys w = true)) ?_ ?_
  · refine Prog.wp_mapError.mpr (Dmg.wp_run (I := Unjudged sys w)
      (fun c f t hc _ ht => ht.next (S := {}) (.quiet hc) rfl rfl f) h
      (fun t ht => ht.log) ?_ ?_ ?_)
    · intro t ht _ _
      have hlog : ∀ f, JustifiedLog sys w (cluster.next t (.createJob
          (jobSpec p.sys inp.ns .format (.dmg (formatArgs (formatTarget sys w))))) f).log :=
        fun f => ht.log.next fun _ => rfl
      exact Prog.wp_ask (fun _ => ⟨hlog _, by simp⟩) fun f _ _ _ => hlog f
    · intro t job ht _ _
      exact ⟨ht.log, by simp⟩
    · intro t job failure ht _ hjob hlive hfinished
      rw [hkey, h.job] at hjob
      have hfound : finishedFormat sys w = some job :=
        finishedFormat_eq_some.mpr ⟨hjob, hlive, by rw [hfinished]; rfl⟩
      have hlog : ∀ key f, JustifiedLog sys w (cluster.next t (.deleteJob key) f).log :=
        fun key f => ht.log.next trivial
      refine Prog.wp_ask (fun _ => ⟨hlog _ _, fun _ => ?_⟩) fun f _ _ _ => hlog _ f
      simp [reads, hwanted, hfound]
  · rintro res t ⟨hlog, hread⟩
    refine Prog.wp_ite (fun _ => ⟨hlog, Or.inl hlast⟩) fun hdone => ?_
    have hclear : (clearApproval p.sys).Obeys (SystemCall p.sys.name inp.ns
        { patches := fun _ => true }) _ := obeys_clearApproval rfl rfl
    refine Prog.wp_bind (hlog.wp hclear rfl rfl) ?_
    rintro sys' u ⟨-, hu⟩
    refine Prog.wp_mono (hu.wp (obeys_recordFormat_hosts p.sys.name inp.ns _ res _) rfl rfl) ?_
      fun _ h => h
    rintro r v ⟨hhosts, hv⟩
    exact ⟨hv, Or.inr ⟨hread (by simpa using hdone), hhosts⟩⟩

theorem wp_reconcileFormat_recorded {p : Pass} {inp : FormatInput}
    (hgate : Gate sys inp p s.world) (h : Unjudged sys w s)
    (hlast : p.status.lastFormat = sys.status.lastFormat) :
    (reconcileFormat inp p).wp cluster rely s
      (fun r t => JustifiedLog sys w t.log ∧ Recorded sys w r.2.status)
      fun t => JustifiedLog sys w t.log := by
  have hview : gateView p.sys = gateView sys := gateView_patched hgate.patched rfl
  have happroved : formatApproved p.sys = formatApproved sys := by
    have hann : p.sys.annotations.formatApproved = sys.annotations.formatApproved :=
      congrArg Prod.fst hview
    simp only [formatApproved, hann]
  have hexternal : external p.sys = external sys :=
    hgate.patched.proj (fun _ p _ => by cases p <;> rfl)
  refine Prog.wp_ite (fun _ => ⟨h.log, Or.inl hlast⟩) fun _ => ?_
  dsimp only
  cases hdecision : formatDecision (formatApproved p.sys && !external p.sys) p.status with
  | some only =>
      obtain ⟨⟨hyes, hhere⟩, hpending⟩ : (formatApproved p.sys = true ∧ external p.sys = false) ∧
          p.status.pendingFormat = true := by
        unfold formatDecision at hdecision
        split at hdecision
        · next hboth => simpa using hboth
        · cases hdecision
      have hrefuse : refuseExternalFormat p.sys = .ret p.sys := by
        simp [refuseExternalFormat, hhere]
      have hfields := hgate.carried
      have hpendingEq : p.status.pendingFormat = sys.status.pendingFormat := by
        have hmask := congrArg DaosSystemStatus.pendingFormat hfields
        exact hmask
      have hformattedEq : p.status.formatted = sys.status.formatted := by
        have hmask := congrArg DaosSystemStatus.formatted hfields
        exact hmask
      have hranksEq : p.status.ranks = sys.status.ranks := by
        have hmask := congrArg DaosSystemStatus.ranks hfields
        exact hmask
      rw [hrefuse]
      refine wp_formatPath_recorded hgate.patched.name hgate.ns
        ⟨happroved ▸ hyes, hpendingEq ▸ hpending⟩ ?_ hlast h
      intro hready
      refine only_eq_formatTarget hdecision hformattedEq ?_
      rw [hostsToFormat_congr h.nodes.symm]
      exact formatHosts_eq (hgate.hosts (hexternal ▸ hhere) hready) hranksEq
  | none =>
      have hscope : ∀ {α : Type} {P : α → Prop} {q : Op α} {t : Point Call World},
          q.Obeys (SystemCall p.sys.name inp.ns
            { jobs := fun k => k = .query, patches := fun _ => true }) P →
          JustifiedLog sys w t.log → q.wp cluster rely t
            (fun a u => P a ∧ JustifiedLog sys w u.log) fun u => JustifiedLog sys w u.log :=
        fun hq ht => ht.wp hq rfl rfl
      refine Prog.wp_bind (hscope (obeys_refuseExternalFormat rfl rfl) h.log) ?_
      rintro sys' t ⟨hsys', ht⟩
      refine Prog.wp_mono (Prog.wp_and_returns
        (hscope (obeys_queryPath (p := { p with sys := sys' }) hsys'.name rfl rfl rfl _) ht)
        (obeys_queryPath_lastFormat _ _ _)) ?_ fun _ h => h
      rintro r u ⟨⟨-, hu⟩, hsame⟩
      exact ⟨hu, Or.inl (hsame.trans hlast)⟩

/-- How a reconcile stands to the record, stage by stage. -/
def AtRecord (sys : DaosSystem) (w : World) : Stage → Pass → Point Call World → Prop
  | .entered, p, t | .gate, p, t =>
      Unjudged sys w t ∧ p.status.lastFormat = sys.status.lastFormat
  | _, p, t => JustifiedLog sys w t.log ∧ Recorded sys w p.status

theorem AtRecord.written {g : Stage} {p : Pass} {t : Point Call World} (h : AtRecord sys w g p t) :
    JustifiedLog sys w t.log ∧ Recorded sys w p.status := by
  cases g with
  | entered | gate => exact ⟨h.1.log, Or.inl h.2⟩
  | rankOp | engines | done => exact h

theorem record_stages : StageProof sys rely (Unjudged sys w) (fun t => JustifiedLog sys w t.log)
    (AtRecord sys w) :=
  { render := fun c f t hc _ _ ht => ht.next hc rfl rfl f
    stop := fun t ht => ht.log
    enter := fun p t hp ht => by
      have hlast := congrArg DaosSystemStatus.lastFormat hp.carried.status_eq
      exact ⟨ht, hlast⟩
    cond := fun g p st t hst ht => by
      have hlast : st.lastFormat = p.status.lastFormat := by
        have hmask := congrArg DaosSystemStatus.lastFormat hst
        exact hmask
      cases g with
      | entered | gate => exact ⟨ht.1, hlast.trans ht.2⟩
      | rankOp | engines | done => exact ⟨ht.1, ht.2.congr hlast⟩
    skip := fun p t _ ht => ht
    upgrade := fun rendered p t hp ht => by
      have hobeys := hp.carried.obeys_upgrade rendered
      refine Prog.wp_mono (hobeys.wp (I := Unjudged sys w)
        (fun c f u hc _ _ hu => hu.next hc rfl rfl f) ht.1) ?_ fun _ h => h.log
      rintro r u ⟨hadv, hu⟩
      have hlast := congrArg DaosSystemStatus.lastFormat hadv.status
      exact ⟨hu, Eq.trans hlast ht.2⟩
    format := fun inp p t hp ht => wp_reconcileFormat_recorded hp ht.1 ht.2
    rankOp := fun p t hp ht => by
      have hobeys := hp.obeys
      refine Prog.wp_mono (ht.1.wp hobeys rfl rfl) ?_ fun _ h => h
      rintro r u ⟨hadv, hu⟩
      have hlast := congrArg DaosSystemStatus.lastFormat hadv.status
      exact ⟨hu, ht.2.congr hlast⟩
    engines := fun p t hp ht => by
      have hobeys := hp.obeys_engines
      refine Prog.wp_mono (ht.1.wp hobeys rfl rfl) ?_ fun _ h => h
      rintro r u ⟨hadv, hu⟩
      have hlast := congrArg DaosSystemStatus.lastFormat hadv.status
      exact ⟨hu, ht.2.congr hlast⟩
    write := fun g p t requeue _ _ ht => by
      have hwritten := ht.written
      refine Prog.wp_bind (A := fun _ u => JustifiedLog sys w u.log) ?_ fun _ _ hu => hu
      exact Prog.wp_ask (fun _ => hwritten.1.next hwritten.2)
        fun f _ _ _ => hwritten.1.next hwritten.2 }

end Reconcile

/-- Every format Job and every record of a reconcile is justified by what it found. -/
theorem justified_of_mem {faults : List Fault}
    (hsys : stored w.systems name = some sys) {x : Entry Call World}
    (hx : x ∈ (operator.step w (.reconcileSystem name faults)).2) : Justified sys w x.call := by
  have hstart : ∀ f, JustifiedLog sys w (cluster.next ⟨w, []⟩ (.getSystem name) f).log := by
    intro f y hy
    rw [Handler.next_log, List.nil_append, List.mem_singleton] at hy
    rw [hy]
    trivial
  have hwp : (reconcile name).wp cluster (fun _ => True) ⟨w, []⟩
      (fun _ t => JustifiedLog sys w t.log) fun t => JustifiedLog sys w t.log := by
    refine System.wp_reconcile (fun f _ => hstart f) ?_
    intro sys' hsys' _ _
    obtain rfl : sys = sys' := Option.some.inj (hsys.symm.trans hsys')
    exact record_stages.wp_reconcileSystem ⟨hstart .none, rfl, rfl⟩
  exact Prog.exec_ends hwp faults (fun _ _ => trivial) x hx

/-! ## Steps -/

/-- The Job stands under its name and is not being deleted. -/
def holdsJob (key : ObjectKey) (uid : Nat) (w : World) : Bool :=
  (w.jobs.get key).any fun job => job.uid = uid && !job.deleting

/-- The steps since the Job was created, the newest first. -/
def stepsSince (key : ObjectKey) (uid : Nat) (past : List Step) : List Step :=
  past.takeWhile fun r => holdsJob key uid r.before

/-- The step that created the Job. -/
def madeBy (key : ObjectKey) (uid : Nat) (past : List Step) : Option Step :=
  (past.dropWhile fun r => holdsJob key uid r.before).head?

def approvedIn (name : String) (w : World) : Bool := (stored w.systems name).any formatApproved

def systemStatus (name : String) : Call → Option DaosSystemStatus
  | .updateSystemStatus other st => if other = name then some st else none
  | _ => none

/-- The record names the hosts the Job was told to format, and the approval has stood ever
since the Job was created. -/
def Describes (past : List Step) (sys : DaosSystem) (job : Job) (attempt : FormatAttempt) : Prop :=
  job.spec.command.args = formatArgs attempt.hosts ∧
    ∀ r ∈ stepsSince (jobKey sys.name (namespaceOf sys) .format) job.uid past,
      approvedIn sys.name r.before = true
  deriving Decidable

/-- A new record describes the Job whose result it reports. -/
def DescribesJob (past : List Step) (step : Step) : Prop :=
  ∀ name ∈ step.event.system, ∀ sys ∈ stored step.before.systems name, ∀ x ∈ step.obs,
    ∀ st ∈ systemStatus name x.call, st.lastFormat ≠ sys.status.lastFormat →
      ∀ attempt ∈ st.lastFormat, ∃ job ∈ finishedFormat sys step.before,
        Describes past sys job attempt
  deriving Decidable

/-- The system whose format a step approves. -/
def approves : Event → Option String
  | .change (.annotateSystem name .formatApproved value) =>
      if value = some "true" then some name else none
  | .change (.createSystem name annotations _) =>
      if annotations.formatApproved = some "true" then some name else none
  | _ => none

/-- No format Job of the system is around, but for one being deleted. -/
def noFormatJob (name : String) (w : World) : Bool :=
  w.jobs.entries.all fun (key, job) =>
    key.name ≠ name ++ JobKind.format.suffix || job.deleting

/-- An approval is not given while a format Job of an earlier one is around, and a Job is
read while there is as much to format as when it was created. -/
def KeepsTarget (past : List Step) (step : Step) : Prop :=
  (∀ name ∈ approves step.event, approvedIn name step.before = false →
    noFormatJob name step.before = true) ∧
  ∀ name ∈ step.event.system, ∀ sys ∈ stored step.before.systems name,
    reads sys step.before = true → ∀ job ∈ finishedFormat sys step.before,
      ∀ r ∈ madeBy (jobKey sys.name (namespaceOf sys) .format) job.uid past,
        ∀ old ∈ stored r.before.systems name,
          formatTarget old r.before = formatTarget sys step.before
  deriving Decidable

theorem holdsJob_of_get {key : ObjectKey}
    (h : w.jobs.get key = some job) (hlive : job.deleting = false) :
    holdsJob key job.uid w = true := by
  simp [holdsJob, h, hlive]

section Since

variable {key : ObjectKey} {uid : Nat} {r : Step} {past : List Step}

theorem stepsSince_of_held (h : holdsJob key uid r.before = true) :
    stepsSince key uid (r :: past) = r :: stepsSince key uid past :=
  List.takeWhile_cons_of_pos h

theorem stepsSince_of_new (h : r.before.jobs.get key = none) :
    stepsSince key uid (r :: past) = [] :=
  List.takeWhile_cons_of_neg (by simp [holdsJob, h])

theorem madeBy_of_held (h : holdsJob key uid r.before = true) :
    madeBy key uid (r :: past) = madeBy key uid past :=
  congrArg List.head? (List.dropWhile_cons_of_pos h)

theorem madeBy_of_new (h : r.before.jobs.get key = none) :
    madeBy key uid (r :: past) = some r :=
  congrArg List.head? (List.dropWhile_cons_of_neg (by simp [holdsJob, h]))

end Since

theorem noFormatJob_get {ns : String} (h : noFormatJob name w = true)
    (hjob : w.jobs.get (jobKey name ns .format) = some job) : job.deleting = true := by
  have hentry := List.all_eq_true.mp h _ (Table.mem_entries.mpr hjob)
  simpa [jobKey] using hentry

theorem approvedIn_call {c : Call} {f : Fault}
    (h : approvedIn name (cluster.respond c f w).2 = true) : approvedIn name w = true := by
  rw [Handler.respond_world] at h
  split at h
  · cases c with
    | patchSystem other p =>
        by_cases hother : other = name
        · subst hother
          simp only [cluster, perform, approvedIn, stored_modify_self] at h
          cases hsys : stored w.systems other with
          | none => simp [hsys] at h
          | some sys =>
              cases p with
              | removeFormatApproved =>
                  simp [hsys, SystemPatch.apply, formatApproved] at h
              | removeRankOp | removeCertsRenewApproved | resetUpgradeApproved =>
                  simpa [approvedIn, hsys, SystemPatch.apply, formatApproved] using h
        · simpa only [cluster, perform, approvedIn, stored_modify_of_ne (Ne.symm hother)] using h
    | updateSystemStatus other st =>
        by_cases hother : other = name
        · subst hother
          simp only [cluster, perform, approvedIn, stored_modify_self] at h
          cases hsys : stored w.systems other with
          | none => simp [hsys] at h
          | some sys => simpa [approvedIn, hsys, formatApproved] using h
        · simpa only [cluster, perform, approvedIn, stored_modify_of_ne (Ne.symm hother)] using h
    | createJob spec =>
        simp only [cluster, perform] at h
        split at h <;> exact h
    | deleteJob key =>
        simp only [cluster, perform] at h
        split at h <;> exact h
    | _ => exact h
  · exact h

/-- An approval that was not there is given by a human. -/
theorem approves_of_approvedIn
    (h : approvedIn name (operator.step w e).1 = true) (hold : approvedIn name w = false) :
    approves e = some name := by
  by_contra hne
  have hkept : approvedIn name (operator.step w e).1 = true → approvedIn name w = true := by
    refine step_keeps (I := fun v => approvedIn name v = true → approvedIn name w = true)
      (fun c f v _ hv hafter => hv (approvedIn_call hafter)) ?_ id
    rintro c rfl - hafter
    have hchange := systemChange w name c
    unfold approvedIn at hafter ⊢
    generalize stored w.systems name = before at hchange ⊢
    generalize stored (c.apply w).systems name = after at hchange hafter
    cases hchange with
    | same => exact hafter
    | create annotations spec =>
        have happroved : annotations.formatApproved = some "true" := by
          simpa [formatApproved] using hafter
        exact absurd (by simp [approves, happroved]) hne
    | edit spec s => exact hafter
    | annotate key value s =>
        cases key with
        | formatApproved =>
            have happroved : value = some "true" := by
              simpa [formatApproved, SystemAnnotations.set] using hafter
            exact absurd (by simp [approves, happroved]) hne
        | certsRenewApproved | rankOp | rankOpDiscardData => exact hafter
    | delete s => exact hafter
    | remove s _ => simp at hafter
  rw [hkept h] at hold
  cases hold

/-- Where a Job that stands after a step comes from: it stood before, or the step created it. -/
inductive Origin (w : World) (log : Log) (key : ObjectKey) (job : Job) : Prop where
  | stood (old : Job) (hold : w.jobs.get key = some old) (hlive : old.deleting = false)
      (huid : old.uid = job.uid) (hspec : old.spec = job.spec)
  | made (hnone : w.jobs.get key = none) (x : Entry Call World) (hx : x ∈ log)
      (hcall : x.call = .createJob job.spec) (hkey : job.spec.key = key)

/-- In a reconcile a name that was taken stays taken, so a Job is created where there was
none. -/
theorem origin_reconcile {key : ObjectKey}
    (he : ∀ c, e ≠ .change c) (h : (operator.step w e).1.jobs.get key = some job)
    (hlive : job.deleting = false) : Origin w (operator.step w e).2 key job := by
  refine ((step_replay (w := w) (e := e) (I := fun v => (v.jobs.get key = none →
    w.jobs.get key = none) ∧ ∀ job, v.jobs.get key = some job → job.deleting = false →
      Origin w (operator.step w e).2 key job) ⟨id, ?_⟩ ?_ fun c hc => absurd hc (he c)).1.2
        job h hlive)
  · intro job hjob hlive
    exact .stood job hjob hlive rfl rfl
  · intro x hx hbefore
    have hcall := jobCall x.before key x.call x.fault
    generalize hc : x.call = call at hcall ⊢
    generalize (cluster.respond call x.fault x.before).2.jobs.get key = after at hcall ⊢
    generalize x.before.jobs.get key = before at hcall hbefore
    cases hcall with
    | same => exact hbefore
    | created hkey hf =>
        refine ⟨by simp, ?_⟩
        rintro job ⟨⟩ -
        exact .made (hbefore.1 rfl) x hx hc hkey
    | marked job hf =>
        refine ⟨by simp, ?_⟩
        rintro job ⟨⟩ hlive
        cases hlive

theorem job_origin {key : ObjectKey}
    (h : (operator.step w e).1.jobs.get key = some job) (hlive : job.deleting = false) :
    Origin w (operator.step w e).2 key job := by
  by_cases he : ∃ c, e = .change c
  · obtain ⟨c, rfl⟩ := he
    have hchange := jobChange w key c
    rw [show (c.apply w).jobs.get key = some job from h] at hchange
    generalize hold : w.jobs.get key = before at hchange
    cases hchange with
    | same => exact .stood job hold hlive rfl rfl
    | progress conditions pods old => exact .stood old hold hlive rfl rfl
  · exact origin_reconcile (not_exists.mp he) h hlive

/-- A new format Job comes from a reconcile of its system, which tells it what to format. -/
theorem args_of_made (hw : WellNamed w) {ns : String}
    (h : (operator.step w e).1.jobs.get (jobKey name ns .format) = some job)
    (hnone : w.jobs.get (jobKey name ns .format) = none) {x : Entry Call World}
    (hx : x ∈ (operator.step w e).2) (hcall : x.call = .createJob job.spec)
    (hkey : job.spec.key = jobKey name ns .format) :
    ∃ sys, stored w.systems name = some sys ∧
      job.spec.command.args = formatArgs (formatTarget sys w) := by
  have hhere : ¬e.elsewhere name := by
    intro he
    rw [(step_elsewhere name e hw he).2 ns .format (by decide), hnone] at h
    cases h
  cases e with
  | change c => cases hx
  | reconcilePool other faults => exact absurd trivial hhere
  | reconcileContainer other faults => exact absurd trivial hhere
  | reconcileSystem other faults =>
      obtain rfl : other = name := not_ne_iff.mp hhere
      have hevent := eventCall_of_mem hx
      rw [hcall] at hevent
      cases hevent with
      | read hquiet => cases hquiet
      | system hsys hc =>
          obtain ⟨kind, -, hspec⟩ := hc.of_createJob
          obtain rfl : kind = .format := (jobKey_inj (hspec.key.symm.trans hkey)).2.2
          obtain ⟨only, honly⟩ := hspec.runs
          have hjustified := justified_of_mem hsys hx
          rw [hcall] at hjustified
          refine ⟨_, hsys, hjustified ?_⟩
          rw [honly]
          exact isFormat_formatArgs only

/-! ## Runs -/

/-- What is known of the format Jobs at a point of a run. -/
structure Attempts (past : List Step) (w : World) : Prop where
  named : WellNamed w
  /-- A standing approval has stood since the Job was created. -/
  approved : ∀ name ns job, w.jobs.get (jobKey name ns .format) = some job →
    job.deleting = false → approvedIn name w = true →
      ∀ r ∈ stepsSince (jobKey name ns .format) job.uid past, approvedIn name r.before = true
  /-- The Job was told what there was to format when it was created. -/
  maker : ∀ name ns job, w.jobs.get (jobKey name ns .format) = some job →
    job.deleting = false → ∃ r sys, madeBy (jobKey name ns .format) job.uid past = some r ∧
      stored r.before.systems name = some sys ∧
        job.spec.command.args = formatArgs (formatTarget sys r.before)

theorem attempts_empty : Attempts [] {} where
  named := wellNamed_empty
  approved := by simp
  maker := by simp

theorem describesJob_step {past : List Step} (h : Attempts past w)
    (hkeeps : KeepsTarget past (operator.record w e)) :
    DescribesJob past (operator.record w e) := by
  intro name hname sys hsys x hx st hst hnew attempt hattempt
  simp only [Machine.record_event, Machine.record_before, Machine.record_obs] at hname hsys hx ⊢
  obtain ⟨faults, rfl⟩ := Event.eq_of_system (e := e) hname
  have hjustified := justified_of_mem hsys hx
  have hsysname : sys.name = name := h.named.systems.stored hsys
  subst hsysname
  obtain ⟨other, hcall⟩ : ∃ other, x.call = .updateSystemStatus other st := by
    unfold systemStatus at hst
    split at hst
    · next other st' hcall =>
        split at hst
        · exact ⟨other, by rw [hcall, Option.some.inj hst]⟩
        · cases hst
    · cases hst
  rw [hcall] at hjustified
  rcases hjustified with hsame | ⟨hreads, hhosts⟩
  · exact absurd hsame hnew
  have hfinished : (finishedFormat sys w).isSome = true ∧ formatApproved sys = true := by
    simp only [reads, Bool.and_eq_true] at hreads
    exact ⟨hreads.2, hreads.1.1⟩
  obtain ⟨job, hjob⟩ := Option.isSome_iff_exists.mp hfinished.1
  obtain ⟨hget, hlive, -⟩ := finishedFormat_eq_some.mp hjob
  obtain ⟨r, old, hmade, hold, hargs⟩ := h.maker _ _ job hget hlive
  have hattempt : attempt.hosts = formatTarget sys w := by
    rw [Option.mem_def.mp hattempt] at hhosts
    exact Option.some.inj hhosts
  refine ⟨job, hjob, ?_, ?_⟩
  · rw [hattempt, hargs]
    exact congrArg formatArgs (hkeeps.2 _ rfl sys hsys hreads job hjob r hmade old hold)
  · refine h.approved _ _ job hget hlive ?_
    unfold approvedIn
    rw [Option.mem_def.mp hsys]
    exact hfinished.2

theorem attempts_step {past : List Step} (h : Attempts past w)
    (hkeeps : KeepsTarget past (operator.record w e)) :
    Attempts (operator.record w e :: past) (operator.step w e).1 where
  named := h.named.step e
  approved := by
    intro name ns job hget hlive happroved r hr
    cases job_origin hget hlive with
    | made hnone x hx hcall hkey =>
        rw [stepsSince_of_new hnone] at hr
        cases hr
    | stood old hold hliveOld huid hspec =>
        have hheld := holdsJob_of_get hold hliveOld
        rw [huid] at hheld
        rw [stepsSince_of_held hheld] at hr
        -- the approval stood before the step, or it would have been given over the Job
        have hbefore : approvedIn name w = true := by
          by_contra hno
          have hno : approvedIn name w = false := by simpa using hno
          have hfree := hkeeps.1 name (approves_of_approvedIn happroved hno) hno
          rw [noFormatJob_get hfree hold] at hliveOld
          cases hliveOld
        rcases List.mem_cons.mp hr with rfl | hr
        · exact hbefore
        · refine h.approved name ns old hold hliveOld hbefore r ?_
          rw [huid]
          exact hr
  maker := by
    intro name ns job hget hlive
    cases job_origin hget hlive with
    | made hnone x hx hcall hkey =>
        obtain ⟨sys, hsys, hargs⟩ := args_of_made h.named hget hnone hx hcall hkey
        exact ⟨operator.record w e, sys, madeBy_of_new hnone, hsys, hargs⟩
    | stood old hold hliveOld huid hspec =>
        obtain ⟨r, sys, hmade, hsys, hargs⟩ := h.maker name ns old hold hliveOld
        have hheld := holdsJob_of_get hold hliveOld
        rw [huid] at hheld hmade
        exact ⟨r, sys, (madeBy_of_held hheld).trans hmade, hsys, hspec ▸ hargs⟩

/-- In a run where no approval is given over an earlier format Job, and each Job is read while
there is as much to format as when it was created, every new record describes its Job. -/
theorem records_describe (events : List Event) (h : Along KeepsTarget [] (history events)) :
    Along DescribesJob [] (history events) :=
  Machine.along_induction (I := Attempts)
    (fun _ _ _ hpast hkeeps => ⟨describesJob_step hpast hkeeps, attempts_step hpast hkeeps⟩)
    attempts_empty events h

def formatJobSucceeds : Event :=
  .change (.jobProgress ⟨"daos-system", "s-dmg-format"⟩ [.complete true]
    [{ name := "format", created := 0, terminated := some (0, 0), log := "\x7b\x7d" }])

/-- A third node joins the selection, and its server becomes ready. -/
def nodeJoins : List Event :=
  [.change (.setNodes [{ name := "a" }, { name := "b" }, { name := "c" }]),
    .reconcileSystem "s" [], .change (.setReadyReplicas ⟨"daos-system", "s-server-c"⟩ 1)]

/-- One of two nodes is a member, and a human approves the format of the other; `meanwhile`
happens while the Job runs. -/
def extendedRun (meanwhile : List Event) : List Event :=
  [.change (.createSystem "s" {}
      { msReplicas := 1, allowInsecure := true
        engines := [{ fabricIface := "ib0", bdevList := ["0000:81:00.0"] }] }),
    .change (.setNodes [{ name := "a" }, { name := "b" }]), .reconcileSystem "s" [],
    .change (.setReadyReplicas ⟨"daos-system", "s-server-a"⟩ 1),
    .change (.setReadyReplicas ⟨"daos-system", "s-server-b"⟩ 1),
    jobAnswers ⟨"daos-system", "s-dmg-query"⟩
      "\x7b\"response\":\x7b\"members\":[\x7b\"addr\":\"a:1\",\"state\":\"joined\"\x7d]\x7d\x7d",
    .reconcileSystem "s" [], .change (.annotateSystem "s" .formatApproved (some "true")),
    .reconcileSystem "s" []] ++
    meanwhile ++ [formatJobSucceeds, .reconcileSystem "s" []]

/-- An approval is withdrawn while its Job runs, and another one is given. -/
def reapprovedRun : List Event :=
  approvedRun ++ [.reconcileSystem "s" [], .change (.annotateSystem "s" .formatApproved none),
    formatJobSucceeds, .change (.annotateSystem "s" .formatApproved (some "true")),
    .reconcileSystem "s" []]

def recordedHosts (events : List Event) : Option (List String) :=
  ((stored (final events).systems "s").bind (·.status.lastFormat)).map (·.hosts)

/-- The second node is formatted alone, and the record says so. -/
theorem records_describe_extendedRun : recordedHosts (extendedRun []) = some ["b"] ∧
    Along DescribesJob [] (history (extendedRun [])) := by
  have hrun : recordedHosts (extendedRun []) = some ["b"] ∧
      Along KeepsTarget [] (history (extendedRun [])) := by
    decide +kernel
  exact ⟨hrun.1, records_describe (extendedRun []) hrun.2⟩

/-- A record consumes an approval given after its Job was created, and a record names a node
that joined while the Job ran. -/
theorem records_of_other_formats :
    ¬Along DescribesJob [] (history reapprovedRun) ∧
      ¬Along DescribesJob [] (history (extendedRun nodeJoins)) :=
  ⟨by decide +kernel, by decide +kernel⟩

end DaosOperator
