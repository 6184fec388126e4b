import DaosOperator.Safety.Ready
import DaosOperator.Steps

/-!
# The condition `Formatted` and the field

The condition `Formatted` and the field `formatted` of a status are written apart from each
other.  They go together on every path of the format gate but one: a membership query that
is not answered in time sets the condition whatever the field says.
-/

namespace DaosOperator

open Effect
open DaosOperator.System

/-! ## The property -/

/-- A status whose condition says that the system is formatted says so in its field. -/
def System.Agrees (st : DaosSystemStatus) : Prop :=
  isStatusConditionTrue st.conditions .formatted = true → st.formatted = true

instance (st : DaosSystemStatus) : Decidable (Agrees st) :=
  inferInstanceAs (Decidable (_ → _))

/-- The step leaves no status whose condition and field disagree. -/
def FormattedAgrees (step : Step) : Prop :=
  ∀ name ∈ step.after.systems.keys, ∀ sys ∈ stored step.after.systems name, Agrees sys.status
  deriving Decidable

/-- The membership query was not answered in time. -/
def timedOut (res : Dmg.Result) : Bool :=
  match Dmg.parseAll res.output with
  | .ok (env :: _) => env.error.any fun e => Dmg.classify e = .timeout
  | _ => false

/-- Only the query of a system that is known to be formatted is not answered in time. -/
def AnsweredInTime (step : Step) : Prop :=
  ∀ name ∈ step.event.system, ∀ sys ∈ stored step.before.systems name,
    sys.status.formatted = false → ∀ res ∈ queryResult sys step.before, timedOut res = false
  deriving Decidable

namespace System

/-! ## What leaves both alone -/

/-- The condition and the field are the same. -/
structure SameFormatted (st st' : DaosSystemStatus) : Prop where
  condition : findCond st' .formatted = findCond st .formatted
  field : st'.formatted = st.formatted

theorem SameFormatted.trans {st st' st'' : DaosSystemStatus} (h : SameFormatted st st')
    (h' : SameFormatted st' st'') : SameFormatted st st'' :=
  ⟨h'.condition.trans h.condition, h'.field.trans h.field⟩

theorem SameFormatted.agrees {st st' : DaosSystemStatus} (h : SameFormatted st st')
    (hst : Agrees st) : Agrees st' := by
  have hcondition := h.condition
  unfold findCond at hcondition
  unfold Agrees isStatusConditionTrue
  rw [hcondition, h.field]
  exact hst

theorem sameFormatted_setCond (st : DaosSystemStatus) {t : ConditionType} (ht : t ≠ .formatted)
    (v : ConditionStatus) (reason msg : String) :
    SameFormatted st (setCond st t v reason msg) :=
  ⟨findCond_setCond_of_ne _ ht .., rfl⟩

theorem sameFormatted_setEnginesCondition (sys : DaosSystem) (st : DaosSystemStatus)
    (serversAllReady : Bool) : SameFormatted st (setEnginesCondition sys st serversAllReady) := by
  unfold setEnginesCondition
  extract_lets stale want ready short
  repeat' split
  all_goals exact sameFormatted_setCond _ (by decide) ..

theorem sameFormatted_noteEngineRestarts (st : DaosSystemStatus) (cands : List RankStatus)
    (tracks : Table Int EngineTrack) : SameFormatted st (noteEngineRestarts st cands tracks) := by
  unfold noteEngineRestarts
  extract_lets tries notes
  split
  · split
    · exact sameFormatted_setCond _ (by decide) ..
    · exact ⟨rfl, rfl⟩
  · exact ⟨rfl, rfl⟩

theorem sameFormatted_setReady (sys : DaosSystem) (serversAllReady : Bool)
    (st : DaosSystemStatus) : SameFormatted st (setReady sys serversAllReady st) := by
  unfold setReady
  extract_lets joined
  repeat' split
  all_goals exact sameFormatted_setCond _ (by decide) ..

theorem sameFormatted_setExternalReady (st : DaosSystemStatus) :
    SameFormatted st (setExternalReady st) := by
  unfold setExternalReady
  repeat' split
  all_goals exact sameFormatted_setCond _ (by decide) ..

theorem sameFormatted_duringUpgrade (p : Pass) :
    SameFormatted p.status p.duringUpgrade.status :=
  (sameFormatted_setCond p.status (by decide) ..).trans (sameFormatted_setCond _ (by decide) ..)

theorem sameFormatted_rankOp {st st' : DaosSystemStatus} (h : rankOpMask st' = rankOpMask st) :
    SameFormatted st st' := by
  rw [eq_of_rankOpMask h]
  exact ⟨rfl, rfl⟩

/-! ## The format gate -/

theorem agrees_of_not_true {st : DaosSystemStatus} {v : ConditionStatus} {reason msg : String}
    (hv : v ≠ .isTrue) : Agrees (setCond st .formatted v reason msg) := by
  intro h
  rw [isTrue_setCond_of_ne hv] at h
  cases h

theorem agrees_readMembership {st : DaosSystemStatus} {env : Dmg.Envelope}
    (h : st.formatted = true ∨ (env.error.any fun e => Dmg.classify e = .timeout) = false)
    {sys : DaosSystem} {inp : FormatInput} {approved : Bool} {queried : Time}
    {leader : Option Dmg.Envelope} :
    Agrees (readMembership sys inp approved queried env leader st).status := by
  unfold readMembership
  split
  · next e he =>
      split
      · exact agrees_of_not_true (by decide)
      · exact agrees_of_not_true (by decide)
      · next htimeout =>
          -- the condition is set whatever the field says
          rcases h with hformatted | htime
          · exact fun _ => hformatted
          · simp [he, htimeout] at htime
      · exact agrees_of_not_true (by decide)
  · split
    · exact agrees_of_not_true (by decide)
    · exact fun _ => rfl

theorem agrees_readQuery {st : DaosSystemStatus} {res : Dmg.Result} (hst : Agrees st)
    (h : st.formatted = true ∨ DaosOperator.timedOut res = false) {sys : DaosSystem}
    {inp : FormatInput} {approved : Bool} {now : Time} :
    Agrees (readQuery sys inp approved now res st).status := by
  unfold DaosOperator.timedOut at h
  unfold readQuery
  split
  · exact agrees_of_not_true (by decide)
  · split
    · exact agrees_of_not_true (by decide)
    · exact hst
    · next hparse =>
        rw [hparse] at h
        exact agrees_readMembership h
    · next env leader rest hparse =>
        rw [hparse] at h
        have hafter : (setMsCondition st leader).1.formatted = true ∨ _ := h
        exact agrees_readMembership hafter

theorem obeys_formatPath_agrees (inp : FormatInput) (only : List String) (p : Pass) :
    (formatPath inp only p).Obeys (fun _ => True) fun r => Agrees r.2.status := by
  refine (obeys_formatPath_ends inp only p).mono (fun _ h => h) ?_
  rintro r (⟨v, reason, msg, hv, hst⟩ | ⟨msg, now, hst⟩ | ⟨now, hst⟩) <;> rw [hst]
  · exact agrees_of_not_true hv
  · exact agrees_of_not_true (by decide)
  · exact fun _ => rfl

section Gate

variable {rely : Entry Call World → Prop} {s : Point Call World} {inp : FormatInput} {p : Pass}

theorem wp_queryPath_agrees (hst : Agrees p.status)
    (hquery : ∀ job failure, s.world.jobs.get (jobKey p.sys.name inp.ns .query) = some job →
      job.deleting = false → Dmg.jobFinished job.conditions = some failure →
        p.status.formatted = true ∨ DaosOperator.timedOut (Dmg.jobResult failure job) = false)
    (approved : Bool) :
    (queryPath inp approved p).wp cluster rely s (fun r _ => Agrees r.2.status) fun _ => True := by
  refine wp_queryPath_status approved hst (fun _ => agrees_of_not_true (by decide)) ?_
  intro job failure hjob hlive hfinished now
  exact agrees_readQuery hst (hquery job failure hjob hlive hfinished)

theorem wp_reconcileFormat_agrees (hst : Agrees p.status)
    (hquery : ∀ job failure, s.world.jobs.get (jobKey p.sys.name inp.ns .query) = some job →
      job.deleting = false → Dmg.jobFinished job.conditions = some failure →
        p.status.formatted = true ∨ DaosOperator.timedOut (Dmg.jobResult failure job) = false) :
    (reconcileFormat inp p).wp cluster rely s (fun r _ => Agrees r.2.status) fun _ => True := by
  refine Prog.wp_ite (fun _ => agrees_of_not_true (by decide)) fun _ => ?_
  have hrefuse : (refuseExternalFormat p.sys).Obeys
      (SystemCall p.sys.name inp.ns { patches := formatScope.patches }) _ :=
    obeys_refuseExternalFormat rfl rfl
  refine Prog.wp_bind (Prog.wp_mono (hrefuse.wp (I := fun t =>
    t.world.jobs.get (jobKey p.sys.name inp.ns .query) =
      s.world.jobs.get (jobKey p.sys.name inp.ns .query)) ?_ rfl) (fun _ _ h => h)
    fun _ _ => trivial) ?_
  · intro c f t hc _ _ ht
    exact (hc.jobs_get fun k hk _ => by cases hk).trans ht
  rintro sys t ⟨hpatched, hjobs⟩
  split
  · exact Prog.wp_mono ((obeys_formatPath_agrees inp _ _).wp (I := fun _ => True)
      (fun _ _ _ _ _ _ _ => trivial) trivial) (fun _ _ h => h.1) fun _ h => h
  · refine wp_queryPath_agrees (p := { p with sys }) hst ?_ _
    intro job failure hjob
    rw [hpatched.name, hjobs] at hjob
    exact hquery job failure hjob

end Gate

/-! ## A whole reconcile -/

section Reconcile

variable {rely : Entry Call World → Prop} {s : Point Call World} {sys : DaosSystem} {w₀ : World}

/-- What holds until the format gate is reached. -/
structure Unasked (sys : DaosSystem) (w₀ : World) (t : Point Call World) : Prop where
  stored : AllStored Agrees t.world
  query : t.world.jobs.get (jobKey sys.name (namespaceOf sys) .query) =
    w₀.jobs.get (jobKey sys.name (namespaceOf sys) .query)

theorem Unasked.next {S : Scope} {c : Call} (h : Unasked sys w₀ s)
    (hc : SystemCall sys.name (namespaceOf sys) S c) (hstatus : S.status = false)
    (hquery : S.jobs .query = false) (f : Fault) : Unasked sys w₀ (cluster.next s c f) where
  stored := h.stored.respond hc hstatus f
  query := by
    refine (hc.jobs_get fun k hk hkey => ?_).trans h.query
    rw [← (jobKey_inj hkey).2.2, hquery] at hk
    cases hk

theorem wp_updateStatus_agrees {p : Pass} (h : AllStored Agrees s.world) (hp : Agrees p.status)
    (requeue : Duration) :
    (updateStatus p requeue).wp cluster rely s (fun _ t => AllStored Agrees t.world)
      fun t => AllStored Agrees t.world := by
  refine Prog.wp_bind (A := fun _ t => AllStored Agrees t.world) ?_ fun _ _ ht => ht
  exact Prog.wp_ask (fun _ => h.write hp .none) fun f _ _ _ => h.write hp f

/-- What the query of `sys` may answer. -/
abbrev QueryAllows (sys : DaosSystem) (w₀ : World) : Prop :=
  sys.status.formatted = false → ∀ res ∈ queryResult sys w₀, DaosOperator.timedOut res = false

/-- A pass on `sys` whose status agrees, in a world whose statuses agree. -/
structure InAgreement (sys : DaosSystem) (p : Pass) (t : Point Call World) : Prop where
  name : p.sys.name = sys.name
  status : Agrees p.status
  stored : AllStored Agrees t.world

theorem wp_gate_agrees {inp : FormatInput} {p : Pass} (hs : Unasked sys w₀ s)
    (hallows : QueryAllows sys w₀) (hname : p.sys.name = sys.name)
    (hns : inp.ns = namespaceOf sys) (hsame : SameFormatted sys.status p.status)
    (hsys : Agrees sys.status) :
    (reconcileFormat inp p).wp cluster rely s (fun r t => InAgreement sys r.2 t)
      fun t => AllStored Agrees t.world := by
  have hgate : (reconcileFormat inp p).wp cluster rely s (fun r _ => Agrees r.2.status)
      fun _ => True := by
    refine wp_reconcileFormat_agrees (hsame.agrees hsys) ?_
    intro job failure hjob hlive hfinished
    rw [hname, hns, hs.query] at hjob
    by_cases hformatted : sys.status.formatted = true
    · exact Or.inl (hsame.field.trans hformatted)
    · refine Or.inr (hallows (by simpa using hformatted) _ ?_)
      simp [queryResult, hjob, hlive, hfinished]
  have hobeys := obeys_reconcileFormat hname hns
  refine Prog.wp_mono (Prog.wp_and (hs.stored.wp hobeys rfl) hgate) ?_ fun _ h => h.1
  rintro r t ⟨⟨hadv, ht⟩, hr⟩
  exact ⟨hadv.name.trans hname, hr, ht⟩

theorem wp_rankOp_agrees {p : Pass} (hs : InAgreement sys p s) :
    (reconcileRankOp (namespaceOf sys) p).wp cluster rely s (fun r t => InAgreement sys r.2 t)
      fun t => AllStored Agrees t.world := by
  have hobeys : (reconcileRankOp (namespaceOf sys) p).Obeys
      (SystemCall sys.name (namespaceOf sys) rankOpScope) _ := obeys_reconcileRankOp hs.name
  refine Prog.wp_mono (hs.stored.wp hobeys rfl) ?_ fun _ h => h
  rintro r t ⟨hadv, ht⟩
  exact ⟨hadv.name.trans hs.name, (sameFormatted_rankOp hadv.status).agrees hs.status, ht⟩

theorem outline_agrees (hallows : QueryAllows sys w₀) (hsys : Agrees sys.status) :
    Outline sys rely (Unasked sys w₀) fun t => AllStored Agrees t.world where
  render c f t hc _ _ ht := ht.next hc rfl rfl f
  stop _ ht := ht.stored
  early p t requeue hp ht := by
    have hfield := congrArg DaosSystemStatus.formatted hp.enters.carried.status_eq
    exact wp_updateStatus_agrees ht.stored
      (SameFormatted.agrees ⟨hp.formatted, hfield⟩ hsys) requeue
  elsewhere p t hp ht := by
    have hcarried := hp.enters.carried
    have hfield := congrArg DaosSystemStatus.formatted hcarried.status_eq
    refine Prog.wp_bind (wp_gate_agrees ht hallows (by rw [hcarried.sys_eq]) rfl
      ⟨hp.formatted, hfield⟩ hsys) ?_
    intro r u hu
    refine Prog.wp_bind (wp_rankOp_agrees hu) ?_
    intro r' v hv
    exact wp_updateStatus_agrees hv.stored
      ((sameFormatted_setExternalReady r'.2.status).agrees hv.status) _
  handOver r p t requeue hover ht := by
    have hobeys := hover.pass.carried.obeys_upgrade r.rendered
    refine Prog.wp_bind (Prog.wp_mono (Prog.wp_and_returns (hobeys.wp (I := Unasked sys w₀)
      (fun c f t hc _ _ ht => ht.next hc rfl rfl f) ht)
        (obeys_reconcileUpgrade_formatted r.rendered p)) (fun _ _ h => h) fun _ h => h.stored) ?_
    rintro ⟨inProgress, upRequeue, q⟩ u ⟨⟨hadv, hu⟩, hcond⟩
    have hgate := HandsOver.atGate hover hadv hcond
    have hsame : SameFormatted sys.status q.status := by
      have hfield := congrArg DaosSystemStatus.formatted hgate.report
      exact ⟨hgate.formatted, hfield⟩
    refine Prog.wp_ite (fun _ => ?_) fun _ => ?_
    · exact wp_updateStatus_agrees hu.stored
        ((sameFormatted_duringUpgrade q).agrees (hsame.agrees hsys)) _
    refine Prog.wp_bind (wp_gate_agrees hu hallows hgate.patched.name rfl hsame hsys) ?_
    rintro ⟨fmtRequeue, q₁⟩ v hv
    refine Prog.wp_bind (wp_rankOp_agrees hv) ?_
    rintro ⟨rankRequeue, q'⟩ v ⟨hname, hq', hv⟩
    let ready := serverEnabled p.sys && 0 < r.rendered && r.serversNotReady.isEmpty
    let p' : Pass := { q' with status := setEnginesCondition q'.sys q'.status ready }
    have hrestart : (reconcileEngineRestart (namespaceOf sys) p').Obeys
        (SystemCall sys.name (namespaceOf sys) enginesScope) _ :=
      obeys_reconcileEngineRestart (p := p') hname
    refine Prog.wp_bind (Prog.wp_and_returns (hv.wp hrestart rfl)
      (obeys_reconcileEngineRestart_noted p')) ?_
    rintro ⟨restartRequeue, q''⟩ v ⟨⟨-, hv⟩, -, cands, tracks, hnoted⟩
    have hend : SameFormatted q'.status q''.status := by
      rw [show q''.status = _ from hnoted]
      exact (sameFormatted_setEnginesCondition ..).trans (sameFormatted_noteEngineRestarts ..)
    exact wp_updateStatus_agrees hv ((hend.trans (sameFormatted_setReady ..)).agrees hq') _

end Reconcile

theorem agrees_step {w : World} {e : Event} (h : AllStored Agrees w)
    (htime : AnsweredInTime (operator.record w e)) :
    AllStored Agrees (operator.step w e).1 := by
  cases e with
  | change c => exact h.apply (fun hfalse => by cases hfalse) c
  | reconcileSystem name faults =>
      have hwp : (reconcile name).wp cluster (fun _ => True) ⟨w, []⟩
          (fun _ t => AllStored Agrees t.world) fun t => AllStored Agrees t.world := by
        have hread : ∀ f, AllStored Agrees (cluster.next ⟨w, []⟩ (.getSystem name) f).world := by
          intro f
          rw [Handler.next_world, respond_quiet rfl]
          exact h
        refine System.wp_reconcile (fun f _ => hread f) ?_
        intro sys hsys _ _
        have houtline : Outline sys (fun _ => True) (Unasked sys w) _ :=
          outline_agrees (htime name rfl sys hsys) (h name sys hsys)
        refine houtline.wp_reconcileSystem ⟨hread .none, ?_⟩
        rw [Handler.next_world, respond_quiet rfl]
      exact Prog.exec_ends hwp faults fun _ _ => trivial
  | reconcilePool name faults =>
      exact step_keeps (fun _ _ _ hc hv => hv.congr (hc.systemSide rfl)) (by rintro c ⟨⟩) h
  | reconcileContainer key faults =>
      exact step_keeps (fun _ _ _ hc hv => hv.congr (hc.systemSide rfl)) (by rintro c ⟨⟩) h

end System

/-! ## Every run -/

/-- Where only formatted systems do not answer in time, the condition and the field agree. -/
theorem formatted_agrees (events : List Event)
    (htime : ∀ step ∈ history events, AnsweredInTime step) :
    ∀ step ∈ history events, FormattedAgrees step := by
  refine Machine.steps_induction (I := AllStored Agrees) (by simp [AllStored, stored]) ?_ events
    htime
  intro w e h htime
  have hafter := agrees_step h htime
  exact ⟨fun name _ sys hsys => hafter name sys hsys, hafter⟩

/-- A system that is run elsewhere is queried once for each of these answers. -/
def systemAnswers (outputs : List String) : List Event :=
  [.change (.createSystem "s" {}
      { externalMsReplicas := ["m"], allowInsecure := true, msReplicas := 1 }),
    .change (.setNodes [{ name := "a" }])] ++
  outputs.flatMap fun output =>
    [.change (.jobRemoved ⟨"daos-system", "s-dmg-query"⟩), .change (.tick 3600),
      .reconcileSystem "s" [], jobAnswers ⟨"daos-system", "s-dmg-query"⟩ output,
      .reconcileSystem "s" []]

def noAnswer : String := Dmg.timeoutEnvelope membershipQueryTimeout

/-- A system that answered before does not answer in time. -/
theorem formatted_agrees_later :
    ((stored (final (systemAnswers [joinedOnA, noAnswer])).systems "s").any fun sys =>
        isStatusConditionTrue sys.status.conditions .formatted) ∧
      ∀ step ∈ history (systemAnswers [joinedOnA, noAnswer]), FormattedAgrees step := by
  have hrun : ((stored (final (systemAnswers [joinedOnA, noAnswer])).systems "s").any fun sys =>
      isStatusConditionTrue sys.status.conditions .formatted) ∧
        ∀ step ∈ history (systemAnswers [joinedOnA, noAnswer]), AnsweredInTime step := by
    decide +kernel
  exact ⟨hrun.1, formatted_agrees (systemAnswers [joinedOnA, noAnswer]) hrun.2⟩

/-- The first query is not answered in time: the system counts as formatted in the condition. -/
theorem formatted_disagrees_first :
    ¬∀ step ∈ history (systemAnswers [noAnswer]), FormattedAgrees step := by
  decide +kernel

end DaosOperator
