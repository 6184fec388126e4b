import DaosOperator.Safety.RankRequests
import DaosOperator.Safety.RestartJobs

/-!
# Waiting for the result of a rank operation

The plugin writes its request as an annotation and looks at the system until the last record is
a finished one of the operation and the ranks that it asked for.  The operator records the ranks
as it parsed them, or none at all when it rejects the request, and the times have the precision
of a second.
-/

namespace DaosOperator.Plugin

open Effect
open DaosOperator.System

/-! ## The request and the wait -/

/-- A request of `rankOp`. -/
structure RankRequest where
  name : String
  op : String
  ranks : String
  discard : Bool := false

/-- How a wait ends. -/
inductive Ending where
  | notFound
  /-- The result is this record. -/
  | reported (lr : RankOpStatus)
  | stillRunning
  deriving DecidableEq

namespace RankRequest

/-- The value of the annotation. -/
def text (r : RankRequest) : String := r.op ++ ":" ++ r.ranks

/-- The patch of `rankOp`, which sets both annotations in one write. -/
def write (r : RankRequest) (w : World) : World :=
  operator.final w
    [.change (.annotateSystem r.name .rankOp (some r.text)),
      .change (.annotateSystem r.name .rankOpDiscardData
        (if r.discard then some r.ranks else none))]

/-- The record is taken for the result of a request made at `asked`. -/
def answeredBy (r : RankRequest) (asked : Time) (lr : RankOpStatus) : Bool :=
  lr.op = r.op && lr.ranks = r.ranks && lr.finishedAt.any (asked ≤ ·)

/-- One look of `waitRankOp` at the system. -/
def look (r : RankRequest) (asked : Time) (w : World) : Option Ending :=
  match stored w.systems r.name with
  | none => some .notFound
  | some sys =>
      match sys.status.lastRankOp with
      | none => none
      | some lr => if r.answeredBy asked lr then some (.reported lr) else none

/-- `waitRankOp`: the looks up to the deadline, with what happens before each of them, and the
first look behind it. -/
def waitRankOp (r : RankRequest) (asked : Time) : World → List (List Event) → List Event → Ending
  | w, [], last => (r.look asked (operator.final w last)).getD .stillRunning
  | w, gap :: gaps, last =>
      match r.look asked (operator.final w gap) with
      | some ending => ending
      | none => r.waitRankOp asked (operator.final w gap) gaps last

end RankRequest

/-- What `waitRankOp` returns or prints; `wait` is the time it was given. -/
def Ending.outcome (r : RankRequest) (wait : String) : Ending → Except String String
  | .notFound => .error ("daossystems.daos.gluesys.com " ++ Text.quote r.name ++ " not found")
  | .reported lr =>
      if lr.succeeded then .ok ("done: " ++ lr.message)
      else .error ("rank " ++ r.op ++ " --ranks=" ++ r.ranks ++ " failed: " ++ lr.message)
  | .stillRunning =>
      .ok ("still running after " ++ wait ++
        "; the result will appear in: kubectl daos system status " ++ r.name)

/-! ## Its own result -/

def Records (r : RankRequest) (step : Step) (lr : RankOpStatus) : Prop :=
  step.event.system = some r.name ∧ asks step.before r.name = some r.text ∧
    Finishes r.name r.text step ∧ rankRecord step.after r.name = some lr
  deriving Decidable

structure ReportsOwn (r : RankRequest) (asked : Time) (w : World) (gaps : List (List Event))
    (last : List Event) : Prop where
  /-- The record that it reports was written for the request, before the look that found it. -/
  own : ∀ lr, r.waitRankOp asked (r.write w) gaps last = .reported lr →
    ∃ seen, seen <+: gaps ++ [last] ∧
      r.look asked (operator.final (r.write w) seen.flatten) = some (.reported lr) ∧
      ∃ step ∈ operator.history (r.write w) seen.flatten, Records r step lr
  /-- A result recorded within the wait decides whether it fails. -/
  outcome : ∀ step ∈ operator.history (r.write w) (gaps.flatten ++ last), ∀ lr,
    Records r step lr → ∀ wait,
      ((r.waitRankOp asked (r.write w) gaps last).outcome r wait).isOk = lr.succeeded

/-- Nobody else writes the request or removes the system. -/
def leavesRequest (name : String) : Event → Bool
  | .change (.annotateSystem other .rankOp _) => other ≠ name
  | .change (.removeSystem other) => other ≠ name
  | _ => true

/-- Every call is answered, and the request is left to the operator. -/
structure Undisturbed (r : RankRequest) (step : Step) : Prop where
  answered : CallsAnswered [] step
  left : leavesRequest r.name step.event = true

instance (r : RankRequest) (step : Step) : Decidable (Undisturbed r step) :=
  decidable_of_iff (CallsAnswered [] step ∧ leavesRequest r.name step.event = true)
    ⟨fun h => ⟨h.1, h.2⟩, fun h => ⟨h.answered, h.left⟩⟩

/-! ## What a run keeps -/

theorem clock_le_step (w : World) (e : Event) : w.clock ≤ (operator.step w e).1.clock := by
  refine step_keeps (I := fun v => w.clock ≤ v.clock) ?_ ?_ (Nat.le_refl _)
  · intro c f v _ hv
    rw [Handler.respond_world]
    split
    · rw [show cluster.perform = perform from rfl, perform_clock]
      exact hv
    · exact hv
  · intro c _ hw
    exact clock_le_apply w c

section Wait

variable {r : RankRequest} {asked : Time} {w : World} {e : Event} {result : Option RankOpStatus}

/-- An event that is no reconcile of the system keeps the request and the last record. -/
theorem aside_keeps (hw : WellNamed w) (he : e.system ≠ some r.name)
    (hleft : leavesRequest r.name e = true) (hpresent : (stored w.systems r.name).isSome = true) :
    (stored (operator.step w e).1.systems r.name).isSome = true ∧
      asks (operator.step w e).1 r.name = asks w r.name ∧
      rankRecord (operator.step w e).1 r.name = rankRecord w r.name := by
  by_cases hchange : ∃ c, e = .change c
  · obtain ⟨c, rfl⟩ := hchange
    have hsystem := systemChange w r.name c
    change (stored (c.apply w).systems r.name).isSome = true ∧ asks (c.apply w) r.name = _ ∧
      rankRecord (c.apply w) r.name = _
    unfold asks rankRecord
    generalize stored w.systems r.name = before at hsystem hpresent ⊢
    generalize stored (c.apply w).systems r.name = after at hsystem ⊢
    cases hsystem with
    | same => exact ⟨hpresent, rfl, rfl⟩
    | create => cases hpresent
    | edit | delete => exact ⟨rfl, rfl, rfl⟩
    | annotate key value s =>
        cases key with
        | rankOp => simp [leavesRequest] at hleft
        | formatApproved | certsRenewApproved | rankOpDiscardData => exact ⟨rfl, rfl, rfl⟩
    | remove => simp [leavesRequest] at hleft
  · have helsewhere : e.elsewhere r.name := by
      cases e with
      | reconcileSystem other faults =>
          intro hother
          exact he (congrArg some hother)
      | reconcilePool _ _ | reconcileContainer _ _ => trivial
      | change c => exact absurd ⟨c, rfl⟩ hchange
    have hstored : stored (operator.step w e).1.systems r.name = stored w.systems r.name := by
      simp only [stored, (step_elsewhere r.name e hw helsewhere).1]
    simp only [asks, rankRecord, hstored, hpresent, and_self]

/-- How far the request is: it waits, and no record could be taken for its result; or it has
its result. -/
inductive Progress (r : RankRequest) (asked : Time) (w : World) : Option RankOpStatus → Prop where
  | waiting (h : asks w r.name = some r.text)
      (hrecord : ∀ lr ∈ rankRecord w r.name, r.answeredBy asked lr = false) :
      Progress r asked w none
  | recorded {lr : RankOpStatus} (h : asks w r.name = none)
      (hrecord : rankRecord w r.name = some lr) (hop : (lr.op, lr.ranks) = requestOf r.text)
      (hfinished : lr.finishedAt.any (asked ≤ ·) = true) : Progress r asked w (some lr)

/-- What a run keeps while the plugin waits. -/
structure Awaits (r : RankRequest) (asked : Time) (w : World) (result : Option RankOpStatus) :
    Prop where
  named : WellNamed w
  narrow : NarrowWorld w
  clock : asked ≤ w.clock
  present : (stored w.systems r.name).isSome = true
  progress : Progress r asked w result

theorem Progress.congr {v : World} (h : Progress r asked w result)
    (hasks : asks v r.name = asks w r.name)
    (hrecord : rankRecord v r.name = rankRecord w r.name) : Progress r asked v result := by
  cases h with
  | waiting h hold => exact .waiting (hasks.trans h) (hrecord ▸ hold)
  | recorded h hold hop hfinished =>
      exact .recorded (hasks.trans h) (hrecord.trans hold) hop hfinished

theorem answeredBy_unfinished {lr : RankOpStatus} (h : lr.finishedAt = none) :
    r.answeredBy asked lr = false := by
  simp [RankRequest.answeredBy, h]

theorem not_records {step : Step} {lr : RankOpStatus} (h : asks step.after r.name = some r.text) :
    ¬ Records r step lr := by
  rintro ⟨-, -, ⟨sys, hsys, hnone, -⟩, -⟩
  rw [asks, show stored step.after.systems r.name = some sys from hsys, Option.bind_some,
    hnone] at h
  cases h

/-- A reconcile of the system goes on with the request, or finishes it. -/
theorem Awaits.own (h : Awaits r asked w result) {faults : List Fault}
    (hcalls : CallsAnswered [] (operator.record w (.reconcileSystem r.name faults))) :
    (stored (operator.step w (.reconcileSystem r.name faults)).1.systems r.name).isSome = true ∧
    ∃ result', Progress r asked (operator.step w (.reconcileSystem r.name faults)).1 result' ∧
      ∀ lr, result' = some lr ↔ result = some lr ∨
        Records r (operator.record w (.reconcileSystem r.name faults)) lr := by
  obtain ⟨sys, hsys⟩ := Option.isSome_iff_exists.1 h.present
  obtain ⟨sys', hown⟩ := ownStep h.named h.narrow hcalls hsys
  refine ⟨by rw [hown.after]; rfl, ?_⟩
  have hbefore : asks w r.name = sys.annotations.rankOp := by simp [asks, hsys]
  have hlast : rankRecord w r.name = sys.status.lastRankOp := by simp [rankRecord, hsys]
  have hafter := hown.asks_after
  have hrecord := hown.record_after
  have hname : sys.name = r.name := h.named.systems.stored hsys
  have hrequest := hown.request hname
  have hhandled := hown.handled
  -- the annotation is the one of the ledger
  have hasks {value discard : Option String} (hvalue : (ledger sys ⟨(operator.step w
      (.reconcileSystem r.name faults)).1, (operator.step w
        (.reconcileSystem r.name faults)).2⟩).request = some (value, discard)) :
      asks (operator.step w (.reconcileSystem r.name faults)).1 r.name = value := by
    rw [hrequest] at hvalue
    exact hafter.trans (congrArg Prod.fst (Option.some.inj hvalue))
  clear hrequest hafter
  generalize hstatus : sys'.status.lastRankOp = record at hhandled hrecord
  cases h.progress with
  | recorded hnone hold hop hfinished =>
      rw [hbefore] at hnone
      cases hhandled with
      | untouched hsame =>
          refine ⟨_, h.progress.congr ((hasks hsame.request).trans hbefore.symm)
            (hrecord.trans hlast.symm), fun lr => ⟨Or.inl, ?_⟩⟩
          rintro (hlr | ⟨-, hasked, -⟩)
          · exact hlr
          · have hasked : asks w r.name = some r.text := hasked
            rw [hbefore, hnone] at hasked
            cases hasked
      | waits hreq _ _ | sends hreq _ _ _ _ _ _ _ | retries hreq _ _ _ _ _ _ _
      | finishes hreq _ _ _ _ =>
          rw [hnone] at hreq
          cases hreq
  | waiting hasked hold =>
      have hgoes (hstays : asks (operator.step w (.reconcileSystem r.name faults)).1 r.name =
          sys.annotations.rankOp) (hopen : ∀ lr ∈ record, r.answeredBy asked lr = false) :
          ∃ result', Progress r asked (operator.step w (.reconcileSystem r.name faults)).1 result' ∧
            ∀ lr, result' = some lr ↔ none = some lr ∨
              Records r (operator.record w (.reconcileSystem r.name faults)) lr := by
        rw [← hbefore, hasked] at hstays
        refine ⟨none, .waiting hstays (by rwa [hrecord]), fun lr => ⟨Or.inl, ?_⟩⟩
        rintro (hlr | hrecords)
        · exact hlr
        · exact absurd hrecords (not_records hstays)
      have hrunning {op ranks : String} :
          ∀ lr ∈ whileRunning sys.status.lastRankOp w.clock op ranks,
            r.answeredBy asked lr = false := by
        intro lr hlr
        unfold whileRunning at hlr
        split at hlr
        · exact hold lr (hlast ▸ hlr)
        · cases hlr
          exact answeredBy_unfinished rfl
      cases hhandled with
      | untouched hsame => exact hgoes (hasks hsame.request) (hlast ▸ hold)
      | waits _ _ hsame => exact hgoes (hasks hsame.request) hrunning
      | sends _ _ _ _ _ _ _ hsame => exact hgoes (hasks hsame) hrunning
      | retries _ _ _ _ _ _ _ hsame =>
          refine hgoes (hasks hsame) ?_
          rintro lr ⟨⟩
          exact answeredBy_unfinished rfl
      | @finishes _ lr hreq hop hfinished _ hgone =>
          rw [hbefore, hreq] at hasked
          cases hasked
          have hfinishes := hown.finishes hname hstatus hop (by rw [hfinished]; rfl) hgone
          refine ⟨some lr, .recorded (hasks hgone) hrecord hop ?_, fun lr' => ⟨?_, ?_⟩⟩
          · rw [hfinished]
            exact decide_eq_true h.clock
          · rintro ⟨⟩
            exact Or.inr ⟨rfl, hbefore.trans hreq, hfinishes, hrecord⟩
          · rintro (⟨⟨⟩⟩ | ⟨-, -, -, hlr⟩)
            exact hrecord.symm.trans hlr

theorem Awaits.step (h : Awaits r asked w result) (hund : Undisturbed r (operator.record w e)) :
    ∃ result', Awaits r asked (operator.step w e).1 result' ∧
      ∀ lr, result' = some lr ↔ result = some lr ∨ Records r (operator.record w e) lr := by
  have hclock : asked ≤ (operator.step w e).1.clock := h.clock.trans (clock_le_step w e)
  by_cases he : e.system = some r.name
  · obtain ⟨faults, rfl⟩ := Event.eq_of_system (e := e) he
    obtain ⟨hpresent, result', hprogress, hresult⟩ := h.own hund.answered
    exact ⟨result', ⟨h.named.step _, h.narrow.step _, hclock, hpresent, hprogress⟩, hresult⟩
  · obtain ⟨hpresent, hasks, hrecord⟩ := aside_keeps h.named he hund.left h.present
    refine ⟨result, ⟨h.named.step _, h.narrow.step _, hclock, hpresent,
      h.progress.congr hasks hrecord⟩, fun lr => ⟨Or.inl, ?_⟩⟩
    rintro (hold | ⟨hsystem, -⟩)
    · exact hold
    · exact absurd hsystem he

theorem Awaits.run (h : Awaits r asked w result) {events : List Event}
    (hund : ∀ step ∈ operator.history w events, Undisturbed r step) :
    ∃ result', Awaits r asked (operator.final w events) result' ∧
      ∀ lr, result' = some lr ↔
        result = some lr ∨ ∃ step ∈ operator.history w events, Records r step lr := by
  induction events generalizing w result with
  | nil => exact ⟨result, h, fun lr => by simp [Machine.history]⟩
  | cons e events ih =>
      obtain ⟨middle, hmiddle, hfirst⟩ := h.step (hund _ List.mem_cons_self)
      obtain ⟨result', hresult, hrest⟩ :=
        ih hmiddle fun step hstep => hund step (List.mem_cons_of_mem _ hstep)
      refine ⟨result', hresult, fun lr => ?_⟩
      rw [hrest, hfirst, Machine.history]
      simp [or_assoc]

/-! ## What the looks find -/

theorem look_present (h : (stored w.systems r.name).isSome = true) :
    r.look asked w = ((rankRecord w r.name).filter (r.answeredBy asked)).map .reported := by
  obtain ⟨sys, hsys⟩ := Option.isSome_iff_exists.1 h
  simp only [RankRequest.look, rankRecord, hsys, Option.bind_some]
  cases sys.status.lastRankOp with
  | none => rfl
  | some lr =>
      cases hanswered : r.answeredBy asked lr with
      | true => simp [hanswered]
      | false => simp [hanswered]

/-- The result is found where it is recorded as it was asked for. -/
theorem look_eq (h : Awaits r asked w result) (hexact : requestOf r.text = (r.op, r.ranks)) :
    r.look asked w = result.map .reported := by
  rw [look_present h.present]
  cases h.progress with
  | waiting _ hrecord =>
      rw [Option.filter_eq_none_iff.2 fun lr hlr => by simp [hrecord lr hlr]]
  | recorded _ hrecord hop hfinished =>
      rw [hexact, Prod.mk.injEq] at hop
      rw [hrecord, Option.filter_some,
        if_pos (by simp [RankRequest.answeredBy, hop.1, hop.2, hfinished])]

/-- A result that is recorded as something else is never found. -/
theorem look_eq_none (h : Awaits r asked w result)
    (hother : requestOf r.text ≠ (r.op, r.ranks)) : r.look asked w = none := by
  rw [look_present h.present]
  cases h.progress with
  | waiting _ hrecord =>
      rw [Option.filter_eq_none_iff.2 fun lr hlr => by simp [hrecord lr hlr]]
      rfl
  | @recorded lr _ hrecord hop _ =>
      have hne : ¬ r.answeredBy asked lr = true := by
        intro hanswered
        simp only [RankRequest.answeredBy, Bool.and_eq_true, decide_eq_true_eq] at hanswered
        exact hother (by rw [← hop, hanswered.1.1, hanswered.1.2])
      rw [hrecord, Option.filter_some, if_neg hne]
      rfl

section Looks

variable {gaps : List (List Event)} {last : List Event}

theorem undisturbed_append {events rest : List Event}
    (h : ∀ step ∈ operator.history w (events ++ rest), Undisturbed r step) :
    (∀ step ∈ operator.history w events, Undisturbed r step) ∧
      ∀ step ∈ operator.history (operator.final w events) rest, Undisturbed r step := by
  rw [Machine.history_append] at h
  exact ⟨fun step hstep => h step (List.mem_append_left _ hstep),
    fun step hstep => h step (List.mem_append_right _ hstep)⟩

/-- The wait ends with the result of the request, if there is one by then. -/
theorem waitRankOp_eq (h : Awaits r asked w result) (hexact : requestOf r.text = (r.op, r.ranks))
    (hund : ∀ step ∈ operator.history w (gaps.flatten ++ last), Undisturbed r step) :
    ∃ result', (∀ lr, result' = some lr ↔ result = some lr ∨
        ∃ step ∈ operator.history w (gaps.flatten ++ last), Records r step lr) ∧
      r.waitRankOp asked w gaps last = (result'.map .reported).getD .stillRunning := by
  induction gaps generalizing w result with
  | nil =>
      obtain ⟨result', hafter, hresult⟩ := h.run hund
      refine ⟨result', hresult, ?_⟩
      rw [RankRequest.waitRankOp, ← look_eq hafter hexact]
      rfl
  | cons gap gaps ih =>
      rw [List.flatten_cons, List.append_assoc] at hund ⊢
      obtain ⟨hgap, hrest⟩ := undisturbed_append hund
      obtain ⟨middle, hmiddle, hfirst⟩ := h.run hgap
      obtain ⟨result', hresult, hwait⟩ := ih hmiddle hrest
      refine ⟨result', fun lr => ?_, ?_⟩
      · rw [hresult, hfirst, Machine.history_append w gap]
        simp only [List.mem_append, or_assoc, or_and_right, exists_or]
      · rw [RankRequest.waitRankOp, look_eq hmiddle hexact]
        cases middle with
        | none => exact hwait
        | some lr =>
            rw [(hresult lr).2 (Or.inl rfl)]
            rfl

/-- Where the operator records the request as something else, its result is never reported. -/
theorem unmatched_stillRunning (h : Awaits r asked w result)
    (hother : requestOf r.text ≠ (r.op, r.ranks))
    (hund : ∀ step ∈ operator.history w (gaps.flatten ++ last), Undisturbed r step) :
    r.waitRankOp asked w gaps last = .stillRunning := by
  induction gaps generalizing w result with
  | nil =>
      rw [List.flatten_nil, List.nil_append] at hund
      obtain ⟨result', hafter, -⟩ := h.run hund
      rw [RankRequest.waitRankOp, look_eq_none hafter hother]
      rfl
  | cons gap gaps ih =>
      rw [List.flatten_cons, List.append_assoc] at hund
      obtain ⟨hgap, hrest⟩ := undisturbed_append hund
      obtain ⟨middle, hmiddle, -⟩ := h.run hgap
      rw [RankRequest.waitRankOp, look_eq_none hmiddle hother]
      exact ih hmiddle hrest

/-- What the wait reports was recorded before the look that found it. -/
theorem reported_recorded (h : Awaits r asked w none)
    (hexact : requestOf r.text = (r.op, r.ranks))
    (hund : ∀ step ∈ operator.history w (gaps.flatten ++ last), Undisturbed r step)
    {lr : RankOpStatus} (hwait : r.waitRankOp asked w gaps last = .reported lr) :
    ∃ seen, seen <+: gaps ++ [last] ∧
      r.look asked (operator.final w seen.flatten) = some (.reported lr) ∧
      ∃ step ∈ operator.history w seen.flatten, Records r step lr := by
  induction gaps generalizing w with
  | nil =>
      rw [List.flatten_nil, List.nil_append] at hund
      obtain ⟨result, hafter, hresult⟩ := h.run hund
      have hlook := look_eq hafter hexact
      rw [RankRequest.waitRankOp, hlook] at hwait
      cases result with
      | none => cases hwait
      | some lr' =>
          cases hwait
          refine ⟨[last], List.prefix_rfl, by simpa using hlook, ?_⟩
          simpa using (hresult lr).1 rfl
  | cons gap gaps ih =>
      rw [List.flatten_cons, List.append_assoc] at hund
      obtain ⟨hgap, hrest⟩ := undisturbed_append hund
      obtain ⟨middle, hmiddle, hfirst⟩ := h.run hgap
      have hlook := look_eq hmiddle hexact
      rw [RankRequest.waitRankOp, hlook] at hwait
      cases middle with
      | some lr' =>
          cases hwait
          refine ⟨[gap], ⟨gaps ++ [last], rfl⟩, by simpa using hlook, ?_⟩
          simpa using (hfirst lr).1 rfl
      | none =>
          obtain ⟨seen, hprefix, hfound, step, hstep, hrecords⟩ := ih hmiddle hrest hwait
          refine ⟨gap :: seen, List.cons_prefix_cons.2 ⟨rfl, hprefix⟩, ?_, step, ?_, hrecords⟩
          · rwa [List.flatten_cons, Machine.final_append]
          · rw [List.flatten_cons, Machine.history_append]
            exact List.mem_append_right _ hstep

/-- The wait begins with an earlier record that cannot be taken for the result. -/
theorem awaits_write (hnamed : WellNamed w) (hnarrow : NarrowWorld w) (hclock : asked ≤ w.clock)
    (hpresent : (stored w.systems r.name).isSome = true)
    (hearlier : ∀ lr ∈ rankRecord w r.name, r.answeredBy asked lr = false) :
    Awaits r asked (r.write w) none := by
  obtain ⟨sys, hsys⟩ := Option.isSome_iff_exists.1 hpresent
  have hstored : ∃ sys', stored (r.write w).systems r.name = some sys' ∧
      sys'.annotations.rankOp = some r.text ∧ sys'.status = sys.status := by
    simp only [RankRequest.write, Machine.final, operator, Change.apply, stored_onSystem, if_true,
      hsys]
    exact ⟨_, rfl, rfl, rfl⟩
  obtain ⟨sys', hsys', hasks, hstatus⟩ := hstored
  refine ⟨(hnamed.step _).step _, (hnarrow.step _).step _, ?_, by rw [hsys']; rfl, .waiting ?_ ?_⟩
  · exact hclock.trans ((clock_le_step w _).trans (clock_le_step _ _))
  · simp [asks, hsys', hasks]
  · rw [rankRecord, hsys] at hearlier
    rw [rankRecord, hsys', Option.bind_some, hstatus]
    exact hearlier

end Looks

/-- Where the operator records the ranks as they were given, and the record from before is not
a finished one of the same operation and ranks from the same second or later, the wait reports
the result of its own request. -/
theorem reports_own_result (r : RankRequest) (asked : Time) (w : World)
    (gaps : List (List Event)) (last : List Event) (hnamed : WellNamed w)
    (hnarrow : NarrowWorld w) (hpresent : (stored w.systems r.name).isSome = true)
    (hclock : asked ≤ w.clock)
    (hund : ∀ step ∈ operator.history (r.write w) (gaps.flatten ++ last), Undisturbed r step)
    (hexact : parseRankOp r.text = .ok (r.op, r.ranks))
    (hearlier : ∀ lr ∈ rankRecord w r.name, r.answeredBy asked lr = false) :
    ReportsOwn r asked w gaps last := by
  have hawaits := awaits_write hnamed hnarrow hclock hpresent hearlier
  have hrequest : requestOf r.text = (r.op, r.ranks) := by simp [requestOf, hexact]
  refine ⟨fun lr hwait => reported_recorded hawaits hrequest hund hwait, ?_⟩
  intro step hstep lr hrecords wait
  obtain ⟨result, hresult, hwait⟩ := waitRankOp_eq hawaits hrequest hund
  rw [hwait, (hresult lr).2 (Or.inr ⟨step, hstep, hrecords⟩)]
  change (Ending.outcome r wait (.reported lr)).isOk = lr.succeeded
  cases hsucceeded : lr.succeeded <;> simp [Ending.outcome, hsucceeded, Except.isOk, Except.toBool]

/-- `rank drain --ranks=<ranks>`. -/
def drain (ranks : String) : RankRequest := { name := "s", op := "drain", ranks }

def drainedRun : List Event :=
  formattedRun ++ [.change (.annotateSystem "s" .rankOp (some "drain:0")), .reconcileSystem "s" [],
    jobAnswers ⟨"daos-system", "s-dmg-rankop"⟩ "\x7b\"response\":\x7b\x7d\x7d",
    .reconcileSystem "s" [], .change (.jobRemoved ⟨"daos-system", "s-dmg-rankop"⟩)]

/-- The rank is drained again, and this time DAOS refuses. -/
def refusedDrain : List Event :=
  [.reconcileSystem "s" [],
    jobAnswers ⟨"daos-system", "s-dmg-rankop"⟩ "\x7b\"error\":\"busy\",\"status\":-1012\x7d",
    .reconcileSystem "s" []]

/-- A second later the refusal is reported. -/
theorem reports_own_result_refused :
    let r := drain "0"
    let w := final (drainedRun ++ [.change (.tick 1)])
    ReportsOwn r 1 w [refusedDrain] [] ∧
      (r.waitRankOp 1 (r.write w) [refusedDrain] []).outcome r "5m0s" =
        .error "rank drain --ranks=0 failed: dmg system drain 0: busy" := by
  intro r w
  have hrun : (stored w.systems r.name).isSome = true ∧ 1 ≤ w.clock ∧
      (∀ step ∈ operator.history (r.write w) ([refusedDrain].flatten ++ []), Undisturbed r step) ∧
      parseRankOp r.text = .ok (r.op, r.ranks) ∧
      (∀ lr ∈ rankRecord w r.name, r.answeredBy 1 lr = false) ∧
      (r.waitRankOp 1 (r.write w) [refusedDrain] []).outcome r "5m0s" =
        .error "rank drain --ranks=0 failed: dmg system drain 0: busy" := by
    decide +kernel
  obtain ⟨hpresent, hclock, hund, hexact, hearlier, htext⟩ := hrun
  exact ⟨reports_own_result r 1 w [refusedDrain] [] (wellNamed_final _) (narrowWorld_final _)
    hpresent hclock hund hexact hearlier, htext⟩

/-- A result within the wait that the wait does not report. -/
def Missed (r : RankRequest) (asked : Time) (w : World) (gaps : List (List Event))
    (last : List Event) : Prop :=
  ∃ step ∈ operator.history (r.write w) (gaps.flatten ++ last),
    ∃ lr ∈ rankRecord step.after r.name, Records r step lr ∧
      ((r.waitRankOp asked (r.write w) gaps last).outcome r "5m0s").isOk ≠ lr.succeeded

instance (r : RankRequest) (asked : Time) (w : World) (gaps : List (List Event))
    (last : List Event) : Decidable (Missed r asked w gaps last) :=
  inferInstanceAs (Decidable (∃ step ∈ operator.history (r.write w) (gaps.flatten ++ last),
    ∃ lr ∈ rankRecord step.after r.name, Records r step lr ∧
      ((r.waitRankOp asked (r.write w) gaps last).outcome r "5m0s").isOk ≠ lr.succeeded))

theorem Missed.not_reportsOwn {gaps : List (List Event)} {last : List Event}
    (h : Missed r asked w gaps last) : ¬ ReportsOwn r asked w gaps last := by
  obtain ⟨step, hstep, lr, -, hrecords, hmissed⟩ := h
  exact fun hown => hmissed (hown.outcome step hstep lr hrecords "5m0s")

/-- A rank set with a comma too many is rejected, and the wait does not notice.  A drain in the
second of an earlier one ends with the result of the earlier one. -/
theorem own_result_missed :
    ((∀ step ∈ operator.history ((drain "0,").write (final formattedRun))
        [.reconcileSystem "s" []], Undisturbed (drain "0,") step) ∧
      ¬ ReportsOwn (drain "0,") 0 (final formattedRun) [[.reconcileSystem "s" []]] []) ∧
    (∀ step ∈ operator.history ((drain "0").write (final drainedRun)) refusedDrain,
        Undisturbed (drain "0") step) ∧
      ¬ ReportsOwn (drain "0") 0 (final drainedRun) [[]] refusedDrain := by
  refine ⟨⟨by decide +kernel, Missed.not_reportsOwn (by decide +kernel)⟩, by decide +kernel,
    Missed.not_reportsOwn (by decide +kernel)⟩

end Wait

end DaosOperator.Plugin
