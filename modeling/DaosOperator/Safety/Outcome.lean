import DaosOperator.Safety.Completion

/-!
# What a consumed request leaves behind

A reconcile removes the annotation of a request in its middle and stores the outcome at
its end, in the one status write.  Between the two, every call that fails ends it, and
then the request is gone and its outcome was never stored.
-/

namespace DaosOperator

open Effect
open DaosOperator.System

/-! ## The property -/

/-- The call takes effect and removes an annotation of the system. -/
def removes (name : String) (p : SystemPatch) (x : Entry Call World) : Bool :=
  match x.call with
  | .patchSystem other q => other = name && q = p && x.fault.effective
  | _ => false

/-- The first entry of a log that satisfies `q`, and the entries behind it. -/
def fromFirst (q : Entry Call World → Bool) (log : Log) : Option (Entry Call World × Log) :=
  match log.dropWhile fun x => !q x with
  | [] => none
  | x :: rest => some (x, rest)

def requestOf (req : String) : String × String :=
  match parseRankOp req with
  | .ok r => r
  | .error _ => (req, "")

def rankOpRecorded (req : String) (st : DaosSystemStatus) : Bool :=
  st.lastRankOp.any fun lr => (lr.op, lr.ranks) = requestOf req && lr.finishedAt.isSome

/-- The status has the outcome of a format attempt with result `res` that was read at `now`. -/
def formatRecorded (res : Dmg.Result) (now : Time) (st : DaosSystemStatus) : Bool :=
  st.lastFormat.any fun lf => lf.time = now && lf.succeeded = (formatFailure res = "" : Bool) &&
    lf.message = (if formatFailure res = "" then ""
      else formatFailure res ++ formatHint (formatFailure res))

def formatAttempt (sys : DaosSystem) (step : Step) : Option Dmg.Result :=
  if step.obs.any (readsOff (jobKey sys.name (namespaceOf sys) .format)) then
    finishedResult sys step.before .format
  else none

/-- A reconcile that removes a request leaves its outcome in the stored status. -/
def LeavesOutcome (step : Step) : Prop :=
  ∀ name ∈ step.event.system, ∀ sys ∈ stored step.before.systems name,
    (∀ r ∈ fromFirst (removes name .removeRankOp) step.obs, ∀ req ∈ sys.annotations.rankOp,
      ∃ sys' ∈ stored step.after.systems name, rankOpRecorded req sys'.status = true) ∧
    ∀ r ∈ fromFirst (removes name .removeFormatApproved) step.obs,
      ∀ res ∈ formatAttempt sys step, ∃ sys' ∈ stored step.after.systems name,
        formatRecorded res step.before.clock sys'.status = true
  deriving Decidable

/-! ## When it holds -/

/-- Nothing fails from the entry on. -/
def goesOn (r : Entry Call World × Log) : Bool :=
  r.1.fault = .none && r.2.all fun y => !interrupts y

/-- Nothing fails once a request is removed, and no request hangs; or the status had the
outcome before. -/
def GoesThrough (step : Step) : Prop :=
  ∀ name ∈ step.event.system, ∀ sys ∈ stored step.before.systems name,
    (∀ r ∈ fromFirst (removes name .removeRankOp) step.obs, ∀ req ∈ sys.annotations.rankOp,
      goesOn r = true ∨ rankOpRecorded req sys.status = true) ∧
    ∀ r ∈ fromFirst (removes name .removeFormatApproved) step.obs,
      ∀ res ∈ formatAttempt sys step,
        goesOn r = true ∧ hangs sys (formatFailure res = "" || sys.status.formatted) = false ∨
          formatRecorded res step.before.clock sys.status = true
  deriving Decidable

namespace System

/-! ## Before and behind a removal -/

theorem fromFirst_eq_some {q : Entry Call World → Bool} {pre new : Log} {x : Entry Call World}
    (hpre : ∀ y ∈ pre, q y = false) (hx : q x = true) :
    fromFirst q (pre ++ x :: new) = some (x, new) := by
  have hdrop : (pre ++ x :: new).dropWhile (fun x => !q x) = x :: new := by
    rw [List.dropWhile_append_of_pos (by simpa using hpre),
      List.dropWhile_cons_of_neg (by simp [hx])]
  simp only [fromFirst, hdrop]

theorem fromFirst_eq_none {q : Entry Call World → Bool} {log : Log} (h : ∀ y ∈ log, q y = false) :
    fromFirst q log = none := by
  have hdrop : (log ++ []).dropWhile (fun x => !q x) = [] :=
    List.dropWhile_append_of_pos (by simpa using h)
  rw [List.append_nil] at hdrop
  simp only [fromFirst, hdrop]

section Removal

variable {q : Entry Call World → Bool} {ok : Prop} {R : DaosSystemStatus → Prop} {sys : DaosSystem}
  {rely : Entry Call World → Prop} {s : Point Call World}

/-- The stored status is the one the reconcile began with. -/
def Kept (sys : DaosSystem) (w : World) : Prop :=
  (stored w.systems sys.name).map (·.status) = some sys.status

/-- Nothing is removed, and nothing is stored. -/
structure Ahead (q : Entry Call World → Bool) (sys : DaosSystem) (t : Point Call World) : Prop where
  none : ∀ y ∈ t.log, q y = false
  beforeWrite : BeforeWrite t.log
  kept : Kept sys t.world

/-- The log has a first removal, which `G` describes. -/
def Removed (q : Entry Call World → Bool) (t : Point Call World)
    (G : Entry Call World → Log → Prop) : Prop :=
  ∃ pre x new, t.log = pre ++ x :: new ∧ (∀ y ∈ pre, q y = false) ∧ q x = true ∧ G x new

/-- A request is removed, everything worked since, and nothing is stored yet. -/
structure Behind (q : Entry Call World → Bool) (sys : DaosSystem) (t : Point Call World) :
    Prop where
  removed : Removed q t fun x new => x.fault = .none ∧ ∀ y ∈ new, y.fault = .none
  beforeWrite : BeforeWrite t.log
  kept : Kept sys t.world

/-- How a reconcile ends, as far as the removal is concerned. -/
inductive Ended (q : Entry Call World → Bool) (ok : Prop) (R : DaosSystemStatus → Prop)
    (sys : DaosSystem) (t : Point Call World) : Prop where
  | ahead (h : ∀ y ∈ t.log, q y = false)
  /-- The removal was not the last thing to work, and the stored status is the old one. -/
  | broken (h : Removed q t fun x new => goesOn (x, new) = true → ¬ok) (hkept : Kept sys t.world)
  | written (hok : ok) (h : Removed q t fun x new => goesOn (x, new) = true)
      (hstored : ∃ sys' ∈ stored t.world.systems sys.name, R sys'.status)

theorem Kept.next {S : Scope} {c : Call} {ns : String} (h : Kept sys s.world)
    (hc : SystemCall sys.name ns S c) (hS : S.status = false) (f : Fault) :
    Kept sys (cluster.next s c f).world := by
  refine (hc.stored_proj (g := DaosSystem.status) ?_ ?_).trans h
  · intro s p _
    cases p <;> rfl
  · intro hstatus
    rw [hS] at hstatus
    cases hstatus

theorem Ahead.next {S : Scope} {c : Call} {ns : String} (h : Ahead q sys s)
    (hc : SystemCall sys.name ns S c) (hS : S.status = false) {f : Fault}
    (hq : q ⟨c, f, s.world⟩ = false) : Ahead q sys (cluster.next s c f) where
  none := by
    intro y hy
    rcases Handler.mem_next_log hy with hy | rfl
    · exact h.none y hy
    · exact hq
  beforeWrite := h.beforeWrite.next hc hS f
  kept := h.kept.next hc hS f

theorem Ahead.wp {α : Type} {S : Scope} {P : α → Prop} {p : Op α} {ns : String}
    (h : Ahead q sys s) (hp : p.Obeys (SystemCall sys.name ns S) P) (hS : S.status = false)
    (hq : ∀ c f w, SystemCall sys.name ns S c → q ⟨c, f, w⟩ = false) :
    p.wp cluster rely s (fun a t => P a ∧ Ahead q sys t) (Ahead q sys) :=
  hp.wp (I := Ahead q sys) (fun c f t hc _ _ ht => ht.next hc hS (hq c f t.world hc)) h

theorem Ahead.wp_remove {p : SystemPatch} {S : Scope} (h : Ahead (removes sys.name p) sys s)
    (hS : S.status = false) (hp : S.patches p = true) (ns : String) :
    (ask (.patchSystem sys.name p)).wp cluster rely s
      (fun _ t => Behind (removes sys.name p) sys t)
      (Ended (removes sys.name p) ok R sys) := by
  have hc : SystemCall sys.name ns S (.patchSystem sys.name p) := .patch p hp
  refine Prog.wp_ask (fun _ => ?_) fun f e _ _ => ?_
  · refine ⟨⟨s.log, _, [], rfl, h.none, by simp [removes, Fault.effective], rfl, by simp⟩, ?_, ?_⟩
    · exact h.beforeWrite.next hc hS _
    · exact h.kept.next hc hS _
  · cases f with
    | none => exact absurd rfl e
    | failed e =>
        refine .ahead fun y hy => ?_
        rcases Handler.mem_next_log hy with hy | rfl
        · exact h.none y hy
        · simp [removes, Fault.effective]
    | lost e =>
        refine .broken ⟨s.log, _, [], rfl, h.none, by simp [removes, Fault.effective], ?_⟩
          (h.kept.next hc hS _)
        simp [goesOn]

/-- Behind a removal, a stage ends the reconcile at the first call that fails. -/
theorem Behind.wp {α : Type} {S : Scope} {P : α → Prop} {p : Op α} {ns : String}
    (h : Behind q sys s) (hp : p.Obeys (SystemCall sys.name ns S) P) (hS : S.status = false)
    (hbrittle : p.Brittle)
    (hfails : ok → p.wp cluster rely s (fun _ _ => True) fun t =>
      ∃ new, t.log = s.log ++ new ∧ ∃ y ∈ new, y.fault ≠ .none) :
    p.wp cluster rely s (fun a t => P a ∧ Behind q sys t) (Ended q ok R sys) := by
  obtain ⟨pre, x, old, hlog, hpre, hx, hfault, hold⟩ := h.removed
  have hframe : p.wp cluster rely s (fun a t => P a ∧ BeforeWrite t.log ∧ Kept sys t.world)
      fun t => BeforeWrite t.log ∧ Kept sys t.world :=
    hp.wp (I := fun t => BeforeWrite t.log ∧ Kept sys t.world)
      (fun _ f _ hc _ _ ht => ⟨ht.1.next hc hS f, ht.2.next hc hS f⟩) ⟨h.beforeWrite, h.kept⟩
  have hreturns : p.wp cluster rely s (fun a t => P a ∧ Behind q sys t)
      fun t => Kept sys t.world ∧ BeforeWrite t.log ∧ ∃ new, t.log = s.log ++ new := by
    refine Prog.wp_mono (Prog.wp_and hframe hbrittle.wp) ?_ ?_
    · rintro a t ⟨⟨ha, hwrite, hkept⟩, new, hnew, hgood⟩
      refine ⟨ha, ⟨pre, x, old ++ new, by rw [hnew, hlog]; simp, hpre, hx, hfault, ?_⟩,
        hwrite, hkept⟩
      intro y hy
      rcases List.mem_append.mp hy with hy | hy
      · exact hold y hy
      · exact hgood y hy
    · rintro t ⟨⟨hwrite, hkept⟩, hnew⟩
      exact ⟨hkept, hwrite, hnew⟩
  by_cases hok : ok
  · refine Prog.wp_mono (Prog.wp_and hreturns (hfails hok)) (fun _ _ h => h.1) ?_
    rintro t ⟨⟨hkept, hwrite, -⟩, new, hnew, y, hy, hyfault⟩
    refine .broken ⟨pre, x, old ++ new, by rw [hnew, hlog]; simp, hpre, hx, fun hgoes => ?_⟩ hkept
    have hinterrupts := hwrite.interrupts (by simp [hnew, hy]) hyfault
    simp only [goesOn, Bool.and_eq_true, List.all_eq_true] at hgoes
    have hnot := hgoes.2 y (List.mem_append_right _ hy)
    rw [hinterrupts] at hnot
    cases hnot
  · refine Prog.wp_mono hreturns (fun _ _ h => h) ?_
    rintro t ⟨hkept, -, new, hnew⟩
    exact .broken ⟨pre, x, old ++ new, by rw [hnew, hlog]; simp, hpre, hx, fun _ => hok⟩ hkept

theorem wp_updateStatus_ahead {pass : Pass} (h : ∀ y ∈ s.log, q y = false)
    (hq : ∀ name st f w, q ⟨.updateSystemStatus name st, f, w⟩ = false) (requeue : Duration) :
    (updateStatus pass requeue).wp cluster rely s (fun _ => Ended q ok R sys)
      (Ended q ok R sys) := by
  have hwrite : ∀ f, Ended q ok R sys
      (cluster.next s (.updateSystemStatus pass.sys.name pass.status) f) := by
    intro f
    refine .ahead fun y hy => ?_
    rcases Handler.mem_next_log hy with hy | rfl
    · exact h y hy
    · exact hq ..
  refine Prog.wp_bind (A := fun _ => Ended q ok R sys) ?_ fun _ _ ht => ht
  exact Prog.wp_ask (fun _ => hwrite .none) fun f _ _ _ => hwrite f

theorem Behind.wp_updateStatus {pass : Pass} (h : Behind q sys s) (hname : pass.sys.name = sys.name)
    (hok : ok) (hR : R pass.status) (requeue : Duration) :
    (updateStatus pass requeue).wp cluster rely s (fun _ => Ended q ok R sys)
      (Ended q ok R sys) := by
  obtain ⟨pre, x, old, hlog, hpre, hx, hfault, hold⟩ := h.removed
  have hgoes : ∀ f : Fault,
      goesOn (x, old ++ [⟨.updateSystemStatus sys.name pass.status, f, s.world⟩]) =
        !f.isFailed := by
    intro f
    have hgood : ∀ y ∈ old, interrupts y = false := by
      intro y hy
      have hmem : y ∈ s.log := by simp [hlog, hy]
      simp only [interrupts]
      split
      · next other st heq => exact absurd heq (h.beforeWrite y hmem other st)
      · simpa using hold y hy
    have hall : (old.all fun y => !interrupts y) = true := by simpa using hgood
    simp only [goesOn, hfault, List.all_append, hall]
    simp [interrupts]
  have hwrite : ∀ f, Ended q ok R sys
      (cluster.next s (.updateSystemStatus pass.sys.name pass.status) f) := by
    intro f
    rw [hname]
    have hremoved : ∀ G : Entry Call World → Log → Prop,
        G x (old ++ [⟨.updateSystemStatus sys.name pass.status, f, s.world⟩]) →
        Removed q (cluster.next s (.updateSystemStatus sys.name pass.status) f) G :=
      fun G hG => ⟨pre, x, _, by rw [Handler.next_log, hlog]; simp, hpre, hx, hG⟩
    by_cases hfailed : f.isFailed = true
    · refine .broken (hremoved _ fun hgood => ?_) ?_
      · rw [hgoes, hfailed] at hgood
        cases hgood
      · cases f with
        | failed e => exact h.kept
        | _ => cases hfailed
    · refine .written hok (hremoved _ ?_) ?_
      · rw [hgoes]
        simpa using hfailed
      · have heffective : f.effective = true := by
          cases f with
          | failed e => exact absurd rfl hfailed
          | _ => rfl
        have hkept := h.kept
        unfold Kept at hkept
        obtain ⟨old, hstored, -⟩ := Option.map_eq_some_iff.mp hkept
        refine ⟨{ old with status := pass.status }, ?_, hR⟩
        rw [Handler.next_world, Handler.respond_world, if_pos heffective]
        simp only [cluster, perform, stored_modify_self, hstored]
        rfl
  refine Prog.wp_bind (A := fun _ => Ended q ok R sys) ?_ fun _ _ ht => ht
  exact Prog.wp_ask (fun _ => hwrite .none) fun f _ _ _ => hwrite f

/-- What the end of a reconcile says about the stored outcome. -/
theorem Ended.recorded_iff {t : Point Call World} (h : Ended q ok R sys t)
    {r : Entry Call World × Log} (hr : fromFirst q t.log = some r) :
    (∃ sys' ∈ stored t.world.systems sys.name, R sys'.status) ↔
      goesOn r = true ∧ ok ∨ R sys.status := by
  have hfirst : ∀ {G : Entry Call World → Log → Prop}, Removed q t G → G r.1 r.2 := by
    rintro G ⟨pre, x, new, hlog, hpre, hx, hG⟩
    have heq : fromFirst q t.log = some (x, new) := hlog ▸ fromFirst_eq_some hpre hx
    rw [hr] at heq
    cases heq
    exact hG
  cases h with
  | ahead h =>
      rw [fromFirst_eq_none h] at hr
      cases hr
  | broken h hkept =>
      have hnot := hfirst h
      unfold Kept at hkept
      obtain ⟨old, hstored, hstatus⟩ := Option.map_eq_some_iff.mp hkept
      constructor
      · rintro ⟨sys', hsys', hR⟩
        rw [hstored] at hsys'
        cases hsys'
        exact Or.inr (hstatus ▸ hR)
      · rintro (⟨hgoes, hok⟩ | hR)
        · exact absurd hok (hnot hgoes)
        · exact ⟨old, hstored, hstatus ▸ hR⟩
  | written hok h hstored =>
      have hgoes := hfirst h
      exact ⟨fun _ => Or.inl ⟨hgoes, hok⟩, fun _ => hstored⟩

end Removal

theorem removes_eq_false {name ns : String} {S : Scope} {c : Call} {p : SystemPatch}
    (hc : SystemCall name ns S c) (hS : S.patches p = false) (f : Fault) (w : World) :
    removes name p ⟨c, f, w⟩ = false := by
  by_contra hremoves
  simp only [removes, Bool.not_eq_false] at hremoves
  split at hremoves
  · next other q =>
      simp only [Bool.and_eq_true, decide_eq_true_eq] at hremoves
      obtain ⟨⟨-, rfl⟩, -⟩ := hremoves
      generalize heq : Call.patchSystem other q = c at hc
      cases hc with
      | quiet h =>
          subst heq
          cases h
      | patch p hp =>
          cases heq
          rw [hS] at hp
          cases hp
      | _ => cases heq
  · cases hremoves

/-! ## Rank operations -/

section RankOp

variable {sys : DaosSystem} {req ns : String} {rely : Entry Call World → Prop}
  {s : Point Call World}

/-- The end of a reconcile that may have removed a rank operation. -/
abbrev RankOpEnded (sys : DaosSystem) (req : String) : Point Call World → Prop :=
  Ended (removes sys.name .removeRankOp) True (fun st => rankOpRecorded req st = true) sys

/-- The request is removed, and the pass has its outcome. -/
def Concluded (sys : DaosSystem) (req : String) (p : Pass) (t : Point Call World) : Prop :=
  Behind (removes sys.name .removeRankOp) sys t ∧ rankOpRecorded req p.status = true

theorem wp_recordRankOp {p : Pass} {op ranks : String} (hname : p.sys.name = sys.name)
    (hreq : p.sys.annotations.rankOp = some req) (hop : requestOf req = (op, ranks))
    (h : Ahead (removes sys.name .removeRankOp) sys s) (now : Time) (good : Bool) (msg : String) :
    (recordRankOp p now op ranks good msg).wp cluster rely s
      (fun r t => Concluded sys req r.2 t) (RankOpEnded sys req) := by
  unfold recordRankOp
  extract_lets outcome
  have hevent : (event p.sys (!good) (if good then "RankOpCompleted" else "RankOpFailed") msg).Obeys
      (SystemCall sys.name "" {}) fun _ => True := obeys_event ..
  refine Prog.wp_bind (Prog.wp_mono (h.wp hevent rfl fun c f w hc => removes_eq_false hc rfl f w)
    (fun _ _ h => h.2) fun _ h => .ahead h.none) ?_
  intro _ t ht
  unfold clearRankOp
  rw [hreq]
  unfold patch
  rw [hname]
  refine Prog.wp_bind (A := fun _ t => Behind (removes sys.name .removeRankOp) sys t) ?_ ?_
  · refine Prog.wp_bind (ht.wp_remove (S := rankOpScope) rfl rfl "") fun _ _ h => h
  · intro sys' t ht
    refine ⟨ht, ?_⟩
    simp [rankOpRecorded, hop, outcome]

theorem wp_reconcileRankOp_outcome {p : Pass} (hname : p.sys.name = sys.name)
    (hreq : p.sys.annotations.rankOp = some req)
    (h : Ahead (removes sys.name .removeRankOp) sys s) :
    (reconcileRankOp ns p).wp cluster rely s
      (fun r t => Ahead (removes sys.name .removeRankOp) sys t ∨ Concluded sys req r.2 t)
      (RankOpEnded sys req) := by
  have hquiet : ∀ {α : Type} {S : Scope} {P : α → Prop} {q : Op α} {t : Point Call World},
      q.Obeys (SystemCall sys.name ns S) P → S.status = false → S.patches .removeRankOp = false →
      Ahead (removes sys.name .removeRankOp) sys t →
      q.wp cluster rely t (fun a t => P a ∧ Ahead (removes sys.name .removeRankOp) sys t)
        (RankOpEnded sys req) := fun hq hS hp ht =>
    Prog.wp_mono (ht.wp hq hS fun c f w hc => removes_eq_false hc hp f w) (fun _ _ h => h)
      fun _ h => .ahead h.none
  unfold reconcileRankOp
  rw [hreq]
  refine Prog.wp_bind (hquiet (S := {}) (Prog.obeys_ask (.quiet rfl)) rfl rfl h) ?_
  rintro now t ⟨-, ht⟩
  have hrecord : ∀ {op ranks : String} {u : Point Call World}, requestOf req = (op, ranks) →
      Ahead (removes sys.name .removeRankOp) sys u → ∀ good msg,
      (recordRankOp p now op ranks good msg).wp cluster rely u
        (fun r t => Ahead (removes sys.name .removeRankOp) sys t ∨ Concluded sys req r.2 t)
        (RankOpEnded sys req) := fun hop hu good msg =>
    Prog.wp_mono (wp_recordRankOp hname hreq hop hu now good msg) (fun _ _ h => Or.inr h)
      fun _ h => h
  split
  · next e hparse => exact hrecord (by simp [requestOf, hparse]) ht _ _
  · next op ranks hparse =>
      have hop : requestOf req = (op, ranks) := by simp [requestOf, hparse]
      have hrun : ∀ {u : Point Call World}, Ahead (removes sys.name .removeRankOp) sys u →
          (runRankOp ns p now op ranks).wp cluster rely u
            (fun r t => Ahead (removes sys.name .removeRankOp) sys t ∨ Concluded sys req r.2 t)
            (RankOpEnded sys req) := by
        intro u hu
        have hobeys : (runDmg p.sys ns .rankOp (rankOpArgs op ranks)).Obeys
            (SystemCall sys.name ns { jobs := fun k => k = .rankOp }) fun _ => True :=
          obeys_runDmg .rankOp hname rfl ⟨op, ranks, op_mem_rankOps hparse, rfl⟩
        refine Prog.wp_bind (hquiet hobeys.mapError rfl rfl hu) ?_
        rintro res t ⟨-, ht⟩
        refine Prog.wp_ite (fun _ => Or.inl ht) fun _ => ?_
        unfold finishRankOp
        extract_lets since
        split
        · refine Prog.wp_bind (hquiet (S := {}) (obeys_event _ _ _ _) rfl rfl ht) ?_
          rintro _ t ⟨-, ht⟩
          exact Or.inl ht
        · refine Prog.wp_bind (A := fun _ t => Ahead (removes sys.name .removeRankOp) sys t) ?_
            fun _ t ht => hrecord hop ht _ _
          refine Prog.wp_ite (fun _ => ?_) fun _ => ht
          exact Prog.wp_mono (hquiet (S := {}) (Prog.obeys_ask (.clearHold _)) rfl rfl ht)
            (fun _ _ h => h.2) fun _ h => h
      have hunless : ∀ {u : Point Call World} (why : Option String) {next : Op (Duration × Pass)},
          Ahead (removes sys.name .removeRankOp) sys u →
          next.wp cluster rely u
            (fun r t => Ahead (removes sys.name .removeRankOp) sys t ∨ Concluded sys req r.2 t)
            (RankOpEnded sys req) →
          (unlessRefused p now op ranks why next).wp cluster rely u
            (fun r t => Ahead (removes sys.name .removeRankOp) sys t ∨ Concluded sys req r.2 t)
            (RankOpEnded sys req) := by
        intro u why next hu hnext
        unfold unlessRefused
        split
        · exact .ahead hu.none
        · exact Prog.wp_ite (fun _ => hrecord hop hu _ _) fun _ => hnext
      refine Prog.wp_ite (fun _ => hrecord hop ht _ _) fun _ => hunless _ ht ?_
      refine Prog.wp_ite (fun _ => ?_) fun _ => hrun ht
      refine Prog.wp_bind (hquiet (S := {}) (Prog.obeys_ask (.quiet rfl)).mapError rfl rfl ht) ?_
      rintro pools t ⟨-, ht⟩
      exact hunless _ ht (hrun ht)

/-- How a reconcile stands to the request, stage by stage. -/
def AtRequest (sys : DaosSystem) (req : String) : Stage → Pass → Point Call World → Prop
  | .entered, _, t | .gate, _, t | .rankOp, _, t => Ahead (removes sys.name .removeRankOp) sys t
  | .engines, p, t | .done, p, t =>
      Ahead (removes sys.name .removeRankOp) sys t ∨ Concluded sys req p t

theorem rankOp_stages (hranks : NarrowRanks sys.status) (hreq : sys.annotations.rankOp = some req) :
    StageProof sys rely
      (fun t => NarrowWorld t.world ∧ Ahead (removes sys.name .removeRankOp) sys t)
      (RankOpEnded sys req)
      fun g p t => (NarrowWorld t.world ∧ NarrowRanks p.status) ∧ AtRequest sys req g p t := by
  have hnarrow : StageProof sys rely _ _ _ := narrow_stages hranks
  have hquiet : ∀ {α : Type} {S : Scope} {P : α → Prop} {q : Op α} {t : Point Call World},
      q.Obeys (SystemCall sys.name (namespaceOf sys) S) P → S.status = false →
      S.patches .removeRankOp = false → Ahead (removes sys.name .removeRankOp) sys t →
      q.wp cluster rely t (fun _ t => Ahead (removes sys.name .removeRankOp) sys t)
        (RankOpEnded sys req) := fun hq hS hp ht =>
    Prog.wp_mono (ht.wp hq hS fun c f w hc => removes_eq_false hc hp f w) (fun _ _ h => h.2)
      fun _ h => .ahead h.none
  exact
    { render := fun c f t hc hf hrely ht =>
        ⟨hnarrow.render c f t hc hf hrely ht.1, ht.2.next hc rfl (removes_eq_false hc rfl ..)⟩
      stop := fun t ht => .ahead ht.2.none
      enter := fun p t hp ht => ⟨hnarrow.enter p t hp ht.1, ht.2⟩
      cond := fun g p st t hst ht => by
        refine ⟨hnarrow.cond g p st t hst ht.1, ?_⟩
        have hlast : st.lastRankOp = p.status.lastRankOp := by
          have hmask := congrArg DaosSystemStatus.lastRankOp hst
          exact hmask
        cases g with
        | engines | done =>
            refine ht.2.imp_right fun h => ⟨h.1, ?_⟩
            simpa only [rankOpRecorded, hlast] using h.2
        | _ => exact ht.2
      skip := fun p t hp ht => ht
      upgrade := fun rendered p t hp ht => by
        have hobeys := hp.carried.obeys_upgrade rendered
        exact Prog.wp_mono (Prog.wp_and (hnarrow.upgrade rendered p t hp ht.1)
          (hquiet hobeys rfl rfl ht.2)) (fun _ _ h => h) fun _ h => h.2
      format := fun inp p t hp ht =>
        Prog.wp_mono (Prog.wp_and (hnarrow.format inp p t hp ht.1)
          (hquiet (obeys_reconcileFormat hp.patched.name hp.ns) rfl rfl ht.2)) (fun _ _ h => h)
          fun _ h => h.2
      rankOp := fun p t hp ht => by
        have hreq' : p.sys.annotations.rankOp = some req := by
          rw [← hreq]
          refine hp.patched.proj (f := fun s => s.annotations.rankOp) fun s q hq => ?_
          cases q with
          | removeRankOp => cases hq
          | _ => rfl
        exact Prog.wp_mono (Prog.wp_and (hnarrow.rankOp p t hp ht.1)
          (wp_reconcileRankOp_outcome hp.patched.name hreq' ht.2)) (fun _ _ h => h) fun _ h => h.2
      engines := fun p t hp ht => by
        have hobeys := hp.obeys_engines
        refine Prog.wp_mono (Prog.wp_and (hnarrow.engines p t hp ht.1) ?_) (fun _ _ h => h)
          fun _ h => h.2
        rcases ht.2 with hahead | ⟨hbehind, hrecorded⟩
        · exact Prog.wp_mono (hquiet hobeys rfl rfl hahead) (fun _ _ h => Or.inl h) fun _ h => h
        · refine Prog.wp_mono (hbehind.wp hobeys rfl (brittle_reconcileEngineRestart ..) fun _ =>
            Prog.wp_mono (wp_reconcileEngineRestart_fails _ ht.1.1 ht.1.2) (fun _ _ _ => trivial)
              fun _ h => h) ?_ fun _ h => h
          rintro r u ⟨hadv, hu⟩
          have hlast : r.2.status.lastRankOp = p.status.lastRankOp := by
            have hmask := congrArg DaosSystemStatus.lastRankOp hadv.status
            exact hmask
          refine Or.inr ⟨hu, ?_⟩
          simpa only [rankOpRecorded, hlast] using hrecorded
      write := fun g p t requeue _ hp ht => by
        have hahead : Ahead (removes sys.name .removeRankOp) sys t →
            (updateStatus p requeue).wp cluster rely t (fun _ => RankOpEnded sys req)
              (RankOpEnded sys req) := fun h =>
          wp_updateStatus_ahead h.none (fun _ _ _ _ => rfl) requeue
        have hconcluded : Ahead (removes sys.name .removeRankOp) sys t ∨ Concluded sys req p t →
            (updateStatus p requeue).wp cluster rely t (fun _ => RankOpEnded sys req)
              (RankOpEnded sys req) := by
          rintro (h | h)
          · exact hahead h
          · exact h.1.wp_updateStatus hp.name trivial h.2 requeue
        cases g with
        | engines | done => exact hconcluded ht.2
        | _ => exact hahead ht.2 }

end RankOp

/-! ## Format attempts -/

section Format

variable {sys : DaosSystem} {res : Dmg.Result} {w₀ : World} {rely : Entry Call World → Prop}
  {s : Point Call World}

/-- No result of a format Job was read. -/
def Unread (sys : DaosSystem) (log : Log) : Prop :=
  ∀ x ∈ log, readsOff (jobKey sys.name (namespaceOf sys) .format) x = false

theorem Unread.next {S : Scope} {c : Call} (h : Unread sys s.log)
    (hc : SystemCall sys.name (namespaceOf sys) S c) (hS : S.jobs .format = false) (f : Fault) :
    Unread sys (cluster.next s c f).log := by
  intro x hx
  rcases Handler.mem_next_log hx with hx | rfl
  · exact h x hx
  · simp only [readsOff]
    split
    · next key =>
        obtain ⟨kind, hkind, rfl⟩ := hc.of_deleteJob
        rw [decide_eq_false_iff_not]
        intro hkey
        rw [(jobKey_inj hkey).2.2, hS] at hkind
        cases hkind
    · rfl

theorem Unread.wp {α : Type} {S : Scope} {P : α → Prop} {p : Op α} (h : Unread sys s.log)
    (hp : p.Obeys (SystemCall sys.name (namespaceOf sys) S) P) (hS : S.jobs .format = false) :
    p.wp cluster rely s (fun a t => P a ∧ Unread sys t.log) fun t => Unread sys t.log :=
  hp.wp (I := fun t => Unread sys t.log) (fun _ f _ hc _ _ ht => ht.next hc hS f) h

def formattedAfter (sys : DaosSystem) (res : Dmg.Result) : Bool :=
  formatFailure res = "" || sys.status.formatted

/-- The end of a reconcile that may have read a format attempt and removed its approval. -/
def FormatEnded (sys : DaosSystem) (res : Dmg.Result) (now : Time) (t : Point Call World) : Prop :=
  Unread sys t.log ∨ Ended (removes sys.name .removeFormatApproved)
    (hangs sys (formattedAfter sys res) = false) (fun st => formatRecorded res now st = true) sys t

/-- The approval is removed, and the pass has the outcome of the attempt. -/
structure Attempted (sys : DaosSystem) (res : Dmg.Result) (now : Time) (p : Pass)
    (t : Point Call World) : Prop where
  behind : Behind (removes sys.name .removeFormatApproved) sys t
  recorded : formatRecorded res now p.status = true
  formatted : p.status.formatted = formattedAfter sys res

/-- What holds until the format gate. -/
structure BeforeGate (sys : DaosSystem) (w₀ : World) (t : Point Call World) : Prop where
  unread : Unread sys t.log
  ahead : Ahead (removes sys.name .removeFormatApproved) sys t
  clock : t.world.clock = w₀.clock
  job : t.world.jobs.get (jobKey sys.name (namespaceOf sys) .format) =
    w₀.jobs.get (jobKey sys.name (namespaceOf sys) .format)

theorem BeforeGate.next {S : Scope} {c : Call} (h : BeforeGate sys w₀ s)
    (hc : SystemCall sys.name (namespaceOf sys) S c) (hstatus : S.status = false)
    (hjobs : S.jobs .format = false) (hpatches : S.patches .removeFormatApproved = false)
    (f : Fault) : BeforeGate sys w₀ (cluster.next s c f) where
  unread := h.unread.next hc hjobs f
  ahead := h.ahead.next hc hstatus (removes_eq_false hc hpatches ..)
  clock := hc.surroundings.2.1.trans h.clock
  job := by
    refine (hc.jobs_get fun k hk hkey => ?_).trans h.job
    rw [← (jobKey_inj hkey).2.2, hjobs] at hk
    cases hk

theorem wp_recordFormat {p : Pass} (h : Behind (removes sys.name .removeFormatApproved) sys s)
    (hclock : s.world.clock = w₀.clock) (hformatted : p.status.formatted = sys.status.formatted)
    (only : List String) :
    (recordFormat only res p).wp cluster rely s (fun r t => Attempted sys res w₀.clock r.2 t)
      (FormatEnded sys res w₀.clock) := by
  unfold recordFormat
  refine Prog.wp_bind (A := fun now t => now = w₀.clock ∧
    Behind (removes sys.name .removeFormatApproved) sys t) ?_ ?_
  · have hnow : (ask .now).wp cluster rely s (fun now _ => now = w₀.clock) fun _ => True :=
      Prog.wp_ask (fun _ => hclock) fun _ _ _ _ => trivial
    have hobeys : (ask .now).Obeys (SystemCall sys.name "" {}) fun _ => True :=
      Prog.obeys_ask (.quiet rfl)
    refine Prog.wp_mono (Prog.wp_and hnow (h.wp hobeys rfl (Prog.brittle_ask _) fun _ =>
      Prog.wp_mono (Prog.steady_ask _).wp (fun _ _ _ => trivial) fun _ h => h))
      (fun _ _ h => ⟨h.1, h.2.2⟩) fun _ h => Or.inr h.2
  rintro _ t ⟨rfl, ht⟩
  extract_lets why msg
  -- what is left of the attempt is brittle and steady, and returns its outcome
  have hrest : ∀ (q : Op (Duration × Pass)), q.Obeys (SystemCall sys.name "" {})
      (fun r => formatRecorded res w₀.clock r.2.status = true ∧
        r.2.status.formatted = formattedAfter sys res) → q.Brittle → (q.Steady fun _ => True) →
      q.wp cluster rely t (fun r t => Attempted sys res w₀.clock r.2 t)
        (FormatEnded sys res w₀.clock) := by
    intro q hobeys hbrittle hsteady
    refine Prog.wp_mono (ht.wp hobeys rfl hbrittle fun _ =>
      Prog.wp_mono hsteady.wp (fun _ _ _ => trivial) fun _ h => h)
      (fun r u h => ⟨h.2, h.1.1, h.1.2⟩) fun _ h => Or.inr h
  refine Prog.wp_ite (fun hwhy => ?_) fun hwhy => ?_
  · refine hrest _ ?_ (Prog.brittle_ask_bind fun _ => trivial)
      (Prog.steady_ask_bind fun _ => trivial)
    refine (obeys_event _ _ _ _).bind fun _ _ => ?_
    have hwhy : formatFailure res ≠ "" := hwhy
    constructor
    · simp [formatRecorded, formatFailed, setCond, hwhy, msg, why]
    · simpa [formattedAfter, hwhy, formatFailed, setCond] using hformatted
  · refine hrest _ ?_ (Prog.brittle_ask_bind fun _ => Prog.brittle_ask_bind fun _ => trivial)
      (Prog.steady_ask_bind fun _ => Prog.steady_ask_bind fun _ => trivial)
    refine (obeys_event _ _ _ _).bind fun _ _ => ?_
    refine Prog.obeys_ask_bind (.clearHold _) fun _ => ?_
    have hwhy : formatFailure res = "" := by simpa [why] using hwhy
    constructor
    · simp [formatRecorded, formatSucceeded, setCond, hwhy]
    · simp [formattedAfter, hwhy, formatSucceeded, setCond]

theorem wp_formatPath_outcome {p : Pass} {inp : FormatInput} (hname : p.sys.name = sys.name)
    (hns : inp.ns = namespaceOf sys) (happroved : p.sys.annotations.formatApproved.isSome = true)
    (hres : finishedResult sys w₀ .format = some res)
    (hformatted : p.status.formatted = sys.status.formatted) (h : BeforeGate sys w₀ s)
    (only : List String) :
    (formatPath inp only p).wp cluster rely s
      (fun r t => Unread sys t.log ∨ Attempted sys res w₀.clock r.2 t)
      (FormatEnded sys res w₀.clock) := by
  refine Prog.wp_ite (fun _ => Or.inl h.unread) fun _ => ?_
  have hkey : (jobSpec p.sys inp.ns .format (.dmg (formatArgs only))).key =
      jobKey sys.name (namespaceOf sys) .format := by
    rw [← hname, ← hns]
    rfl
  refine Prog.wp_bind (A := fun r t => r.done = false ∧ Unread sys t.log ∨
    r = res ∧ Ahead (removes sys.name .removeFormatApproved) sys t ∧
      t.world.clock = w₀.clock) ?_ ?_
  · refine Prog.wp_mapError.mpr (Dmg.wp_run (I := BeforeGate sys w₀)
      (fun c f t hc _ ht => ht.next (S := {}) (.quiet hc) rfl rfl rfl f) h
      (fun t ht => Or.inl ht.unread) ?_ ?_ ?_)
    · intro t ht _ _
      have hunread : ∀ f, Unread sys (cluster.next t (.createJob
          (jobSpec p.sys inp.ns .format (.dmg (formatArgs only)))) f).log := by
        intro f x hx
        rcases Handler.mem_next_log hx with hx | rfl
        · exact ht.unread x hx
        · rfl
      exact Prog.wp_ask (fun _ => Or.inl ⟨rfl, hunread _⟩) fun f _ _ _ => Or.inl (hunread f)
    · intro t job ht _ _
      exact Or.inl ⟨rfl, ht.unread⟩
    · intro t job failure ht _ hjob hlive hfinished
      rw [hkey] at hjob ⊢
      have hc : SystemCall sys.name (namespaceOf sys) { jobs := fun k => k = .format }
          (.deleteJob (jobKey sys.name (namespaceOf sys) .format)) := .deleteJob .format rfl
      have hahead : ∀ f, Ahead (removes sys.name .removeFormatApproved) sys (cluster.next t
          (.deleteJob (jobKey sys.name (namespaceOf sys) .format)) f) := fun f =>
        ht.ahead.next hc rfl rfl
      refine Prog.wp_ask (fun _ => Or.inr ⟨?_, hahead _, ?_⟩) fun f _ _ _ =>
        Or.inr (.ahead (hahead f).none)
      · rw [h.job] at hjob
        simpa [finishedResult, hjob, hlive, hfinished] using hres
      · exact hc.surroundings.2.1.trans ht.clock
  · rintro r t (⟨hrunning, hunread⟩ | ⟨rfl, hahead, hclock⟩)
    · exact Prog.wp_ite (fun _ => Or.inl hunread) fun hdone => by simp [hrunning] at hdone
    · have hdone : r.done = true := done_of_finishedResult hres
      refine Prog.wp_ite (fun hnot => by simp [hdone] at hnot) fun _ => ?_
      have hsome : p.sys.annotations.formatApproved.isNone = false := by
        simpa [Option.isSome_iff_ne_none] using happroved
      unfold clearApproval
      rw [hsome]
      unfold patch
      rw [hname]
      refine Prog.wp_bind (A := fun _ t => Behind (removes sys.name .removeFormatApproved) sys t ∧
        t.world.clock = w₀.clock) (Prog.wp_bind (A := fun _ t =>
          Behind (removes sys.name .removeFormatApproved) sys t ∧ t.world.clock = w₀.clock) ?_
          fun _ _ h => h) ?_
      · have hc : SystemCall sys.name "" formatScope
            (.patchSystem sys.name .removeFormatApproved) := .patch _ rfl
        have hkeep : (ask (.patchSystem sys.name .removeFormatApproved)).wp cluster rely t
            (fun _ u => True ∧ u.world.clock = w₀.clock) fun u => u.world.clock = w₀.clock :=
          (Prog.obeys_ask hc).wp (I := fun u : Point Call World => u.world.clock = w₀.clock)
            (fun c f u hc _ _ hu => hc.surroundings.2.1.trans hu) hclock
        exact Prog.wp_mono (Prog.wp_and (hahead.wp_remove (S := formatScope) rfl rfl "") hkeep)
          (fun _ _ h => ⟨h.1, h.2.2⟩) fun _ h => Or.inr h.1
      · rintro sys' u ⟨hu, hclock⟩
        exact Prog.wp_mono (wp_recordFormat (p := { p with sys := sys' }) hu hclock hformatted only)
          (fun _ _ h => Or.inr h) fun _ h => h

theorem wp_reconcileFormat_outcome {p : Pass} {inp : FormatInput} (hname : p.sys.name = sys.name)
    (hns : inp.ns = namespaceOf sys) (hres : finishedResult sys w₀ .format = some res)
    (hformatted : p.status.formatted = sys.status.formatted) (h : BeforeGate sys w₀ s) :
    (reconcileFormat inp p).wp cluster rely s
      (fun r t => Unread sys t.log ∨ Attempted sys res w₀.clock r.2 t)
      (FormatEnded sys res w₀.clock) := by
  refine Prog.wp_ite (fun _ => Or.inl h.unread) fun _ => ?_
  dsimp only
  cases hdecision : formatDecision (formatApproved p.sys && !external p.sys) p.status with
  | some only =>
      -- the system is not run elsewhere, and the approval is there
      have happroved : formatApproved p.sys = true ∧ external p.sys = false := by
        unfold formatDecision at hdecision
        split at hdecision
        · next hboth => simpa using (Bool.and_eq_true_iff.mp hboth).1
        · cases hdecision
      have hrefuse : refuseExternalFormat p.sys = .ret p.sys := by
        simp [refuseExternalFormat, happroved.2]
      have hsome : p.sys.annotations.formatApproved.isSome = true := by
        have htrue := of_decide_eq_true happroved.1
        rw [htrue]
        rfl
      rw [hrefuse]
      exact wp_formatPath_outcome hname hns hsome hres hformatted h only
  | none =>
      have hrefuse : (refuseExternalFormat p.sys).Obeys (SystemCall sys.name (namespaceOf sys)
          { jobs := fun k => k = .query, patches := formatScope.patches }) _ :=
        obeys_refuseExternalFormat hname rfl
      refine Prog.wp_bind (Prog.wp_mono (h.unread.wp hrefuse rfl) (fun _ _ h => h)
        fun _ h => Or.inl h) ?_
      rintro sys' t ⟨hsys', ht⟩
      have hquery : (queryPath inp (formatApproved p.sys && !external p.sys)
          { p with sys := sys' }).Obeys (SystemCall sys.name (namespaceOf sys)
            { jobs := fun k => k = .query, patches := formatScope.patches }) _ :=
        obeys_queryPath (p := { p with sys := sys' }) (hsys'.name.trans hname) hns rfl rfl _
      exact Prog.wp_mono (ht.wp hquery rfl) (fun _ _ h => Or.inl h.2) fun _ h => Or.inl h

/-- How a reconcile stands to the attempt, stage by stage. -/
def AtAttempt (sys : DaosSystem) (res : Dmg.Result) (w₀ : World) :
    Stage → Pass → Point Call World → Prop
  | .entered, _, t | .gate, _, t => BeforeGate sys w₀ t
  | .rankOp, p, t => Unread sys t.log ∨ Attempted sys res w₀.clock p t
  | .engines, p, t | .done, p, t => Unread sys t.log ∨
      Attempted sys res w₀.clock p t ∧ hangs sys (formattedAfter sys res) = false

theorem Attempted.step {p q : Pass} {t u : Point Call World} {now : Time}
    {mask : DaosSystemStatus → DaosSystemStatus} (h : Attempted sys res now p t)
    (hbehind : Behind (removes sys.name .removeFormatApproved) sys u)
    (hstatus : mask q.status = mask p.status)
    (hmask : ∀ st, (mask st).lastFormat = st.lastFormat ∧ (mask st).formatted = st.formatted) :
    Attempted sys res now q u := by
  have hlast : q.status.lastFormat = p.status.lastFormat := by
    rw [← (hmask q.status).1, hstatus, (hmask p.status).1]
  have hformatted : q.status.formatted = p.status.formatted := by
    rw [← (hmask q.status).2, hstatus, (hmask p.status).2]
  refine ⟨hbehind, ?_, hformatted.trans h.formatted⟩
  have hrecorded := h.recorded
  unfold formatRecorded at hrecorded ⊢
  rw [hlast]
  exact hrecorded

theorem format_stages (hranks : NarrowRanks sys.status)
    (hres : finishedResult sys w₀ .format = some res) :
    StageProof sys rely (fun t => NarrowWorld t.world ∧ BeforeGate sys w₀ t)
      (FormatEnded sys res w₀.clock)
      fun g p t => (NarrowWorld t.world ∧ NarrowRanks p.status) ∧ AtAttempt sys res w₀ g p t := by
  have hnarrow : StageProof sys rely _ _ _ := narrow_stages hranks
  exact
    { render := fun c f t hc hf hrely ht =>
        ⟨hnarrow.render c f t hc hf hrely ht.1, ht.2.next hc rfl rfl rfl f⟩
      stop := fun t ht => Or.inl ht.2.unread
      enter := fun p t hp ht => ⟨hnarrow.enter p t hp ht.1, ht.2⟩
      cond := fun g p st t hst ht => by
        refine ⟨hnarrow.cond g p st t hst ht.1, ?_⟩
        have hkeep : Attempted sys res w₀.clock p t →
            Attempted sys res w₀.clock { p with status := st } t := fun h =>
          h.step h.behind hst fun _ => ⟨rfl, rfl⟩
        cases g with
        | entered | gate => exact ht.2
        | rankOp => exact ht.2.imp_right hkeep
        | engines | done => exact ht.2.imp_right fun h => ⟨hkeep h.1, h.2⟩
      skip := fun p t hp ht => ht
      upgrade := fun rendered p t hp ht => by
        have hobeys := hp.carried.obeys_upgrade rendered
        have hgate : (reconcileUpgrade (namespaceOf sys) rendered p).wp cluster rely t
            (fun _ t => BeforeGate sys w₀ t) (FormatEnded sys res w₀.clock) :=
          Prog.wp_mono (hobeys.wp (I := BeforeGate sys w₀)
            (fun c f u hc _ _ hu => hu.next hc rfl rfl rfl f) ht.2) (fun _ _ h => h.2)
            fun _ h => Or.inl h.unread
        exact Prog.wp_mono (Prog.wp_and (hnarrow.upgrade rendered p t hp ht.1) hgate)
          (fun _ _ h => h) fun _ h => h.2
      format := fun inp p t hp ht => by
        have hformatted : p.status.formatted = sys.status.formatted := by
          have hmask := congrArg DaosSystemStatus.formatted hp.carried
          exact hmask
        exact Prog.wp_mono (Prog.wp_and (hnarrow.format inp p t hp ht.1)
          (wp_reconcileFormat_outcome hp.patched.name hp.ns hres hformatted ht.2))
          (fun _ _ h => h) fun _ h => h.2
      rankOp := fun p t hp ht => by
        have hobeys := hp.obeys
        refine Prog.wp_mono (Prog.wp_and (hnarrow.rankOp p t hp ht.1) ?_) (fun _ _ h => h)
          fun _ h => h.2
        rcases ht.2 with hunread | hattempted
        · exact Prog.wp_mono (hunread.wp hobeys rfl) (fun _ _ h => Or.inl h.2) fun _ h => Or.inl h
        · have hhangs : hangs p.sys p.status.formatted = hangs sys (formattedAfter sys res) := by
            have hasked : (p.sys.annotations.rankOp, p.sys.annotations.rankOpDiscardData) =
                (sys.annotations.rankOp, sys.annotations.rankOpDiscardData) := by
              refine hp.patched.proj
                (f := fun s => (s.annotations.rankOp, s.annotations.rankOpDiscardData)) ?_
              intro s q hq
              cases q with
              | removeRankOp => cases hq
              | _ => rfl
            obtain ⟨hreq, hdiscard⟩ := Prod.mk.inj hasked
            simp only [hangs, guarded, hreq, hdiscard, hattempted.formatted]
          by_cases hhang : hangs sys (formattedAfter sys res) = true
          · have hnever := obeys_reconcileRankOp_hangs (namespaceOf sys) (hhangs.trans hhang)
            refine Prog.wp_mono (Prog.wp_and_returns (hattempted.behind.wp hobeys rfl
              (brittle_reconcileRankOp ..) fun hok => ?_) hnever) (fun _ _ h => h.2.elim)
              fun _ h => Or.inr h
            rw [hhang] at hok
            cases hok
          · have hok : hangs sys (formattedAfter sys res) = false := by simpa using hhang
            refine Prog.wp_mono (hattempted.behind.wp hobeys rfl (brittle_reconcileRankOp ..)
              fun _ => Prog.wp_mono (steady_reconcileRankOp _ (hhangs.trans hok)).wp
                (fun _ _ _ => trivial) fun _ h => h) ?_ fun _ h => Or.inr h
            rintro r u ⟨hadv, hu⟩
            exact Or.inr ⟨hattempted.step hu hadv.status fun _ => ⟨rfl, rfl⟩, hok⟩
      engines := fun p t hp ht => by
        have hobeys := hp.obeys_engines
        refine Prog.wp_mono (Prog.wp_and (hnarrow.engines p t hp ht.1) ?_) (fun _ _ h => h)
          fun _ h => h.2
        rcases ht.2 with hunread | ⟨hattempted, hok⟩
        · exact Prog.wp_mono (hunread.wp hobeys rfl) (fun _ _ h => Or.inl h.2) fun _ h => Or.inl h
        · refine Prog.wp_mono (hattempted.behind.wp hobeys rfl (brittle_reconcileEngineRestart ..)
            fun _ => Prog.wp_mono (wp_reconcileEngineRestart_fails _ ht.1.1 ht.1.2)
              (fun _ _ _ => trivial) fun _ h => h) ?_ fun _ h => Or.inr h
          rintro r u ⟨hadv, hu⟩
          exact Or.inr ⟨hattempted.step hu hadv.status fun _ => ⟨rfl, rfl⟩, hok⟩
      write := fun g p t requeue hg hp ht => by
        have hunread : Unread sys t.log → (updateStatus p requeue).wp cluster rely t
            (fun _ => FormatEnded sys res w₀.clock) (FormatEnded sys res w₀.clock) := by
          intro h
          have hobeys : (updateStatus p requeue).Obeys
              (SystemCall sys.name (namespaceOf sys) { status := true }) fun _ => True :=
            obeys_updateStatus hp.name rfl requeue
          exact Prog.wp_mono (h.wp hobeys rfl) (fun _ _ h => Or.inl h.2) fun _ h => Or.inl h
        cases g with
        | entered | gate => exact hunread ht.2.unread
        | rankOp => exact absurd rfl hg
        | engines | done =>
            refine ht.2.elim hunread fun h => ?_
            exact Prog.wp_mono (h.1.behind.wp_updateStatus hp.name h.2 h.1.recorded requeue)
              (fun _ _ h => Or.inr h) fun _ h => Or.inr h }

end Format

theorem wp_reconcile_rankOp {sys : DaosSystem} {req : String} {w : World}
    (hsys : stored w.systems sys.name = some sys) (hnarrow : NarrowWorld w)
    (hreq : sys.annotations.rankOp = some req) :
    (reconcile sys.name).wp cluster (fun _ => True) ⟨w, []⟩ (fun _ => RankOpEnded sys req)
      (RankOpEnded sys req) := by
  have hstart : Ahead (removes sys.name .removeRankOp) sys ⟨w, []⟩ :=
    ⟨by simp, by simp [BeforeWrite], by simp [Kept, hsys]⟩
  have hread : ∀ f, Ahead (removes sys.name .removeRankOp) sys
      (cluster.next ⟨w, []⟩ (.getSystem sys.name) f) := fun f =>
    hstart.next (.quiet rfl : SystemCall sys.name "" {} _) rfl rfl
  refine wp_reconcile (fun f _ => .ahead (hread f).none) ?_
  intro sys' hsys' _ _
  obtain rfl : sys = sys' := Option.some.inj (hsys.symm.trans hsys')
  exact (rankOp_stages (hnarrow.stored _ _ hsys) hreq).wp_reconcileSystem ⟨hnarrow, hread .none⟩

theorem wp_reconcile_format {sys : DaosSystem} {res : Dmg.Result} {w : World}
    (hsys : stored w.systems sys.name = some sys) (hnarrow : NarrowWorld w)
    (hres : finishedResult sys w .format = some res) :
    (reconcile sys.name).wp cluster (fun _ => True) ⟨w, []⟩
      (fun _ => FormatEnded sys res w.clock) (FormatEnded sys res w.clock) := by
  have hstart : BeforeGate sys w ⟨w, []⟩ :=
    ⟨by simp [Unread], ⟨by simp, by simp [BeforeWrite], by simp [Kept, hsys]⟩, rfl, rfl⟩
  have hread : ∀ f, BeforeGate sys w (cluster.next ⟨w, []⟩ (.getSystem sys.name) f) := fun f =>
    hstart.next (.quiet rfl : SystemCall sys.name (namespaceOf sys) {} _) rfl rfl rfl f
  refine wp_reconcile (fun f _ => Or.inl (hread f).unread) ?_
  intro sys' hsys' _ _
  obtain rfl : sys = sys' := Option.some.inj (hsys.symm.trans hsys')
  exact (format_stages (hnarrow.stored _ _ hsys) hres).wp_reconcileSystem ⟨hnarrow, hread .none⟩

end System

/-! ## Every run -/

/-- A removed request has left its outcome behind exactly when nothing failed after it. -/
theorem outcome_left_iff (events : List Event) :
    ∀ step ∈ history events, LeavesOutcome step ↔ GoesThrough step := by
  intro step hstep
  refine forall₂_congr fun name hname => forall₂_congr fun sys hsys => ?_
  obtain ⟨before, e, after, rfl, rfl⟩ := Machine.exists_of_mem_history hstep
  obtain ⟨faults, rfl⟩ := Event.eq_of_system (e := e) hname
  obtain rfl : sys.name = name := (wellNamed_final before).systems.stored hsys
  have hnarrow := narrowWorld_final before
  refine and_congr (forall₂_congr fun r hr => forall₂_congr fun req hreq => ?_)
    (forall₂_congr fun r hr => forall₂_congr fun res hres => ?_)
  · have hended := Prog.exec_ends (wp_reconcile_rankOp hsys hnarrow hreq) faults
      fun _ _ => trivial
    have hiff := hended.recorded_iff hr
    rw [and_true] at hiff
    exact hiff
  · obtain ⟨hread, hfinished⟩ : _ ∧ finishedResult sys (final before) .format = some res :=
      Option.ite_none_right_eq_some.mp hres
    rcases Prog.exec_ends (wp_reconcile_format hsys hnarrow hfinished) faults
      fun _ _ => trivial with hunread | hended
    · obtain ⟨x, hx, hreads⟩ := List.any_eq_true.mp hread
      rw [hunread x hx] at hreads
      cases hreads
    · exact hended.recorded_iff hr

/-- A formatted system is asked to drain a rank, and the Job succeeds; `faults` strike the
reconcile that reads its result. -/
def drainRun (faults : List Fault) : List Event :=
  [.change (.createSystem "s" {}
      { msReplicas := 1, allowInsecure := true
        engines := [{ fabricIface := "ib0", bdevList := ["0000:81:00.0"] }] }),
    .change (.setNodes [{ name := "a" }]),
    .reconcileSystem "s" [],
    .change (.setReadyReplicas ⟨"daos-system", "s-server-a"⟩ 1),
    .change (.jobProgress ⟨"daos-system", "s-dmg-query"⟩ [.complete true]
      [{ name := "query", created := 0
         log := "\x7b\"response\":\x7b\"members\":" ++
          "[\x7b\"rank\":0,\"addr\":\"a\",\"state\":\"joined\"\x7d]\x7d\x7d" }]),
    .change (.annotateSystem "s" .rankOp (some "drain:0")),
    .reconcileSystem "s" [],
    .change (.jobProgress ⟨"daos-system", "s-dmg-rankop"⟩ [.complete true]
      [{ name := "rankop", created := 0, terminated := some (0, 0), log := "\x7b\x7d" }]),
    .reconcileSystem "s" faults]

/-- Without faults the drained rank is recorded when its request goes. -/
theorem outcome_left_drained :
    (∃ step ∈ history (drainRun []), (fromFirst (removes "s" .removeRankOp) step.obs).isSome) ∧
      ∀ step ∈ history (drainRun []), LeavesOutcome step := by
  have hrun : (∃ step ∈ history (drainRun []),
      (fromFirst (removes "s" .removeRankOp) step.obs).isSome) ∧
        ∀ step ∈ history (drainRun []), GoesThrough step := by
    decide +kernel
  exact ⟨hrun.1, fun step hstep =>
    (outcome_left_iff (drainRun []) step hstep).mpr (hrun.2 step hstep)⟩

/-- The status write is refused: the request is gone, and so is its outcome. -/
theorem outcome_lost_refusedWrite :
    ¬∀ step ∈ history (drainRun (List.replicate 18 .none ++ [.failed "timeout"])),
      LeavesOutcome step := by
  decide +kernel

end DaosOperator
