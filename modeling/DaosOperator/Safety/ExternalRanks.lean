import DaosOperator.Effect.Failure
import DaosOperator.Safety.RankNumbers
import DaosOperator.Steps

/-!
# Rank operations of a system that is run elsewhere

`reconcileExternal` asks for the membership and then runs a requested rank operation, as for
a system the operator runs.  A `reintegrate` is refused for a rank whose engine is gone, and
whether it is gone is read from the node configurations, which only the other path writes.
-/

namespace DaosOperator.System

open Effect

/-! ## The property -/

/-- What `reconcileExternal` starts from once the nodes are selected. -/
def externalStart (sys : DaosSystem) (nodes : List Node) : Pass :=
  Pass.cond ⟨sys, carryStatus sys nodes⟩ .nodesSelected .isTrue "Selected"
    (toString nodes.length ++ " node(s)")

/-- The call creates the Job, or finds it at work. -/
def runsJob (key : ObjectKey) (args : List String) (x : Entry Call World) : Bool :=
  match x.call with
  | .createJob spec => spec.key = key && spec.command.args = args
  | .getJob k => k = key && (x.before.jobs.get k).isSome
  | _ => false

/-- A request to reintegrate ranks, as `reconcileExternal` finds it after it has asked for
the membership: the system is formatted, no rank that the request names is excluded by an
administrator, and no pool forbids it. -/
structure ReintegrateRequest (sys : DaosSystem) (nodes : List Node) (faults : List Fault)
    (w : World) (p : Pass) (v : World) (ranks : String) : Prop where
  membership : ∃ requeue, ((externalMembership (namespaceOf sys) (externalStart sys nodes)).exec
    cluster faults w).result = .ok (requeue, p)
  world : ((externalMembership (namespaceOf sys) (externalStart sys nodes)).exec
    cluster faults w).world = v
  formatted : p.status.formatted = true
  accepted : ∃ req, p.sys.annotations.rankOp = some req ∧
    parseRankOp req = .ok ("reintegrate", ranks)
  admin : ∀ rk ∈ p.status.ranks, Names ranks rk.rank → rk.state ≠ "adminexcluded"
  guard : guarded p.sys "reintegrate" ranks = true →
    ∀ why ∈ guardRefusal p.sys "reintegrate" ranks (perform .listPools v).1, why = ""

/-- The request goes to dmg: its Job is created, or one is at work. -/
def GoesToDmg (ns : String) (p : Pass) (v : World) (ranks : String) : Prop :=
  ∃ x ∈ ((reconcileRankOp ns p).exec cluster [] v).log,
    runsJob (jobKey p.sys.name ns .rankOp) (rankOpArgs "reintegrate" ranks) x = true
  deriving Decidable

/-- None of the ranks that `parseRankSet` finds in the request is in a state that needs a
ready server. -/
def NoneGone (ranks : String) (members : List RankStatus) : Prop :=
  ∃ want ∈ parseRankSet ranks, ∀ rk ∈ members, want.contains rk.rank = true →
    rk.state ≠ "adminexcluded" ∧ rk.state ∉ engineGoneStates
  deriving Decidable

/-! ## No node configurations -/

theorem nodeConfigs_externalMembership {sys : DaosSystem} {nodes : List Node} :
    (externalMembership (namespaceOf sys) (externalStart sys nodes)).Obeys (fun _ => True)
      fun r => r.2.status.nodeConfigs = [] := by
  refine Prog.obeys_ask_bind trivial fun _ => ?_
  refine Prog.obeys_ask_bind trivial fun _ => ?_
  refine Prog.obeys_ask_bind trivial fun agent => ?_
  refine (obeys_reconcileFormat rfl rfl).returns.mono (fun _ h => h) fun r hr => ?_
  have hconfigs := congrArg DaosSystemStatus.nodeConfigs hr.status
  exact hconfigs

theorem ReintegrateRequest.nodeConfigs {sys : DaosSystem} {nodes : List Node}
    {faults : List Fault} {w v : World} {p : Pass} {ranks : String}
    (h : ReintegrateRequest sys nodes faults w p v ranks) : p.status.nodeConfigs = [] := by
  obtain ⟨requeue, hresult⟩ := h.membership
  have hwp : (externalMembership (namespaceOf sys) (externalStart sys nodes)).wp cluster
      (fun _ => True) ⟨w, []⟩ (fun r _ => r.2.status.nodeConfigs = [] ∧ True) fun _ => True :=
    nodeConfigs_externalMembership.wp (fun _ _ _ _ _ _ h => h) trivial
  exact (Prog.exec_ok_of_wp hwp (fun _ _ => trivial) hresult).1

theorem nodeServerReady_of_nil {st : DaosSystemStatus} (h : st.nodeConfigs = []) (node : String) :
    nodeServerReady st node = false := by
  simp [nodeServerReady, h]

/-- Without node configurations every rank that needs a ready server is refused. -/
theorem reintegrateRefusal_eq_empty {want : RankSet} {st : DaosSystemStatus}
    (h : st.nodeConfigs = []) : reintegrateRefusal want st = "" ↔
      ∀ rk ∈ st.ranks, want.contains rk.rank = true →
        rk.state ≠ "adminexcluded" ∧ rk.state ∉ engineGoneStates := by
  have hstates : (∀ rk ∈ st.ranks, want.contains rk.rank = true →
      rk.state ≠ "adminexcluded" ∧ rk.state ∉ engineGoneStates) ↔
      ((st.ranks.filter fun rk => want.contains rk.rank).filter fun rk =>
        rk.state = "adminexcluded") = [] ∧
      ((st.ranks.filter fun rk => want.contains rk.rank).filter fun rk =>
        rk.state ∈ engineGoneStates ∧ !nodeServerReady st rk.node) = [] := by
    simp only [List.filter_eq_nil_iff, List.mem_filter, nodeServerReady_of_nil h,
      decide_eq_true_eq, Bool.not_false, and_true, and_imp, ← forall_and]
  rw [hstates]
  unfold reintegrateRefusal
  dsimp only
  generalize ((st.ranks.filter fun rk => want.contains rk.rank).filter fun rk =>
    rk.state = "adminexcluded") = admin
  generalize ((st.ranks.filter fun rk => want.contains rk.rank).filter fun rk =>
    rk.state ∈ engineGoneStates ∧ !nodeServerReady st rk.node) = down
  cases admin with
  | cons rk admin => simp
  | nil =>
      cases down with
      | cons rk down => simp
      | nil => simp

/-! ## The request -/

section Request
variable {ns ranks : String} {p : Pass} {v : World}

/-- The log has the Job of the request. -/
def HasJob (ns ranks : String) (p : Pass) (t : Point Call World) : Prop :=
  ∃ x ∈ t.log, runsJob (jobKey p.sys.name ns .rankOp) (rankOpArgs "reintegrate" ranks) x = true

theorem HasJob.wp {α : Type} {s : Point Call World} {rely : Entry Call World → Prop}
    (h : HasJob ns ranks p s) (q : Op α) :
    q.wp cluster rely s (fun _ => HasJob ns ranks p) (HasJob ns ranks p) := by
  have hgrows : ∀ t : Point Call World, (∃ new, t.log = s.log ++ new) → HasJob ns ranks p t := by
    rintro t ⟨new, hnew⟩
    obtain ⟨x, hx, hruns⟩ := h
    exact ⟨x, by simp [hnew, hx], hruns⟩
  exact Prog.wp_mono (Prog.wp_log q) (fun _ => hgrows) hgrows

theorem wp_runRankOp_hasJob (s : Point Call World) (now : Time) :
    (runRankOp ns p now "reintegrate" ranks).wp cluster (fun e => e.fault = .none) s
      (fun _ => HasJob ns ranks p) (HasJob ns ranks p) := by
  refine Prog.wp_bind (A := fun _ => HasJob ns ranks p) ?_ fun res t ht => ht.wp _
  refine Prog.wp_mapError.mpr ?_
  refine Prog.wp_answered (fun _ _ h => h) ?_
  have hread : (cluster.perform (.getJob (jobKey p.sys.name ns .rankOp)) s.world).1 =
      s.world.jobs.get (jobKey p.sys.name ns .rankOp) := rfl
  cases hjob : s.world.jobs.get (jobKey p.sys.name ns .rankOp) with
  | none =>
      rw [hjob] at hread
      rw [show (jobSpec p.sys ns .rankOp (.dmg (rankOpArgs "reintegrate" ranks))).key =
        jobKey p.sys.name ns .rankOp from rfl, hread]
      refine Prog.wp_answered (fun _ _ h => h) ?_
      exact ⟨_, List.mem_append_right _ (List.mem_singleton.mpr rfl), by
        simp [runsJob, jobSpec, Dmg.Command.args]⟩
  | some job =>
      refine HasJob.wp ?_ _
      exact ⟨_, List.mem_append_right _ (List.mem_singleton.mpr rfl), by
        simp [runsJob, jobSpec, hjob]⟩

/-- A request that is not refused goes to dmg. -/
theorem wp_reconcileRankOp_hasJob {req : String} {want : RankSet}
    (hreq : p.sys.annotations.rankOp = some req)
    (hparse : parseRankOp req = .ok ("reintegrate", ranks))
    (hformatted : p.status.formatted = true) (hwant : parseRankSet ranks = some want)
    (hstates : reintegrateRefusal want p.status = "")
    (hguard : guarded p.sys "reintegrate" ranks = true →
      ∀ why ∈ guardRefusal p.sys "reintegrate" ranks (perform .listPools v).1, why = "") :
    (reconcileRankOp ns p).wp cluster (fun e => e.fault = .none) ⟨v, []⟩
      (fun _ => HasJob ns ranks p) (HasJob ns ranks p) := by
  have hprecondition : rankOpPrecondition "reintegrate" ranks p.status = some "" := by
    simp [rankOpPrecondition, hwant, hstates]
  unfold reconcileRankOp
  rw [hreq]
  refine Prog.wp_answered (fun _ _ h => h) ?_
  simp only [hparse, hformatted, hprecondition]
  change (guardRankOp ns p _ "reintegrate" ranks).wp cluster _ _ _ _
  refine Prog.wp_ite (fun hguarded => ?_) fun _ => wp_runRankOp_hasJob _ _
  refine Prog.wp_bind (A := fun pools _ => pools = (perform .listPools v).1) ?_ ?_
  · refine Prog.wp_mapError.mpr ?_
    exact Prog.wp_ask (fun _ => rfl) fun f hf _ h => absurd h hf
  rintro pools t rfl
  have hrefusal : guardRefusal p.sys "reintegrate" ranks (perform .listPools v).1 = some "" := by
    have hsome : guardRefusal p.sys "reintegrate" ranks (perform .listPools v).1 =
        some (poolRefusal p.sys "reintegrate" ranks want (perform .listPools v).1) := by
      simp [guardRefusal, hwant]
    rw [hsome, hguard hguarded _ hsome]
  rw [hrefusal]
  exact wp_runRankOp_hasJob t _

def NoJob : Call → Prop
  | .createJob _ | .getJob _ => False
  | _ => True

theorem noJob_recordRankOp (now : Time) (op msg : String) (ok : Bool) :
    (recordRankOp p now op ranks ok msg).Obeys NoJob fun _ => True := by
  refine Prog.obeys_ask_bind trivial fun _ => ?_
  refine Prog.Obeys.bind (P := fun _ => True) ?_ fun _ _ => trivial
  refine Prog.obeys_ite (fun _ => trivial) fun _ => ?_
  exact Prog.obeys_ask_bind trivial fun _ => trivial

theorem noJob_reconcileRankOp {req : String} (hreq : p.sys.annotations.rankOp = some req)
    (hparse : parseRankOp req = .ok ("reintegrate", ranks))
    (hrefused : ∀ want, parseRankSet ranks = some want → reintegrateRefusal want p.status ≠ "") :
    (reconcileRankOp ns p).Obeys NoJob fun _ => True := by
  unfold reconcileRankOp
  rw [hreq]
  refine Prog.obeys_ask_bind trivial fun now => ?_
  simp only [hparse]
  refine Prog.obeys_ite (fun _ => noJob_recordRankOp ..) fun _ => ?_
  cases hwant : parseRankSet ranks with
  | none => simp [rankOpPrecondition, hwant, unlessRefused]
  | some want =>
      have hprecondition : rankOpPrecondition "reintegrate" ranks p.status =
          some (reintegrateRefusal want p.status) := by
        simp [rankOpPrecondition, hwant]
      rw [hprecondition]
      exact Prog.obeys_ite (fun _ => noJob_recordRankOp ..) fun hempty =>
        absurd hempty (by simpa using hrefused want hwant)

end Request

/-- On a system that is run elsewhere, a request to reintegrate ranks goes to dmg exactly if
no rank that is found in it is in a state that needs a ready server. -/
theorem external_reintegrate {sys : DaosSystem} {nodes : List Node} {faults : List Fault}
    {w v : World} {p : Pass} {ranks : String}
    (h : ReintegrateRequest sys nodes faults w p v ranks) :
    GoesToDmg (namespaceOf sys) p v ranks ↔ NoneGone ranks p.status.ranks := by
  obtain ⟨req, hreq, hparse⟩ := h.accepted
  have hrefusal : ∀ want : RankSet, reintegrateRefusal want p.status = "" ↔
      ∀ rk ∈ p.status.ranks, want.contains rk.rank = true →
        rk.state ≠ "adminexcluded" ∧ rk.state ∉ engineGoneStates :=
    fun _ => reintegrateRefusal_eq_empty h.nodeConfigs
  constructor
  · intro hgoes
    by_contra hgone
    have hrefused : ∀ want, parseRankSet ranks = some want →
        reintegrateRefusal want p.status ≠ "" := by
      intro want hwant hempty
      exact hgone ⟨want, hwant, (hrefusal want).mp hempty⟩
    obtain ⟨x, hx, hruns⟩ := hgoes
    have hcall := (noJob_reconcileRankOp hreq hparse hrefused).log cluster [] v x hx
    unfold runsJob at hruns
    generalize x.call = c at hcall hruns
    cases c with
    | createJob spec => exact hcall
    | getJob key => exact hcall
    | _ => cases hruns
  · rintro ⟨want, hwant, hstates⟩
    exact Prog.exec_ends (wp_reconcileRankOp_hasJob hreq hparse h.formatted hwant
      ((hrefusal want).mpr hstates) h.guard) [] (Prog.fault_of_exec_nil _)

/-- The only rank of a system that is run elsewhere is in this state, and somebody asks to
reintegrate it. -/
def reintegrateRun (state : String) : List Event :=
  [.change (.createSystem "s" {}
      { externalMsReplicas := ["m"], allowInsecure := true, msReplicas := 1 }),
    .change (.setNodes [{ name := "a" }]), .reconcileSystem "s" [],
    jobAnswers ⟨"daos-system", "s-dmg-query"⟩
      ("\x7b\"response\":\x7b\"members\":[\x7b\"rank\":0,\"addr\":\"a:1\",\"state\":\"" ++ state ++
        "\"\x7d]\x7d\x7d"),
    .reconcileSystem "s" [], .change (.annotateSystem "s" .rankOp (some "reintegrate:0"))]

/-- The system at the end of that run. -/
def requestedSystem (state : String) : DaosSystem :=
  (stored (final (reintegrateRun state)).systems "s").getD
    { name := "s", spec := { msReplicas := 1 } }

/-- The next reconcile up to the membership. -/
def requestedMembership (state : String) : Outcome Call World (Duration × Pass) :=
  (externalMembership (namespaceOf (requestedSystem state))
    (externalStart (requestedSystem state) [{ name := "a" }])).exec cluster []
    (final (reintegrateRun state))

/-- What makes it a request that nothing forbids. -/
def Unforbidden (v : World) (r : Duration × Pass) : Prop :=
  r.2.status.formatted = true ∧ r.2.sys.annotations.rankOp = some "reintegrate:0" ∧
    (∀ rk ∈ r.2.status.ranks, rk.state ≠ "adminexcluded") ∧
    (guarded r.2.sys "reintegrate" "0" = true →
      ∀ why ∈ guardRefusal r.2.sys "reintegrate" "0" (perform .listPools v).1, why = "")
  deriving Decidable

theorem reintegrateRequest_of_unforbidden {state : String} {r : Duration × Pass}
    (hr : (requestedMembership state).result.toOption = some r)
    (h : Unforbidden (requestedMembership state).world r) :
    ReintegrateRequest (requestedSystem state) [{ name := "a" }] []
      (final (reintegrateRun state)) r.2 (requestedMembership state).world "0" where
  membership := by
    refine ⟨r.1, ?_⟩
    have hresult : (requestedMembership state).result = .ok r := by
      cases hcase : (requestedMembership state).result with
      | error e =>
          rw [hcase] at hr
          cases hr
      | ok r' =>
          rw [hcase] at hr
          cases hr
          rfl
    exact hresult
  world := rfl
  formatted := h.1
  accepted := ⟨"reintegrate:0", h.2.1, by decide⟩
  admin := fun rk hrk _ => h.2.2.1 rk hrk
  guard := h.2.2.2

/-- A rank that is joined is reintegrated. -/
theorem external_reintegrate_joined :
    ∃ r ∈ (requestedMembership "joined").result.toOption,
      GoesToDmg (namespaceOf (requestedSystem "joined")) r.2
        (requestedMembership "joined").world "0" := by
  have hrun : ∃ r ∈ (requestedMembership "joined").result.toOption,
      Unforbidden (requestedMembership "joined").world r ∧ NoneGone "0" r.2.status.ranks := by
    decide +kernel
  obtain ⟨r, hr, hrequest, hstates⟩ := hrun
  exact ⟨r, hr, (external_reintegrate (reintegrateRequest_of_unforbidden hr hrequest)).mpr hstates⟩

/-- A rank that is excluded is not. -/
theorem external_reintegrate_excluded :
    ∃ r ∈ (requestedMembership "excluded").result.toOption,
      ReintegrateRequest (requestedSystem "excluded") [{ name := "a" }] []
        (final (reintegrateRun "excluded")) r.2 (requestedMembership "excluded").world "0" ∧
      ¬GoesToDmg (namespaceOf (requestedSystem "excluded")) r.2
        (requestedMembership "excluded").world "0" := by
  have hrun : ∃ r ∈ (requestedMembership "excluded").result.toOption,
      Unforbidden (requestedMembership "excluded").world r ∧
        ¬GoesToDmg (namespaceOf (requestedSystem "excluded")) r.2
          (requestedMembership "excluded").world "0" := by
    decide +kernel
  obtain ⟨r, hr, hrequest, hstays⟩ := hrun
  exact ⟨r, hr, reintegrateRequest_of_unforbidden hr hrequest, hstays⟩

end DaosOperator.System
