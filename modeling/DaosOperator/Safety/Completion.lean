import DaosOperator.Safety.RankSets

/-!
# How far a `DaosSystem` reconcile gets

The format gate and the rank operation fail only when one of their calls fails, a
request whose rank set never ends apart; so does the engine restart, in every
reachable world.  From the rank operation on, the first call that fails ends the
reconcile, and with it the status it was about to write is lost.
-/

namespace DaosOperator

open Effect

/-- The call's failure ends a reconcile before its status is stored. -/
def interrupts (x : Entry Call World) : Bool :=
  match x.call with
  | .updateSystemStatus _ _ => x.fault.isFailed
  | _ => x.fault ≠ .none

def BeforeWrite (log : Log) : Prop := ∀ x ∈ log, ∀ name st, x.call ≠ .updateSystemStatus name st

theorem BeforeWrite.next {name ns : String} {S : System.Scope} {c : Call} {s : Point Call World}
    (h : BeforeWrite s.log) (hc : System.SystemCall name ns S c) (hS : S.status = false)
    (f : Fault) : BeforeWrite (cluster.next s c f).log := by
  intro x hx other st heq
  rcases Handler.mem_next_log hx with hx | rfl
  · exact h x hx other st heq
  · have hcall : c = .updateSystemStatus other st := heq
    rw [hcall] at hc
    have hstatus := hc.of_status.2
    rw [hS] at hstatus
    cases hstatus

theorem BeforeWrite.interrupts {log : Log} (h : BeforeWrite log) {y : Entry Call World}
    (hy : y ∈ log) (hfault : y.fault ≠ .none) : interrupts y = true := by
  unfold DaosOperator.interrupts
  split
  · next name st heq => exact absurd heq (h y hy name st)
  · simpa using hfault

namespace Dmg

theorem steady_run (s : RunSpec) : (run s).Steady fun _ => True := by
  refine Prog.steady_ask_bind ?_
  rintro (_ | job)
  · exact Prog.steady_ask_bind fun _ => trivial
  · refine Prog.steady_ite (fun _ => trivial) fun _ => ?_
    split
    · trivial
    · refine Prog.steady_ask_bind fun pods => ?_
      refine Prog.Steady.bind (P := fun _ => True) ?_
        fun _ _ => Prog.steady_ask_bind fun _ => trivial
      unfold readResult
      split
      · trivial
      · exact (Prog.steady_ask _).mapError.bind fun _ _ => trivial

theorem brittle_run (s : RunSpec) : (run s).Brittle := by
  refine Prog.brittle_ask_bind ?_
  rintro (_ | job)
  · exact Prog.brittle_ask_bind fun _ => trivial
  · refine Prog.brittle_ite trivial ?_
    split
    · trivial
    · refine Prog.brittle_ask_bind fun pods => ?_
      refine Prog.Brittle.bind ?_ fun _ => Prog.brittle_ask_bind fun _ => trivial
      unfold readResult
      split
      · trivial
      · exact (Prog.brittle_ask _).mapError.bind fun _ => trivial

end Dmg

namespace System

/-- The rank set of the request never ends. -/
def endlessRequest (sys : DaosSystem) : Bool :=
  match sys.annotations.rankOp.map parseRankOp with
  | some (.ok (_, ranks)) => (parseRankSet ranks).isNone
  | _ => false

/-- The check of the request runs into its rank set, which never ends; `formatted` is what
the format gate reports. -/
def hangs (sys : DaosSystem) (formatted : Bool) : Bool :=
  match sys.annotations.rankOp.map parseRankOp with
  | some (.ok (op, ranks)) =>
      formatted && (op = "reintegrate" || guarded sys op ranks) && (parseRankSet ranks).isNone
  | _ => false

theorem hangs_eq_false {sys : DaosSystem} (h : endlessRequest sys = false) (formatted : Bool) :
    hangs sys formatted = false := by
  unfold endlessRequest at h
  unfold hangs
  split
  · next op ranks heq =>
      rw [heq] at h
      have hends : (parseRankSet ranks).isNone = false := h
      rw [hends, Bool.and_false]
  · rfl

/-! ## Format and membership -/

theorem steady_clearApproval (sys : DaosSystem) : (clearApproval sys).Steady fun _ => True :=
  Prog.steady_ite (fun _ => trivial) fun _ => Prog.steady_ask_bind fun _ => trivial

theorem steady_recordFormat (only : List String) (res : Dmg.Result) (p : Pass) :
    (recordFormat only res p).Steady fun _ => True := by
  refine Prog.steady_ask_bind fun now => ?_
  refine Prog.steady_ite (fun _ => Prog.steady_ask_bind fun _ => trivial) fun _ => ?_
  exact Prog.steady_ask_bind fun _ => Prog.steady_ask_bind fun _ => trivial

theorem steady_formatPath (inp : FormatInput) (only : List String) (p : Pass) :
    (formatPath inp only p).Steady fun _ => True := by
  refine Prog.steady_ite (fun _ => trivial) fun _ => ?_
  refine (Dmg.steady_run _).mapError.bind fun res _ => ?_
  refine Prog.steady_ite (fun _ => trivial) fun _ => ?_
  exact (steady_clearApproval p.sys).bind fun sys _ => steady_recordFormat only res _

theorem steady_finishQuery (q : QueryRead) (sys : DaosSystem) :
    (finishQuery q sys).Steady fun _ => True := by
  refine Prog.Steady.bind (P := fun _ => True) ?_ fun _ _ => ?_
  · split
    · exact Prog.steady_ask _
    · trivial
  -- with every call answered, dropping the approval succeeds
  refine Prog.Steady.bind (P := fun r => ∃ sys', r = .ok sys' ∧ True) ?_ ?_
  · refine Prog.steady_ite (fun _ => (steady_clearApproval sys).attempt) fun _ => ?_
    exact ⟨sys, rfl, trivial⟩
  rintro _ ⟨sys', rfl, -⟩
  refine Prog.steady_ask_bind fun _ => ?_
  refine Prog.Steady.bind (P := fun _ => True) ?_ fun _ _ => trivial
  exact Prog.steady_ite (fun _ => Prog.steady_ask _) fun _ => trivial

theorem steady_queryPath (inp : FormatInput) (approved : Bool) (p : Pass) :
    (queryPath inp approved p).Steady fun _ => True := by
  refine Prog.steady_ask_bind fun wait => ?_
  refine Prog.steady_ite (fun _ => trivial) fun _ => ?_
  refine (Dmg.steady_run _).mapError.bind fun res _ => ?_
  refine Prog.steady_ite (fun _ => trivial) fun _ => ?_
  exact Prog.steady_ask_bind fun now => steady_finishQuery _ _

theorem steady_reconcileFormat (inp : FormatInput) (p : Pass) :
    (reconcileFormat inp p).Steady fun _ => True := by
  refine Prog.steady_ite (fun _ => trivial) fun _ => ?_
  refine Prog.Steady.bind (P := fun _ => True) ?_ fun sys _ => ?_
  · refine Prog.steady_ite (fun _ => ?_) fun _ => trivial
    exact Prog.steady_ask_bind fun _ => steady_clearApproval _
  split
  · exact steady_formatPath _ _ _
  · exact steady_queryPath _ _ _

/-! ## Rank operations -/

theorem steady_recordRankOp (p : Pass) (now : Time) (op ranks : String) (ok : Bool)
    (msg : String) : (recordRankOp p now op ranks ok msg).Steady fun _ => True := by
  refine Prog.steady_ask_bind fun _ => ?_
  refine Prog.Steady.bind (P := fun _ => True) ?_ fun _ _ => trivial
  exact Prog.steady_ite (fun _ => trivial) fun _ => Prog.steady_ask_bind fun _ => trivial

theorem brittle_recordRankOp (p : Pass) (now : Time) (op ranks : String) (ok : Bool)
    (msg : String) : (recordRankOp p now op ranks ok msg).Brittle := by
  refine Prog.brittle_ask_bind fun _ => ?_
  refine Prog.Brittle.bind ?_ fun _ => trivial
  exact Prog.brittle_ite trivial (Prog.brittle_ask_bind fun _ => trivial)

theorem steady_runRankOp (ns : String) (p : Pass) (now : Time) (op ranks : String) :
    (runRankOp ns p now op ranks).Steady fun _ => True := by
  refine (Dmg.steady_run _).mapError.bind fun res _ => ?_
  refine Prog.steady_ite (fun _ => trivial) fun _ => ?_
  unfold finishRankOp
  extract_lets since
  split
  · exact Prog.steady_ask_bind fun _ => trivial
  · refine Prog.Steady.bind (P := fun _ => True) ?_ fun _ _ => steady_recordRankOp _ _ _ _ _ _
    exact Prog.steady_ite (fun _ => Prog.steady_ask _) fun _ => trivial

theorem brittle_runRankOp (ns : String) (p : Pass) (now : Time) (op ranks : String) :
    (runRankOp ns p now op ranks).Brittle := by
  refine (Dmg.brittle_run _).mapError.bind fun res => ?_
  refine Prog.brittle_ite trivial ?_
  unfold finishRankOp
  extract_lets since
  split
  · exact Prog.brittle_ask_bind fun _ => trivial
  · refine Prog.Brittle.bind ?_ fun _ => brittle_recordRankOp ..
    exact Prog.brittle_ite (Prog.brittle_ask _) trivial

theorem steady_unlessRefused {p : Pass} {now : Time} {op ranks : String} {why : Option String}
    (hwhy : why.isSome = true) {next : Op (Duration × Pass)} (hnext : next.Steady fun _ => True) :
    (unlessRefused p now op ranks why next).Steady fun _ => True := by
  unfold unlessRefused
  split
  · cases hwhy
  · exact Prog.steady_ite (fun _ => steady_recordRankOp _ _ _ _ _ _) fun _ => hnext

theorem brittle_unlessRefused {p : Pass} {now : Time} {op ranks : String} {why : Option String}
    {next : Op (Duration × Pass)} (hnext : next.Brittle) :
    (unlessRefused p now op ranks why next).Brittle := by
  unfold unlessRefused
  split
  · trivial
  · exact Prog.brittle_ite (brittle_recordRankOp ..) hnext

theorem steady_reconcileRankOp (ns : String) {p : Pass}
    (h : hangs p.sys p.status.formatted = false) :
    (reconcileRankOp ns p).Steady fun _ => True := by
  unfold reconcileRankOp
  split
  · trivial
  · next req hreq =>
      refine Prog.steady_ask_bind fun now => ?_
      split
      · exact steady_recordRankOp _ _ _ _ _ _
      · next op ranks hparse =>
          simp only [hangs, hreq, hparse, Option.map_some] at h
          refine Prog.steady_ite (fun _ => steady_recordRankOp _ _ _ _ _ _) fun hformatted => ?_
          have hformatted : p.status.formatted = true := by simpa using hformatted
          rw [hformatted, Bool.true_and] at h
          refine steady_unlessRefused ?_ ?_
          · unfold rankOpPrecondition
            split
            · rfl
            · next hop =>
                simp only [not_not.mp hop, decide_true, Bool.true_or, Bool.true_and] at h
                simpa [Option.isSome_iff_ne_none] using h
          · refine Prog.steady_ite (fun hguarded => ?_) fun _ => steady_runRankOp _ _ _ _ _
            refine (Prog.steady_ask _).mapError.bind fun pools _ => ?_
            refine steady_unlessRefused ?_ (steady_runRankOp _ _ _ _ _)
            simp only [hguarded, Bool.or_true, Bool.true_and] at h
            simpa [guardRefusal, Option.isSome_iff_ne_none] using h

/-- A request whose check hangs is never done. -/
theorem obeys_reconcileRankOp_hangs (ns : String) {p : Pass}
    (h : hangs p.sys p.status.formatted = true) :
    (reconcileRankOp ns p).Obeys (fun _ => True) fun _ => False := by
  unfold hangs at h
  unfold reconcileRankOp
  split
  · next hnone => simp [hnone] at h
  · next req hreq =>
      refine Prog.obeys_ask_bind trivial fun now => ?_
      rw [hreq, Option.map_some] at h
      split
      · next e hparse => simp [hparse] at h
      · next op ranks hparse =>
          simp only [hparse, Bool.and_eq_true, Option.isNone_iff_eq_none] at h
          obtain ⟨⟨hformatted, hop⟩, hranks⟩ := h
          rw [if_neg (by simp [hformatted])]
          unfold rankOpPrecondition
          by_cases hreintegrate : op = "reintegrate"
          · rw [if_neg (by simpa using hreintegrate), hranks]
            trivial
          · rw [if_pos hreintegrate]
            have hguarded : guarded p.sys op ranks = true := by
              simpa [hreintegrate] using hop
            unfold unlessRefused guardRankOp
            simp only [ne_eq, not_true, if_false, hguarded, if_true]
            refine Prog.Obeys.bind (P := fun _ => True) (Prog.obeys_ask trivial).mapError ?_
            intro pools _
            simp only [guardRefusal, hranks, Option.map_none]
            trivial

theorem brittle_reconcileRankOp (ns : String) (p : Pass) : (reconcileRankOp ns p).Brittle := by
  unfold reconcileRankOp
  split
  · trivial
  · refine Prog.brittle_ask_bind fun now => ?_
    split
    · exact brittle_recordRankOp ..
    · refine Prog.brittle_ite (brittle_recordRankOp ..) ?_
      refine brittle_unlessRefused (Prog.brittle_ite ?_ (brittle_runRankOp ..))
      refine (Prog.brittle_ask _).mapError.bind fun pools => ?_
      exact brittle_unlessRefused (brittle_runRankOp ..)

/-! ## Engines -/

theorem steady_restartNode (sys : DaosSystem) (st : DaosSystemStatus) (want : RankSet)
    (pods : List ServerPod) (u : Unit) (node : String) :
    (restartNode sys st want pods u node).Steady fun _ => True := by
  refine Prog.steady_ite (fun _ => Prog.steady_ask _) fun _ => ?_
  refine Prog.Steady.bind (P := fun _ => True) ?_ fun _ _ => ?_
  · refine Prog.steady_foldList (fun _ pod _ _ => ?_) trivial
    refine Prog.steady_ite (fun _ => trivial) fun _ => ?_
    exact Prog.steady_ask_bind fun _ => Prog.steady_ask _
  · exact Prog.steady_ask_bind fun _ => Prog.steady_ask_bind fun _ => Prog.steady_ask _

theorem brittle_restartNode (sys : DaosSystem) (st : DaosSystemStatus) (want : RankSet)
    (pods : List ServerPod) (u : Unit) (node : String) :
    (restartNode sys st want pods u node).Brittle := by
  refine Prog.brittle_ite (Prog.brittle_ask _) ?_
  refine Prog.Brittle.bind ?_ fun _ => ?_
  · refine Prog.brittle_foldList (fun _ pod _ => ?_) _
    refine Prog.brittle_ite trivial ?_
    exact Prog.brittle_ask_bind fun _ => Prog.brittle_ask _
  · exact Prog.brittle_ask_bind fun _ => Prog.brittle_ask_bind fun _ => Prog.brittle_ask _

theorem steady_finishStart (ns : String) (p : Pass) {running : String} (res : Dmg.Result)
    (h : (parseRankSet running).isSome = true) :
    (finishStart ns p running res).Steady fun _ => True := by
  refine Prog.steady_ask_bind fun m => Prog.steady_ask_bind fun _ => Prog.steady_ask_bind fun _ =>
    Prog.steady_ask_bind fun _ => ?_
  refine Prog.Steady.bind (P := fun _ => True) ?_ fun _ _ => trivial
  refine Prog.steady_ite (fun _ => ?_) fun _ => trivial
  unfold restartStuckServers
  split
  · next hnone => simp [hnone] at h
  · refine Prog.Steady.bind (P := fun _ => True)
      (Prog.steady_ask_bind fun _ => trivial) fun _ _ => ?_
    exact Prog.steady_foldList (fun u node _ _ => steady_restartNode _ _ _ _ _ _) trivial

theorem brittle_finishStart (ns : String) (p : Pass) (running : String) (res : Dmg.Result) :
    (finishStart ns p running res).Brittle := by
  refine Prog.brittle_ask_bind fun m => Prog.brittle_ask_bind fun _ =>
    Prog.brittle_ask_bind fun _ => Prog.brittle_ask_bind fun _ => ?_
  refine Prog.Brittle.bind ?_ fun _ => trivial
  refine Prog.brittle_ite ?_ trivial
  unfold restartStuckServers
  split
  · trivial
  · refine Prog.Brittle.bind (Prog.brittle_ask_bind fun _ => trivial) fun _ => ?_
    exact Prog.brittle_foldList (fun u node _ => brittle_restartNode ..) _

theorem brittle_reconcileEngineRestart (ns : String) (p : Pass) :
    (reconcileEngineRestart ns p).Brittle := by
  refine Prog.brittle_ask_bind fun now => Prog.brittle_ask_bind fun m =>
    Prog.brittle_ask_bind fun _ => ?_
  refine Prog.Brittle.bind ?_ fun _ => ?_
  · refine Prog.brittle_foldList (fun _ rank _ => ?_) _
    exact Prog.brittle_ask _
  refine Prog.brittle_ite trivial ?_
  refine Prog.Brittle.bind (Prog.brittle_ite trivial (Prog.brittle_ask _)) fun _ => ?_
  refine (Dmg.brittle_run _).mapError.bind fun res => ?_
  exact Prog.brittle_ite trivial (brittle_finishStart ..)

/-- In a narrow world the engine restart fails only when a call does. -/
theorem wp_reconcileEngineRestart_fails {rely : Entry Call World → Prop} {s : Point Call World}
    (ns : String) {p : Pass} (h : NarrowWorld s.world) (hp : NarrowRanks p.status) :
    (reconcileEngineRestart ns p).wp cluster rely s (fun _ t => ∃ new, t.log = s.log ++ new)
      fun t => ∃ new, t.log = s.log ++ new ∧ ∃ y ∈ new, y.fault ≠ .none := by
  refine Prog.wp_bind (A := fun _ t => t = cluster.next s .now .none) ?_ ?_
  · exact Prog.wp_ask (fun _ => rfl) fun f _ hfallible => by cases hfallible
  rintro now _ rfl
  refine Prog.wp_bind (A := fun m t => BuiltRankSet m.running ∧
    t = cluster.next (cluster.next s .now .none) (.engineMemory p.sys.name) .none) ?_ ?_
  · refine Prog.wp_ask (fun _ => ⟨h.memory p.sys.name, rfl⟩) fun f _ hfallible => ?_
    cases hfallible
  rintro m _ ⟨hm, rfl⟩
  have hrunning : (parseRankSet (planRestart now (engineRestartCandidates p.sys p.status) p.status
      m).memory.running).isSome = true := (built_planRestart hp hm).parses
  obtain ⟨first, hfirst⟩ : ∃ first, (cluster.next (cluster.next s .now .none)
      (.engineMemory p.sys.name) .none).log = s.log ++ first := ⟨_, List.append_assoc ..⟩
  refine Prog.wp_mono (Prog.Steady.wp (P := fun _ => True) ?_) ?_ ?_
  · refine Prog.steady_ask_bind fun _ => ?_
    refine Prog.Steady.bind (P := fun _ => True) ?_ fun _ _ => ?_
    · refine Prog.steady_foldList (fun _ rank _ _ => ?_) trivial
      exact Prog.steady_ask _
    refine Prog.steady_ite (fun _ => trivial) fun _ => ?_
    refine Prog.Steady.bind (P := fun _ => True) ?_ fun _ _ => ?_
    · exact Prog.steady_ite (fun _ => trivial) fun _ => Prog.steady_ask _
    refine (Dmg.steady_run _).mapError.bind fun res _ => ?_
    exact Prog.steady_ite (fun _ => trivial) fun _ => steady_finishStart ns _ res hrunning
  · rintro _ t ⟨new, hnew⟩
    exact ⟨first ++ new, by rw [hnew, hfirst, List.append_assoc]⟩
  · rintro t ⟨new, hnew, y, hy, hfault⟩
    exact ⟨first ++ new, by rw [hnew, hfirst, List.append_assoc], y, by simp [hy], hfault⟩

end System
end DaosOperator
