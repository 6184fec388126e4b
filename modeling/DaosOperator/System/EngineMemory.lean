import DaosOperator.Effect.Failure
import DaosOperator.System.Frame

/-!
# What the operator remembers about engines

The engine restart is the only stage that writes the memory of engines, and it writes it
at three points: under its lock, when a start has finished, and when the server pods of a
node have been deleted.  A property of worlds that survives these writes and every other
call of the stage holds after the stage.
-/

namespace DaosOperator.System

open Effect

/-- What the operator remembers about the engines of a system. -/
def enginesOf (w : World) (name : String) : EngineMemory := (w.memory.engines.get name).getD {}

/-- The world once the operator has noted something about the engines of a system. -/
def noteEngines (w : World) (name : String) (m : EngineMemory) : World :=
  { w with memory := { w.memory with engines := w.memory.engines.put name (some m) } }

/-- The calls of the engine restart that leave the memory of engines alone. -/
def startScope : Scope where
  jobs k := k = .engineStart
  pods := true

/-- A property of worlds that the engine restart keeps, once the plan is noted. -/
structure EnginesProof (name ns : String) (I : World → Prop) : Prop where
  other : ∀ c f w, SystemCall name ns startScope c → I w → I (cluster.respond c f w).2
  finished : ∀ w, I w → I (noteEngines w name { enginesOf w name with running := "" })
  touched : ∀ w ranks, I w → I (noteEngines w name (touchTries w.clock ranks (enginesOf w name)))

namespace EnginesProof

variable {name ns : String} {I : World → Prop} {rely : Entry Call World → Prop}
  {s : Point Call World}

theorem wp {α : Type} {P : α → Prop} {q : Op α} (h : EnginesProof name ns I)
    (hq : q.Obeys (SystemCall name ns startScope) P) (hs : I s.world) :
    q.wp cluster rely s (fun _ t => I t.world) fun t => I t.world :=
  Prog.wp_mono
    (hq.wp (I := fun t => I t.world) (fun c f t hc _ _ ht => h.other c f t.world hc ht) hs)
    (fun _ _ h => h.2) fun _ h => h

/-- The rule for calls of the process, which are always answered. -/
theorem wp_inProcess {α : Type} {c : Call} {f : Answer c → Op α}
    {A : α → Point Call World → Prop} {W : Point Call World → Prop} (hc : c.inProcess = true)
    (hf : (f (cluster.perform c s.world).1).wp cluster rely (cluster.next s c .none) A W) :
    ((ask c).bind f).wp cluster rely s A W := by
  refine Prog.wp_answered ?_ hf
  rintro g (hg | hfallible) _
  · exact hg
  · simp [cluster, hc] at hfallible

theorem wp_restartNode {sys : DaosSystem} (h : EnginesProof sys.name ns I) (st : DaosSystemStatus)
    (want : RankSet) (pods : List ServerPod) (u : Unit) (node : String) (hs : I s.world) :
    (restartNode sys st want pods u node).wp cluster rely s (fun _ t => I t.world)
      fun t => I t.world := by
  refine Prog.wp_ite (fun _ => h.wp (Prog.obeys_ask (.quiet rfl)) hs) fun _ => ?_
  refine Prog.wp_bind (A := fun _ t => I t.world) (h.wp (P := fun _ => True) ?_ hs) ?_
  · refine Prog.obeys_foldList (fun _ pod _ _ => ?_) trivial
    refine Prog.obeys_ite (fun _ => trivial) fun _ => ?_
    exact Prog.obeys_ask_bind (.deletePod pod.key rfl) fun _ => Prog.obeys_ask (.quiet rfl)
  · intro _ t ht
    refine wp_inProcess rfl (wp_inProcess rfl ?_)
    exact Prog.wp_ask (fun _ => h.touched t.world _ ht) nofun

theorem wp_finishStart {p : Pass} (h : EnginesProof name ns I) (hname : p.sys.name = name)
    (running : String) (res : Dmg.Result) (hs : I s.world) :
    (finishStart ns p running res).wp cluster rely s (fun _ t => I t.world)
      fun t => I t.world := by
  subst hname
  refine wp_inProcess rfl (wp_inProcess rfl ?_)
  have hfinished := h.finished s.world hs
  refine Prog.wp_bind (h.wp (Prog.obeys_ask (.clearHold _)) hfinished) ?_
  intro _ t ht
  refine Prog.wp_bind (h.wp (Prog.obeys_ask (.quiet rfl)) ht) ?_
  intro _ t ht
  refine Prog.wp_bind (A := fun _ t => I t.world) ?_ fun _ _ ht => ht
  refine Prog.wp_ite (fun _ => ?_) fun _ => ht
  unfold restartStuckServers
  split
  · exact ht
  · refine Prog.wp_bind (h.wp (P := fun _ => True) ?_ ht) ?_
    · exact Prog.obeys_ask_bind (.quiet rfl) fun _ => trivial
    · intro pods t ht
      refine Prog.wp_foldList (J := fun _ _ t => I t.world) ?_ ht
      intro _ node _ u t _ ht
      exact h.wp_restartNode p.status _ pods u node ht

/-- The engine restart keeps what holds once its plan is noted. -/
theorem wp_reconcileEngineRestart {p : Pass} (h : EnginesProof p.sys.name ns I)
    (hs : I (noteEngines s.world p.sys.name (planRestart s.world.clock
      (engineRestartCandidates p.sys p.status) p.status (enginesOf s.world p.sys.name)).memory)) :
    (reconcileEngineRestart ns p).wp cluster rely s (fun _ t => I t.world)
      fun t => I t.world := by
  refine wp_inProcess rfl (wp_inProcess rfl (wp_inProcess rfl ?_))
  refine Prog.wp_bind (h.wp (P := fun _ => True) ?_ hs) ?_
  · exact Prog.obeys_foldList (fun _ _ _ _ => obeys_event _ _ _ _) trivial
  intro _ t ht
  refine Prog.wp_ite (fun _ => ht) fun _ => ?_
  refine Prog.wp_bind (A := fun _ t => I t.world) ?_ ?_
  · exact Prog.wp_ite (fun _ => ht) fun _ => h.wp (Prog.obeys_ask (.quiet rfl)) ht
  intro _ t ht
  refine Prog.wp_bind (A := fun _ t => I t.world) ?_ ?_
  · refine Prog.wp_mapError.mpr (h.wp (P := fun _ => True) ?_ ht)
    exact obeys_runDmg .engineStart rfl rfl ⟨_, rfl⟩
  intro res t ht
  exact Prog.wp_ite (fun _ => ht) fun _ => h.wp_finishStart (by rfl) _ res ht

end EnginesProof
end DaosOperator.System
