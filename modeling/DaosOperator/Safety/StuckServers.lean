import DaosOperator.Safety.Completion
import Mathlib.Data.List.Dedup

/-!
# The server pods a failed engine start costs

A start asks for ranks on several nodes, and its outcome is one flag for all of them:
DAOS was reached and did not start the engines.  The pods to delete are then chosen by
the ranks the start asked for, not by the ranks that failed.  A node without a failed
rank keeps its pod exactly where the errors of the start cover its nodes.
-/

namespace DaosOperator.System

open Effect

/-! ## What a finished start says -/

def startTimedOut (res : Dmg.Result) : Bool :=
  match parseResult res with
  | .error _ => false
  | .ok env => env.error.any (Text.contains · "timed out")

/-- The ranks for which the start reports an error. -/
def failedRanks (res : Dmg.Result) : List Int :=
  match parseResult res with
  | .error _ => []
  | .ok env =>
      match env.error, Dmg.rankOp env with
      | none, .ok results => (results.filter (·.errored)).map (·.rank)
      | _, _ => []

theorem stuck_iff (res : Dmg.Result) (ranks : String) :
    (engineStartOutcome res ranks).stuck = true ↔
      startTimedOut res = true ∨ failedRanks res ≠ [] := by
  unfold engineStartOutcome startTimedOut failedRanks
  cases parseResult res with
  | error e => simp
  | ok env =>
      dsimp only
      cases env.error with
      | some e => simp
      | none =>
          dsimp only
          cases Dmg.rankOp env with
          | error e => simp
          | ok results =>
              dsimp only
              by_cases hfailed : results.filter (·.errored) = []
              · rw [hfailed]
                simp
              · rw [if_pos (by simpa using hfailed)]
                simpa using hfailed

/-- A rank of the node is among those that failed. -/
def FailedOn (st : DaosSystemStatus) (res : Dmg.Result) (node : String) : Prop :=
  ∃ rk ∈ st.ranks, rk.node = node ∧ rk.rank ∈ failedRanks res
  deriving Decidable

/-! ## Which pods go -/

/-- The pod is one the start deletes when it could not bring its ranks back: it is up, a
rank of the start is on its node, and no other rank there is joined. -/
structure Doomed (pods : List ServerPod) (st : DaosSystemStatus) (want : RankSet)
    (pod : ServerPod) : Prop where
  listed : pod ∈ pods
  alive : pod.terminating = false
  asked : pod.node ∈ stuckNodes st want
  alone : healthyOn st want pod.node = false

theorem mem_stuckNodes {st : DaosSystemStatus} {want : RankSet} {node : String} :
    node ∈ stuckNodes st want ↔ ∃ rk ∈ st.ranks, want.contains rk.rank = true ∧ rk.node = node := by
  unfold stuckNodes
  rw [(Text.perm_sortStrings _).mem_iff, List.mem_dedup]
  simp only [List.mem_map, List.mem_filter, and_assoc]

def DeletesDoomed (pods : List ServerPod) (st : DaosSystemStatus) (want : RankSet) (c : Call) :
    Prop :=
  ∀ key, c = .deletePod key → ∃ pod, Doomed pods st want pod ∧ pod.key = key

section Chosen

variable {sys : DaosSystem} {st : DaosSystemStatus} {want : RankSet} {pods : List ServerPod}

theorem obeys_restartNode_doomed {node : String} (hnode : node ∈ stuckNodes st want) :
    (restartNode sys st want pods () node).Obeys (DeletesDoomed pods st want) fun _ => True := by
  refine Prog.obeys_ite (fun _ => Prog.obeys_ask nofun) fun hhealthy => ?_
  refine Prog.Obeys.bind (P := fun _ => True) ?_ fun _ _ => ?_
  · refine Prog.obeys_foldList (fun _ pod hpod _ => ?_) trivial
    refine Prog.obeys_ite (fun _ => trivial) fun hkept => ?_
    push Not at hkept
    obtain ⟨rfl, halive⟩ := hkept
    refine Prog.obeys_ask_bind ?_ fun _ => Prog.obeys_ask nofun
    rintro key ⟨rfl⟩
    exact ⟨pod, ⟨hpod, by simpa using halive, hnode, by simpa using hhealthy⟩, rfl⟩
  · refine Prog.obeys_ask_bind nofun fun now => ?_
    refine Prog.obeys_ask_bind nofun fun m => ?_
    exact Prog.obeys_ask nofun

theorem makes_restartNode {pod : ServerPod} (hpod : Doomed pods st want pod) (u : Unit) :
    (restartNode sys st want pods u pod.node).Makes (· = .deletePod pod.key) := by
  unfold restartNode
  rw [if_neg (by simp [hpod.alone])]
  refine Prog.Makes.bind ?_ _
  refine Prog.makes_foldList (fun _ other _ => ?_) hpod.listed (fun _ => ?_) ()
  · refine Prog.steady_ite (fun _ => trivial) fun _ => ?_
    exact Prog.steady_ask_bind fun _ => Prog.steady_ask _
  · unfold deleteStuckPod
    rw [if_neg (by simp [hpod.alive])]
    exact Or.inl rfl

end Chosen

/-! ## Acting on a finished start -/

/-- Every deletion so far is one that `K` allows. -/
def OnlyDeletes (K : ObjectKey → Prop) (log : List (Entry Call World)) : Prop :=
  ∀ e ∈ log, ∀ key, e.call = .deletePod key → K key

theorem OnlyDeletes.next {K : ObjectKey → Prop} {t : Point Call World} (h : OnlyDeletes K t.log)
    {c : Call} (hc : ∀ key, c = .deletePod key → K key) (f : Fault) :
    OnlyDeletes K (cluster.next t c f).log := by
  intro e he key hkey
  rcases List.mem_append.mp he with hold | hnew
  · exact h e hold key hkey
  · obtain rfl := List.mem_singleton.mp hnew
    exact hc key hkey

section Finish

variable {w : World} {ns : String} {p : Pass} {running : String} {res : Dmg.Result}

/-- The keys of the pods a finished start deletes. -/
def doomedKeys (w : World) (ns : String) (p : Pass) (running : String) (res : Dmg.Result)
    (key : ObjectKey) : Prop :=
  (engineStartOutcome res running).stuck = true ∧
    ∃ want, parseRankSet running = some want ∧
      ∃ pod, Doomed (w.serverPodsOf ns p.sys.name) p.status want pod ∧ pod.key = key

/-- A prefix of `finishStart`: no pod has been touched. -/
structure PodsUp (w : World) (K : ObjectKey → Prop) (t : Point Call World) : Prop where
  pods : t.world.serverPods = w.serverPods
  deletes : OnlyDeletes K t.log

theorem PodsUp.wp_ask {K : ObjectKey → Prop} {t : Point Call World} (h : PodsUp w K t)
    (name : String) {c : Call} (hc : SystemCall name "" { engines := true } c) :
    (ask c).wp cluster (fun _ => True) t (fun _ u => PodsUp w K u)
      fun u => OnlyDeletes K u.log := by
  have hkey : ∀ key, c = .deletePod key → K key := by
    rintro key rfl
    cases hc with
    | quiet hquiet => cases hquiet
    | deletePod key hpods => cases hpods
  have hnext : ∀ f, PodsUp w K (cluster.next t c f) := fun f =>
    ⟨(hc.serverPods rfl).trans h.pods, h.deletes.next hkey f⟩
  exact Prog.wp_ask (fun _ => hnext .none) fun f _ _ _ => (hnext f).deletes

theorem wp_finishStart_doomed (w : World) :
    (finishStart ns p running res).wp cluster (fun _ => True) ⟨w, []⟩
      (fun _ t => OnlyDeletes (doomedKeys w ns p running res) t.log)
      fun t => OnlyDeletes (doomedKeys w ns p running res) t.log := by
  have hstart : PodsUp w (doomedKeys w ns p running res) ⟨w, []⟩ := ⟨rfl, by simp [OnlyDeletes]⟩
  refine Prog.wp_bind (hstart.wp_ask p.sys.name (.quiet rfl)) ?_
  intro m t ht
  refine Prog.wp_bind (ht.wp_ask p.sys.name (.setEngineMemory _ rfl)) ?_
  intro _ t ht
  refine Prog.wp_bind (ht.wp_ask p.sys.name (.clearHold _)) ?_
  intro _ t ht
  refine Prog.wp_bind (ht.wp_ask p.sys.name (.quiet rfl)) ?_
  intro _ t ht
  refine Prog.wp_bind (A := fun _ t => OnlyDeletes _ t.log) ?_ fun _ _ hdeletes => hdeletes
  refine Prog.wp_ite (fun hstuck => ?_) fun _ => ht.deletes
  unfold restartStuckServers
  split
  · exact ht.deletes
  · next want hwant =>
      -- the list of pods is the one of the world the start finished in
      refine Prog.wp_bind (A := fun pods t => (∀ pod ∈ pods, pod ∈ w.serverPodsOf ns p.sys.name) ∧
        OnlyDeletes (doomedKeys w ns p running res) t.log) ?_ ?_
      · refine Prog.wp_bind (A := fun pods t => pods = w.serverPodsOf ns p.sys.name ∧
          OnlyDeletes (doomedKeys w ns p running res) t.log) ?_ ?_
        · have hlist : ∀ f, OnlyDeletes (doomedKeys w ns p running res)
              (cluster.next t (.listServerPods ns p.sys.name) f).log := ht.deletes.next nofun
          refine Prog.wp_ask (fun _ => ⟨?_, hlist .none⟩) fun f _ _ _ => hlist f
          change t.world.serverPodsOf ns p.sys.name = _
          unfold World.serverPodsOf
          rw [ht.pods]
        · rintro pods t ⟨rfl, hdeletes⟩
          exact ⟨fun pod hpod => (List.mem_insertionSort _).mp hpod, hdeletes⟩
      · rintro pods t ⟨hpods, hdeletes⟩
        have hobeys : (Prog.foldList (restartNode p.sys p.status want pods)
            (stuckNodes p.status want) ()).Obeys (DeletesDoomed pods p.status want)
            fun _ => True :=
          Prog.obeys_foldList (fun _ node hnode _ => obeys_restartNode_doomed hnode) trivial
        refine Prog.wp_mono (hobeys.wp (I := fun t => OnlyDeletes (doomedKeys w ns p running res)
          t.log) ?_ hdeletes) (fun _ _ h => h.2) fun _ h => h
        intro c f t hc _ _ ht
        refine ht.next ?_ f
        intro key hkey
        obtain ⟨pod, hpod, rfl⟩ := hc key hkey
        exact ⟨hstuck, want, hwant, pod, { hpod with listed := hpods pod hpod.listed }, rfl⟩

/-- Where every call is answered, the doomed pods are deleted. -/
theorem finishStart_deletes {key : ObjectKey} (h : doomedKeys w ns p running res key) :
    ∃ e ∈ ((finishStart ns p running res).exec cluster [] w).log, e.call = .deletePod key := by
  obtain ⟨hstuck, want, hwant, pod, hpod, rfl⟩ := h
  have hsure : ∀ e : Entry Call World, e.fault = .none → e.fault = .none := fun _ he => he
  have hwp : (finishStart ns p running res).wp cluster (fun e => e.fault = .none) ⟨w, []⟩
      (fun _ t => ∃ e ∈ t.log, e.call = .deletePod pod.key)
      fun t => ∃ e ∈ t.log, e.call = .deletePod pod.key := by
    refine Prog.wp_answered (fun _ _ hg => hg) ?_
    refine Prog.wp_answered (fun _ _ hg => hg) ?_
    refine Prog.wp_answered (fun _ _ hg => hg) ?_
    refine Prog.wp_answered (fun _ _ hg => hg) ?_
    refine Prog.wp_bind (A := fun _ t => ∃ e ∈ t.log, e.call = Call.deletePod pod.key) ?_
      fun _ _ h => h
    rw [if_pos hstuck]
    unfold restartStuckServers
    rw [hwant]
    refine Prog.wp_bind (A := fun pods _ => pod ∈ pods) ?_ ?_
    · refine Prog.wp_answered (fun _ _ hg => hg) ?_
      exact (List.mem_insertionSort _).mpr hpod.listed
    · intro pods t hpods
      refine Prog.Makes.wp (C := (· = .deletePod pod.key)) ?_ hsure
      refine Prog.makes_foldList (fun u node _ => steady_restartNode _ _ _ _ u node) hpod.asked
        (fun u => ?_) ()
      exact makes_restartNode { hpod with listed := hpods } u
  exact Prog.exec_ends hwp [] (Prog.fault_of_exec_nil _)

end Finish

/-! ## Nodes that failed -/

/-- Whatever calls fail, acting on a finished start deletes the server pod of a node only if
the request timed out as a whole or a rank of the node failed. -/
def OnlyFailedNodes (w : World) (ns : String) (p : Pass) (running : String) (res : Dmg.Result) :
    Prop :=
  ∀ faults, ∀ e ∈ ((finishStart ns p running res).exec cluster faults w).log, ∀ key,
    e.call = .deletePod key → ∀ pod ∈ w.serverPods, pod.key = key →
      startTimedOut res = true ∨ FailedOn p.status res pod.node

/-- The errors of a start cover its nodes: it timed out, or no rank failed, or each of its
ranks shares its node with a failed rank, or with a joined one outside the start, or has no
server pod that is up. -/
def ErrorsCover (w : World) (ns : String) (p : Pass) (running : String) (res : Dmg.Result) :
    Prop :=
  startTimedOut res = true ∨ failedRanks res = [] ∨
    ∀ want, parseRankSet running = some want →
      ∀ rk ∈ p.status.ranks, want.contains rk.rank = true →
        FailedOn p.status res rk.node ∨ healthyOn p.status want rk.node = true ∨
          ∀ pod ∈ w.serverPodsOf ns p.sys.name, pod.node = rk.node → pod.terminating = true

/-- A start costs only nodes that failed their pods exactly where its errors cover its nodes. -/
theorem onlyFailedNodes_iff {w : World} (hkeys : (w.serverPods.map (·.key)).Nodup) (ns : String)
    (p : Pass) (running : String) (res : Dmg.Result) :
    OnlyFailedNodes w ns p running res ↔ ErrorsCover w ns p running res := by
  constructor
  · intro honly
    by_cases htimed : startTimedOut res = true
    · exact Or.inl htimed
    by_cases hfailed : failedRanks res = []
    · exact Or.inr (Or.inl hfailed)
    refine Or.inr (Or.inr ?_)
    intro want hwant rk hrk hasked
    by_cases hhealthy : healthyOn p.status want rk.node = true
    · exact Or.inr (Or.inl hhealthy)
    by_cases hdown : ∀ pod ∈ w.serverPodsOf ns p.sys.name, pod.node = rk.node →
        pod.terminating = true
    · exact Or.inr (Or.inr hdown)
    push Not at hdown
    obtain ⟨pod, hpod, hnode, halive⟩ := hdown
    -- the pod is deleted when no call fails
    have hdoomed : Doomed (w.serverPodsOf ns p.sys.name) p.status want pod :=
      { listed := hpod
        alive := by simpa using halive
        asked := mem_stuckNodes.mpr ⟨rk, hrk, hasked, hnode.symm⟩
        alone := by simpa [hnode] using hhealthy }
    have hstuck := (stuck_iff res running).mpr (Or.inr hfailed)
    obtain ⟨e, he, hcall⟩ := finishStart_deletes ⟨hstuck, want, hwant, pod, hdoomed, rfl⟩
    rcases honly [] e he pod.key hcall pod (List.mem_of_mem_filter hpod) rfl with htimed' | hon
    · exact absurd htimed' htimed
    · exact Or.inl (hnode ▸ hon)
  · intro hcover faults e he key hcall pod hpod hkey
    obtain ⟨hstuck, want, hwant, doomed, hdoomed, hsame⟩ :=
      Prog.exec_ends (wp_finishStart_doomed w) faults (fun _ _ => trivial) e he key hcall
    obtain rfl : doomed = pod := by
      refine List.inj_on_of_nodup_map hkeys ?_ hpod (hsame.trans hkey.symm)
      exact List.mem_of_mem_filter hdoomed.listed
    obtain ⟨rk, hrk, hasked, hnode⟩ := mem_stuckNodes.mp hdoomed.asked
    rcases hcover with htimed | hnone | hcover
    · exact Or.inl htimed
    · exact Or.inl (((stuck_iff res running).mp hstuck).resolve_right (absurd hnone))
    · rcases hcover want hwant rk hrk hasked with hon | hhealthy | hdown
      · exact Or.inr (hnode ▸ hon)
      · rw [hnode, hdoomed.alone] at hhealthy
        cases hhealthy
      · have hterminating := hdown doomed hdoomed.listed hnode.symm
        rw [hdoomed.alive] at hterminating
        cases hterminating

/-! ### A start over two ranks -/

def deletedPod : Call → Option ObjectKey
  | .deletePod key => some key
  | _ => none

theorem eq_of_deletedPod {c : Call} {key : ObjectKey} (h : deletedPod c = some key) :
    c = .deletePod key := by
  cases c with
  | deletePod other => exact congrArg Call.deletePod (Option.some.inj h)
  | _ => cases h

/-- A result that reports an error for rank 0 and none for rank 1. -/
def oneFailed : Dmg.Result where
  done := true
  output := "\x7b\"response\": \x7b\"Results\": [\x7b\"Rank\": 0, \"Errored\": true, " ++
    "\"Msg\": \"engine died\"\x7d, \x7b\"Rank\": 1, \"Errored\": false\x7d]\x7d\x7d"

/-- The server pods of the nodes `a` and `b`. -/
def twoServers : World where
  serverPods := ["a", "b"].map fun node =>
    { key := ⟨"daos-system", "s-server-" ++ node⟩, system := "s", node, containers := [] }

def downOn (node₀ node₁ : String) : Pass where
  sys := { name := "s" }
  status := { ranks := [⟨0, node₀, "excluded"⟩, ⟨1, node₁, "excluded"⟩] }

/-- Both ranks on one node: its pod is deleted, for rank 0. -/
theorem onlyFailedNodes_one_node :
    (∃ e ∈ ((finishStart "daos-system" (downOn "a" "a") "0,1" oneFailed).exec cluster []
      twoServers).log, deletedPod e.call = some ⟨"daos-system", "s-server-a"⟩) ∧
    OnlyFailedNodes twoServers "daos-system" (downOn "a" "a") "0,1" oneFailed := by
  refine ⟨by decide +kernel, ?_⟩
  refine (onlyFailedNodes_iff (by decide) _ _ _ _).mpr (Or.inr (Or.inr ?_))
  intro want _ rk hrk _
  have hfailed : ∀ rk ∈ (downOn "a" "a").status.ranks,
      FailedOn (downOn "a" "a").status oneFailed rk.node := by decide +kernel
  exact Or.inl (hfailed rk hrk)

/-- On two nodes the pod of node `b` goes too, though the start of its rank had no error. -/
theorem deletes_pod_of_started_rank :
    ¬OnlyFailedNodes twoServers "daos-system" (downOn "a" "b") "0,1" oneFailed := by
  intro honly
  have hdeleted : ∃ e ∈ ((finishStart "daos-system" (downOn "a" "b") "0,1" oneFailed).exec cluster
      [] twoServers).log, deletedPod e.call = some ⟨"daos-system", "s-server-b"⟩ := by
    decide +kernel
  obtain ⟨e, he, hcall⟩ := hdeleted
  have hpod : (⟨⟨"daos-system", "s-server-b"⟩, "s", "b", [], false, false, ""⟩ : ServerPod) ∈
      twoServers.serverPods := by decide
  have hnone : startTimedOut oneFailed = false ∧
      ¬FailedOn (downOn "a" "b").status oneFailed "b" := by decide +kernel
  rcases honly [] e he _ (eq_of_deletedPod hcall) _ hpod rfl with htimed | hon
  · rw [hnone.1] at htimed
    cases htimed
  · exact hnone.2 hon

end DaosOperator.System
