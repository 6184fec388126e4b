import DaosOperator.Safety.RestartAlone
import Mathlib.Data.Finset.Card

/-!
# Counting the pods that are back

A restart leaves the phase `Starting` when as many server pods are ready as nodes are
rendered.  The count says which nodes have a pod of their own only as far as no other pod
stands in for them: a pod on a node that is no longer rendered, or a second one on the
same node.
-/

namespace DaosOperator

open Effect

/-! ## Elements and the keys they stand under -/

section Surplus

variable {α β : Type} [DecidableEq β] (f : α → β) (keys : Finset β)

/-- The elements that stand under no key, or under one that a later element stands under. -/
def surplus : List α → Nat
  | [] => 0
  | x :: xs => surplus xs + if f x ∈ keys ∧ ∀ y ∈ xs, f y ≠ f x then 0 else 1

theorem surplus_add_card (xs : List α) :
    surplus f keys xs + ((xs.map f).toFinset ∩ keys).card = xs.length := by
  induction xs with
  | nil => simp [surplus]
  | cons x xs ih =>
      rw [surplus, List.map_cons, List.toFinset_cons, List.length_cons]
      by_cases hkey : f x ∈ keys
      · rw [Finset.insert_inter_of_mem hkey]
        by_cases hlast : ∀ y ∈ xs, f y ≠ f x
        · have hnew : f x ∉ (xs.map f).toFinset ∩ keys := by
            simp only [Finset.mem_inter, List.mem_toFinset, List.mem_map, not_and]
            rintro ⟨y, hy, hsame⟩
            exact absurd hsame (hlast y hy)
          rw [if_pos ⟨hkey, hlast⟩, Finset.card_insert_of_notMem hnew]
          omega
        · obtain ⟨y, hy, hsame⟩ : ∃ y ∈ xs, f y = f x := by simpa using hlast
          have hold : f x ∈ (xs.map f).toFinset ∩ keys := by
            simp only [Finset.mem_inter, List.mem_toFinset, List.mem_map]
            exact ⟨⟨y, hy, hsame⟩, hkey⟩
          rw [if_neg fun h => hlast h.2, Finset.insert_eq_of_mem hold]
          omega
      · rw [Finset.insert_inter_of_notMem hkey, if_neg fun h => hkey h.1]
        omega

/-- Where there are enough elements, every key has one exactly when the surplus is no more than
what there is too much. -/
theorem forall_mem_keys_iff {xs : List α} (h : keys.card ≤ xs.length) :
    (∀ k ∈ keys, ∃ x ∈ xs, f x = k) ↔ surplus f keys xs ≤ xs.length - keys.card := by
  have hcount := surplus_add_card f keys xs
  have hcovered : (∀ k ∈ keys, ∃ x ∈ xs, f x = k) ↔
      keys.card ≤ ((xs.map f).toFinset ∩ keys).card := by
    constructor
    · intro hall
      refine Finset.card_le_card fun k hk => ?_
      simp only [Finset.mem_inter, List.mem_toFinset, List.mem_map]
      exact ⟨hall k hk, hk⟩
    · intro hle k hk
      have hsame := Finset.eq_of_subset_of_card_le Finset.inter_subset_right hle
      rw [← hsame] at hk
      simp only [Finset.mem_inter, List.mem_toFinset, List.mem_map] at hk
      exact hk.1
  rw [hcovered]
  omega

end Surplus

namespace System

/-! ## The property -/

/-- The pod is back: not terminating, ready, and with the wanted image. -/
def podBack (want : String) (pod : ServerPod) : Bool :=
  podImage pod = want ∧ podReady pod ∧ !pod.terminating

def podsBack (w : World) (ns : String) (sys : DaosSystem) : List ServerPod :=
  (w.serverPodsOf ns sys.name).filter (podBack sys.spec.images.server)

/-- The restart goes on to start the system. -/
def leavesStarting (ns : String) (rendered : Nat) (p : Pass) (faults : List Fault) (w : World) :
    Bool :=
  match ((reconcileUpgrade ns rendered p).exec cluster faults w).result with
  | .ok r => r.pass.status.upgrade.any fun up => up.phase = .startingSystem
  | .error _ => false

/-- Every rendered node has a server pod of its own that is back. -/
def NodesBack (w : World) (ns : String) (nodes : Finset String) (sys : DaosSystem) : Prop :=
  ∀ node ∈ nodes, ∃ pod ∈ w.serverPodsOf ns sys.name,
    pod.node = node ∧ podBack sys.spec.images.server pod = true
  deriving Decidable

/-! ## When it holds -/

/-- The restart stays where it is, or fails, whatever the pods do. -/
def restartStalls (p : Pass) (up : UpgradeStatus) (faults : List Fault) (w : World) : Bool :=
  !serverEnabled p.sys || faults.headD .none ≠ .none ||
    up.startedAt.any fun t => upgradeTimeout p.sys < w.clock - t

/-- Not enough pods are back, or at most so many more than needed as stand in for no node. -/
def CountsNodes (w : World) (ns : String) (nodes : Finset String) (sys : DaosSystem) : Prop :=
  (podsBack w ns sys).length < nodes.card ∨
    surplus ServerPod.node nodes (podsBack w ns sys) ≤ (podsBack w ns sys).length - nodes.card

theorem nodesBack_iff {w : World} {ns : String} {nodes : Finset String} {sys : DaosSystem}
    (h : nodes.card ≤ (podsBack w ns sys).length) :
    NodesBack w ns nodes sys ↔ surplus ServerPod.node nodes (podsBack w ns sys) ≤
      (podsBack w ns sys).length - nodes.card := by
  rw [← forall_mem_keys_iff ServerPod.node nodes h]
  unfold NodesBack podsBack
  simp only [List.mem_filter]
  constructor
  · intro hback node hnode
    obtain ⟨pod, hpod, hon, hready⟩ := hback node hnode
    exact ⟨pod, ⟨hpod, hready⟩, hon⟩
  · intro hback node hnode
    obtain ⟨pod, ⟨hpod, hready⟩, hon⟩ := hback node hnode
    exact ⟨pod, hpod, hon, hready⟩

/-! ## When the phase is left -/

/-- The phase `Starting` is left when enough pods are back. -/
theorem startingPhase_leaves (rendered : Nat) (pods : List ServerPod) {up : UpgradeStatus}
    (hphase : up.phase = .starting) (p : Pass) :
    ((startingPhase rendered pods up p).pass.status.upgrade.any fun up =>
      up.phase = .startingSystem) = true ↔
      rendered ≤ (pods.filter (podBack p.sys.spec.images.server)).length := by
  have hfilter : (pods.filter fun pod => podImage pod = p.sys.spec.images.server ∧ podReady pod ∧
      !pod.terminating) = pods.filter (podBack p.sys.spec.images.server) := rfl
  unfold startingPhase
  dsimp only
  rw [hfilter]
  split
  · next hfew =>
      simp only [Pass.upgrading, Pass.withUpgrade, Pass.cond, setCond, Option.any_some, hphase]
      simpa using hfew
  · next henough =>
      simp only [Pass.upgrading, Pass.withUpgrade, Pass.cond, setCond, Option.any_some]
      simpa using henough

/-- A restart that failed does not start the system. -/
theorem leaves_failUpgrade (p : Pass) (up : UpgradeStatus) (msg : String) (faults : List Fault)
    (w : World) {r : UpgradeResult}
    (h : ((failUpgrade p up msg).exec cluster faults w).result = .ok r) :
    (r.pass.status.upgrade.any fun up => up.phase = .startingSystem) = false := by
  have hwp : (failUpgrade p up msg).wp cluster (fun _ => True) ⟨w, []⟩
      (fun r _ => upgradeInProgress r.pass.status = false ∧ True) fun _ => True :=
    (obeys_failUpgrade_phase p up msg).wp (fun _ _ _ _ _ _ _ => trivial) trivial
  have hover := (Prog.exec_ok_of_wp hwp (fun _ _ => trivial) h).1
  cases hup : r.pass.status.upgrade with
  | none => rfl
  | some up =>
      unfold upgradeInProgress at hover
      rw [hup] at hover
      cases hphase : up.phase <;> simp_all

theorem leavesStarting_iff {ns : String} {rendered : Nat} {p : Pass} {up : UpgradeStatus}
    (hup : p.status.upgrade = some up) (hphase : up.phase = .starting) (faults : List Fault)
    (w : World) : leavesStarting ns rendered p faults w = true ↔
      restartStalls p up faults w = false ∧ rendered ≠ 0 ∧
        rendered ≤ (podsBack w ns p.sys).length := by
  have hprogress : upgradeInProgress p.status = true := by simp [upgradeInProgress, hup, hphase]
  have hstays : (p.status.upgrade.any fun up => up.phase = .startingSystem) = false := by
    simp [hup, hphase]
  unfold leavesStarting reconcileUpgrade
  by_cases hidle : (!serverEnabled p.sys || decide (rendered = 0)) = true
  · rw [if_pos hidle]
    have hnever : ¬(restartStalls p up faults w = false ∧ rendered ≠ 0) := by
      rintro ⟨hstalls, hzero⟩
      rw [restartStalls, Bool.or_eq_false_iff, Bool.or_eq_false_iff] at hstalls
      simp [hstalls.1.1, hzero] at hidle
    simp only [Prog.exec, hstays, Bool.false_eq_true, false_iff]
    exact fun h => hnever ⟨h.1, h.2.1⟩
  · obtain ⟨henabled, hzero⟩ : serverEnabled p.sys = true ∧ rendered ≠ 0 := by simpa using hidle
    rw [if_neg hidle, serverPods, Prog.ask_bind_bind, Prog.result_ask_bind]
    have hpick : cluster.pick (.listServerPods ns p.sys.name) faults =
      (faults.headD .none, faults.tail) := rfl
    rw [hpick]
    cases hfault : faults.headD .none with
    | failed e | lost e =>
        have hstalls : restartStalls p up faults w = true := by
          simp only [restartStalls, hfault]
          simp
        simp [hstalls, Handler.respond]
    | none =>
        have hstalls : restartStalls p up faults w =
            up.startedAt.any fun t => decide (upgradeTimeout p.sys < w.clock - t) := by
          simp only [restartStalls, hfault, henabled]
          simp
        rw [hstalls]
        simp only [Handler.respond, Prog.bind, hup, hprogress, continueUpgrade]
        rw [Prog.result_ask_bind]
        have hnow : (cluster.respond .now (cluster.pick .now faults.tail).1
            (cluster.perform (.listServerPods ns p.sys.name) w).2).1 = .ok w.clock := rfl
        rw [hnow]
        dsimp only
        by_cases htimeout : (up.startedAt.any fun t =>
            decide (upgradeTimeout p.sys < w.clock - t)) = true
        · rw [if_pos htimeout, htimeout]
          simp only [Bool.true_eq_false, false_and, iff_false, Bool.not_eq_true]
          split
          · next r hr => exact leaves_failUpgrade _ _ _ _ _ hr
          · rfl
        · rw [if_neg htimeout]
          simp only [upgradeStep, hphase, Prog.exec]
          rw [startingPhase_leaves _ _ hphase]
          -- the order of the pods does not matter
          have hcount : (((w.serverPodsOf ns p.sys.name).insertionSort fun a b =>
              a.key.name ≤ b.key.name).filter (podBack p.sys.spec.images.server)).length =
                (podsBack w ns p.sys).length :=
            ((List.perm_insertionSort _ _).filter _).length_eq
          change _ ≤ (((w.serverPodsOf ns p.sys.name).insertionSort fun a b =>
            a.key.name ≤ b.key.name).filter (podBack p.sys.spec.images.server)).length ↔ _
          rw [hcount]
          simp [htimeout, hzero]

/-- Every rendered node is back before the system is started exactly when the count of the pods
counts nodes, or the restart does not get that far. -/
theorem nodes_back_iff (ns : String) (nodes : Finset String) (p : Pass) (up : UpgradeStatus)
    (hup : p.status.upgrade = some up) (hphase : up.phase = .starting) (faults : List Fault)
    (w : World) :
    (leavesStarting ns nodes.card p faults w = true → NodesBack w ns nodes p.sys) ↔
      restartStalls p up faults w = true ∨ CountsNodes w ns nodes p.sys := by
  rw [leavesStarting_iff hup hphase]
  unfold CountsNodes
  cases hstalls : restartStalls p up faults w with
  | true => simp
  | false =>
      by_cases hfew : (podsBack w ns p.sys).length < nodes.card
      · simp [hfew]
      · have henough : nodes.card ≤ (podsBack w ns p.sys).length := not_lt.mp hfew
        rw [← nodesBack_iff henough]
        by_cases hnodes : nodes = ∅
        · simp [hnodes, NodesBack]
        · simp [hfew, henough, hnodes]

/-! ## A pod that was left behind -/

/-- A system whose restart waits for its pods. -/
def startingPass : Pass :=
  let up : UpgradeStatus :=
    { trigger := .imageChange, phase := .starting, fromImage := "old", toImage := "new" }
  let status : DaosSystemStatus := { upgrade := some up }
  ⟨{ name := "s", spec := { images := { server := "new" } }, status }, status⟩

def backPod (node : String) : ServerPod :=
  { key := ⟨"daos-system", "s-server-" ++ node ++ "-0"⟩, system := "s", node
    containers := [("daos-server", "new")], readyCondition := true }

/-- One pod for each of the two nodes. -/
theorem nodes_back_bothReady :
    leavesStarting "daos-system" ({"a", "b"} : Finset String).card startingPass []
        { serverPods := [backPod "a", backPod "b"] } = true ∧
      NodesBack { serverPods := [backPod "a", backPod "b"] } "daos-system" {"a", "b"}
        startingPass.sys := by
  have hleaves : leavesStarting "daos-system" ({"a", "b"} : Finset String).card startingPass []
      { serverPods := [backPod "a", backPod "b"] } = true := by decide +kernel
  refine ⟨hleaves, (nodes_back_iff "daos-system" {"a", "b"} startingPass _ rfl rfl [] _).mpr ?_
    hleaves⟩
  exact Or.inr (Or.inr (by decide +kernel))

/-- The pod of a node that is no longer rendered stands in for one that has none. -/
theorem nodes_not_back_leftover :
    leavesStarting "daos-system" ({"b"} : Finset String).card startingPass []
        { serverPods := [backPod "a"] } = true ∧
      ¬NodesBack { serverPods := [backPod "a"] } "daos-system" {"b"} startingPass.sys := by
  decide +kernel

end System

end DaosOperator
