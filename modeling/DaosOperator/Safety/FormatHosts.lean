import DaosOperator.Safety.Gates
import Mathlib.Tactic.MkIffOfInductiveProp

/-!
# The hosts of a format

Nodes that join a formatted system are formatted by host.  `formatHosts` decides per
node, from the states of its ranks: a node is listed when it has no rank, or when one
of its ranks waits for a format.  A node with several engines can have such a rank next
to one that is joined, and then the command reaches drives that carry data.
-/

namespace DaosOperator

open Effect
open DaosOperator.System

/-- The hosts of `dmg -l <hosts> storage format`. -/
def listedHosts : List String → List String
  | ["-l", hosts, "storage", "format"] => Text.split hosts ','
  | _ => []

/-- The host is the control address of a selected node on which a rank does not wait for a
format.  A rank is recorded under the name of its node, or under its bare address. -/
def CarriesData (sys : DaosSystem) (w : World) (host : String) : Prop :=
  ∃ f ∈ nodeFacts sys w, f.controlAddr = host ∧ ∃ r ∈ sys.status.ranks,
    (r.node = f.name ∨ r.node = f.controlAddr) ∧ r.state ≠ memberAwaitFormat
  deriving Decidable

/-- The format Jobs of a log list hosts, and none that carries data. -/
def ListsFresh (sys : DaosSystem) (w : World) (log : Log) : Prop :=
  ∀ x ∈ log, ∀ spec ∈ created x, isFormat spec.command.args = true →
    listedHosts spec.command.args ≠ [] ∧
      ∀ host ∈ listedHosts spec.command.args, ¬CarriesData sys w host
  deriving Decidable

/-- A format Job that the step creates for a formatted system reaches no drive with data. -/
def SparesData (step : Step) : Prop :=
  ∀ name ∈ step.event.system, ∀ sys ∈ stored step.before.systems name,
    sys.status.formatted = true → ListsFresh sys step.before step.obs
  deriving Decidable

/-! ## When the membership tells nodes apart -/

/-- The membership tells fresh nodes from nodes with data: the ranks of a node wait for a
format together, a rank that does not wait is recorded under the name of its node, and an
address belongs to one selected node and is a single host of a list. -/
@[mk_iff] structure TellsApart (sys : DaosSystem) (w : World) : Prop where
  together : ∀ r ∈ sys.status.ranks, ∀ r' ∈ sys.status.ranks, r.node = r'.node →
    r.state = memberAwaitFormat → r'.state = memberAwaitFormat
  named : ∀ r ∈ sys.status.ranks, r.state ≠ memberAwaitFormat → ∀ f ∈ nodeFacts sys w,
    r.node = f.controlAddr → r.node = f.name
  distinct : ∀ f ∈ nodeFacts sys w, ∀ g ∈ nodeFacts sys w,
    f.controlAddr = g.controlAddr → f.name = g.name
  single : ∀ f ∈ nodeFacts sys w, ',' ∉ f.controlAddr.toList

instance (sys : DaosSystem) (w : World) : Decidable (TellsApart sys w) :=
  decidable_of_iff' _ (tellsApart_iff sys w)

/-- A reconcile of a formatted system finds a membership that tells its nodes apart. -/
def TellsApartIn (step : Step) : Prop :=
  ∀ name ∈ step.event.system, ∀ sys ∈ stored step.before.systems name,
    sys.status.formatted = true → TellsApart sys step.before
  deriving Decidable

theorem awaitsFormat_eq_true {ranks : List RankStatus} {node : String}
    (h : awaitsFormat ranks node = true) :
    ∃ r ∈ ranks, r.node = node ∧ r.state = memberAwaitFormat := by
  simpa [awaitsFormat] using h

theorem isMember_of_mem {ranks : List RankStatus} {r : RankStatus} (h : r ∈ ranks) :
    isMember ranks r.node = true := by
  simp only [isMember, List.any_eq_true, decide_eq_true_eq]
  exact ⟨r, h, rfl⟩

theorem listedHosts_formatArgs {only : List String} (hne : only ≠ [])
    (hsingle : ∀ host ∈ only, ',' ∉ host.toList) : listedHosts (formatArgs only) = only := by
  rw [formatArgs, if_neg (by simpa using hne)]
  exact Text.split_join rfl hne hsingle

/-- Where the membership tells nodes apart, a node that needs a format carries no data. -/
theorem TellsApart.spares {sys : DaosSystem} {w : World} (h : TellsApart sys w)
    {f : Discovery.NodeFacts} (hf : f ∈ nodeFacts sys w)
    (hneeds : isMember sys.status.ranks f.name = false ∨
      awaitsFormat sys.status.ranks f.name = true) :
    ¬CarriesData sys w f.controlAddr := by
  rintro ⟨g, hg, haddr, r, hr, hon, hstate⟩
  have hname : g.name = f.name := h.distinct g hg f hf haddr
  have hnode : r.node = f.name := by
    rcases hon with hon | hon
    · exact hon.trans hname
    · exact (h.named r hr hstate g hg hon).trans hname
  rcases hneeds with hnone | hawaits
  · rw [← hnode, isMember_of_mem hr] at hnone
    cases hnone
  · obtain ⟨r', hr', hnode', hstate'⟩ := awaitsFormat_eq_true hawaits
    exact hstate (h.together r' hr' r hr (hnode'.trans hnode.symm) hstate')

/-- In a run whose reconciles find memberships that tell the nodes apart, no format Job of a
formatted system lists a host that carries data. -/
theorem formatHosts_spare_data (events : List Event)
    (hapart : ∀ step ∈ history events, TellsApartIn step) :
    ∀ step ∈ history events, SparesData step := by
  intro step hstep name hname sys hsys hformatted x hx spec hcreated hformat
  have hsorted := hapart step hstep name hname sys hsys hformatted
  obtain ⟨before, e, after, rfl, rfl⟩ := Machine.exists_of_mem_history hstep
  obtain ⟨faults, rfl⟩ := Event.eq_of_system (e := e) hname
  have hjob := gatedLog_reconcile hsys faults x hx spec hcreated hformat
  obtain ⟨only, hargs, hlisted⟩ := hjob.hosts
  have hspared : ∀ host ∈ only, ',' ∉ host.toList ∧ ¬CarriesData sys (final before) host := by
    intro host hhost
    obtain ⟨f, hf, rfl, hneeds⟩ := hlisted host hhost
    rw [nodeFacts_congr (nodes_of_mem hx)] at hf
    exact ⟨hsorted.single f hf, hsorted.spares hf hneeds⟩
  have hne : only ≠ [] := by
    rintro rfl
    rw [hjob.whole hargs] at hformatted
    cases hformatted
  rw [hargs, listedHosts_formatArgs hne fun host hhost => (hspared host hhost).1]
  exact ⟨hne, fun host hhost => (hspared host hhost).2⟩

/-- A system with two engines per node comes up on `nodes` with a member list, and a human
approves the format of what is not formatted. -/
def memberRun (nodes : List Node) (members : String) : List Event :=
  [.change (.createSystem "s" {}
      { msReplicas := 1, allowInsecure := true
        engines := [{ fabricIface := "ib0", bdevList := ["0000:81:00.0"] },
          { fabricIface := "ib1", bdevList := ["0000:c1:00.0"] }] }),
    .change (.setNodes nodes),
    .reconcileSystem "s" [],
    .change (.setReadyReplicas ⟨"daos-system", "s-server-a"⟩ 1),
    .change (.setReadyReplicas ⟨"daos-system", "s-server-b"⟩ 1),
    .change (.jobProgress ⟨"daos-system", "s-dmg-query"⟩ [.complete true]
      [{ name := "query", created := 0
         log := "\x7b\"response\":\x7b\"members\":[" ++ members ++ "]\x7d\x7d" }]),
    .reconcileSystem "s" [],
    .change (.annotateSystem "s" .formatApproved (some "true")),
    .reconcileSystem "s" []]

/-- Node `a` is joined, and the new node `b` waits. -/
def freshNodeRun : List Event :=
  memberRun [{ name := "a" }, { name := "b" }]
    ("\x7b\"rank\":0,\"addr\":\"a\",\"state\":\"joined\"\x7d," ++
      "\x7b\"rank\":1,\"addr\":\"b\",\"state\":\"awaitformat\"\x7d")

/-- A new node is formatted alone. -/
theorem formatHosts_spare_data_freshNode :
    (∃ step ∈ history freshNodeRun, ∃ x ∈ step.obs, ∃ spec ∈ created x,
      listedHosts spec.command.args = ["b"]) ∧ ∀ step ∈ history freshNodeRun, SparesData step := by
  have hrun : (∃ step ∈ history freshNodeRun, ∃ x ∈ step.obs, ∃ spec ∈ created x,
      listedHosts spec.command.args = ["b"]) ∧
      ∀ step ∈ history freshNodeRun, TellsApartIn step := by
    decide +kernel
  exact ⟨hrun.1, formatHosts_spare_data freshNodeRun hrun.2⟩

/-- Of the two engines of `a`, one is joined and the other waits. -/
def mixedNodeRun : List Event :=
  memberRun [{ name := "a" }]
    ("\x7b\"rank\":0,\"addr\":\"a\",\"state\":\"joined\"\x7d," ++
      "\x7b\"rank\":1,\"addr\":\"a\",\"state\":\"awaitformat\"\x7d")

/-- The node is listed for its second engine, and the format reaches the first one too. -/
theorem formatHosts_reach_data_mixedNode : ¬∀ step ∈ history mixedNodeRun, SparesData step := by
  decide +kernel

end DaosOperator
