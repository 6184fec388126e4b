import DaosOperator.Safety.GateReport
import DaosOperator.Steps

/-!
# The rank counters

A status holds the list of ranks and two counters beside it.  The list and the counters are
set by different hands: the answer of a query replaces all three, a query that is not
answered in time rewrites the states of some ranks in place, and every other path carries
them over.  In every status that is written the counters are those of the list.
-/

namespace DaosOperator

open Effect
open DaosOperator.System

/-! ## The property -/

def System.Counted (st : DaosSystemStatus) : Prop :=
  st.ranksTotal = st.ranks.length ∧
    st.ranksJoined = (st.ranks.filter fun rk => rk.state = memberJoined).length

instance (st : DaosSystemStatus) : Decidable (Counted st) :=
  inferInstanceAs (Decidable (_ ∧ _))

def writtenStatus : Call → Option DaosSystemStatus
  | .updateSystemStatus _ st => some st
  | _ => none

def CountsRanks (step : Step) : Prop :=
  ∀ x ∈ step.obs, ∀ st ∈ writtenStatus x.call, Counted st
  deriving Decidable

theorem eq_of_mem_writtenStatus {c : Call} {st : DaosSystemStatus} (h : st ∈ writtenStatus c) :
    ∃ name, c = .updateSystemStatus name st := by
  unfold writtenStatus at h
  split at h
  · cases h
    exact ⟨_, rfl⟩
  · cases h

namespace System

/-! ## The outcomes of the gate -/

section
variable {st : DaosSystemStatus}

theorem Counted.congr {st' : DaosSystemStatus} (h : Counted st)
    (hreport : gateReport st' = gateReport st) : Counted st' := by
  have hcounted : Counted (gateReport st) := h
  rw [← hreport] at hcounted
  exact hcounted

theorem Counted.setMsCondition (h : Counted st) (leader : Dmg.Envelope) :
    Counted (setMsCondition st leader).1 := by
  unfold System.setMsCondition
  split
  exact h

theorem Counted.markUnresponsive (h : Counted st) (leader : Option Dmg.Envelope) :
    Counted (markUnresponsive st leader) := by
  constructor
  · have hlength : (System.markUnresponsive st leader).ranks.length = st.ranks.length :=
      List.length_map _
    rw [hlength]
    exact h.1
  · rfl

theorem counted_withMembers (st : DaosSystemStatus) (nodeByAddr : List (String × String))
    (members : List Dmg.Member) (queried : Time) :
    Counted (withMembers nodeByAddr members queried st) := by
  constructor
  · simp [withMembers]
  · simp only [withMembers, List.filter_map, List.length_map]
    rfl

theorem Counted.readMembership (h : Counted st) (sys : DaosSystem) (inp : FormatInput)
    (approved : Bool) (queried : Time) (env : Dmg.Envelope) (leader : Option Dmg.Envelope) :
    Counted (readMembership sys inp approved queried env leader st).status := by
  unfold System.readMembership
  split
  · split
    · exact ⟨rfl, rfl⟩
    · exact h
    · exact h.markUnresponsive leader
    · exact h
  · split
    · exact h
    · exact counted_withMembers st inp.nodeByAddr _ queried

theorem Counted.readQuery (h : Counted st) (sys : DaosSystem) (inp : FormatInput)
    (approved : Bool) (now : Time) (res : Dmg.Result) :
    Counted (readQuery sys inp approved now res st).status := by
  unfold System.readQuery
  split
  · exact h
  · split
    · exact h
    · exact h
    · exact h.readMembership ..
    · exact (h.setMsCondition _).readMembership ..

end

theorem counted_gateInvariant : GateInvariant Counted where
  initial := ⟨rfl, rfl⟩
  congr := fun _ _ hreport h => h.congr hreport
  format := by
    intro inp st st' hresult h
    cases hresult with
    | waits => exact h
    | reports v reason msg hv => exact h
    | failed only msg now => exact h
    | succeeded only now => exact h
    | read sys approved now res => exact h.readQuery ..

theorem Counted.all_joined {st : DaosSystemStatus} (h : Counted st)
    (hle : st.ranksTotal ≤ st.ranksJoined) : ∀ rk ∈ st.ranks, rk.state = memberJoined := by
  rw [h.1, h.2, Int.ofNat_le] at hle
  have hlength :=
    le_antisymm (List.length_filter_le (fun rk => rk.state = memberJoined) st.ranks) hle
  intro rk hrk
  simpa using List.length_filter_eq_length_iff.mp hlength rk hrk

end System

/-! ## Whole runs -/

/-- In every run, every status written counts its ranks. -/
theorem ranks_counted (events : List Event) : ∀ step ∈ history events, CountsRanks step := by
  intro step hstep x hx st hst
  obtain ⟨name, hcall⟩ := eq_of_mem_writtenStatus hst
  exact counted_gateInvariant.written events step hstep x hx name st hcall

/-- A node goes down after its rank has joined, and the next query is not answered in time. -/
def timedOutRun : List Event :=
  let query : ObjectKey := ⟨"daos-system", "s-dmg-query"⟩
  [.change (.createSystem "s" {}
      { msReplicas := 1, allowInsecure := true
        engines := [{ fabricIface := "ib0", bdevList := ["0000:81:00.0"] }] }),
    .change (.setNodes [{ name := "a" }]), .reconcileSystem "s" [],
    .change (.setReadyReplicas ⟨"daos-system", "s-server-a"⟩ 1),
    jobAnswers query
      "\x7b\"response\":\x7b\"members\":[\x7b\"addr\":\"a:1\",\"state\":\"joined\"\x7d]\x7d\x7d",
    .reconcileSystem "s" [], .change (.jobRemoved query), .change (.tick 3600),
    .change (.setReadyReplicas ⟨"daos-system", "s-server-a"⟩ 0), .reconcileSystem "s" [],
    jobAnswers query "\x7b\"error\":\"dmg: no answer within 60 s\"\x7d", .reconcileSystem "s" []]

/-- The states of the ranks in the status that a run ends with. -/
def rankStates (events : List Event) : Option (List String) :=
  (stored (final events).systems "s").map fun sys => sys.status.ranks.map (·.state)

/-- The rank is taken for unresponsive, and the counters follow. -/
theorem ranks_counted_timedOut :
    rankStates timedOutRun = some [memberUnresponsive] ∧
      ∀ step ∈ history timedOutRun, CountsRanks step :=
  ⟨by decide +kernel, ranks_counted timedOutRun⟩

end DaosOperator
