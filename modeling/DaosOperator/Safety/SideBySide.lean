import DaosOperator.Steps

/-!
# Controllers side by side

Systems, pools and containers are reconciled in any order, on stale reads and under any
faults.  Each controller keeps to the objects of its kind, a system that is not reconciled
stays as it is, and no pool or container is worked on by two operations at a time.
-/

namespace DaosOperator

open Effect
open DaosOperator.System (namespaceOf systemSide)

/-- Every step of every run has the property. -/
def Always (P : Step → Prop) : Prop := ∀ events, ∀ step ∈ history events, P step

theorem always_of_step {P : Step → Prop} (h : ∀ w e, WellNamed w → P (operator.record w e)) :
    Always P := by
  intro events step hstep
  obtain ⟨before, e, -, -, rfl⟩ := Machine.exists_of_mem_history hstep
  exact h _ e (wellNamed_final before)

/-! ## Frames -/

/-- A reconcile writes objects of its own kind only. -/
def KeepsToKind (step : Step) : Prop :=
  match step.event with
  | .reconcileSystem _ _ => step.after.pools = step.before.pools ∧
      step.after.containers = step.before.containers
  | .reconcilePool _ _ => systemSide step.after = systemSide step.before ∧
      step.after.containers = step.before.containers
  | .reconcileContainer _ _ => systemSide step.after = systemSide step.before ∧
      step.after.pools = step.before.pools
  | .change _ => True

theorem controllers_keep_to_kind : Always KeepsToKind := by
  refine always_of_step fun w e _ => ?_
  cases e with
  | change c => trivial
  | reconcileSystem name faults =>
      refine step_keeps (I := fun v => v.pools = w.pools ∧ v.containers = w.containers) ?_
        (fun _ h => nomatch h) ⟨rfl, rfl⟩
      intro c f v hc hv
      cases hc with
      | read hc => rwa [respond_quiet hc]
      | system _ hc => exact ⟨hc.pools.trans hv.1, hc.containers.trans hv.2⟩
  | reconcilePool name faults =>
      refine step_keeps (I := fun v => systemSide v = systemSide w ∧
        v.containers = w.containers) ?_ (fun _ h => nomatch h) ⟨rfl, rfl⟩
      intro c f v hc hv
      cases hc with
      | read hc => rwa [respond_quiet hc]
      | pool _ hc => exact ⟨hc.systemSide.trans hv.1, hc.containers.trans hv.2⟩
  | reconcileContainer key faults =>
      refine step_keeps (I := fun v => systemSide v = systemSide w ∧ v.pools = w.pools) ?_
        (fun _ h => nomatch h) ⟨rfl, rfl⟩
      intro c f v hc hv
      cases hc with
      | read hc => rwa [respond_quiet hc]
      | container _ hc => exact ⟨hc.systemSide.trans hv.1, hc.pools.trans hv.2⟩

end DaosOperator
