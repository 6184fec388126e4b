import DaosOperator.Surroundings

/-!
# How pools, containers and Jobs change

A pool or a container is a cell that the API server writes and a cache follows.  This
module says once, for a change of the surroundings and for a call of the operator, what
can happen to the cell of one object or to one Job; invariants are derived from that.
-/

namespace DaosOperator

open Effect

/-! ## Steps of a cell -/

/-- What can happen to the cell of an object: a new object, a write, or the cache catches up. -/
inductive CellStep {α : Type} (fresh : α → Prop) (writes : Watched α → Option α → Prop)
    (delivers : Prop) : Option (Watched α) → Option (Watched α) → Prop where
  | same (x : Option (Watched α)) : CellStep fresh writes delivers x x
  | created {x : Option (Watched α)} {a : α} (ha : fresh a)
      (hfree : (x.getD Watched.vacant).stored = none) :
      CellStep fresh writes delivers x (some ((x.getD Watched.vacant).write (some a)))
  | written {cell : Watched α} {new : Option α} (h : writes cell new) :
      CellStep fresh writes delivers (some cell) (some (cell.write new))
  | delivered (cell : Watched α) (h : delivers) :
      CellStep fresh writes delivers (some cell) (some cell.deliver)

section Cells

variable {K α : Type} {fresh : α → Prop} {writes : Watched α → Option α → Prop} {delivers : Prop}
  {t t' : Table K (Watched α)} {k : K}

theorem stored_of_cell {cell : Watched α} {a : α} (hcell : t.get k = some cell)
    (ha : cell.stored = some a) : DaosOperator.stored t k = some a := by
  simp [DaosOperator.stored, hcell, ha]

/-- A version after a step is an old one, a new object, or what was written. -/
theorem CellStep.versions (h : CellStep fresh writes delivers (t.get k) (t'.get k)) {a : α}
    (ha : some a ∈ DaosOperator.versions t' k) :
    some a ∈ DaosOperator.versions t k ∨ fresh a ∨
      ∃ cell, t.get k = some cell ∧ writes cell (some a) := by
  unfold DaosOperator.versions at ha ⊢
  generalize t.get k = x at h ⊢
  generalize t'.get k = y at h ha
  cases h with
  | same => exact Or.inl ha
  | @created x b hfresh _ =>
      simp only [Option.map_some, Option.getD_some, Watched.mem_versions_write,
        Option.some.injEq] at ha
      rcases ha with ha | rfl
      · left
        cases x with
        | none => simp [Watched.vacant, Watched.versions] at ha
        | some cell => exact ha
      · exact Or.inr (Or.inl hfresh)
  | @written cell new hw =>
      simp only [Option.map_some, Option.getD_some, Watched.mem_versions_write] at ha
      rcases ha with ha | ha
      · exact Or.inl ha
      · exact Or.inr (Or.inr ⟨cell, rfl, ha ▸ hw⟩)
  | delivered cell _ => exact Or.inl (cell.versions_deliver_subset ha)

/-- What is stored after a step. -/
theorem CellStep.stored (h : CellStep fresh writes delivers (t.get k) (t'.get k)) :
    DaosOperator.stored t' k = DaosOperator.stored t k ∨
      (DaosOperator.stored t k = none ∧ ∃ a, fresh a ∧ DaosOperator.stored t' k = some a) ∨
      ∃ cell, t.get k = some cell ∧ writes cell (DaosOperator.stored t' k) := by
  unfold DaosOperator.stored
  generalize t.get k = x at h ⊢
  generalize t'.get k = y at h ⊢
  cases h with
  | same => exact Or.inl rfl
  | @created x a hfresh hfree =>
      refine Or.inr (Or.inl ⟨?_, a, hfresh, rfl⟩)
      cases x with
      | none => rfl
      | some cell => exact hfree
  | @written cell new hw => exact Or.inr (Or.inr ⟨cell, rfl, hw⟩)
  | delivered cell _ => exact Or.inl rfl

/-- An object that appears is new, and the cache may have earlier ones in front of it. -/
theorem CellStep.appears (h : CellStep fresh writes delivers (t.get k) (t'.get k)) {a : α}
    (hwrites : ∀ cell new, writes cell new → cell.stored ≠ none)
    (hnone : DaosOperator.stored t k = none) (hsome : DaosOperator.stored t' k = some a) :
    fresh a ∧ ∀ b, some b ∈ DaosOperator.versions t' k →
      some b ∈ DaosOperator.versions t k ∨ b = a := by
  unfold DaosOperator.stored at hnone hsome
  unfold DaosOperator.versions
  generalize t.get k = x at h hnone ⊢
  generalize t'.get k = y at h hsome ⊢
  cases h with
  | same => simp [hnone] at hsome
  | @created x _ hfresh _ =>
      cases hsome
      refine ⟨hfresh, fun b hb => ?_⟩
      simp only [Option.map_some, Option.getD_some, Watched.mem_versions_write,
        Option.some.injEq] at hb
      refine hb.imp_left fun hb => ?_
      cases x with
      | none => simp [Watched.vacant, Watched.versions] at hb
      | some cell => exact hb
  | written h => exact absurd hnone (hwrites _ _ h)
  | delivered cell _ => simp [show cell.stored = none from hnone, Watched.deliver] at hsome

/-- `R` relates every version of an object to every later one, and to its absence. -/
def InOrder (R : α → Option α → Prop) (t : Table K (Watched α)) (k : K) : Prop :=
  (DaosOperator.versions t k).Pairwise fun a b => ∀ x, a = some x → R x b

variable {R : α → Option α → Prop}

theorem InOrder.stored (h : InOrder R t k) {x : α} (hx : some x ∈ DaosOperator.versions t k) :
    DaosOperator.stored t k = some x ∨ R x (DaosOperator.stored t k) := by
  unfold InOrder DaosOperator.versions at h
  unfold DaosOperator.versions at hx
  unfold DaosOperator.stored
  cases hget : t.get k with
  | none => simp [hget] at hx
  | some cell =>
      simp only [hget, Option.map_some, Option.getD_some, Option.bind_some, Watched.versions,
        List.pairwise_append, List.mem_append, List.mem_singleton] at h hx ⊢
      rcases hx with hx | hx
      · exact Or.inr (h.2.2 _ hx _ rfl x rfl)
      · exact Or.inl hx.symm

theorem pairwise_write {cell : Watched α} {new : Option α}
    (h : cell.versions.Pairwise fun a b => ∀ x, a = some x → R x b)
    (hstored : ∀ x, cell.stored = some x → R x new)
    (hold : ∀ x, some x ∈ cell.behind → R x cell.stored → R x new) :
    (cell.write new).versions.Pairwise fun a b => ∀ x, a = some x → R x b := by
  have hversions : (cell.write new).versions = cell.versions ++ [new] := by
    simp [Watched.write, Watched.versions]
  rw [hversions, List.pairwise_append]
  refine ⟨h, by simp, ?_⟩
  rintro _ hv _ hnew x rfl
  rw [List.mem_singleton] at hnew
  subst hnew
  simp only [Watched.versions, List.mem_append, List.mem_singleton] at hv
  rcases hv with hv | hv
  · rw [Watched.versions, List.pairwise_append] at h
    exact hold x hv (h.2.2 _ hv cell.stored (by simp) x rfl)
  · exact hstored x hv.symm

theorem CellStep.inOrder (h : CellStep fresh writes delivers (t.get k) (t'.get k))
    (horder : InOrder R t k)
    (hcreated : ∀ a x, fresh a → DaosOperator.stored t k = none →
      some x ∈ DaosOperator.versions t k → R x none → R x (some a))
    (hwritten : ∀ cell new, t.get k = some cell → writes cell new →
      ∃ a, cell.stored = some a ∧ R a new ∧ ∀ x, some x ∈ cell.behind → R x (some a) → R x new) :
    InOrder R t' k := by
  unfold InOrder DaosOperator.versions at horder ⊢
  unfold DaosOperator.stored DaosOperator.versions at hcreated
  generalize t.get k = x at h horder hcreated hwritten
  generalize t'.get k = y at h ⊢
  cases h with
  | same => exact horder
  | @created x a hfresh hfree =>
      cases x with
      | none => simp [Watched.write, Watched.versions, Watched.vacant]
      | some cell =>
          have hstored : cell.stored = none := hfree
          refine pairwise_write horder (by simp [hstored]) fun x hx hR => ?_
          exact hcreated a x hfresh hstored (List.mem_append_left _ hx) (hstored ▸ hR)
  | @written cell new hw =>
      obtain ⟨a, ha, hnew, hold⟩ := hwritten cell new rfl hw
      refine pairwise_write horder ?_ fun x hx hR => hold x hx (ha ▸ hR)
      intro x hx
      rw [ha] at hx
      cases hx
      exact hnew
  | delivered cell _ =>
      exact List.Pairwise.sublist ((List.tail_sublist _).append (List.Sublist.refl _)) horder

/-- Only the cache itself changes what it shows. -/
theorem CellStep.cached (h : CellStep fresh writes delivers (t.get k) (t'.get k))
    (hdelivers : ¬delivers) : DaosOperator.cached t' k = DaosOperator.cached t k := by
  unfold DaosOperator.cached
  generalize t.get k = x at h ⊢
  generalize t'.get k = y at h ⊢
  cases h with
  | same => rfl
  | @created x a _ _ =>
      cases x with
      | none => rfl
      | some cell => cases hb : cell.behind <;> simp [Watched.cached, Watched.write, hb]
  | @written cell new _ => cases hb : cell.behind <;> simp [Watched.cached, Watched.write, hb]
  | delivered _ h => exact absurd h hdelivers

variable [DecidableEq K]

theorem cellStep_modify {f : α → Option α} {k' : K}
    (h : k' = k → ∀ cell a, cell.stored = some a → writes cell (f a)) :
    CellStep fresh writes delivers (t.get k) ((modify t k' f).get k) := by
  by_cases hk : k = k'
  · subst hk
    unfold modify
    cases hget : t.get k with
    | none =>
        simp only [hget]
        exact .same none
    | some cell =>
        dsimp only
        cases hstored : cell.stored with
        | none =>
            simp only [hget]
            exact .same _
        | some a =>
            dsimp only
            rw [Table.get_put_self]
            exact .written (h rfl cell a hstored)
  · rw [modify_get_of_ne hk]
    exact .same _

theorem cellStep_create {a : α} {k' : K} (h : k' = k → fresh a) :
    CellStep fresh writes delivers (t.get k) ((create t k' a).get k) := by
  by_cases hk : k = k'
  · subst hk
    unfold create
    dsimp only
    split
    · next hfree =>
        rw [Table.get_put_self]
        exact .created (h rfl) (Option.isNone_iff_eq_none.mp hfree)
    · exact .same _
  · have hsame : (create t k' a).get k = t.get k := by
      unfold create
      dsimp only
      split
      · exact Table.get_put_of_ne t hk _
      · rfl
    rw [hsame]
    exact .same _

theorem cellStep_deliver {k' : K} (h : k' = k → delivers) :
    CellStep fresh writes delivers (t.get k) ((deliver t k').get k) := by
  by_cases hk : k = k'
  · subst hk
    unfold deliver
    cases hget : t.get k with
    | none =>
        simp only [hget]
        exact .same none
    | some cell =>
        dsimp only
        rw [Table.get_put_self]
        exact .delivered cell (h rfl)
  · have hsame : (deliver t k').get k = t.get k := by
      unfold deliver
      split
      · rfl
      · exact Table.get_put_of_ne t hk _
    rw [hsame]
    exact .same _

theorem cellStep_setFinalizer {set : α → α} {gone : α → Bool} {k' : K}
    (h : k' = k → ∀ cell a, cell.stored = some a → cell.behind = [] →
      writes cell (if gone (set a) then none else some (set a))) :
    CellStep fresh writes delivers (t.get k) ((setFinalizer t k' set gone).2.get k) := by
  by_cases hk : k = k'
  · subst hk
    unfold setFinalizer
    cases hget : t.get k with
    | none =>
        simp only [hget]
        exact .same none
    | some cell =>
        dsimp only
        split
        · simp only [hget]
          exact .same _
        · simp only [hget]
          exact .same _
        · next a hstored hbehind =>
            dsimp only
            rw [Table.get_put_self]
            exact .written (h rfl cell a hstored hbehind)
  · have hsame : (setFinalizer t k' set gone).2.get k = t.get k := by
      unfold setFinalizer
      split
      · rfl
      · split
        · rfl
        · rfl
        · exact Table.get_put_of_ne t hk _
    rw [hsame]
    exact .same _

end Cells

/-! ## Pools -/

def PoolFresh (name : String) (c : Change) (p : DaosPool) : Prop :=
  ∃ annotations spec, c = .createPool name annotations spec ∧ Pool.specAdmitted spec = true ∧
    p = { name, annotations, spec }

/-- What a change writes over a stored pool. -/
inductive PoolEdit (name : String) : Change → Watched DaosPool → Option DaosPool → Prop where
  | edit {cell : Watched DaosPool} {p : DaosPool} {spec : DaosPoolSpec} (h : cell.stored = some p)
      (hadmitted : Pool.updateAdmitted p spec = true) :
      PoolEdit name (.editPool name spec) cell
        (some { p with spec, generation := p.generation + 1 })
  | refused {cell : Watched DaosPool} {p : DaosPool} {spec : DaosPoolSpec}
      (h : cell.stored = some p) : PoolEdit name (.editPool name spec) cell (some p)
  | annotate {cell : Watched DaosPool} {p : DaosPool} {annotations : PoolAnnotations}
      (h : cell.stored = some p) :
      PoolEdit name (.annotatePool name annotations) cell (some { p with annotations })
  | delete {cell : Watched DaosPool} {p : DaosPool} (h : cell.stored = some p)
      (hfinalizer : p.finalizer = true) :
      PoolEdit name (.deletePool name) cell (some { p with deleting := true })
  | remove {cell : Watched DaosPool} {p : DaosPool} (h : cell.stored = some p)
      (hfinalizer : p.finalizer = false) : PoolEdit name (.deletePool name) cell none

theorem poolCell_change (w : World) (name : String) (c : Change) :
    CellStep (PoolFresh name c) (PoolEdit name c) (c = .deliverPool name) (w.pools.get name)
      ((c.apply w).pools.get name) := by
  cases c with
  | createPool other annotations spec =>
      simp only [Change.apply]
      split
      · next hadmitted =>
          refine cellStep_create ?_
          rintro rfl
          exact ⟨annotations, spec, rfl, hadmitted, rfl⟩
      · exact .same _
  | editPool other spec =>
      refine cellStep_modify ?_
      rintro rfl cell p hstored
      split
      · next hadmitted => exact .edit hstored hadmitted
      · exact .refused hstored
  | annotatePool other annotations =>
      refine cellStep_modify ?_
      rintro rfl cell p hstored
      exact .annotate hstored
  | deletePool other =>
      refine cellStep_modify ?_
      rintro rfl cell p hstored
      split
      · next hfinalizer => exact .delete hstored hfinalizer
      · next hfinalizer => exact .remove hstored (by simpa using hfinalizer)
  | deliverPool other =>
      refine cellStep_deliver ?_
      rintro rfl
      rfl
  | setReadyReplicas key ready =>
      simp only [Change.apply]
      split <;> exact .same _
  | jobProgress key conditions pods | jobRemoved key | jobCollected key =>
      simp only [Change.apply, onJob]
      split <;> exact .same _
  | daosRuns key ranks =>
      simp only [Change.apply, runInDaos]
      split
      · exact .same _
      · split <;> exact .same _
  | _ => exact .same _

/-- What a call writes over a stored pool. -/
inductive PoolWrite (name : String) : Call → Watched DaosPool → Option DaosPool → Prop where
  | status {cell : Watched DaosPool} {p : DaosPool} {st : DaosPoolStatus}
      (h : cell.stored = some p) :
      PoolWrite name (.updatePoolStatus name st) cell (some { p with status := st })
  | finalizer {cell : Watched DaosPool} {p : DaosPool} {present : Bool} (h : cell.stored = some p)
      (hbehind : cell.behind = []) (hstays : (p.deleting && !present) = false) :
      PoolWrite name (.setPoolFinalizer name present) cell (some { p with finalizer := present })
  | gone {cell : Watched DaosPool} {p : DaosPool} {present : Bool} (h : cell.stored = some p)
      (hbehind : cell.behind = []) (hgone : (p.deleting && !present) = true) :
      PoolWrite name (.setPoolFinalizer name present) cell none

theorem poolCell_call (w : World) (name : String) (c : Call) (f : Fault) :
    CellStep (fun _ => False) (PoolWrite name c) False (w.pools.get name)
      ((cluster.respond c f w).2.pools.get name) := by
  rw [Handler.respond_world]
  split
  · cases c with
    | updatePoolStatus other st =>
        refine cellStep_modify ?_
        rintro rfl cell p hstored
        exact .status hstored
    | setPoolFinalizer other present =>
        refine cellStep_setFinalizer ?_
        rintro rfl cell p hstored hbehind
        split
        · next hgone => exact .gone hstored hbehind hgone
        · next hstays => exact .finalizer hstored hbehind (by simpa using hstays)
    | createJob spec =>
        simp only [cluster, perform]
        split <;> exact .same _
    | deleteJob key =>
        simp only [cluster, perform]
        split <;> exact .same _
    | _ => exact .same _
  · exact .same _

/-! ## Containers -/

def ContainerFresh (key : ObjectKey) (c : Change) (cont : DaosContainer) : Prop :=
  ∃ destroyApproved spec, c = .createContainer key destroyApproved spec ∧
    cont = { key, destroyApproved, spec }

/-- What a change writes over a stored container. -/
inductive ContainerEdit (key : ObjectKey) :
    Change → Watched DaosContainer → Option DaosContainer → Prop where
  | edit {cell : Watched DaosContainer} {c : DaosContainer} {spec : DaosContainerSpec}
      (h : cell.stored = some c) :
      ContainerEdit key (.editContainer key spec) cell
        (some { c with spec, generation := c.generation + 1 })
  | annotate {cell : Watched DaosContainer} {c : DaosContainer} {destroyApproved : Option String}
      (h : cell.stored = some c) :
      ContainerEdit key (.annotateContainer key destroyApproved) cell
        (some { c with destroyApproved })
  | delete {cell : Watched DaosContainer} {c : DaosContainer} (h : cell.stored = some c)
      (hfinalizer : c.finalizer = true) :
      ContainerEdit key (.deleteContainer key) cell (some { c with deleting := true })
  | remove {cell : Watched DaosContainer} {c : DaosContainer} (h : cell.stored = some c)
      (hfinalizer : c.finalizer = false) :
      ContainerEdit key (.deleteContainer key) cell none

theorem containerCell_change (w : World) (key : ObjectKey) (c : Change) :
    CellStep (ContainerFresh key c) (ContainerEdit key c) (c = .deliverContainer key)
      (w.containers.get key) ((c.apply w).containers.get key) := by
  cases c with
  | createContainer other destroyApproved spec =>
      refine cellStep_create ?_
      rintro rfl
      exact ⟨destroyApproved, spec, rfl, rfl⟩
  | editContainer other spec =>
      refine cellStep_modify ?_
      rintro rfl cell c hstored
      exact .edit hstored
  | annotateContainer other destroyApproved =>
      refine cellStep_modify ?_
      rintro rfl cell c hstored
      exact .annotate hstored
  | deleteContainer other =>
      refine cellStep_modify ?_
      rintro rfl cell c hstored
      split
      · next hfinalizer => exact .delete hstored hfinalizer
      · next hfinalizer => exact .remove hstored (by simpa using hfinalizer)
  | deliverContainer other =>
      refine cellStep_deliver ?_
      rintro rfl
      rfl
  | createPool other annotations spec =>
      simp only [Change.apply]
      split <;> exact .same _
  | setReadyReplicas key ready =>
      simp only [Change.apply]
      split <;> exact .same _
  | jobProgress key conditions pods | jobRemoved key | jobCollected key =>
      simp only [Change.apply, onJob]
      split <;> exact .same _
  | daosRuns key ranks =>
      simp only [Change.apply, runInDaos]
      split
      · exact .same _
      · split <;> exact .same _
  | _ => exact .same _

/-- What a call writes over a stored container. -/
inductive ContainerWrite (key : ObjectKey) :
    Call → Watched DaosContainer → Option DaosContainer → Prop where
  | status {cell : Watched DaosContainer} {c : DaosContainer} {st : DaosContainerStatus}
      (h : cell.stored = some c) :
      ContainerWrite key (.updateContainerStatus key st) cell (some { c with status := st })
  | finalizer {cell : Watched DaosContainer} {c : DaosContainer} {present : Bool}
      (h : cell.stored = some c) (hbehind : cell.behind = [])
      (hstays : (c.deleting && !present) = false) :
      ContainerWrite key (.setContainerFinalizer key present) cell
        (some { c with finalizer := present })
  | gone {cell : Watched DaosContainer} {c : DaosContainer} {present : Bool}
      (h : cell.stored = some c) (hbehind : cell.behind = [])
      (hgone : (c.deleting && !present) = true) :
      ContainerWrite key (.setContainerFinalizer key present) cell none

theorem containerCell_call (w : World) (key : ObjectKey) (c : Call) (f : Fault) :
    CellStep (fun _ => False) (ContainerWrite key c) False (w.containers.get key)
      ((cluster.respond c f w).2.containers.get key) := by
  rw [Handler.respond_world]
  split
  · cases c with
    | updateContainerStatus other st =>
        refine cellStep_modify ?_
        rintro rfl cell c hstored
        exact .status hstored
    | setContainerFinalizer other present =>
        refine cellStep_setFinalizer ?_
        rintro rfl cell c hstored hbehind
        split
        · next hgone => exact .gone hstored hbehind hgone
        · next hstays => exact .finalizer hstored hbehind (by simpa using hstays)
    | createJob spec =>
        simp only [cluster, perform]
        split <;> exact .same _
    | deleteJob key =>
        simp only [cluster, perform]
        split <;> exact .same _
    | _ => exact .same _
  · exact .same _

/-! ## Jobs -/

/-- What a call can do to the Job of a name. -/
inductive JobCall (w : World) (key : ObjectKey) (f : Fault) :
    Call → Option Job → Option Job → Prop where
  | same {c : Call} (job : Option Job) : JobCall w key f c job job
  | created {spec : Dmg.RunSpec} (hkey : spec.key = key) (hf : f.effective = true) :
      JobCall w key f (.createJob spec) none (some ⟨w.nextId, spec, w.clock, [], false, []⟩)
  | marked (job : Job) (hf : f.effective = true) :
      JobCall w key f (.deleteJob key) (some job) (some { job with deleting := true })

theorem jobCall (w : World) (key : ObjectKey) (c : Call) (f : Fault) :
    JobCall w key f c (w.jobs.get key) ((cluster.respond c f w).2.jobs.get key) := by
  rw [Handler.respond_world]
  split
  · next hf =>
      cases c with
      | createJob spec =>
          simp only [cluster, perform]
          split
          · exact .same _
          · next hnone =>
              dsimp only
              rw [Table.get_put]
              split
              · next hkey =>
                  subst hkey
                  rw [hnone]
                  exact .created rfl hf
              · exact .same _
      | deleteJob other =>
          simp only [cluster, perform]
          split
          · exact .same _
          · next job hjob =>
              dsimp only
              rw [Table.get_put]
              split
              · next hkey =>
                  subst hkey
                  rw [hjob]
                  exact .marked job hf
              · exact .same _
      | _ => exact .same _
  · exact .same _

/-! ## Remembered queries -/

/-- What a call can do to the time remembered under a key. -/
inductive MarkCall (k : String) : Call → Option Time → Option Time → Prop where
  | same {c : Call} (mark : Option Time) : MarkCall k c mark mark
  | marked (mark : Option Time) (q : Time) : MarkCall k (.rfPendingSet k q) mark (some q)
  | cleared (mark : Option Time) : MarkCall k (.rfPendingClear k) mark none

theorem markCall (w : World) (k : String) (c : Call) (f : Fault) :
    MarkCall k c (w.memory.rfPending.get k)
      ((cluster.respond c f w).2.memory.rfPending.get k) := by
  rw [Handler.respond_world]
  split
  · cases c with
    | rfPendingSet key q =>
        simp only [cluster, perform]
        rw [Table.get_put]
        split
        · next hkey =>
            subst hkey
            exact .marked _ _
        · exact .same _
    | rfPendingClear key =>
        simp only [cluster, perform]
        rw [Table.get_put]
        split
        · next hkey =>
            subst hkey
            exact .cleared _
        · exact .same _
    | createJob spec =>
        simp only [cluster, perform]
        split <;> exact .same _
    | deleteJob key =>
        simp only [cluster, perform]
        split <;> exact .same _
    | _ => exact .same _
  · exact .same _

theorem mark_change (w : World) (k : String) (c : Change) :
    (c.apply w).memory.rfPending.get k = w.memory.rfPending.get k ∨
      c = .restart ∧ (c.apply w).memory.rfPending.get k = none := by
  cases c with
  | restart => exact Or.inr ⟨rfl, rfl⟩
  | createPool name annotations spec =>
      simp only [Change.apply]
      split <;> exact Or.inl rfl
  | setReadyReplicas key ready =>
      simp only [Change.apply]
      split <;> exact Or.inl rfl
  | jobProgress key conditions pods | jobRemoved key | jobCollected key =>
      simp only [Change.apply, onJob]
      split <;> exact Or.inl rfl
  | daosRuns key ranks =>
      simp only [Change.apply, runInDaos]
      split
      · exact Or.inl rfl
      · split <;> exact Or.inl rfl
  | _ => exact Or.inl rfl

end DaosOperator
