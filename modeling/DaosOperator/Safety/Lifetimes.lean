import DaosOperator.Safety.Gates
import DaosOperator.Steps

/-!
# The lifetime of a pool or a container object

`finalize` looks at four things: the finalizer, the deletion timestamp, the approval of
a destroy and the uuid.  This module follows them through a run, for pools and containers
alike, and says which Jobs were created for one object and not for an earlier object of
the same name.
-/

namespace DaosOperator

open Effect
open DaosOperator.System (namespaceOf)

/-! ## What deletion looks at -/

/-- An object whose deletion waits for the operator. -/
inductive Owned where
  | pool (name : String)
  | container (key : ObjectKey)
  deriving DecidableEq

variable {w : World} {o : Owned} {j : ObjectKey × Nat} {e : Event}

/-- What `finalize` reads of an object. -/
structure Face where
  finalizer : Bool
  deleting : Bool
  approved : Bool
  uuid : String
  deriving DecidableEq

def DaosPool.face (p : DaosPool) : Face :=
  ⟨p.finalizer, p.deleting, Pool.destroyApproved p, p.status.uuid⟩

def DaosContainer.face (c : DaosContainer) : Face :=
  ⟨c.finalizer, c.deleting, Container.approvedToDestroy c, c.status.uuid⟩

/-- The object as it is stored. -/
def face (w : World) : Owned → Option Face
  | .pool name => (stored w.pools name).map DaosPool.face
  | .container key => (stored w.containers key).map DaosContainer.face

/-- The object as a reconcile reads it. -/
def seen (w : World) : Owned → Option Face
  | .pool name => (cached w.pools name).map DaosPool.face
  | .container key => (cached w.containers key).map DaosContainer.face

theorem seen_pool {name : String} {pool : DaosPool}
    (h : cached w.pools name = some pool) : seen w (.pool name) = some pool.face := by
  simp [seen, h]

theorem seen_container {key : ObjectKey} {c : DaosContainer}
    (h : cached w.containers key = some c) : seen w (.container key) = some c.face := by
  simp [seen, h]

/-- The caches show the object, the pool of a container and its system as they are stored. -/
def upToDate (w : World) : Owned → Bool
  | .pool name => cached w.pools name = stored w.pools name
  | .container key => cached w.containers key = stored w.containers key &&
      (cached w.containers key).all fun c =>
        cached w.pools c.spec.poolRef = stored w.pools c.spec.poolRef &&
        (cached w.pools c.spec.poolRef).all fun pool =>
          cached w.systems pool.spec.systemRef = stored w.systems pool.spec.systemRef

theorem seen_of_upToDate (h : upToDate w o = true) :
    seen w o = face w o := by
  cases o with
  | pool name =>
      have hsame : cached w.pools name = stored w.pools name := by simpa [upToDate] using h
      simp only [seen, face, hsame]
  | container key =>
      have hsame : cached w.containers key = stored w.containers key := by
        simp only [upToDate, Bool.and_eq_true, decide_eq_true_eq] at h
        exact h.1
      simp only [seen, face, hsame]

/-- An object that is read as being destroyed is read as being deleted. -/
def ReadsDeleted (w : World) : Owned → Prop
  | .pool name => ∀ p, cached w.pools name = some p → p.destroying = true → p.deleting = true
  | .container key =>
      ∀ c, cached w.containers key = some c → c.destroying = true → c.deleting = true

theorem DestroysDeleted.reads (h : DestroysDeleted w) (o : Owned) : ReadsDeleted w o := by
  cases o with
  | pool name => exact fun p hp => (h.pools name).destroys p (cached_mem_versions hp)
  | container key => exact fun c hc => (h.containers key).destroys c (cached_mem_versions hc)

/-- The object that an event reconciles. -/
def Event.owned : Event → Option Owned
  | .reconcilePool name _ => some (.pool name)
  | .reconcileContainer key _ => some (.container key)
  | _ => none

/-- The stored object is being deleted if it is being destroyed. -/
def StoresDeleted (w : World) : Owned → Prop
  | .pool name =>
      StoredDeleted DaosPool.deleting DaosPool.destroying (fun _ => False) w.pools name
  | .container key =>
      StoredDeleted DaosContainer.deleting DaosContainer.destroying
        (fun _ => False) w.containers key

theorem StoresDeleted.reads (h : StoresDeleted w o) (hread : upToDate w o = true) :
    ReadsDeleted w o := by
  cases o with
  | pool name =>
      have hsame : cached w.pools name = stored w.pools name := by simpa [upToDate] using hread
      exact fun p hp hdestroys => h p (hsame ▸ hp) (Or.inl hdestroys)
  | container key =>
      simp only [upToDate, Bool.and_eq_true, decide_eq_true_eq] at hread
      exact fun c hc hdestroys => h c (hread.1 ▸ hc) (Or.inl hdestroys)

/-- Reconciles that read their objects up to date destroy what is being deleted. -/
theorem StoresDeleted.step (h : StoresDeleted w o) (hw : WellNamed w)
    (hread : e.owned = some o → upToDate w o = true) : StoresDeleted (operator.step w e).1 o := by
  cases o with
  | pool name =>
      by_cases he : ∃ c, e = .change c
      · obtain ⟨c, rfl⟩ := he
        refine StoredDeleted.step h (poolCell_change w name c) ?_ fun _ _ => poolEdit_deleted
        rintro _ ⟨annotations, spec, -, -, rfl⟩
        exact ⟨rfl, fun _ => id⟩
      · have hinit : StoredDeleted DaosPool.deleting DaosPool.destroying
            (fun p => e.pool = some name ∧ cached w.pools name = some p) w.pools name := by
          refine StoredDeleted.of_read h ?_
          rintro p ⟨hpool, hp⟩
          obtain ⟨faults, rfl⟩ := Event.eq_of_pool hpool
          have hsame := hread rfl
          simp only [upToDate, decide_eq_true_eq] at hsame
          rwa [← hsame]
        refine StoredDeleted.forget (step_keeps (I := fun v => StoredDeleted _ _ _ v.pools name)
          (fun c f v hc hv => ?_) (fun c hc => absurd ⟨c, hc⟩ he) hinit)
        exact hv.step (poolCell_call v name c f) (by simp) fun _ _ => poolWrite_deleted hw hc
  | container key =>
      by_cases he : ∃ c, e = .change c
      · obtain ⟨c, rfl⟩ := he
        refine StoredDeleted.step h (containerCell_change w key c) ?_
          fun _ _ => containerEdit_deleted
        rintro _ ⟨approved, spec, -, rfl⟩
        exact ⟨rfl, fun _ => id⟩
      · have hinit : StoredDeleted DaosContainer.deleting DaosContainer.destroying
            (fun c => e.container = some key ∧ cached w.containers key = some c)
            w.containers key := by
          refine StoredDeleted.of_read h ?_
          rintro c ⟨hcont, hc⟩
          obtain ⟨faults, rfl⟩ := Event.eq_of_container hcont
          have hsame := hread rfl
          simp only [upToDate, Bool.and_eq_true, decide_eq_true_eq] at hsame
          rwa [← hsame.1]
        refine StoredDeleted.forget (step_keeps
          (I := fun v => StoredDeleted _ _ _ v.containers key) (fun c f v hc hv => ?_)
          (fun c hc => absurd ⟨c, hc⟩ he) hinit)
        exact hv.step (containerCell_call v key c f) (by simp)
          fun _ _ => containerWrite_deleted hw hc

/-- The object whose annotations a change replaces. -/
def Change.annotates : Change → Option Owned
  | .annotatePool name _ => some (.pool name)
  | .annotateContainer key _ => some (.container key)
  | _ => none

def Change.deletes : Change → Option Owned
  | .deletePool name => some (.pool name)
  | .deleteContainer key => some (.container key)
  | _ => none

/-- What a change can do to an object. -/
inductive FaceChange (c : Change) (o : Owned) : Option Face → Option Face → Prop where
  | same (x : Option Face) : FaceChange c o x x
  | created (approved : Bool) : FaceChange c o none (some ⟨false, false, approved, ""⟩)
  | annotated (f : Face) (approved : Bool) (h : c.annotates = some o) :
      FaceChange c o (some f) (some { f with approved })
  | deleted (f : Face) (h : c.deletes = some o) :
      FaceChange c o (some f) (some { f with deleting := true })
  | removed (f : Face) (h : f.finalizer = false) : FaceChange c o (some f) none

theorem face_change (w : World) (c : Change) (o : Owned) :
    FaceChange c o (face w o) (face (c.apply w) o) := by
  cases o with
  | pool name =>
      simp only [face]
      rcases (poolCell_change w name c).stored with h | ⟨hnone, p, hfresh, h⟩ | ⟨cell, hcell, hedit⟩
      · rw [h]
        exact .same _
      · obtain ⟨annotations, spec, -, -, rfl⟩ := hfresh
        rw [hnone, h]
        exact .created _
      · generalize stored (c.apply w).pools name = new at hedit ⊢
        cases hedit with
        | edit h _ | refused h =>
            rw [stored_of_cell hcell h]
            exact .same _
        | annotate h =>
            rw [stored_of_cell hcell h]
            exact .annotated _ _ rfl
        | delete h _ =>
            rw [stored_of_cell hcell h]
            exact .deleted _ rfl
        | remove h hfinalizer =>
            rw [stored_of_cell hcell h]
            exact .removed _ hfinalizer
  | container key =>
      simp only [face]
      rcases (containerCell_change w key c).stored with
        h | ⟨hnone, p, hfresh, h⟩ | ⟨cell, hcell, hedit⟩
      · rw [h]
        exact .same _
      · obtain ⟨destroyApproved, spec, -, rfl⟩ := hfresh
        rw [hnone, h]
        exact .created _
      · generalize stored (c.apply w).containers key = new at hedit ⊢
        cases hedit with
        | edit h =>
            rw [stored_of_cell hcell h]
            exact .same _
        | annotate h =>
            rw [stored_of_cell hcell h]
            exact .annotated _ _ rfl
        | delete h _ =>
            rw [stored_of_cell hcell h]
            exact .deleted _ rfl
        | remove h hfinalizer =>
            rw [stored_of_cell hcell h]
            exact .removed _ hfinalizer

def Owned.setFinalizer (present : Bool) : Owned → Call
  | .pool name => .setPoolFinalizer name present
  | .container key => .setContainerFinalizer key present

/-- The uuid that a call writes into the status of the object. -/
def Owned.writes (o : Owned) (uuid : String) (c : Call) : Prop :=
  match o with
  | .pool name => ∃ st, c = .updatePoolStatus name st ∧ st.uuid = uuid
  | .container key => ∃ st, c = .updateContainerStatus key st ∧ st.uuid = uuid

/-- What a call can do to an object; the finalizer is written only over what was read. -/
inductive FaceCall (v : World) (o : Owned) (c : Call) : Option Face → Option Face → Prop where
  | same (x : Option Face) : FaceCall v o c x x
  | status (f : Face) (uuid : String) (h : o.writes uuid c) :
      FaceCall v o c (some f) (some { f with uuid })
  | finalizer (f : Face) (present : Bool) (hseen : seen v o = some f)
      (h : c = o.setFinalizer present) (hstays : (f.deleting && !present) = false) :
      FaceCall v o c (some f) (some { f with finalizer := present })
  | gone (f : Face) (hseen : seen v o = some f) (h : c = o.setFinalizer false)
      (hdeleting : f.deleting = true) : FaceCall v o c (some f) none

theorem cached_of_cell {K α : Type} {t : Table K (Watched α)} {k : K} {cell : Watched α} {a : α}
    (hcell : t.get k = some cell) (ha : cell.stored = some a) (hbehind : cell.behind = []) :
    cached t k = some a := by
  simp [cached, hcell, Watched.cached, hbehind, ha]

theorem face_call (v : World) (o : Owned) (c : Call) (f : Fault) :
    FaceCall v o c (face v o) (face (cluster.respond c f v).2 o) := by
  cases o with
  | pool name =>
      simp only [face]
      rcases (poolCell_call v name c f).stored with h | ⟨_, _, hfresh, _⟩ | ⟨cell, hcell, hwrite⟩
      · rw [h]
        exact .same _
      · exact hfresh.elim
      · generalize stored (cluster.respond c f v).2.pools name = new at hwrite ⊢
        cases hwrite with
        | status h =>
            rw [stored_of_cell hcell h]
            exact .status _ _ ⟨_, rfl, rfl⟩
        | finalizer h hbehind hstays =>
            rw [stored_of_cell hcell h]
            exact .finalizer _ _ (seen_pool (cached_of_cell hcell h hbehind)) rfl hstays
        | @gone _ p present h hbehind hgone =>
            rw [stored_of_cell hcell h]
            obtain ⟨hdeleting, rfl⟩ : p.deleting = true ∧ present = false := by simpa using hgone
            exact .gone _ (seen_pool (cached_of_cell hcell h hbehind)) rfl hdeleting
  | container key =>
      simp only [face]
      rcases (containerCell_call v key c f).stored with
        h | ⟨_, _, hfresh, _⟩ | ⟨cell, hcell, hwrite⟩
      · rw [h]
        exact .same _
      · exact hfresh.elim
      · generalize stored (cluster.respond c f v).2.containers key = new at hwrite ⊢
        cases hwrite with
        | status h =>
            rw [stored_of_cell hcell h]
            exact .status _ _ ⟨_, rfl, rfl⟩
        | finalizer h hbehind hstays =>
            rw [stored_of_cell hcell h]
            exact .finalizer _ _ (seen_container (cached_of_cell hcell h hbehind)) rfl hstays
        | @gone _ p present h hbehind hgone =>
            rw [stored_of_cell hcell h]
            obtain ⟨hdeleting, rfl⟩ : p.deleting = true ∧ present = false := by simpa using hgone
            exact .gone _ (seen_container (cached_of_cell hcell h hbehind)) rfl hdeleting

theorem seen_call (v : World) (o : Owned) (c : Call) (f : Fault) :
    seen (cluster.respond c f v).2 o = seen v o := by
  cases o with
  | pool name =>
      simp only [seen]
      rw [(poolCell_call v name c f).cached id]
  | container key =>
      simp only [seen]
      rw [(containerCell_call v key c f).cached id]

/-! ## What a reconcile does with it -/

/-- The words of a create of a pool or a container. -/
def isCreate : List String → Bool
  | "pool" :: "create" :: _ => true
  | "cont" :: "create" :: _ => true
  | _ => false

def isDestroy (args : List String) : Bool := isPoolDestroy args || isContainerDestroy args

section Gates

variable {w : World} {e : Event} {o : Owned} {x : Entry Call World}

/-- A create is for an object that nobody deletes. -/
theorem live_of_create {spec : Dmg.RunSpec} (ho : e.owned = some o)
    (hx : x ∈ (operator.step w e).2) (hcall : x.call = .createJob spec)
    (hcreate : isCreate spec.command.args = true) :
    ∃ f, seen w o = some f ∧ f.deleting = false := by
  have h := stepCall_of_mem hx
  rw [hcall] at h
  cases h with
  | quiet h => cases h
  | system _ _ => cases ho
  | pool hpool h =>
      cases ho
      refine ⟨_, seen_pool hpool, ?_⟩
      rcases h.of_createJob with ⟨sys, h⟩ | ⟨sys, rfl, -⟩
      · exact h.live
      · cases hcreate
  | container hcont h =>
      cases ho
      refine ⟨_, seen_container hcont, ?_⟩
      obtain ⟨pool, sys, job, rfl, h | ⟨rfl, -⟩⟩ := h.served_of_createJob
      · exact h.live
      · cases hcreate

/-- A destroy is for a deleted object that exists in DAOS and may be destroyed. -/
theorem gate_of_destroy (hw : ReadsDeleted w o) {spec : Dmg.RunSpec} (ho : e.owned = some o)
    (hx : x ∈ (operator.step w e).2) (hcall : x.call = .createJob spec)
    (hdestroy : isDestroy spec.command.args = true) :
    ∃ f, seen w o = some f ∧ f.deleting = true ∧ f.approved = true ∧ f.uuid ≠ "" := by
  have hcalls := eventCall_of_mem hx
  rw [hcall] at hcalls
  generalize hc : Call.createJob spec = c at hcalls
  have hdestructive : isDestructive spec.command.args = true := by
    unfold isDestroy at hdestroy
    unfold isDestructive
    rw [Bool.or_assoc, hdestroy, Bool.or_true]
  cases hcalls with
  | read hquiet =>
      subst hc
      cases hquiet
  | system _ _ => cases ho
  | pool hpool h =>
      cases ho
      obtain ⟨-, hgate⟩ := pool_gate (hw _ hpool) (hc ▸ h) hdestructive
      exact ⟨_, seen_pool hpool, hgate.1, by simp [DaosPool.face, Pool.destroyApproved,
        hgate.2.1], hgate.2.2⟩
  | container hcont h =>
      cases ho
      obtain ⟨-, hgate⟩ := container_gate (hw _ hcont) (hc ▸ h) hdestructive
      exact ⟨_, seen_container hcont, hgate.1, by simp [DaosContainer.face,
        Container.approvedToDestroy, hgate.2.1], hgate.2.2⟩

/-- A reconcile writes the status of the object it reconciles, and keeps the uuid of one that
is being deleted. -/
theorem uuid_of_writes (hw : WellNamed w) {uuid : String} (hx : x ∈ (operator.step w e).2)
    (hwrites : o.writes uuid x.call) :
    e.owned = some o ∧ ∃ f, seen w o = some f ∧ (f.deleting = true → uuid = f.uuid) := by
  cases o with
  | pool name =>
      obtain ⟨st, hcall, rfl⟩ := hwrites
      obtain ⟨faults, pool, rfl, hpool, h⟩ := move_of_updatePoolStatus hw hx hcall
      exact ⟨rfl, _, seen_pool hpool, fun hdeleting => h.uuid_of_deleting hdeleting⟩
  | container key =>
      obtain ⟨st, hcall, rfl⟩ := hwrites
      obtain ⟨faults, cont, rfl, hcont, h⟩ := move_of_updateContainerStatus hw hx hcall
      exact ⟨rfl, _, seen_container hcont, fun hdeleting => h.uuid_of_deleting hdeleting⟩

end Gates

/-! ## Lifetimes -/

/-- The steps since the object was created, the newest first. -/
def lifetime (past : List Step) (o : Owned) : List Step :=
  past.takeWhile fun r => (face r.before o).isSome

/-- The Jobs with such a command that a step creates for the object it reconciles. -/
def jobsFor (command : List String → Bool) (o : Owned) (r : Step) : List (ObjectKey × Nat) :=
  if r.event.owned = some o then
    r.obs.filterMap fun x => (created x).bind fun spec =>
      if command spec.command.args then some (spec.key, x.before.nextId) else none
  else []

abbrev createJobs (o : Owned) (r : Step) : List (ObjectKey × Nat) := jobsFor isCreate o r

abbrev destroyJobs (o : Owned) (r : Step) : List (ObjectKey × Nat) := jobsFor isDestroy o r

theorem created_of_jobsFor {command : List String → Bool} {r : Step} (h : j ∈ jobsFor command o r) :
    r.event.owned = some o ∧ ∃ x ∈ r.obs, ∃ spec, created x = some spec ∧
      command spec.command.args = true := by
  unfold jobsFor at h
  split at h
  · next ho =>
      obtain ⟨x, hx, hmap⟩ := List.mem_filterMap.mp h
      obtain ⟨spec, hcreated, hif⟩ := Option.bind_eq_some_iff.mp hmap
      split at hif
      · next hcommand => exact ⟨ho, x, hx, spec, hcreated, hcommand⟩
      · cases hif
  · cases h

theorem mem_jobsFor {command : List String → Bool} {r : Step}
    (h : j ∈ jobsFor command o r) :
    r.event.owned = some o ∧ ∃ x ∈ r.obs, ∃ spec, x.call = .createJob spec ∧
      command spec.command.args = true := by
  obtain ⟨ho, x, hx, spec, hcreated, hcommand⟩ := created_of_jobsFor h
  exact ⟨ho, x, hx, spec, call_of_created hcreated, hcommand⟩

theorem jobsFor_change (command : List String → Bool) (o : Owned) (w : World) (c : Change) :
    jobsFor command o (operator.record w (.change c)) = [] := rfl

theorem live_of_createJobs
    (h : j ∈ createJobs o (operator.record w e)) : ∃ f, seen w o = some f ∧ f.deleting = false := by
  obtain ⟨ho, x, hx, spec, hcall, hcreate⟩ := mem_jobsFor h
  exact live_of_create ho hx hcall hcreate

theorem gate_of_destroyJobs (hw : ReadsDeleted w o) (h : j ∈ destroyJobs o (operator.record w e)) :
    ∃ f, seen w o = some f ∧ f.deleting = true ∧ f.approved = true ∧ f.uuid ≠ "" := by
  obtain ⟨ho, x, hx, spec, hcall, hdestroy⟩ := mem_jobsFor h
  exact gate_of_destroy hw ho hx hcall hdestroy

theorem lifetime_cons_of_some {past : List Step} {r : Step} {f : Face}
    (h : face r.before o = some f) : lifetime (r :: past) o = r :: lifetime past o := by
  simp [lifetime, h]

theorem lifetime_cons_of_none {past : List Step} {r : Step}
    (h : face r.before o = none) : lifetime (r :: past) o = [] := by
  simp [lifetime, h]

/-! ## The finalizer is removed -/

/-- The step takes the finalizer off the object. -/
def releases (step : Step) (o : Owned) : Bool :=
  (face step.before o).any (·.finalizer) && !(face step.after o).any (·.finalizer)

/-- A finalizer is taken off only where the reconcile read the object as it is stored. -/
theorem released {f : Face} (ho : e.owned = some o)
    (hf : face w o = some f) (h : releases (operator.record w e) o = true) :
    (∃ g, seen w o = some g ∧ g.deleting = f.deleting ∧ g.approved = f.approved) ∧
      ∃ x ∈ (operator.step w e).2, x.call = o.setFinalizer false := by
  obtain ⟨hfinalizer, hafter⟩ : f.finalizer = true ∧
      (face (operator.step w e).1 o).any (·.finalizer) = false := by
    simpa [releases, hf] using h
  have hreplay := step_replay (w := w) (e := e)
    (I := fun v => seen v o = seen w o ∧
      ((∃ g, face v o = some g ∧ g.finalizer = true ∧ g.deleting = f.deleting ∧
        g.approved = f.approved) ∨
      (∃ g, seen w o = some g ∧ g.deleting = f.deleting ∧ g.approved = f.approved) ∧
        ∃ x ∈ (operator.step w e).2, x.call = o.setFinalizer false))
    ⟨rfl, Or.inl ⟨f, hf, hfinalizer, rfl, rfl⟩⟩ ?_ ?_
  · obtain ⟨⟨-, ⟨g, hg, hgf, -⟩ | hdone⟩, -⟩ := hreplay
    · simp [hg, hgf] at hafter
    · exact hdone
  · rintro x hx ⟨hseen, hkept | hdone⟩
    · obtain ⟨g, hg, hgf, hdeleting, happroved⟩ := hkept
      refine ⟨(seen_call x.before o x.call x.fault).trans hseen, ?_⟩
      have hcall := face_call x.before o x.call x.fault
      rw [hg] at hcall
      generalize face (cluster.respond x.call x.fault x.before).2 o = y at hcall
      cases hcall with
      | same => exact Or.inl ⟨g, rfl, hgf, hdeleting, happroved⟩
      | status _ uuid _ => exact Or.inl ⟨_, rfl, hgf, hdeleting, happroved⟩
      | finalizer _ present hread hcall _ =>
          cases present with
          | true => exact Or.inl ⟨_, rfl, rfl, hdeleting, happroved⟩
          | false => exact Or.inr ⟨⟨g, hseen ▸ hread, hdeleting, happroved⟩, x, hx, hcall⟩
      | gone _ hread hcall _ =>
          exact Or.inr ⟨⟨g, hseen ▸ hread, hdeleting, happroved⟩, x, hx, hcall⟩
    · exact ⟨(seen_call x.before o x.call x.fault).trans hseen, Or.inr hdone⟩
  · rintro c rfl
    cases ho

/-- The destroy Job of an object, where its reconcile gets as far as the system. -/
def destroyKey (w : World) : Owned → Option ObjectKey
  | .pool name => (cached w.pools name).bind fun pool =>
      (cached w.systems pool.spec.systemRef).map fun sys =>
        Pool.jobKey pool.name (namespaceOf sys) (.op .destroy)
  | .container key => (cached w.containers key).bind fun c =>
      (cached w.pools c.spec.poolRef).bind fun pool =>
        (cached w.systems pool.spec.systemRef).map fun sys =>
          Container.jobKey c.key (namespaceOf sys) (.op .destroy)

/-- A reconcile of a container finds that its pool exists in DAOS. -/
def poolKnown (w : World) : Owned → Bool
  | .pool _ => true
  | .container key => (cached w.containers key).any fun c =>
      (cached w.pools c.spec.poolRef).any fun pool => pool.status.uuid ≠ ""

/-- Why a reconcile takes off the finalizer of a deleted object. -/
theorem release_gate {x : Entry Call World} {f : Face}
    (ho : e.owned = some o) (hx : x ∈ (operator.step w e).2) (hcall : x.call = o.setFinalizer false)
    (hf : seen w o = some f) :
    f.deleting = true ∧ (f.approved = false ∨ f.uuid = "" ∨
      (∃ key, o = .container key ∧ destroyKey w o = none) ∨ poolKnown w o = false ∨
      ∃ key res, destroyKey w o = some key ∧ Dmg.resultOf w key = some res ∧
        Pool.destroyFailure res = none) := by
  have h := stepCall_of_mem hx
  rw [hcall] at h
  cases h with
  | quiet h => cases o <;> cases h
  | system _ _ => cases ho
  | pool hpool h =>
      cases ho
      obtain rfl : _ = f := Option.some.inj ((seen_pool hpool).symm.trans hf)
      generalize hc : Owned.setFinalizer false (.pool _) = c at h
      cases h with
      | quiet h =>
          subst hc
          cases h
      | holds _ _ => cases hc
      | releases _ hdeleting hgate =>
          refine ⟨hdeleting, ?_⟩
          rcases hgate with hgate | hgate
          · exact Or.inl hgate
          · exact Or.inr (Or.inl hgate)
      | destroyed h =>
          refine ⟨h.gate.1, ?_⟩
          exact Or.inr (Or.inr (Or.inr (Or.inr ⟨_, _, by simp [destroyKey, hpool, h.system],
            h.read.1, h.succeeded⟩)))
      | _ => cases hc
  | container hcont h =>
      cases ho
      obtain rfl : _ = f := Option.some.inj ((seen_container hcont).symm.trans hf)
      generalize hc : Owned.setFinalizer false (.container _) = c at h
      cases h with
      | quiet h =>
          subst hc
          cases h
      | holds _ _ => cases hc
      | releases hreaches hdeleting hgate =>
          refine ⟨hdeleting, ?_⟩
          rcases hgate with hgate | hgate | hgate
          · exact Or.inl hgate
          · exact Or.inr (Or.inl hgate)
          · exact Or.inr (Or.inr (Or.inr (Or.inl (by
              simp [poolKnown, hcont, hreaches.inPool, hgate]))))
      | orphans hunreached hdeleting =>
          refine ⟨hdeleting, Or.inr (Or.inr (Or.inl ⟨_, rfl, ?_⟩))⟩
          rcases hunreached with hnone | ⟨pool, hpool, hnone⟩
          · simp [destroyKey, hcont, hnone]
          · simp [destroyKey, hcont, hpool, hnone]
      | destroyed h =>
          refine ⟨h.gate.1, ?_⟩
          exact Or.inr (Or.inr (Or.inr (Or.inr ⟨_, _, by
            simp [destroyKey, hcont, h.inPool, h.inSystem], h.read.1, h.succeeded⟩)))
      | _ => cases hc

/-- What a reconcile leaves of an object: deletion and approval stay as they are. -/
theorem face_reconcile {g : Face}
    (he : ∀ c, e ≠ .change c) (hg : face (operator.step w e).1 o = some g) :
    ∃ f, face w o = some f ∧ g.deleting = f.deleting ∧ g.approved = f.approved := by
  have hreplay := step_replay (w := w) (e := e)
    (I := fun v => ∀ g, face v o = some g →
      ∃ f, face w o = some f ∧ g.deleting = f.deleting ∧ g.approved = f.approved)
    (fun g hg => ⟨g, hg, rfl, rfl⟩) ?_ fun c hc => absurd hc (he c)
  · exact hreplay.1 g hg
  · intro x _ hx g hg
    have hcall := face_call x.before o x.call x.fault
    rw [hg] at hcall
    generalize hy : face x.before o = y at hcall
    cases hcall with
    | same => exact hx g hy
    | status f uuid _ => exact hx f hy
    | finalizer f present _ _ _ => exact hx f hy

/-- A reconcile that reads a deleted object up to date keeps its uuid. -/
theorem uuid_reconcile {f g : Face} (hw : WellNamed w)
    (he : ∀ c, e ≠ .change c) (hread : e.owned = some o → seen w o = face w o)
    (hf : face w o = some f) (hdeleting : f.deleting = true)
    (hg : face (operator.step w e).1 o = some g) : g.uuid = f.uuid := by
  have hreplay := step_replay (w := w) (e := e)
    (I := fun v => ∀ g, face v o = some g → g.uuid = f.uuid)
    (fun g hg => by rw [hf] at hg; cases hg; rfl) ?_ fun c hc => absurd hc (he c)
  · exact hreplay.1 g hg
  · intro x hx hkept g hg
    have hcall := face_call x.before o x.call x.fault
    rw [hg] at hcall
    generalize hy : face x.before o = y at hcall
    cases hcall with
    | same => exact hkept g hy
    | status _ uuid hwrites =>
        obtain ⟨ho, f', hf', huuid⟩ := uuid_of_writes hw hx hwrites
        rw [hread ho, hf] at hf'
        cases hf'
        exact huuid hdeleting
    | finalizer f' present _ _ _ => exact hkept f' hy

end DaosOperator
