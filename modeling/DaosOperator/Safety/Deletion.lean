import DaosOperator.Effect.Failure
import DaosOperator.Safety.Lifetimes

/-!
# What a removed finalizer says

A finalizer is removed in one of two ways: the object in DAOS is kept, because nobody
approved its destruction, or it was destroyed.  A destroy Job that was started before the
approval was withdrawn contradicts the first, and a create whose result nobody read
contradicts the second.  A pool that is to be kept can go at once, unless its system went
before it.
-/

namespace DaosOperator

open Effect
open DaosOperator.System (namespaceOf)

/-! ## Released as kept -/

/-- The destroy Jobs whose failure a step reads: it deletes the finished Job. -/
def failedDestroys (o : Owned) (r : Step) : List (ObjectKey × Nat) :=
  if r.event.owned = some o then
    r.obs.filterMap fun x =>
      match x.call with
      | .deleteJob key =>
          if x.fault = .none ∧
              (Dmg.resultOf x.before key).any (fun res => (Pool.destroyFailure res).isSome) then
            (x.before.jobs.get key).map fun job => (key, job.uid)
          else none
      | _ => none
  else []

/-- The destroy Jobs created for the object whose failure was not read. -/
def openDestroys (past : List Step) (o : Owned) : List (ObjectKey × Nat) :=
  ((lifetime past o).flatMap (destroyJobs o)).filter fun j =>
    j ∉ (lifetime past o).flatMap (failedDestroys o)

/-- An object that is released as kept has no destroy Job left that did not fail. -/
def KeptIsKept (past : List Step) (step : Step) : Prop :=
  ∀ o ∈ step.event.owned, releases step o = true →
    (∃ f ∈ seen step.before o, f.approved = false ∧ f.uuid ≠ "") →
      openDestroys (step :: past) o = []
  deriving Decidable

/-- The object whose annotations a step replaces. -/
def Event.annotates : Event → Option Owned
  | .change c => c.annotates
  | _ => none

/-- An approval is withdrawn only when every destroy it started has failed, and a reconcile
does not act on one that was withdrawn. -/
def WithdrawnLate (past : List Step) (step : Step) : Prop :=
  (∀ o ∈ step.event.annotates, (∃ f ∈ face step.before o, f.approved = true) →
    (∃ f ∈ face step.after o, f.approved = false) → openDestroys past o = []) ∧
  ∀ o ∈ step.event.owned, (∃ f ∈ seen step.before o, f.approved = true) →
    ∀ f ∈ face step.before o, f.approved = true
  deriving Decidable

theorem openDestroys_cons {past : List Step} {o : Owned} {r : Step}
    (hpast : openDestroys past o = []) (hnew : destroyJobs o r = []) :
    openDestroys (r :: past) o = [] := by
  cases hf : face r.before o with
  | none => simp [openDestroys, lifetime_cons_of_none hf]
  | some f =>
      simp only [openDestroys, lifetime_cons_of_some hf, List.flatMap_cons, hnew, List.nil_append,
        List.filter_eq_nil_iff, List.mem_append, decide_eq_true_eq] at hpast ⊢
      intro j hj hopen
      exact hpast j hj fun hfailed => hopen (Or.inr hfailed)

/-- What a run keeps: nothing is being destroyed without an approval. -/
structure ApprovedDestroys (past : List Step) (w : World) : Prop where
  named : WellNamed w
  deleted : DestroysDeleted w
  approved : ∀ o f, face w o = some f → f.approved = false → openDestroys past o = []

theorem destroyJobs_of_unapproved {past : List Step} {w : World} {e : Event} {o : Owned} {f : Face}
    (hw : ReadsDeleted w o) (hlate : WithdrawnLate past (operator.record w e))
    (hf : face w o = some f) (hunapproved : f.approved = false) :
    destroyJobs o (operator.record w e) = [] := by
  refine List.eq_nil_iff_forall_not_mem.mpr ?_
  intro j hj
  obtain ⟨g, hg, -, happroved, -⟩ := gate_of_destroyJobs hw hj
  have hstored := hlate.2 o (mem_jobsFor hj).1 ⟨g, hg, happroved⟩ f hf
  simp [hunapproved] at hstored

theorem ApprovedDestroys.step {past : List Step} {w : World} (h : ApprovedDestroys past w)
    {e : Event} (hlate : WithdrawnLate past (operator.record w e))
    (hreused : ReusedLate past (operator.record w e)) :
    ApprovedDestroys (operator.record w e :: past) (operator.step w e).1 := by
  refine ⟨h.named.step e, h.deleted.step h.named hreused, ?_⟩
  intro o g hg hunapproved
  cases hf : face w o with
  | none => simp [openDestroys, lifetime_cons_of_none (r := operator.record w e) hf]
  | some f =>
      by_cases happroved : f.approved = true
      · -- the approval goes, which only a change of the annotations does
        cases e with
        | change c =>
            have hchange := face_change w c o
            rw [hf] at hchange
            rw [show face (c.apply w) o = some g from hg] at hchange
            refine openDestroys_cons ?_ (jobsFor_change _ o w c)
            cases hchange with
            | same => simp [happroved] at hunapproved
            | annotated _ _ hannotates =>
                exact hlate.1 o hannotates ⟨f, hf, happroved⟩ ⟨_, hg, hunapproved⟩
            | deleted _ _ => simp [happroved] at hunapproved
        | _ =>
            obtain ⟨f', hf', -, hsame⟩ := face_reconcile (by rintro c ⟨⟩) hg
            rw [hf] at hf'
            cases hf'
            simp [hunapproved, happroved] at hsame
      · have hfalse : f.approved = false := by simpa using happroved
        exact openDestroys_cons (h.approved o f hf hfalse)
          (destroyJobs_of_unapproved (h.deleted.reads o) hlate hf hfalse)

/-- Where approvals are withdrawn late and names are reused late, an object that is released as
kept is kept. -/
theorem kept_is_kept (events : List Event) (hlate : Along WithdrawnLate [] (history events))
    (hreused : Along ReusedLate [] (history events)) : Along KeptIsKept [] (history events) := by
  refine Machine.along_induction (I := ApprovedDestroys) ?_ ?_ events (hlate.and hreused)
  · rintro past w e hinv ⟨hlate, hreused⟩
    refine ⟨?_, hinv.step hlate hreused⟩
    rintro o ho hreleases ⟨g, hg, hunapproved, -⟩
    cases hf : face w o with
    | none => simp [releases, hf] at hreleases
    | some f =>
        obtain ⟨⟨g', hg', -, hsame⟩, -⟩ := released ho hf hreleases
        rw [show seen w o = some g from hg] at hg'
        cases hg'
        have hfalse : f.approved = false := by rw [← hsame, hunapproved]
        exact openDestroys_cons (hinv.approved o f hf hfalse)
          (destroyJobs_of_unapproved (hinv.deleted.reads o) hlate hf hfalse)
  · exact ⟨wellNamed_empty, destroysDeleted_empty, by simp [openDestroys, lifetime]⟩

/-- A pool is deleted with an approval, which is withdrawn after these events. -/
def withdrawnRun (meanwhile : List Event) : List Event :=
  pooledRun ++
    [.change (.annotatePool "p" { destroyApproved := some "true" }), .change (.deletePool "p"),
      .change (.deliverPool "p"), .change (.deliverPool "p")] ++ poolPass "p" ++ meanwhile ++
    [.change (.annotatePool "p" {}), .change (.deliverPool "p")] ++ poolPass "p"

/-- The destroy of the pool answers, and the pool is reconciled. -/
def destroyAnswers (output : String) : List Event :=
  jobAnswers ⟨"daos-system", "pool-p-dmg-destroy"⟩ output :: poolPass "p"

def failedRun : List Event := withdrawnRun (destroyAnswers "\x7b\"error\":\"busy\"\x7d")

/-- The pool is released as kept, and it is. -/
theorem kept_is_kept_afterFailure :
    (∃ step ∈ history failedRun, releases step (.pool "p") = true) ∧
      Along KeptIsKept [] (history failedRun) := by
  have hrun : (∃ step ∈ history failedRun, releases step (.pool "p") = true) ∧
      Along WithdrawnLate [] (history failedRun) ∧ Along ReusedLate [] (history failedRun) := by
    decide +kernel
  exact ⟨hrun.1, kept_is_kept failedRun hrun.2.1 hrun.2.2⟩

/-- The approval is withdrawn while the destroy runs. -/
theorem kept_is_destroyed : ¬Along KeptIsKept [] (history (withdrawnRun [])) := by
  decide +kernel

/-! ## An approved destroy -/

/-- The steps since the last create Job for the object, the newest first. -/
def sinceCreate (past : List Step) (o : Owned) : List Step :=
  (lifetime past o).takeWhile fun r => (createJobs o r).isEmpty

/-- A destroy Job answered success, or that there is nothing to destroy. -/
def destroyed (w : World) (j : ObjectKey × Nat) : Bool :=
  (w.jobs.get j.1).any fun job => job.uid = j.2 &&
    (Dmg.jobFinished job.conditions).any fun failure =>
      (Pool.destroyFailure (Dmg.jobResult failure job)).isNone

theorem destroyed_of_result {w : World} {key : ObjectKey} {res : Dmg.Result}
    (hres : Dmg.resultOf w key = some res) (hsuccess : Pool.destroyFailure res = none) :
    ∃ job, w.jobs.get key = some job ∧ destroyed w (key, job.uid) = true := by
  obtain ⟨job, hjob, hif⟩ := Option.bind_eq_some_iff.mp hres
  split at hif
  · cases hif
  · obtain ⟨failure, hfailure, rfl⟩ := Option.map_eq_some_iff.mp hif
    exact ⟨job, hjob, by simp [destroyed, hjob, hfailure, hsuccess]⟩

/-- The pool and the system of a container exist. -/
def homed (w : World) : Owned → Bool
  | .pool _ => true
  | .container key => (stored w.containers key).any fun c =>
      (stored w.pools c.spec.poolRef).any fun pool => (stored w.systems pool.spec.systemRef).isSome

/-- An object that is released with an approval was never created, or is destroyed. -/
def DestroyIsDone (past : List Step) (step : Step) : Prop :=
  ∀ o ∈ step.event.owned, releases step o = true → homed step.before o = true →
    (∃ f ∈ face step.before o, f.approved = true) →
      (∀ r ∈ lifetime (step :: past) o, createJobs o r = []) ∨
        ∃ r ∈ sinceCreate (step :: past) o, ∃ j ∈ destroyJobs o r, destroyed step.before j = true
  deriving Decidable

/-- The object that a step deletes. -/
def Event.deletes : Event → Option Owned
  | .change c => c.deletes
  | _ => none

/-- An object is deleted before its first create or after its uuid is recorded; reconciles
read it up to date, and find its own destroy Job and the uuid of its pool once it is deleted. -/
def DeletedLate (past : List Step) (step : Step) : Prop :=
  (∀ o ∈ step.event.deletes, ∀ f ∈ face step.before o, f.deleting = false →
    f.uuid ≠ "" ∨ ∀ r ∈ lifetime past o, createJobs o r = []) ∧
  ∀ o ∈ step.event.owned, upToDate step.before o = true ∧
    ((∃ f ∈ face step.before o, f.deleting = true) → poolKnown step.before o = true ∧
      ∀ key ∈ destroyKey step.before o, ∀ job ∈ step.before.jobs.get key,
        ∃ r ∈ lifetime past o, (key, job.uid) ∈ destroyJobs o r)
  deriving Decidable

/-- Where the pool and the system exist, an up-to-date reconcile finds them. -/
theorem destroyKey_of_homed {w : World} {key : ObjectKey}
    (h : upToDate w (.container key) = true) (hhomed : homed w (.container key) = true) :
    destroyKey w (.container key) ≠ none := by
  simp only [upToDate, Bool.and_eq_true, decide_eq_true_eq] at h
  obtain ⟨hcont, hrest⟩ := h
  simp only [homed, ← hcont] at hhomed
  cases hc : cached w.containers key with
  | none => simp [hc] at hhomed
  | some c =>
      simp only [hc, Option.all_some, Option.any_some, Bool.and_eq_true,
        decide_eq_true_eq] at hrest hhomed
      obtain ⟨hpools, hsystems⟩ := hrest
      simp only [← hpools] at hhomed
      cases hp : cached w.pools c.spec.poolRef with
      | none => simp [hp] at hhomed
      | some pool =>
          simp only [hp, Option.all_some, Option.any_some, decide_eq_true_eq] at hsystems hhomed
          rw [← hsystems] at hhomed
          obtain ⟨sys, hsys⟩ := Option.isSome_iff_exists.mp hhomed
          simp [destroyKey, hc, hp, hsys]

/-! ## What a run keeps -/

/-- What a run keeps: destroys follow the deletion, creates precede it, and a deleted object
has a uuid unless it was never created. -/
structure CreatedFirst (past : List Step) (w : World) : Prop where
  named : WellNamed w
  deleted : ∀ o, StoresDeleted w o
  live : ∀ o f, face w o = some f → f.deleting = false →
    ∀ r ∈ lifetime past o, destroyJobs o r = []
  known : ∀ o f, face w o = some f → f.deleting = true →
    f.uuid ≠ "" ∨ ∀ r ∈ lifetime past o, createJobs o r = []
  order : ∀ o r, r ∈ lifetime past o → destroyJobs o r ≠ [] → r ∈ sinceCreate past o

section Steps

variable {past : List Step} {w : World} {e : Event} {o : Owned} {f : Face}

theorem DeletedLate.reads (h : DeletedLate past (operator.record w e)) (ho : e.owned = some o) :
    seen w o = face w o := seen_of_upToDate (h.2 o ho).1

theorem createJobs_of_deleting (hlate : DeletedLate past (operator.record w e))
    (hf : face w o = some f) (hdeleting : f.deleting = true) :
    createJobs o (operator.record w e) = [] := by
  refine List.eq_nil_iff_forall_not_mem.mpr ?_
  intro j hj
  obtain ⟨g, hg, hlive⟩ := live_of_createJobs hj
  rw [hlate.reads (mem_jobsFor hj).1, hf] at hg
  cases hg
  simp [hdeleting] at hlive

theorem destroyJobs_of_live (hw : StoresDeleted w o)
    (hlate : DeletedLate past (operator.record w e)) (hf : face w o = some f)
    (hlive : f.deleting = false) : destroyJobs o (operator.record w e) = [] := by
  refine List.eq_nil_iff_forall_not_mem.mpr ?_
  intro j hj
  have ho := (mem_jobsFor hj).1
  obtain ⟨g, hg, hdeleting, -⟩ := gate_of_destroyJobs (hw.reads (hlate.2 o ho).1) hj
  rw [hlate.reads ho, hf] at hg
  cases hg
  simp [hdeleting] at hlive

theorem live_before {g : Face} (hf : face w o = some f)
    (hg : face (operator.step w e).1 o = some g) (hlive : g.deleting = false) :
    f.deleting = false := by
  cases e with
  | change c =>
      have hchange := face_change w c o
      rw [hf, show face (c.apply w) o = some g from hg] at hchange
      cases hchange with
      | same => exact hlive
      | annotated _ _ _ => exact hlive
      | deleted _ _ => cases hlive
  | _ =>
      obtain ⟨f', hf', hsame, -⟩ := face_reconcile (by rintro c ⟨⟩) hg
      rw [hf] at hf'
      cases hf'
      rw [← hsame, hlive]

/-- A deleted object has a uuid, or was never created. -/
theorem CreatedFirst.known_step {g : Face} (h : CreatedFirst past w)
    (hlate : DeletedLate past (operator.record w e)) (hf : face w o = some f)
    (hg : face (operator.step w e).1 o = some g) (hdeleting : g.deleting = true) :
    g.uuid ≠ "" ∨ ∀ r ∈ lifetime (operator.record w e :: past) o, createJobs o r = [] := by
  rw [lifetime_cons_of_some (r := operator.record w e) hf]
  have hkeep : g.uuid = f.uuid → createJobs o (operator.record w e) = [] →
      (f.uuid ≠ "" ∨ ∀ r ∈ lifetime past o, createJobs o r = []) →
      g.uuid ≠ "" ∨ ∀ r ∈ operator.record w e :: lifetime past o, createJobs o r = [] := by
    intro huuid hnew hpast
    rw [huuid]
    refine hpast.imp_right fun hpast r hr => ?_
    rcases List.mem_cons.mp hr with rfl | hr
    · exact hnew
    · exact hpast r hr
  cases e with
  | change c =>
      have hchange := face_change w c o
      rw [hf, show face (c.apply w) o = some g from hg] at hchange
      cases hchange with
      | same => exact hkeep rfl (jobsFor_change _ o w c) (h.known o _ hf hdeleting)
      | annotated _ _ _ => exact hkeep rfl (jobsFor_change _ o w c) (h.known o _ hf hdeleting)
      | deleted _ hdeletes =>
          refine hkeep rfl (jobsFor_change _ o w c) ?_
          by_cases hold : f.deleting = true
          · exact h.known o f hf hold
          · exact hlate.1 o hdeletes f hf (by simpa using hold)
  | _ =>
      obtain ⟨f', hf', hsame, -⟩ := face_reconcile (by rintro c ⟨⟩) hg
      rw [hf] at hf'
      cases hf'
      have hold : f.deleting = true := by rw [← hsame, hdeleting]
      refine hkeep ?_ (createJobs_of_deleting hlate hf hold) (h.known o f hf hold)
      exact uuid_reconcile h.named (by rintro c ⟨⟩) (fun ho => hlate.reads ho) hf hold hg

/-- A destroy Job is younger than every create Job. -/
theorem CreatedFirst.order_step (h : CreatedFirst past w)
    (hlate : DeletedLate past (operator.record w e)) {r : Step}
    (hr : r ∈ lifetime (operator.record w e :: past) o) (hjobs : destroyJobs o r ≠ []) :
    r ∈ sinceCreate (operator.record w e :: past) o := by
  cases hf : face w o with
  | none => simp [lifetime_cons_of_none (r := operator.record w e) hf] at hr
  | some f =>
      rw [lifetime_cons_of_some (r := operator.record w e) hf] at hr
      by_cases hnew : createJobs o (operator.record w e) = []
      · have hsince : sinceCreate (operator.record w e :: past) o =
            operator.record w e :: sinceCreate past o := by
          simp [sinceCreate, lifetime_cons_of_some (r := operator.record w e) hf, hnew]
        rw [hsince]
        rcases List.mem_cons.mp hr with rfl | hr
        · exact List.mem_cons_self
        · exact List.mem_cons_of_mem _ (h.order o r hr hjobs)
      · -- a step that creates reads a live object, so nothing has been destroyed yet
        have hlive : f.deleting = false := by
          by_contra hdeleting
          exact hnew (createJobs_of_deleting hlate hf (by simpa using hdeleting))
        rcases List.mem_cons.mp hr with rfl | hr
        · exact absurd (destroyJobs_of_live (h.deleted o) hlate hf hlive) hjobs
        · exact absurd (h.live o f hf hlive r hr) hjobs

theorem CreatedFirst.step (h : CreatedFirst past w)
    (hlate : DeletedLate past (operator.record w e)) :
    CreatedFirst (operator.record w e :: past) (operator.step w e).1 := by
  refine ⟨h.named.step e, fun o => (h.deleted o).step h.named fun ho => (hlate.2 o ho).1, ?_, ?_,
    fun o r hr hjobs => h.order_step hlate hr hjobs⟩
  · intro o g hg hlive r hr
    cases hf : face w o with
    | none => simp [lifetime_cons_of_none (r := operator.record w e) hf] at hr
    | some f =>
        have hold := live_before hf hg hlive
        rw [lifetime_cons_of_some (r := operator.record w e) hf] at hr
        rcases List.mem_cons.mp hr with rfl | hr
        · exact destroyJobs_of_live (h.deleted o) hlate hf hold
        · exact h.live o f hf hold r hr
  · intro o g hg hdeleting
    cases hf : face w o with
    | none => simp [lifetime_cons_of_none (r := operator.record w e) hf]
    | some f => exact h.known_step hlate hf hg hdeleting

end Steps

/-- Where objects are deleted late, an approved destroy is done before the finalizer goes. -/
theorem destroy_is_done (events : List Event) (hlate : Along DeletedLate [] (history events)) :
    Along DestroyIsDone [] (history events) := by
  refine Machine.along_induction (I := CreatedFirst) ?_ ?_ events hlate
  · intro past w e hinv hlate
    refine ⟨?_, hinv.step hlate⟩
    rintro o ho hreleases hhomed ⟨f, hf, happroved⟩
    have hface : face w o = some f := hf
    have hseen : seen w o = some f := (hlate.reads ho).trans hface
    obtain ⟨-, x, hx, hcall⟩ := released ho hface hreleases
    obtain ⟨hdeleting, hgate⟩ := release_gate ho hx hcall hseen
    obtain ⟨hpool, hown⟩ := (hlate.2 o ho).2 ⟨f, hface, hdeleting⟩
    have hnew := createJobs_of_deleting hlate hface hdeleting
    rcases hgate with hgate | hgate | ⟨key, rfl, hgate⟩ | hgate | ⟨key, res, hkey, hres, hsuccess⟩
    · simp [happroved] at hgate
    · left
      rw [lifetime_cons_of_some (r := operator.record w e) hface]
      intro r hr
      rcases List.mem_cons.mp hr with rfl | hr
      · exact hnew
      · exact (hinv.known o f hface hdeleting).resolve_left (fun h => h hgate) r hr
    · exact absurd hgate (destroyKey_of_homed (hlate.2 _ ho).1 hhomed)
    · rw [show poolKnown w o = true from hpool] at hgate
      cases hgate
    · right
      obtain ⟨job, hjob, hdone⟩ := destroyed_of_result hres hsuccess
      obtain ⟨r, hr, hmine⟩ := hown key hkey job hjob
      refine ⟨r, ?_, (key, job.uid), hmine, hdone⟩
      have hsince := hinv.order o r hr (List.ne_nil_of_mem hmine)
      have hcons : sinceCreate (operator.record w e :: past) o =
          operator.record w e :: sinceCreate past o := by
        simp [sinceCreate, lifetime_cons_of_some (r := operator.record w e) hface, hnew]
      rw [hcons]
      exact List.mem_cons_of_mem _ hsince
  · refine ⟨wellNamed_empty, fun o => ?_, by simp [lifetime], by simp [lifetime],
      by simp [lifetime]⟩
    cases o <;> simp [StoresDeleted, StoredDeleted, stored]

/-- A pool that does not exist is asked for, and its query says so. -/
def absentRun : List Event :=
  queriedRun { systemRef := "s" } ++
    [jobAnswers ⟨"daos-system", "pool-p-dmg-query"⟩ "\x7b\"error\":\"not found\"\x7d"] ++
    poolPass "p"

/-- The pool is deleted with an approval, and reconciled. -/
def approvedDelete : List Event :=
  [.change (.annotatePool "p" { destroyApproved := some "true" }), .change (.deletePool "p"),
    .change (.deliverPool "p"), .change (.deliverPool "p")] ++ poolPass "p"

/-- The create is read before the pool is deleted, and the destroy before it is released. -/
def destroyedRun : List Event :=
  absentRun ++
    [jobAnswers ⟨"daos-system", "pool-p-dmg-create"⟩
      "\x7b\"response\":\x7b\"uuid\":\"u\"\x7d\x7d"] ++
    poolPass "p" ++ approvedDelete ++ destroyAnswers "\x7b\"error\":null\x7d"

/-- The pool is created, destroyed and released. -/
theorem destroy_is_done_destroyedRun :
    (∃ step ∈ history destroyedRun, releases step (.pool "p") = true) ∧
      Along DestroyIsDone [] (history destroyedRun) := by
  have hrun : (∃ step ∈ history destroyedRun, releases step (.pool "p") = true) ∧
      Along DeletedLate [] (history destroyedRun) := by
    decide +kernel
  exact ⟨hrun.1, destroy_is_done destroyedRun hrun.2⟩

/-- The pool is deleted while its create runs. -/
theorem destroy_forgotten_whileCreating :
    ¬Along DestroyIsDone [] (history (absentRun ++ approvedDelete)) := by
  decide +kernel

/-! ## Without an approval -/

/-- The server accepts the call: an update of an object that was read in an older version is
refused. -/
def accepted (x : Entry Call World) : Bool :=
  match x.call with
  | .setPoolFinalizer name present =>
      Except.isOk (show Except String Unit from
        (perform (.setPoolFinalizer name present) x.before).1)
  | _ => true

/-- A reconcile reads a deleted pool that nobody approved for destruction, and the pool is
still there. -/
structure Unapproved (w : World) (pool : DaosPool) : Prop where
  read : cached w.pools pool.name = some pool
  deleting : pool.deleting = true
  finalizer : pool.finalizer = true
  unapproved : Pool.destroyApproved pool = false
  held : (stored w.pools pool.name).any (·.finalizer) = true

instance (w : World) (pool : DaosPool) : Decidable (Unapproved w pool) :=
  decidable_of_iff (cached w.pools pool.name = some pool ∧ pool.deleting = true ∧
    pool.finalizer = true ∧ Pool.destroyApproved pool = false ∧
    (stored w.pools pool.name).any (·.finalizer) = true)
    ⟨fun ⟨a, b, c, d, e⟩ => ⟨a, b, c, d, e⟩, fun h => ⟨h.1, h.2, h.3, h.4, h.5⟩⟩

/-- The step takes the finalizer off the pool and creates no Job. -/
def LetsGo (step : Step) (name : String) : Prop :=
  releases step (.pool name) = true ∧ ∀ x ∈ step.obs, created x = none
  deriving Decidable

theorem setFinalizer_of_isOk {K α : Type} [DecidableEq K] {t : Table K (Watched α)} {k : K}
    {set : α → α} {gone : α → Bool} (h : (setFinalizer t k set gone).1.isOk = true) :
    ∃ a, stored (setFinalizer t k set gone).2 k = if gone (set a) then none else some (set a) := by
  unfold setFinalizer at h ⊢
  cases hcell : t.get k with
  | none =>
      simp only [hcell] at h
      cases h
  | some c =>
      simp only [hcell] at h ⊢
      split at h
      · cases h
      · cases h
      · next a _ _ =>
          refine ⟨a, ?_⟩
          simp [stored, Watched.write]

section Unapproved
variable {w : World} {pool : DaosPool}

def Answered (x : Entry Call World) : Prop := x.fault = .none ∧ accepted x = true

/-- The world is as it was, and no Job was created. -/
structure Untouched (w : World) (t : Point Call World) : Prop where
  world : t.world = w
  jobs : ∀ x ∈ t.log, created x = none

theorem Untouched.next {t : Point Call World} {c : Call} (h : Untouched w t)
    (hc : c.quiet = true) : Untouched w (cluster.next t c .none) where
  world := by
    rw [Handler.next_world, respond_quiet hc]
    exact h.world
  jobs := by
    intro x hx
    rcases Handler.mem_next_log hx with hx | rfl
    · exact h.jobs x hx
    · cases c <;> first | rfl | cases hc

/-- The finalizer is off the pool, and no Job was created. -/
structure LetGo (name : String) (t : Point Call World) : Prop where
  finalizer : (face t.world (.pool name)).any (·.finalizer) = false
  jobs : ∀ x ∈ t.log, created x = none

theorem wp_setFinalizer_off {t : Point Call World} (h : Untouched w t) (requeue : Duration) :
    (Pool.setFinalizer pool false requeue).wp cluster Answered t
      (fun _ => LetGo pool.name) (LetGo pool.name) := by
  refine Prog.wp_bind (A := fun r u => r.isOk = true ∧ LetGo pool.name u) ?_ ?_
  · refine Prog.wp_ask ?_ fun f hf _ hanswered => absurd hanswered.1 hf
    rintro ⟨-, hok⟩
    have hok : (perform (.setPoolFinalizer pool.name false) t.world).1.isOk = true := hok
    refine ⟨hok, ?_, ?_⟩
    · obtain ⟨p, hp⟩ := setFinalizer_of_isOk hok
      have hstored :
          stored (perform (.setPoolFinalizer pool.name false) t.world).2.pools pool.name = _ := hp
      change (face (perform (.setPoolFinalizer pool.name false) t.world).2 _).any _ = false
      simp only [face, hstored]
      split
      · rfl
      · rfl
    · intro x hx
      rcases Handler.mem_next_log hx with hx | rfl
      · exact h.jobs x hx
      · rfl
  · rintro (e | _) u ⟨hok, hu⟩
    · cases hok
    · exact hu

/-- Where the system is found, the pool goes. -/
theorem wp_reconcile_unapproved (h : Unapproved w pool) {sys : DaosSystem}
    (hsys : cached w.systems pool.spec.systemRef = some sys) :
    (Pool.reconcile pool.name).wp cluster Answered ⟨w, []⟩
      (fun _ => LetGo pool.name) (LetGo pool.name) := by
  have hstart : Untouched w ⟨w, []⟩ := ⟨rfl, by simp⟩
  refine Prog.wp_answered (fun _ _ hanswered => hanswered.1) ?_
  have hread : (cluster.perform (.getPool pool.name) w).1 = some pool := h.read
  rw [hread]
  have hpool := hstart.next (c := .getPool pool.name) rfl
  refine Prog.wp_answered (fun _ _ hanswered => hanswered.1) ?_
  have hfound : (cluster.perform (.getSystemCached pool.spec.systemRef) w).1 = some sys := hsys
  rw [hpool.world, hfound]
  have hsystem := hpool.next (c := .getSystemCached pool.spec.systemRef) rfl
  simp only [Pool.reconcileIn, Pool.finalize, h.deleting, h.finalizer, h.unapproved]
  refine Prog.wp_bind (A := fun _ => Untouched w) ?_ fun _ t ht => wp_setFinalizer_off ht 0
  refine Prog.wp_ite (fun _ => hsystem) fun _ => ?_
  refine Prog.wp_ask (fun _ => hsystem.next rfl) fun f hf _ hanswered => absurd hanswered.1 hf

/-- Where it is not, the finalizer stays. -/
theorem wp_reconcile_systemGone (h : Unapproved w pool)
    (hsys : cached w.systems pool.spec.systemRef = none) :
    (Pool.reconcile pool.name).wp cluster Answered ⟨w, []⟩
      (fun _ t => (face t.world (.pool pool.name)).any (·.finalizer) = true)
      fun t => (face t.world (.pool pool.name)).any (·.finalizer) = true := by
  refine Prog.wp_answered (fun _ _ hanswered => hanswered.1) ?_
  have hread : (cluster.perform (.getPool pool.name) w).1 = some pool := h.read
  rw [hread]
  refine Prog.wp_answered (fun _ _ hanswered => hanswered.1) ?_
  have hgone : (cluster.perform (.getSystemCached pool.spec.systemRef) w).1 = none := hsys
  rw [show (cluster.next ⟨w, []⟩ (.getPool pool.name) .none).world = w from rfl, hgone]
  refine Prog.wp_answered (fun _ _ hanswered => hanswered.1) ?_
  change ((stored (modify w.pools pool.name _) pool.name).map _).any _ = true
  rw [stored_modify_self]
  have hheld := h.held
  cases hp : stored w.pools pool.name with
  | none =>
      rw [hp] at hheld
      cases hheld
  | some p =>
      rw [hp] at hheld
      exact hheld

end Unapproved

/-- One reconcile of a deleted pool that nobody approved for destruction lets it go exactly
if the system of the pool is found. -/
theorem unapproved_let_go (w : World) (pool : DaosPool) (h : Unapproved w pool)
    (haccepted : ∀ x ∈ (operator.step w (.reconcilePool pool.name [])).2, accepted x = true) :
    LetsGo (operator.record w (.reconcilePool pool.name [])) pool.name ↔
      (cached w.systems pool.spec.systemRef).isSome = true := by
  have hanswered : ∀ x ∈ (operator.step w (.reconcilePool pool.name [])).2, Answered x :=
    fun x hx => ⟨Prog.fault_of_exec_nil _ x hx, haccepted x hx⟩
  cases hsys : cached w.systems pool.spec.systemRef with
  | none =>
      have hkept := Prog.exec_ends (wp_reconcile_systemGone h hsys) [] hanswered
      have hkept : (face (operator.step w (.reconcilePool pool.name [])).1
        (.pool pool.name)).any (·.finalizer) = true := hkept
      simp [LetsGo, releases, hkept]
  | some sys =>
      have hgo := Prog.exec_ends (wp_reconcile_unapproved h hsys) [] hanswered
      have hbefore : (face w (.pool pool.name)).any (·.finalizer) = true := by
        simp only [face, Option.any_map]
        exact h.held
      have hafter : (face (operator.step w (.reconcilePool pool.name [])).1
        (.pool pool.name)).any (·.finalizer) = false := hgo.finalizer
      refine iff_of_true ⟨?_, hgo.jobs⟩ rfl
      simp [releases, hbefore, hafter]

/-- A pool is deleted after these events; nobody approves its destruction. -/
def deletedRun (meanwhile : List Event) : List Event :=
  pooledRun ++ meanwhile ++ [.change (.deletePool "p"), .change (.deliverPool "p")]

def systemDeleted : List Event :=
  [.change (.deleteSystem "s"), .change (.removeSystem "s"), .change (.deliverSystem "s"),
    .change (.deliverSystem "s")]

/-- The pool of a run as a reconcile reads it at the end. -/
def readPool (events : List Event) : DaosPool :=
  (cached (final events).pools "p").getD { name := "p", spec := { systemRef := "s" } }

/-- With its system there, the pool goes at once. -/
theorem unapproved_let_go_deletedRun :
    LetsGo (operator.record (final (deletedRun [])) (.reconcilePool "p" [])) "p" := by
  obtain ⟨hname, hpool, haccepted, hsys⟩ : (readPool (deletedRun [])).name = "p" ∧
      Unapproved (final (deletedRun [])) (readPool (deletedRun [])) ∧
      (∀ x ∈ (operator.step (final (deletedRun [])) (.reconcilePool "p" [])).2,
        accepted x = true) ∧
      (cached (final (deletedRun [])).systems
        (readPool (deletedRun [])).spec.systemRef).isSome = true := by
    decide +kernel
  have hgoes := unapproved_let_go (final (deletedRun [])) (readPool (deletedRun [])) hpool
  rw [hname] at hgoes
  exact (hgoes haccepted).mpr hsys

/-- With its system gone, it stays, although every call succeeds. -/
theorem unapproved_stays_systemDeleted :
    Unapproved (final (deletedRun systemDeleted)) (readPool (deletedRun systemDeleted)) ∧
      (∀ x ∈ (operator.step (final (deletedRun systemDeleted)) (.reconcilePool "p" [])).2,
        x.fault = .none ∧ accepted x = true) ∧
      ¬LetsGo (operator.record (final (deletedRun systemDeleted)) (.reconcilePool "p" [])) "p" := by
  decide +kernel

end DaosOperator
