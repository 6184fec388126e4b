import DaosOperator.Steps

/-!
# Containers of different owners

DAOS knows a container by the label of its pool and its own label, and the label comes
from the name or a free field of the `DaosContainer`.  Two objects of different
namespaces may well name the same container, and each then works on it as on its own.
-/

namespace DaosOperator

open Effect

/-! ## The property -/

def Container.target : Dmg.Command → Option (String × String)
  | .daos _ _ ("cont" :: verb :: pool :: label :: _) =>
      if verb = "query" then none else some (pool, label)
  | _ => none

/-- The pool and the container that a `DaosContainer` stands for. -/
def Container.names (key : ObjectKey) (spec : DaosContainerSpec) : String × String :=
  (spec.poolRef, if spec.label ≠ "" then spec.label else key.name)

/-- What the Jobs that a step creates for a `DaosContainer` change. -/
def containerChanges (step : Step) : List (ObjectKey × (String × String)) :=
  match step.event with
  | .reconcileContainer key _ => step.obs.filterMap fun x =>
      (created x).bind fun spec => (Container.target spec.command).map fun t => (key, t)
  | _ => []

/-- The Jobs of the step change no container that another object has changed, or reports. -/
def StaysApart (past : List Step) (step : Step) : Prop :=
  ∀ p ∈ containerChanges step,
    (∀ r ∈ past, ∀ q ∈ containerChanges r, q.1 ≠ p.1 → q.2 ≠ p.2) ∧
      ∀ key ∈ step.before.containers.keys, key ≠ p.1 →
        ∀ c ∈ stored step.before.containers key, c.status.uuid ≠ "" →
          Container.names key c.spec ≠ p.2
  deriving Decidable

/-! ## When it holds -/

/-- The container that a user's change makes a `DaosContainer` stand for. -/
def declares : Event → Option (ObjectKey × (String × String))
  | .change (.createContainer key _ spec) => some (key, Container.names key spec)
  | .change (.editContainer key spec) => some (key, Container.names key spec)
  | _ => none

/-- No `DaosContainer` is made to stand for a container that another one has stood for. -/
def OwnLabel (past : List Step) (step : Step) : Prop :=
  ∀ d ∈ declares step.event, ∀ r ∈ past, ∀ d' ∈ declares r.event, d'.1 ≠ d.1 → d'.2 ≠ d.2
  deriving Decidable

/-! ## What a Job works on -/

theorem target_opSpec {c : DaosContainer} {pool : DaosPool} {sys : DaosSystem} {ns : String}
    {job : Container.ContJob} {t : String × String}
    (h : Container.target (Container.opSpec c pool sys ns job).command = some t) :
    t = (pool.name, Container.contLabel c) := by
  cases job with
  | query => cases h
  | op o =>
      cases o with
      | create | acl | destroy | heal =>
          cases h
          rfl
      | extend | reintMode | selfHeal => cases h

/-- What a step changes for a container is what the version it read stands for. -/
theorem names_of_changes {w : World} {e : Event} (hw : WellNamed w)
    {p : ObjectKey × (String × String)} (hp : p ∈ containerChanges (operator.record w e)) :
    ∃ c, cached w.containers p.1 = some c ∧ p.2 = Container.names p.1 c.spec := by
  unfold containerChanges at hp
  split at hp
  · next key faults hevent =>
      obtain rfl : e = .reconcileContainer key faults := hevent
      obtain ⟨x, hx, hmap⟩ := List.mem_filterMap.mp hp
      obtain ⟨spec, hcreated, htarget⟩ := Option.bind_eq_some_iff.mp hmap
      obtain ⟨t, ht, rfl⟩ := Option.map_eq_some_iff.mp htarget
      have hcall := stepCall_of_mem hx
      rw [call_of_created hcreated] at hcall
      cases hcall with
      | quiet h => cases h
      | container hcont h =>
          obtain ⟨pool, sys, job, hreaches, rfl⟩ := h.of_createJob
          refine ⟨_, hcont, ?_⟩
          have hpool := hw.pools.cached hreaches.inPool
          have hkey := hw.containers.cached hcont
          rw [target_opSpec ht, hpool, Container.contLabel, hkey]
          rfl
  · cases hp

/-! ## Every version was declared -/

/-- Somebody made the object stand for this container. -/
def DeclaredIn (past : List Step) (d : ObjectKey × (String × String)) : Prop :=
  ∃ r ∈ past, declares r.event = some d

theorem DeclaredIn.cons {past : List Step} {d : ObjectKey × (String × String)}
    (h : DeclaredIn past d) (step : Step) : DeclaredIn (step :: past) d := by
  obtain ⟨r, hr, hd⟩ := h
  exact ⟨r, List.mem_cons_of_mem _ hr, hd⟩

/-- What a run keeps: every version and every Job goes back to a declaration, and the
declarations of different objects differ. -/
structure Declared (past : List Step) (w : World) : Prop where
  named : WellNamed w
  versions : AllVersions (fun key (c : DaosContainer) =>
    DeclaredIn past (key, Container.names key c.spec)) w.containers
  changed : ∀ r ∈ past, ∀ p ∈ containerChanges r, DeclaredIn past p
  distinct : ∀ d d', DeclaredIn past d → DeclaredIn past d' → d'.1 ≠ d.1 → d'.2 ≠ d.2

/-- A version of a container has the spec of an older one, or a change declares it. -/
theorem version_declared {w : World} {e : Event} {key : ObjectKey} {c : DaosContainer}
    (hc : some c ∈ versions (operator.step w e).1.containers key) :
    (∃ c₀, some c₀ ∈ versions w.containers key ∧ c₀.spec = c.spec) ∨
      declares e = some (key, Container.names key c.spec) := by
  have hreplay := step_replay (w := w) (e := e) (I := fun v => ∀ c,
    some c ∈ versions v.containers key →
      (∃ c₀, some c₀ ∈ versions w.containers key ∧ c₀.spec = c.spec) ∨
        declares e = some (key, Container.names key c.spec))
    (fun c hc => Or.inl ⟨c, hc, rfl⟩) ?_ ?_
  · exact hreplay.1 c hc
  · intro x _ hx c hc
    rcases (containerCell_call x.before key x.call x.fault).versions hc with
      hc | hc | ⟨cell, hcell, hwrite⟩
    · exact hx c hc
    · exact hc.elim
    · generalize x.call = call at hwrite
      generalize hnew : some c = new at hwrite
      cases hwrite with
      | status hstored | finalizer hstored _ _ =>
          cases hnew
          have hbefore := hx _ (stored_mem_versions (stored_of_cell hcell hstored))
          exact hbefore
      | gone _ _ _ => cases hnew
  · rintro change rfl c hc
    rcases (containerCell_change w key change).versions hc with
      hc | ⟨approved, spec, rfl, rfl⟩ | ⟨cell, hcell, hedit⟩
    · exact Or.inl ⟨c, hc, rfl⟩
    · exact Or.inr rfl
    · generalize hnew : some c = new at hedit
      cases hedit with
      | edit _ =>
          cases hnew
          exact Or.inr rfl
      | annotate hstored | delete hstored _ =>
          cases hnew
          exact Or.inl ⟨_, stored_mem_versions (stored_of_cell hcell hstored), rfl⟩
      | remove _ _ => cases hnew

/-- What every version stands for was declared. -/
theorem declared_versions {past : List Step} {w : World} (e : Event)
    (h : AllVersions (fun key (c : DaosContainer) =>
      DeclaredIn past (key, Container.names key c.spec)) w.containers) :
    AllVersions (fun key (c : DaosContainer) =>
      DeclaredIn (operator.record w e :: past) (key, Container.names key c.spec))
      (operator.step w e).1.containers := by
  intro key c hc
  rcases version_declared hc with ⟨c₀, hc₀, hspec⟩ | hdeclares
  · have hdeclared := (h key c₀ hc₀).cons (operator.record w e)
    rwa [hspec] at hdeclared
  · exact ⟨_, List.mem_cons_self, hdeclares⟩

/-- Where every `DaosContainer` stands for a container of its own, their Jobs and reports
never meet. -/
theorem containers_stay_apart (events : List Event)
    (hown : Along OwnLabel [] (history events)) : Along StaysApart [] (history events) := by
  refine Machine.along_induction (I := Declared) ?_ ?_ events hown
  · intro past w e hinv hlabel
    have hversions := declared_versions e hinv.versions
    have hdistinct : ∀ d d', DeclaredIn (operator.record w e :: past) d →
        DeclaredIn (operator.record w e :: past) d' → d'.1 ≠ d.1 → d'.2 ≠ d.2 := by
      rintro d d' ⟨r, hr, hd⟩ ⟨r', hr', hd'⟩ hne
      rcases List.mem_cons.mp hr with rfl | hr
      · rcases List.mem_cons.mp hr' with rfl | hr'
        · rw [hd] at hd'
          cases hd'
          exact absurd rfl hne
        · exact hlabel d hd r' hr' d' hd' hne
      · rcases List.mem_cons.mp hr' with rfl | hr'
        · exact (hlabel d' hd' r hr d hd hne.symm).symm
        · exact hinv.distinct d d' ⟨r, hr, hd⟩ ⟨r', hr', hd'⟩ hne
    -- a Job of this step goes back to a declaration of its object
    have hjobs : ∀ p ∈ containerChanges (operator.record w e), DeclaredIn past p := by
      intro p hp
      obtain ⟨c, hc, hnames⟩ := names_of_changes hinv.named hp
      have hdeclared := hinv.versions.cached hc
      rwa [← hnames] at hdeclared
    refine ⟨?_, hinv.named.step e, hversions, ?_, hdistinct⟩
    · intro p hp
      refine ⟨fun r hr q hq hne => ?_, fun key _ hne c hc _ => ?_⟩
      · exact hinv.distinct p q (hjobs p hp) (hinv.changed r hr q hq) hne
      · exact hinv.distinct p (key, Container.names key c.spec) (hjobs p hp)
          (hinv.versions.stored hc) hne
    · intro r hr p hp
      rcases List.mem_cons.mp hr with rfl | hr
      · exact (hjobs p hp).cons _
      · exact (hinv.changed r hr p hp).cons _
  · refine ⟨wellNamed_empty, allVersions_empty, by simp, ?_⟩
    rintro d d' ⟨r, hr, -⟩
    cases hr

/-! ## Two namespaces -/

/-- Containers of two namespaces with one name; the second one has this label. -/
def twoTenantsRun (label : String) : List Event :=
  pooledRun ++
    [.change (.createContainer ⟨"a", "c"⟩ none { poolRef := "p" }),
      .change (.deliverContainer ⟨"a", "c"⟩),
      .change (.createContainer ⟨"b", "c"⟩ none { poolRef := "p", label }),
      .change (.deliverContainer ⟨"b", "c"⟩)] ++
    contPass ⟨"a", "c"⟩ ++ contPass ⟨"b", "c"⟩ ++ contPass ⟨"a", "c"⟩ ++ contPass ⟨"b", "c"⟩ ++
    [jobAnswers ⟨"daos-system", "cont-a-c-daos-query"⟩ "\x7b\"error\":\"not found\"\x7d",
      jobAnswers ⟨"daos-system", "cont-b-c-daos-query"⟩ "\x7b\"error\":\"not found\"\x7d"] ++
    contPass ⟨"a", "c"⟩ ++ contPass ⟨"b", "c"⟩

/-- With a label of its own the second container is created beside the first. -/
theorem containers_stay_apart_labelled :
    (∃ step ∈ history (twoTenantsRun "d"), containerChanges step = [(⟨"b", "c"⟩, ("p", "d"))]) ∧
      Along StaysApart [] (history (twoTenantsRun "d")) := by
  have hrun : (∃ step ∈ history (twoTenantsRun "d"),
      containerChanges step = [(⟨"b", "c"⟩, ("p", "d"))]) ∧
        Along OwnLabel [] (history (twoTenantsRun "d")) := by
    decide +kernel
  exact ⟨hrun.1, containers_stay_apart (twoTenantsRun "d") hrun.2⟩

/-- Without one, both objects create the same container. -/
theorem containers_meet_sameName : ¬Along StaysApart [] (history (twoTenantsRun "")) := by
  decide +kernel

end DaosOperator
