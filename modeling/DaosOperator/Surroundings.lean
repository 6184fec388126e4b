import DaosOperator.Container.Acts
import DaosOperator.Operator
import DaosOperator.System.Stages

/-!
# Steps of the operator

The calls that a step can issue and the ways a change can alter an object, so that
a property of runs is proved from what single calls and single changes keep.  Two
such properties are used throughout: objects are filed under their own names, and
the Jobs of a system belong to that system.
-/

namespace DaosOperator

open Effect

variable {x : Entry Call World} {w : World} {name : String} {kind : System.JobKind}

/-! ## Calls of a step -/

/-- The calls a step can issue from `w`. -/
inductive EventCall (w : World) : Event → Call → Prop where
  | read {e : Event} {c : Call} (h : c.quiet = true) : EventCall w e c
  | system {name : String} {faults : List Fault} {sys : DaosSystem} {c : Call}
      (hsys : stored w.systems name = some sys)
      (h : System.SystemCall sys.name (System.namespaceOf sys) System.wholeScope c) :
      EventCall w (.reconcileSystem name faults) c
  | pool {name : String} {faults : List Fault} {pool : DaosPool} {c : Call}
      (hpool : cached w.pools name = some pool) (h : Pool.PoolCall pool c) :
      EventCall w (.reconcilePool name faults) c
  | container {key : ObjectKey} {faults : List Fault} {cont : DaosContainer} {c : Call}
      (hcont : cached w.containers key = some cont) (h : Container.ContainerCall cont c) :
      EventCall w (.reconcileContainer key faults) c

/-- An entry creates a Job when the call took effect and the name was free. -/
theorem created_eq_some {spec : Dmg.RunSpec} :
    created x = some spec ↔ x.call = .createJob spec ∧ x.fault.effective = true ∧
      x.before.jobs.get spec.key = none := by
  unfold created
  constructor
  · intro h
    split at h
    · next spec' hcall =>
        split at h
        · next hnew =>
            cases h
            exact ⟨hcall, by simpa using hnew⟩
        · cases h
    · cases h
  · rintro ⟨hcall, hf, hnone⟩
    simp [hcall, hf, hnone]

theorem call_of_created {spec : Dmg.RunSpec} (h : created x = some spec) :
    x.call = .createJob spec := (created_eq_some.mp h).1

/-- The rule for steps: what holds after a change, and what every call keeps. -/
theorem step_point {I : Point Call World → Prop} {R : Entry Call World → Prop}
    {e : Event} (hmeets : ∀ x ∈ (operator.step w e).2, R x)
    (hkeep : ∀ c f t, EventCall w e c → R ⟨c, f, t.world⟩ → I t → I (cluster.next t c f))
    (hw : I ⟨w, []⟩) (hchange : ∀ c, e = .change c → I ⟨c.apply w, []⟩) :
    I ⟨(operator.step w e).1, (operator.step w e).2⟩ := by
  cases e with
  | change c => exact hchange c rfl
  | reconcileSystem name faults =>
      refine Prog.exec_ends (System.wp_reconcile_frame ?_ ?_ hw) faults hmeets
      · exact fun f hm ht => hkeep _ f _ (.read rfl) hm ht
      · exact fun sys c f t hsys hc _ hm ht => hkeep c f t (.system hsys hc) hm ht
  | reconcilePool name faults =>
      have hwp : (Pool.reconcile name).wp cluster (fun _ => True) ⟨w, []⟩ _ _ :=
        Pool.wp_reconcile_acts
      have hcalls := Prog.exec_ends hwp faults fun _ _ => trivial
      refine Prog.exec_keeps (Pool.reconcile name) faults hw fun x hx log ht => ?_
      refine hkeep x.call x.fault _ ?_ (hmeets x hx) ht
      rcases hcalls x hx with hquiet | ⟨pool, hpool, hact⟩
      · exact .read hquiet
      · exact .pool hpool hact.poolCall
  | reconcileContainer key faults =>
      have hwp : (Container.reconcile key).wp cluster (fun _ => True) ⟨w, []⟩ _ _ :=
        Container.wp_reconcile_acts
      have hcalls := Prog.exec_ends hwp faults fun _ _ => trivial
      refine Prog.exec_keeps (Container.reconcile key) faults hw fun x hx log ht => ?_
      refine hkeep x.call x.fault _ ?_ (hmeets x hx) ht
      rcases hcalls x hx with hquiet | ⟨cont, hcont, hact⟩
      · exact .read hquiet
      · exact .container hcont hact.containerCall

/-- An invariant of worlds over one step. -/
theorem step_keeps {I : World → Prop} {e : Event}
    (hkeep : ∀ c f v, EventCall w e c → I v → I (cluster.respond c f v).2)
    (hchange : ∀ c, e = .change c → I w → I (c.apply w)) (hw : I w) :
    I (operator.step w e).1 :=
  step_point (I := fun t => I t.world) (R := fun _ => True) (fun _ _ => trivial)
    (fun c f t hc _ ht => hkeep c f t.world hc ht) hw fun c hc => hchange c hc hw

theorem step_absent {faults : List Fault}
    (h : stored w.systems name = none) :
    (operator.step w (.reconcileSystem name faults)).1 = w := by
  have hwp : (System.reconcile name).wp cluster (fun _ => True) ⟨w, []⟩
      (fun _ t => t.world = w) fun t => t.world = w := by
    refine System.wp_reconcile (fun f _ => ?_) ?_
    · cases f <;> rfl
    · intro sys hsys
      simp [h] at hsys
  exact Prog.exec_ends hwp faults fun _ _ => trivial

/-- The entries of a step are calls it can issue. -/
theorem eventCall_of_mem {e : Event}
    (hx : x ∈ (operator.step w e).2) : EventCall w e x.call := by
  have hlog := step_point (I := fun t => ∀ x ∈ t.log, EventCall w e x.call)
    (R := fun _ => True) (w := w) (e := e) (fun _ _ => trivial) ?_ (by simp) (by simp)
  · exact hlog x hx
  · intro c f t hc _ ht x hx
    rcases Handler.mem_next_log hx with hx | rfl
    · exact ht x hx
    · exact hc

/-- A reconcile of a system sees the same nodes throughout. -/
theorem nodes_of_mem {faults : List Fault}
    (hx : x ∈ (operator.step w (.reconcileSystem name faults)).2) : x.before.nodes = w.nodes := by
  have hlog := step_point (I := fun t => t.world.nodes = w.nodes ∧
    ∀ x ∈ t.log, x.before.nodes = w.nodes) (R := fun _ => True)
    (e := .reconcileSystem name faults) (fun _ _ => trivial) ?_ ⟨rfl, by simp⟩ (by simp)
  · exact hlog.2 x hx
  · intro c f t hc _ ht
    refine ⟨?_, ?_⟩
    · rw [Handler.next_world]
      cases hc with
      | read hc => rw [respond_quiet hc, ht.1]
      | system _ hc => exact hc.surroundings.1.trans ht.1
    · intro x hx
      rcases Handler.mem_next_log hx with hx | rfl
      · exact ht.2 x hx
      · exact ht.1

/-! ## Versions of objects -/

/-- Every version of every object that a reader can still see satisfies `P`. -/
def AllVersions {K α : Type} (P : K → α → Prop) (t : Table K (Watched α)) : Prop :=
  ∀ k a, some a ∈ versions t k → P k a

section Versions

variable {K α : Type} {P : K → α → Prop} {t : Table K (Watched α)} {k : K} {a : α}

theorem AllVersions.stored (h : AllVersions P t) (ha : stored t k = some a) : P k a :=
  h k a (stored_mem_versions ha)

theorem AllVersions.cached (h : AllVersions P t) (ha : cached t k = some a) : P k a :=
  h k a (cached_mem_versions ha)

theorem allVersions_empty : AllVersions P (Table.empty : Table K (Watched α)) := by
  intro k a ha
  simp [versions] at ha

variable [DecidableEq K]

theorem AllVersions.modify (h : AllVersions P t) {f : α → Option α}
    (hf : ∀ a b, DaosOperator.stored t k = some a → P k a → f a = some b → P k b) :
    AllVersions P (DaosOperator.modify t k f) := by
  intro k' b hb
  rcases mem_versions_modify hb with hb | ⟨rfl, a, ha, hfa⟩
  · exact h k' b hb
  · exact hf a b ha (h.stored ha) hfa.symm

theorem mem_versions_put {c : Watched α} {k' : K} {x : Option α}
    (hx : x ∈ versions (t.put k (some c)) k') :
    x ∈ versions t k' ∨ k' = k ∧ x ∈ c.versions := by
  by_cases hk : k' = k
  · subst hk
    right
    simpa [versions] using hx
  · left
    simpa [versions, Table.get_put_of_ne _ hk] using hx

theorem AllVersions.put (h : AllVersions P t) {c : Watched α}
    (hc : ∀ a, some a ∈ c.versions → P k a) : AllVersions P (t.put k (some c)) := by
  intro k' a ha
  rcases mem_versions_put ha with hold | ⟨rfl, hnew⟩
  · exact h k' a hold
  · exact hc a hnew

theorem AllVersions.create (h : AllVersions P t) (ha : P k a) :
    AllVersions P (DaosOperator.create t k a) := by
  unfold DaosOperator.create
  dsimp only
  split
  · refine h.put fun b hb => ?_
    rcases Watched.mem_versions_write.mp hb with hb | hb
    · exact h k b (mem_versions_cellOf.mp hb)
    · cases hb
      exact ha
  · exact h

theorem AllVersions.deliver (h : AllVersions P t) : AllVersions P (DaosOperator.deliver t k) := by
  unfold DaosOperator.deliver
  split
  · exact h
  · next c hc =>
      refine h.put ?_
      intro a ha
      refine h k a ?_
      simpa [versions, hc] using c.versions_deliver_subset ha

theorem AllVersions.setFinalizer (h : AllVersions P t) {set : α → α} {gone : α → Bool}
    (hset : ∀ a, P k a → P k (set a)) :
    AllVersions P (DaosOperator.setFinalizer t k set gone).2 := by
  unfold DaosOperator.setFinalizer
  split
  · exact h
  · next c hc =>
      split
      · exact h
      · exact h
      · next a ha hb =>
          refine h.put ?_
          intro b hb
          rw [Watched.mem_versions_write] at hb
          rcases hb with hb | hb
          · exact h k b (by simpa [versions, hc] using hb)
          · split at hb
            · cases hb
            · cases hb
              exact hset a (h.stored (by simp [DaosOperator.stored, hc, ha]))

end Versions

/-! ## Objects are filed under their names -/

/-- Every object is filed under its own name. -/
structure WellNamed (w : World) : Prop where
  systems : AllVersions (fun name (sys : DaosSystem) => sys.name = name) w.systems
  pools : AllVersions (fun name (pool : DaosPool) => pool.name = name) w.pools
  containers : AllVersions (fun key (c : DaosContainer) => c.key = key) w.containers

theorem wellNamed_empty : WellNamed {} :=
  ⟨allVersions_empty, allVersions_empty, allVersions_empty⟩

theorem WellNamed.respond (h : WellNamed w) (c : Call) (f : Fault) :
    WellNamed (cluster.respond c f w).2 := by
  rw [Handler.respond_world]
  split
  · cases c with
    | updateSystemStatus name status =>
        refine ⟨h.systems.modify ?_, h.pools, h.containers⟩
        rintro a _ - ha ⟨⟩
        exact ha
    | patchSystem name patch =>
        refine ⟨h.systems.modify ?_, h.pools, h.containers⟩
        rintro a _ - ha ⟨⟩
        cases patch <;> exact ha
    | updatePoolStatus name status =>
        refine ⟨h.systems, h.pools.modify ?_, h.containers⟩
        rintro a _ - ha ⟨⟩
        exact ha
    | setPoolFinalizer name present =>
        exact ⟨h.systems, h.pools.setFinalizer fun _ ha => ha, h.containers⟩
    | updateContainerStatus key status =>
        refine ⟨h.systems, h.pools, h.containers.modify ?_⟩
        rintro a _ - ha ⟨⟩
        exact ha
    | setContainerFinalizer key present =>
        exact ⟨h.systems, h.pools, h.containers.setFinalizer fun _ ha => ha⟩
    | createJob spec =>
        simp only [cluster, perform]
        split <;> exact ⟨h.systems, h.pools, h.containers⟩
    | deleteJob key =>
        simp only [cluster, perform]
        split <;> exact ⟨h.systems, h.pools, h.containers⟩
    | _ => exact ⟨h.systems, h.pools, h.containers⟩
  · exact h

theorem WellNamed.apply (h : WellNamed w) (c : Change) : WellNamed (c.apply w) := by
  cases c with
  | createSystem name annotations spec =>
      exact ⟨h.systems.create rfl, h.pools, h.containers⟩
  | editSystem name spec | annotateSystem name key value | deleteSystem name =>
      refine ⟨h.systems.modify ?_, h.pools, h.containers⟩
      rintro a _ - ha ⟨⟩
      exact ha
  | removeSystem name =>
      refine ⟨h.systems.modify ?_, h.pools, h.containers⟩
      rintro a b - ha hb
      split at hb
      · cases hb
      · cases hb
        exact ha
  | createPool name annotations spec =>
      simp only [Change.apply]
      split
      · exact ⟨h.systems, h.pools.create rfl, h.containers⟩
      · exact h
  | editPool name spec =>
      refine ⟨h.systems, h.pools.modify ?_, h.containers⟩
      rintro a b - ha hb
      split at hb
      · cases hb
        exact ha
      · cases hb
        exact ha
  | annotatePool name annotations =>
      refine ⟨h.systems, h.pools.modify ?_, h.containers⟩
      rintro a _ - ha ⟨⟩
      exact ha
  | deletePool name =>
      refine ⟨h.systems, h.pools.modify ?_, h.containers⟩
      rintro a b - ha hb
      split at hb
      · cases hb
        exact ha
      · cases hb
  | createContainer key destroyApproved spec =>
      exact ⟨h.systems, h.pools, h.containers.create rfl⟩
  | editContainer key spec | annotateContainer key destroyApproved =>
      refine ⟨h.systems, h.pools, h.containers.modify ?_⟩
      rintro a _ - ha ⟨⟩
      exact ha
  | deleteContainer key =>
      refine ⟨h.systems, h.pools, h.containers.modify ?_⟩
      rintro a b - ha hb
      split at hb
      · cases hb
        exact ha
      · cases hb
  | deliverSystem name => exact ⟨h.systems.deliver, h.pools, h.containers⟩
  | deliverPool name => exact ⟨h.systems, h.pools.deliver, h.containers⟩
  | deliverContainer key => exact ⟨h.systems, h.pools, h.containers.deliver⟩
  | setReadyReplicas key ready =>
      simp only [Change.apply]
      split <;> exact ⟨h.systems, h.pools, h.containers⟩
  | jobProgress key conditions pods | jobRemoved key | jobCollected key =>
      simp only [Change.apply, onJob]
      split <;> exact ⟨h.systems, h.pools, h.containers⟩
  | daosRuns key ranks =>
      simp only [Change.apply, runInDaos]
      split
      · exact h
      · split <;> exact ⟨h.systems, h.pools, h.containers⟩
  | _ => exact ⟨h.systems, h.pools, h.containers⟩

theorem WellNamed.step (h : WellNamed w) (e : Event) :
    WellNamed (operator.step w e).1 :=
  step_keeps (fun c f _ _ hv => hv.respond c f) (fun c _ hw => hw.apply c) h

theorem wellNamed_final (events : List Event) : WellNamed (final events) :=
  Machine.final_induction (R := fun _ => True) wellNamed_empty
    (fun _ e hw _ => hw.step e) events fun _ _ => trivial

/-! ## Changes of one object -/

/-- What a change can do to the stored system of a name. -/
inductive SystemChange (name : String) : Change → Option DaosSystem → Option DaosSystem → Prop where
  | same {c : Change} (s : Option DaosSystem) : SystemChange name c s s
  | create (annotations : SystemAnnotations) (spec : DaosSystemSpec) :
      SystemChange name (.createSystem name annotations spec) none
        (some { name, annotations, spec })
  | edit (spec : DaosSystemSpec) (s : DaosSystem) :
      SystemChange name (.editSystem name spec) (some s) (some { s with spec })
  | annotate (key : SystemAnnotation) (value : Option String) (s : DaosSystem) :
      SystemChange name (.annotateSystem name key value) (some s)
        (some { s with annotations := s.annotations.set value key })
  | delete (s : DaosSystem) :
      SystemChange name (.deleteSystem name) (some s) (some { s with deleting := true })
  | remove (s : DaosSystem) (h : s.deleting = true) :
      SystemChange name (.removeSystem name) (some s) none

/-- A change of a stored object reaches the cell of its own name only. -/
theorem stored_onSystem {other : String} {f : DaosSystem → Option DaosSystem} :
    stored (onSystem w other f).systems name =
      if name = other then (stored w.systems name).bind f else stored w.systems name := by
  split
  · next h =>
      subst h
      exact stored_modify_self
  · next h => exact stored_modify_of_ne h

theorem stored_create {K α : Type} [DecidableEq K] (t : Table K (Watched α)) (k k' : K) (a : α) :
    stored (create t k a) k' = stored t k' ∨
      k' = k ∧ stored t k' = none ∧ stored (create t k a) k' = some a := by
  by_cases hk : k' = k
  · subst hk
    unfold create
    dsimp only
    split
    · next hfree =>
        rw [stored_cellOf, Option.isNone_iff_eq_none] at hfree
        exact Or.inr ⟨rfl, hfree, by simp [stored, Watched.write]⟩
    · exact Or.inl rfl
  · left
    unfold create
    dsimp only
    split
    · simp [stored, Table.get_put_of_ne _ hk]
    · rfl

theorem stored_deliver {K α : Type} [DecidableEq K] {t : Table K (Watched α)} {k k' : K} :
    stored (deliver t k) k' = stored t k' := by
  unfold deliver
  split
  · rfl
  · next c hget =>
      by_cases hk : k' = k
      · subst hk
        simp [stored, hget, Watched.deliver]
      · simp [stored, Table.get_put_of_ne _ hk]

theorem systemChange (w : World) (name : String) (c : Change) :
    SystemChange name c (stored w.systems name) (stored (c.apply w).systems name) := by
  -- a change of one stored object, seen from the cell of `name`
  have hon : ∀ {other : String} {f : DaosSystem → Option DaosSystem},
      (∀ s, other = name → SystemChange name c (some s) (f s)) →
      SystemChange name c (stored w.systems name) (stored (onSystem w other f).systems name) := by
    intro other f hf
    rw [stored_onSystem]
    split
    · next h =>
        cases hs : stored w.systems name with
        | none => exact .same none
        | some s => exact hf s h.symm
    · exact .same _
  cases c with
  | createSystem other annotations spec =>
      rcases stored_create w.systems other name { name := other, annotations, spec } with
        h | ⟨rfl, hnone, hsome⟩
      · simp only [Change.apply, h]
        exact .same _
      · simp only [Change.apply, hnone, hsome]
        exact .create annotations spec
  | editSystem other spec =>
      refine hon ?_
      rintro s rfl
      exact .edit spec s
  | annotateSystem other key value =>
      refine hon ?_
      rintro s rfl
      exact .annotate key value s
  | deleteSystem other =>
      refine hon ?_
      rintro s rfl
      exact .delete s
  | removeSystem other =>
      refine hon ?_
      rintro s rfl
      split
      · next h => exact .remove s h
      · exact .same _
  | deliverSystem other =>
      simp only [Change.apply, stored_deliver]
      exact .same _
  | createPool other annotations spec =>
      simp only [Change.apply]
      split <;> exact .same _
  | setReadyReplicas key ready =>
      simp only [Change.apply]
      split <;> exact .same _
  | jobProgress key conditions pods | jobRemoved key | jobCollected key =>
      simp only [Change.apply, onJob]
      split <;> exact .same _
  | daosRuns key ranks =>
      simp only [Change.apply, runInDaos]
      split
      · exact .same _
      · split <;> exact .same _
  | _ => exact .same _

/-- What a change can do to a Job. -/
inductive JobChange (key : ObjectKey) : Change → Option Job → Option Job → Prop where
  | same {c : Change} (job : Option Job) : JobChange key c job job
  | progress (conditions : List JobCondition) (pods : List JobPod) (job : Job) :
      JobChange key (.jobProgress key conditions pods) (some job)
        (some { job with conditions, pods })
  | removed (job : Job) (h : job.deleting = true) :
      JobChange key (.jobRemoved key) (some job) none
  | collected (job : Job) : JobChange key (.jobCollected key) (some job) none

theorem jobChange (w : World) (key : ObjectKey) (c : Change) :
    JobChange key c (w.jobs.get key) ((c.apply w).jobs.get key) := by
  have hon : ∀ {other : ObjectKey} {f : Job → Option Job},
      (∀ job, other = key → JobChange key c (some job) (f job)) →
      JobChange key c (w.jobs.get key) ((onJob w other f).jobs.get key) := by
    intro other f hf
    unfold onJob
    split
    · exact .same _
    · next job hget =>
        rw [Table.get_put]
        split
        · next h =>
            subst h
            rw [hget]
            exact hf job rfl
        · exact .same _
  cases c with
  | jobProgress other conditions pods =>
      refine hon ?_
      rintro job rfl
      exact .progress conditions pods job
  | jobRemoved other =>
      refine hon ?_
      rintro job rfl
      split
      · next h => exact .removed job h
      · exact .same _
  | jobCollected other =>
      refine hon ?_
      rintro job rfl
      exact .collected job
  | createPool other annotations spec =>
      simp only [Change.apply]
      split <;> exact .same _
  | setReadyReplicas key ready =>
      simp only [Change.apply]
      split <;> exact .same _
  | daosRuns key ranks =>
      simp only [Change.apply, runInDaos]
      split
      · exact .same _
      · split <;> exact .same _
  | _ => exact .same _

/-! ## Reconciles of other objects -/

theorem Pool.jobKey_ne_system {pool ns ns' : String} {job : Pool.PoolJob}
    (hkind : kind ≠ .query) : System.jobKey name ns kind ≠ Pool.jobKey pool ns' job := by
  intro h
  obtain ⟨stem, hstem⟩ := jobName_eq_append "pool" pool ("dmg-" ++ job.text)
  have hname : name ++ kind.suffix = stem ++ ("-" ++ ("dmg-" ++ job.text)) := by
    simp only [System.jobKey, Pool.jobKey, ObjectKey.mk.injEq] at h
    rw [h.2, hstem]
  have hdecide : ¬(kind.suffix.toList <:+ ("-" ++ ("dmg-" ++ job.text)).toList ∨
      ("-" ++ ("dmg-" ++ job.text)).toList <:+ kind.suffix.toList) := by
    cases job with
    | query => cases kind <;> first | exact absurd rfl hkind | decide
    | op operation => cases operation <;> cases kind <;> first | exact absurd rfl hkind | decide
  exact hdecide (Text.suffix_or_suffix hname)

theorem Container.jobKey_ne_system {key : ObjectKey} {ns ns' : String}
    {job : Container.ContJob} :
    System.jobKey name ns kind ≠ Container.jobKey key ns' job := by
  intro h
  obtain ⟨stem, hstem⟩ := jobName_eq_append "cont" (key.ns ++ "/" ++ key.name) ("daos-" ++ job.text)
  have hname : name ++ kind.suffix = stem ++ ("-" ++ ("daos-" ++ job.text)) := by
    simp only [System.jobKey, Container.jobKey, ObjectKey.mk.injEq] at h
    rw [h.2, hstem]
  have hdecide : ¬(kind.suffix.toList <:+ ("-" ++ ("daos-" ++ job.text)).toList ∨
      ("-" ++ ("daos-" ++ job.text)).toList <:+ kind.suffix.toList) := by
    cases job with
    | query => cases kind <;> decide
    | op operation => cases operation <;> cases kind <;> decide
  exact hdecide (Text.suffix_or_suffix hname)

/-- A reconcile of an object other than the system `name`. -/
def Event.elsewhere (name : String) : Event → Prop
  | .reconcileSystem other _ => other ≠ name
  | .reconcilePool _ _ | .reconcileContainer _ _ => True
  | .change _ => False

namespace EventCall

variable {w v : World} {e : Event} {c : Call} {f : Fault} {name : String}

theorem systems_get (h : EventCall w e c) (hw : WellNamed w) (he : e.elsewhere name) :
    (cluster.respond c f v).2.systems.get name = v.systems.get name := by
  cases h with
  | read hc =>
      exact System.respond_keeps (g := fun w => w.systems.get name) (by rw [perform_quiet hc])
  | system hsys hc =>
      refine hc.systems_get ?_
      rw [hw.systems.stored hsys]
      exact fun h => he h.symm
  | pool hpool hc => exact congrArg (fun s => s.systems.get name) hc.systemSide
  | container hcont hc => exact congrArg (fun s => s.systems.get name) hc.systemSide

theorem jobs_get (h : EventCall w e c) (hw : WellNamed w) (he : e.elsewhere name) {ns : String}
    (hkind : kind ≠ .query) :
    (cluster.respond c f v).2.jobs.get (System.jobKey name ns kind) =
      v.jobs.get (System.jobKey name ns kind) := by
  cases h with
  | read hc => exact System.respond_keeps (g := fun w => w.jobs.get _) (by rw [perform_quiet hc])
  | system hsys hc =>
      refine hc.jobs_get ?_
      intro k _ hkey
      have hname := (System.jobKey_inj hkey).1
      rw [hw.systems.stored hsys] at hname
      exact he hname.symm
  | pool hpool hc => exact hc.jobs_get fun _ _ => Pool.jobKey_ne_system hkind
  | container hcont hc => exact hc.jobs_get fun _ _ => Container.jobKey_ne_system

/-- Reconciles of pools and containers leave the side of the systems alone. -/
theorem systemSide (h : EventCall w e c) (he : e.system = none) :
    System.systemSide (cluster.respond c f v).2 = System.systemSide v := by
  cases h with
  | read hc => rw [respond_quiet hc]
  | system hsys hc => cases he
  | pool hpool hc => exact hc.systemSide
  | container hcont hc => exact hc.systemSide

/-- Jobs that a reconcile of another object creates belong to that object. -/
theorem owner_ne {spec : Dmg.RunSpec} (h : EventCall w e (.createJob spec)) (hw : WellNamed w)
    (he : e.elsewhere name) : spec.owner ≠ .system name := by
  cases h with
  | read hc => cases hc
  | system hsys hc =>
      cases hc with
      | quiet hc => cases hc
      | createJob kind _ _ hspec =>
          rw [hspec.owner, hw.systems.stored hsys]
          intro h
          cases h
          exact he rfl
  | pool hpool hc =>
      cases hc with
      | quiet hc => cases hc
      | createJob pool' sys ns job _ _ _ => simp [Pool.opSpec]
  | container hcont hc =>
      cases hc with
      | quiet hc => cases hc
      | createJob pool sys ns job _ => simp [Container.opSpec]

end EventCall

/-- A reconcile of another object leaves the system and its Jobs alone. -/
theorem step_elsewhere (name : String) (e : Event) (hw : WellNamed w)
    (he : e.elsewhere name) :
    (operator.step w e).1.systems.get name = w.systems.get name ∧
      ∀ ns kind, kind ≠ .query → (operator.step w e).1.jobs.get (System.jobKey name ns kind) =
        w.jobs.get (System.jobKey name ns kind) := by
  refine step_keeps (I := fun v => v.systems.get name = w.systems.get name ∧
    ∀ ns kind, kind ≠ .query → v.jobs.get (System.jobKey name ns kind) =
      w.jobs.get (System.jobKey name ns kind)) ?_ ?_ ⟨rfl, fun _ _ _ => rfl⟩
  · intro c f v hc hv
    refine ⟨(hc.systems_get hw he).trans hv.1, ?_⟩
    intro ns kind hkind
    exact (hc.jobs_get hw he hkind).trans (hv.2 ns kind hkind)
  · rintro c rfl
    exact he.elim

end DaosOperator
