import DaosOperator.System.Footprint

/-!
# What a `DaosSystem` reconcile leaves alone

For every part of the world: the calls that can change it, and what they can change
it to.  Jobs are separated by their names.
-/

namespace DaosOperator.System

open Effect

/-! ## Job names of systems -/

theorem suffix_inj {k k' : JobKind} (h : k.suffix.toList <:+ k'.suffix.toList) : k = k' := by
  revert h
  cases k <;> cases k' <;> decide

/-- The Jobs of systems have names of their own. -/
theorem jobKey_inj {name name' ns ns' : String} {k k' : JobKind}
    (h : jobKey name ns k = jobKey name' ns' k') : name = name' ∧ ns = ns' ∧ k = k' := by
  obtain ⟨hns, hname⟩ : ns = ns' ∧ name ++ k.suffix = name' ++ k'.suffix := by
    simpa [jobKey] using h
  have hk : k = k' := by
    rcases Text.suffix_or_suffix hname with hk | hk
    · exact suffix_inj hk
    · exact (suffix_inj hk).symm
  subst hk
  exact ⟨Text.append_right_cancel hname, hns, rfl⟩

/-! ## Frames -/

variable {name ns : String} {S : Scope} {c : Call} {f : Fault} {w : World}

/-- What `perform` keeps, a call keeps under any fault. -/
theorem respond_keeps {β : Type} {g : World → β} (h : g (perform c w).2 = g w) :
    g (cluster.respond c f w).2 = g w := by
  rw [Handler.respond_world]
  split
  · exact h
  · rfl

/-- The parts of the world that only reconciles of systems write. -/
structure SystemSide where
  systems : Table String (Watched DaosSystem)
  serverPods : List ServerPod
  statefulSets : Table ObjectKey StatefulSet
  secrets : Table ObjectKey Bundle
  configMaps : Table ObjectKey Render.ConfigFile
  engines : Table String EngineMemory

def systemSide (w : World) : SystemSide :=
  ⟨w.systems, w.serverPods, w.statefulSets, w.secrets, w.configMaps, w.memory.engines⟩

namespace SystemCall

/-! Inversion: what a call of a scope says about the scope. -/

theorem of_createJob {spec : Dmg.RunSpec} (h : SystemCall name ns S (.createJob spec)) :
    ∃ kind, S.jobs kind = true ∧ SystemJob name ns kind spec := by
  generalize hc : Call.createJob spec = c at h
  cases h with
  | quiet h =>
      subst hc
      cases h
  | createJob kind spec' hkind hspec =>
      cases hc
      exact ⟨kind, hkind, hspec⟩
  | _ => cases hc

theorem of_deleteJob {key : ObjectKey} (h : SystemCall name ns S (.deleteJob key)) :
    ∃ kind, S.jobs kind = true ∧ key = jobKey name ns kind := by
  generalize hc : Call.deleteJob key = c at h
  cases h with
  | quiet h =>
      subst hc
      cases h
  | deleteJob kind hkind =>
      cases hc
      exact ⟨kind, hkind, rfl⟩
  | _ => cases hc

theorem of_status {other : String} {st : DaosSystemStatus}
    (h : SystemCall name ns S (.updateSystemStatus other st)) : other = name ∧ S.status = true := by
  generalize hc : Call.updateSystemStatus other st = c at h
  cases h with
  | quiet h =>
      subst hc
      cases h
  | status st hst =>
      cases hc
      exact ⟨rfl, hst⟩
  | _ => cases hc

theorem pools (h : SystemCall name ns S c) : (cluster.respond c f w).2.pools = w.pools := by
  refine respond_keeps (g := World.pools) ?_
  cases h with
  | quiet h => rw [perform_quiet h]
  | createJob kind spec _ _ =>
      simp only [perform]
      split <;> rfl
  | deleteJob kind _ =>
      simp only [perform]
      split <;> rfl
  | _ => rfl

theorem containers (h : SystemCall name ns S c) :
    (cluster.respond c f w).2.containers = w.containers := by
  refine respond_keeps (g := World.containers) ?_
  cases h with
  | quiet h => rw [perform_quiet h]
  | createJob kind spec _ _ =>
      simp only [perform]
      split <;> rfl
  | deleteJob kind _ =>
      simp only [perform]
      split <;> rfl
  | _ => rfl

/-- What no call of the operator changes. -/
theorem surroundings (h : SystemCall name ns S c) :
    (cluster.respond c f w).2.nodes = w.nodes ∧ (cluster.respond c f w).2.clock = w.clock ∧
      (cluster.respond c f w).2.daosPools = w.daosPools := by
  have hkeep : (fun w : World => (w.nodes, w.clock, w.daosPools)) (cluster.respond c f w).2 =
      (w.nodes, w.clock, w.daosPools) := by
    refine respond_keeps (g := fun w => (w.nodes, w.clock, w.daosPools)) ?_
    cases h with
    | quiet h => rw [perform_quiet h]
    | createJob kind spec _ _ =>
        simp only [perform]
        split <;> rfl
    | deleteJob kind _ =>
        simp only [perform]
        split <;> rfl
    | _ => rfl
  simpa using hkeep

theorem serverPods (h : SystemCall name ns S c) (hS : S.pods = false) :
    (cluster.respond c f w).2.serverPods = w.serverPods := by
  refine respond_keeps (g := World.serverPods) ?_
  cases h with
  | quiet h => rw [perform_quiet h]
  | deletePod key h => simp [hS] at h
  | createJob kind spec _ _ =>
      simp only [perform]
      split <;> rfl
  | deleteJob kind _ =>
      simp only [perform]
      split <;> rfl
  | _ => rfl

/-- What the operator remembers about engines changes only where the scope writes it. -/
theorem engines (h : SystemCall name ns S c) (hS : S.engines = false) :
    (cluster.respond c f w).2.memory.engines = w.memory.engines := by
  refine respond_keeps (g := fun w => w.memory.engines) ?_
  cases h with
  | quiet h => rw [perform_quiet h]
  | setEngineMemory m h => simp [hS] at h
  | createJob kind spec _ _ =>
      simp only [perform]
      split <;> rfl
  | deleteJob kind _ =>
      simp only [perform]
      split <;> rfl
  | _ => rfl

/-- A Job the scope has no key for stays as it is. -/
theorem jobs_get (h : SystemCall name ns S c) {key : ObjectKey}
    (hkey : ∀ k, S.jobs k = true → key ≠ jobKey name ns k) :
    (cluster.respond c f w).2.jobs.get key = w.jobs.get key := by
  refine respond_keeps (g := fun w => w.jobs.get key) ?_
  cases h with
  | quiet h => rw [perform_quiet h]
  | createJob kind spec hkind hspec =>
      have hne : key ≠ spec.key := by
        rw [hspec.key]
        exact hkey kind hkind
      simp only [perform]
      split
      · rfl
      · exact w.jobs.get_put_of_ne hne _
  | deleteJob kind hkind =>
      simp only [perform]
      split
      · rfl
      · exact w.jobs.get_put_of_ne (hkey kind hkind) _
  | _ => rfl

/-- Other systems stay as they are. -/
theorem systems_get (h : SystemCall name ns S c) {other : String} (hne : other ≠ name) :
    (cluster.respond c f w).2.systems.get other = w.systems.get other := by
  refine respond_keeps (g := fun w => w.systems.get other) ?_
  cases h with
  | quiet h => rw [perform_quiet h]
  | createJob kind spec _ _ =>
      simp only [perform]
      split <;> rfl
  | deleteJob kind _ =>
      simp only [perform]
      split <;> rfl
  | patch p _ => exact modify_get_of_ne hne
  | status st _ => exact modify_get_of_ne hne
  | _ => rfl

/-- The stored system changes by patches of the scope and by status writes. -/
theorem stored_cases (h : SystemCall name ns S c) :
    stored (cluster.respond c f w).2.systems name = stored w.systems name ∨
      (∃ p, S.patches p = true ∧ c = .patchSystem name p ∧
        stored (cluster.respond c f w).2.systems name = (stored w.systems name).map (p.apply ·)) ∨
      ∃ st, S.status = true ∧ c = .updateSystemStatus name st ∧
        stored (cluster.respond c f w).2.systems name =
          (stored w.systems name).map fun s => { s with status := st } := by
  rw [Handler.respond_world]
  split
  · cases h with
    | quiet h =>
        left
        rw [show cluster.perform = perform from rfl, perform_quiet h]
    | createJob kind spec _ _ =>
        left
        simp only [cluster, perform]
        split <;> rfl
    | deleteJob kind _ =>
        left
        simp only [cluster, perform]
        split <;> rfl
    | patch p hp =>
        refine Or.inr (Or.inl ⟨p, hp, rfl, ?_⟩)
        simp only [cluster, perform, stored_modify_self]
        cases stored w.systems name <;> rfl
    | status st hst =>
        refine Or.inr (Or.inr ⟨st, hst, rfl, ?_⟩)
        simp only [cluster, perform, stored_modify_self]
        cases stored w.systems name <;> rfl
    | _ => exact Or.inl rfl
  · exact Or.inl rfl

/-- What patches and status writes of the scope leave alone stays as it is. -/
theorem stored_proj {β : Type} {g : DaosSystem → β} (h : SystemCall name ns S c)
    (hpatch : ∀ s p, S.patches p = true → g (p.apply s) = g s)
    (hstatus : S.status = true → ∀ s st, g { s with status := st } = g s) :
    (stored (cluster.respond c f w).2.systems name).map g = (stored w.systems name).map g := by
  rcases h.stored_cases (f := f) (w := w) with hsame | ⟨p, hp, -, hstored⟩ | ⟨st, hst, -, hstored⟩
  · rw [hsame]
  · rw [hstored]
    cases stored w.systems name with
    | none => rfl
    | some s => simp [hpatch s p hp]
  · rw [hstored]
    cases stored w.systems name with
    | none => rfl
    | some s => simp [hstatus hst s st]

end SystemCall

/-! ## The membership query -/

/-- The rule for the membership query: it leaves the status, says that the query is running, or
reads a Job that has finished. -/
theorem wp_queryPath_status {rely : Entry Call World → Prop} {s : Point Call World}
    {inp : FormatInput} {p : Pass} {Q : DaosSystemStatus → Prop} (approved : Bool)
    (hwaits : Q p.status)
    (hprobes : findCond p.status .formatted = none →
      Q (setCond p.status .formatted .unknown "Probing" "dmg system query is running"))
    (hread : ∀ job failure, s.world.jobs.get (jobKey p.sys.name inp.ns .query) = some job →
      job.deleting = false → Dmg.jobFinished job.conditions = some failure →
      ∀ now, Q (readQuery p.sys inp approved now (Dmg.jobResult failure job) p.status).status) :
    (queryPath inp approved p).wp cluster rely s (fun r _ => Q r.2.status) fun _ => True := by
  refine Prog.wp_bind (A := fun _ t => t.world = s.world)
    (Prog.wp_ask (fun _ => rfl) fun _ _ _ _ => trivial) ?_
  intro wait t ht
  refine Prog.wp_ite (fun _ => hwaits) fun _ => ?_
  refine Prog.wp_bind (A := fun res _ => res.done = true →
    ∀ now, Q (readQuery p.sys inp approved now res p.status).status) ?_ ?_
  · refine Prog.wp_mapError.mpr (Dmg.wp_run (I := fun _ => True)
      (fun _ _ _ _ _ _ => trivial) trivial (fun _ _ => trivial) ?_ ?_ ?_)
    · intro u _ _ _
      exact Prog.wp_ask (fun _ hdone => by cases hdone) fun _ _ _ _ => trivial
    · intro u job _ _ _ hdone
      cases hdone
    · intro u job failure _ _ hjob hlive hfinished
      have hres := hread job failure (ht ▸ hjob) hlive hfinished
      exact Prog.wp_ask (fun _ _ => hres) fun _ _ _ _ => trivial
  intro res t hres
  refine Prog.wp_ite (fun _ => ?_) fun hdone => ?_
  · simp only [Prog.wp_ret]
    split
    · next hnone => exact hprobes (by simpa using hnone)
    · exact hwaits
  refine Prog.wp_bind (A := fun _ _ => True)
    (Prog.wp_ask (fun _ => trivial) fun _ _ _ _ => trivial) ?_
  intro now t _
  have hobeys : (finishQuery (readQuery p.sys inp approved now res p.status) p.sys).Obeys
      (SystemCall p.sys.name inp.ns formatScope) _ :=
    obeys_finishQuery rfl rfl (formatMask_readQuery p.sys inp approved now res p.status)
  refine Prog.wp_mono (hobeys.wp (I := fun _ => True) (fun _ _ _ _ _ _ _ => trivial) trivial) ?_
    fun _ h => h
  rintro r u ⟨⟨-, hr⟩, -⟩
  rw [hr]
  exact hres (by simpa using hdone) now

/-! ## Finished Jobs -/

def finishedResult (sys : DaosSystem) (w : World) (kind : JobKind) : Option Dmg.Result :=
  (w.jobs.get (jobKey sys.name (namespaceOf sys) kind)).bind fun job =>
    if job.deleting then none
    else (Dmg.jobFinished job.conditions).map fun failure => Dmg.jobResult failure job

/-- The call reads off the result of the Job, which is deleted with it. -/
def readsOff (key : ObjectKey) (x : Entry Call World) : Bool :=
  match x.call with
  | .deleteJob k => k = key
  | _ => false

theorem done_of_finishedResult {sys : DaosSystem} {res : Dmg.Result} {w : World} {kind : JobKind}
    (h : finishedResult sys w kind = some res) : res.done = true := by
  obtain ⟨job, -, hjob⟩ := Option.bind_eq_some_iff.mp h
  split at hjob
  · cases hjob
  · obtain ⟨failure, -, rfl⟩ := Option.map_eq_some_iff.mp hjob
    exact Dmg.done_jobResult failure job

end DaosOperator.System
