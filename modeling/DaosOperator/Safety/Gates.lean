import DaosOperator.Safety.Answers
import DaosOperator.Safety.FormatOnce
import DaosOperator.Steps

/-!
# Nothing destructive without its gate

Three commands of the operator destroy data: `dmg storage format`, `dmg pool destroy`
and `daos cont destroy`.  `Run` creates a Job whenever none of that name exists, also
from code that only means to poll.  A format is created under its gate in every step of
every run.  A destroy is too, unless a name is used again while an earlier object can still
be read under it: its status is then written into that of the new object.
-/

namespace DaosOperator

open Effect
open DaosOperator.System

/-! ## A destroy belongs to a deletion -/

/-- A version that is being deleted is followed only by versions that are being deleted, and a
version that is being destroyed is one of them. -/
structure DeletedFirst {K α : Type} (deleting destroying : α → Bool) (t : Table K (Watched α))
    (k : K) : Prop where
  sticks : InOrder (fun x b => ∀ y, b = some y → deleting x = true → deleting y = true) t k
  destroys : ∀ a, some a ∈ versions t k → destroying a = true → deleting a = true

/-- What is written over an object that is being deleted is being deleted, and what is being
destroyed was so before, or was read as deleted or destroyed. -/
def WritesDeleted {α : Type} (deleting destroying : α → Bool) (read : α → Prop)
    (cell : Watched α) (new : Option α) : Prop :=
  ∃ b, cell.stored = some b ∧ ∀ a, new = some a → (deleting b = true → deleting a = true) ∧
    (destroying a = true → destroying b = true ∨
      ∃ x, read x ∧ (deleting x = true ∨ destroying x = true))

section Cells

variable {K α : Type} {deleting destroying : α → Bool} {read : α → Prop}
  {t t' : Table K (Watched α)} {k : K} {fresh : α → Prop}
  {writes : Watched α → Option α → Prop} {delivers : Prop}

theorem DeletedFirst.step (h : DeletedFirst deleting destroying t k)
    (hstep : CellStep fresh writes delivers (t.get k) (t'.get k))
    (hfresh : ∀ a, fresh a → destroying a = false ∧
      (stored t k = none → ∀ x ∈ versions t k, x = none))
    (hwrites : ∀ cell new, writes cell new → WritesDeleted deleting destroying read cell new)
    (hread : ∀ x, read x → cached t k = some x) : DeletedFirst deleting destroying t' k := by
  refine ⟨hstep.inOrder h.sticks ?_ ?_, fun a ha hdestroys => ?_⟩
  · intro a x ha hnone hx _
    cases (hfresh a ha).2 hnone _ hx
  · intro cell new _ hw
    obtain ⟨b, hb, hnew⟩ := hwrites cell new hw
    exact ⟨b, hb, fun y hy => (hnew y hy).1, fun x _ hx y hy hdeleting =>
      (hnew y hy).1 (hx b rfl hdeleting)⟩
  · rcases hstep.versions ha with hold | hnew | ⟨cell, hcell, hw⟩
    · exact h.destroys a hold hdestroys
    · simp [(hfresh a hnew).1] at hdestroys
    · obtain ⟨b, hb, hnew⟩ := hwrites cell _ hw
      have hstored := stored_of_cell hcell hb
      refine (hnew a rfl).1 ?_
      rcases (hnew a rfl).2 hdestroys with hbefore | ⟨x, hx, hdoomed⟩
      · exact h.destroys b (stored_mem_versions hstored) hbefore
      · -- the version in the cache is being deleted, so the stored one is too
        have hversion := cached_mem_versions (hread x hx)
        have hdeleting := hdoomed.elim id (h.destroys x hversion)
        rcases h.sticks.stored hversion with hsame | hlater
        · rw [hstored] at hsame
          cases hsame
          exact hdeleting
        · exact hlater b hstored hdeleting

/-- The stored object is being deleted if it is being destroyed, or if what was read of it is
being deleted or destroyed. -/
def StoredDeleted (deleting destroying : α → Bool) (read : α → Prop) (t : Table K (Watched α))
    (k : K) : Prop :=
  ∀ a, stored t k = some a → (destroying a = true ∨
    ∃ x, read x ∧ (deleting x = true ∨ destroying x = true)) → deleting a = true

theorem StoredDeleted.step (h : StoredDeleted deleting destroying read t k)
    (hstep : CellStep fresh writes delivers (t.get k) (t'.get k))
    (hfresh : ∀ a, fresh a → destroying a = false ∧ ∀ x, ¬read x)
    (hwrites : ∀ cell new, writes cell new → WritesDeleted deleting destroying read cell new) :
    StoredDeleted deleting destroying read t' k := by
  intro a ha hdoomed
  rcases hstep.stored with hsame | ⟨-, b, hb, hnew⟩ | ⟨cell, hcell, hw⟩
  · exact h a (hsame ▸ ha) hdoomed
  · rw [ha] at hnew
    cases hnew
    obtain ⟨hidle, hnone⟩ := hfresh a hb
    rcases hdoomed with hdestroys | ⟨x, hx, -⟩
    · simp [hidle] at hdestroys
    · exact absurd hx (hnone x)
  · obtain ⟨b, hb, hnew⟩ := hwrites cell _ hw
    refine (hnew a ha).1 (h b (stored_of_cell hcell hb) ?_)
    exact hdoomed.elim (hnew a ha).2 Or.inr

theorem StoredDeleted.of_read (h : StoredDeleted deleting destroying (fun _ => False) t k)
    (hread : ∀ x, read x → stored t k = some x) : StoredDeleted deleting destroying read t k := by
  rintro a ha (hdestroys | ⟨x, hx, hdoomed⟩)
  · exact h a ha (Or.inl hdestroys)
  · have hsame := hread x hx
    rw [ha] at hsame
    cases hsame
    exact hdoomed.elim id fun hdestroys => h a ha (Or.inl hdestroys)

theorem StoredDeleted.forget (h : StoredDeleted deleting destroying read t k) :
    StoredDeleted deleting destroying (fun _ => False) t k :=
  fun a ha hdoomed => h a ha (hdoomed.imp_right (by simp))

end Cells

def DaosPool.destroying (p : DaosPool) : Bool := p.status.operation = some .destroy

def DaosContainer.destroying (c : DaosContainer) : Bool := c.status.operation = some .destroy

section Writes

variable {w : World} {e : Event} {c : Call} {name : String} {key : ObjectKey}

theorem poolEdit_deleted {change : Change} {cell : Watched DaosPool} {new : Option DaosPool}
    {read : DaosPool → Prop} (h : PoolEdit name change cell new) :
    WritesDeleted DaosPool.deleting DaosPool.destroying read cell new := by
  cases h with
  | edit h _ | refused h | annotate h =>
      refine ⟨_, h, ?_⟩
      rintro _ ⟨⟩
      exact ⟨id, Or.inl⟩
  | delete h _ =>
      refine ⟨_, h, ?_⟩
      rintro _ ⟨⟩
      exact ⟨fun _ => rfl, Or.inl⟩
  | remove h _ => exact ⟨_, h, by simp⟩

theorem containerEdit_deleted {change : Change} {cell : Watched DaosContainer}
    {new : Option DaosContainer} {read : DaosContainer → Prop}
    (h : ContainerEdit key change cell new) :
    WritesDeleted DaosContainer.deleting DaosContainer.destroying read cell new := by
  cases h with
  | edit h | annotate h =>
      refine ⟨_, h, ?_⟩
      rintro _ ⟨⟩
      exact ⟨id, Or.inl⟩
  | delete h _ =>
      refine ⟨_, h, ?_⟩
      rintro _ ⟨⟩
      exact ⟨fun _ => rfl, Or.inl⟩
  | remove h _ => exact ⟨_, h, by simp⟩

theorem poolWrite_deleted {cell : Watched DaosPool} {new : Option DaosPool} (hw : WellNamed w)
    (hc : EventCall w e c) (h : PoolWrite name c cell new) :
    WritesDeleted DaosPool.deleting DaosPool.destroying
      (fun p => e.pool = some name ∧ cached w.pools name = some p) cell new := by
  cases h with
  | status h =>
      refine ⟨_, h, ?_⟩
      rintro _ ⟨⟩
      refine ⟨id, fun hdestroys => Or.inr ?_⟩
      cases hc with
      | read hc => cases hc
      | system _ hc => cases hc with | quiet hc => cases hc
      | container _ hc => cases hc with | quiet hc => cases hc
      | pool hpool hc =>
          have hname := hw.pools.cached hpool
          cases hc with
          | quiet hc => cases hc
          | status _ hst =>
              subst hname
              refine ⟨_, ⟨rfl, hpool⟩,
                (hst (by simpa [DaosPool.destroying] using hdestroys)).imp_right ?_⟩
              exact fun hop => by simp [DaosPool.destroying, hop]
  | finalizer h _ _ =>
      refine ⟨_, h, ?_⟩
      rintro _ ⟨⟩
      exact ⟨id, Or.inl⟩
  | gone h _ _ => exact ⟨_, h, by simp⟩

theorem containerWrite_deleted {cell : Watched DaosContainer} {new : Option DaosContainer}
    (hw : WellNamed w) (hc : EventCall w e c) (h : ContainerWrite key c cell new) :
    WritesDeleted DaosContainer.deleting DaosContainer.destroying
      (fun c => e.container = some key ∧ cached w.containers key = some c) cell new := by
  cases h with
  | status h =>
      refine ⟨_, h, ?_⟩
      rintro _ ⟨⟩
      refine ⟨id, fun hdestroys => Or.inr ?_⟩
      cases hc with
      | read hc => cases hc
      | system _ hc => cases hc with | quiet hc => cases hc
      | pool _ hc => cases hc with | quiet hc => cases hc
      | container hcont hc =>
          have hkey := hw.containers.cached hcont
          cases hc with
          | quiet hc => cases hc
          | status _ hst =>
              subst hkey
              refine ⟨_, ⟨rfl, hcont⟩, (hst ?_).imp_right
                fun hop => by simp [DaosContainer.destroying, hop]⟩
              simpa [DaosContainer.destroying] using hdestroys
  | finalizer h _ _ =>
      refine ⟨_, h, ?_⟩
      rintro _ ⟨⟩
      exact ⟨id, Or.inl⟩
  | gone h _ _ => exact ⟨_, h, by simp⟩

end Writes

/-- A status names a destroy only for an object that is being deleted. -/
structure DestroysDeleted (w : World) : Prop where
  pools : ∀ name, DeletedFirst DaosPool.deleting DaosPool.destroying w.pools name
  containers : ∀ key, DeletedFirst DaosContainer.deleting DaosContainer.destroying w.containers key

theorem destroysDeleted_empty : DestroysDeleted {} :=
  ⟨fun _ => ⟨.nil, by simp [versions]⟩, fun _ => ⟨.nil, by simp [versions]⟩⟩

def Event.createsPool : Event → Option String
  | .change (.createPool name _ _) => some name
  | _ => none

def Event.createsContainer : Event → Option ObjectKey
  | .change (.createContainer key _ _) => some key
  | _ => none

/-- A name is used again only when the cache has no earlier object left to show under it. -/
def ReusedLate (_ : List Step) (step : Step) : Prop :=
  (∀ name ∈ step.event.createsPool, stored step.before.pools name = none →
    ∀ x ∈ versions step.before.pools name, x = none) ∧
  ∀ key ∈ step.event.createsContainer, stored step.before.containers key = none →
    ∀ x ∈ versions step.before.containers key, x = none
  deriving Decidable

theorem DestroysDeleted.step {w : World} {e : Event} {past : List Step} (h : DestroysDeleted w)
    (hw : WellNamed w) (hreused : ReusedLate past (operator.record w e)) :
    DestroysDeleted (operator.step w e).1 := by
  cases e with
  | change c =>
      refine ⟨fun name => (h.pools name).step (poolCell_change w name c) ?_
        (fun _ _ => poolEdit_deleted) fun _ => False.elim,
        fun key => (h.containers key).step (containerCell_change w key c) ?_
        (fun _ _ => containerEdit_deleted) fun _ => False.elim⟩
      · rintro _ ⟨annotations, spec, rfl, -, rfl⟩
        exact ⟨rfl, hreused.1 name rfl⟩
      · rintro _ ⟨approved, spec, rfl, rfl⟩
        exact ⟨rfl, hreused.2 key rfl⟩
  | _ =>
      refine (step_keeps (I := fun v => DestroysDeleted v ∧
        (∀ name, cached v.pools name = cached w.pools name) ∧
        ∀ key, cached v.containers key = cached w.containers key) ?_ (by simp)
        ⟨h, fun _ => rfl, fun _ => rfl⟩).1
      rintro c f v hc ⟨hv, hpools, hconts⟩
      exact ⟨⟨fun name => (hv.pools name).step (poolCell_call v name c f) (by simp)
          (fun _ _ => poolWrite_deleted hw hc) fun p hp => (hpools name).trans hp.2,
        fun key => (hv.containers key).step (containerCell_call v key c f) (by simp)
          (fun _ _ => containerWrite_deleted hw hc) fun c hc => (hconts key).trans hc.2⟩,
        fun name => ((poolCell_call v name c f).cached id).trans (hpools name),
        fun key => ((containerCell_call v key c f).cached id).trans (hconts key)⟩

theorem destroysDeleted_final (events : List Event)
    (hreused : Along ReusedLate [] (history events)) : DestroysDeleted (final events) := by
  have hrun := Machine.final_induction (m := operator) (s := {}) (R := ReusedLate [])
    (I := fun w => WellNamed w ∧ DestroysDeleted w) ⟨wellNamed_empty, destroysDeleted_empty⟩
    (fun w e h hstep => ⟨h.1.step e, h.2.step h.1 hstep⟩) events
    (Along.forall_mem (P := ReusedLate []) hreused)
  exact hrun.2

/-! ## The format gate -/

/-- The gate of a format: approved, run by the operator, seen unformatted, and every server
that has a configuration is ready. -/
structure FormatGate (sys : DaosSystem) (w : World) : Prop where
  approved : formatApproved sys = true
  internal : external sys = false
  pending : sys.status.pendingFormat = true
  ready : ∀ f ∈ nodeFacts sys w, renders sys w f = true →
    ServerReady sys (namespaceOf sys) f.name w

/-- What every format Job of `sys` is created with: the gate is open, the whole system is
formatted only where it is not formatted yet, and a listed host is the address of a
selected node without a rank or with one that waits for a format. -/
structure FormatJob (sys : DaosSystem) (w : World) (args : List String) : Prop where
  gate : FormatGate sys w
  whole : args = formatArgs [] → sys.status.formatted = false
  hosts : ∃ only, args = formatArgs only ∧ ∀ host ∈ only, ∃ f ∈ nodeFacts sys w,
    f.controlAddr = host ∧
      (isMember sys.status.ranks f.name = false ∨ awaitsFormat sys.status.ranks f.name = true)

/-- The format Jobs of a log were created as they should. -/
def GatedLog (sys : DaosSystem) (s : Point Call World) : Prop :=
  ∀ x ∈ s.log, ∀ spec, created x = some spec → isFormat spec.command.args = true →
    FormatJob sys x.before spec.command.args

section FormatGate

variable {sys : DaosSystem} {s : Point Call World} {rely : Entry Call World → Prop}

theorem GatedLog.concat {c : Call} {f : Fault} (h : GatedLog sys s)
    (hc : ∀ spec, c = .createJob spec → isFormat spec.command.args = true →
      FormatJob sys s.world spec.command.args) :
    GatedLog sys (cluster.next s c f) := by
  intro x hx spec hcreated hformat
  rcases Handler.mem_next_log hx with hx | rfl
  · exact h x hx spec hcreated hformat
  · exact hc spec (call_of_created hcreated) hformat

theorem GatedLog.next {name ns : String} {S : Scope} {c : Call} {f : Fault} (h : GatedLog sys s)
    (hc : SystemCall name ns S c) (hS : S.jobs .format = false) :
    GatedLog sys (cluster.next s c f) := by
  refine h.concat ?_
  rintro spec rfl hformat
  obtain ⟨kind, hkind, hspec⟩ := hc.of_createJob
  rw [kind_of_isFormat hspec.runs hformat, hS] at hkind
  cases hkind

theorem wp_gated {α : Type} (name ns : String) {S : Scope} {P : α → Prop} {q : Op α}
    (hS : S.jobs .format = false) (hq : q.Obeys (SystemCall name ns S) P) (hs : GatedLog sys s) :
    q.wp cluster rely s (fun a t => P a ∧ GatedLog sys t) (GatedLog sys) :=
  hq.wp (fun _ _ _ hc _ _ ht => ht.next hc hS) hs

theorem mem_formatHosts {st : DaosSystemStatus} {host : String} (h : host ∈ formatHosts st) :
    ∃ nc ∈ st.nodeConfigs, nc.controlAddr = host ∧
      (isMember st.ranks nc.node = false ∨ awaitsFormat st.ranks nc.node = true) := by
  simp only [formatHosts, Text.mem_sortStrings, List.mem_map, List.mem_filter] at h
  obtain ⟨nc, ⟨hnc, hneeds⟩, haddr⟩ := h
  simp only [needsFormat, Bool.and_eq_true, Bool.or_eq_true, Bool.not_eq_true'] at hneeds
  exact ⟨nc, hnc, haddr, hneeds.2⟩

/-- A decision to format rests on the status, and names hosts for a formatted system. -/
theorem formatDecision_eq_some {approved : Bool} {st : DaosSystemStatus} {only : List String}
    (h : formatDecision approved st = some only) :
    approved = true ∧ st.pendingFormat = true ∧ (only = [] → st.formatted = false) ∧
      ∀ host ∈ only, host ∈ formatHosts st := by
  unfold formatDecision at h
  split at h
  · next hpending =>
      simp only [Bool.and_eq_true] at hpending
      refine ⟨hpending.1, hpending.2, ?_⟩
      split at h
      · split at h
        · cases h
        · next hosts hne =>
            cases h
            exact ⟨fun hempty => absurd hempty hne, fun _ h => h⟩
      · next hformatted =>
          cases h
          exact ⟨fun _ => by simpa using hformatted, by simp⟩
  · cases h

theorem only_of_formatArgs {only : List String} (h : formatArgs only = formatArgs []) :
    only = [] := by
  cases only with
  | nil => rfl
  | cons host hosts => simp [formatArgs] at h

theorem gated_formatPath {inp : FormatInput} {only : List String} {p : Pass}
    (hjob : inp.serversAllReady = true → FormatJob sys s.world (formatArgs only))
    (hs : GatedLog sys s) :
    (formatPath inp only p).wp cluster rely s (fun _ => GatedLog sys) (GatedLog sys) := by
  unfold formatPath
  refine Prog.wp_ite (fun _ => hs) fun hready => ?_
  refine Prog.wp_bind (A := fun _ => GatedLog sys) (Prog.wp_mapError.mpr ?_) ?_
  · have hkeep : ∀ c f t, (∀ spec, c ≠ .createJob spec) → GatedLog sys t →
        GatedLog sys (cluster.next t c f) := by
      intro c f t hc ht
      refine ht.concat ?_
      intro spec hspec
      exact absurd hspec (hc spec)
    refine Dmg.wp_run (I := GatedLog sys) ?_ hs (fun _ h => h) ?_ (fun _ _ h _ _ => h) ?_
    · intro c f t hc _ ht
      refine hkeep c f t ?_ ht
      rintro spec rfl
      cases hc
    · intro t ht hworld _
      have hcreate : ∀ f, GatedLog sys (cluster.next t
          (.createJob (jobSpec p.sys inp.ns .format (.dmg (formatArgs only)))) f) := by
        intro f
        refine ht.concat ?_
        rintro spec ⟨⟩ _
        rw [hworld]
        exact hjob (by simpa using hready)
      exact Prog.wp_ask (fun _ => hcreate _) fun f _ _ _ => hcreate f
    · intro t job failure ht _ _ _ _
      exact Prog.wp_ask (fun _ => hkeep _ _ t (by simp) ht) fun f _ _ _ => hkeep _ f t (by simp) ht
  · intro res t ht
    refine Prog.wp_ite (fun _ => ht) fun _ => ?_
    refine Prog.wp_bind (Prog.wp_mono (wp_gated _ inp.ns
      (S := { patches := fun _ => true }) rfl (obeys_clearApproval rfl rfl) ht)
      (fun _ _ h => h.2) fun _ h => h) ?_
    intro sys' u hu
    exact Prog.wp_mono (wp_gated "" inp.ns (S := {}) rfl
      (obeys_recordFormat _ only res _) hu) (fun _ _ h => h.2) fun _ h => h

theorem gated_reconcileFormat {inp : FormatInput} {p : Pass} (hg : Gate sys inp p s.world)
    (hs : GatedLog sys s) :
    (reconcileFormat inp p).wp cluster rely s (fun _ => GatedLog sys) (GatedLog sys) := by
  unfold reconcileFormat
  refine Prog.wp_ite (fun _ => hs) fun _ => ?_
  dsimp only
  have hexternal : external p.sys = external sys :=
    hg.patched.proj (f := external) fun s q hq => by cases q <;> rfl
  refine Prog.wp_bind (A := fun sys' t => sys'.name = p.sys.name ∧ GatedLog sys t ∧
    (external sys = false → t = s)) ?_ ?_
  · unfold refuseExternalFormat
    refine Prog.wp_ite (fun hrefuse => ?_) fun _ => ⟨rfl, hs, fun _ => rfl⟩
    have hobeys : ((event p.sys true "FormatRefused"
        ("spec.externalMsReplicas is set: the operator will not format a DAOS system it does " ++
          "not run")).bind fun _ => clearApproval p.sys).Obeys
        (SystemCall p.sys.name inp.ns { patches := fun _ => true })
        (Patched formatScope.patches p.sys) :=
      (obeys_event _ _ _ _).bind fun _ _ => obeys_clearApproval rfl rfl
    refine Prog.wp_mono (wp_gated _ _ rfl hobeys hs) ?_ fun _ h => h
    rintro sys' t ⟨hpatched, ht⟩
    refine ⟨hpatched.name, ht, ?_⟩
    intro hinternal
    simp [hexternal, hinternal] at hrefuse
  · rintro sys' t ⟨hname, ht, hsame⟩
    split
    · next only hdecision =>
        obtain ⟨happroved, hpending, hwhole, hhosts⟩ := formatDecision_eq_some hdecision
        simp only [Bool.and_eq_true, Bool.not_eq_true'] at happroved
        have hinternal : external sys = false := hexternal ▸ happroved.2
        obtain rfl := hsame hinternal
        have hview := gateView_patched hg.patched rfl
        have hann : p.sys.annotations.formatApproved = sys.annotations.formatApproved :=
          congrArg Prod.fst hview
        have hp := congrArg DaosSystemStatus.pendingFormat hg.carried
        have hf := congrArg DaosSystemStatus.formatted hg.carried
        have hranks : p.status.ranks = sys.status.ranks := by
          have hmask := congrArg DaosSystemStatus.ranks hg.carried
          exact hmask
        refine gated_formatPath (fun hready => ?_) ht
        refine ⟨⟨?_, hinternal, ?_, hg.ready hinternal hready⟩, ?_, only, rfl, ?_⟩
        · simpa only [formatApproved, hann] using happroved.1
        · exact Eq.trans (Eq.symm hp) hpending
        · intro hargs
          exact Eq.trans (Eq.symm hf) (hwhole (only_of_formatArgs hargs))
        · intro host hhost
          obtain ⟨nc, hnc, haddr, hneeds⟩ := mem_formatHosts (hhosts host hhost)
          obtain ⟨f, hfacts, hnode, hcontrol⟩ := hg.configs nc hnc
          rw [hnode, hranks] at hneeds
          exact ⟨f, hfacts, hcontrol.symm.trans haddr, hneeds⟩
    · exact Prog.wp_mono (wp_gated _ _
        (S := { jobs := fun k => k = .query, patches := fun _ => true }) rfl
        (obeys_queryPath rfl rfl rfl rfl _) ht) (fun _ _ h => h.2) fun _ h => h

end FormatGate

/-- A reconcile of a system formats under the gate. -/
theorem gatedLog_reconcile {name : String} {w : World} {sys : DaosSystem}
    (hsys : stored w.systems name = some sys) (faults : List Fault) :
    GatedLog sys ⟨(operator.step w (.reconcileSystem name faults)).1,
      (operator.step w (.reconcileSystem name faults)).2⟩ := by
  have hread : ∀ f, GatedLog sys (cluster.next ⟨w, []⟩ (.getSystem name) f) := by
    intro f
    have hstart : GatedLog sys ⟨w, []⟩ := by simp [GatedLog]
    exact hstart.next (.quiet rfl : SystemCall name "" {} _) rfl
  have hwp : (reconcile name).wp cluster (fun _ => True) ⟨w, []⟩
      (fun _ => GatedLog sys) (GatedLog sys) := by
    refine wp_reconcile (fun f _ => hread f) ?_
    intro sys' hsys' _ _
    obtain rfl : sys' = sys := by simpa [hsys] using hsys'.symm
    have hframe : ∀ {S : Scope} {α : Type} {P : α → Prop} {q : Op α} {t : Point Call World},
        S.jobs .format = false → q.Obeys (SystemCall sys'.name (namespaceOf sys') S) P →
        GatedLog sys' t →
        q.wp cluster (fun _ => True) t (fun _ => GatedLog sys') (GatedLog sys') :=
      fun hS hq ht => Prog.wp_mono (wp_gated _ _ hS hq ht) (fun _ _ h => h.2) fun _ h => h
    have hstages : StageProof sys' (fun _ => True) (GatedLog sys') (GatedLog sys')
        fun _ _ => GatedLog sys' :=
      { render := fun c f t hc _ _ ht => ht.next hc rfl
        stop := fun _ h => h
        enter := fun _ _ _ h => h
        cond := fun _ _ _ _ _ h => h
        skip := fun _ _ _ h => h
        upgrade := fun rendered p t hp ht =>
          hframe rfl (hp.carried.obeys_upgrade rendered) ht
        format := fun inp p t hp ht => gated_reconcileFormat hp ht
        rankOp := fun p t hp ht => hframe rfl (obeys_reconcileRankOp hp.patched.name) ht
        engines := fun p t hp ht => hframe rfl (obeys_reconcileEngineRestart hp.name) ht
        write := fun _ p t requeue _ hp ht =>
          hframe (S := { status := true }) rfl (obeys_updateStatus hp.name rfl requeue) ht }
    exact hstages.wp_reconcileSystem (hread _)
  exact Prog.exec_ends hwp faults fun _ _ => trivial

/-! ## Every destructive Job has its gate -/

/-- The words of `dmg pool destroy`. -/
def isPoolDestroy : List String → Bool
  | "pool" :: "destroy" :: _ => true
  | _ => false

/-- The words of `daos cont destroy`. -/
def isContainerDestroy : List String → Bool
  | "cont" :: "destroy" :: _ => true
  | _ => false

/-- A command that destroys data. -/
def isDestructive (args : List String) : Bool :=
  isFormat args || isPoolDestroy args || isContainerDestroy args

theorem system_destructive {kind : JobKind} {args : List String} (h : kind.Runs args)
    (hdestroys : isDestructive args = true) : isFormat args = true := by
  cases kind with
  | format =>
      obtain ⟨only, rfl⟩ := h
      exact isFormat_formatArgs only
  | query | verify | stop | start =>
      rw [show args = _ from h] at hdestroys
      cases hdestroys
  | rankOp =>
      obtain ⟨op, ranks, _, rfl⟩ := h
      cases hdestroys
  | engineStart =>
      obtain ⟨ranks, rfl⟩ := h
      cases hdestroys

theorem pool_destructive {pool : DaosPool} {sys : DaosSystem} {ns : String} {job : Pool.PoolJob}
    (hdestroys : isDestructive (Pool.opSpec pool sys ns job).command.args = true) :
    job = .op .destroy := by
  cases job with
  | query => cases hdestroys
  | op operation =>
      cases operation with
      | destroy => rfl
      | _ => cases hdestroys

theorem isFormat_of_poolCall {pool : DaosPool} {spec : Dmg.RunSpec}
    (h : Pool.PoolCall pool (.createJob spec)) : isFormat spec.command.args = false := by
  generalize hc : Call.createJob spec = c at h
  cases h with
  | quiet hquiet =>
      subst hc
      cases hquiet
  | createJob _ _ _ job _ _ _ =>
      cases hc
      cases job with
      | query => rfl
      | op operation => cases operation <;> rfl
  | _ => cases hc

theorem isFormat_of_containerCall {c : DaosContainer} {spec : Dmg.RunSpec}
    (h : Container.ContainerCall c (.createJob spec)) : isFormat spec.command.args = false := by
  generalize hc : Call.createJob spec = call at h
  cases h with
  | quiet hquiet =>
      subst hc
      cases hquiet
  | createJob _ _ _ job _ =>
      cases hc
      cases job with
      | query => rfl
      | op operation => cases operation <;> rfl
  | _ => cases hc

theorem container_destructive {c : DaosContainer} {pool : DaosPool} {sys : DaosSystem}
    {ns : String} {job : Container.ContJob}
    (hdestroys : isDestructive (Container.opSpec c pool sys ns job).command.args = true) :
    job = .op .destroy := by
  cases job with
  | query => cases hdestroys
  | op operation =>
      cases operation with
      | destroy => rfl
      | _ => cases hdestroys

/-- A reconcile of a pool creates a destructive Job only to destroy the pool it read. -/
theorem pool_gate {pool : DaosPool} {spec : Dmg.RunSpec}
    (hread : pool.destroying = true → pool.deleting = true)
    (hcall : Pool.PoolCall pool (.createJob spec))
    (hdestroys : isDestructive spec.command.args = true) :
    isPoolDestroy spec.command.args = true ∧ Pool.DestroyGate pool := by
  generalize hc : Call.createJob spec = c at hcall
  cases hcall with
  | quiet hquiet =>
      subst hc
      cases hquiet
  | createJob pool' sys ns job hname hspec hdestroy =>
      cases hc
      obtain rfl := pool_destructive hdestroys
      refine ⟨rfl, (hdestroy rfl).resolve_right ?_⟩
      rintro ⟨hlive, hoperation⟩
      have hdeleting := hread (by simp [DaosPool.destroying, hoperation])
      simp [hlive] at hdeleting
  | _ => cases hc

theorem container_gate {cont : DaosContainer} {spec : Dmg.RunSpec}
    (hread : cont.destroying = true → cont.deleting = true)
    (hcall : Container.ContainerCall cont (.createJob spec))
    (hdestroys : isDestructive spec.command.args = true) :
    isContainerDestroy spec.command.args = true ∧ Container.DestroyGate cont := by
  generalize hc : Call.createJob spec = c at hcall
  cases hcall with
  | quiet hquiet =>
      subst hc
      cases hquiet
  | createJob pool sys ns job hdestroy =>
      cases hc
      obtain rfl := container_destructive hdestroys
      refine ⟨rfl, (hdestroy rfl).resolve_right ?_⟩
      rintro ⟨hlive, hoperation⟩
      have hdeleting := hread (by simp [DaosContainer.destroying, hoperation])
      simp [hlive] at hdeleting
  | _ => cases hc

/-- The gate of a destructive Job: what the reconcile that creates it has read. -/
inductive Gated (before : List Event) (x : Entry Call World) (args : List String) :
    Event → Prop where
  | format {name : String} {faults : List Fault} {sys : DaosSystem}
      (hargs : isFormat args = true) (hsys : stored (final before).systems name = some sys)
      (hgate : FormatGate sys x.before)
      (hwhole : args = formatArgs [] → lastAnswer name (history before) = some .unformatted) :
      Gated before x args (.reconcileSystem name faults)
  | pool {name : String} {faults : List Fault} {pool : DaosPool}
      (hargs : isPoolDestroy args = true) (hpool : cached (final before).pools name = some pool)
      (hgate : Pool.DestroyGate pool) :
      Gated before x args (.reconcilePool name faults)
  | container {key : ObjectKey} {faults : List Fault} {c : DaosContainer}
      (hargs : isContainerDestroy args = true)
      (hcont : cached (final before).containers key = some c)
      (hgate : Container.DestroyGate c) : Gated before x args (.reconcileContainer key faults)

/-- In every step of every run, a Job that formats storage is created under its gate, and so
is a Job that destroys a pool or a container where names were reused late. -/
theorem destructive_gated (before : List Event) (e : Event) (x : Entry Call World)
    (hx : x ∈ (operator.record (final before) e).obs) (spec : Dmg.RunSpec)
    (hcreated : created x = some spec) (hdestroys : isDestructive spec.command.args = true)
    (hreused : isFormat spec.command.args = false → Along ReusedLate [] (history before)) :
    Gated before x spec.command.args e := by
  have hcall := eventCall_of_mem hx
  rw [call_of_created hcreated] at hcall
  generalize hc : Call.createJob spec = c at hcall
  cases hcall with
  | read hquiet =>
      subst hc
      cases hquiet
  | system hsys hcall =>
      subst hc
      obtain ⟨kind, -, hspec⟩ := hcall.of_createJob
      have hformat := system_destructive hspec.runs hdestroys
      have hjob := gatedLog_reconcile hsys _ x hx spec hcreated hformat
      refine .format hformat hsys hjob.gate fun hargs => ?_
      exact asksOnlyUnformatted_final _ before _ hsys hjob.gate.pending (hjob.whole hargs)
  | pool hpool hcall =>
      subst hc
      have hinv := destroysDeleted_final before (hreused (isFormat_of_poolCall hcall))
      obtain ⟨hargs, hgate⟩ :=
        pool_gate ((hinv.pools _).destroys _ (cached_mem_versions hpool)) hcall hdestroys
      exact .pool hargs hpool hgate
  | container hcont hcall =>
      subst hc
      have hinv := destroysDeleted_final before (hreused (isFormat_of_containerCall hcall))
      obtain ⟨hargs, hgate⟩ :=
        container_gate ((hinv.containers _).destroys _ (cached_mem_versions hcont)) hcall hdestroys
      exact .container hargs hcont hgate

theorem exists_destructive (log : Log)
    (h : log.any (fun x => (created x).any fun spec => isDestructive spec.command.args) = true) :
    ∃ x ∈ log, ∃ spec, created x = some spec ∧ isDestructive spec.command.args = true := by
  obtain ⟨x, hx, hany⟩ := List.any_eq_true.mp h
  obtain ⟨spec, hspec, hdestroys⟩ := (Option.any_eq_true _ _).mp hany
  exact ⟨x, hx, spec, hspec, hdestroys⟩

/-- A pool is deleted, and its destruction is approved. -/
def doomedRun : List Event :=
  pooledRun ++ [.change (.annotatePool "p" { destroyApproved := some "true" }),
    .change (.deletePool "p"), .change (.deliverPool "p"), .change (.deliverPool "p")]

/-- The destroy of the pool is such a Job. -/
theorem destructive_gated_doomedRun :
    ∃ x ∈ (operator.record (final doomedRun) (.reconcilePool "p" [])).obs, ∃ spec,
      created x = some spec ∧ isDestructive spec.command.args = true ∧
        Gated doomedRun x spec.command.args (.reconcilePool "p" []) := by
  have hreused : Along ReusedLate [] (history doomedRun) := by decide +kernel
  obtain ⟨x, hx, spec, hcreated, hdestroys⟩ := exists_destructive
    (operator.record (final doomedRun) (.reconcilePool "p" [])).obs (by decide +kernel)
  exact ⟨x, hx, spec, hcreated, hdestroys, destructive_gated doomedRun (.reconcilePool "p" []) x hx
    spec hcreated hdestroys fun _ => hreused⟩

/-- The pool is destroyed while its status cannot be written, and created again.  A reconcile
that still reads the old object writes what it knows into the status of the new one. -/
def reusedRun : List Event :=
  doomedRun ++
    [.reconcilePool "p" [.none, .none, .none, .none, .failed "conflict"],
      jobAnswers ⟨"daos-system", "pool-p-dmg-destroy"⟩ "\x7b\"error\":null\x7d",
      .reconcilePool "p" [], .change (.createPool "p" {} { systemRef := "s" }),
      .reconcilePool "p" [], .change (.jobRemoved ⟨"daos-system", "pool-p-dmg-destroy"⟩),
      .change (.deliverPool "p"), .change (.deliverPool "p"), .change (.deliverPool "p")] ++
    poolPass "p"

/-- The new pool is destroyed, although nobody deletes it or approved that. -/
theorem destroys_reused_name :
    ∃ x ∈ (operator.record (final reusedRun) (.reconcilePool "p" [])).obs, ∃ spec,
      created x = some spec ∧ isDestructive spec.command.args = true ∧
        ¬Gated reusedRun x spec.command.args (.reconcilePool "p" []) := by
  have hlive : (cached (final reusedRun).pools "p").any (·.deleting) = false := by decide +kernel
  obtain ⟨x, hx, spec, hcreated, hdestroys⟩ := exists_destructive
    (operator.record (final reusedRun) (.reconcilePool "p" [])).obs (by decide +kernel)
  refine ⟨x, hx, spec, hcreated, hdestroys, fun hgated => ?_⟩
  cases hgated with
  | pool _ hpool hgate => simp [hpool, hgate.1] at hlive

end DaosOperator
