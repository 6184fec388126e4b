import DaosOperator.Steps

/-!
# The ready column of a container

`status.ready` repeats the condition `Ready`.  Most writers set both at once.  The result of
an operation sets the condition alone, which is sound because the start of the operation
cleared the column.  A destroy sets the condition alone as well, but nothing clears the
column before it.
-/

namespace DaosOperator

open Effect

/-! ## The property -/

/-- The column and the condition say the same. -/
def Container.ReadyAgrees (st : DaosContainerStatus) : Prop :=
  st.ready = true ↔ isStatusConditionTrue st.conditions .ready = true
  deriving Decidable

def writtenContainerStatus : Call → Option DaosContainerStatus
  | .updateContainerStatus _ st => some st
  | _ => none

/-- In every status of a container that the step writes, the two say the same. -/
def ReadyColumn (step : Step) : Prop :=
  ∀ x ∈ step.obs, ∀ st ∈ writtenContainerStatus x.call, Container.ReadyAgrees st
  deriving Decidable

/-- The reconcile runs an approved destroy of the container, or reads its result. -/
def Container.destroyDue (w : World) (c : DaosContainer) : Bool :=
  c.deleting && c.finalizer && approvedToDestroy c && c.status.uuid ≠ "" &&
    (cached w.pools c.spec.poolRef).any fun pool =>
      pool.status.uuid ≠ "" && (cached w.systems pool.spec.systemRef).isSome

/-- A container that is destroyed is not read as ready. -/
def DestroysUnready (step : Step) : Prop :=
  ∀ key ∈ step.event.container, ∀ c ∈ cached step.before.containers key,
    Container.destroyDue step.before c = true → c.status.ready = false
  deriving Decidable

namespace Container

open DaosOperator.System (namespaceOf)
open Pool (requeueIdle requeueOp requeueWait requeueFailed aclHash poolLabel)

/-! ## Statuses -/

/-- What every written status keeps: the two say the same, and an operation in progress
cleared the column. -/
structure ReadyKept (st : DaosContainerStatus) : Prop where
  agrees : ReadyAgrees st
  idle : st.operation.isSome = true → st.ready = false

theorem readyKept_initial : ReadyKept {} where
  agrees := by decide
  idle := fun _ => rfl

section
variable {c : DaosContainer} {pool : DaosPool} {sys : DaosSystem} {ns : String}
  {st : DaosContainerStatus} {v : ConditionStatus} {reason msg : String}

theorem isTrue_setCond :
    isStatusConditionTrue (setCond st v reason msg).conditions .ready = decide (v = .isTrue) := by
  have hfind : findStatusCondition (setCond st v reason msg).conditions .ready =
      some ⟨.ready, v, reason, msg⟩ :=
    findStatusCondition_set_self _ ⟨.ready, v, reason, msg⟩
  simp [isStatusConditionTrue, hfind]

theorem readyKept_setC (h : v = .isTrue → st.operation = none) :
    ReadyKept (setC st v reason msg) where
  agrees := by
    simp [ReadyAgrees, setC, isTrue_setCond]
  idle := by
    intro hop
    have hop : st.operation.isSome = true := hop
    have hv : v ≠ .isTrue := by
      intro hv
      rw [h hv] at hop
      cases hop
    simp [setC, hv]

theorem readyKept_setCond (hready : st.ready = false) (hv : v ≠ .isTrue) :
    ReadyKept (setCond st v reason msg) where
  agrees := by
    have hcolumn : (setCond st v reason msg).ready = false := hready
    simp [ReadyAgrees, isTrue_setCond, hcolumn, hv]
  idle := fun _ => hready

/-! ## Programs -/

/-- A status that the call writes is kept. -/
def KeepsReady (call : Call) : Prop :=
  ∀ st ∈ writtenContainerStatus call, ReadyKept st

theorem keepsReady_of_none {call : Call} (h : writtenContainerStatus call = none) :
    KeepsReady call := by
  intro st hst
  rw [h] at hst
  cases hst

theorem keeps_ask {call : Call} (h : writtenContainerStatus call = none) :
    (ask call : Op (Answer call)).Obeys KeepsReady fun _ => True :=
  Prog.obeys_ask (keepsReady_of_none h)

theorem keeps_event (warning : Bool) :
    (event c warning reason msg).Obeys KeepsReady fun _ => True :=
  keeps_ask rfl

theorem keeps_run (spec : Dmg.RunSpec) :
    (Dmg.run spec).Obeys KeepsReady fun _ => True := by
  refine (Dmg.obeys_run spec).mono ?_ fun _ h => h
  intro call hcall
  cases hcall <;> exact keepsReady_of_none rfl

theorem keeps_setFinalizer (present : Bool) (requeue : Duration) :
    (setFinalizer c present requeue).Obeys KeepsReady fun _ => True := by
  refine (keeps_ask rfl).bind fun r _ => ?_
  split <;> trivial

theorem keeps_updateStatus (h : ReadyKept st) (requeue : Duration) :
    (updateStatus c st requeue).Obeys KeepsReady fun _ => True := by
  have hcall : KeepsReady (.updateContainerStatus c.key st) := by
    intro st' hst
    cases hst
    exact h
  exact (Prog.obeys_ask hcall).bind fun _ _ => trivial

theorem keeps_report (hv : v ≠ .isTrue) (requeue : Duration) :
    (updateStatus c (setC st v reason msg) requeue).Obeys KeepsReady fun _ => True :=
  keeps_updateStatus (readyKept_setC fun h => absurd h hv) requeue

theorem keeps_startOp (op : Operation) :
    (startOp c pool sys ns st op).Obeys KeepsReady fun _ => True := by
  refine (keeps_run _).mapError.bind fun _ _ => ?_
  refine (keeps_event _).bind fun _ _ => ?_
  exact keeps_report (by decide) _

theorem keeps_failOp (op : Operation) :
    (failOp c st op msg).Obeys KeepsReady fun _ => True :=
  (keeps_event _).bind fun _ _ => keeps_report (by decide) _

theorem ready_applyOp (env : Dmg.Envelope) (op : Operation) :
    (applyOp c pool st env op).1.ready = st.ready := by
  cases op with
  | create =>
      simp only [applyOp]
      split <;> rfl
  | acl | extend | reintMode | selfHeal | destroy | heal => rfl

/-- The result of an operation: the column was cleared when it started. -/
theorem keeps_finishOp (hready : st.ready = false) (op : Operation) (res : Dmg.Result) :
    (finishOp c pool st op res).Obeys KeepsReady fun _ => True := by
  unfold finishOp
  dsimp only
  split
  · exact keeps_failOp op
  · split
    · exact keeps_failOp op
    · refine Prog.Obeys.bind (P := fun _ => True) ?_ fun _ _ => ?_
      · split
        · exact keeps_event _
        · trivial
      · refine (keeps_ask rfl).bind fun _ _ => keeps_updateStatus ?_ _
        refine readyKept_setCond ?_ (by decide)
        rw [ready_applyOp]
        exact hready

theorem keeps_pollOp (hready : st.ready = false) (op : Operation) :
    (pollOp c pool sys ns st op).Obeys KeepsReady fun _ => True := by
  refine (keeps_run _).mapError.bind fun res _ => ?_
  exact Prog.obeys_ite (fun _ => trivial) fun _ => keeps_finishOp hready op res

theorem keeps_destroyContainer (hready : st.ready = false) :
    (destroyContainer c pool sys ns st).Obeys KeepsReady fun _ => True := by
  refine (keeps_ask rfl).bind fun wait _ => ?_
  refine Prog.obeys_ite (fun _ => trivial) fun _ => ?_
  refine (keeps_run _).mapError.bind fun res _ => ?_
  refine Prog.obeys_ite (fun _ => ?_) fun _ => ?_
  · refine Prog.obeys_ite (fun _ => trivial) fun _ => keeps_updateStatus ?_ _
    exact readyKept_setCond hready (by decide)
  · split
    · refine (keeps_event _).bind fun _ _ => ?_
      refine (keeps_ask rfl).bind fun _ _ => keeps_updateStatus ?_ _
      exact readyKept_setCond hready (by decide)
    · exact (keeps_event _).bind fun _ _ => keeps_setFinalizer false 0

theorem keeps_finalize (hready : c.finalizer = true → approvedToDestroy c = true →
      st.uuid ≠ "" → pool.status.uuid ≠ "" → st.ready = false) :
    (finalize c pool sys ns st).Obeys KeepsReady fun _ => True := by
  unfold finalize
  refine Prog.obeys_ite (fun _ => trivial) fun hfinalizer => ?_
  refine Prog.obeys_ite (fun _ => ?_) fun hgate => ?_
  · refine Prog.Obeys.bind (P := fun _ => True) ?_ fun _ _ => keeps_setFinalizer _ _
    exact Prog.obeys_ite (fun _ => trivial) fun _ => keeps_event _
  · simp only [Bool.or_eq_true, Bool.not_eq_true', decide_eq_true_eq, not_or,
      Bool.not_eq_false] at hfinalizer hgate
    exact keeps_destroyContainer (hready hfinalizer hgate.1.1 hgate.1.2 hgate.2)

theorem keeps_reportUnclean (why : String) :
    (reportUnclean c pool st why).Obeys KeepsReady fun _ => True :=
  (keeps_ask rfl).bind fun _ _ => keeps_report (by decide) _

theorem keeps_rfExceeded (queried : Time) :
    (rfExceeded c pool sys ns st queried).Obeys KeepsReady fun _ => True := by
  refine (keeps_ask rfl).bind fun _ _ => ?_
  split
  · exact keeps_reportUnclean _
  · refine (keeps_ask rfl).bind fun now _ => ?_
    refine Prog.obeys_ite (fun _ => ?_) fun _ => ?_
    · exact (keeps_ask rfl).bind fun _ _ => keeps_reportUnclean _
    · exact (keeps_event _).bind fun _ _ => keeps_reportUnclean _
  · exact (keeps_event _).bind fun _ _ => keeps_startOp .heal

theorem keeps_queryError (h : ReadyKept st) (e : String) :
    (queryError c pool sys ns st e).Obeys KeepsReady fun _ => True := by
  unfold queryError
  split
  · refine Prog.obeys_ite (fun _ => keeps_report (by decide) _) fun _ => ?_
    exact Prog.obeys_ite (fun _ => keeps_updateStatus h _) fun _ => keeps_startOp .create
  · exact keeps_report (by decide) _
  · exact keeps_report (by decide) _

theorem keeps_readInfo (hidle : st.operation = none) (info : Dmg.ContainerInfo)
    (res : Dmg.Result) : (readInfo c pool sys ns info res st).Obeys KeepsReady fun _ => True := by
  refine (keeps_ask rfl).bind fun now _ => ?_
  refine Prog.obeys_ite (fun _ => keeps_startOp .acl) fun _ => ?_
  refine Prog.obeys_ite (fun _ => ?_) fun _ => keeps_report (by decide) _
  refine keeps_updateStatus (readyKept_setC ?_) _
  intro _
  exact hidle

theorem keeps_readQuery (h : ReadyKept st) (hidle : st.operation = none) (res : Dmg.Result) :
    (readQuery c pool sys ns res st).Obeys KeepsReady fun _ => True := by
  unfold readQuery
  refine Prog.obeys_ite (fun _ => ?_) fun _ => ?_
  · exact (keeps_ask rfl).bind fun _ _ => keeps_rfExceeded _
  · split
    · exact keeps_report (by decide) _
    · split
      · exact keeps_queryError h _
      · split
        · exact keeps_report (by decide) _
        · exact keeps_readInfo hidle _ res

theorem keeps_probe (h : ReadyKept st) (hidle : st.operation = none) :
    (probe c pool sys ns st).Obeys KeepsReady fun _ => True := by
  refine (keeps_ask rfl).bind ?_
  rintro (_ | queried) -
  · refine (keeps_ask rfl).bind fun wait _ => ?_
    refine Prog.obeys_ite (fun _ => trivial) fun _ => ?_
    refine (keeps_run _).mapError.bind fun res _ => ?_
    refine Prog.obeys_ite (fun _ => ?_) fun _ => ?_
    · refine keeps_updateStatus ?_ _
      split
      · exact readyKept_setC nofun
      · exact h
    · exact (keeps_ask rfl).bind fun _ _ => keeps_readQuery h hidle res
  · exact keeps_rfExceeded queried

theorem keeps_reconcileIn (h : ReadyKept c.status)
    (hready : c.deleting = true → c.finalizer = true → approvedToDestroy c = true →
      c.status.uuid ≠ "" → pool.status.uuid ≠ "" → c.status.ready = false) :
    (reconcileIn c pool sys).Obeys KeepsReady fun _ => True := by
  unfold reconcileIn
  dsimp only
  refine Prog.obeys_ite (fun _ => keeps_setFinalizer _ _) fun _ => ?_
  refine Prog.obeys_ite (fun hdeleting => ?_) fun _ => ?_
  · exact (keeps_ask rfl).bind fun _ _ => keeps_finalize (hready hdeleting)
  refine Prog.obeys_ite (fun _ => keeps_report (by decide) _) fun _ => ?_
  split
  · next op hop => exact keeps_pollOp (h.idle (by simp [hop])) op
  · next hop => exact keeps_probe h hop

theorem keeps_unreachable (why : String) :
    (unreachable c reason why).Obeys KeepsReady fun _ => True := by
  refine Prog.obeys_ite (fun _ => ?_) fun _ => keeps_report (by decide) _
  refine (keeps_event _).bind fun _ _ => ?_
  exact Prog.obeys_ite (fun _ => keeps_setFinalizer _ _) fun _ => trivial

end

theorem wp_reconcile_keepsReady {w : World} {key : ObjectKey}
    (hkept : ∀ c, cached w.containers key = some c → ReadyKept c.status)
    (hdue : ∀ c, cached w.containers key = some c → destroyDue w c = true →
      c.status.ready = false) :
    (reconcile key).wp cluster (fun _ => True) ⟨w, []⟩
      (fun _ t => ∀ x ∈ t.log, KeepsReady x.call) fun t => ∀ x ∈ t.log, KeepsReady x.call := by
  have hnext : ∀ {call : Call} {t : Point Call World} (f : Fault), KeepsReady call →
      (∀ x ∈ t.log, KeepsReady x.call) → ∀ x ∈ (cluster.next t call f).log, KeepsReady x.call := by
    intro call t f hcall ht x hx
    rcases Handler.mem_next_log hx with hx | rfl
    · exact ht x hx
    · exact hcall
  -- the three objects are read before anything is decided
  have hread : ∀ {call : Call} {t : Point Call World}, call.quiet = true →
      writtenContainerStatus call = none → t.world = w → (∀ x ∈ t.log, KeepsReady x.call) →
      (ask call).wp cluster (fun _ => True) t
        (fun a u => a = (perform call w).1 ∧ u.world = w ∧ ∀ x ∈ u.log, KeepsReady x.call)
        fun u => ∀ x ∈ u.log, KeepsReady x.call := by
    intro call t hquiet hnone hworld ht
    have hcall := keepsReady_of_none hnone
    refine Prog.wp_ask (fun _ => ⟨?_, ?_, hnext .none hcall ht⟩) fun f _ _ _ => hnext f hcall ht
    · rw [hworld]
      rfl
    · rw [Handler.next_world, respond_quiet hquiet, hworld]
  have hprog : ∀ {p : Op Duration} {t : Point Call World}, p.Obeys KeepsReady (fun _ => True) →
      (∀ x ∈ t.log, KeepsReady x.call) → p.wp cluster (fun _ => True) t
        (fun _ u => ∀ x ∈ u.log, KeepsReady x.call) fun u => ∀ x ∈ u.log, KeepsReady x.call := by
    intro p t hp ht
    refine Prog.wp_mono (hp.wp (I := fun u => ∀ x ∈ u.log, KeepsReady x.call)
      (fun _ f _ hcall _ _ hu => hnext f hcall hu) ht) (fun _ _ h => h.2) fun _ h => h
  refine Prog.wp_bind (hread rfl rfl rfl (by simp)) ?_
  rintro (_ | c) t ⟨hcont, hworld, ht⟩
  · exact ht
  refine Prog.wp_bind (hread rfl rfl hworld ht) ?_
  rintro (_ | pool) u ⟨hpool, hworld, hu⟩
  · exact hprog (keeps_unreachable _) hu
  refine Prog.wp_bind (hread rfl rfl hworld hu) ?_
  rintro (_ | sys) v ⟨hsys, -, hv⟩
  · exact hprog (keeps_unreachable _) hv
  refine hprog (keeps_reconcileIn (hkept c hcont.symm) ?_) hv
  intro hdeleting hfinalizer happroved huuid hcreated
  refine hdue c hcont.symm ?_
  have hpool : cached w.pools c.spec.poolRef = some pool := hpool.symm
  have hsys : cached w.systems pool.spec.systemRef = some sys := hsys.symm
  simp [destroyDue, hdeleting, hfinalizer, happroved, huuid, hcreated, hpool, hsys]

end Container

open Container

/-! ## Whole runs -/

theorem eq_of_mem_writtenContainerStatus {c : Call} {st : DaosContainerStatus}
    (h : st ∈ writtenContainerStatus c) : ∃ key, c = .updateContainerStatus key st := by
  unfold writtenContainerStatus at h
  split at h
  · cases h
    exact ⟨_, rfl⟩
  · cases h

/-- What a run keeps: what a reconcile can read of a container is kept. -/
structure ReadyVersions (w : World) : Prop where
  named : WellNamed w
  kept : AllVersions (fun _ (c : DaosContainer) => ReadyKept c.status) w.containers

/-- Only reconciles of containers write statuses of containers. -/
theorem ReadyVersions.keepsReady {w : World} {e : Event} (h : ReadyVersions w)
    (hdue : DestroysUnready (operator.record w e)) {x : Entry Call World}
    (hx : x ∈ (operator.step w e).2) : KeepsReady x.call := by
  intro st hst
  obtain ⟨key, hcall⟩ := eq_of_mem_writtenContainerStatus hst
  obtain ⟨faults, _, rfl, -, -⟩ := move_of_updateContainerStatus h.named hx hcall
  have hwp := wp_reconcile_keepsReady (fun c hc => h.kept.cached hc) (hdue key rfl)
  exact Prog.exec_ends hwp faults (fun _ _ => trivial) x hx st hst

theorem ReadyVersions.step {w : World} {e : Event} (h : ReadyVersions w)
    (hdue : DestroysUnready (operator.record w e)) : ReadyVersions (operator.step w e).1 where
  named := h.named.step e
  kept := by
    intro key c hc
    have hfrom := statusFrom_of_version hc
    generalize c.status = st at hfrom ⊢
    cases hfrom with
    | older hold => exact h.kept key _ hold
    | initial => exact readyKept_initial
    | written hx hcall =>
        refine h.keepsReady hdue hx st ?_
        rw [hcall]
        rfl

/-- Where no container is destroyed while it is ready, every status written says the same in
its column and in its condition. -/
theorem ready_column (events : List Event)
    (h : ∀ step ∈ history events, DestroysUnready step) :
    ∀ step ∈ history events, ReadyColumn step := by
  refine Machine.steps_induction (I := ReadyVersions)
    ⟨wellNamed_empty, allVersions_empty⟩ ?_ events h
  intro w e hkept hdue
  exact ⟨fun x hx st hst => (hkept.keepsReady hdue hx st hst).agrees, hkept.step hdue⟩

/-- A container of the pool is found by its query, and destroyed after these events. -/
def destroyedContainerRun (meanwhile : List Event) : List Event :=
  let key : ObjectKey := ⟨"a", "c"⟩
  pooledRun ++
    [.change (.createContainer key (some "true") { poolRef := "p" }),
      .change (.deliverContainer key)] ++ contPass key ++ contPass key ++
    [jobAnswers ⟨"daos-system", "cont-a-c-daos-query"⟩
      "\x7b\"response\":\x7b\"container_uuid\":\"v\"\x7d\x7d"] ++ contPass key ++ meanwhile ++
    [.change (.tick 3600), .change (.deleteContainer key), .change (.deliverContainer key)] ++
    contPass key

/-- The next query does not find the container. -/
def containerMissing : List Event :=
  [.change (.jobRemoved ⟨"daos-system", "cont-a-c-daos-query"⟩), .change (.tick 3600)] ++
    contPass ⟨"a", "c"⟩ ++
    [jobAnswers ⟨"daos-system", "cont-a-c-daos-query"⟩ "\x7b\"error\":\"not found\"\x7d"] ++
    contPass ⟨"a", "c"⟩

/-- The column at the end of a run. -/
def readyColumn (events : List Event) : Option Bool :=
  (stored (final events).containers ⟨"a", "c"⟩).map (·.status.ready)

/-- A container that is reported missing is destroyed. -/
theorem ready_column_missing :
    readyColumn (destroyedContainerRun containerMissing) = some false ∧
      ∀ step ∈ history (destroyedContainerRun containerMissing), ReadyColumn step := by
  have hrun : readyColumn (destroyedContainerRun containerMissing) = some false ∧
      ∀ step ∈ history (destroyedContainerRun containerMissing), DestroysUnready step := by
    decide +kernel
  exact ⟨hrun.1, ready_column _ hrun.2⟩

/-- A container that is ready is destroyed: the column still says that it is ready. -/
theorem ready_column_destroying :
    readyColumn (destroyedContainerRun []) = some true ∧
      ¬∀ step ∈ history (destroyedContainerRun []), ReadyColumn step := by
  decide +kernel

end DaosOperator
