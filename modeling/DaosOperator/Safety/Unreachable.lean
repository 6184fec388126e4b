import DaosOperator.Effect.Failure
import DaosOperator.JsonString
import DaosOperator.Safety.PoolIdentity
import DaosOperator.Safety.QueryOutput

/-!
# Messages that say the service cannot be reached

`Classify` looks for markers in an error message, and the markers of an unformatted system
and of a missing object are looked for first.  A message that also says that something
could not be reached is then taken as proof that the storage is unformatted, or that the
pool or the container does not exist.
-/

namespace DaosOperator

open Effect
open DaosOperator.System (namespaceOf)

variable {w : World} {res : Dmg.Result} {faults : List Fault} {pool : DaosPool} {sys : DaosSystem}

/-! ## The property -/

namespace Dmg

/-- The markers that `Classify` takes for an unformatted system. -/
def unformattedMarkers : List String :=
  ["system is uninitialized", "storage format required", "raft service unavailable"]

/-- The markers that `Classify` takes for a missing object. -/
def notFoundMarkers : List String :=
  ["unable to find pool service with label", "der_nonexist", "does not exist", "not found"]

/-- The markers that `Classify` takes for a service that cannot be reached. -/
def unreachableMarkers : List String :=
  ["unable to contact the daos management service", "connection refused", "no route to host",
    "deadline exceeded", "i/o timeout", "der_unreach", "unreachable node",
    "refused the connection"]

/-- The message contains one of the markers. -/
def mentions (msg : String) (markers : List String) : Bool :=
  markers.any fun marker => Text.contains (Text.toLower msg) marker

/-- The message of the first envelope of an output. -/
def firstError (out : String) : Option String :=
  match parseAll out with
  | .ok (env :: _) => env.error
  | _ => none

/-- The message of the answer of a Job. -/
def answerError (res : Result) : Option String :=
  match System.parseResult res with
  | .ok env => env.error
  | .error _ => none

end Dmg

/-- The message that the query of a pool is decided on: that of the health-only form when the
full query timed out. -/
def Pool.answerError (res : Dmg.Result) : Option String :=
  match System.parseResult res with
  | .ok first => (queryEnvelope first res.output).1.error
  | .error _ => none

/-- No Job in the log creates a pool or a container. -/
def NoCreate (log : Log) : Prop :=
  ∀ x ∈ log, ∀ spec, x.call = .createJob spec → isCreate spec.command.args = false

/-- Nobody takes the message as proof that something does not exist.  A query that answers
with it leaves a system formatted and creates no pool and no container; a destroy that
answers with it takes off no finalizer. -/
structure NeverAbsent (msg : String) : Prop where
  system : ∀ (inp : System.FormatInput) (p : System.Pass) (w : World) (faults : List Fault)
    (res : Dmg.Result) (r : Duration × System.Pass),
    Dmg.resultOf w (System.jobKey p.sys.name inp.ns .query) = some res →
    Dmg.firstError res.output = some msg → p.status.formatted = true →
    ((System.reconcileFormat inp p).exec cluster faults w).result = .ok r →
    r.2.status.formatted = true
  pool : ∀ (w : World) (name : String) (faults : List Fault) (pool : DaosPool) (sys : DaosSystem)
    (res : Dmg.Result), cached w.pools name = some pool → pool.status.operation = none →
    cached w.systems pool.spec.systemRef = some sys →
    Dmg.resultOf w (Pool.jobKey pool.name (namespaceOf sys) .query) = some res →
    Pool.answerError res = some msg → NoCreate (operator.step w (.reconcilePool name faults)).2
  container : ∀ (w : World) (key : ObjectKey) (faults : List Fault) (c : DaosContainer)
    (pool : DaosPool) (sys : DaosSystem) (res : Dmg.Result),
    cached w.containers key = some c → c.status.operation = none → Container.Reaches w c pool sys →
    Dmg.resultOf w (Container.jobKey c.key (namespaceOf sys) .query) = some res →
    Dmg.answerError res = some msg → NoCreate (operator.step w (.reconcileContainer key faults)).2
  poolDestroy : ∀ (w : World) (name : String) (faults : List Fault) (pool : DaosPool)
    (sys : DaosSystem) (res : Dmg.Result), cached w.pools name = some pool →
    Pool.DestroyGate pool → cached w.systems pool.spec.systemRef = some sys →
    Dmg.resultOf w (Pool.jobKey pool.name (namespaceOf sys) (.op .destroy)) = some res →
    Dmg.answerError res = some msg →
    ∀ x ∈ (operator.step w (.reconcilePool name faults)).2,
      x.call ≠ .setPoolFinalizer pool.name false
  containerDestroy : ∀ (w : World) (key : ObjectKey) (faults : List Fault) (c : DaosContainer)
    (pool : DaosPool) (sys : DaosSystem) (res : Dmg.Result),
    cached w.containers key = some c → Container.Destroys w c pool sys →
    Dmg.resultOf w (Container.jobKey c.key (namespaceOf sys) (.op .destroy)) = some res →
    Dmg.answerError res = some msg →
    ∀ x ∈ (operator.step w (.reconcileContainer key faults)).2,
      x.call ≠ .setContainerFinalizer c.key false

/-! ## The kinds of a message -/

namespace Dmg

theorem toLower_ne_empty_of_mentions {msg : String}
    (h : mentions msg unreachableMarkers = true) : Text.toLower msg ≠ "" := by
  intro hempty
  rw [mentions, hempty] at h
  revert h
  decide

theorem classify_of_mentions {msg : String} (h : mentions msg unreachableMarkers = true)
    (htimeout : Text.hasPrefix msg timeoutError = false) :
    classify msg = if mentions msg unformattedMarkers then .unformatted
      else if mentions msg notFoundMarkers then .notFound else .unreachable := by
  have hne := toLower_ne_empty_of_mentions h
  simp only [mentions, unreachableMarkers, List.any_cons, List.any_nil, Bool.or_false,
    ← Bool.or_assoc] at h
  simp only [classify, hne, htimeout, h, mentions, unformattedMarkers, notFoundMarkers,
    List.any_cons, List.any_nil, Bool.or_false, ← Bool.or_assoc, if_false, if_true,
    Bool.false_eq_true]

end Dmg

/-! ## What is made of an answer -/

section Answer
variable {msg : String} {res : Dmg.Result}

theorem Pool.queryAnswer_ne_absent (h : Pool.answerError res = some msg)
    (hkind : Dmg.classify msg = .unreachable) : Pool.queryAnswer res ≠ .absent := by
  unfold Pool.answerError at h
  unfold Pool.queryAnswer
  cases hparse : System.parseResult res with
  | error e => simp
  | ok first =>
      simp only [hparse] at h
      simp [Pool.envelopeAnswer, h, hkind]

theorem Container.queryAnswer_ne_absent (h : Dmg.answerError res = some msg)
    (hkind : Dmg.classify msg = .unreachable) : Container.queryAnswer res ≠ .absent := by
  unfold Dmg.answerError at h
  unfold Container.queryAnswer
  split
  · simp
  · cases hparse : System.parseResult res with
    | error e => simp
    | ok env =>
        simp only [hparse] at h
        simp [Container.envelopeAnswer, h, hkind]

theorem Pool.destroyFailure_of_error (h : Dmg.answerError res = some msg) :
    Pool.destroyFailure res = if Dmg.classify msg = .notFound then none else some msg := by
  unfold Dmg.answerError at h
  unfold Pool.destroyFailure
  cases hparse : System.parseResult res with
  | error e => simp [hparse] at h
  | ok env =>
      simp only [hparse] at h
      simp [h]

theorem System.formatted_readQuery (h : Dmg.firstError res.output = some msg)
    (hkind : Dmg.classify msg = .unreachable) (sys : DaosSystem) (inp : FormatInput)
    (approved : Bool) (now : Time) (st : DaosSystemStatus) :
    (readQuery sys inp approved now res st).status.formatted = st.formatted := by
  have hmembership : ∀ (env : Dmg.Envelope) leader st, env.error = some msg →
      (readMembership sys inp approved (res.queriedAt now) env leader st).status.formatted =
        st.formatted := by
    intro env leader st henv
    unfold readMembership
    simp only [henv, hkind]
    rfl
  unfold Dmg.firstError at h
  unfold readQuery
  split
  · rfl
  · split
    · rfl
    · rfl
    · next hparse =>
        rw [hparse] at h
        exact hmembership _ none st h
    · next env leader rest hparse =>
        rw [hparse] at h
        exact hmembership env (some leader) (setMsCondition st leader).1 h

end Answer

namespace System

theorem formatted_formatPath (inp : FormatInput) (only : List String) (p : Pass)
    (h : p.status.formatted = true) :
    (formatPath inp only p).Obeys (fun _ => True) fun r => r.2.status.formatted = true := by
  refine (obeys_formatPath_ends inp only p).mono (fun _ h => h) ?_
  rintro r (⟨v, reason, msg, -, hst⟩ | ⟨msg, now, hst⟩ | ⟨now, hst⟩) <;> rw [hst]
  · exact h
  · exact h
  · rfl

/-- A query that says that the service cannot be reached leaves the system formatted. -/
theorem wp_reconcileFormat_formatted {inp : FormatInput} {p : Pass}
    {msg : String} (hres : Dmg.resultOf w (jobKey p.sys.name inp.ns .query) = some res)
    (herror : Dmg.firstError res.output = some msg) (hkind : Dmg.classify msg = .unreachable)
    (h : p.status.formatted = true) :
    (reconcileFormat inp p).wp cluster (fun _ => True) ⟨w, []⟩
      (fun r _ => r.2.status.formatted = true) fun _ => True := by
  obtain ⟨job, hjob, hfinished⟩ := Option.bind_eq_some_iff.mp hres
  cases hdecision : formatDecision (formatApproved p.sys && !external p.sys) p.status with
  | none =>
      refine Prog.wp_mono (wp_reconcileFormat_readsJob hjob hdecision) ?_ fun _ h => h
      rintro r t (hsame | ⟨sys, approved, now, failure, hstatus⟩)
      · exact (congrArg Membership.formatted hsame).trans h
      · have houtput : (Dmg.jobResult failure job).output = res.output := by
          split at hfinished
          · cases hfinished
          · obtain ⟨failure', -, rfl⟩ := Option.map_eq_some_iff.mp hfinished
            unfold Dmg.jobResult
            split <;> rfl
        rw [hstatus, formatted_readQuery (houtput ▸ herror) hkind, h]
  | some only =>
      refine Prog.wp_ite (fun _ => h) fun _ => ?_
      dsimp only
      refine Prog.wp_bind (A := fun _ _ => True)
        (Prog.wp_mono (Prog.wp_log _) (fun _ _ _ => trivial) fun _ _ => trivial) ?_
      intro sys t _
      rw [hdecision]
      have hpath := formatted_formatPath inp only { p with sys } h
      exact Prog.wp_mono (hpath.wp (I := fun _ => True) (fun _ _ _ _ _ _ _ => trivial) trivial)
        (fun _ _ h => h.1) fun _ h => h

end System

/-- Why a container is created: the query says that it does not exist, or a create is polled. -/
theorem Container.Act.of_create {log : Log} {c : DaosContainer} {spec : Dmg.RunSpec}
    (h : Act w c log (.createJob spec)) (hcreate : isCreate spec.command.args = true) :
    (∃ pool sys res, Creates w log c pool sys res) ∨ c.status.operation = some .create := by
  generalize hcall : Call.createJob spec = call at h
  cases h with
  | quiet h =>
      subst hcall
      cases h
  | @polls pool sys op _ hop =>
      cases hcall
      cases op with
      | create => exact Or.inr hop
      | _ => cases hcreate
  | creates h => exact Or.inl ⟨_, _, _, h⟩
  | query _ | drifts _ _ | heals _ _ | destroys _ =>
      cases hcall
      cases hcreate
  | _ => cases hcall

/-! ## A message without a marker of absence -/

section Kept
variable {msg : String}

theorem pool_noCreate (hkind : Dmg.classify msg = .unreachable) {name : String}
    (hpool : cached w.pools name = some pool) (hidle : pool.status.operation = none)
    (hsys : cached w.systems pool.spec.systemRef = some sys)
    (hres : Dmg.resultOf w (Pool.jobKey pool.name (namespaceOf sys) .query) = some res)
    (herror : Pool.answerError res = some msg) :
    NoCreate (operator.step w (.reconcilePool name faults)).2 := by
  intro x hx spec hcall
  by_contra hcreate
  have hcreate : isCreate spec.command.args = true := by simpa using hcreate
  have h := stepCall_of_mem hx
  rw [hcall] at h
  cases h with
  | quiet h => cases h
  | pool hread h =>
      cases hpool.symm.trans hread
      rcases h.of_create hcreate with ⟨sys', res', h⟩ | hop
      · cases hsys.symm.trans h.system
        cases hres.symm.trans h.read.1
        exact Pool.queryAnswer_ne_absent herror hkind h.absent
      · rw [hidle] at hop
        cases hop

theorem container_noCreate (hkind : Dmg.classify msg = .unreachable) {key : ObjectKey}
    {c : DaosContainer} (hcont : cached w.containers key = some c)
    (hidle : c.status.operation = none) (hreach : Container.Reaches w c pool sys)
    (hres : Dmg.resultOf w (Container.jobKey c.key (namespaceOf sys) .query) = some res)
    (herror : Dmg.answerError res = some msg) :
    NoCreate (operator.step w (.reconcileContainer key faults)).2 := by
  intro x hx spec hcall
  by_contra hcreate
  have hcreate : isCreate spec.command.args = true := by simpa using hcreate
  have h := stepCall_of_mem hx
  rw [hcall] at h
  cases h with
  | quiet h => cases h
  | container hread h =>
      cases hcont.symm.trans hread
      rcases h.of_create hcreate with ⟨pool', sys', res', h⟩ | hop
      · cases hreach.inPool.symm.trans h.inPool
        cases hreach.inSystem.symm.trans h.inSystem
        cases hres.symm.trans h.read.1
        exact Container.queryAnswer_ne_absent herror hkind h.absent
      · rw [hidle] at hop
        cases hop

theorem destroyFailure_ne_none (hkind : Dmg.classify msg = .unreachable)
    (herror : Dmg.answerError res = some msg) : Pool.destroyFailure res ≠ none := by
  simp [Pool.destroyFailure_of_error herror, hkind]

theorem pool_keepsFinalizer (hkind : Dmg.classify msg = .unreachable) {name : String}
    (hpool : cached w.pools name = some pool) (hgate : Pool.DestroyGate pool)
    (hsys : cached w.systems pool.spec.systemRef = some sys)
    (hres : Dmg.resultOf w (Pool.jobKey pool.name (namespaceOf sys) (.op .destroy)) = some res)
    (herror : Dmg.answerError res = some msg) :
    ∀ x ∈ (operator.step w (.reconcilePool name faults)).2,
      x.call ≠ .setPoolFinalizer pool.name false := by
  intro x hx hcall
  have h := stepCall_of_mem hx
  rw [hcall] at h
  cases h with
  | quiet h => cases h
  | pool hread h =>
      cases hpool.symm.trans hread
      cases h with
      | quiet h => cases h
      | releases _ _ hrelease =>
          rcases hrelease with happroved | huuid
          · simp [Pool.destroyApproved, hgate.2.1] at happroved
          · exact hgate.2.2 huuid
      | destroyed h =>
          cases hsys.symm.trans h.system
          cases hres.symm.trans h.read.1
          exact destroyFailure_ne_none hkind herror h.succeeded

theorem container_keepsFinalizer (hkind : Dmg.classify msg = .unreachable)
    {key : ObjectKey} {c : DaosContainer} (hcont : cached w.containers key = some c)
    (hdestroys : Container.Destroys w c pool sys)
    (hres : Dmg.resultOf w (Container.jobKey c.key (namespaceOf sys) (.op .destroy)) = some res)
    (herror : Dmg.answerError res = some msg) :
    ∀ x ∈ (operator.step w (.reconcileContainer key faults)).2,
      x.call ≠ .setContainerFinalizer c.key false := by
  intro x hx hcall
  have h := stepCall_of_mem hx
  rw [hcall] at h
  cases h with
  | quiet h => cases h
  | container hread h =>
      cases hcont.symm.trans hread
      cases h with
      | quiet h => cases h
      | releases h _ hrelease =>
          cases hdestroys.inPool.symm.trans h.inPool
          rcases hrelease with happroved | huuid | huuid
          · simp [Container.approvedToDestroy, hdestroys.gate.2.1] at happroved
          · exact hdestroys.gate.2.2 huuid
          · exact hdestroys.created huuid
      | orphans h _ =>
          rcases h with hnone | ⟨pool', hpool', hnone⟩
          · cases hdestroys.inPool.symm.trans hnone
          · cases hdestroys.inPool.symm.trans hpool'
            cases hdestroys.inSystem.symm.trans hnone
      | destroyed h =>
          cases hdestroys.inPool.symm.trans h.inPool
          cases hdestroys.inSystem.symm.trans h.inSystem
          cases hres.symm.trans h.read.1
          exact destroyFailure_ne_none hkind herror h.succeeded

theorem neverAbsent_of_unreachable (hkind : Dmg.classify msg = .unreachable) :
    NeverAbsent msg where
  system _ _ _ _ _ _ hres herror hformatted hexec :=
    Prog.exec_ok_of_wp (System.wp_reconcileFormat_formatted hres herror hkind hformatted)
      (fun _ _ => trivial) hexec
  pool _ _ _ _ _ _ := pool_noCreate hkind
  container _ _ _ _ _ _ _ := container_noCreate hkind
  poolDestroy _ _ _ _ _ _ := pool_keepsFinalizer hkind
  containerDestroy _ _ _ _ _ _ _ := container_keepsFinalizer hkind

end Kept

/-! ## A message with a marker of absence -/

def doomedPool : DaosPool where
  name := "p"
  annotations := { destroyApproved := some "true" }
  finalizer := true
  deleting := true
  spec := { systemRef := "s" }
  status := { uuid := "u" }

def destroyJob (log : String) : Job where
  uid := 0
  spec := Pool.opSpec doomedPool { name := "s" } (namespaceOf { name := "s" }) (.op .destroy)
  created := 0
  conditions := [.complete true]
  pods := [{ name := "destroy", created := 0, log }]

/-- The cluster with that Job. -/
def destroyWorld (log : String) : World where
  systems := Table.empty.put "s" (some ⟨some { name := "s" }, []⟩)
  pools := Table.empty.put "p" (some ⟨some doomedPool, []⟩)
  jobs := Table.empty.put (Pool.jobKey "p" (namespaceOf { name := "s" }) (.op .destroy))
    (some (destroyJob log))

abbrev Releases (c : Call) : Prop := c = .setPoolFinalizer "p" false

/-- A destroy that succeeded takes it off. -/
theorem releases_of_destroyed {log : String}
    (h : Pool.destroyFailure (Dmg.jobResult "" (destroyJob log)) = none) :
    ∃ x ∈ (operator.step (destroyWorld log) (.reconcilePool "p" [])).2, Releases x.call := by
  have hjob : (destroyWorld log).jobs.get
      (Pool.jobKey "p" (namespaceOf { name := "s" }) (.op .destroy)) = some (destroyJob log) :=
    Table.get_put_self ..
  have hwp : (Pool.reconcile "p").wp cluster (fun e => e.fault = .none) ⟨destroyWorld log, []⟩
      (fun _ t => ∃ x ∈ t.log, Releases x.call) fun t => ∃ x ∈ t.log, Releases x.call := by
    refine Prog.wp_answered (fun _ _ hnone => hnone) ?_
    refine Prog.wp_answered (fun _ _ hnone => hnone) ?_
    change (Pool.destroyPool doomedPool { name := "s" } (namespaceOf { name := "s" })
      doomedPool.status).wp cluster _ _ _ _
    refine Prog.wp_bind (A := fun res _ => res = Dmg.jobResult "" (destroyJob log))
      (Prog.wp_mapError.mpr (Dmg.wp_run_finished (fun _ hnone => hnone) hjob rfl rfl
        fun _ => rfl)) ?_
    rintro _ t rfl
    refine Prog.wp_ite (fun hdone => ?_) fun _ => ?_
    · simp [Dmg.done_jobResult] at hdone
    rw [h]
    refine Prog.wp_answered (fun _ _ hnone => hnone) ?_
    have hmakes : (Pool.setFinalizer doomedPool false 0).Makes Releases := Or.inl rfl
    exact hmakes.wp fun _ hnone => hnone
  exact Prog.exec_ends hwp [] (Prog.fault_of_exec_nil _)

section Absent
variable {msg : String}

theorem destroyResult_error (msg : String) :
    Dmg.answerError (Dmg.jobResult "" (destroyJob (Dmg.errorOutput msg))) = some msg := by
  have hresult : (Dmg.jobResult "" (destroyJob (Dmg.errorOutput msg))).output =
      Dmg.errorOutput msg := rfl
  simp [Dmg.answerError, System.parseResult, hresult, Dmg.parse_errorOutput,
    show (Dmg.jobResult "" (destroyJob (Dmg.errorOutput msg))).failure = "" from rfl]

theorem NeverAbsent.not_notFound (h : NeverAbsent msg) : Dmg.classify msg ≠ .notFound := by
  intro hkind
  have hfailure := Pool.destroyFailure_of_error (destroyResult_error msg)
  rw [if_pos hkind] at hfailure
  obtain ⟨x, hx, hcall⟩ := releases_of_destroyed hfailure
  exact h.poolDestroy _ "p" [] doomedPool { name := "s" } _ rfl ⟨rfl, rfl, by decide⟩ rfl rfl
    (destroyResult_error msg) x hx hcall

theorem NeverAbsent.not_unformatted (h : NeverAbsent msg) : Dmg.classify msg ≠ .unformatted := by
  intro hkind
  obtain ⟨r, now, hexec, hstatus⟩ :=
    System.exec_reconcileFormat_answered (Dmg.errorOutput msg) { formatted := true }
  have hreset : r.2.status.formatted = false := by
    rw [hstatus]
    have houtput : (Dmg.jobResult "" (System.answeredJob (Dmg.errorOutput msg))).output =
      Dmg.errorOutput msg := rfl
    simp only [System.readQuery, houtput, Dmg.parseAll_errorOutput, System.readMembership, hkind]
    rfl
  have hkept := h.system _ _ _ _ _ r rfl (by
    change Dmg.firstError (Dmg.errorOutput msg) = some msg
    simp [Dmg.firstError, Dmg.parseAll_errorOutput]) rfl hexec
  rw [hreset] at hkept
  cases hkept

end Absent

/-- A message that says that the service cannot be reached is never taken as proof that
something does not exist exactly if it has no marker of an unformatted system or of a missing
object. -/
theorem unreachable_never_absent {msg : String}
    (hmarked : Dmg.mentions msg Dmg.unreachableMarkers = true)
    (htimeout : Text.hasPrefix msg Dmg.timeoutError = false) :
    NeverAbsent msg ↔
      Dmg.mentions msg (Dmg.unformattedMarkers ++ Dmg.notFoundMarkers) = false := by
  have hclassify := Dmg.classify_of_mentions hmarked htimeout
  have hsplit : Dmg.mentions msg (Dmg.unformattedMarkers ++ Dmg.notFoundMarkers) =
      (Dmg.mentions msg Dmg.unformattedMarkers || Dmg.mentions msg Dmg.notFoundMarkers) :=
    List.any_append ..
  rw [hsplit]
  cases hunformatted : Dmg.mentions msg Dmg.unformattedMarkers with
  | true =>
      rw [hunformatted, if_pos rfl] at hclassify
      exact iff_of_false (fun h => h.not_unformatted hclassify) (by simp)
  | false =>
      cases hnotFound : Dmg.mentions msg Dmg.notFoundMarkers with
      | true =>
          simp only [hunformatted, hnotFound, Bool.false_eq_true, if_false, if_true] at hclassify
          exact iff_of_false (fun h => h.not_notFound hclassify) (by simp)
      | false =>
          simp only [hunformatted, hnotFound, Bool.false_eq_true, if_false] at hclassify
          exact iff_of_true (neverAbsent_of_unreachable hclassify) rfl

theorem unreachable_never_absent_refused :
    NeverAbsent "rpc error: connection refused" :=
  (unreachable_never_absent (by decide) (by decide)).mpr (by decide)

/-- The service is not reached because the name of its host is not known. -/
def hostNotFound : String := "unable to contact the DAOS Management Service: host not found"

/-- The destroy of a pool answers with it. -/
def unreachedDestroy : List Event :=
  pooledRun ++ [.change (.annotatePool "p" { destroyApproved := some "true" }),
    .change (.deliverPool "p"), .change (.deletePool "p"), .change (.deliverPool "p")] ++
    poolPass "p" ++
    [jobAnswers ⟨"daos-system", "pool-p-dmg-destroy"⟩ (Dmg.errorOutput hostNotFound)]

/-- The next reconcile takes the finalizer off, as if the pool had been destroyed. -/
theorem unreachable_taken_for_absent :
    Dmg.mentions hostNotFound Dmg.unreachableMarkers = true ∧
      Text.hasPrefix hostNotFound Dmg.timeoutError = false ∧
      releases (operator.record (final unreachedDestroy) (.reconcilePool "p" []))
        (.pool "p") = true ∧
      ¬NeverAbsent hostNotFound := by
  refine ⟨by decide, by decide, by decide +kernel, ?_⟩
  intro h
  exact h.not_notFound (by decide)

end DaosOperator
