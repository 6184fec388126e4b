import DaosOperator.Container.Acts
import DaosOperator.Objects

/-!
# What the entries of a step are

The log of a step accounts for what the step does: every entry is a call that its
reconcile justifies, and the world it leaves is the one its entries lead to.
-/

namespace DaosOperator

open Effect

/-- The calls a step from `w` with this log can have issued, and why. -/
inductive StepCall (w : World) (log : Log) : Event → Call → Prop where
  | quiet {e : Event} {c : Call} (h : c.quiet = true) : StepCall w log e c
  | system {name : String} {faults : List Fault} {sys : DaosSystem} {c : Call}
      (hsys : stored w.systems name = some sys)
      (h : System.SystemCall sys.name (System.namespaceOf sys) System.wholeScope c) :
      StepCall w log (.reconcileSystem name faults) c
  | pool {name : String} {faults : List Fault} {pool : DaosPool} {c : Call}
      (hpool : cached w.pools name = some pool) (h : Pool.Act w pool log c) :
      StepCall w log (.reconcilePool name faults) c
  | container {key : ObjectKey} {faults : List Fault} {cont : DaosContainer} {c : Call}
      (hcont : cached w.containers key = some cont) (h : Container.Act w cont log c) :
      StepCall w log (.reconcileContainer key faults) c

/-- Every entry of a step is accounted for. -/
theorem stepCall_of_mem {w : World} {e : Event} {x : Entry Call World}
    (hx : x ∈ (operator.step w e).2) : StepCall w (operator.step w e).2 e x.call := by
  cases e with
  | change c => cases hx
  | reconcileSystem name faults =>
      have hcall := eventCall_of_mem hx
      cases hcall with
      | read h => exact .quiet h
      | system hsys h => exact .system hsys h
  | reconcilePool name faults =>
      have hwp : (Pool.reconcile name).wp cluster (fun _ => True) ⟨w, []⟩ _ _ :=
        Pool.wp_reconcile_acts
      rcases Prog.exec_ends hwp faults (fun _ _ => trivial) x hx with h | ⟨pool, hpool, h⟩
      · exact .quiet h
      · exact .pool hpool h
  | reconcileContainer key faults =>
      have hwp : (Container.reconcile key).wp cluster (fun _ => True) ⟨w, []⟩ _ _ :=
        Container.wp_reconcile_acts
      rcases Prog.exec_ends hwp faults (fun _ _ => trivial) x hx with h | ⟨cont, hcont, h⟩
      · exact .quiet h
      · exact .container hcont h

/-- What a change and every entry of its log keep, a step keeps. -/
theorem step_replay {I : World → Prop} {w : World} {e : Event} (hw : I w)
    (hkeep : ∀ x ∈ (operator.step w e).2, I x.before →
      I (cluster.respond x.call x.fault x.before).2)
    (hchange : ∀ c, e = .change c → I (c.apply w)) :
    I (operator.step w e).1 ∧ ∀ x ∈ (operator.step w e).2, I x.before := by
  cases e with
  | change c => exact ⟨hchange c rfl, by simp [operator]⟩
  | reconcileSystem name faults => exact Prog.exec_replay _ faults hw hkeep
  | reconcilePool name faults => exact Prog.exec_replay _ faults hw hkeep
  | reconcileContainer key faults => exact Prog.exec_replay _ faults hw hkeep

/-- A Job that exists before a step exists at each of its calls. -/
theorem job_of_mem {w : World} {e : Event} {k : ObjectKey} (h : (w.jobs.get k).isSome = true)
    (he : ∀ c, e ≠ .change c) {x : Entry Call World} (hx : x ∈ (operator.step w e).2) :
    (x.before.jobs.get k).isSome = true := by
  refine (step_replay (w := w) (e := e) (I := fun v => (v.jobs.get k).isSome = true) h ?_
    fun c hc => absurd hc (he c)).2 x hx
  intro y _ hy
  have hcall := jobCall y.before k y.call y.fault
  generalize y.call = call at hcall ⊢
  generalize (cluster.respond call y.fault y.before).2.jobs.get k = after at hcall ⊢
  generalize y.before.jobs.get k = before at hcall hy
  cases hcall with
  | same => exact hy
  | created _ _ => rfl
  | marked _ _ => rfl

/-! ## What a reconcile leaves -/

/-- What a reconcile leaves of a stored pool: only its own status moves. -/
structure PoolLeft (w : World) (log : Log) (e : Event) (name : String) (p p' : DaosPool) :
    Prop where
  spec : p'.spec = p.spec
  generation : p'.generation = p.generation
  annotations : p'.annotations = p.annotations
  deleting : p'.deleting = p.deleting
  status : p'.status = p.status ∨ ∃ faults pool, e = .reconcilePool name faults ∧
    cached w.pools name = some pool ∧ Pool.Move w log pool p'.status

section Left

variable {w : World} {e : Event}

/-- The status of a pool is written by its own reconcile. -/
theorem move_of_updatePoolStatus (hw : WellNamed w) {x : Entry Call World} {name : String}
    {st : DaosPoolStatus} (hx : x ∈ (operator.step w e).2)
    (hcall : x.call = .updatePoolStatus name st) :
    ∃ faults pool, e = .reconcilePool name faults ∧ cached w.pools name = some pool ∧
      Pool.Move w (operator.step w e).2 pool st := by
  have h := stepCall_of_mem hx
  rw [hcall] at h
  cases h with
  | quiet h => cases h
  | system _ h =>
      cases h with
      | quiet h => cases h
  | container _ h =>
      cases h with
      | quiet h => cases h
  | pool hpool h =>
      have hname := hw.pools.cached hpool
      cases h with
      | quiet h => cases h
      | status h =>
          subst hname
          exact ⟨_, _, rfl, hpool, h⟩

/-- The status of a container is written by its own reconcile. -/
theorem move_of_updateContainerStatus (hw : WellNamed w) {x : Entry Call World} {key : ObjectKey}
    {st : DaosContainerStatus} (hx : x ∈ (operator.step w e).2)
    (hcall : x.call = .updateContainerStatus key st) :
    ∃ faults cont, e = .reconcileContainer key faults ∧ cached w.containers key = some cont ∧
      Container.Move w (operator.step w e).2 cont st := by
  have h := stepCall_of_mem hx
  rw [hcall] at h
  cases h with
  | quiet h => cases h
  | system _ h =>
      cases h with
      | quiet h => cases h
  | pool _ h =>
      cases h with
      | quiet h => cases h
  | container hcont h =>
      have hname := hw.containers.cached hcont
      cases h with
      | quiet h => cases h
      | status h =>
          subst hname
          exact ⟨_, _, rfl, hcont, h⟩

theorem pool_left (hw : WellNamed w) (he : ∀ c, e ≠ .change c) {name : String} {p' : DaosPool}
    (hp : stored (operator.step w e).1.pools name = some p') :
    ∃ p, stored w.pools name = some p ∧ PoolLeft w (operator.step w e).2 e name p p' := by
  have hreplay := step_replay (w := w) (e := e) (I := fun v => ∀ p',
    stored v.pools name = some p' → ∃ p, stored w.pools name = some p ∧
      PoolLeft w (operator.step w e).2 e name p p')
    (fun p hp => ⟨p, hp, rfl, rfl, rfl, rfl, Or.inl rfl⟩) ?_ fun c hc => absurd hc (he c)
  · exact hreplay.1 p' hp
  · intro x hx hkept p' hp
    rcases (poolCell_call x.before name x.call x.fault).stored with
      hsame | ⟨_, _, hfresh, _⟩ | ⟨cell, hcell, hwrite⟩
    · exact hkept p' (hsame ▸ hp)
    · exact hfresh.elim
    · rw [hp] at hwrite
      generalize hcall : x.call = call at hwrite
      generalize hnew : some p' = new at hwrite
      cases hwrite with
      | status h =>
          cases hnew
          obtain ⟨p, hstored, hleft⟩ := hkept _ (stored_of_cell hcell h)
          exact ⟨p, hstored, { hleft with
            status := Or.inr (move_of_updatePoolStatus hw hx hcall) }⟩
      | finalizer h _ _ =>
          cases hnew
          obtain ⟨p, hstored, hleft⟩ := hkept _ (stored_of_cell hcell h)
          exact ⟨p, hstored, { hleft with }⟩
      | gone _ _ _ => cases hnew

/-- Where a stored pool comes from: it is new, it kept its status, or a reconcile of it wrote
another one. -/
inductive PoolAfter (w : World) (e : Event) (name : String) (p' : DaosPool) : Prop where
  | created (h : stored w.pools name = none) (hstatus : p'.status = {})
      (hlive : p'.deleting = false)
  | same {p : DaosPool} (hp : stored w.pools name = some p) (hstatus : p'.status = p.status)
      (hdeleting : p'.deleting = p.deleting ∨ e = .change (.deletePool name))
  | moved {p pool : DaosPool} {faults : List Fault} (he : e = .reconcilePool name faults)
      (hp : stored w.pools name = some p) (hread : cached w.pools name = some pool)
      (hdeleting : p'.deleting = p.deleting)
      (h : Pool.Move w (operator.step w e).2 pool p'.status)

theorem pool_after (hw : WellNamed w) {name : String} {p' : DaosPool}
    (hp : stored (operator.step w e).1.pools name = some p') : PoolAfter w e name p' := by
  by_cases he : ∃ c, e = .change c
  · obtain ⟨c, rfl⟩ := he
    have hafter : stored (c.apply w).pools name = some p' := hp
    rcases (poolCell_change w name c).stored with hsame | ⟨hnone, p, hnew, hstored⟩ |
      ⟨cell, hcell, hedit⟩
    · exact .same (hsame ▸ hp) rfl (Or.inl rfl)
    · obtain ⟨annotations, spec, -, -, rfl⟩ := hnew
      rw [hafter] at hstored
      cases hstored
      exact .created hnone rfl rfl
    · rw [hafter] at hedit
      generalize hnew : some p' = new at hedit
      cases hedit with
      | edit h _ | refused h | annotate h =>
          cases hnew
          exact .same (stored_of_cell hcell h) rfl (Or.inl rfl)
      | delete h _ =>
          cases hnew
          exact .same (stored_of_cell hcell h) rfl (Or.inr rfl)
      | remove _ _ => cases hnew
  · obtain ⟨p, hstored, hleft⟩ := pool_left hw (fun c hc => he ⟨c, hc⟩) hp
    rcases hleft.status with hstatus | ⟨faults, pool, rfl, hpool, hmove⟩
    · exact .same hstored hstatus (Or.inl hleft.deleting)
    · exact .moved rfl hstored hpool hleft.deleting hmove

/-- Where the status of a version comes from. -/
inductive StatusFrom (w : World) (log : Log) (key : ObjectKey) : DaosContainerStatus → Prop where
  | older {c : DaosContainer} (h : some c ∈ versions w.containers key) :
      StatusFrom w log key c.status
  | initial : StatusFrom w log key {}
  | written {st : DaosContainerStatus} {x : Entry Call World} (hx : x ∈ log)
      (hcall : x.call = .updateContainerStatus key st) : StatusFrom w log key st

theorem statusFrom_of_version {key : ObjectKey} {c : DaosContainer}
    (hc : some c ∈ versions (operator.step w e).1.containers key) :
    StatusFrom w (operator.step w e).2 key c.status := by
  refine (step_replay (w := w) (e := e) (I := fun v => ∀ c,
    some c ∈ versions v.containers key → StatusFrom w (operator.step w e).2 key c.status)
    (fun c hc => .older hc) ?_ ?_).1 c hc
  · intro x hx hkept c hc
    rcases (containerCell_call x.before key x.call x.fault).versions hc with
      hc | hc | ⟨cell, hcell, hwrite⟩
    · exact hkept c hc
    · exact hc.elim
    · generalize hcall : x.call = call at hwrite
      generalize hnew : some c = new at hwrite
      cases hwrite with
      | status _ =>
          cases hnew
          exact .written hx hcall
      | finalizer h _ _ =>
          cases hnew
          have hbefore := hkept _ (stored_mem_versions (stored_of_cell hcell h))
          exact hbefore
      | gone _ _ _ => cases hnew
  · rintro change rfl c hc
    rcases (containerCell_change w key change).versions hc with
      hc | ⟨approved, spec, -, rfl⟩ | ⟨cell, hcell, hedit⟩
    · exact .older hc
    · exact .initial
    · generalize hnew : some c = new at hedit
      cases hedit with
      | edit h | annotate h | delete h _ =>
          cases hnew
          have holder : StatusFrom w [] key _ :=
            .older (stored_mem_versions (stored_of_cell hcell h))
          exact holder
      | remove _ _ => cases hnew

end Left

/-- Where the status of a version of a pool comes from. -/
inductive PoolStatusFrom (w : World) (e : Event) (name : String) : DaosPoolStatus → Prop where
  | older {p : DaosPool} (h : some p ∈ versions w.pools name) : PoolStatusFrom w e name p.status
  | initial : PoolStatusFrom w e name {}
  | moved {faults : List Fault} {pool : DaosPool} {st : DaosPoolStatus}
      (he : e = .reconcilePool name faults) (hpool : cached w.pools name = some pool)
      (h : Pool.Move w (operator.step w e).2 pool st) : PoolStatusFrom w e name st

theorem poolStatusFrom_of_version {w : World} {e : Event} (hw : WellNamed w) {name : String}
    {p : DaosPool} (hp : some p ∈ versions (operator.step w e).1.pools name) :
    PoolStatusFrom w e name p.status := by
  refine (step_replay (w := w) (e := e) (I := fun v => ∀ p,
    some p ∈ versions v.pools name → PoolStatusFrom w e name p.status)
    (fun p hp => .older hp) ?_ ?_).1 p hp
  · intro x hx hkept p hp
    rcases (poolCell_call x.before name x.call x.fault).versions hp with
      hp | hp | ⟨cell, hcell, hwrite⟩
    · exact hkept p hp
    · exact hp.elim
    · generalize hcall : x.call = call at hwrite
      generalize hnew : some p = new at hwrite
      cases hwrite with
      | status _ =>
          cases hnew
          obtain ⟨faults, pool, he, hpool, hmove⟩ := move_of_updatePoolStatus hw hx hcall
          exact .moved he hpool hmove
      | finalizer h _ _ =>
          cases hnew
          have hbefore := hkept _ (stored_mem_versions (stored_of_cell hcell h))
          exact hbefore
      | gone _ _ _ => cases hnew
  · rintro c rfl p hp
    rcases (poolCell_change w name c).versions hp with
      hp | ⟨annotations, spec, -, -, rfl⟩ | ⟨cell, hcell, hedit⟩
    · exact .older hp
    · exact .initial
    · have holder : ∀ p', cell.stored = some p' → PoolStatusFrom w (.change c) name p'.status :=
        fun _ h => .older (stored_mem_versions (stored_of_cell hcell h))
      generalize hnew : some p = new at hedit
      cases hedit with
      | edit h _ | refused h | annotate h | delete h _ =>
          cases hnew
          have hbefore := holder _ h
          exact hbefore
      | remove _ _ => cases hnew

/-! ## Runs to look at -/

def jobAnswers (key : ObjectKey) (output : String) : Event :=
  .change (.jobProgress key [.complete true] [{ name := "pod", created := 0, log := output }])

/-- A reconcile of a pool, and the cache sees what it wrote. -/
def poolPass (name : String) : List Event := [.reconcilePool name [], .change (.deliverPool name)]

/-- A reconcile of a container, and the cache sees what it wrote. -/
def contPass (key : ObjectKey) : List Event :=
  [.reconcileContainer key [], .change (.deliverContainer key)]

/-- A system that is run elsewhere answers its first query. -/
def formattedRun : List Event :=
  [.change (.createSystem "s" {}
      { externalMsReplicas := ["m"], allowInsecure := true, msReplicas := 1 }),
    .change (.setNodes [{ name := "a" }]), .reconcileSystem "s" [],
    jobAnswers ⟨"daos-system", "s-dmg-query"⟩
      "\x7b\"response\":\x7b\"members\":[\x7b\"state\":\"joined\"\x7d]\x7d\x7d",
    .reconcileSystem "s" [],
    .change (.deliverSystem "s"), .change (.deliverSystem "s"), .change (.deliverSystem "s")]

/-- A new pool of that system, up to its first query. -/
def queriedRun (spec : DaosPoolSpec) : List Event :=
  formattedRun ++ [.change (.createPool "p" {} spec), .change (.deliverPool "p")] ++
    poolPass "p" ++ poolPass "p"

/-- The query finds the pool. -/
def pooledRun : List Event :=
  queriedRun { systemRef := "s" } ++
    [jobAnswers ⟨"daos-system", "pool-p-dmg-query"⟩
      "\x7b\"response\":\x7b\"uuid\":\"u\"\x7d\x7d"] ++ poolPass "p"

/-- What a query says about a pool that is whole, with this reintegration mode. -/
def wholeOutput (mode : String) : String :=
  "\x7b\"response\":\x7b\"uuid\":\"u\",\"state\":\"Ready\",\"rebuild\":\x7b\"state\":" ++
    "\"idle\"\x7d\x7d\x7d" ++
    "\x7b\"response\":[\x7b\"name\":\"reintegration\",\"value\":\"" ++ mode ++ "\"\x7d]\x7d"

/-- A pool whose containers may be cleared is queried again: the Job starts, and answers. -/
def poolQueried (output : String) : List Event :=
  .change (.jobRemoved ⟨"daos-system", "pool-p-dmg-query"⟩) :: .change (.tick 60) ::
    poolPass "p" ++ jobAnswers ⟨"daos-system", "pool-p-dmg-query"⟩ output :: poolPass "p"

/-- A new pool whose containers may be cleared, and its first query. -/
def clearingPool : List Event :=
  [.change (.createPool "p" { autoClearUnclean := some "true" } { systemRef := "s" }),
    .change (.deliverPool "p")] ++ poolPass "p" ++ poolQueried (wholeOutput "incremental")

/-- A new container of that pool, up to its first query. -/
def newContainer : List Event :=
  [.change (.createContainer ⟨"a", "c"⟩ none { poolRef := "p" }),
    .change (.deliverContainer ⟨"a", "c"⟩)] ++ contPass ⟨"a", "c"⟩ ++ contPass ⟨"a", "c"⟩

/-- DAOS refuses to open the container. -/
def refuses : List Event :=
  jobAnswers ⟨"daos-system", "cont-a-c-daos-query"⟩ "DER_RF(-2031)" :: contPass ⟨"a", "c"⟩

/-- A container that DAOS refuses to open while its pool is whole. -/
def refusedRun : List Event :=
  formattedRun ++ clearingPool ++ [.change (.tick 10)] ++ newContainer ++ refuses

end DaosOperator
