import DaosOperator.Safety.Lifetimes

/-!
# The evidence against a container

A container is healed, or reported as unclean, because DAOS refused to open it.  The
refusal is read from a query Job, and may be remembered until the pool was queried again;
both are found by name, so an object that is created again can come by the evidence
against an earlier one.
-/

namespace DaosOperator

open Effect
open DaosOperator.System (namespaceOf)
open Container (contKey)

/-! ## The property -/

/-- The step creates the object. -/
def appears (r : Step) (o : Owned) : Bool := (face r.before o).isNone && (face r.after o).isSome

/-- The steps since the object was created; a reconcile may still read one that is gone. -/
def era (past : List Step) (o : Owned) : List Step := past.takeWhile fun r => !appears r o

def isContainerQuery : List String → Bool
  | "cont" :: "query" :: _ => true
  | _ => false

/-- The words that declare a container healthy. -/
def isHeal : List String → Bool
  | "cont" :: "set-prop" :: _ => true
  | _ => false

/-- The Jobs a step reads that answered `DER_RF`. -/
def refusedJobs (key : ObjectKey) (r : Step) : List (ObjectKey × Nat) :=
  if r.event.owned = some (.container key) then
    r.obs.filterMap fun x =>
      match x.call with
      | .deleteJob k =>
          if x.fault = .none ∧
              (Dmg.resultOf r.before k).any (fun res => Dmg.rfExceeded res.output) then
            (r.before.jobs.get k).map fun job => (k, job.uid)
          else none
      | _ => none
  else []

theorem mem_refusedJobs {key k : ObjectKey} {r : Step} {x : Entry Call World} {res : Dmg.Result}
    {job : Job} (ho : r.event.owned = some (.container key)) (hx : x ∈ r.obs)
    (hcall : x.call = .deleteJob k) (hfault : x.fault = .none)
    (hres : Dmg.resultOf r.before k = some res) (hrf : Dmg.rfExceeded res.output = true)
    (hjob : r.before.jobs.get k = some job) : (k, job.uid) ∈ refusedJobs key r := by
  unfold refusedJobs
  rw [if_pos ho, List.mem_filterMap]
  exact ⟨x, hx, by simp [hcall, hfault, hres, hrf, hjob]⟩

/-- A query Job that was created for the object was read, and answered `DER_RF`. -/
def Evidence (past : List Step) (key : ObjectKey) : Prop :=
  ∃ r ∈ era past (.container key), ∃ j ∈ refusedJobs key r,
    ∃ r' ∈ era past (.container key), j ∈ jobsFor isContainerQuery (.container key) r'
  deriving Decidable

/-- The reason of a container that DAOS refuses to open. -/
def rfReason : String := "FailuresExceedRF"

/-- The step writes the reason into the status of the container. -/
def reportsRF (step : Step) (key : ObjectKey) : Bool :=
  step.obs.any fun x =>
    match x.call with
    | .updateContainerStatus k st => k = key && x.fault.effective && st.readyReason = some rfReason
    | _ => false

/-- A container is healed or reported on its own evidence only. -/
def OwnEvidence (past : List Step) (step : Step) : Prop :=
  ∀ key ∈ step.event.container,
    (jobsFor isHeal (.container key) step ≠ [] ∨ reportsRF step key = true) →
      Evidence (step :: past) key
  deriving Decidable

/-! ## When it holds -/

/-- The query Job of a container, where its reconcile gets as far as the system. -/
def containerQueryKey (w : World) (key : ObjectKey) : Option ObjectKey :=
  (cached w.containers key).bind fun c => (cached w.pools c.spec.poolRef).bind fun pool =>
    (cached w.systems pool.spec.systemRef).map fun sys =>
      Container.jobKey c.key (namespaceOf sys) .query

/-- A container is created when nothing is remembered under its name, and its reconciles find
its own query Job; a namespace has no slash in its name. -/
def NothingLeft (past : List Step) (step : Step) : Prop :=
  (∀ key ∈ step.event.createsContainer,
    step.before.memory.rfPending.get (contKey key) = none) ∧
  ∀ key ∈ step.event.container, '/' ∉ key.ns.toList ∧
    ∀ k ∈ containerQueryKey step.before key, ∀ job ∈ step.before.jobs.get k,
      ∃ r ∈ era past (.container key), (k, job.uid) ∈ jobsFor isContainerQuery (.container key) r
  deriving Decidable

/-- Containers of valid namespaces are remembered under different keys. -/
theorem contKey_inj {key key' : ObjectKey} (h : '/' ∉ key.ns.toList) (h' : '/' ∉ key'.ns.toList)
    (heq : contKey key = contKey key') : key = key' := by
  have hlist : key.ns.toList ++ '/' :: key.name.toList =
      key'.ns.toList ++ '/' :: key'.name.toList := by
    have hchars := congrArg String.toList heq
    simpa [contKey, String.toList_append] using hchars
  -- the namespace is what stands before the first slash
  have htake : ∀ (ns name : List Char), '/' ∉ ns →
      (ns ++ '/' :: name).takeWhile (fun a => decide (a ≠ '/')) = ns := by
    intro ns name hns
    rw [List.takeWhile_append_of_pos fun a ha => by
      simp only [decide_eq_true_eq]
      rintro rfl
      exact hns ha]
    simp
  have hns : key.ns.toList = key'.ns.toList := by
    rw [← htake _ key.name.toList h, hlist, htake _ _ h']
  rw [hns, List.append_cancel_left_eq, List.cons.injEq] at hlist
  cases key
  cases key'
  simp only [ObjectKey.mk.injEq]
  exact ⟨String.toList_injective hns, String.toList_injective hlist.2⟩

/-! ## Evidence lasts as long as the object -/

section Evidence

variable {past : List Step} {w : World} {e : Event} {key : ObjectKey}

theorem era_cons {r : Step} {o : Owned} (h : appears r o = false) :
    era (r :: past) o = r :: era past o := by
  simp [era, h]

theorem Evidence.cons {r : Step} (h : Evidence past key)
    (hold : appears r (.container key) = false) : Evidence (r :: past) key := by
  obtain ⟨r₁, hr₁, j, hj, r₂, hr₂, hmem⟩ := h
  rw [Evidence, era_cons hold]
  exact ⟨r₁, List.mem_cons_of_mem _ hr₁, j, hj, r₂, List.mem_cons_of_mem _ hr₂, hmem⟩

theorem appears_reconcile (he : ∀ c, e ≠ .change c) (o : Owned) :
    appears (operator.record w e) o = false := by
  cases hf : face (operator.step w e).1 o with
  | none => simp [appears, hf]
  | some g =>
      obtain ⟨f, hbefore, -⟩ := face_reconcile he hf
      simp [appears, hbefore]

/-- A container appears when it is created, and then its status is empty. -/
theorem created_of_appears (h : appears (operator.record w e) (.container key) = true) :
    e.createsContainer = some key ∧ stored w.containers key = none ∧
      ∀ c, some c ∈ versions (operator.step w e).1.containers key →
        some c ∈ versions w.containers key ∨ c.status = {} := by
  by_cases he : ∃ c, e = .change c
  · obtain ⟨c, rfl⟩ := he
    obtain ⟨hnone, hsome⟩ : stored w.containers key = none ∧
        (stored (c.apply w).containers key).isSome = true := by
      simpa [appears, face, operator] using h
    obtain ⟨a, ha⟩ := Option.isSome_iff_exists.mp hsome
    have hwrites : ∀ cell new, ContainerEdit key c cell new → cell.stored ≠ none := by
      rintro cell new hedit
      cases hedit with
      | edit h | annotate h | delete h _ | remove h _ => simp [h]
    obtain ⟨⟨approved, spec, rfl, rfl⟩, hall⟩ :=
      (containerCell_change w key c).appears hwrites hnone ha
    exact ⟨rfl, hnone, fun b hb => (hall b hb).imp_right fun h => by rw [h]⟩
  · rw [appears_reconcile fun c hc => he ⟨c, hc⟩] at h
    cases h

end Evidence

/-! ## What a status and a mark say -/

namespace Container

/-- A query is never reported with the reason of a refusal. -/
theorem reason_of_unclear {res : Dmg.Result} {reason msg : String}
    (h : queryAnswer res = .unclear reason msg) : reason ≠ rfReason := by
  unfold queryAnswer at h
  split at h
  · cases h
  · split at h
    · cases h
      decide
    · unfold envelopeAnswer at h
      split at h
      · split at h
        · cases h
        · cases h
          decide
        · cases h
          decide
      · split at h
        · cases h
          decide
        · cases h

theorem rfExceeded_of_refused {res : Dmg.Result} (h : queryAnswer res = .refused) :
    Dmg.rfExceeded res.output = true := by
  unfold queryAnswer at h
  split at h
  · assumption
  · split at h
    · cases h
    · unfold envelopeAnswer at h
      repeat' split at h
      all_goals cases h

/-- The container is being healed, or is reported as refused. -/
def Judged (st : DaosContainerStatus) : Prop :=
  st.operation = some .heal ∨ st.readyReason = some rfReason

theorem applyOp_operation (c : DaosContainer) (pool : DaosPool) (st : DaosContainerStatus)
    (env : Dmg.Envelope) (op : Operation) :
    (applyOp c pool st env op).1.operation = st.operation := by
  cases op with
  | create =>
      simp only [applyOp]
      split <;> rfl
  | _ => rfl

/-- A status that judges the container repeats that of a live object, or goes back to a
refusal. -/
theorem Move.judged {w : World} {log : Log} {c : DaosContainer} {st : DaosContainerStatus}
    (h : Move w log c st) (hjudged : Judged st) :
    c.deleting = false ∧ Judged c.status ∨ ∃ pool sys q, Marked w log c pool sys q := by
  have hkeeps : st.record = c.status.record → st.readyReason ≠ some rfReason →
      Judged c.status := by
    intro hst hreason
    have hop := congrArg DaosContainerStatus.operation hst
    exact Or.inl (hop.symm.trans (hjudged.resolve_right hreason))
  have hidle : st.operation = none → st.readyReason ≠ some rfReason → False := by
    intro hop hreason
    have hheal := hjudged.resolve_right hreason
    rw [hop] at hheal
    cases hheal
  cases h with
  | unreached _ hlive hst hreason hwhich =>
      refine Or.inl ⟨hlive, hkeeps hst ?_⟩
      rcases hwhich with rfl | rfl <;> simp [hreason, rfReason]
  | poolNotReady _ hlive _ hst hreason =>
      exact Or.inl ⟨hlive, hkeeps hst (by simp [hreason, rfReason])⟩
  | missing h _ _ hst hreason =>
      exact Or.inl ⟨h.live, hkeeps hst (by simp [hreason, rfReason])⟩
  | waits h hst hreason =>
      rcases hreason with ⟨-, hreason⟩ | hreason
      · exact Or.inl ⟨h.live, hkeeps hst (by simp [hreason, rfReason])⟩
      · have hop := congrArg DaosContainerStatus.operation hst
        exact Or.inl ⟨h.live, hjudged.imp hop.symm.trans hreason.symm.trans⟩
  | keeps h _ _ _ hst hreason =>
      have hop := congrArg DaosContainerStatus.operation hst
      exact Or.inl ⟨h.live, hjudged.imp hop.symm.trans hreason.symm.trans⟩
  | unclear h hanswer hst hreason =>
      refine Or.inl ⟨h.live, hkeeps hst ?_⟩
      rw [hreason]
      exact fun h => reason_of_unclear hanswer (Option.some.inj h)
  | creates h hst hreason =>
      have hop := congrArg DaosContainerStatus.operation hst
      rcases hjudged with hheal | hrf
      · cases hop.symm.trans hheal
      · exact absurd (hreason.symm.trans hrf) (by decide)
  | settles h _ hst hreason hwhich =>
      have hop := congrArg DaosContainerStatus.operation hst
      refine (hidle (hop.trans h.idle) ?_).elim
      rw [hreason]
      rcases hwhich with rfl | rfl
      · simp [rfReason]
      · intro hsame
        have hchars := congrArg String.toList (Option.some.inj hsame)
        simp [rfReason] at hchars
  | drifts h _ hst hreason =>
      have hop := congrArg DaosContainerStatus.operation hst
      rcases hjudged with hheal | hrf
      · cases hop.symm.trans hheal
      · exact absurd (hreason.symm.trans hrf) (by decide)
  | reports h _ _ _ | heals h _ _ _ => exact Or.inr ⟨_, _, _, h⟩
  | @fails _ _ op _ _ _ _ hst hreason =>
      have hop := congrArg DaosContainerStatus.operation hst
      refine (hidle hop ?_).elim
      rw [hreason]
      cases op <;> decide
  | succeeds _ _ hst hreason =>
      have hop := congrArg DaosContainerStatus.operation hst
      refine (hidle (hop.trans (applyOp_operation _ _ _ _ _)) ?_).elim
      simp [hreason, rfReason]
  | destroys _ o ho hst hreason hwhich =>
      have hop := congrArg DaosContainerStatus.operation hst
      rcases hjudged with hheal | hrf
      · have ho' := hop.symm.trans hheal
        rcases ho with rfl | rfl <;> cases ho'
      · rcases hwhich with rfl | rfl <;> exact absurd (hreason.symm.trans hrf) (by decide)

end Container

/-! ## Objects that are worked on -/

/-- A live container with a finalizer is not followed by its absence, and the finalizer stays:
it goes only with an up-to-date read of a deleted object. -/
def Held (x : DaosContainer) (b : Option DaosContainer) : Prop :=
  x.finalizer = true → x.deleting = false → ∃ y, b = some y ∧ y.finalizer = true

section Held

variable {w : World} {e : Event} {key : ObjectKey}

/-- What keeps the finalizer keeps the order. -/
theorem held_written {behind : List (Option DaosContainer)} {b a : DaosContainer}
    (h : b.finalizer = true → a.finalizer = true) :
    Held b (some a) ∧ ∀ x, some x ∈ behind → Held x (some b) → Held x (some a) := by
  refine ⟨fun hb _ => ⟨a, rfl, h hb⟩, fun x _ hx hf hlive => ?_⟩
  obtain ⟨_, ⟨⟩, hy⟩ := hx hf hlive
  exact ⟨a, rfl, h hy⟩

theorem held_change {c : Change} (h : InOrder Held w.containers key) :
    InOrder Held (c.apply w).containers key := by
  refine (containerCell_change w key c).inOrder h ?_ ?_
  · intro a x _ _ _ hx hf hlive
    obtain ⟨_, hy, -⟩ := hx hf hlive
    cases hy
  · intro cell new _ hedit
    cases hedit with
    | edit h | annotate h | delete h _ => exact ⟨_, h, held_written id⟩
    | @remove _ b h hfinalizer =>
        refine ⟨b, h, fun hb => by simp [hfinalizer] at hb, fun x _ hx hf hlive => ?_⟩
        obtain ⟨_, ⟨⟩, hy⟩ := hx hf hlive
        simp [hfinalizer] at hy

/-- A finalizer is taken off only an object that is read as deleted. -/
theorem deleting_of_release (hw : WellNamed w) {x : Entry Call World}
    (hx : x ∈ (operator.step w e).2) (hcall : x.call = .setContainerFinalizer key false)
    {c : DaosContainer} (hc : cached w.containers key = some c) : c.deleting = true := by
  have h := stepCall_of_mem hx
  rw [hcall] at h
  cases h with
  | quiet h => cases h
  | system _ h =>
      cases h with
      | quiet h => cases h
  | pool _ h =>
      cases h with
      | quiet h => cases h
  | @container key' _ cont _ hcont h =>
      have hkey : cont.key = key' := hw.containers.cached hcont
      have hread {k : ObjectKey} (hk : cont.key = k) (hc : cached w.containers k = some c) :
          cont = c := by
        rw [← hk, hkey, hcont] at hc
        exact Option.some.inj hc
      cases h with
      | quiet h => cases h
      | releases _ hdeleting _ | orphans _ hdeleting => exact hread rfl hc ▸ hdeleting
      | destroyed h => exact hread rfl hc ▸ h.gate.1

/-- What a call writes over a container keeps its finalizer until it is deleted. -/
theorem finalizer_of_write (hw : WellNamed w) {x : Entry Call World} {b a : DaosContainer}
    (hx : x ∈ (operator.step w e).2)
    (hcached : cached x.before.containers key = cached w.containers key)
    {cell : Watched DaosContainer} (hcell : x.before.containers.get key = some cell)
    (hb : cell.stored = some b)
    (h : ContainerWrite key x.call cell (some a)) : b.finalizer = true → a.finalizer = true := by
  intro hfinalizer
  generalize hcall : x.call = call at h
  generalize hnew : some a = new at h
  cases h with
  | status h =>
      cases hnew
      rw [hb] at h
      cases h
      exact hfinalizer
  | @finalizer _ p present h hbehind hstays =>
      cases hnew
      cases present with
      | true => rfl
      | false =>
          have hread := hcached.symm.trans (cached_of_cell hcell h hbehind)
          simp [deleting_of_release hw hx hcall hread] at hstays
  | gone _ _ _ => cases hnew

theorem held_step (hw : WellNamed w) (h : ∀ key, InOrder Held w.containers key) :
    (∀ key, InOrder Held (operator.step w e).1.containers key) ∧
      ∀ x ∈ (operator.step w e).2, ∀ key, InOrder Held x.before.containers key ∧
        cached x.before.containers key = cached w.containers key := by
  by_cases he : ∃ c, e = .change c
  · obtain ⟨c, rfl⟩ := he
    exact ⟨fun key => held_change (h key), by simp [operator]⟩
  · have hreplay := step_replay (w := w) (e := e) (I := fun v => ∀ key,
      InOrder Held v.containers key ∧ cached v.containers key = cached w.containers key)
      (fun key => ⟨h key, rfl⟩) ?_ fun c hc => absurd ⟨c, hc⟩ he
    · exact ⟨fun key => (hreplay.1 key).1, hreplay.2⟩
    · intro x hx hkept key
      obtain ⟨horder, hcached⟩ := hkept key
      have hcell := containerCell_call x.before key x.call x.fault
      refine ⟨hcell.inOrder horder (fun _ _ hfresh => hfresh.elim) ?_,
        (hcell.cached id).trans hcached⟩
      intro cell new hget hwrite
      have hfinalizer {b a : DaosContainer} (hb : cell.stored = some b) (hnew : new = some a) :
          b.finalizer = true → a.finalizer = true :=
        finalizer_of_write hw hx hcached hget hb (hnew ▸ hwrite)
      generalize x.call = call at hwrite
      cases hwrite with
      | status h | finalizer h _ _ => exact ⟨_, h, held_written (hfinalizer h rfl)⟩
      | @gone _ p present h hbehind hgone =>
          have hdeleting : p.deleting = true := by
            simp only [Bool.and_eq_true] at hgone
            exact hgone.1
          exact ⟨p, h, fun _ hlive => by simp [hdeleting] at hlive, by simp [hbehind]⟩

end Held

/-! ## What a run keeps -/

/-- What judges a container goes back to a refusal of its own, unless it is being deleted. -/
def JudgedOn (past : List Step) (key : ObjectKey) (c : DaosContainer) : Prop :=
  Container.Judged c.status → c.finalizer = true ∧ (c.deleting = true ∨ Evidence past key)

/-- What a run keeps: live containers are judged on evidence of their own.  Where an earlier
object can still be read, it is being deleted. -/
structure Grounded (past : List Step) (w : World) : Prop where
  named : WellNamed w
  held : ∀ key, InOrder Held w.containers key
  judged : AllVersions (JudgedOn past) w.containers
  marked : ∀ key q, '/' ∉ key.ns.toList → w.memory.rfPending.get (contKey key) = some q →
    Evidence past key

section Steps

variable {past : List Step} {w : World} {e : Event} {key : ObjectKey} {faults : List Fault}

/-- A refusal that a reconcile goes by is evidence against its own object. -/
theorem Grounded.evidence {c : DaosContainer} {pool : DaosPool} {sys : DaosSystem} {q : Time}
    (hinv : Grounded past w)
    (hleft : NothingLeft past (operator.record w (.reconcileContainer key faults)))
    (hcont : cached w.containers key = some c)
    (h : Container.Marked w (operator.step w (.reconcileContainer key faults)).2 c pool sys q) :
    Evidence (operator.record w (.reconcileContainer key faults) :: past) key := by
  have hkey : c.key = key := hinv.named.containers.cached hcont
  have hold := appears_reconcile (w := w) (e := .reconcileContainer key faults) (by rintro c ⟨⟩)
    (.container key)
  obtain ⟨hvalid, hown⟩ := hleft.2 key rfl
  cases h with
  | remembered _ _ hmark =>
      rw [hkey] at hmark
      exact (hinv.marked key q hvalid hmark).cons hold
  | read h hanswer _ =>
      obtain ⟨hres, x, hx, hcall, hfault⟩ := h.read
      obtain ⟨job, hjob, -⟩ := Option.bind_eq_some_iff.mp hres
      have hquery : containerQueryKey w key =
          some (Container.jobKey c.key (namespaceOf sys) .query) := by
        simp [containerQueryKey, hcont, h.inPool, h.inSystem]
      obtain ⟨r, hr, hmine⟩ := hown _ hquery job hjob
      rw [Evidence, era_cons hold]
      refine ⟨_, List.mem_cons_self, _, ?_, r, List.mem_cons_of_mem _ hr, hmine⟩
      exact mem_refusedJobs rfl hx hcall hfault hres (Container.rfExceeded_of_refused hanswer) hjob

/-- A status that a live container is judged by goes back to evidence of its own. -/
theorem Grounded.of_judged {c : DaosContainer} (hinv : Grounded past w)
    (hcont : cached w.containers key = some c) (hlive : c.deleting = false)
    (hjudged : Container.Judged c.status) :
    Evidence (operator.record w (.reconcileContainer key faults) :: past) key := by
  have hevidence := (hinv.judged.cached hcont hjudged).2.resolve_left (by simp [hlive])
  exact hevidence.cons (appears_reconcile (by rintro c ⟨⟩) _)

/-- A status that judges a container is written over an object with a finalizer, on evidence
of its own. -/
theorem Grounded.of_move {c : DaosContainer} {st : DaosContainerStatus} (hinv : Grounded past w)
    (hleft : NothingLeft past (operator.record w (.reconcileContainer key faults)))
    (hcont : cached w.containers key = some c)
    (h : Container.Move w (operator.step w (.reconcileContainer key faults)).2 c st)
    (hjudged : Container.Judged st) :
    c.finalizer = true ∧ c.deleting = false ∧
      Evidence (operator.record w (.reconcileContainer key faults) :: past) key := by
  rcases h.judged hjudged with ⟨hlive, hbefore⟩ | ⟨pool, sys, q, hmarked⟩
  · exact ⟨(hinv.judged.cached hcont hbefore).1, hlive, hinv.of_judged hcont hlive hbefore⟩
  · exact ⟨hmarked.serves.finalizer, hmarked.serves.live, hinv.evidence hleft hcont hmarked⟩

/-- A mark is set by the reconcile of its container, when nothing but a younger query of the
pool is missing. -/
theorem marked_of_set {x : Entry Call World} {k : String} {q : Time}
    (hx : x ∈ (operator.step w e).2) (hcall : x.call = .rfPendingSet k q) :
    ∃ key faults c pool sys, e = .reconcileContainer key faults ∧
      cached w.containers key = some c ∧ k = contKey c.key ∧
        Container.Marked w (operator.step w e).2 c pool sys q ∧
          ∃ last, Container.unclear pool q = some (.stale last) := by
  have h := stepCall_of_mem hx
  rw [hcall] at h
  cases h with
  | quiet h => cases h
  | system _ h =>
      cases h with
      | quiet h => cases h
  | pool _ h =>
      cases h with
      | quiet h => cases h
  | container hcont h =>
      cases h with
      | quiet h => cases h
      | marks h hstale _ => exact ⟨_, _, _, _, _, rfl, hcont, rfl, h, _, hstale⟩

theorem Grounded.marked_step (hinv : Grounded past w)
    (hleft : NothingLeft past (operator.record w e)) {q : Time} (hvalid : '/' ∉ key.ns.toList)
    (hmark : (operator.step w e).1.memory.rfPending.get (contKey key) = some q) :
    Evidence (operator.record w e :: past) key := by
  by_cases he : ∃ c, e = .change c
  · obtain ⟨c, rfl⟩ := he
    have hbefore : w.memory.rfPending.get (contKey key) = some q := by
      rcases mark_change w (contKey key) c with h | ⟨-, h⟩
      · exact h.symm.trans hmark
      · cases h.symm.trans hmark
    cases happears : appears (operator.record w (.change c)) (.container key) with
    | false => exact (hinv.marked key q hvalid hbefore).cons happears
    | true =>
        have hnone := hleft.1 key (created_of_appears happears).1
        cases hnone.symm.trans hbefore
  · have hold := appears_reconcile (w := w) (fun c hc => he ⟨c, hc⟩) (.container key)
    have hreplay := step_replay (w := w) (e := e) (I := fun v => ∀ q,
      v.memory.rfPending.get (contKey key) = some q →
        Evidence (operator.record w e :: past) key)
      (fun q hq => (hinv.marked key q hvalid hq).cons hold) ?_
      (fun c hc => absurd ⟨c, hc⟩ he)
    · exact hreplay.1 q hmark
    · intro x hx hkept q hq
      have hcall := markCall x.before (contKey key) x.call x.fault
      rw [hq] at hcall
      generalize hc : x.call = call at hcall
      generalize hm : some q = mark at hcall
      cases hcall with
      | same => exact hkept q hm.symm
      | marked _ q' =>
          obtain ⟨key', faults, c, pool, sys, rfl, hcont, hkeys, hmarked, -⟩ := marked_of_set hx hc
          rw [hinv.named.containers.cached hcont] at hkeys
          obtain rfl := contKey_inj hvalid (hleft.2 key' rfl).1 hkeys
          exact hinv.evidence hleft hcont hmarked
      | cleared _ => cases hm

theorem JudgedOn.cons {c : DaosContainer} (h : JudgedOn past key c)
    (hold : appears (operator.record w e) (.container key) = false) :
    JudgedOn (operator.record w e :: past) key c :=
  fun hjudged => (h hjudged).imp_right (Or.imp_right (·.cons hold))

theorem Grounded.judged_change {change : Change} (hinv : Grounded past w) :
    AllVersions (JudgedOn (operator.record w (.change change) :: past))
      (change.apply w).containers := by
  intro key c hc hjudged
  have hfresh : c.status ≠ {} := by
    intro hstatus
    rw [hstatus] at hjudged
    rcases hjudged with h | h <;> cases h
  cases happears : appears (operator.record w (.change change)) (.container key) with
  | true =>
      obtain ⟨-, hnone, hall⟩ := created_of_appears happears
      have hold := (hall c hc).resolve_right hfresh
      obtain ⟨hfinalizer, -⟩ := hinv.judged key c hold hjudged
      refine ⟨hfinalizer, Or.inl ?_⟩
      -- a live one with a finalizer would still be stored
      by_contra hlive
      rcases (hinv.held key).stored hold with hstored | hheld
      · cases hnone.symm.trans hstored
      · obtain ⟨y, hy, -⟩ := hheld hfinalizer (by simpa using hlive)
        cases hnone.symm.trans hy
  | false =>
      have hstored {cell : Watched DaosContainer} {b : DaosContainer}
          (hcell : w.containers.get key = some cell) (hb : cell.stored = some b) :=
        (hinv.judged.stored (stored_of_cell hcell hb)).cons happears
      rcases (containerCell_change w key change).versions hc with
        hold | ⟨approved, spec, -, rfl⟩ | ⟨cell, hcell, hedit⟩
      · exact (hinv.judged key c hold).cons happears hjudged
      · exact absurd rfl hfresh
      · generalize hnew : some c = new at hedit
        cases hedit with
        | edit h | annotate h =>
            cases hnew
            have hbefore := hstored hcell h hjudged
            exact hbefore
        | delete h _ =>
            cases hnew
            exact ⟨(hstored hcell h hjudged).1, Or.inl rfl⟩
        | remove _ _ => cases hnew

/-- What a call of a reconcile writes over a container. -/
theorem Grounded.judged_write {x : Entry Call World} {cell : Watched DaosContainer}
    {c : DaosContainer} (hinv : Grounded past w) (hleft : NothingLeft past (operator.record w e))
    (hx : x ∈ (operator.step w e).2) (hcell : x.before.containers.get key = some cell)
    (hkept : AllVersions (JudgedOn (operator.record w e :: past)) x.before.containers)
    (hwrite : ContainerWrite key x.call cell (some c)) :
    JudgedOn (operator.record w e :: past) key c := by
  intro hjudged
  obtain ⟨horder, hcached⟩ := (held_step hinv.named hinv.held).2 x hx key
  have hfinalizer {b : DaosContainer} (hb : cell.stored = some b) :=
    finalizer_of_write hinv.named hx hcached hcell hb hwrite
  generalize hcall : x.call = call at hwrite
  generalize hnew : some c = new at hwrite
  cases hwrite with
  | @status _ b _ h =>
      cases hnew
      obtain ⟨faults, cont, rfl, hcont, hmove⟩ :=
        move_of_updateContainerStatus hinv.named hx hcall
      obtain ⟨hheld, hlive, hevidence⟩ := hinv.of_move hleft hcont hmove hjudged
      refine ⟨?_, Or.inr hevidence⟩
      -- the object that was read has a finalizer, so the stored one has it too
      have hstored := stored_of_cell hcell h
      rcases horder.stored (cached_mem_versions (hcached.trans hcont)) with hsame | hlater
      · cases hstored.symm.trans hsame
        exact hheld
      · obtain ⟨y, hy, hkeeps⟩ := hlater hheld hlive
        cases hstored.symm.trans hy
        exact hkeeps
  | finalizer h _ _ =>
      cases hnew
      have hstored := hkept.stored (stored_of_cell hcell h) hjudged
      exact ⟨hfinalizer h hstored.1, hstored.2⟩
  | gone _ _ _ => cases hnew

theorem Grounded.judged_step (hinv : Grounded past w)
    (hleft : NothingLeft past (operator.record w e)) :
    AllVersions (JudgedOn (operator.record w e :: past)) (operator.step w e).1.containers := by
  by_cases he : ∃ c, e = .change c
  · obtain ⟨change, rfl⟩ := he
    exact hinv.judged_change
  · have hold := fun key => appears_reconcile (w := w) (fun c hc => he ⟨c, hc⟩) (.container key)
    refine (step_replay (w := w) (e := e) (I := fun v =>
      AllVersions (JudgedOn (operator.record w e :: past)) v.containers)
      (fun key c hc => (hinv.judged key c hc).cons (hold key)) ?_
      (fun c hc => absurd ⟨c, hc⟩ he)).1
    intro x hx hkept key c hc
    rcases (containerCell_call x.before key x.call x.fault).versions hc with
      hc | hc | ⟨cell, hcell, hwrite⟩
    · exact hkept key c hc
    · exact hc.elim
    · exact hinv.judged_write hleft hx hcell hkept hwrite

/-- A heal is created because it is in progress, or because of a refusal while the pool is
known to be whole. -/
theorem Container.Act.of_heal {c : DaosContainer} {log : Log} {spec : Dmg.RunSpec}
    (h : Container.Act w c log (.createJob spec)) (hheal : isHeal spec.command.args = true) :
    ∃ pool sys, spec = Container.opSpec c pool sys (namespaceOf sys) (.op .heal) ∧
      Container.Serves w c pool sys ∧ (c.status.operation = some .heal ∨
        ∃ q, Container.Marked w log c pool sys q ∧ Container.unclear pool q = none) := by
  generalize hcall : Call.createJob spec = call at h
  cases h with
  | quiet h =>
      subst hcall
      cases h
  | @polls pool sys op h hop =>
      cases hcall
      cases op with
      | heal => exact ⟨pool, sys, rfl, h, Or.inl hop⟩
      | _ => cases hheal
  | heals h hwhole =>
      cases hcall
      exact ⟨_, _, rfl, h.serves, Or.inr ⟨_, h, hwhole⟩⟩
  | query _ | creates _ | drifts _ _ | destroys _ =>
      cases hcall
      cases hheal
  | _ => cases hcall

/-- One step judges a container on its own evidence. -/
theorem ownEvidence_step (hinv : Grounded past w)
    (hleft : NothingLeft past (operator.record w e)) :
    OwnEvidence past (operator.record w e) := by
  intro key hkey hjudges
  obtain ⟨faults, rfl⟩ := Event.eq_of_container (e := e) hkey
  rcases hjudges with hjobs | hreports
  · obtain ⟨j, hj⟩ := List.exists_mem_of_ne_nil _ hjobs
    obtain ⟨-, x, hx, spec, hcall, hheal⟩ := mem_jobsFor hj
    have h := stepCall_of_mem hx
    rw [hcall] at h
    cases h with
    | quiet h => cases h
    | container hcont h =>
        obtain ⟨pool, sys, -, hserves, hop | ⟨q, hmarked, -⟩⟩ := h.of_heal hheal
        · exact hinv.of_judged hcont hserves.live (Or.inl hop)
        · exact hinv.evidence hleft hcont hmarked
  · obtain ⟨x, hx, hwrites⟩ := List.any_eq_true.mp hreports
    split at hwrites
    · next k st hcall =>
        obtain ⟨⟨rfl, -⟩, hreason⟩ : (k = key ∧ x.fault.effective = true) ∧
            st.readyReason = some rfReason := by simpa using hwrites
        obtain ⟨faults', cont, he, hcont, hmove⟩ :=
          move_of_updateContainerStatus hinv.named hx hcall
        cases he
        exact (hinv.of_move hleft hcont hmove (Or.inr hreason)).2.2
    · cases hwrites

end Steps

/-- Where nothing is left of an earlier object, a container is judged on its own evidence. -/
theorem container_own_evidence (events : List Event)
    (hleft : Along NothingLeft [] (history events)) : Along OwnEvidence [] (history events) := by
  refine Machine.along_induction (I := Grounded) ?_ ?_ events hleft
  · intro past w e hinv hleft
    exact ⟨ownEvidence_step hinv hleft, hinv.named.step e, (held_step hinv.named hinv.held).1,
      hinv.judged_step hleft, fun key q hvalid hmark => hinv.marked_step hleft hvalid hmark⟩
  · exact ⟨wellNamed_empty, fun _ => .nil, allVersions_empty, by simp⟩

/-- The pool is released and the container orphaned, both are created again, and the pool is
queried once more. -/
def recreatedRun : List Event :=
  refusedRun ++
    [.change (.deletePool "p"), .change (.deliverPool "p")] ++ poolPass "p" ++
    [.change (.deleteContainer ⟨"a", "c"⟩), .change (.deliverContainer ⟨"a", "c"⟩)] ++
    contPass ⟨"a", "c"⟩ ++ clearingPool ++ newContainer

/-- A container is reported on the query that was created for it. -/
theorem container_own_evidence_refused :
    (∃ step ∈ history refusedRun, reportsRF step ⟨"a", "c"⟩ = true) ∧
      Along OwnEvidence [] (history refusedRun) := by
  have hrun : (∃ step ∈ history refusedRun, reportsRF step ⟨"a", "c"⟩ = true) ∧
      Along NothingLeft [] (history refusedRun) := by
    decide +kernel
  exact ⟨hrun.1, container_own_evidence refusedRun hrun.2⟩

/-- The new container is healed although none of its queries was refused. -/
theorem container_inherits_evidence : ¬Along OwnEvidence [] (history recreatedRun) := by
  decide +kernel

end DaosOperator
