import DaosOperator.Surroundings

/-!
# What the management service last answered

`status.pendingFormat` and `status.formatted` are copies of answers: a query Job can
report that the storage is unformatted or list the members, and a format Job can
succeed.  This module reads those answers off the log of a run and shows that a
status which asks for a format of the whole system goes back to the answer that the
storage is unformatted.
-/

namespace DaosOperator

open Effect
open DaosOperator.System

/-! ## Answers in a log -/

/-- The conclusive answers. -/
inductive Conclusion where
  | unformatted
  | members
  | formatted
  deriving DecidableEq

def envelopeAnswer (env : Dmg.Envelope) : Option Conclusion :=
  match env.error with
  | some e => if Dmg.classify e = .unformatted then some .unformatted else none
  | none =>
      match Dmg.systemQuery env with
      | .ok _ => some .members
      | .error _ => none

def queryAnswer (res : Dmg.Result) : Option Conclusion :=
  if res.failure ≠ "" && res.output = "" then none
  else
    match Dmg.parseAll res.output with
    | .ok (env :: _) => envelopeAnswer env
    | _ => none

def formatAnswer (res : Dmg.Result) : Option Conclusion :=
  if formatFailure res = "" then some .formatted else none

def handedOut (w : World) (key : ObjectKey) : Option Dmg.Result :=
  (w.jobs.get key).bind fun job =>
    (Dmg.jobFinished job.conditions).map fun failure => Dmg.jobResult failure job

/-- The answer that an entry of the system's reconcile reads. -/
def answerOf (name : String) (x : Entry Call World) : Option Conclusion :=
  match x.call, x.fault, stored x.before.systems name with
  | .deleteJob key, .none, some sys =>
      if key = jobKey name (namespaceOf sys) .query then
        (handedOut x.before key).bind queryAnswer
      else if key = jobKey name (namespaceOf sys) .format then
        (handedOut x.before key).bind formatAnswer
      else none
  | _, _, _ => none

def readIn (name : String) (log : Log) : Option Conclusion :=
  log.foldl (fun acc x => (answerOf name x).or acc) none

def writesStatus (name : String) (x : Entry Call World) : Bool :=
  match x.call with
  | .updateSystemStatus other _ => other = name && x.fault.effective
  | _ => false

/-- The answer that a reconcile read and persisted in the status. -/
def persistedIn (name : String) (log : Log) : Option Conclusion :=
  if log.any (writesStatus name) then readIn name log else none

def persisted (name : String) (r : Step) : Option Conclusion :=
  match r.event with
  | .reconcileSystem other _ => if other = name then persistedIn name r.obs else none
  | _ => none

/-- The last conclusive answer persisted in the status of the system; a system that does
not exist has none. -/
def lastAnswer (name : String) (steps : List Step) : Option Conclusion :=
  steps.foldl (fun acc r =>
    if (stored r.after.systems name).isNone then none else (persisted name r).or acc) none

theorem readIn_concat (name : String) (log : Log) (x : Entry Call World) :
    readIn name (log ++ [x]) = (answerOf name x).or (readIn name log) := by
  simp [readIn]

theorem lastAnswer_concat (name : String) (steps : List Step) (r : Step) :
    lastAnswer name (steps ++ [r]) =
      if (stored r.after.systems name).isNone then none
      else (persisted name r).or (lastAnswer name steps) := by
  simp [lastAnswer]

/-! ## What an answer leaves in the status -/

/-- A status that asks for a format of the whole system comes from the answer that the
storage is unformatted, or from a status that asked for it already. -/
def Accords (answer : Option Conclusion) (st st' : DaosSystemStatus) : Prop :=
  st'.pendingFormat = true → st'.formatted = false →
    answer = some .unformatted ∨
      answer = none ∧ st.pendingFormat = true ∧ st.formatted = false

theorem Accords.of_formatted {answer : Option Conclusion} {st st' : DaosSystemStatus}
    (h : st'.formatted = true) : Accords answer st st' := by
  intro _ hf
  rw [h] at hf
  cases hf

theorem Accords.of_same {st st' : DaosSystemStatus} (hp : st'.pendingFormat = st.pendingFormat)
    (hf : st'.formatted = st.formatted) : Accords none st st' := by
  intro hp' hf'
  exact Or.inr ⟨rfl, hp ▸ hp', hf ▸ hf'⟩

theorem Accords.trans {a b : Option Conclusion} {st st' st'' : DaosSystemStatus}
    (h : Accords a st st') (h' : Accords b st' st'') : Accords (b.or a) st st'' := by
  intro hp hf
  rcases h' hp hf with rfl | ⟨rfl, hp', hf'⟩
  · exact Or.inl rfl
  · simpa using h hp' hf'

theorem accords_readMembership (sys : DaosSystem) (inp : FormatInput) (approved : Bool)
    (queried : Time) (env : Dmg.Envelope) (leader : Option Dmg.Envelope) (st : DaosSystemStatus) :
    Accords (envelopeAnswer env) st
      (readMembership sys inp approved queried env leader st).status := by
  unfold readMembership
  split
  · next e herror =>
      have hanswer : envelopeAnswer env =
          if Dmg.classify e = .unformatted then some .unformatted else none := by
        simp only [envelopeAnswer, herror]
      rw [hanswer]
      by_cases hclass : Dmg.classify e = .unformatted
      · rw [if_pos hclass]
        exact fun _ _ => Or.inl rfl
      · rw [if_neg hclass]
        split
        · next h => exact absurd h hclass
        · exact .of_same rfl rfl
        · exact .of_same rfl rfl
        · exact .of_same rfl rfl
  · next herror =>
      split
      · next hquery =>
          rw [show envelopeAnswer env = none by simp only [envelopeAnswer, herror, hquery]]
          exact .of_same rfl rfl
      · exact .of_formatted rfl

/-- A query moves the status only with a conclusive answer. -/
theorem accords_readQuery (sys : DaosSystem) (inp : FormatInput) (approved : Bool) (now : Time)
    (res : Dmg.Result) (st : DaosSystemStatus) :
    Accords (queryAnswer res) st (readQuery sys inp approved now res st).status := by
  unfold readQuery
  split
  · next hfailed =>
      rw [show queryAnswer res = none from if_pos hfailed]
      exact .of_same rfl rfl
  · next hran =>
      have hanswer : ∀ r, Dmg.parseAll res.output = r → queryAnswer res =
          match r with
          | .ok (env :: _) => envelopeAnswer env
          | _ => none := by
        rintro r rfl
        exact if_neg hran
      split
      · next hparse =>
          rw [hanswer _ hparse]
          exact .of_same rfl rfl
      · next hparse =>
          rw [hanswer _ hparse]
          exact .of_same rfl rfl
      · next hparse =>
          rw [hanswer _ hparse]
          exact accords_readMembership _ _ _ _ _ _ _
      · next leader _ hparse =>
          rw [hanswer _ hparse]
          exact accords_readMembership _ _ _ _ _ _ (setMsCondition st leader).1

/-! ## An execution -/

/-- What the answers are kept in, and the namespace of the Jobs they come from. -/
def answerView (sys : DaosSystem) : Bool × Bool × String :=
  (sys.status.pendingFormat, sys.status.formatted, namespaceOf sys)

/-- The reconcile of `sys` has not written its status yet. -/
def Unwritten (name : String) (sys : DaosSystem) (s : Point Call World) : Prop :=
  s.log.any (writesStatus name) = false ∧
    (stored s.world.systems name).map answerView = some (answerView sys)

/-- What a reconcile of `sys` leaves: its stored status accords with what it persisted. -/
def Persists (name : String) (sys : DaosSystem) (s : Point Call World) : Prop :=
  ∀ sys', stored s.world.systems name = some sys' →
    Accords (persistedIn name s.log) sys.status sys'.status

section Execution

variable {name ns : String} {S : Scope} {c : Call} {f : Fault} {sys : DaosSystem}
  {s : Point Call World} {rely : Entry Call World → Prop}

theorem Unwritten.persists (h : Unwritten name sys s) : Persists name sys s := by
  intro sys' hsys'
  have hview : answerView sys' = answerView sys := by simpa [hsys'] using h.2
  rw [show persistedIn name s.log = none from if_neg (by simp [h.1])]
  exact .of_same (congrArg Prod.fst hview) (congrArg (fun v => v.2.1) hview)

theorem Unwritten.next (h : Unwritten name sys s) (hc : SystemCall name ns S c)
    (hS : S.status = false) : Unwritten name sys (cluster.next s c f) := by
  constructor
  · have hnone : writesStatus name ⟨c, f, s.world⟩ = false := by
      unfold writesStatus
      split
      · next hcall =>
          dsimp only at hcall
          subst hcall
          simp [hc.of_status.2] at hS
      · rfl
    simp [h.1, hnone]
  · refine Eq.trans (hc.stored_proj ?_ ?_) h.2
    · intro s p _
      cases p <;> rfl
    · intro hstatus
      simp [hS] at hstatus

theorem answerOf_of_scope (hquery : S.jobs .query = false) (hformat : S.jobs .format = false)
    (hc : SystemCall name ns S c) (w : World) : answerOf name ⟨c, f, w⟩ = none := by
  unfold answerOf
  split
  · next key sys hkey _ _ =>
      have hne : ∀ k, S.jobs k = false → key ≠ jobKey name (namespaceOf sys) k := by
        rintro k hk rfl
        dsimp only at hkey
        subst hkey
        obtain ⟨kind, hkind, hkey⟩ := hc.of_deleteJob
        rw [(jobKey_inj hkey).2.2, hkind] at hk
        cases hk
      rw [if_neg (hne _ hquery), if_neg (hne _ hformat)]
  · rfl

theorem wp_unanswered {α : Type} (ns : String) {P : α → Prop} {q : Op α}
    (hquery : S.jobs .query = false) (hformat : S.jobs .format = false) (hS : S.status = false)
    (hq : q.Obeys (SystemCall name ns S) P) (hs : Unwritten name sys s) :
    q.wp cluster rely s
      (fun a t => P a ∧ Unwritten name sys t ∧ readIn name t.log = readIn name s.log)
      (Unwritten name sys) := by
  refine Prog.wp_mono (hq.wp
    (I := fun t => Unwritten name sys t ∧ readIn name t.log = readIn name s.log) ?_ ⟨hs, rfl⟩)
    (fun _ _ h => h) fun _ h => h.1
  intro c f t hc _ _ ht
  refine ⟨ht.1.next hc hS, ?_⟩
  rw [Handler.next_log, readIn_concat, answerOf_of_scope hquery hformat hc]
  exact ht.2

def answerIn (res : Dmg.Result) : JobKind → Option Conclusion
  | .query => queryAnswer res
  | .format => formatAnswer res
  | _ => none

theorem wp_runAnswer {spec : Dmg.RunSpec} {kind : JobKind} (hkind : kind = .query ∨ kind = .format)
    (hspec : SystemJob name (namespaceOf sys) kind spec) (hs : Unwritten name sys s) :
    (Dmg.run spec).wp cluster rely s
      (fun res t => Unwritten name sys t ∧ readIn name t.log =
        (if res.done then answerIn res kind else none).or (readIn name s.log))
      (Unwritten name sys) := by
  have hkey := hspec.key
  refine Dmg.wp_run (I := fun t => Unwritten name sys t ∧ readIn name t.log = readIn name s.log)
    ?_ ⟨hs, rfl⟩ (fun _ h => h.1) ?_ ?_ ?_
  · intro c f t hc _ ht
    have hcall : SystemCall name (namespaceOf sys) {} c := .quiet hc
    refine ⟨ht.1.next hcall rfl, ?_⟩
    rw [Handler.next_log, readIn_concat, answerOf_of_scope rfl rfl hcall]
    exact ht.2
  · intro t ht _ _
    have hcall : SystemCall name (namespaceOf sys) { jobs := fun _ => true } (.createJob spec) :=
      .createJob kind spec rfl hspec
    refine Prog.wp_ask (fun _ => ⟨ht.1.next hcall rfl, ?_⟩) fun f _ _ _ => ht.1.next hcall rfl
    rw [Handler.next_log, readIn_concat]
    exact ht.2
  · intro t job ht _ _
    exact ⟨ht.1, ht.2⟩
  · intro t job failure ht hworld hjob _ hfinished
    have hcall : SystemCall name (namespaceOf sys) { jobs := fun _ => true }
        (.deleteJob spec.key) := hkey ▸ .deleteJob kind rfl
    refine Prog.wp_ask (fun _ => ⟨ht.1.next hcall rfl, ?_⟩) fun f _ _ _ => ht.1.next hcall rfl
    obtain ⟨old, hold, hview⟩ := Option.map_eq_some_iff.mp ht.1.2
    have hns : namespaceOf old = namespaceOf sys := congrArg (fun v => v.2.2) hview
    have hresult : handedOut t.world spec.key = some (Dmg.jobResult failure job) := by
      simp [handedOut, hworld, hjob, hfinished]
    rw [Handler.next_log, readIn_concat, ht.2, if_pos (Dmg.done_jobResult ..)]
    congr 1
    rcases hkind with rfl | rfl
    · simp [answerOf, hold, hns, ← hkey, hresult, answerIn]
    · have hne : spec.key ≠ jobKey name (namespaceOf sys) .query := by
        rw [hkey]
        intro h
        cases (jobKey_inj h).2.2
      simp [answerOf, hold, hns, hne, ← hkey, hresult, answerIn]

/-- The status of a pass accords with the answers read so far. -/
def Accorded (name : String) (sys : DaosSystem) (p : Pass) (s : Point Call World) : Prop :=
  Unwritten name sys s ∧ Accords (readIn name s.log) sys.status p.status

theorem Accorded.frame {p q : Pass} {t : Point Call World} (h : Accorded name sys p s)
    (ht : Unwritten name sys t ∧ readIn name t.log = readIn name s.log)
    (hp : q.status.pendingFormat = p.status.pendingFormat)
    (hf : q.status.formatted = p.status.formatted) : Accorded name sys q t := by
  refine ⟨ht.1, ?_⟩
  rw [ht.2]
  exact h.2.trans (.of_same hp hf)

theorem obeys_recordFormat_accords (only : List String) (res : Dmg.Result) (p : Pass) :
    (recordFormat only res p).Obeys (SystemCall name ns {}) fun r =>
      Accords (formatAnswer res) p.status r.2.status := by
  refine Prog.obeys_ask_bind (.quiet rfl) fun now => ?_
  refine Prog.obeys_ite (fun hwhy => ?_) fun _ => ?_
  · refine (obeys_event _ _ _ _).bind fun _ _ => ?_
    simp only [Prog.obeys_ret]
    rw [show formatAnswer res = none from if_neg hwhy]
    exact .of_same rfl rfl
  · refine (obeys_event _ _ _ _).bind fun _ _ => ?_
    refine Prog.obeys_ask_bind (.clearHold _) fun _ => ?_
    exact Accords.of_formatted rfl

theorem accorded_formatPath {inp : FormatInput} {p : Pass} (only : List String)
    (hname : p.sys.name = name) (hns : inp.ns = namespaceOf sys) (hs : Accorded name sys p s) :
    (formatPath inp only p).wp cluster rely s (fun r t => Accorded name sys r.2 t)
      (Unwritten name sys) := by
  unfold formatPath
  refine Prog.wp_ite (fun _ => hs.frame ⟨hs.1, rfl⟩ rfl rfl) fun _ => ?_
  have hspec : SystemJob name (namespaceOf sys) .format
      (jobSpec p.sys inp.ns .format (.dmg (formatArgs only))) := by
    subst hname
    exact ⟨rfl, by rw [← hns]; rfl, only, rfl⟩
  refine Prog.wp_bind (Prog.wp_mapError.mpr (wp_runAnswer (Or.inr rfl) hspec hs.1)) ?_
  rintro res t ⟨ht, hread⟩
  refine Prog.wp_ite (fun hrunning => ?_) fun hdone => ?_
  · refine hs.frame ⟨ht, ?_⟩ rfl rfl
    simpa [show res.done = false by simpa using hrunning] using hread
  have hdone' : res.done = true := by simpa using hdone
  rw [if_pos hdone'] at hread
  refine Prog.wp_bind (wp_unanswered inp.ns (S := { patches := fun _ => true }) rfl rfl rfl
    (obeys_clearApproval hname rfl) ht) ?_
  rintro sys' u ⟨-, hu, hsame⟩
  refine Prog.wp_mono (wp_unanswered inp.ns rfl rfl rfl
    (obeys_recordFormat_accords only res { p with sys := sys' }) hu) ?_ fun _ h => h
  rintro r v ⟨haccords, hv, hsame'⟩
  refine ⟨hv, ?_⟩
  rw [hsame', hsame, hread]
  exact hs.2.trans haccords

theorem accorded_queryPath {inp : FormatInput} {p : Pass} (approved : Bool)
    (hname : p.sys.name = name) (hns : inp.ns = namespaceOf sys) (hs : Accorded name sys p s) :
    (queryPath inp approved p).wp cluster rely s (fun r t => Accorded name sys r.2 t)
      (Unwritten name sys) := by
  have hask : ∀ {c : Call} {t : Point Call World}, c.quiet = true → Accorded name sys p t →
      (ask c).wp cluster rely t (fun _ => Accorded name sys p) (Unwritten name sys) := by
    intro c t hc ht
    refine Prog.wp_mono (wp_unanswered inp.ns (S := {}) rfl rfl rfl
      (Prog.obeys_ask (.quiet hc)) ht.1) ?_ fun _ h => h
    rintro _ u ⟨-, hu⟩
    exact ht.frame hu rfl rfl
  unfold queryPath
  refine Prog.wp_bind (hask rfl hs) ?_
  intro wait t ht
  refine Prog.wp_ite (fun _ => ht) fun _ => ?_
  have hspec : SystemJob name (namespaceOf sys) .query (jobSpec p.sys inp.ns .query
      (.dmg ["system", "query", "-v"] ["system", "leader-query"] membershipQueryTimeout)) := by
    subst hname
    exact ⟨rfl, by rw [← hns]; rfl, rfl⟩
  refine Prog.wp_bind (Prog.wp_mapError.mpr (wp_runAnswer (Or.inl rfl) hspec ht.1)) ?_
  rintro res u ⟨hu, hread⟩
  refine Prog.wp_ite (fun hrunning => ?_) fun hdone => ?_
  · have hsame : readIn name u.log = readIn name t.log := by
      simpa [show res.done = false by simpa using hrunning] using hread
    simp only [Prog.wp_ret]
    split
    · exact ht.frame ⟨hu, hsame⟩ rfl rfl
    · exact ht.frame ⟨hu, hsame⟩ rfl rfl
  rw [if_pos (show res.done = true by simpa using hdone)] at hread
  refine Prog.wp_bind (wp_unanswered inp.ns (S := {}) rfl rfl rfl
    (Prog.obeys_ask (.quiet rfl)) hu) ?_
  rintro now v ⟨-, hv, hsame⟩
  refine Prog.wp_mono (wp_unanswered inp.ns (S := { patches := fun _ => true }) rfl rfl rfl
    (obeys_finishQuery hname rfl (formatMask_readQuery ..)) hv) ?_ fun _ h => h
  rintro r x ⟨⟨-, hstatus⟩, hx, hsame'⟩
  refine ⟨hx, ?_⟩
  rw [hsame', hsame, hread, hstatus]
  exact ht.2.trans (accords_readQuery p.sys inp approved now res p.status)

/-- The format gate and the membership query keep the pass in accord with the answers. -/
theorem accorded_reconcileFormat {inp : FormatInput} {p : Pass} (hname : p.sys.name = name)
    (hns : inp.ns = namespaceOf sys) (hs : Accorded name sys p s) :
    (reconcileFormat inp p).wp cluster rely s (fun r t => Accorded name sys r.2 t)
      (Unwritten name sys) := by
  unfold reconcileFormat
  refine Prog.wp_ite (fun _ => hs.frame ⟨hs.1, rfl⟩ rfl rfl) fun _ => ?_
  refine Prog.wp_bind (wp_unanswered inp.ns (S := { patches := fun _ => true }) rfl rfl rfl
    (obeys_refuseExternalFormat hname rfl) hs.1) ?_
  rintro sys' t ⟨hsys', ht⟩
  have hname' : sys'.name = name := hsys'.name.trans hname
  have hA : Accorded name sys { p with sys := sys' } t := hs.frame ht rfl rfl
  split
  · exact accorded_formatPath _ hname' hns hA
  · exact accorded_queryPath _ hname' hns hA

theorem persists_updateStatus {p : Pass} (hname : p.sys.name = name) (requeue : Duration)
    (hs : Accorded name sys p s) :
    (updateStatus p requeue).wp cluster rely s
      (fun _ => Persists name sys) (Persists name sys) := by
  have hwrite : ∀ f,
      Persists name sys (cluster.next s (.updateSystemStatus p.sys.name p.status) f) := by
    intro f sys' hsys'
    rw [hname] at hsys' ⊢
    rw [Handler.next_world, Handler.respond_world] at hsys'
    by_cases hf : f.effective = true
    · have hwrites : writesStatus name ⟨.updateSystemStatus name p.status, f, s.world⟩ = true := by
        simp [writesStatus, hf]
      have hpersisted :
          persistedIn name (cluster.next s (.updateSystemStatus name p.status) f).log =
            readIn name s.log := by
        unfold persistedIn
        rw [if_pos (by simp [hwrites]), Handler.next_log, readIn_concat]
        rfl
      rw [hpersisted]
      simp only [hf, if_true, cluster, perform, stored_modify_self,
        Option.bind_eq_some_iff] at hsys'
      obtain ⟨old, -, hold⟩ := hsys'
      cases hold
      exact hs.2
    · have hwrites : writesStatus name ⟨.updateSystemStatus name p.status, f, s.world⟩ = false := by
        simp [writesStatus, hf]
      rw [if_neg hf] at hsys'
      have hpersisted :
          persistedIn name (cluster.next s (.updateSystemStatus name p.status) f).log =
            persistedIn name s.log := by
        rw [show persistedIn name s.log = none from if_neg (by simp [hs.1.1])]
        exact if_neg (by simp [hs.1.1, hwrites])
      rw [hpersisted]
      exact hs.1.persists sys' hsys'
  refine Prog.wp_bind (A := fun _ => Persists name sys) ?_ fun _ _ h => h
  exact Prog.wp_ask (fun _ => hwrite .none) fun f _ _ _ => hwrite f

end Execution

/-! ## Runs -/

/-- A reconcile of the system persists the answers it read. -/
theorem persists_reconcile {name : String} {w : World} (hw : WellNamed w) {sys : DaosSystem}
    (hsys : stored w.systems name = some sys) (faults : List Fault) :
    Persists name sys ⟨(operator.step w (.reconcileSystem name faults)).1,
      (operator.step w (.reconcileSystem name faults)).2⟩ := by
  have hname : sys.name = name := hw.systems.stored hsys
  have hstart : ∀ f, Unwritten name sys (cluster.next ⟨w, []⟩ (.getSystem name) f) := by
    intro f
    have hs : Unwritten name sys ⟨w, []⟩ := ⟨rfl, by rw [hsys]; rfl⟩
    exact hs.next (.quiet rfl : SystemCall name (namespaceOf sys) {} _) rfl
  have hwp : (reconcile name).wp cluster (fun _ => True) ⟨w, []⟩
      (fun _ => Persists name sys) (Persists name sys) := by
    refine wp_reconcile (fun f _ => (hstart f).persists) ?_
    intro sys' hsys' _ _
    obtain rfl : sys' = sys := by simpa [hsys] using hsys'.symm
    have hframe : ∀ {S : Scope} {α : Type} {pass : α → Pass} {q : Op α} {p : Pass}
        {t : Point Call World} {mask : DaosSystemStatus → DaosSystemStatus},
        S.jobs .query = false → S.jobs .format = false → S.status = false →
        q.Obeys (SystemCall name (namespaceOf sys') S)
          (fun r => Advances S.patches mask p (pass r)) →
        (∀ st, (mask st).pendingFormat = st.pendingFormat ∧ (mask st).formatted = st.formatted) →
        Accorded name sys' p t →
        q.wp cluster (fun _ => True) t (fun r u => Accorded name sys' (pass r) u)
          (Persists name sys') := by
      intro S α pass q p t mask hquery hformat hS hq hmask ht
      refine Prog.wp_mono (wp_unanswered _ hquery hformat hS hq ht.1) ?_ fun _ h => h.persists
      rintro r u ⟨hadv, hu⟩
      refine ht.frame hu ?_ ?_
      · rw [← (hmask _).1, hadv.status, (hmask _).1]
      · rw [← (hmask _).2, hadv.status, (hmask _).2]
    have hstages : StageProof sys' (fun _ => True)
        (fun t => Unwritten name sys' t ∧ readIn name t.log = none) (Persists name sys')
        (fun _ p t => Accorded name sys' p t) :=
      { render := fun c f t hc _ _ ht => by
          have hc' : SystemCall name _ _ c := hname ▸ hc
          refine ⟨ht.1.next hc' rfl, ?_⟩
          rw [Handler.next_log, readIn_concat, answerOf_of_scope rfl rfl hc']
          exact ht.2
        stop := fun _ h => h.1.persists
        enter := fun p t hp ht => by
          refine ⟨ht.1, ?_⟩
          rw [ht.2]
          have hp' := congrArg DaosSystemStatus.pendingFormat hp.carried.status_eq
          have hf' := congrArg DaosSystemStatus.formatted hp.carried.status_eq
          exact .of_same hp' hf'
        cond := fun _ p st t hst ht => by
          have hp' := congrArg DaosSystemStatus.pendingFormat hst
          have hf' := congrArg DaosSystemStatus.formatted hst
          exact ht.frame ⟨ht.1, rfl⟩ hp' hf'
        upgrade := fun rendered p t hp ht => hframe rfl rfl rfl
          (obeys_reconcileUpgrade (by rw [hp.carried.sys_eq, hname]) rendered)
          (fun _ => ⟨rfl, rfl⟩) ht
        skip := fun _ _ _ h => h
        format := fun inp p t hp ht => Prog.wp_mono
          (accorded_reconcileFormat (hp.patched.name.trans hname) hp.ns ht)
          (fun _ _ h => h) fun _ h => h.persists
        rankOp := fun p t hp ht => hframe rfl rfl rfl
          (obeys_reconcileRankOp (hp.patched.name.trans hname)) (fun _ => ⟨rfl, rfl⟩) ht
        engines := fun p t hp ht => hframe rfl rfl rfl
          (obeys_reconcileEngineRestart (hp.name.trans hname)) (fun _ => ⟨rfl, rfl⟩) ht
        write := fun _ p t requeue _ hp ht =>
          persists_updateStatus (hp.name.trans hname) requeue ht }
    exact hstages.wp_reconcileSystem ⟨hstart _, rfl⟩
  exact Prog.exec_ends hwp faults fun _ _ => trivial

/-- A status that asks for a format of the whole system goes back to the last answer. -/
def AsksOnlyUnformatted (name : String) (steps : List Step) (w : World) : Prop :=
  ∀ sys, stored w.systems name = some sys → sys.status.pendingFormat = true →
    sys.status.formatted = false → lastAnswer name steps = some .unformatted

theorem AsksOnlyUnformatted.step {name : String} {steps : List Step} {w : World}
    (h : AsksOnlyUnformatted name steps w) (hw : WellNamed w) (e : Event) :
    AsksOnlyUnformatted name (steps ++ [operator.record w e]) (operator.step w e).1 := by
  intro sys hsys hpending hformatted
  rw [lastAnswer_concat, if_neg (by simp [hsys])]
  have helsewhere : stored w.systems name = some sys → persisted name (operator.record w e) = none →
      (persisted name (operator.record w e)).or (lastAnswer name steps) = some .unformatted := by
    intro hsame hnone
    rw [hnone]
    exact h sys hsame hpending hformatted
  cases e with
  | reconcileSystem other faults =>
      by_cases hother : other = name
      · subst hother
        cases hbefore : stored w.systems other with
        | none =>
            rw [step_absent hbefore, hbefore] at hsys
            cases hsys
        | some old =>
            have hpersists := persists_reconcile hw hbefore faults sys hsys hpending hformatted
            rw [show persisted other (operator.record w (.reconcileSystem other faults)) =
              persistedIn other (operator.step w (.reconcileSystem other faults)).2 from if_pos rfl]
            rcases hpersists with hread | ⟨hread, hp, hf⟩
            · rw [hread]
              rfl
            · rw [hread]
              exact h old hbefore hp hf
      · refine helsewhere ?_ (if_neg hother)
        have hget := (step_elsewhere name (.reconcileSystem other faults) hw hother).1
        simpa only [stored, hget] using hsys
  | reconcilePool other faults =>
      refine helsewhere ?_ rfl
      have hget := (step_elsewhere name (.reconcilePool other faults) hw trivial).1
      simpa only [stored, hget] using hsys
  | reconcileContainer key faults =>
      refine helsewhere ?_ rfl
      have hget := (step_elsewhere name (.reconcileContainer key faults) hw trivial).1
      simpa only [stored, hget] using hsys
  | change c =>
      have hchange := systemChange w name c
      rw [show stored (c.apply w).systems name = some sys from hsys] at hchange
      generalize hbefore : stored w.systems name = before at hchange
      cases hchange with
      | same => exact h sys hbefore hpending hformatted
      | create annotations spec => cases hpending
      | edit spec old => exact h old hbefore hpending hformatted
      | annotate key value old => exact h old hbefore hpending hformatted
      | delete old => exact h old hbefore hpending hformatted

theorem asksOnlyUnformatted_final (name : String) (events : List Event) :
    AsksOnlyUnformatted name (history events) (final events) := by
  have hrun := Machine.history_induction (m := operator) (s := {}) (R := fun _ => True)
    (I := fun steps w => WellNamed w ∧ AsksOnlyUnformatted name steps w)
    ⟨wellNamed_empty, by intro sys hsys; cases hsys⟩
    (fun steps w e h _ => ⟨h.1.step e, h.2.step h.1 e⟩) events fun _ _ => trivial
  exact hrun.2

end DaosOperator
