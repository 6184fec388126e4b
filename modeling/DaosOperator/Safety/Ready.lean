import DaosOperator.Effect.Failure
import DaosOperator.Safety.RankCounters

/-!
# What `Ready` means

A status that is written with `Ready` counts ranks that joined, but only the condition
`EnginesReady` compares them with the nodes and the engines of the spec.  When the
membership is not known, that comparison is left out and the counts of an older answer
decide alone.
-/

namespace DaosOperator

open Effect
open DaosOperator.System

variable {st st' : DaosSystemStatus} {sys : DaosSystem} {inp : FormatInput} {w : World}

/-! ## The property -/

/-- What a status that says `Ready` has to show. -/
@[mk_iff] structure MeansReady (sys : DaosSystem) (st : DaosSystemStatus) : Prop where
  servers : ∀ nc ∈ st.nodeConfigs, nc.workload ≠ "" → nc.serverReady = true
  total : st.ranksTotal = st.ranks.length
  joined : st.ranksJoined = st.ranks.length
  ranks : st.ranks ≠ []
  placed : ∀ rk ∈ st.ranks, ∃ nc ∈ st.nodeConfigs, nc.workload ≠ "" ∧ nc.node = rk.node
  engines : ∀ nc ∈ st.nodeConfigs, nc.workload ≠ "" →
    sys.spec.engines.length ≤ joinedOn st nc.node

instance (sys : DaosSystem) (st : DaosSystemStatus) : Decidable (MeansReady sys st) :=
  decidable_of_iff' _ (meansReady_iff sys st)

def statusOf (x : Entry Call World) : Option DaosSystemStatus :=
  match x.call with
  | .updateSystemStatus _ st => some st
  | _ => none

/-- Every status with `Ready` that a reconcile of a system the operator runs writes shows
what it has to. -/
def ReadyMeant (step : Step) : Prop :=
  ∀ name ∈ step.event.system, ∀ sys ∈ stored step.before.systems name, external sys = false →
    ∀ x ∈ step.obs, ∀ st ∈ statusOf x, isStatusConditionTrue st.conditions .ready = true →
      MeansReady sys st
  deriving Decidable

/-! ## When it holds -/

/-- No text that ends up in the condition `Formatted` looks like its placeholder. -/
def plainTexts (sys : DaosSystem) (w : World) : Bool :=
  ((nodeFacts sys w).all fun f => !Text.hasSuffix f.controlAddr "querying membership") &&
    sys.status.lastFormat.all fun lf => !Text.hasSuffix lf.message "querying membership"

/-- If every recorded rank is joined, they cover the nodes and engines of the spec. -/
def Covers (sys : DaosSystem) (w : World) : Prop :=
  sys.status.ranks ≠ [] → (∀ rk ∈ sys.status.ranks, rk.state = memberJoined) →
    (∀ rk ∈ sys.status.ranks, ∃ f ∈ nodeFacts sys w, renders sys w f = true ∧ f.name = rk.node) ∧
      ∀ f ∈ nodeFacts sys w, renders sys w f = true →
        sys.spec.engines.length ≤ joinedOn sys.status f.name

instance (sys : DaosSystem) (w : World) : Decidable (Covers sys w) := by
  unfold Covers
  infer_instance

/-- A membership answer: a member list, or that the storage is not formatted, or that the
service did not answer in time. -/
def isAnswer (env : Dmg.Envelope) : Bool :=
  match env.error with
  | some e => Dmg.classify e = .unformatted || Dmg.classify e = .timeout
  | none => (Dmg.systemQuery env).toBool

def answers (res : Dmg.Result) : Bool :=
  !(res.failure ≠ "" && res.output = "") &&
    match Dmg.parseAll res.output with
    | .ok (env :: _) => isAnswer env
    | _ => false

/-- The result of the system's query Job, once it finished. -/
def queryResult (sys : DaosSystem) (w : World) : Option Dmg.Result :=
  (w.jobs.get (jobKey sys.name (namespaceOf sys) .query)).bind fun job =>
    if job.deleting then none
    else (Dmg.jobFinished job.conditions).map fun failure => Dmg.jobResult failure job

/-- The membership is known, no format is under way, and a finished query answers. -/
def informed (sys : DaosSystem) (w : World) : Bool :=
  membershipKnown sys.status && !(formatApproved sys && sys.status.pendingFormat) &&
    (queryResult sys w).all answers

/-- A reconcile whose system is covered by the recorded ranks, or that is informed. -/
def Told (step : Step) : Prop :=
  ∀ name ∈ step.event.system, ∀ sys ∈ stored step.before.systems name, external sys = false →
    serverEnabled sys = true → plainTexts sys step.before = true ∧
      (Covers sys step.before ∨ informed sys step.before = true)
  deriving Decidable

namespace System

/-! ## The conditions -/

theorem isTrue_setCond_of_ne {t : ConditionType} {v : ConditionStatus}
    {reason msg : String} (hv : v ≠ .isTrue) :
    isStatusConditionTrue (setCond st t v reason msg).conditions t = false := by
  have hfind := findCond_setCond_self st t v reason msg
  unfold findCond at hfind
  simp [isStatusConditionTrue, hfind, hv]

/-- What the last switch of a reconcile has seen when it sets `Ready`. -/
structure SeenReady (sys : DaosSystem) (serversAllReady : Bool) (st : DaosSystemStatus) : Prop where
  enabled : serverEnabled sys = true
  servers : serversAllReady = true
  formatted : st.formatted = true
  stale : enginesReason st ≠ "StaleMembers"
  some_rank : st.ranksTotal ≠ 0
  joined : st.ranksTotal ≤ st.ranksJoined
  up : 0 < st.ranksTotal → st.ranksJoined = st.ranksTotal → enginesDown st = false

theorem ready_of_setReady {serversAllReady : Bool}
    (h : isStatusConditionTrue (setReady sys serversAllReady st).conditions .ready = true) :
    SeenReady sys serversAllReady st := by
  have hfalse : ∀ reason msg,
      isStatusConditionTrue (setCond st .ready .isFalse reason msg).conditions .ready ≠ true :=
    fun _ _ => by simp [isTrue_setCond_of_ne]
  unfold setReady at h
  extract_lets joined at h
  split at h
  · exact absurd h (hfalse _ _)
  next henabled =>
  split at h
  · exact absurd h (hfalse _ _)
  next hservers =>
  split at h
  · exact absurd h (hfalse _ _)
  split at h
  · exact absurd h (hfalse _ _)
  next hformatted =>
  split at h
  · exact absurd h (hfalse _ _)
  next hstale =>
  split at h
  · exact absurd h (hfalse _ _)
  next hdown =>
  split at h
  · exact absurd h (hfalse _ _)
  next hjoined =>
  rw [not_or, not_lt] at hjoined
  refine ⟨by simpa using henabled, by simpa using hservers, by simpa using hformatted, hstale,
    hjoined.1, hjoined.2, fun hpos heq => ?_⟩
  by_contra hup
  exact hdown ⟨hpos, heq, by simpa using hup⟩

/-- With a known membership, `EnginesReady` compares the ranks with nodes and engines. -/
theorem enginesReady_known
    (henabled : serverEnabled sys = true) (hknown : membershipKnown st = true)
    (hstale : enginesReason (setEnginesCondition sys st true) ≠ "StaleMembers")
    (hup : enginesDown (setEnginesCondition sys st true) = false) :
    staleRanks st = [] ∧ ∀ nc ∈ st.nodeConfigs, served nc = true →
      sys.spec.engines.length ≤ joinedOn st nc.node := by
  unfold setEnginesCondition at hstale hup
  simp only [henabled, hknown, Bool.not_true, Bool.false_eq_true, if_false] at hstale hup
  have hnone : staleRanks st = [] := by
    by_contra hsome
    rw [if_pos (by simpa using hsome)] at hstale
    exact hstale (by simp [enginesReason, findCond_setCond_self])
  refine ⟨hnone, fun nc hnc hserved => ?_⟩
  by_contra hshort
  rw [if_neg (by simp [hnone]), if_pos ?_] at hup
  · simp [enginesDown, findCond_setCond_self] at hup
  · have hmem : nc ∈ (st.nodeConfigs.filter served).filter
        fun nc => joinedOn st nc.node < sys.spec.engines.length := by
      simp only [List.mem_filter, decide_eq_true_eq]
      exact ⟨⟨hnc, hserved⟩, not_le.mp hshort⟩
    simpa using List.ne_nil_of_mem hmem

/-- The note on engine starts changes the message only. -/
theorem noteEngineRestarts_spec (st : DaosSystemStatus) (cands : List RankStatus)
    (tracks : Table Int EngineTrack) :
    enginesReason (noteEngineRestarts st cands tracks) = enginesReason st ∧
      enginesDown (noteEngineRestarts st cands tracks) = enginesDown st := by
  unfold noteEngineRestarts
  extract_lets tries notes
  split
  · next c hc =>
      split
      · simp [enginesReason, enginesDown, findCond_setCond_self, hc]
      · exact ⟨rfl, rfl⟩
  · exact ⟨rfl, rfl⟩

/-! ## From the switch to the meaning -/

theorem joinedOn_congr (h : st'.ranks = st.ranks) (node : String) :
    joinedOn st' node = joinedOn st node := by
  unfold joinedOn
  rw [h]

theorem fields_of_conditionMask
    (h : conditionMask st' = conditionMask st) :
    st'.ranks = st.ranks ∧ st'.nodeConfigs = st.nodeConfigs ∧ st'.ranksTotal = st.ranksTotal ∧
      st'.ranksJoined = st.ranksJoined := by
  have hranks := congrArg DaosSystemStatus.ranks h
  have hconfigs := congrArg DaosSystemStatus.nodeConfigs h
  have htotal := congrArg DaosSystemStatus.ranksTotal h
  have hjoined := congrArg DaosSystemStatus.ranksJoined h
  exact ⟨hranks, hconfigs, htotal, hjoined⟩

/-- The status at the end of a reconcile: `EnginesReady`, the note and `Ready` are set on
the status `st` that the rank operation left. -/
theorem meansReady_of_ready {serversAllReady : Bool}
    {cands : List RankStatus} {tracks : Table Int EngineTrack} (hcounted : Counted st)
    (hservers : serversAllReady = true → ∀ nc ∈ st.nodeConfigs, nc.workload ≠ "" →
      nc.serverReady = true)
    (htold : st.formatted = true → st.ranks ≠ [] → (∀ rk ∈ st.ranks, rk.state = memberJoined) →
      membershipKnown st = true ∨
        (∀ rk ∈ st.ranks, ∃ nc ∈ st.nodeConfigs, nc.workload ≠ "" ∧ nc.node = rk.node) ∧
          ∀ nc ∈ st.nodeConfigs, nc.workload ≠ "" →
            sys.spec.engines.length ≤ joinedOn st nc.node)
    (hready : isStatusConditionTrue (setReady sys serversAllReady (noteEngineRestarts
      (setEnginesCondition sys st serversAllReady) cands tracks)).conditions .ready = true) :
    MeansReady sys (setReady sys serversAllReady (noteEngineRestarts
      (setEnginesCondition sys st serversAllReady) cands tracks)) := by
  obtain ⟨henabled, hall, hformatted, hstale, hsome, hle, hup⟩ := ready_of_setReady hready
  have hnote := noteEngineRestarts_spec (setEnginesCondition sys st serversAllReady) cands tracks
  -- of the status, only conditions were set
  have hmask : conditionMask (noteEngineRestarts (setEnginesCondition sys st serversAllReady)
      cands tracks) = conditionMask st :=
    (conditionMask_noteEngineRestarts ..).trans (conditionMask_setEnginesCondition ..)
  have hend := (conditionMask_setReady sys serversAllReady (noteEngineRestarts
    (setEnginesCondition sys st serversAllReady) cands tracks)).trans hmask
  generalize noteEngineRestarts (setEnginesCondition sys st serversAllReady) cands tracks = mid at *
  generalize setReady sys serversAllReady mid = final at *
  obtain ⟨hranks, hconfigs, htotal, hjoined⟩ := fields_of_conditionMask hend
  obtain ⟨-, -, hmidTotal, hmidJoined⟩ := fields_of_conditionMask hmask
  have hmidFormatted : mid.formatted = st.formatted := by
    have hfield := congrArg DaosSystemStatus.formatted hmask
    exact hfield
  rw [hmidTotal] at hsome hle hup
  rw [hmidJoined] at hle hup
  have hpos : 0 < st.ranksTotal := by
    have hcount := hcounted.1
    omega
  have hne : st.ranks ≠ [] := by
    intro hnil
    rw [hcounted.1, hnil] at hpos
    cases hpos
  have hstates := hcounted.all_joined hle
  have hfull : st.ranksJoined = st.ranks.length := by
    rw [hcounted.2, List.filter_eq_self.mpr (by simpa using hstates)]
  have hready' := hservers hall
  have hcovered : (∀ rk ∈ st.ranks, ∃ nc ∈ st.nodeConfigs, nc.workload ≠ "" ∧ nc.node = rk.node) ∧
      ∀ nc ∈ st.nodeConfigs, nc.workload ≠ "" → sys.spec.engines.length ≤ joinedOn st nc.node := by
    rcases htold (hmidFormatted ▸ hformatted) hne hstates with hknown | hcovers
    · have hdown := hup hpos (by rw [hfull, hcounted.1])
      rw [hnote.1] at hstale
      rw [hnote.2] at hdown
      subst hall
      obtain ⟨hplaced, hengines⟩ := enginesReady_known henabled hknown hstale hdown
      constructor
      · intro rk hrk
        have hnotStale := List.filter_eq_nil_iff.mp hplaced rk hrk
        simpa using hnotStale
      · intro nc hnc hworkload
        exact hengines nc hnc (by simp [served, hworkload, hready' nc hnc hworkload])
    · exact hcovers
  exact
    { servers := by rwa [hconfigs]
      total := by rw [htotal, hranks, hcounted.1]
      joined := by rw [hjoined, hranks, hfull]
      ranks := by rwa [hranks]
      placed := by rw [hranks, hconfigs]; exact hcovered.1
      engines := by
        intro nc hnc hworkload
        rw [joinedOn_congr hranks]
        exact hcovered.2 nc (hconfigs ▸ hnc) hworkload }

/-! ## What an answer leaves in the condition `Formatted` -/

/-- The texts of a status that end up in the condition `Formatted` do not look like its
placeholder. -/
structure PlainStatus (st : DaosSystemStatus) : Prop where
  addrs : ∀ nc ∈ st.nodeConfigs, Text.hasSuffix nc.controlAddr "querying membership" = false
  attempt : ∀ lf ∈ st.lastFormat, Text.hasSuffix lf.message "querying membership" = false

theorem membershipKnown_setCond {reason msg : String}
    (h : Text.hasSuffix msg "querying membership" = false) :
    membershipKnown (setCond st .formatted .isTrue reason msg) = true := by
  simp [membershipKnown, findCond_setCond_self, h]

theorem not_suffix_of_last {s : String} {c : Char} (hs : s.toList.getLast? = some c)
    (hc : c ≠ 'p') : Text.hasSuffix s "querying membership" = false :=
  Text.hasSuffix_eq_false_of_last (c := 'p') rfl (by simp [hs, hc])

theorem plain_of_colon {s m : String} (hs : Text.hasSuffix s (": " ++ m) = true)
    (hm : Text.hasSuffix m "querying membership" = false) :
    Text.hasSuffix s "querying membership" = false := by
  by_contra hsuffix
  have htail := Text.hasSuffix_of_colon (p := "querying membership") hs (by decide) (by decide)
    (by simpa using hsuffix)
  rw [hm] at htail
  cases htail

theorem known_markUnresponsive (st : DaosSystemStatus) (leader : Option Dmg.Envelope) :
    membershipKnown (markUnresponsive st leader) = true := by
  unfold markUnresponsive
  extract_lets down ranks marked since
  refine membershipKnown_setCond ?_
  by_cases hnone : marked.isEmpty = true
  · rw [if_pos hnone, String.append_empty]
    simp only [since]
    split
    · exact not_suffix_of_last (Text.last_append _ (Text.last_append _ rfl)) (by decide)
    · exact not_suffix_of_last (Text.last_append _ rfl) (by decide)
  · rw [if_neg hnone]
    refine not_suffix_of_last (Text.last_append _ (Text.last_append _ (Text.last_join _ ?_ ?_)))
      (c := ')') (by decide)
    · simpa using hnone
    · intro part hpart
      obtain ⟨r, -, rfl⟩ := List.mem_map.mp hpart
      exact Text.last_append _ rfl

/-- A member list leaves a message that is not the placeholder. -/
theorem known_membersAnswer (h : PlainStatus st) (sys : DaosSystem)
    (nodeByAddr : List (String × String)) (approved : Bool) (members : List Dmg.Member)
    (queried : Time) :
    membershipKnown (membersAnswer sys nodeByAddr approved members queried st) = true := by
  unfold membersAnswer
  extract_lets st' joined awaiting unformatted msg
  refine membershipKnown_setCond ?_
  simp only [msg]
  by_cases hnone : unformatted.isEmpty = true
  · rw [if_pos hnone, String.append_empty]
    unfold awaitSuffix
    split
    · rw [String.append_empty]
      exact not_suffix_of_last (Text.last_append _ rfl) (by decide)
    · exact not_suffix_of_last (Text.last_append _ (Text.last_append _ rfl)) (by decide)
  rw [if_neg hnone]
  have hhosts : Text.hasSuffix (Text.join unformatted ",") "querying membership" = false := by
    by_contra hsuffix
    obtain ⟨host, hhost, hends⟩ := Text.hasSuffix_join (c := ',') rfl (by decide) (by decide)
      (show Text.hasSuffix (Text.join unformatted ",") "querying membership" = true by
        simpa using hsuffix)
    obtain ⟨nc, hnc, rfl⟩ := List.mem_map.mp (Text.mem_sortStrings.mp hhost)
    rw [h.addrs nc (List.mem_of_mem_filter hnc)] at hends
    cases hends
  have hlast : lastAttempt st' = lastAttempt st := rfl
  rw [hlast]
  unfold lastAttempt
  split
  · next why hwhy =>
      split at hwhy
      · next lf hlf =>
          split at hwhy
          · cases hwhy
          · cases hwhy
            refine plain_of_colon (Text.hasSuffix_append _ (Text.hasSuffix_append _
              (Text.hasSuffix_append_right (Text.hasSuffix_append _ ?_) lf.message))) ?_
            · decide
            · exact h.attempt lf hlf
      · cases hwhy
  · split
    · rw [String.append_empty]
      refine plain_of_colon (Text.hasSuffix_append _ (Text.hasSuffix_append_right ?_ _)) hhosts
      decide
    · exact not_suffix_of_last (Text.last_append _ (Text.last_append _ (Text.last_append _ rfl)))
        (by decide)

/-- What the gate leaves: the ranks it found, an unformatted system, or a known
membership. -/
def Reported (st st' : DaosSystemStatus) : Prop :=
  st'.ranks = st.ranks ∨ st'.formatted = false ∨ membershipKnown st' = true

theorem reported_readMembership (h : PlainStatus st) (sys : DaosSystem)
    (inp : FormatInput) (approved : Bool) (queried : Time) (env : Dmg.Envelope)
    (leader : Option Dmg.Envelope) :
    Reported st (readMembership sys inp approved queried env leader st).status := by
  unfold readMembership
  split
  · split
    · exact Or.inr (Or.inl rfl)
    · exact Or.inl rfl
    · exact Or.inr (Or.inr (known_markUnresponsive st leader))
    · exact Or.inl rfl
  · split
    · exact Or.inl rfl
    · exact Or.inr (Or.inr (known_membersAnswer h ..))

theorem reported_of_result (h : PlainStatus st)
    (hresult : FormatResult inp st st') : Reported st st' := by
  cases hresult with
  | waits => exact Or.inl rfl
  | reports v reason msg _ => exact Or.inl rfl
  | failed only msg now => exact Or.inl rfl
  | succeeded only now => exact Or.inl rfl
  | read sys approved now res =>
      unfold readQuery
      split
      · exact Or.inl rfl
      · split
        · exact Or.inl rfl
        · exact Or.inl rfl
        · exact reported_readMembership h ..
        · next env leader _ _ =>
            have hms : PlainStatus (setMsCondition st leader).1 := ⟨h.addrs, h.attempt⟩
            exact reported_readMembership hms ..

theorem known_of_isAnswer {env : Dmg.Envelope} (h : PlainStatus st)
    (henv : isAnswer env = true) (sys : DaosSystem) (inp : FormatInput) (approved : Bool)
    (queried : Time) (leader : Option Dmg.Envelope) :
    (readMembership sys inp approved queried env leader st).status.formatted = false ∨
      membershipKnown (readMembership sys inp approved queried env leader st).status = true := by
  unfold isAnswer at henv
  unfold readMembership
  split
  · next e he =>
      rw [he] at henv
      simp only [Bool.or_eq_true, decide_eq_true_eq] at henv
      rcases henv with hkind | hkind
      · rw [hkind]
        exact Or.inl rfl
      · rw [hkind]
        exact Or.inr (known_markUnresponsive st leader)
  · next he =>
      rw [he] at henv
      split
      · next e hmembers =>
          rw [hmembers] at henv
          cases henv
      · exact Or.inr (known_membersAnswer h ..)

/-- A result that answers makes the membership known, or finds the storage unformatted. -/
theorem known_of_answers {res : Dmg.Result} (h : PlainStatus st)
    (hanswers : answers res = true) (sys : DaosSystem) (inp : FormatInput) (approved : Bool)
    (now : Time) :
    (readQuery sys inp approved now res st).status.formatted = false ∨
      membershipKnown (readQuery sys inp approved now res st).status = true := by
  obtain ⟨houtput, henvs⟩ := Bool.and_eq_true_iff.mp hanswers
  unfold readQuery
  rw [if_neg (by simpa only [Bool.not_eq_true, Bool.not_eq_true'] using houtput)]
  split
  · next e hparse =>
      rw [hparse] at henvs
      cases henvs
  · next hparse =>
      rw [hparse] at henvs
      cases henvs
  · next env hparse =>
      rw [hparse] at henvs
      exact known_of_isAnswer h henvs ..
  · next env leader rest hparse =>
      rw [hparse] at henvs
      have hms : PlainStatus (setMsCondition st leader).1 := ⟨h.addrs, h.attempt⟩
      exact known_of_isAnswer hms henvs ..

/-- A reconcile that is informed stays so, unless it finds the storage unformatted. -/
theorem wp_reconcileFormat_informed {rely : Entry Call World → Prop} {s : Point Call World}
    {p : Pass} (hplain : PlainStatus p.status)
    (hinternal : external p.sys = false) (henabled : serverEnabled p.sys = true)
    (hrendered : inp.rendered ≠ 0) (hknown : membershipKnown p.status = true)
    (happroved : (formatApproved p.sys && p.status.pendingFormat) = false)
    (hquery : ∀ job failure, s.world.jobs.get (jobKey p.sys.name inp.ns .query) = some job →
      job.deleting = false → Dmg.jobFinished job.conditions = some failure →
        answers (Dmg.jobResult failure job) = true) :
    (reconcileFormat inp p).wp cluster rely s
      (fun r _ => r.2.status.formatted = false ∨ membershipKnown r.2.status = true)
      fun _ => True := by
  have hrefuse : refuseExternalFormat p.sys = .ret p.sys := by
    simp [refuseExternalFormat, hinternal]
  have hdecision : formatDecision (formatApproved p.sys && !external p.sys) p.status = none := by
    simp only [formatDecision, hinternal, Bool.not_false, Bool.and_true, happroved]
    rfl
  refine Prog.wp_ite (fun hguard => ?_) fun _ => ?_
  · simp [henabled, hrendered] at hguard
  rw [hrefuse]
  simp only [Prog.bind, hdecision]
  refine wp_queryPath_status (Q := fun st => st.formatted = false ∨ membershipKnown st = true) _
    (Or.inr hknown) (fun hnone => ?_) fun job failure hjob hlive hfinished now => ?_
  · simp [membershipKnown, hnone] at hknown
  · exact known_of_answers hplain (hquery job failure hjob hlive hfinished) ..

/-! ## The restart leaves the condition `Formatted` alone -/

theorem obeys_reconcileUpgrade_formatted {ns : String} (rendered : Nat) (p : Pass) :
    (reconcileUpgrade ns rendered p).Obeys (fun _ => True) fun r =>
      findCond r.pass.status .formatted = findCond p.status .formatted := by
  have hobeys : (reconcileUpgrade ns rendered p).Obeys
      (SystemCall p.sys.name ns (restartScope true)) _ :=
    obeys_reconcileUpgrade_restarts rfl rendered fun _ _ _ => rfl
  exact hobeys.mono (fun _ _ => trivial) fun _ h => h.formatted

/-! ## A whole reconcile -/

section Reconcile

variable {rely : Entry Call World → Prop} {s : Point Call World} {sys : DaosSystem} {ns : String}

/-- Every status with `Ready` in the log shows what it has to. -/
def ReadyLog (sys : DaosSystem) (log : Log) : Prop :=
  ∀ x ∈ log, ∀ st ∈ statusOf x, isStatusConditionTrue st.conditions .ready = true →
    MeansReady sys st

theorem ReadyLog.next {name : String} {S : Scope} {c : Call} (h : ReadyLog sys s.log)
    (hc : SystemCall name ns S c) (hS : S.status = false) (f : Fault) :
    ReadyLog sys (cluster.next s c f).log := by
  intro x hx st hst
  rcases Handler.mem_next_log hx with hx | rfl
  · exact h x hx st hst
  · simp only [statusOf] at hst
    split at hst
    · next other st' =>
        have hstatus := hc.of_status.2
        rw [hS] at hstatus
        cases hstatus
    · cases hst

theorem ReadyLog.wp {α : Type} {name : String} {S : Scope} {P : α → Prop} {q : Op α}
    (h : ReadyLog sys s.log) (hq : q.Obeys (SystemCall name ns S) P) (hS : S.status = false) :
    q.wp cluster rely s (fun a t => P a ∧ ReadyLog sys t.log) fun t => ReadyLog sys t.log :=
  hq.wp (I := fun t => ReadyLog sys t.log) (fun _ f _ hc _ _ ht => ht.next hc hS f) h

theorem ReadyLog.wp_updateStatus {p : Pass} (h : ReadyLog sys s.log)
    (hp : isStatusConditionTrue p.status.conditions .ready = true → MeansReady sys p.status)
    (requeue : Duration) :
    (updateStatus p requeue).wp cluster rely s (fun _ t => ReadyLog sys t.log)
      fun t => ReadyLog sys t.log := by
  have hwrite : ∀ f, ReadyLog sys
      (cluster.next s (.updateSystemStatus p.sys.name p.status) f).log := by
    intro f x hx st hst
    rcases Handler.mem_next_log hx with hx | rfl
    · exact h x hx st hst
    · cases hst
      exact hp
  refine Prog.wp_bind (A := fun _ t => ReadyLog sys t.log) ?_ fun _ _ ht => ht
  exact Prog.wp_ask (fun _ => hwrite .none) fun f _ _ _ => hwrite f

/-- Joined ranks are known to be all, or cover the nodes with a workload. -/
def Accounted (sys : DaosSystem) (st : DaosSystemStatus) : Prop :=
  st.formatted = true → st.ranks ≠ [] → (∀ rk ∈ st.ranks, rk.state = memberJoined) →
    membershipKnown st = true ∨
      (∀ rk ∈ st.ranks, ∃ nc ∈ st.nodeConfigs, nc.workload ≠ "" ∧ nc.node = rk.node) ∧
        ∀ nc ∈ st.nodeConfigs, nc.workload ≠ "" → sys.spec.engines.length ≤ joinedOn st nc.node

theorem eq_of_rankOpMask (h : rankOpMask st' = rankOpMask st) :
    st' = { st with lastRankOp := st'.lastRankOp } := by
  cases st
  cases st'
  simp only [rankOpMask, DaosSystemStatus.mk.injEq] at h ⊢
  simp [h]

theorem obeys_reconcileEngineRestart_noted (p : Pass) :
    (reconcileEngineRestart ns p).Obeys (fun _ => True) fun r =>
      r.2.sys = p.sys ∧ ∃ cands tracks, r.2.status = noteEngineRestarts p.status cands tracks := by
  have hobeys : (reconcileEngineRestart ns p).Obeys (SystemCall p.sys.name ns enginesScope) _ :=
    obeys_reconcileEngineRestart_notes rfl
  exact hobeys.returns

theorem engines_of_patched {allowed : SystemPatch → Bool} {sys' : DaosSystem}
    (h : Patched allowed sys sys') : sys'.spec.engines = sys.spec.engines :=
  h.proj (f := fun s => s.spec.engines) fun s p _ => by cases p <;> rfl

theorem meansReady_congr {sys' : DaosSystem} (h : MeansReady sys' st)
    (hengines : sys'.spec.engines = sys.spec.engines) : MeansReady sys st := by
  obtain ⟨hservers, htotal, hjoined, hranks, hplaced, hcount⟩ := h
  rw [hengines] at hcount
  exact ⟨hservers, htotal, hjoined, hranks, hplaced, hcount⟩

theorem wp_operate_ready {q : Pass} (hname : q.sys.name = sys.name)
    (hns : inp.ns = ns) (hengines : q.sys.spec.engines = sys.spec.engines)
    (hcounted : Counted q.status)
    (hservers : inp.serversAllReady = true → ∀ nc ∈ q.status.nodeConfigs, nc.workload ≠ "" →
      nc.serverReady = true)
    (hs : ReadyLog sys s.log)
    (hformat : (reconcileFormat inp q).wp cluster rely s
      (fun r _ => inp.serversAllReady = true → Accounted sys r.2.status) fun _ => True)
    (requeue : Duration) :
    (operate ns inp requeue q).wp cluster rely s (fun _ t => ReadyLog sys t.log)
      fun t => ReadyLog sys t.log := by
  have hobeys := obeys_reconcileFormat hname hns
  refine Prog.wp_bind (Prog.wp_mono (Prog.wp_and (Prog.wp_and_returns (hs.wp hobeys rfl)
    (obeys_reconcileFormat_result inp q)) hformat) (fun _ _ h => h) fun _ h => h.1) ?_
  rintro ⟨fmtRequeue, q₁⟩ t ⟨⟨⟨hadv₁, ht⟩, hresult⟩, haccounted⟩
  have hcounted₁ : Counted q₁.status := counted_gateInvariant.format inp _ _ hresult hcounted
  have hconfigs₁ : q₁.status.nodeConfigs = q.status.nodeConfigs := by
    have hmask := congrArg DaosSystemStatus.nodeConfigs hadv₁.status
    exact hmask
  have hname₁ : q₁.sys.name = sys.name := hadv₁.name.trans hname
  have hrankOp : (reconcileRankOp ns q₁).Obeys (SystemCall sys.name ns rankOpScope) _ :=
    obeys_reconcileRankOp hname₁
  refine Prog.wp_bind (Prog.wp_mono (ht.wp hrankOp rfl) (fun _ _ h => h) fun _ h => h) ?_
  rintro ⟨rankRequeue, q₂⟩ t ⟨hadv₂, ht⟩
  have hsame := eq_of_rankOpMask hadv₂.status
  have hname₂ : q₂.sys.name = sys.name := hadv₂.name.trans hname₁
  let q₃ : Pass := { q₂ with status := setEnginesCondition q₂.sys q₂.status inp.serversAllReady }
  have hrestart : (reconcileEngineRestart ns q₃).Obeys (SystemCall sys.name ns enginesScope) _ :=
    obeys_reconcileEngineRestart (p := q₃) hname₂
  refine Prog.wp_bind (Prog.wp_mono (Prog.wp_and_returns (ht.wp hrestart rfl)
    (obeys_reconcileEngineRestart_noted q₃)) (fun _ _ h => h) fun _ h => h) ?_
  rintro ⟨restartRequeue, q₄⟩ t ⟨⟨-, ht⟩, hsys, cands, tracks, hnoted⟩
  have hsys : q₄.sys = q₂.sys := hsys
  have hnoted : q₄.status = noteEngineRestarts (setEnginesCondition q₂.sys q₂.status
    inp.serversAllReady) cands tracks := hnoted
  have hengines₂ : q₂.sys.spec.engines = sys.spec.engines :=
    (engines_of_patched hadv₂.sys).trans ((engines_of_patched hadv₁.sys).trans hengines)
  refine ht.wp_updateStatus (p := { q₄ with status := setReady q₄.sys _ q₄.status }) ?_ _
  rw [hsys, hnoted]
  intro hready
  have hall := (ready_of_setReady hready).servers
  refine meansReady_congr (meansReady_of_ready ?_ ?_ ?_ hready) hengines₂
  · rw [hsame]
    exact hcounted₁
  · rw [hsame]
    intro hall
    change ∀ nc ∈ q₁.status.nodeConfigs, _
    rw [hconfigs₁]
    exact hservers hall
  · have haccounted₂ : Accounted q₂.sys q₁.status := by
      unfold Accounted
      rw [hengines₂]
      exact haccounted hall
    rw [hsame]
    exact haccounted₂

/-- What holds until the format gate is reached. -/
structure Heard (sys : DaosSystem) (w₀ : World) (t : Point Call World) : Prop where
  log : ReadyLog sys t.log
  nodes : t.world.nodes = w₀.nodes
  query : t.world.jobs.get (jobKey sys.name (namespaceOf sys) .query) =
    w₀.jobs.get (jobKey sys.name (namespaceOf sys) .query)

theorem Heard.next {w₀ : World} {S : Scope} {c : Call} (h : Heard sys w₀ s)
    (hc : SystemCall sys.name (namespaceOf sys) S c) (hstatus : S.status = false)
    (hquery : S.jobs .query = false) (f : Fault) : Heard sys w₀ (cluster.next s c f) where
  log := h.log.next hc hstatus f
  nodes := hc.surroundings.1.trans h.nodes
  query := by
    refine (hc.jobs_get fun k hk hkey => ?_).trans h.query
    rw [← (jobKey_inj hkey).2.2, hquery] at hk
    cases hk

/-- A reconcile that ends in a restart does not say `Ready`. -/
theorem notReady_duringUpgrade (q : Pass) :
    isStatusConditionTrue q.duringUpgrade.status.conditions .ready = false := by
  let why := (q.status.upgrade.map fun up => up.phase.text ++ ": " ++ up.message).getD ""
  have hother : findCond q.duringUpgrade.status .ready =
      findCond (q.cond .ready .isFalse "Upgrading" why).status .ready :=
    findCond_setCond_of_ne _ (by decide) ..
  have hnot := notReady_cond q "Upgrading" why
  unfold findCond at hother
  unfold isStatusConditionTrue at hnot ⊢
  rw [hother, hnot]

/-- The pass that reaches the format gate, and what it still says of `sys`. -/
structure AtGate (sys : DaosSystem) (r : Rendering) (q : Pass) : Prop where
  patched : Patched upgradeScope.patches sys q.sys
  report : gateReport q.status = gateReport sys.status
  configs : q.status.nodeConfigs = r.nodeConfigs
  formatted : findCond q.status .formatted = findCond sys.status .formatted

theorem HandsOver.atGate {r : Rendering} {p q : Pass} (hover : HandsOver sys w r p)
    (hadv : UpgradeAdvances p q)
    (hcond : findCond q.status .formatted = findCond p.status .formatted) : AtGate sys r q where
  patched := hover.pass.carried.sys_eq ▸ hadv.sys
  report := by
    have hupgrade := congrArg gateReport hadv.status
    have hcarried := congrArg gateReport hover.pass.carried.status_eq
    exact hupgrade.trans hcarried
  configs := by
    have hmask := congrArg DaosSystemStatus.nodeConfigs hadv.status
    exact hmask.trans hover.pass.configs
  formatted := hcond.trans hover.formatted

theorem AtGate.plain {r : Rendering} {p q : Pass} (h : AtGate sys r q)
    (hover : HandsOver sys w r p) (hplain : plainTexts sys w = true) : PlainStatus q.status := by
  simp only [plainTexts, Bool.and_eq_true, List.all_eq_true, Bool.not_eq_true'] at hplain
  constructor
  · intro nc hnc
    obtain ⟨f, hf, -, haddr⟩ := hover.visited.configs nc (h.configs ▸ hnc)
    rw [haddr]
    exact hplain.1 f hf
  · intro lf hlf
    have hlast : q.status.lastFormat = sys.status.lastFormat := by
      have hfield := congrArg DaosSystemStatus.lastFormat h.report
      exact hfield
    rw [hlast] at hlf
    have hattempt := hplain.2
    rw [show sys.status.lastFormat = some lf from hlf] at hattempt
    simpa using hattempt

/-- Ranks that cover the nodes are accounted for. -/
theorem accounted_of_covers {r : Rendering} {p : Pass}
    (hover : HandsOver sys w r p) (hcovers : Covers sys w) (hranks : st.ranks = sys.status.ranks)
    (hconfigs : st.nodeConfigs = r.nodeConfigs) (henabled : serverEnabled sys = true) :
    Accounted sys st := by
  intro _ hne hjoined
  rw [hranks] at hne hjoined
  obtain ⟨hplaced, hcount⟩ := hcovers hne hjoined
  right
  rw [hranks, hconfigs]
  constructor
  · intro rk hrk
    obtain ⟨f, hf, hrenders, hnode⟩ := hplaced rk hrk
    obtain ⟨nc, hnc, hname, hworkload⟩ := hover.tally.served henabled f hf hrenders
    exact ⟨nc, hnc, hworkload, hname.trans hnode⟩
  · intro nc hnc hworkload
    obtain ⟨-, f, hf, hrenders, hnode⟩ := hover.tally.workload nc hnc hworkload
    rw [joinedOn_congr hranks, hnode]
    exact hcount f hf hrenders

theorem covers_congr {w' : World} (h : w.nodes = w'.nodes) : Covers sys w ↔ Covers sys w' := by
  simp only [Covers, nodeFacts_congr h, renders_congr h]

theorem plainTexts_congr {w' : World} (h : w.nodes = w'.nodes) :
    plainTexts sys w = plainTexts sys w' := by
  simp only [plainTexts, nodeFacts_congr h]

/-- The gate accounts for the ranks of a system that is covered or informed. -/
theorem wp_reconcileFormat_accounted {w₀ : World} {r : Rendering} {p q : Pass}
    (hinternal : external sys = false) (hover : HandsOver sys w r p) (hgate : AtGate sys r q)
    (hs : Heard sys w₀ s) (hnodes : w.nodes = w₀.nodes) (hns : inp.ns = namespaceOf sys)
    (hready : inp.serversAllReady = true → serverEnabled sys = true ∧ inp.rendered ≠ 0)
    (htold : serverEnabled sys = true → plainTexts sys w₀ = true ∧
      (Covers sys w₀ ∨ informed sys w₀ = true)) :
    (reconcileFormat inp q).wp cluster rely s
      (fun r _ => inp.serversAllReady = true → Accounted sys r.2.status) fun _ => True := by
  by_cases hall : inp.serversAllReady = true
  · obtain ⟨henabled, hrendered⟩ := hready hall
    obtain ⟨htexts, htold⟩ := htold henabled
    have hplain := hgate.plain hover (plainTexts_congr hnodes ▸ htexts)
    have hname : q.sys.name = sys.name := hgate.patched.name
    rcases htold with hcovers | hinformed
    · have hobeys : (reconcileFormat inp q).Obeys (SystemCall q.sys.name inp.ns formatScope) _ :=
        obeys_reconcileFormat rfl rfl
      have hresult : (reconcileFormat inp q).wp cluster rely s
          (fun r _ => FormatAdvances q r.2 ∧ True) fun _ => True :=
        hobeys.wp (fun _ _ _ _ _ _ _ => trivial) trivial
      refine Prog.wp_mono (Prog.wp_and_returns hresult (obeys_reconcileFormat_result inp q)) ?_
        fun _ h => h
      rintro ⟨_, q'⟩ _ ⟨⟨hadv, -⟩, hr⟩ -
      have hconfigs : q'.status.nodeConfigs = r.nodeConfigs := by
        have hmask := congrArg DaosSystemStatus.nodeConfigs hadv.status
        exact hmask.trans hgate.configs
      have hranks : q.status.ranks = sys.status.ranks := by
        have hfield := congrArg DaosSystemStatus.ranks hgate.report
        exact hfield
      rcases reported_of_result hplain hr with hsame | hunformatted | hknown
      · exact accounted_of_covers hover ((covers_congr hnodes).mpr hcovers) (hsame.trans hranks)
          hconfigs henabled
      · intro hformatted
        rw [show q'.status.formatted = true from hformatted] at hunformatted
        cases hunformatted
      · exact fun _ _ _ => Or.inl hknown
    · simp only [informed, Bool.and_eq_true, Bool.not_eq_true'] at hinformed
      obtain ⟨⟨hknown, hpending⟩, hanswers⟩ := hinformed
      have hkeep : ∀ {β : Type} (g : DaosSystem → β),
          (∀ s p, upgradeScope.patches p = true → g (p.apply s) = g s) → g q.sys = g sys :=
        fun g hg => hgate.patched.proj hg
      have hinternal' : external q.sys = false :=
        (hkeep external fun s p _ => by cases p <;> rfl).trans hinternal
      have henabled' : serverEnabled q.sys = true :=
        (hkeep serverEnabled fun s p _ => by cases p <;> rfl).trans henabled
      have hpending' : (formatApproved q.sys && q.status.pendingFormat) = false := by
        have happroved := hkeep formatApproved fun s p hp => by
          cases p with
          | removeFormatApproved => cases hp
          | _ => rfl
        have hfield : q.status.pendingFormat = sys.status.pendingFormat := by
          have hreport := congrArg DaosSystemStatus.pendingFormat hgate.report
          exact hreport
        rw [happroved, hfield, hpending]
      have hknown' : membershipKnown q.status = true := by
        unfold membershipKnown
        rw [hgate.formatted]
        exact hknown
      refine Prog.wp_mono (wp_reconcileFormat_informed hplain hinternal' henabled' hrendered hknown'
        hpending' ?_) ?_ fun _ h => h
      · intro job failure hjob hlive hfinished
        rw [hname, hns, hs.query] at hjob
        simpa [queryResult, hjob, hlive, hfinished] using hanswers
      · rintro r' _ (hunformatted | hknown) - hformatted _ _
        · rw [hformatted] at hunformatted
          cases hunformatted
        · exact Or.inl hknown
  · exact Prog.wp_mono (Prog.wp_log _) (fun _ _ _ h => absurd h hall) fun _ _ => trivial

theorem outline_ready {w₀ : World} (hinternal : external sys = false)
    (hcounted : Counted sys.status)
    (htold : serverEnabled sys = true → plainTexts sys w₀ = true ∧
      (Covers sys w₀ ∨ informed sys w₀ = true)) :
    Outline sys rely (Heard sys w₀) fun t => ReadyLog sys t.log where
  render c f t hc _ _ ht := ht.next hc rfl rfl f
  stop _ ht := ht.log
  early p t requeue hp ht := by
    refine ht.log.wp_updateStatus (fun hready => ?_) requeue
    rw [hp.notReady] at hready
    cases hready
  elsewhere p t hp _ := by
    have hexternal := hp.external
    rw [hinternal] at hexternal
    cases hexternal
  handOver r p t requeue hover ht := by
    have hobeys := hover.pass.carried.obeys_upgrade r.rendered
    refine Prog.wp_bind (Prog.wp_mono (Prog.wp_and_returns (hobeys.wp (I := Heard sys w₀)
      (fun c f t hc _ _ ht => ht.next hc rfl rfl f) ht)
        (obeys_reconcileUpgrade_formatted r.rendered p)) (fun _ _ h => h) fun _ h => h.log) ?_
    rintro ⟨inProgress, upRequeue, q⟩ u ⟨⟨hadv, hu⟩, hcond⟩
    have hgate := HandsOver.atGate hover hadv hcond
    refine Prog.wp_ite (fun _ => ?_) fun _ => ?_
    · refine hu.log.wp_updateStatus (fun hready => ?_) _
      rw [notReady_duringUpgrade] at hready
      cases hready
    · refine wp_operate_ready hgate.patched.name rfl (engines_of_patched hgate.patched)
        (hcounted.congr hgate.report) ?_ hu.log ?_ _
      · intro hall nc hnc hworkload
        simp only [Bool.and_eq_true, List.isEmpty_iff] at hall
        exact hover.tally.ready hall.2 nc (hgate.configs ▸ hnc) hworkload
      · refine wp_reconcileFormat_accounted hinternal hover hgate hu ht.nodes rfl ?_ htold
        intro hall
        simp only [Bool.and_eq_true, decide_eq_true_eq] at hall
        refine ⟨?_, hall.1.2.ne'⟩
        rw [← hover.pass.carried.sys_eq]
        exact hall.1.1

end Reconcile

end System

/-! ## Every run -/

/-- In a run whose reconciles are told about the membership, `Ready` means what it says. -/
theorem ready_meant (events : List Event) (htold : ∀ step ∈ history events, Told step) :
    ∀ step ∈ history events, ReadyMeant step := by
  intro step hstep name hname sys hsys hinternal
  have htold := htold step hstep name hname sys hsys hinternal
  obtain ⟨before, e, after, rfl, rfl⟩ := Machine.exists_of_mem_history hstep
  obtain ⟨faults, rfl⟩ := Event.eq_of_system (e := e) hname
  obtain rfl : sys.name = name := (wellNamed_final before).systems.stored hsys
  have hcounted : Counted sys.status := counted_gateInvariant.final before _ sys hsys
  have hwp : (reconcile sys.name).wp cluster (fun _ => True) ⟨final before, []⟩
      (fun _ t => ReadyLog sys t.log) fun t => ReadyLog sys t.log := by
    have hstart : Heard sys (final before) ⟨final before, []⟩ :=
      ⟨by simp [ReadyLog], rfl, rfl⟩
    have hread : ∀ f, Heard sys (final before)
        (cluster.next ⟨final before, []⟩ (.getSystem sys.name) f) := fun f =>
      hstart.next (S := {}) (.quiet rfl) rfl rfl f
    refine wp_reconcile (fun f _ => (hread f).log) ?_
    intro sys' hsys' _ _
    obtain rfl : sys = sys' := Option.some.inj (hsys.symm.trans hsys')
    exact (outline_ready hinternal hcounted htold).wp_reconcileSystem (hread .none)
  exact Prog.exec_ends hwp faults fun _ _ => trivial

/-- Rank 0 on node `a` is joined. -/
def joinedOnA : String :=
  "\x7b\"response\":\x7b\"members\":[\x7b\"rank\":0,\"addr\":\"a\",\"state\":\"joined\"" ++
    "\x7d]\x7d\x7d"

/-- Node `b` is added to a ready system, its server comes up, and the next membership query
prints `answer`. -/
def addedNodeRun (answer : String) : List Event :=
  let query : ObjectKey := ⟨"daos-system", "s-dmg-query"⟩
  [.change (.createSystem "s" {}
      { msReplicas := 1, allowInsecure := true
        engines := [{ fabricIface := "ib0", bdevList := ["0000:81:00.0"] }] }),
    .change (.setNodes [{ name := "a" }]),
    .reconcileSystem "s" [],
    .change (.setReadyReplicas ⟨"daos-system", "s-server-a"⟩ 1),
    .change (.jobProgress query [.complete true]
      [{ name := "query", created := 0, log := joinedOnA }]),
    .reconcileSystem "s" [],
    .change (.jobRemoved query),
    .change (.setNodes [{ name := "a" }, { name := "b" }]),
    .change (.tick 3600),
    .reconcileSystem "s" [],
    .change (.setReadyReplicas ⟨"daos-system", "s-server-b"⟩ 1),
    .change (.jobProgress query [.complete true]
      [{ name := "query", created := 0, log := answer }]),
    .reconcileSystem "s" []]

/-- The system is ready before the node is added; with an answer it is not afterwards. -/
theorem ready_meant_answered :
    (∃ step ∈ history (addedNodeRun joinedOnA), ∃ x ∈ step.obs, ∃ st ∈ statusOf x,
      isStatusConditionTrue st.conditions .ready = true) ∧
        ∀ step ∈ history (addedNodeRun joinedOnA), ReadyMeant step := by
  have hrun : (∃ step ∈ history (addedNodeRun joinedOnA), ∃ x ∈ step.obs, ∃ st ∈ statusOf x,
      isStatusConditionTrue st.conditions .ready = true) ∧
        ∀ step ∈ history (addedNodeRun joinedOnA), Told step := by
    decide +kernel
  exact ⟨hrun.1, ready_meant (addedNodeRun joinedOnA) hrun.2⟩

/-- Without an answer the counts of the old one decide: `Ready`, and no engine on `b`. -/
theorem ready_unmeant_unreachable :
    ¬∀ step ∈ history (addedNodeRun "\x7b\"error\":\"connection refused\"\x7d"),
      ReadyMeant step := by
  decide +kernel

end DaosOperator
