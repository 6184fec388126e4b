import DaosOperator.Dmg.Truncation
import DaosOperator.System.Frame

/-!
# Where the membership comes from

The pod of a membership query runs two commands and, between them, echoes an envelope
when the first one took too long.  The operator tells their answers apart by position:
the first envelope of the log is the membership, the second one the leader.  When the
first command prints nothing, the answer of the second is taken for the membership.
-/

namespace DaosOperator.System

open Effect

/-! ## The log of a query -/

/-- The log of a query Job: each of the two commands, and the echo between them, prints at
most one envelope. -/
structure QueryLog where
  query : Option Dmg.Printed
  echo : Option Dmg.Printed
  leader : Option Dmg.Printed
  trailing : List Char
  quiet : Dmg.Quiet trailing
  echoes : ∀ p ∈ echo, '{' :: p.body = (Dmg.timeoutEnvelope membershipQueryTimeout).toList

def QueryLog.output (l : QueryLog) : Dmg.Output where
  printed := l.query.toList ++ l.echo.toList ++ l.leader.toList
  trailing := l.trailing
  quiet := l.quiet

/-- What a status says about the format and the members. -/
structure Membership where
  formatted : Bool
  pendingFormat : Bool
  ranks : List RankStatus
  ranksJoined : Int
  ranksTotal : Int
  deriving DecidableEq

def membership (st : DaosSystemStatus) : Membership :=
  ⟨st.formatted, st.pendingFormat, st.ranks, st.ranksJoined, st.ranksTotal⟩

/-- The membership after an envelope that is read alone. -/
def membershipFrom (inp : FormatInput) (env : Dmg.Envelope) (st : DaosSystemStatus) : Membership :=
  membership (readMembership { name := "" } inp false 0 env none st).status

/-- Whenever `reconcileFormat` finds a query Job with this log and does not format, it leaves
the membership alone or takes it from the envelope of `dmg system query`. -/
def ReadsOnlyQuery (l : QueryLog) : Prop :=
  ∀ (inp : FormatInput) (p : Pass) (w : World) (faults : List Fault) (job : Job)
    (r : Duration × Pass),
    w.jobs.get (jobKey p.sys.name inp.ns .query) = some job →
    (Dmg.newestPod job.pods).map (·.log) = some (String.ofList l.output.text) →
    formatDecision (formatApproved p.sys && !external p.sys) p.status = none →
    ((reconcileFormat inp p).exec cluster faults w).result = .ok r →
    membership r.2.status = membership p.status ∨
      ∃ printed ∈ l.query, membership r.2.status = membershipFrom inp printed.envelope p.status

/-! ## When the position tells the answers apart -/

def reportsTimeout (env : Dmg.Envelope) : Bool :=
  env.error.any fun e => Dmg.classify e = .timeout

def namesDown (env : Dmg.Envelope) : Bool :=
  match Dmg.leaderQuery env with
  | .ok (some info) => !info.downReplicas.isEmpty
  | _ => false

/-- Read as a membership, the envelope changes nothing. -/
def saysNothing (env : Dmg.Envelope) : Bool :=
  match env.error with
  | some e => Dmg.classify e ≠ .unformatted && Dmg.classify e ≠ .timeout
  | none => !(Dmg.systemQuery env).isOk

/-- The membership query printed its envelope, and that is no timeout next to a leader answer
with replicas that are down; or it printed none, there was no echo, and the leader answer
says nothing when it is read as a membership. -/
def QueryLog.tellsApart (l : QueryLog) : Bool :=
  match l.query with
  | some q => !reportsTimeout q.envelope || l.echo.isSome || !l.leader.any (namesDown ·.envelope)
  | none => l.echo.isNone && l.leader.all (saysNothing ·.envelope)

/-! ## Reading the membership -/

section Reading

variable {inp : FormatInput} {st : DaosSystemStatus}

/-- The membership with the ranks of some nodes marked. -/
def Membership.mark (m : Membership) (down : List String) : Membership :=
  let ranks := m.ranks.map fun r =>
    if r.node ∈ down then { r with state := memberUnresponsive } else r
  { m with ranks, ranksJoined := (ranks.filter fun r => r.state = memberJoined).length }

def Membership.read (m : Membership) (inp : FormatInput) (env : Dmg.Envelope)
    (leader : Option Dmg.Envelope) (configs : List NodeConfigStatus) : Membership :=
  match env.error with
  | some e =>
      match Dmg.classify e with
      | .unformatted => ⟨false, true, [], 0, 0⟩
      | .timeout => m.mark (downNodes { nodeConfigs := configs } leader)
      | _ => m
  | none =>
      match Dmg.systemQuery env with
      | .error _ => m
      | .ok members =>
          membership (membersAnswer { name := "" } inp.nodeByAddr false members 0
            { nodeConfigs := configs })

theorem membership_readMembership (sys : DaosSystem) (approved : Bool) (queried : Time)
    (env : Dmg.Envelope) (leader : Option Dmg.Envelope) :
    membership (readMembership sys inp approved queried env leader st).status =
      (membership st).read inp env leader st.nodeConfigs := by
  cases herror : env.error with
  | some e =>
      cases hkind : Dmg.classify e <;>
        simp only [readMembership, Membership.read, herror, hkind] <;> rfl
  | none =>
      cases hmembers : Dmg.systemQuery env with
      | error e =>
          simp only [readMembership, Membership.read, herror, hmembers]
          rfl
      | ok members =>
          simp only [readMembership, Membership.read, herror, hmembers]
          rfl

theorem membershipFrom_eq (env : Dmg.Envelope) :
    membershipFrom inp env st = (membership st).read inp env none st.nodeConfigs :=
  membership_readMembership ..

/-- The membership after a query Job with some log. -/
def Membership.readAll (m : Membership) (inp : FormatInput) (configs : List NodeConfigStatus) :
    List Dmg.Envelope → Membership
  | [] => m
  | [env] => m.read inp env none configs
  | env :: leader :: _ => m.read inp env (some leader) configs

theorem Membership.readAll_cons (m : Membership) (env : Dmg.Envelope) (envs : List Dmg.Envelope)
    (configs : List NodeConfigStatus) :
    m.readAll inp configs (env :: envs) = m.read inp env envs.head? configs := by
  cases envs <;> rfl

theorem membership_readQuery (sys : DaosSystem) (approved : Bool) (now : Time) (o : Dmg.Output)
    {res : Dmg.Result} (hres : res.output = String.ofList o.text) :
    membership (readQuery sys inp approved now res st).status =
      (membership st).readAll inp st.nodeConfigs o.envelopes := by
  by_cases hnil : o.envelopes = []
  · obtain ⟨msg, hparse⟩ := Dmg.parseAll_text_nil o hnil
    rw [hnil]
    unfold readQuery
    rw [hres, hparse]
    split <;> rfl
  · have hparse := Dmg.parseAll_text o hnil
    have hsome : ¬(res.failure ≠ "" && res.output = "") = true := by
      intro hempty
      have houtput : res.output = "" := by simpa using (Bool.and_eq_true_iff.mp hempty).2
      rw [houtput] at hres
      rw [← hres] at hparse
      cases hparse
    unfold readQuery
    rw [if_neg hsome, hres, hparse]
    match henvs : o.envelopes with
    | [] => exact (hnil henvs).elim
    | [env] => exact membership_readMembership ..
    | env :: leader :: rest => exact membership_readMembership ..

/-- The leader answer matters for a timeout only, and then by the replicas that are down. -/
theorem Membership.read_leader (m : Membership) {env leader : Dmg.Envelope}
    (configs : List NodeConfigStatus) (h : reportsTimeout env = true → namesDown leader = false) :
    m.read inp env (some leader) configs = m.read inp env none configs := by
  cases herror : env.error with
  | none => simp only [Membership.read, herror]
  | some e =>
      cases hkind : Dmg.classify e with
      | timeout =>
          have hnone := h (by simp [reportsTimeout, herror, hkind])
          have hdown : downNodes { nodeConfigs := configs } (some leader) =
              downNodes { nodeConfigs := configs } none := by
            cases hleader : Dmg.leaderQuery leader with
            | error e => simp only [downNodes, Option.map_some, hleader, Option.map_none]
            | ok info =>
                cases info with
                | none => simp only [downNodes, Option.map_some, hleader, Option.map_none]
                | some info =>
                    have hempty : info.downReplicas = [] := by
                      simpa [namesDown, hleader] using hnone
                    simp [downNodes, hleader, hempty]
          simp only [Membership.read, herror, hkind, hdown]
      | _ => simp only [Membership.read, herror, hkind]

theorem Membership.read_nothing (m : Membership) {env : Dmg.Envelope} (leader : Option Dmg.Envelope)
    (configs : List NodeConfigStatus) (h : saysNothing env = true) :
    m.read inp env leader configs = m := by
  unfold saysNothing at h
  unfold Membership.read
  cases herror : env.error with
  | none =>
      cases hmembers : Dmg.systemQuery env with
      | error e => rfl
      | ok members =>
          rw [herror, hmembers] at h
          cases h
  | some e =>
      rw [herror] at h
      cases hkind : Dmg.classify e <;> simp_all

end Reading

/-! ## The envelopes of a log -/

/-- The envelope of the timeout echo. -/
def timedOut : Dmg.Envelope := ⟨"null", some "dmg: no answer within 60 s", -1⟩

theorem readEnvelope_timeoutEnvelope :
    Dmg.readEnvelope (Dmg.timeoutEnvelope membershipQueryTimeout).toList = .ok (timedOut, []) := by
  decide +kernel

theorem namesDown_timedOut : namesDown timedOut = false := by decide

theorem reportsTimeout_timedOut : reportsTimeout timedOut = true := by decide +kernel

theorem QueryLog.envelope_echo (l : QueryLog) {p : Dmg.Printed} (hp : p ∈ l.echo) :
    p.envelope = timedOut := by
  have hreads := p.reads
  rw [l.echoes p hp, readEnvelope_timeoutEnvelope] at hreads
  exact (Prod.mk.inj (Except.ok.inj hreads)).1.symm

theorem QueryLog.envelopes (l : QueryLog) :
    l.output.envelopes = (l.query.toList ++ l.echo.toList ++ l.leader.toList).map (·.envelope) :=
  rfl

/-- Where the position tells the answers apart, the membership comes from the query. -/
theorem QueryLog.readAll_of_tellsApart (l : QueryLog) (h : l.tellsApart = true) (m : Membership)
    (inp : FormatInput) (configs : List NodeConfigStatus) :
    m.readAll inp configs l.output.envelopes = m ∨
      ∃ q ∈ l.query,
        m.readAll inp configs l.output.envelopes = m.read inp q.envelope none configs := by
  rw [l.envelopes]
  unfold tellsApart at h
  cases hquery : l.query with
  | none =>
      rw [hquery] at h
      simp only [Bool.and_eq_true, Option.isNone_iff_eq_none] at h
      rw [h.1]
      left
      cases hleader : l.leader with
      | none => rfl
      | some p =>
          have hnothing : saysNothing p.envelope = true := by simpa [hleader] using h.2
          exact m.read_nothing none configs hnothing
  | some q =>
      rw [hquery] at h
      right
      refine ⟨q, rfl, ?_⟩
      cases hecho : l.echo with
      | some e =>
          have henv : e.envelope = timedOut := l.envelope_echo hecho
          refine m.read_leader configs fun _ => ?_
          change namesDown e.envelope = false
          rw [henv, namesDown_timedOut]
      | none =>
          cases hleader : l.leader with
          | none => rfl
          | some p =>
              refine m.read_leader configs fun htimeout => ?_
              simpa [hecho, hleader, htimeout] using h

/-! ## The reconcile that reads the log -/

section Reconcile

variable {inp : FormatInput} {p : Pass} {w : World} {job : Job}

/-- The status after the query, when the Job is read and when it is not. -/
def ReadsJob (inp : FormatInput) (job : Job) (st st' : DaosSystemStatus) : Prop :=
  membership st' = membership st ∨ ∃ sys approved now failure,
    st' = (readQuery sys inp approved now (Dmg.jobResult failure job) st).status

theorem wp_queryPath_readsJob {s : Point Call World} (approved : Bool)
    (hjob : s.world.jobs.get (jobKey p.sys.name inp.ns .query) = some job) :
    (queryPath inp approved p).wp cluster (fun _ => True) s
      (fun r _ => ReadsJob inp job p.status r.2.status) fun _ => True := by
  refine wp_queryPath_status (Q := ReadsJob inp job p.status) approved (Or.inl rfl)
    (fun _ => Or.inl rfl) fun job' failure hjob' _ _ now => ?_
  obtain rfl : job = job' := Option.some.inj (hjob.symm.trans hjob')
  exact Or.inr ⟨p.sys, approved, now, failure, rfl⟩

theorem wp_reconcileFormat_readsJob
    (hjob : w.jobs.get (jobKey p.sys.name inp.ns .query) = some job)
    (hdecision : formatDecision (formatApproved p.sys && !external p.sys) p.status = none) :
    (reconcileFormat inp p).wp cluster (fun _ => True) ⟨w, []⟩
      (fun r _ => ReadsJob inp job p.status r.2.status) fun _ => True := by
  refine Prog.wp_ite (fun _ => Or.inl rfl) fun _ => ?_
  dsimp only
  refine Prog.wp_bind (A := fun sys t => sys.name = p.sys.name ∧
    t.world.jobs.get (jobKey p.sys.name inp.ns .query) = some job) ?_ ?_
  · have hobeys : (refuseExternalFormat p.sys).Obeys
        (SystemCall p.sys.name inp.ns { patches := fun _ => true })
        (Patched formatScope.patches p.sys) := obeys_refuseExternalFormat rfl rfl
    refine Prog.wp_mono (hobeys.wp
      (I := fun t => t.world.jobs.get (jobKey p.sys.name inp.ns .query) = some job) ?_ hjob)
      (fun sys t h => ⟨h.1.name, h.2⟩) fun _ _ => trivial
    intro c f t hc _ _ ht
    rw [Handler.next_world, hc.jobs_get (fun k hk => by cases hk), ht]
  · rintro sys t ⟨hname, ht⟩
    rw [hdecision]
    refine wp_queryPath_readsJob (p := { p with sys }) _ ?_
    rw [hname, ht]

end Reconcile

/-! ## A reconcile for every log -/

def answeredJob (log : String) : Job where
  uid := 0
  spec := jobSpec { name := "s" } "" .query (.dmg [])
  created := 0
  conditions := [.complete true]
  pods := [{ name := "query", created := 0, log }]

/-- The cluster with that Job. -/
def answeredWorld (log : String) : World :=
  { jobs := Table.empty.put (jobKey "s" "" .query) (some (answeredJob log)) }

theorem readMembership_dropApproval (sys : DaosSystem) (inp : FormatInput) (queried : Time)
    (env : Dmg.Envelope) (leader : Option Dmg.Envelope) (st : DaosSystemStatus) :
    (readMembership sys inp false queried env leader st).dropApproval = false := by
  unfold readMembership
  split
  · split <;> rfl
  · split <;> rfl

theorem readQuery_dropApproval (sys : DaosSystem) (inp : FormatInput) (now : Time)
    (res : Dmg.Result) (st : DaosSystemStatus) :
    (readQuery sys inp false now res st).dropApproval = false := by
  unfold readQuery
  split
  · rfl
  · split
    · rfl
    · rfl
    · exact readMembership_dropApproval ..
    · exact readMembership_dropApproval ..

theorem exec_finishQuery (q : QueryRead) (hq : q.dropApproval = false) (sys : DaosSystem)
    (w : World) :
    ((finishQuery q sys).exec cluster [] w).result = .ok (q.requeue, ⟨sys, q.status⟩) := by
  unfold finishQuery
  rw [hq]
  cases q.degraded <;> rfl

/-- Without faults, the reconcile reads the log into the status. -/
theorem exec_reconcileFormat_answered (log : String) (st : DaosSystemStatus) :
    ∃ r now, ((reconcileFormat ⟨"", [], 1, true⟩ ⟨{ name := "s" }, st⟩).exec cluster []
        (answeredWorld log)).result = .ok r ∧
      r.2.status = (readQuery { name := "s" } ⟨"", [], 1, true⟩ false now
        (Dmg.jobResult "" (answeredJob log)) st).status := by
  have hquery : reconcileFormat ⟨"", [], 1, true⟩ ⟨{ name := "s" }, st⟩ =
      queryPath ⟨"", [], 1, true⟩ false ⟨{ name := "s" }, st⟩ := rfl
  have hjob : (answeredWorld log).jobs.get (jobKey "s" "" .query) = some (answeredJob log) :=
    Table.get_put_self ..
  have hrun : ((runDmgThen { name := "s" } "" .query ["system", "leader-query"]
      ["system", "query", "-v"]).exec cluster [] (answeredWorld log)).result =
      .ok (Dmg.jobResult "" (answeredJob log)) := Dmg.exec_run_finished hjob rfl rfl
  have hhold : (cluster.perform (.holdFor "s") (answeredWorld log)).1 = 0 := rfl
  rw [hquery]
  unfold queryPath
  rw [Prog.exec_bind_nil (Prog.exec_ask_nil _).1, (Prog.exec_ask_nil _).2, hhold,
    if_neg (Nat.lt_irrefl 0),
    show (cluster.perform (.holdFor "s") (answeredWorld log)).2 = answeredWorld log from rfl,
    Prog.exec_bind_nil (Prog.exec_mapError_nil hrun).1, if_neg (by simp [Dmg.done_jobResult]),
    Prog.exec_bind_nil (Prog.exec_ask_nil _).1, exec_finishQuery _ (readQuery_dropApproval ..)]
  exact ⟨_, _, rfl, rfl⟩

theorem ReadsOnlyQuery.readAll {l : QueryLog} (h : ReadsOnlyQuery l) (st : DaosSystemStatus) :
    (membership st).readAll ⟨"", [], 1, true⟩ st.nodeConfigs l.output.envelopes = membership st ∨
      ∃ q ∈ l.query, (membership st).readAll ⟨"", [], 1, true⟩ st.nodeConfigs l.output.envelopes =
        (membership st).read ⟨"", [], 1, true⟩ q.envelope none st.nodeConfigs := by
  obtain ⟨r, now, hexec, hstatus⟩ :=
    exec_reconcileFormat_answered (String.ofList l.output.text) st
  have hread := h _ _ _ [] _ r (Table.get_put_self ..) rfl rfl hexec
  have hmembership : membership r.2.status =
      (membership st).readAll ⟨"", [], 1, true⟩ st.nodeConfigs l.output.envelopes := by
    rw [hstatus]
    exact membership_readQuery _ _ _ l.output rfl
  rw [hmembership] at hread
  rcases hread with hsame | ⟨q, hq, hfrom⟩
  · exact Or.inl hsame
  · exact Or.inr ⟨q, hq, hfrom.trans (membershipFrom_eq _)⟩

/-- A joined rank on a node whose server is not ready. -/
def unready : DaosSystemStatus where
  nodeConfigs := [{ node := "n", workload := "w" }]
  ranks := [⟨0, "n", memberJoined⟩]
  ranksJoined := 1

/-- A joined rank on a node with a control address. -/
def reachable (addr : String) : DaosSystemStatus where
  nodeConfigs := [{ node := "n", controlAddr := addr }]
  ranks := [⟨0, "n", memberJoined⟩]
  ranksJoined := 1

theorem Membership.read_timeout (m : Membership) {env : Dmg.Envelope}
    (h : reportsTimeout env = true) (inp : FormatInput) (leader : Option Dmg.Envelope)
    (configs : List NodeConfigStatus) :
    m.read inp env leader configs = m.mark (downNodes { nodeConfigs := configs } leader) := by
  cases herror : env.error with
  | none => simp [reportsTimeout, herror] at h
  | some e =>
      have hkind : Dmg.classify e = .timeout := by simpa [reportsTimeout, herror] using h
      simp only [Membership.read, herror, hkind]

theorem mark_ne {st : DaosSystemStatus} (hranks : st.ranks = [⟨0, "n", memberJoined⟩])
    {down : List String} (hdown : "n" ∈ down) : (membership st).mark down ≠ membership st := by
  intro heq
  have hmarked := congrArg Membership.ranks heq
  simp [Membership.mark, membership, hranks, hdown, memberUnresponsive, memberJoined] at hmarked

theorem mem_downNodes_unready (leader : Option Dmg.Envelope) :
    "n" ∈ downNodes { nodeConfigs := unready.nodeConfigs } leader := by
  have hready : "n" ∈ (unready.nodeConfigs.filter fun nc => nc.workload ≠ "" && !nc.serverReady).map
      (·.node) := by decide
  unfold downNodes
  extract_lets notReady nodeAt
  split
  · exact List.mem_append_left _ hready
  · exact hready

theorem mem_downNodes_reachable {env : Dmg.Envelope} {info : Dmg.LeaderInfo} {addr : String}
    (hinfo : Dmg.leaderQuery env = .ok (some info)) (haddr : addr ∈ info.downReplicas) :
    "n" ∈ downNodes { nodeConfigs := (reachable addr).nodeConfigs } (some env) := by
  simp only [downNodes, Option.map_some, hinfo, List.mem_append, List.mem_filter,
    List.mem_filterMap]
  right
  refine ⟨⟨addr, haddr, ?_⟩, by decide⟩
  simp [reachable]

theorem saysNothing_of_read {env : Dmg.Envelope} (inp : FormatInput)
    (h : ∀ st, (membership st).read inp env none st.nodeConfigs = membership st) :
    saysNothing env = true := by
  unfold saysNothing
  cases herror : env.error with
  | none =>
      cases hmembers : Dmg.systemQuery env with
      | error e => rfl
      | ok members =>
          have hformatted := congrArg Membership.formatted (h {})
          simp only [Membership.read, herror, hmembers] at hformatted
          cases hformatted
  | some e =>
      have hunformatted : Dmg.classify e ≠ .unformatted := by
        intro hkind
        have hformatted := congrArg Membership.formatted (h { formatted := true })
        simp only [Membership.read, herror, hkind] at hformatted
        cases hformatted
      have htimeout : Dmg.classify e ≠ .timeout := by
        intro hkind
        have hmark := h unready
        rw [Membership.read_timeout _ (by simp [reportsTimeout, herror, hkind])] at hmark
        exact mark_ne rfl (mem_downNodes_unready none) hmark
      simp [hunformatted, htimeout]

/-- Where the membership comes from the query only, the position tells the answers apart. -/
theorem QueryLog.tellsApart_of_reads {l : QueryLog} (h : ReadsOnlyQuery l) :
    l.tellsApart = true := by
  unfold tellsApart
  have henvs := l.envelopes
  cases hquery : l.query with
  | none =>
      have hsame : ∀ st, (membership st).readAll ⟨"", [], 1, true⟩ st.nodeConfigs
          l.output.envelopes = membership st := by
        intro st
        rcases h.readAll st with hsame | ⟨q, hq, -⟩
        · exact hsame
        · rw [hquery] at hq
          cases hq
      rw [hquery] at henvs
      cases hecho : l.echo with
      | some e =>
          have htimeout : reportsTimeout e.envelope = true := by
            rw [l.envelope_echo hecho, reportsTimeout_timedOut]
          have hmark := hsame unready
          rw [henvs, hecho] at hmark
          simp only [Option.toList_none, Option.toList_some, List.nil_append, List.cons_append,
            List.map_cons, Membership.readAll_cons, Membership.read_timeout _ htimeout] at hmark
          exact (mark_ne rfl (mem_downNodes_unready _) hmark).elim
      | none =>
          rw [hecho] at henvs
          cases hleader : l.leader with
          | none => rfl
          | some p =>
              rw [hleader] at henvs
              have hnothing : saysNothing p.envelope = true := by
                refine saysNothing_of_read ⟨"", [], 1, true⟩ fun st => ?_
                have hst := hsame st
                rwa [henvs] at hst
              simpa using hnothing
  | some q =>
      by_contra hnot
      simp only [Bool.or_eq_true, Bool.not_eq_true', not_or, Bool.not_eq_false,
        Bool.not_eq_true] at hnot
      obtain ⟨⟨htimeout, hecho⟩, hleader⟩ := hnot
      have hecho : l.echo = none := by simpa using hecho
      obtain ⟨p, hp, hdown⟩ : ∃ p, l.leader = some p ∧ namesDown p.envelope = true := by
        cases hp : l.leader with
        | none => simp [hp] at hleader
        | some p => exact ⟨p, rfl, by simpa [hp] using hleader⟩
      rw [hquery, hecho, hp] at henvs
      unfold namesDown at hdown
      split at hdown
      · next info hinfo =>
          obtain ⟨addr, haddr⟩ : ∃ addr, addr ∈ info.downReplicas :=
            List.exists_mem_of_ne_nil _ (by simpa using hdown)
          have hmark : (membership (reachable addr)).mark (downNodes
              { nodeConfigs := (reachable addr).nodeConfigs } (some p.envelope)) =
              membership (reachable addr) := by
            have hread := h.readAll (reachable addr)
            rw [henvs, hquery] at hread
            simp only [Option.toList_none, Option.toList_some, List.append_nil, List.cons_append,
              List.nil_append, List.map_cons, List.map_nil, Membership.readAll_cons,
              List.head?_cons, Membership.read_timeout _ htimeout] at hread
            rcases hread with hsame | ⟨q', hq', hfrom⟩
            · exact hsame
            · cases hq'
              rw [Membership.read_timeout _ htimeout] at hfrom
              exact hfrom
          exact mark_ne rfl (mem_downNodes_reachable hinfo haddr) hmark
      · cases hdown

/-- For every log of a query Job: the membership is only ever taken from the answer of
`dmg system query` exactly when the position tells the answers apart. -/
theorem readsOnlyQuery_iff (l : QueryLog) : ReadsOnlyQuery l ↔ l.tellsApart = true := by
  constructor
  · exact QueryLog.tellsApart_of_reads
  · intro htells inp p w faults job r hjob hlog hdecision hexec
    have hreads := Prog.exec_ok_of_wp (wp_reconcileFormat_readsJob hjob hdecision)
      (fun _ _ => trivial) hexec
    rcases hreads with hsame | ⟨sys, approved, now, failure, hstatus⟩
    · exact Or.inl hsame
    · have houtput : (Dmg.jobResult failure job).output = String.ofList l.output.text := by
        obtain ⟨pod, hpod, hpodLog⟩ := Option.map_eq_some_iff.mp hlog
        rw [Dmg.jobResult, hpod]
        exact hpodLog
      rw [hstatus, membership_readQuery sys approved now l.output houtput]
      rcases l.readAll_of_tellsApart htells (membership p.status) inp p.status.nodeConfigs with
        hsame | ⟨q, hq, hfrom⟩
      · exact Or.inl hsame
      · exact Or.inr ⟨q, hq, hfrom.trans (membershipFrom_eq _).symm⟩

/-- The membership query prints nothing, and the leader query answers. -/
def leaderOnly : QueryLog where
  query := none
  echo := none
  leader := some {
    noise := []
    body := "\"response\":\x7b\"current_leader\":\"a\"\x7d\x7d".toList
    envelope := ⟨"\x7b\"current_leader\":\"a\"\x7d", none, 0⟩
    quiet := Dmg.quiet_nil
    reads := by decide +kernel }
  trailing := []
  quiet := Dmg.quiet_nil
  echoes := by simp

/-- The leader answer is recorded as a formatted system without members. -/
theorem readsOnlyQuery_leaderOnly : ¬ReadsOnlyQuery leaderOnly := by
  intro h
  have htells := QueryLog.tellsApart_of_reads h
  revert htells
  decide +kernel

end DaosOperator.System
