import DaosOperator.Safety.Outcome
import DaosOperator.Safety.PoolIdentity

/-!
# How often a rank operation is sent

A rank operation stands in an annotation until its outcome is recorded.  Each reconcile looks
for the Job of the request, creates it when there is none, and reads its answer once it
finished.  A Job that somebody else removes is created again, so the request is then sent a
second time although DAOS may have carried it out.
-/

namespace DaosOperator

open Effect
open DaosOperator.System

variable {op ranks : String} {res : Dmg.Result} {record : Option RankOpStatus}
  {faults : List Fault}

/-! ## What a reconcile does about the request -/

/-- The uid of the Job that a log creates under the name. -/
def sentIn (key : ObjectKey) (log : Log) : Option Nat :=
  log.findSome? fun x => (created x).bind fun spec =>
    if spec.key = key then some x.before.nextId else none

/-- The answer is an error, and DAOS was not reached. -/
def wasUnreachable (res : Dmg.Result) : Bool :=
  match parseResult res with
  | .ok env => env.error.isSome && env.status = dmgStatusUnreachable
  | .error _ => false

namespace System

/-- What can be seen of a request from outside: whether its Job was created or read, the Job,
and the two annotations. -/
structure Ledger where
  sent : Option Nat
  read : Bool
  job : Option Job
  request : Option (Option String × Option String)

def ledger (sys : DaosSystem) (t : Point Call World) : Ledger where
  sent := sentIn (jobKey sys.name (namespaceOf sys) .rankOp) t.log
  read := readsJob t.log (jobKey sys.name (namespaceOf sys) .rankOp)
  job := t.world.jobs.get (jobKey sys.name (namespaceOf sys) .rankOp)
  request := (stored t.world.systems sys.name).map fun s =>
    (s.annotations.rankOp, s.annotations.rankOpDiscardData)

/-- The record while the Job runs. -/
def whileRunning (last : Option RankOpStatus) (now : Time) (op ranks : String) :
    Option RankOpStatus :=
  if last.any (·.finishedAt.isNone) then last
  else some ⟨op, ranks, some now, none, false, "dmg system " ++ op ++ " is running"⟩

/-- Nothing happened to the request. -/
structure Unmoved (sys : DaosSystem) (w : World) (L : Ledger) : Prop where
  sent : L.sent = none
  read : L.read = false
  job : L.job = w.jobs.get (jobKey sys.name (namespaceOf sys) .rankOp)
  request : L.request = some (sys.annotations.rankOp, sys.annotations.rankOpDiscardData)

/-- What a reconcile of `sys` does about the request, and the record it leaves. -/
inductive Handled (sys : DaosSystem) (w : World) (L : Ledger) : Option RankOpStatus → Prop where
  | untouched (h : Unmoved sys w L) : Handled sys w L sys.status.lastRankOp
  | waits {req op ranks : String} (hreq : sys.annotations.rankOp = some req)
      (hparse : parseRankOp req = .ok (op, ranks)) (h : Unmoved sys w L) :
      Handled sys w L (whileRunning sys.status.lastRankOp w.clock op ranks)
  | sends {req op ranks : String} {job : Job} (hreq : sys.annotations.rankOp = some req)
      (hparse : parseRankOp req = .ok (op, ranks))
      (habsent : w.jobs.get (jobKey sys.name (namespaceOf sys) .rankOp) = none)
      (hsent : L.sent = some job.uid) (hread : L.read = false) (hjob : L.job = some job)
      (hlive : job.deleting = false)
      (hrequest : L.request = some (sys.annotations.rankOp, sys.annotations.rankOpDiscardData)) :
      Handled sys w L (whileRunning sys.status.lastRankOp w.clock op ranks)
  | retries {req op ranks msg : String} {res : Dmg.Result}
      (hreq : sys.annotations.rankOp = some req) (hparse : parseRankOp req = .ok (op, ranks))
      (hres : Dmg.resultOf w (jobKey sys.name (namespaceOf sys) .rankOp) = some res)
      (hunreachable : wasUnreachable res = true)
      (hfresh : w.clock - requestedAt sys.status w.clock op ranks < rankOpRetryWindow)
      (hsent : L.sent = none) (hread : L.read = true)
      (hrequest : L.request = some (sys.annotations.rankOp, sys.annotations.rankOpDiscardData)) :
      Handled sys w L
        (some ⟨op, ranks, some (requestedAt sys.status w.clock op ranks), none, false, msg⟩)
  | finishes {req : String} {lr : RankOpStatus} (hreq : sys.annotations.rankOp = some req)
      (hop : (lr.op, lr.ranks) = requestOf req) (hfinished : lr.finishedAt = some w.clock)
      (hsent : L.sent = none) (hrequest : L.request = some (none, none)) :
      Handled sys w L (some lr)

section Frame

variable {sys : DaosSystem} {w : World} {t : Point Call World} {S : Scope} {c : Call} {f : Fault}

theorem sentIn_append (key : ObjectKey) (log : Log) (x : Entry Call World)
    (h : ∀ spec, created x = some spec → spec.key ≠ key) :
    sentIn key (log ++ [x]) = sentIn key log := by
  have hnone : ((created x).bind fun spec =>
      if spec.key = key then some x.before.nextId else none) = none := by
    cases hx : created x with
    | none => rfl
    | some spec => simp [h spec hx]
  simp [sentIn, List.findSome?_append, hnone]

theorem readsJob_append (key : ObjectKey) (log : Log) (x : Entry Call World)
    (h : x.call ≠ .deleteJob key) : readsJob (log ++ [x]) key = readsJob log key := by
  unfold readsJob
  rw [List.any_append, List.any_cons, List.any_nil, Bool.or_false]
  split
  · next other hcall =>
      have hne : other ≠ key := by
        rintro rfl
        exact h hcall
      simp [hne]
  · simp

/-- Calls that neither run the Job nor remove the request leave the ledger alone. -/
theorem ledger_next (hc : SystemCall sys.name (namespaceOf sys) S c)
    (hjobs : S.jobs .rankOp = false) (hpatches : S.patches .removeRankOp = false) :
    ledger sys (cluster.next t c f) = ledger sys t := by
  have hkind : ∀ k, S.jobs k = true →
      jobKey sys.name (namespaceOf sys) .rankOp ≠ jobKey sys.name (namespaceOf sys) k := by
    intro k hk hkey
    rw [← (jobKey_inj hkey).2.2, hjobs] at hk
    cases hk
  have hsent : sentIn (jobKey sys.name (namespaceOf sys) .rankOp) (cluster.next t c f).log =
      sentIn (jobKey sys.name (namespaceOf sys) .rankOp) t.log := by
    rw [Handler.next_log]
    refine sentIn_append _ _ _ ?_
    intro spec hspec
    have hcall : c = .createJob spec := call_of_created hspec
    subst hcall
    obtain ⟨kind, hk, hjob⟩ := hc.of_createJob
    rw [hjob.key]
    exact (hkind kind hk).symm
  have hread : readsJob (cluster.next t c f).log (jobKey sys.name (namespaceOf sys) .rankOp) =
      readsJob t.log (jobKey sys.name (namespaceOf sys) .rankOp) := by
    rw [Handler.next_log]
    refine readsJob_append _ _ _ ?_
    rintro rfl
    obtain ⟨kind, hk, hkey⟩ := hc.of_deleteJob
    exact hkind kind hk hkey
  have hjob : (cluster.next t c f).world.jobs.get (jobKey sys.name (namespaceOf sys) .rankOp) =
      t.world.jobs.get (jobKey sys.name (namespaceOf sys) .rankOp) := hc.jobs_get hkind
  have hrequest : (stored (cluster.next t c f).world.systems sys.name).map
        (fun s => (s.annotations.rankOp, s.annotations.rankOpDiscardData)) =
      (stored t.world.systems sys.name).map
        fun s => (s.annotations.rankOp, s.annotations.rankOpDiscardData) := by
    refine hc.stored_proj (fun s p hp => ?_) fun _ _ _ => rfl
    cases p with
    | removeRankOp =>
        rw [hpatches] at hp
        cases hp
    | _ => rfl
  simp only [ledger, hsent, hread, hjob, hrequest]

end Frame

/-- Every call was answered. -/
def Sure (x : Entry Call World) : Prop := x.fault = .none

/-- What holds until the request is looked at. -/
structure Unstarted (sys : DaosSystem) (w : World) (t : Point Call World) : Prop where
  untouched : Unmoved sys w (ledger sys t)
  clock : t.world.clock = w.clock
  record : (stored t.world.systems sys.name).map (·.status.lastRankOp) =
    some sys.status.lastRankOp
  answered : ∀ x ∈ t.log, Sure x

/-- What holds from then on, with the record of the pass. -/
structure Settled (sys : DaosSystem) (w : World) (record : Option RankOpStatus)
    (t : Point Call World) : Prop where
  handled : Handled sys w (ledger sys t) record
  answered : ∀ x ∈ t.log, Sure x

def RequestEnded (sys : DaosSystem) (w : World) (t : Point Call World) : Prop :=
  ∃ sys', stored t.world.systems sys.name = some sys' ∧
    Handled sys w (ledger sys t) sys'.status.lastRankOp

section Request

variable {sys : DaosSystem} {w : World} {s : Point Call World}

theorem sure_next {t : Point Call World} {c : Call} {f : Fault} (h : ∀ x ∈ t.log, Sure x)
    (hf : Sure ⟨c, f, t.world⟩) : ∀ x ∈ (cluster.next t c f).log, Sure x := by
  intro x hx
  rcases Handler.mem_next_log hx with hx | rfl
  · exact h x hx
  · exact hf

theorem Unstarted.next {S : Scope} {c : Call} {f : Fault} (h : Unstarted sys w s)
    (hc : SystemCall sys.name (namespaceOf sys) S c) (hjobs : S.jobs .rankOp = false)
    (hpatches : S.patches .removeRankOp = false) (hstatus : S.status = false)
    (hf : Sure ⟨c, f, s.world⟩) : Unstarted sys w (cluster.next s c f) where
  untouched := by
    rw [ledger_next hc hjobs hpatches]
    exact h.untouched
  clock := hc.surroundings.2.1.trans h.clock
  record := by
    refine (hc.stored_proj (g := fun s => s.status.lastRankOp) (fun s p _ => ?_) ?_).trans h.record
    · cases p <;> rfl
    · intro hwrites
      rw [hstatus] at hwrites
      cases hwrites
  answered := sure_next h.answered hf

theorem Unstarted.ended (h : Unstarted sys w s) : RequestEnded sys w s := by
  obtain ⟨sys', hstored, hrecord⟩ := Option.map_eq_some_iff.mp h.record
  refine ⟨sys', hstored, ?_⟩
  rw [hrecord]
  exact .untouched h.untouched

theorem Unstarted.wp {α : Type} {S : Scope} {P : α → Prop} {q : Op α} (h : Unstarted sys w s)
    (hq : q.Obeys (SystemCall sys.name (namespaceOf sys) S) P) (hjobs : S.jobs .rankOp = false)
    (hpatches : S.patches .removeRankOp = false) (hstatus : S.status = false) :
    q.wp cluster Sure s (fun a t => P a ∧ Unstarted sys w t) (RequestEnded sys w) :=
  Prog.wp_mono (hq.wp (I := Unstarted sys w)
    (fun _ _ _ hc _ hf ht => ht.next hc hjobs hpatches hstatus hf) h) (fun _ _ h => h)
    fun _ h => h.ended

theorem wp_sure {β : Type} {c : Call} {f : Answer c → Op β}
    {B : β → Point Call World → Prop} {W : Point Call World → Prop}
    (h : (f (perform c s.world).1).wp cluster Sure (cluster.next s c .none) B W) :
    ((ask c).bind f).wp cluster Sure s B W :=
  Prog.wp_answered (fun _ _ hf => hf) h

theorem ledger_removeRankOp (h : (ledger sys s).request.isSome = true) :
    (ledger sys (cluster.next s (.patchSystem sys.name .removeRankOp) .none)).sent =
        (ledger sys s).sent ∧
      (ledger sys (cluster.next s (.patchSystem sys.name .removeRankOp) .none)).request =
        some (none, none) := by
  constructor
  · exact sentIn_append _ _ _ (by rintro spec ⟨⟩)
  · simp only [ledger, Option.isSome_map] at h
    obtain ⟨sys', hstored⟩ := Option.isSome_iff_exists.mp h
    have hworld : (cluster.next s (.patchSystem sys.name .removeRankOp) .none).world =
        (perform (.patchSystem sys.name .removeRankOp) s.world).2 := rfl
    simp only [ledger, hworld, perform, stored_modify_self, hstored]
    rfl

theorem wp_recordRankOp_handled {p : Pass} {req : String}
    (hreq : sys.annotations.rankOp = some req) (hname : p.sys.name = sys.name)
    (hpass : p.sys.annotations.rankOp = some req) (hop : requestOf req = (op, ranks))
    (hsent : (ledger sys s).sent = none) (hrequest : (ledger sys s).request.isSome = true)
    (hanswered : ∀ x ∈ s.log, Sure x) (good : Bool) (msg : String) :
    (recordRankOp p w.clock op ranks good msg).wp cluster Sure s
      (fun r t => Settled sys w r.2.status.lastRankOp t) (RequestEnded sys w) := by
  unfold recordRankOp
  extract_lets outcome
  refine wp_sure ?_
  have hevent : ∀ reason, ledger sys (cluster.next s
      (.event (.system p.sys.name) (!good) reason msg) .none) = ledger sys s := fun reason =>
    ledger_next (S := {}) (.quiet rfl) rfl rfl
  unfold clearRankOp
  rw [hpass]
  refine Prog.wp_bind (wp_sure (B := fun _ t => Settled sys w (some outcome) t) ?_) fun _ _ h => h
  rw [hname]
  refine ⟨?_, sure_next (sure_next hanswered rfl) rfl⟩
  obtain ⟨hsent', hrequest'⟩ := ledger_removeRankOp ((hevent _).symm ▸ hrequest)
  rw [hevent, hname] at hsent'
  rw [hname] at hrequest'
  exact .finishes hreq hop.symm rfl (hsent'.trans hsent) hrequest'

/-- The verdict that sends a request again. -/
theorem of_retry {msg : String} {fresh : Bool}
    (h : rankOpVerdict op ranks fresh res = .retry msg) :
    wasUnreachable res = true ∧ fresh = true := by
  unfold rankOpVerdict at h
  dsimp only at h
  unfold wasUnreachable
  cases hparse : parseResult res with
  | error e => simp [hparse] at h
  | ok env =>
      simp only [hparse] at h
      cases herror : env.error with
      | some e =>
          simp only [herror] at h
          split at h
          · cases h
          · split at h
            · next hboth => simpa [herror] using hboth
            · cases h
      | none =>
          simp only [herror] at h
          split at h
          · cases h
          · split at h <;> cases h

/-- The answer of the Job was read, and nothing is done about it yet. -/
structure Answered (sys : DaosSystem) (w : World) (res : Dmg.Result) (t : Point Call World) :
    Prop where
  result : Dmg.resultOf w (jobKey sys.name (namespaceOf sys) .rankOp) = some res
  sent : (ledger sys t).sent = none
  read : (ledger sys t).read = true
  request : (ledger sys t).request =
    some (sys.annotations.rankOp, sys.annotations.rankOpDiscardData)
  answered : ∀ x ∈ t.log, Sure x

theorem Answered.next {S : Scope} {c : Call} (h : Answered sys w res s)
    (hc : SystemCall sys.name (namespaceOf sys) S c) (hjobs : S.jobs .rankOp = false)
    (hpatches : S.patches .removeRankOp = false) :
    Answered sys w res (cluster.next s c .none) := by
  have hsame : ledger sys (cluster.next s c .none) = ledger sys s := ledger_next hc hjobs hpatches
  exact ⟨h.result, hsame ▸ h.sent, hsame ▸ h.read, hsame ▸ h.request, sure_next h.answered rfl⟩

theorem wp_finishRankOp_handled {p : Pass} {req : String}
    (hreq : sys.annotations.rankOp = some req) (hname : p.sys.name = sys.name)
    (hpass : p.sys.annotations.rankOp = some req)
    (hlast : p.status.lastRankOp = sys.status.lastRankOp)
    (hparse : parseRankOp req = .ok (op, ranks)) (h : Answered sys w res s) :
    (finishRankOp p w.clock op ranks res).wp cluster Sure s
      (fun r t => Settled sys w r.2.status.lastRankOp t) (RequestEnded sys w) := by
  have hsince : requestedAt p.status w.clock op ranks =
      requestedAt sys.status w.clock op ranks := by
    unfold requestedAt
    rw [hlast]
  unfold finishRankOp
  extract_lets since
  split
  · next msg hverdict =>
      obtain ⟨hunreachable, hfresh⟩ := of_retry hverdict
      refine wp_sure ?_
      have hnext : ∀ msg, Answered sys w res (cluster.next s
          (.event (.system p.sys.name) true "RankOpRetrying" msg) .none) := fun msg =>
        h.next (S := {}) (.quiet rfl) rfl rfl
      have hafter := hnext msg
      refine ⟨?_, hafter.answered⟩
      have hwindow : w.clock - requestedAt sys.status w.clock op ranks < rankOpRetryWindow := by
        rw [← hsince]
        exact of_decide_eq_true hfresh
      change Handled sys w _ (some ⟨op, ranks, some since, none, false, msg⟩)
      rw [show since = _ from hsince]
      exact .retries hreq hparse h.result hunreachable hwindow hafter.sent hafter.read
        hafter.request
  · next answered good msg _ =>
      refine Prog.wp_bind (A := fun _ t => Answered sys w res t) ?_ fun _ t ht => ?_
      · refine Prog.wp_ite (fun _ => ?_) fun _ => h
        refine Prog.wp_ask (fun _ => h.next (S := {}) (.clearHold _) rfl rfl) ?_
        intro f hf _ hsure
        exact absurd hsure hf
      · refine wp_recordRankOp_handled hreq hname hpass (by simp [requestOf, hparse]) ht.sent ?_
          ht.answered _ _
        rw [ht.request]
        rfl

theorem ledger_createJob {spec : Dmg.RunSpec}
    (hkey : spec.key = jobKey sys.name (namespaceOf sys) .rankOp)
    (habsent : s.world.jobs.get spec.key = none) (hsent : (ledger sys s).sent = none) :
    ledger sys (cluster.next s (.createJob spec) .none) =
      { ledger sys s with
        sent := some s.world.nextId
        job := some ⟨s.world.nextId, spec, s.world.clock, [], false, []⟩ } := by
  have hworld : (cluster.next s (.createJob spec) .none).world =
      { s.world with
        jobs := s.world.jobs.put spec.key
          (some ⟨s.world.nextId, spec, s.world.clock, [], false, []⟩)
        nextId := s.world.nextId + 1 } := by
    change (perform (.createJob spec) s.world).2 = _
    simp only [perform, habsent]
  have hnew : sentIn (jobKey sys.name (namespaceOf sys) .rankOp)
      (cluster.next s (.createJob spec) .none).log = some s.world.nextId := by
    have hold : sentIn (jobKey sys.name (namespaceOf sys) .rankOp) s.log = none := hsent
    rw [Handler.next_log, sentIn, List.findSome?_append, ← sentIn, hold]
    have hcreated : created ⟨.createJob spec, .none, s.world⟩ = some spec := by
      simp [created, Fault.effective, habsent]
    simp [hcreated, hkey]
  have hread : readsJob (cluster.next s (.createJob spec) .none).log
      (jobKey sys.name (namespaceOf sys) .rankOp) =
      readsJob s.log (jobKey sys.name (namespaceOf sys) .rankOp) := by
    rw [Handler.next_log]
    exact readsJob_append _ _ _ (by rintro ⟨⟩)
  simp only [ledger, hnew, hread, hworld, hkey, Table.get_put_self]

theorem ledger_deleteJob :
    (ledger sys (cluster.next s (.deleteJob (jobKey sys.name (namespaceOf sys) .rankOp))
      .none)).sent = (ledger sys s).sent ∧
    (ledger sys (cluster.next s (.deleteJob (jobKey sys.name (namespaceOf sys) .rankOp))
      .none)).read = true ∧
    (ledger sys (cluster.next s (.deleteJob (jobKey sys.name (namespaceOf sys) .rankOp))
      .none)).request = (ledger sys s).request := by
  refine ⟨sentIn_append _ _ _ (by rintro spec ⟨⟩), ?_, ?_⟩
  · simp [ledger, Handler.next_log, readsJob]
  · have hc : SystemCall sys.name (namespaceOf sys) { jobs := fun k => k = .rankOp }
        (.deleteJob (jobKey sys.name (namespaceOf sys) .rankOp)) := .deleteJob .rankOp rfl
    exact hc.stored_proj (fun _ p hp => by cases hp) fun _ _ _ => rfl

theorem wp_runRankOp_handled {p : Pass} {req : String}
    (hreq : sys.annotations.rankOp = some req) (hname : p.sys.name = sys.name)
    (hpass : p.sys.annotations.rankOp = some req)
    (hlast : p.status.lastRankOp = sys.status.lastRankOp)
    (hparse : parseRankOp req = .ok (op, ranks)) (h : Unstarted sys w s) :
    (runRankOp (namespaceOf sys) p w.clock op ranks).wp cluster Sure s
      (fun r t => Settled sys w r.2.status.lastRankOp t) (RequestEnded sys w) := by
  have hkey : (jobSpec p.sys (namespaceOf sys) .rankOp (.dmg (rankOpArgs op ranks))).key =
      jobKey sys.name (namespaceOf sys) .rankOp := by
    rw [← hname]
    rfl
  refine Prog.wp_bind (A := fun res t => res.done = false ∧
      Settled sys w (whileRunning sys.status.lastRankOp w.clock op ranks) t ∨
    res.done = true ∧ Answered sys w res t) ?_ ?_
  · refine Prog.wp_mapError.mpr (Dmg.wp_run (I := Unstarted sys w)
      (fun c f t hc hf ht => ht.next (S := {}) (.quiet hc) rfl rfl rfl hf) h
      (fun t ht => ht.ended) ?_ ?_ ?_)
    · intro t ht hworld habsent
      refine Prog.wp_ask (fun hsure => ?_) fun f hf _ hsure => absurd hsure hf
      refine Or.inl ⟨rfl, ?_, sure_next ht.answered hsure⟩
      rw [← hworld] at habsent
      have hnone : (ledger sys t).job = none := by
        rw [hkey] at habsent
        exact habsent
      rw [ht.untouched.job] at hnone
      rw [ledger_createJob hkey habsent ht.untouched.sent]
      exact .sends hreq hparse hnone rfl ht.untouched.read rfl rfl ht.untouched.request
    · intro t job ht _ _
      exact Or.inl ⟨rfl, .waits hreq hparse ht.untouched, ht.answered⟩
    · intro t job failure ht hworld hjob hlive hfinished
      rw [hkey] at hjob ⊢
      refine Prog.wp_ask (fun hsure => ?_) fun f hf _ hsure => absurd hsure hf
      obtain ⟨hsent, hread, hrequest⟩ : _ ∧ _ ∧ (ledger sys (cluster.next t (.deleteJob
          (jobKey sys.name (namespaceOf sys) .rankOp)) .none)).request = (ledger sys t).request :=
        ledger_deleteJob
      refine Or.inr ⟨Dmg.done_jobResult failure job, ?_, hsent.trans ht.untouched.sent, hread,
        hrequest.trans ht.untouched.request, sure_next ht.answered hsure⟩
      have hsame := ht.untouched.job
      rw [show (ledger sys t).job = some job by rw [← hjob, ← hworld]; rfl] at hsame
      simp [Dmg.resultOf, ← hsame, hlive, hfinished]
  · rintro res t (⟨hrunning, ht⟩ | ⟨hdone, ht⟩)
    · refine Prog.wp_ite (fun _ => ?_) fun hdone => by simp [hrunning] at hdone
      rw [← hlast, whileRunning] at ht
      simp only [Prog.wp_ret]
      cases hrecord : p.status.lastRankOp with
      | none =>
          rw [hrecord] at ht
          exact ht
      | some lr =>
          rw [hrecord] at ht
          cases hfinished : lr.finishedAt with
          | none =>
              rw [Option.any_some, hfinished] at ht
              simp only [hfinished]
              rw [← hrecord] at ht
              exact ht
          | some at_ =>
              rw [Option.any_some, hfinished] at ht
              simp only [hfinished]
              exact ht
    · refine Prog.wp_ite (fun hnot => by simp [hdone] at hnot) fun _ => ?_
      exact wp_finishRankOp_handled hreq hname hpass hlast hparse ht

theorem wp_reconcileRankOp_handled {p : Pass} (hp : AtRankOp sys p) (h : Unstarted sys w s) :
    (reconcileRankOp (namespaceOf sys) p).wp cluster Sure s
      (fun r t => Settled sys w r.2.status.lastRankOp t) (RequestEnded sys w) := by
  have hpass : p.sys.annotations.rankOp = sys.annotations.rankOp := by
    refine hp.patched.proj (f := fun s => s.annotations.rankOp) fun s q hq => ?_
    cases q with
    | removeRankOp => cases hq
    | _ => rfl
  have hname := hp.patched.name
  unfold reconcileRankOp
  cases hreq : sys.annotations.rankOp with
  | none =>
      rw [hpass, hreq]
      refine ⟨?_, h.answered⟩
      rw [hp.lastRankOp]
      exact .untouched h.untouched
  | some req =>
      rw [hreq] at hpass
      rw [hpass]
      refine wp_sure ?_
      have ht : Unstarted sys w (cluster.next s .now .none) :=
        h.next (S := {}) (.quiet rfl) rfl rfl rfl rfl
      rw [show (perform .now s.world).1 = w.clock from h.clock]
      have hrecord : ∀ {op ranks : String} {t : Point Call World}, requestOf req = (op, ranks) →
          Unstarted sys w t → ∀ good msg,
          (recordRankOp p w.clock op ranks good msg).wp cluster Sure t
            (fun r t => Settled sys w r.2.status.lastRankOp t) (RequestEnded sys w) := by
        intro op ranks t hop ht good msg
        refine wp_recordRankOp_handled hreq hname hpass hop ht.untouched.sent ?_ ht.answered _ _
        rw [ht.untouched.request]
        rfl
      cases hparse : parseRankOp req with
      | error e => exact hrecord (by simp [requestOf, hparse]) ht _ _
      | ok r =>
          obtain ⟨op, ranks⟩ := r
          have hop : requestOf req = (op, ranks) := by simp [requestOf, hparse]
          have hunless : ∀ {t : Point Call World} (why : Option String)
              {next : Op (Duration × Pass)}, Unstarted sys w t →
              next.wp cluster Sure t (fun r t => Settled sys w r.2.status.lastRankOp t)
                (RequestEnded sys w) →
              (unlessRefused p w.clock op ranks why next).wp cluster Sure t
                (fun r t => Settled sys w r.2.status.lastRankOp t) (RequestEnded sys w) := by
            intro t why next ht hnext
            unfold unlessRefused
            split
            · exact ht.ended
            · exact Prog.wp_ite (fun _ => hrecord hop ht _ _) fun _ => hnext
          have hrun : ∀ {t : Point Call World}, Unstarted sys w t →
              (runRankOp (namespaceOf sys) p w.clock op ranks).wp cluster Sure t
                (fun r t => Settled sys w r.2.status.lastRankOp t) (RequestEnded sys w) :=
            fun ht => wp_runRankOp_handled hreq hname hpass hp.lastRankOp hparse ht
          refine Prog.wp_ite (fun _ => hrecord hop ht _ _) fun _ => hunless _ ht ?_
          refine Prog.wp_ite (fun _ => ?_) fun _ => hrun ht
          have hlist : (ask .listPools).Obeys (SystemCall sys.name (namespaceOf sys) {})
              fun _ => True := Prog.obeys_ask (.quiet rfl)
          refine Prog.wp_bind (ht.wp hlist.mapError rfl rfl rfl) ?_
          rintro pools t ⟨-, ht⟩
          exact hunless _ ht (hrun ht)

theorem Settled.next {S : Scope} {c : Call} {f : Fault}
    (h : Settled sys w record s) (hc : SystemCall sys.name (namespaceOf sys) S c)
    (hjobs : S.jobs .rankOp = false) (hpatches : S.patches .removeRankOp = false)
    (hf : Sure ⟨c, f, s.world⟩) : Settled sys w record (cluster.next s c f) := by
  refine ⟨?_, sure_next h.answered hf⟩
  rw [ledger_next hc hjobs hpatches]
  exact h.handled

theorem wp_updateStatus_handled {p : Pass} (hname : p.sys.name = sys.name)
    (h : Settled sys w p.status.lastRankOp s)
    (hpresent : (stored s.world.systems sys.name).isSome = true) (requeue : Duration) :
    (updateStatus p requeue).wp cluster Sure s (fun _ t => RequestEnded sys w t)
      (RequestEnded sys w) := by
  refine wp_sure ?_
  rw [hname]
  have hc : SystemCall sys.name (namespaceOf sys) { status := true }
      (.updateSystemStatus sys.name p.status) := .status p.status rfl
  have hnext := h.next (f := .none) hc rfl rfl rfl
  obtain ⟨sys', hstored⟩ := Option.isSome_iff_exists.mp hpresent
  refine ⟨{ sys' with status := p.status }, ?_, hnext.handled⟩
  change stored (perform (.updateSystemStatus sys.name p.status) s.world).2.systems sys.name = _
  simp only [perform, stored_modify_self, hstored]
  rfl

theorem Handled.present (h : Handled sys w (ledger sys s) record) :
    (stored s.world.systems sys.name).isSome = true := by
  have hsome : (ledger sys s).request.isSome = true := by
    cases h with
    | untouched h | waits _ _ h =>
        rw [h.request]
        rfl
    | sends _ _ _ _ _ _ _ hrequest | retries _ _ _ _ _ _ _ hrequest | finishes _ _ _ _ hrequest =>
        rw [hrequest]
        rfl
  simpa [ledger] using hsome

/-- How a reconcile stands to the request, stage by stage. -/
def AtLedger (sys : DaosSystem) (w : World) : Stage → Pass → Point Call World → Prop
  | .entered, p, t | .gate, p, t | .rankOp, p, t =>
      Unstarted sys w t ∧ p.status.lastRankOp = sys.status.lastRankOp
  | .engines, p, t | .done, p, t => Settled sys w p.status.lastRankOp t

theorem ledger_stages (hranks : NarrowRanks sys.status) :
    StageProof sys Sure (fun t => NarrowWorld t.world ∧ Unstarted sys w t) (RequestEnded sys w)
      fun g p t => (NarrowWorld t.world ∧ NarrowRanks p.status) ∧ AtLedger sys w g p t := by
  have hnarrow : StageProof sys Sure _ _ _ := narrow_stages hranks
  exact
    { render := fun c f t hc hf hsure ht =>
        ⟨hnarrow.render c f t hc hf hsure ht.1, ht.2.next hc rfl rfl rfl hsure⟩
      stop := fun t ht => ht.2.ended
      enter := fun p t hp ht => by
        have hlast := congrArg DaosSystemStatus.lastRankOp hp.carried.status_eq
        exact ⟨hnarrow.enter p t hp ht.1, ht.2, hlast⟩
      cond := fun g p st t hst ht => by
        refine ⟨hnarrow.cond g p st t hst ht.1, ?_⟩
        have hlast : st.lastRankOp = p.status.lastRankOp := by
          have hmask := congrArg DaosSystemStatus.lastRankOp hst
          exact hmask
        cases g with
        | entered | gate | rankOp => exact ⟨ht.2.1, hlast.trans ht.2.2⟩
        | engines | done =>
            have hsettled : Settled sys w st.lastRankOp t := hlast ▸ ht.2
            exact hsettled
      skip := fun p t hp ht => ht
      upgrade := fun rendered p t hp ht => by
        have hobeys := hp.carried.obeys_upgrade rendered
        refine Prog.wp_mono (Prog.wp_and (hnarrow.upgrade rendered p t hp ht.1)
          (ht.2.1.wp hobeys rfl rfl rfl)) ?_ fun _ h => h.2
        rintro r u ⟨hr, hadv, hu⟩
        have hlast := congrArg DaosSystemStatus.lastRankOp hadv.status
        exact ⟨hr, hu, Eq.trans hlast ht.2.2⟩
      format := fun inp p t hp ht => by
        have hobeys := obeys_reconcileFormat hp.patched.name hp.ns
        refine Prog.wp_mono (Prog.wp_and (hnarrow.format inp p t hp ht.1)
          (ht.2.1.wp hobeys rfl rfl rfl)) ?_ fun _ h => h.2
        rintro r u ⟨hr, hadv, hu⟩
        have hlast := congrArg DaosSystemStatus.lastRankOp hadv.status
        exact ⟨hr, hu, Eq.trans hlast ht.2.2⟩
      rankOp := fun p t hp ht => by
        exact Prog.wp_mono (Prog.wp_and (hnarrow.rankOp p t hp ht.1)
          (wp_reconcileRankOp_handled hp ht.2.1)) (fun _ _ h => h) fun _ h => h.2
      engines := fun p t hp ht => by
        have hobeys := hp.obeys_engines
        have hsettled : (reconcileEngineRestart (namespaceOf sys) p).wp cluster Sure t
            (fun r u => EnginesAdvances p r.2 ∧ Settled sys w p.status.lastRankOp u)
            fun u => Settled sys w p.status.lastRankOp u :=
          hobeys.wp (I := Settled sys w p.status.lastRankOp)
            (fun _ _ _ hc _ hf hu => hu.next hc rfl rfl hf) ht.2
        refine Prog.wp_mono (Prog.wp_and (hnarrow.engines p t hp ht.1) (Prog.wp_and hsettled
          (wp_reconcileEngineRestart_fails _ ht.1.1 ht.1.2))) ?_ ?_
        · rintro r u ⟨hr, ⟨hadv, hu⟩, -⟩
          have hlast : r.2.status.lastRankOp = p.status.lastRankOp := by
            have hmask := congrArg DaosSystemStatus.lastRankOp hadv.status
            exact hmask
          have hafter : Settled sys w r.2.status.lastRankOp u := hlast ▸ hu
          exact ⟨hr, hafter⟩
        · -- it fails only when a call does
          rintro u ⟨-, hu, new, hnew, y, hy, hfault⟩
          exact absurd (hu.answered y (by simp [hnew, hy])) hfault
      write := fun g p t requeue _ hp ht => by
        have hsettled : Settled sys w p.status.lastRankOp t := by
          cases g with
          | entered | gate | rankOp =>
              have hunstarted := ht.2
              refine ⟨?_, hunstarted.1.answered⟩
              rw [hunstarted.2]
              exact .untouched hunstarted.1.untouched
          | engines | done => exact ht.2
        exact wp_updateStatus_handled hp.name hsettled hsettled.handled.present requeue }

/-- What a reconcile in which every call is answered does about the request. -/
theorem wp_reconcile_handled (hsys : stored w.systems sys.name = some sys)
    (hnarrow : NarrowWorld w) :
    (reconcile sys.name).wp cluster Sure ⟨w, []⟩ (fun _ => RequestEnded sys w)
      (RequestEnded sys w) := by
  have hstart : Unstarted sys w ⟨w, []⟩ :=
    ⟨⟨rfl, rfl, rfl, by simp [ledger, hsys]⟩, rfl, by simp [hsys], by simp⟩
  have hread : ∀ f, Sure ⟨.getSystem sys.name, f, w⟩ →
      Unstarted sys w (cluster.next ⟨w, []⟩ (.getSystem sys.name) f) := fun f hf =>
    hstart.next (.quiet rfl : SystemCall sys.name (namespaceOf sys) {} _) rfl rfl rfl hf
  refine wp_reconcile (fun f hf => (hread f hf).ended) ?_
  intro sys' hsys' _ hsure
  obtain rfl : sys = sys' := Option.some.inj (hsys.symm.trans hsys')
  exact (ledger_stages (hnarrow.stored _ _ hsys)).wp_reconcileSystem ⟨hnarrow, hread .none hsure⟩

end Request

end System

/-! ## Requests in a run -/

/-- The rank operation that the system is asked for. -/
def asks (w : World) (name : String) : Option String :=
  (stored w.systems name).bind (·.annotations.rankOp)

/-- The record of the last rank operation of the system. -/
def rankRecord (w : World) (name : String) : Option RankOpStatus :=
  (stored w.systems name).bind (·.status.lastRankOp)

/-- The record is that of a request that is not finished. -/
def unfinished (w : World) (name : String) : Bool :=
  (rankRecord w name).any (·.finishedAt.isNone)

/-- The steps that began with the request, the newest first. -/
def requestLife (name req : String) (past : List Step) : List Step :=
  past.takeWhile fun r => asks r.before name = some req

/-- The Job of a rank operation that the step creates. -/
def sentJob (name : String) (r : Step) : Option (ObjectKey × Nat) :=
  if r.event.system = some name then
    (stored r.before.systems name).bind fun sys =>
      (sentIn (jobKey name (namespaceOf sys) .rankOp) r.obs).map fun uid =>
        (jobKey name (namespaceOf sys) .rankOp, uid)
  else none

/-- The Job of a rank operation whose answer the step reads, and the answer. -/
def readAnswer (name : String) (r : Step) : Option ((ObjectKey × Nat) × Dmg.Result) :=
  if r.event.system = some name then
    (stored r.before.systems name).bind fun sys =>
      let key := jobKey name (namespaceOf sys) .rankOp
      if readsJob r.obs key = true then
        (r.before.jobs.get key).bind fun job =>
          (Dmg.resultOf r.before key).map fun res => ((key, job.uid), res)
      else none
  else none

/-- When the request was first seen: at the first step that left a record of it. -/
def firstSeen (name : String) (life : List Step) : Option Time :=
  (life.filter fun r => unfinished r.after name).getLast?.map (·.before.clock)

/-- The answer of the Job was that DAOS is not reached, and it was read in time. -/
def Unreached (name : String) (life : List Step) (job : ObjectKey × Nat) : Prop :=
  ∃ r ∈ life, ∃ a ∈ readAnswer name r, a.1 = job ∧ wasUnreachable a.2 = true ∧
    ∃ t ∈ firstSeen name life, r.before.clock - t < rankOpRetryWindow
  deriving Decidable

/-- The step takes the request away, and leaves its finished record. -/
def Finishes (name req : String) (step : Step) : Prop :=
  ∃ sys ∈ stored step.after.systems name, sys.annotations.rankOp = none ∧
    sys.annotations.rankOpDiscardData = none ∧ rankOpRecorded req sys.status = true
  deriving Decidable

/-- The step goes on with the request: it leaves no finished record of it, and an answer that
it reads is one that has the request sent again. -/
def GoesOn (name req : String) (life : List Step) (step : Step) : Prop :=
  asks step.after name = some req ∧
    (∀ lr ∈ rankRecord step.after name, lr.finishedAt.isSome = true →
      rankRecord step.before name = some lr) ∧
    ∀ a ∈ readAnswer name step, wasUnreachable a.2 = true ∧
      ∃ t ∈ firstSeen name (step :: life), step.before.clock - t < rankOpRetryWindow
  deriving Decidable

/-- A request is sent again only where DAOS was not reached, the time at which it was first
seen is kept, and it ends with one finished record. -/
def SentOnce (name : String) (past : List Step) (step : Step) : Prop :=
  (∀ req ∈ asks step.before name,
    (∀ j ∈ sentJob name step, ∀ last ∈ (requestLife name req past).findSome? (sentJob name),
      Unreached name (requestLife name req past) last) ∧
    (asks step.after name = some req → ∀ lr ∈ rankRecord step.after name,
      lr.finishedAt = none → lr.requestedAt = firstSeen name (step :: requestLife name req past)) ∧
    (step.event.system = some name →
      Finishes name req step ∨ GoesOn name req (requestLife name req past) step)) ∧
  (step.event.system = some name → asks step.before name = none →
    rankRecord step.after name = rankRecord step.before name)
  deriving Decidable

/-- No call fails. -/
def CallsAnswered (_ : List Step) (step : Step) : Prop := ∀ x ∈ step.obs, x.fault = .none
  deriving Decidable

/-- A request appears when the last record, if there is one, is finished. -/
def AppearsClean (name : String) (_ : List Step) (step : Step) : Prop :=
  ∀ req ∈ asks step.after name, asks step.before name ≠ some req →
    ∀ lr ∈ rankRecord step.after name, lr.finishedAt.isSome = true
  deriving Decidable

/-- The Job that somebody else removes. -/
def Event.collects : Event → Option ObjectKey
  | .change (.jobCollected key) => some key
  | _ => none

/-- While the Job of a request stands, nobody else removes it, and the system stays in its
namespace. -/
def JobLeftAlone (name : String) (_ : List Step) (step : Step) : Prop :=
  ∀ sys ∈ stored step.before.systems name, sys.annotations.rankOp.isSome = true →
    (step.before.jobs.get (jobKey name (namespaceOf sys) .rankOp)).any (!·.deleting) = true →
      step.event.collects ≠ some (jobKey name (namespaceOf sys) .rankOp) ∧
        ∀ sys' ∈ stored step.after.systems name, namespaceOf sys' = namespaceOf sys
  deriving Decidable

/-! ## What a run keeps -/

/-- What is known of the request from its record. -/
inductive SeenAs (name req : String) (life : List Step) : Option RankOpStatus → Prop where
  | never {record : Option RankOpStatus} (h : firstSeen name life = none)
      (hfinished : ∀ lr ∈ record, lr.finishedAt.isSome = true) : SeenAs name req life record
  | since {t : Time} {lr : RankOpStatus} (h : firstSeen name life = some t)
      (hopen : lr.finishedAt = none) (htime : lr.requestedAt = some t)
      (hparse : parseRankOp req = .ok (lr.op, lr.ranks)) : SeenAs name req life (some lr)

/-- The Job stands under its name. -/
def Outstanding (w : World) (name : String) (j : ObjectKey × Nat) : Prop :=
  ∃ sys job, stored w.systems name = some sys ∧
    j = (jobKey name (namespaceOf sys) .rankOp, job.uid) ∧
    w.jobs.get (jobKey name (namespaceOf sys) .rankOp) = some job ∧ job.deleting = false

/-- What a run keeps: the record of a request says when it was first seen, and the last Job
that was sent for it stands or has not reached DAOS. -/
structure Requested (name : String) (past : List Step) (w : World) : Prop where
  named : WellNamed w
  narrow : NarrowWorld w
  seen : ∀ req, asks w name = some req →
    SeenAs name req (requestLife name req past) (rankRecord w name)
  sent : ∀ req, asks w name = some req →
    ∀ last ∈ (requestLife name req past).findSome? (sentJob name),
      Outstanding w name last ∨ Unreached name (requestLife name req past) last

section Life

variable {name req : String} {past life : List Step} {r : Step}

theorem requestLife_cons_of_asks (h : asks r.before name = some req) :
    requestLife name req (r :: past) = r :: requestLife name req past := by
  simp [requestLife, h]

theorem requestLife_cons_of_ne (h : asks r.before name ≠ some req) :
    requestLife name req (r :: past) = [] := by
  simp [requestLife, h]

theorem firstSeen_cons : firstSeen name (r :: life) =
    (firstSeen name life).or (if unfinished r.after name then some r.before.clock else none) := by
  unfold firstSeen
  rw [List.filter_cons]
  split
  · next h =>
      rw [List.getLast?_cons]
      cases (life.filter fun r => unfinished r.after name).getLast? <;> rfl
  · next h =>
      cases (life.filter fun r => unfinished r.after name).getLast? <;> rfl

theorem firstSeen_cons_of_some {t : Time} (h : firstSeen name life = some t) :
    firstSeen name (r :: life) = some t := by
  rw [firstSeen_cons, h, Option.some_or]

theorem firstSeen_cons_of_unfinished (h : unfinished r.after name = true) :
    firstSeen name (r :: life) = some ((firstSeen name life).getD r.before.clock) := by
  rw [firstSeen_cons, if_pos h]
  cases firstSeen name life <;> rfl

theorem Unreached.cons {j : ObjectKey × Nat} (h : Unreached name life j) :
    Unreached name (r :: life) j := by
  obtain ⟨r₁, hr, a, ha, hjob, hanswer, t, ht, hwindow⟩ := h
  exact ⟨r₁, List.mem_cons_of_mem _ hr, a, ha, hjob, hanswer, t, firstSeen_cons_of_some ht, hwindow⟩

/-- A step that leaves the record alone leaves what is known of the request. -/
theorem SeenAs.aside (h : SeenAs name req life record)
    (hrecord : rankRecord r.after name = record) : SeenAs name req (r :: life) record := by
  cases h with
  | never h hfinished =>
      refine .never ?_ hfinished
      have hdone : unfinished r.after name = false := by
        rw [unfinished, hrecord]
        cases record with
        | none => rfl
        | some lr => simpa [Option.isNone_eq_false_iff] using hfinished lr rfl
      rw [firstSeen_cons, h, hdone]
      rfl
  | since h hopen htime hparse => exact .since (firstSeen_cons_of_some h) hopen htime hparse

theorem SeenAs.again {lr : RankOpStatus} (hrecord : rankRecord r.after name = some lr)
    (hopen : lr.finishedAt = none)
    (htime : lr.requestedAt = some ((firstSeen name life).getD r.before.clock))
    (hparse : parseRankOp req = .ok (lr.op, lr.ranks)) :
    SeenAs name req (r :: life) (some lr) := by
  refine .since ?_ hopen htime hparse
  exact firstSeen_cons_of_unfinished (by simp [unfinished, hrecord, hopen])

theorem SeenAs.requestedAt {st : DaosSystemStatus} {now : Time}
    (h : SeenAs name req life st.lastRankOp) (hparse : parseRankOp req = .ok (op, ranks)) :
    System.requestedAt st now op ranks = (firstSeen name life).getD now := by
  unfold System.requestedAt
  generalize st.lastRankOp = record at h
  cases h with
  | never h hfinished =>
      rw [h]
      cases record with
      | none => rfl
      | some lr =>
          have hdone := hfinished lr rfl
          simp [Option.isSome_iff_ne_none.mp hdone]
  | since h hopen htime hsame =>
      rw [hparse] at hsame
      cases hsame
      simp [h, hopen, htime]

theorem SeenAs.whileRunning
    (h : SeenAs name req life record) (now : Time) (hparse : parseRankOp req = .ok (op, ranks)) :
    ∃ lr, System.whileRunning record now op ranks = some lr ∧ lr.finishedAt = none ∧
      lr.requestedAt = some ((firstSeen name life).getD now) ∧
        parseRankOp req = .ok (lr.op, lr.ranks) := by
  unfold System.whileRunning
  cases h with
  | never h hfinished =>
      have hdone : record.any (·.finishedAt.isNone) = false := by
        cases record with
        | none => rfl
        | some lr => simpa [Option.isNone_eq_false_iff] using hfinished lr rfl
      rw [hdone, h]
      exact ⟨_, rfl, rfl, rfl, hparse⟩
  | @since t lr h hopen htime hsame =>
      refine ⟨lr, by simp [hopen], hopen, ?_, hsame⟩
      rw [htime, h]
      rfl

end Life

/-! ## Steps -/

section Steps

variable {name req : String} {past : List Step} {w : World} {e : Event} {sys : DaosSystem}

/-- What a reconcile of the system does about its request. -/
structure OwnStep (name : String) (w : World) (faults : List Fault) (sys sys' : DaosSystem) :
    Prop where
  after : stored (operator.step w (.reconcileSystem name faults)).1.systems name = some sys'
  ns : namespaceOf sys' = namespaceOf sys
  handled : Handled sys w (ledger sys ⟨(operator.step w (.reconcileSystem name faults)).1,
    (operator.step w (.reconcileSystem name faults)).2⟩) sys'.status.lastRankOp

theorem ownStep (hnamed : WellNamed w) (hnarrow : NarrowWorld w)
    (hcalls : CallsAnswered past (operator.record w (.reconcileSystem name faults)))
    (hsys : stored w.systems name = some sys) : ∃ sys', OwnStep name w faults sys sys' := by
  have hname : sys.name = name := hnamed.systems.stored hsys
  subst hname
  obtain ⟨sys', hafter, hhandled⟩ :=
    Prog.exec_ends (wp_reconcile_handled hsys hnarrow) faults hcalls
  refine ⟨sys', hafter, ?_, hhandled⟩
  have hwp : (reconcile sys.name).wp cluster (fun _ => True) ⟨w, []⟩
      (fun _ t => (stored t.world.systems sys.name).map namespaceOf = some (namespaceOf sys))
      fun t => (stored t.world.systems sys.name).map namespaceOf = some (namespaceOf sys) := by
    refine wp_reconcile_frame (fun f _ h => ?_) (fun s c f t hs hc _ _ h => ?_) (by simp [hsys])
    · rw [Handler.next_world, respond_quiet rfl]
      exact h
    · obtain rfl : sys = s := Option.some.inj (hsys.symm.trans hs)
      refine (hc.stored_proj (g := namespaceOf) (fun s p _ => ?_) fun _ _ _ => rfl).trans h
      cases p <;> rfl
  have hns := Prog.exec_ends hwp faults fun _ _ => trivial
  rw [show stored ((reconcile sys.name).exec cluster faults w).world.systems sys.name = some sys'
    from hafter] at hns
  exact Option.some.inj hns

namespace OwnStep

variable {faults : List Fault} {sys' : DaosSystem}

theorem asks_after (h : OwnStep name w faults sys sys') :
    asks (operator.step w (.reconcileSystem name faults)).1 name = sys'.annotations.rankOp := by
  simp [asks, h.after]

theorem record_after (h : OwnStep name w faults sys sys') :
    rankRecord (operator.step w (.reconcileSystem name faults)).1 name =
      sys'.status.lastRankOp := by
  simp [rankRecord, h.after]

theorem request (h : OwnStep name w faults sys sys') (hname : sys.name = name) :
    (ledger sys ⟨(operator.step w (.reconcileSystem name faults)).1,
      (operator.step w (.reconcileSystem name faults)).2⟩).request =
      some (sys'.annotations.rankOp, sys'.annotations.rankOpDiscardData) := by
  subst hname
  simp [ledger, h.after]

theorem sent_eq (hsys : stored w.systems sys.name = some sys) (faults : List Fault) :
    sentJob sys.name (operator.record w (.reconcileSystem sys.name faults)) =
      (ledger sys ⟨(operator.step w (.reconcileSystem sys.name faults)).1,
        (operator.step w (.reconcileSystem sys.name faults)).2⟩).sent.map fun uid =>
          (jobKey sys.name (namespaceOf sys) .rankOp, uid) := by
  simp only [sentJob, Event.system, Machine.record, if_true, hsys, Option.bind_some]
  rfl

theorem answer_eq_none (hsys : stored w.systems sys.name = some sys)
    (hread : (ledger sys ⟨(operator.step w (.reconcileSystem sys.name faults)).1,
      (operator.step w (.reconcileSystem sys.name faults)).2⟩).read = false) :
    readAnswer sys.name (operator.record w (.reconcileSystem sys.name faults)) = none := by
  simp only [ledger] at hread
  simp [readAnswer, Event.system, Machine.record, hsys, hread]

theorem answer_eq_some (hsys : stored w.systems sys.name = some sys) {job : Job}
    (hread : (ledger sys ⟨(operator.step w (.reconcileSystem sys.name faults)).1,
      (operator.step w (.reconcileSystem sys.name faults)).2⟩).read = true)
    (hjob : w.jobs.get (jobKey sys.name (namespaceOf sys) .rankOp) = some job)
    (hres : Dmg.resultOf w (jobKey sys.name (namespaceOf sys) .rankOp) = some res) :
    readAnswer sys.name (operator.record w (.reconcileSystem sys.name faults)) =
      some ((jobKey sys.name (namespaceOf sys) .rankOp, job.uid), res) := by
  simp only [ledger] at hread
  simp [readAnswer, Event.system, Machine.record, hsys, hread, hjob, hres]

/-- A reconcile that leaves the request there leaves a record of when it was first seen. -/
theorem seen (h : OwnStep sys.name w faults sys sys') (hinv : Requested sys.name past w)
    (hsys : stored w.systems sys.name = some sys) (hreq : sys.annotations.rankOp = some req)
    (hafter : sys'.annotations.rankOp = some req) :
    SeenAs sys.name req
      (operator.record w (.reconcileSystem sys.name faults) :: requestLife sys.name req past)
      sys'.status.lastRankOp := by
  have hasks : asks w sys.name = some req := by simp [asks, hsys, hreq]
  have hseen := hinv.seen req hasks
  rw [show rankRecord w sys.name = sys.status.lastRankOp by simp [rankRecord, hsys]] at hseen
  have hrunning : ∀ {op ranks : String}, parseRankOp req = .ok (op, ranks) →
      sys'.status.lastRankOp = whileRunning sys.status.lastRankOp w.clock op ranks →
      SeenAs sys.name req (operator.record w (.reconcileSystem sys.name faults) ::
        requestLife sys.name req past) sys'.status.lastRankOp := by
    intro op ranks hparse hrecord
    obtain ⟨lr, hlr, hopen, htime, hsame⟩ := hseen.whileRunning w.clock hparse
    rw [hlr] at hrecord
    rw [hrecord]
    exact SeenAs.again (h.record_after.trans hrecord) hopen htime hsame
  have hhandled := h.handled
  have hrecord := h.record_after
  have hrequest := h.request rfl
  generalize sys'.status.lastRankOp = record at hhandled hrecord hrunning ⊢
  cases hhandled with
  | untouched _ => exact hseen.aside hrecord
  | waits hreq' hparse _ | sends hreq' hparse _ _ _ _ _ _ =>
      rw [hreq] at hreq'
      cases hreq'
      exact hrunning hparse rfl
  | retries hreq' hparse _ _ _ _ _ _ =>
      rw [hreq] at hreq'
      cases hreq'
      exact SeenAs.again hrecord rfl (congrArg some (hseen.requestedAt hparse)) hparse
  | finishes _ _ _ _ hgone =>
      rw [hrequest, hafter] at hgone
      cases hgone

/-- A reconcile that leaves the request there leaves its last Job standing, or has read that
it did not reach DAOS. -/
theorem sent (h : OwnStep sys.name w faults sys sys') (hinv : Requested sys.name past w)
    (hsys : stored w.systems sys.name = some sys) (hreq : sys.annotations.rankOp = some req)
    (hafter : sys'.annotations.rankOp = some req) {last : ObjectKey × Nat}
    (hlast : (operator.record w (.reconcileSystem sys.name faults) ::
      requestLife sys.name req past).findSome? (sentJob sys.name) = some last) :
    Outstanding (operator.step w (.reconcileSystem sys.name faults)).1 sys.name last ∨
      Unreached sys.name (operator.record w (.reconcileSystem sys.name faults) ::
        requestLife sys.name req past) last := by
  have hasks : asks w sys.name = some req := by simp [asks, hsys, hreq]
  have hold := hinv.sent req hasks
  have hseen := h.seen hinv hsys hreq hafter
  have hsent := sent_eq hsys faults
  have hhandled := h.handled
  have hrequest := h.request rfl
  have hrecord := h.record_after
  -- the Job that is there stays
  have hkept : Unmoved sys w (ledger sys ⟨(operator.step w (.reconcileSystem sys.name faults)).1,
      (operator.step w (.reconcileSystem sys.name faults)).2⟩) →
      Outstanding (operator.step w (.reconcileSystem sys.name faults)).1 sys.name last ∨
        Unreached sys.name (operator.record w (.reconcileSystem sys.name faults) ::
          requestLife sys.name req past) last := by
    intro hunmoved
    rw [List.findSome?_cons, hsent, hunmoved.sent] at hlast
    rcases hold last hlast with ⟨sys₀, job, hsys₀, hlast, hjob, hlive⟩ | hunreached
    · obtain rfl : sys = sys₀ := Option.some.inj (hsys.symm.trans hsys₀)
      refine Or.inl ⟨sys', job, h.after, ?_, ?_, hlive⟩
      · rw [h.ns]
        exact hlast
      · rw [h.ns, ← hjob]
        exact hunmoved.job
    · exact Or.inr hunreached.cons
  generalize sys'.status.lastRankOp = record at hhandled hrecord hseen
  cases hhandled with
  | untouched hunmoved | waits _ _ hunmoved => exact hkept hunmoved
  | @sends _ op ranks job _ _ _ hnew _ hjob hlive _ =>
      rw [List.findSome?_cons, hsent, hnew] at hlast
      obtain rfl := Option.some.inj hlast
      refine Or.inl ⟨sys', job, h.after, by rw [h.ns], ?_, hlive⟩
      rw [h.ns]
      exact hjob
  | @retries _ op ranks msg res _ hparse hres hunreachable hfresh hnone hread _ =>
      rw [List.findSome?_cons, hsent, hnone] at hlast
      rcases hold last hlast with ⟨sys₀, job, hsys₀, rfl, hjob, hlive⟩ | hunreached
      · obtain rfl : sys = sys₀ := Option.some.inj (hsys.symm.trans hsys₀)
        refine Or.inr ⟨_, List.mem_cons_self, _, answer_eq_some hsys hread hjob hres, rfl,
          hunreachable, ?_⟩
        cases hseen with
        | never _ hfinished => exact absurd (hfinished _ rfl) (by simp)
        | since hfirst _ htime _ =>
            cases htime
            exact ⟨_, hfirst, hfresh⟩
      · exact Or.inr hunreached.cons
  | finishes _ _ _ _ hgone =>
      rw [hrequest, hafter] at hgone
      cases hgone

end OwnStep

/-- A step that is no reconcile of the system. -/
def Event.isAside (name : String) (e : Event) : Prop := e.system ≠ some name

theorem sentJob_aside (he : e.isAside name) : sentJob name (operator.record w e) = none :=
  if_neg he

/-- A step that is no reconcile of the system leaves the record of a request and its Job. -/
theorem kept_aside (hw : WellNamed w) (he : e.isAside name)
    (halone : JobLeftAlone name past (operator.record w e)) (hasks : asks w name = some req)
    (hafter : asks (operator.step w e).1 name = some req) :
    rankRecord (operator.step w e).1 name = rankRecord w name ∧
      ∀ j, Outstanding w name j → Outstanding (operator.step w e).1 name j := by
  by_cases hchange : ∃ c, e = .change c
  · obtain ⟨c, rfl⟩ := hchange
    have hafter : asks (c.apply w) name = some req := hafter
    constructor
    · have hsystem := systemChange w name c
      change rankRecord (c.apply w) name = rankRecord w name
      unfold asks at hasks hafter
      unfold rankRecord
      generalize stored w.systems name = before at hsystem hasks ⊢
      generalize stored (c.apply w).systems name = after at hsystem hafter ⊢
      cases hsystem with
      | same | edit | annotate | delete => rfl
      | create => cases hasks
      | remove => cases hafter
    · rintro j ⟨sys, job, hsys, rfl, hjob, hlive⟩
      obtain ⟨sys', hsys', -⟩ := Option.bind_eq_some_iff.mp hafter
      have hrank : sys.annotations.rankOp.isSome = true := by
        rw [show asks w name = sys.annotations.rankOp by simp [asks, hsys]] at hasks
        rw [hasks]
        rfl
      obtain ⟨hcollects, hns⟩ := halone sys hsys hrank (by simp [Machine.record, hjob, hlive])
      have hns := hns sys' hsys'
      have hstays := jobChange w (jobKey name (namespaceOf sys) .rankOp) c
      rw [hjob] at hstays
      refine ⟨sys', ?_⟩
      rw [hns]
      generalize hnew : (c.apply w).jobs.get (jobKey name (namespaceOf sys) .rankOp) = job'
        at hstays
      cases hstays with
      | same _ => exact ⟨job, hsys', rfl, hnew, hlive⟩
      | progress conditions pods _ => exact ⟨{ job with conditions, pods }, hsys', rfl, hnew, hlive⟩
      | removed _ hdeleting =>
          rw [hlive] at hdeleting
          cases hdeleting
      | collected _ => exact absurd rfl hcollects
  · have helsewhere : e.elsewhere name := by
      cases e with
      | reconcileSystem other faults =>
          intro hother
          exact he (congrArg some hother)
      | reconcilePool _ _ | reconcileContainer _ _ => trivial
      | change c => exact absurd ⟨c, rfl⟩ hchange
    obtain ⟨hsystems, hjobs⟩ := step_elsewhere name e hw helsewhere
    have hstored : stored (operator.step w e).1.systems name = stored w.systems name := by
      simp only [stored, hsystems]
    constructor
    · simp only [rankRecord, hstored]
    · rintro j ⟨sys, job, hsys, rfl, hjob, hlive⟩
      refine ⟨sys, job, hstored.trans hsys, rfl, ?_, hlive⟩
      rw [hjobs _ _ (by rintro ⟨⟩), hjob]

theorem Requested.step (hinv : Requested name past w)
    (hcalls : CallsAnswered past (operator.record w e))
    (hclean : AppearsClean name past (operator.record w e))
    (halone : JobLeftAlone name past (operator.record w e)) :
    Requested name (operator.record w e :: past) (operator.step w e).1 := by
  have hboth : ∀ req, asks (operator.step w e).1 name = some req →
      SeenAs name req (requestLife name req (operator.record w e :: past))
        (rankRecord (operator.step w e).1 name) ∧
      ∀ last ∈ (requestLife name req (operator.record w e :: past)).findSome? (sentJob name),
        Outstanding (operator.step w e).1 name last ∨
          Unreached name (requestLife name req (operator.record w e :: past)) last := by
    intro req hafter
    by_cases hasks : asks w name = some req
    · rw [requestLife_cons_of_asks (r := operator.record w e) hasks]
      by_cases he : e.system = some name
      · obtain ⟨faults, rfl⟩ := Event.eq_of_system (e := e) he
        obtain ⟨sys, hsys, hreq⟩ := Option.bind_eq_some_iff.mp hasks
        obtain ⟨sys', hown⟩ := ownStep hinv.named hinv.narrow hcalls hsys
        obtain rfl : sys.name = name := hinv.named.systems.stored hsys
        rw [hown.asks_after] at hafter
        rw [hown.record_after]
        exact ⟨hown.seen hinv hsys hreq hafter,
          fun last hlast => hown.sent hinv hsys hreq hafter hlast⟩
      · obtain ⟨hrecord, hjob⟩ := kept_aside hinv.named he halone hasks hafter
        rw [hrecord]
        refine ⟨(hinv.seen req hasks).aside hrecord, ?_⟩
        intro last hlast
        rw [List.findSome?_cons, sentJob_aside he] at hlast
        rcases hinv.sent req hasks last hlast with houtstanding | hunreached
        · exact Or.inl (hjob last houtstanding)
        · exact Or.inr hunreached.cons
    · -- the request appears
      rw [requestLife_cons_of_ne (r := operator.record w e) hasks]
      exact ⟨.never rfl fun lr hlr => hclean req hafter hasks lr hlr, by simp⟩
  exact ⟨hinv.named.step e, hinv.narrow.step e, fun req h => (hboth req h).1,
    fun req h => (hboth req h).2⟩

/-- A reconcile that leaves a finished record and no request finishes the request. -/
theorem OwnStep.finishes {sys' : DaosSystem} {lr : RankOpStatus}
    (h : OwnStep name w faults sys sys') (hname : sys.name = name)
    (hlast : sys'.status.lastRankOp = some lr) (hop : (lr.op, lr.ranks) = requestOf req)
    (hfinished : lr.finishedAt.isSome = true)
    (hgone : (ledger sys ⟨(operator.step w (.reconcileSystem name faults)).1,
      (operator.step w (.reconcileSystem name faults)).2⟩).request = some (none, none)) :
    Finishes name req (operator.record w (.reconcileSystem name faults)) := by
  rw [h.request hname] at hgone
  have hnone := Option.some.inj hgone
  refine ⟨sys', h.after, congrArg Prod.fst hnone, congrArg Prod.snd hnone, ?_⟩
  simp [rankOpRecorded, hlast, hop, hfinished]

/-- What a reconcile of the system does about a request that it finds. -/
theorem OwnStep.ends {sys' : DaosSystem}
    (h : OwnStep sys.name w faults sys sys') (hinv : Requested sys.name past w)
    (hsys : stored w.systems sys.name = some sys) (hreq : sys.annotations.rankOp = some req) :
    Finishes sys.name req (operator.record w (.reconcileSystem sys.name faults)) ∨
      GoesOn sys.name req (requestLife sys.name req past)
        (operator.record w (.reconcileSystem sys.name faults)) := by
  have hrequest := h.request rfl
  have hrecord := h.record_after
  have hseen := fun hafter => h.seen hinv hsys hreq hafter
  have hbefore : rankRecord w sys.name = sys.status.lastRankOp := by simp [rankRecord, hsys]
  have hhandled := h.handled
  -- the request is still there unless it is finished
  have hgoes : sys'.annotations.rankOp = some req →
      (∀ lr ∈ rankRecord (operator.step w (.reconcileSystem sys.name faults)).1 sys.name,
        lr.finishedAt.isSome = true → rankRecord w sys.name = some lr) →
      (∀ a ∈ readAnswer sys.name (operator.record w (.reconcileSystem sys.name faults)),
        wasUnreachable a.2 = true ∧ ∃ t ∈ firstSeen sys.name
          (operator.record w (.reconcileSystem sys.name faults) :: requestLife sys.name req past),
          w.clock - t < rankOpRetryWindow) →
      GoesOn sys.name req (requestLife sys.name req past)
        (operator.record w (.reconcileSystem sys.name faults)) :=
    fun hafter hfinished hanswer => ⟨h.asks_after.trans hafter, hfinished, hanswer⟩
  have hstays : (ledger sys ⟨(operator.step w (.reconcileSystem sys.name faults)).1,
      (operator.step w (.reconcileSystem sys.name faults)).2⟩).request =
      some (sys.annotations.rankOp, sys.annotations.rankOpDiscardData) →
      sys'.annotations.rankOp = some req := by
    intro hsame
    rw [hrequest] at hsame
    rw [← hreq]
    exact congrArg Prod.fst (Option.some.inj hsame)
  have hwaiting : ∀ {op ranks : String}, sys'.status.lastRankOp =
      whileRunning sys.status.lastRankOp w.clock op ranks →
      ∀ lr ∈ rankRecord (operator.step w (.reconcileSystem sys.name faults)).1 sys.name,
        lr.finishedAt.isSome = true → rankRecord w sys.name = some lr := by
    intro op ranks hrunning lr hlr hfinished
    rw [hrecord, hrunning, whileRunning] at hlr
    split at hlr
    · rw [hbefore]
      exact hlr
    · cases hlr
      cases hfinished
  generalize hlast : sys'.status.lastRankOp = record at hhandled hrecord hseen hwaiting
  cases hhandled with
  | untouched hsame =>
      refine Or.inr (hgoes (hstays hsame.request) ?_ ?_)
      · intro lr hlr _
        rw [hbefore, ← hrecord]
        exact hlr
      · rw [answer_eq_none hsys hsame.read]
        rintro a ⟨⟩
  | waits _ _ hsame =>
      refine Or.inr (hgoes (hstays hsame.request) (hwaiting rfl) ?_)
      rw [answer_eq_none hsys hsame.read]
      rintro a ⟨⟩
  | sends _ _ _ _ hread _ _ hsame =>
      refine Or.inr (hgoes (hstays hsame) (hwaiting rfl) ?_)
      rw [answer_eq_none hsys hread]
      rintro a ⟨⟩
  | @retries _ op ranks msg res _ _ hres hunreachable hfresh _ hread hsame =>
      refine Or.inr (hgoes (hstays hsame) ?_ ?_)
      · intro lr hlr hfinished
        rw [hrecord] at hlr
        cases hlr
        cases hfinished
      · obtain ⟨job, hjob, -⟩ := Option.bind_eq_some_iff.mp hres
        rw [answer_eq_some hsys hread hjob hres]
        rintro a ⟨⟩
        refine ⟨hunreachable, ?_⟩
        cases hseen (hstays hsame) with
        | never _ hfinished => exact absurd (hfinished _ rfl) (by simp)
        | since hfirst _ htime _ =>
            cases htime
            exact ⟨_, hfirst, hfresh⟩
  | @finishes _ lr hreq' hop hfinished _ hgone =>
      rw [hreq] at hreq'
      cases hreq'
      exact Or.inl (h.finishes rfl hlast hop (by rw [hfinished]; rfl) hgone)

theorem stored_of_absent (h : stored w.systems name = none) (faults : List Fault) :
    stored (operator.step w (.reconcileSystem name faults)).1.systems name = none := by
  have hwp : (reconcile name).wp cluster (fun _ => True) ⟨w, []⟩
      (fun _ t => stored t.world.systems name = none)
      fun t => stored t.world.systems name = none := by
    refine wp_reconcile_frame (fun f _ h => ?_) (fun s c f t hs _ _ _ _ => ?_) h
    · rw [Handler.next_world, respond_quiet rfl]
      exact h
    · rw [h] at hs
      cases hs
  exact Prog.exec_ends hwp faults fun _ _ => trivial

theorem sentOnce_step (hinv : Requested name past w)
    (hcalls : CallsAnswered past (operator.record w e))
    (hclean : AppearsClean name past (operator.record w e))
    (halone : JobLeftAlone name past (operator.record w e)) :
    SentOnce name past (operator.record w e) := by
  have hnext := hinv.step hcalls hclean halone
  constructor
  · intro req hasks
    have hasks : asks w name = some req := hasks
    refine ⟨?_, ?_, ?_⟩
    · intro j hj last hlast
      rcases hinv.sent req hasks last hlast with ⟨sys, job, hsys, -, hjob, -⟩ | hunreached
      · -- a Job that stands is not created
        by_cases he : e.system = some name
        · obtain ⟨faults, rfl⟩ := Event.eq_of_system (e := e) he
          obtain ⟨sys', hown⟩ := ownStep hinv.named hinv.narrow hcalls hsys
          obtain rfl : sys.name = name := hinv.named.systems.stored hsys
          rw [OwnStep.sent_eq hsys] at hj
          have hhandled := hown.handled
          generalize sys'.status.lastRankOp = record at hhandled
          cases hhandled with
          | untouched h | waits _ _ h =>
              rw [h.sent] at hj
              cases hj
          | sends _ _ habsent _ _ _ _ _ =>
              rw [habsent] at hjob
              cases hjob
          | retries _ _ _ _ _ hnone _ _ | finishes _ _ _ hnone _ =>
              rw [hnone] at hj
              cases hj
        · rw [sentJob_aside he] at hj
          cases hj
      · exact hunreached
    · intro hafter lr hlr hopen
      have hseen := hnext.seen req hafter
      rw [requestLife_cons_of_asks (r := operator.record w e) hasks] at hseen
      rw [show rankRecord (operator.step w e).1 name = some lr from hlr] at hseen
      cases hseen with
      | never _ hfinished =>
          have hdone := hfinished lr rfl
          rw [hopen] at hdone
          cases hdone
      | since hfirst _ htime _ => exact htime.trans hfirst.symm
    · intro he
      obtain ⟨faults, rfl⟩ := Event.eq_of_system (e := e) he
      obtain ⟨sys, hsys, hreq⟩ := Option.bind_eq_some_iff.mp hasks
      obtain ⟨sys', hown⟩ := ownStep hinv.named hinv.narrow hcalls hsys
      obtain rfl : sys.name = name := hinv.named.systems.stored hsys
      exact hown.ends hinv hsys hreq
  · intro he hnone
    have hnone : asks w name = none := hnone
    obtain ⟨faults, rfl⟩ := Event.eq_of_system (e := e) he
    change rankRecord (operator.step w (.reconcileSystem name faults)).1 name =
      rankRecord w name
    cases hsys : stored w.systems name with
    | none => simp [rankRecord, hsys, stored_of_absent hsys faults]
    | some sys =>
        obtain ⟨sys', hown⟩ := ownStep hinv.named hinv.narrow hcalls hsys
        obtain rfl : sys.name = name := hinv.named.systems.stored hsys
        have hunasked : sys.annotations.rankOp = none := by simpa [asks, hsys] using hnone
        have hhandled := hown.handled
        rw [hown.record_after, show rankRecord w sys.name = sys.status.lastRankOp by
          simp [rankRecord, hsys]]
        generalize sys'.status.lastRankOp = record at hhandled ⊢
        cases hhandled with
        | untouched _ => rfl
        | waits hreq _ _ | sends hreq _ _ _ _ _ _ _ | retries hreq _ _ _ _ _ _ _
        | finishes hreq _ _ _ _ =>
            rw [hunasked] at hreq
            cases hreq

end Steps

/-- Where the Job of a request is left alone, the request is sent again only after DAOS was not
reached, and it ends with one finished record. -/
theorem rank_request_sent_once (name : String) (events : List Event)
    (hcalls : Along CallsAnswered [] (history events))
    (hclean : Along (AppearsClean name) [] (history events))
    (halone : Along (JobLeftAlone name) [] (history events)) :
    Along (SentOnce name) [] (history events) := by
  refine Machine.along_induction (I := Requested name) ?_ ?_ events (hcalls.and (hclean.and halone))
  · intro past w e hinv hstep
    exact ⟨sentOnce_step hinv hstep.1 hstep.2.1 hstep.2.2,
      hinv.step hstep.1 hstep.2.1 hstep.2.2⟩
  · exact ⟨wellNamed_empty, ⟨by simp [stored], by simp⟩, by simp [asks, stored],
      by simp [asks, stored]⟩

/-- A formatted system is asked to drain a rank, and the Job answers this; the system is looked
at, and what is then in flight answers that the rank is drained. -/
def resentRun (answer : String) (between : List Event) : List Event :=
  formattedRun ++ [.change (.annotateSystem "s" .rankOp (some "drain:0")), .reconcileSystem "s" [],
    jobAnswers ⟨"daos-system", "s-dmg-rankop"⟩ answer] ++ between ++ [.reconcileSystem "s" [],
    jobAnswers ⟨"daos-system", "s-dmg-rankop"⟩ "\x7b\"response\":\x7b\x7d\x7d",
    .reconcileSystem "s" []]

/-- DAOS is not reached at first, and the request is sent again. -/
theorem rank_request_sent_once_unreached :
    ∃ events, (history events).filterMap (sentJob "s") =
        [(⟨"daos-system", "s-dmg-rankop"⟩, 1), (⟨"daos-system", "s-dmg-rankop"⟩, 2)] ∧
      Along (SentOnce "s") [] (history events) := by
  let events := resentRun "\x7b\"error\":\"unreachable\",\"status\":-1009\x7d"
    [.reconcileSystem "s" [], .change (.jobRemoved ⟨"daos-system", "s-dmg-rankop"⟩)]
  have hrun : (history events).filterMap (sentJob "s") =
        [(⟨"daos-system", "s-dmg-rankop"⟩, 1), (⟨"daos-system", "s-dmg-rankop"⟩, 2)] ∧
      Along CallsAnswered [] (history events) ∧ Along (AppearsClean "s") [] (history events) ∧
        Along (JobLeftAlone "s") [] (history events) := by
    decide +kernel
  exact ⟨events, hrun.1, rank_request_sent_once "s" events hrun.2.1 hrun.2.2.1 hrun.2.2.2⟩

/-- The rank is drained, and the Job is removed an hour later before its answer was read: the
request is sent again. -/
theorem rank_request_sent_twice :
    ∃ events, Along CallsAnswered [] (history events) ∧
      Along (AppearsClean "s") [] (history events) ∧ ¬Along (SentOnce "s") [] (history events) := by
  refine ⟨resentRun "\x7b\"response\":\x7b\x7d\x7d" [.change (.tick 3600),
    .change (.jobCollected ⟨"daos-system", "s-dmg-rankop"⟩)], ?_⟩
  decide +kernel

end DaosOperator
