import DaosOperator.Effect.Retry
import DaosOperator.Effect.Run
import DaosOperator.System.EngineMemory
import Mathlib.Data.List.DropRight

/-!
# Automatic engine starts keep their limits

What the operator remembers about a rank is a track of the retry policy: each call of the
engine restart that sees the rank down moves it as the policy allows, and a call that does
not see it down forgets it.  So over every sequence of calls the starts of one outage of a
rank are few, late enough and far enough apart, and every rank of a request was fit for it.
-/

namespace DaosOperator.System

open Effect

/-- The limits of automatic starts. -/
def startPolicy : Retry.Policy where
  grace := engineRestartGrace
  interval := engineRestartInterval
  limit := engineRestartMax

/-! ## Tracks -/

def timesOf (t : EngineTrack) : Retry.Track := ⟨t.downSince, t.lastTry, t.tries⟩

def trackOf (ts : Table Int EngineTrack) (rank : Int) : Option Retry.Track :=
  (ts.get rank).map timesOf

theorem trackOf_put (ts : Table Int EngineTrack) (rank other : Int) (t : EngineTrack) :
    trackOf (ts.put other (some t)) rank =
      if rank = other then some (timesOf t) else trackOf ts rank := by
  unfold trackOf
  rw [Table.get_put]
  split <;> rfl

/-- The rank is in the status, in another state than joined. -/
def isDown (st : DaosSystemStatus) (rank : Int) : Bool :=
  st.ranks.any fun rk => rk.rank = rank ∧ rk.state ≠ memberJoined

def isCandidate (p : Pass) (rank : Int) : Bool :=
  (engineRestartCandidates p.sys p.status).any fun rk => rk.rank = rank

theorem isDown_of_isCandidate {p : Pass} {rank : Int} (h : isCandidate p rank = true) :
    isDown p.status rank = true := by
  obtain ⟨rk, hrk, hrank⟩ := List.any_eq_true.mp h
  unfold engineRestartCandidates at hrk
  split at hrk
  · cases hrk
  · obtain ⟨hmem, hstate⟩ := List.mem_filter.mp hrk
    refine List.any_eq_true.mpr ⟨rk, hmem, ?_⟩
    have hne : rk.state ≠ memberJoined := by
      intro heq
      have hjoined := (of_decide_eq_true hstate).1
      rw [heq] at hjoined
      exact absurd hjoined (by decide)
    simpa [hne] using hrank

theorem get_openTracks (now : Time) (cands : List RankStatus) (ts : Table Int EngineTrack)
    (rank : Int) :
    (cands.foldl (fun (t : Table Int EngineTrack) rk =>
      if (t.get rk.rank).isNone then t.put rk.rank (some { downSince := now })
      else t) ts).get rank =
    match ts.get rank with
    | some t => some t
    | none => if cands.any fun rk => rk.rank = rank then some { downSince := now } else none := by
  induction cands generalizing ts with
  | nil => cases hget : ts.get rank <;> simp [hget]
  | cons rk cands ih =>
      rw [List.foldl_cons, ih]
      by_cases hrank : rk.rank = rank
      · subst hrank
        cases hget : ts.get rk.rank with
        | none => simp
        | some t => simp [hget]
      · have hkeep : (if (ts.get rk.rank).isNone then ts.put rk.rank (some { downSince := now })
            else ts).get rank = ts.get rank := by
          split
          · exact ts.get_put_of_ne (Ne.symm hrank) _
          · rfl
        rw [hkeep]
        simp [hrank]

theorem trackOf_refreshTracks (now : Time) (cands ranks : List RankStatus)
    (ts : Table Int EngineTrack) (rank : Int) (tried : Bool) :
    trackOf (refreshTracks now cands ranks ts) rank =
      if ranks.any fun rk => rk.rank = rank ∧ rk.state ≠ memberJoined then
        Retry.Look.opens ⟨now, cands.any fun rk => rk.rank = rank, tried⟩ (trackOf ts rank)
      else none := by
  unfold trackOf refreshTracks Table.restrict
  dsimp only
  split
  · rw [get_openTracks]
    cases ts.get rank with
    | some t => rfl
    | none =>
        dsimp only [Option.map_none, Retry.Look.opens]
        split <;> rfl
  · rfl

/-! ## The plan of one call -/

def isDue (now : Time) : Option Retry.Track → Bool
  | none => false
  | some t => t.tries < engineRestartMax ∧ t.since + engineRestartGrace ≤ now ∧
      (0 < t.tries → t.last + engineRestartInterval ≤ now)

theorem trackOf_considerRank (now : Time) (d : Due) (rk : RankStatus) :
    trackOf (considerRank now d rk).tracks = trackOf d.tracks := by
  unfold considerRank
  split
  · rfl
  · next t ht =>
      split
      · split
        · rfl
        · -- giving up keeps the times and the count
          funext rank
          rw [trackOf_put]
          split
          · next hrank =>
              subst hrank
              simp [trackOf, ht, timesOf]
          · rfl
      · split
        · rfl
        · split <;> rfl

theorem due_considerRank (now : Time) (d : Due) (rk : RankStatus) :
    (considerRank now d rk).due =
      d.due ++ if isDue now (trackOf d.tracks rk.rank) then [rk.rank] else [] := by
  unfold considerRank
  cases ht : d.tracks.get rk.rank with
  | none => simp [trackOf, ht, isDue]
  | some t =>
      have htrack : trackOf d.tracks rk.rank = some (timesOf t) := by simp [trackOf, ht]
      have hdue : isDue now (some (timesOf t)) = true ↔ ¬engineRestartMax ≤ t.tries ∧
          ¬now - t.downSince < engineRestartGrace ∧
          ¬(0 < t.tries ∧ now - t.lastTry < engineRestartInterval) := by
        have hwaited : ∀ a b k : Nat, 0 < k → (b + k ≤ a ↔ ¬a - b < k) := by omega
        unfold isDue
        rw [decide_eq_true_iff, not_and, not_le]
        exact and_congr Iff.rfl (and_congr (hwaited now t.downSince _ (by decide))
          (imp_congr Iff.rfl (hwaited now t.lastTry _ (by decide))))
      rw [htrack]
      dsimp only
      split
      · next hmax =>
          rw [if_neg fun h => (hdue.mp h).1 hmax, List.append_nil]
          split <;> rfl
      · next hmax =>
          split
          · next hgrace =>
              rw [if_neg fun h => (hdue.mp h).2.1 hgrace, List.append_nil]
          · next hgrace =>
              split
              · next hinterval =>
                  rw [if_neg fun h => (hdue.mp h).2.2 hinterval, List.append_nil]
              · next hinterval =>
                  rw [if_pos (hdue.mpr ⟨hmax, hgrace, hinterval⟩)]

/-- The loop over the candidates collects the ranks that are due and keeps the tracks. -/
theorem foldl_considerRank (now : Time) (cands : List RankStatus) (d : Due) :
    (cands.foldl (considerRank now) d).due =
        d.due ++ (cands.filter fun rk => isDue now (trackOf d.tracks rk.rank)).map (·.rank) ∧
      trackOf (cands.foldl (considerRank now) d).tracks = trackOf d.tracks := by
  induction cands generalizing d with
  | nil => simp
  | cons rk cands ih =>
      obtain ⟨hdue, htracks⟩ := ih (considerRank now d rk)
      rw [trackOf_considerRank] at hdue htracks
      refine ⟨?_, htracks⟩
      rw [List.foldl_cons, hdue, due_considerRank, List.append_assoc, List.filter_cons]
      split <;> rfl

def countStart (now : Time) (t : Retry.Track) : Retry.Track :=
  { t with last := now, tries := t.tries + 1 }

theorem trackOf_countTries (now : Time) {due : List Int} (hdue : due.Nodup)
    (ts : Table Int EngineTrack) (rank : Int) :
    trackOf (countTries now due ts) rank =
      if rank ∈ due then (trackOf ts rank).map (countStart now) else trackOf ts rank := by
  unfold countTries
  induction due generalizing ts with
  | nil => rfl
  | cons first due ih =>
      obtain ⟨hfirst, hrest⟩ := List.nodup_cons.mp hdue
      rw [List.foldl_cons, ih hrest]
      cases hget : ts.get first with
      | none =>
          dsimp only
          by_cases hr : rank = first
          · subst hr
            simp [trackOf, hget]
          · simp [hr]
      | some tr =>
          dsimp only
          rw [trackOf_put]
          by_cases hr : rank = first
          · subst hr
            simp [hfirst, trackOf, hget, timesOf, countStart]
          · simp [hr]

/-- The plan one call makes. -/
def planOf (now : Time) (p : Pass) (m : EngineMemory) : RestartPlan :=
  planRestart now (engineRestartCandidates p.sys p.status) p.status m

/-- What a call sees of a rank and does about it. -/
def lookOf (now : Time) (p : Pass) (m : EngineMemory) (rank : Int) : Retry.Look where
  now := now
  candidate := isCandidate p rank
  tried := rank ∈ (planOf now p m).due

theorem nodup_candidates {p : Pass} (hranks : (p.status.ranks.map (·.rank)).Nodup) :
    ((engineRestartCandidates p.sys p.status).map (·.rank)).Nodup := by
  unfold engineRestartCandidates
  split
  · exact List.nodup_nil
  · exact hranks.sublist (List.filter_sublist.map _)

/-- The plan in terms of tracks: the ranks that are due, and what is left of a track. -/
theorem planOf_cases {p : Pass} (hranks : (p.status.ranks.map (·.rank)).Nodup) (now : Time)
    (m : EngineMemory) (rank : Int) :
    let opened := trackOf (refreshTracks now (engineRestartCandidates p.sys p.status)
      p.status.ranks m.tracks) rank
    (rank ∈ (planOf now p m).due → isCandidate p rank = true ∧ isDue now opened = true) ∧
      trackOf (planOf now p m).memory.tracks rank =
        if rank ∈ (planOf now p m).due then opened.map (countStart now) else opened := by
  intro opened
  unfold planOf planRestart
  extract_lets tracks d
  obtain ⟨hdue, htracks⟩ :=
    foldl_considerRank now (engineRestartCandidates p.sys p.status) { tracks }
  split
  · -- a start is in flight
    exact ⟨by simp, by simp [opened, tracks]⟩
  · split
    · refine ⟨by simp, ?_⟩
      simpa using congrFun htracks rank
    · have hnodup : d.due.Nodup := by
        rw [hdue, List.nil_append]
        exact (nodup_candidates hranks).sublist (List.filter_sublist.map _)
      have hsorted : (d.due.insertionSort (· ≤ ·)).Nodup :=
        (List.perm_insertionSort _ _).nodup_iff.mpr hnodup
      refine ⟨?_, ?_⟩
      · intro hmem
        rw [List.mem_insertionSort, hdue, List.nil_append] at hmem
        obtain ⟨rk, hrk, rfl⟩ := List.mem_map.mp hmem
        obtain ⟨hcand, hopen⟩ := List.mem_filter.mp hrk
        exact ⟨List.any_eq_true.mpr ⟨rk, hcand, by simp⟩, hopen⟩
      · have hcount := trackOf_countTries now hsorted d.tracks rank
        rw [show trackOf d.tracks = trackOf tracks from htracks] at hcount
        exact hcount

/-- A call that does not see the rank down forgets it. -/
theorem planOf_of_not_down {p : Pass} (hranks : (p.status.ranks.map (·.rank)).Nodup) (now : Time)
    (m : EngineMemory) {rank : Int} (hdown : isDown p.status rank = false) :
    rank ∉ (planOf now p m).due ∧ trackOf (planOf now p m).memory.tracks rank = none := by
  obtain ⟨hdue, htrack⟩ := planOf_cases hranks now m rank
  have hnot : rank ∉ (planOf now p m).due := by
    intro hmem
    rw [isDown_of_isCandidate (hdue hmem).1] at hdown
    cases hdown
  rw [if_neg hnot, trackOf_refreshTracks _ _ _ _ _ false] at htrack
  unfold isDown at hdown
  rw [hdown] at htrack
  exact ⟨hnot, htrack⟩

/-- A call that sees the rank down moves its track within the policy. -/
theorem moves_planOf {p : Pass} (hranks : (p.status.ranks.map (·.rank)).Nodup) (now : Time)
    (m : EngineMemory) {rank : Int} (hdown : isDown p.status rank = true) :
    startPolicy.Moves (lookOf now p m rank) (trackOf m.tracks rank)
      (trackOf (planOf now p m).memory.tracks rank) := by
  obtain ⟨hdue, htrack⟩ := planOf_cases hranks now m rank
  have hopens : trackOf (refreshTracks now (engineRestartCandidates p.sys p.status) p.status.ranks
      m.tracks) rank = (lookOf now p m rank).opens (trackOf m.tracks rank) := by
    rw [trackOf_refreshTracks _ _ _ _ _ (decide (rank ∈ (planOf now p m).due))]
    unfold isDown at hdown
    rw [hdown]
    rfl
  rw [hopens] at hdue htrack
  unfold Retry.Policy.Moves
  rw [htrack]
  cases hopened : (lookOf now p m rank).opens (trackOf m.tracks rank) with
  | none =>
      rw [hopened] at hdue
      have hnot : rank ∉ (planOf now p m).due := fun hmem => by
        have hfalse := (hdue hmem).2
        cases hfalse
      exact ⟨by simp [lookOf, hnot], by simp [hnot]⟩
  | some t =>
      rw [hopened] at hdue
      by_cases hmem : rank ∈ (planOf now p m).due
      · obtain ⟨hcand, hallowed⟩ := hdue hmem
        simp only [isDue, decide_eq_true_eq] at hallowed
        refine ⟨countStart now t, by simp [hmem], ?_⟩
        exact
          { since := rfl
            tries := by simp [lookOf, hmem, countStart]
            last := Or.inl rfl
            allowed := fun _ => ⟨hcand, hallowed.1, hallowed.2.1, hallowed.2.2⟩ }
      · refine ⟨t, by simp [hmem], ?_⟩
        exact
          { since := rfl
            tries := by simp [lookOf, hmem]
            last := Or.inr ⟨by simp [lookOf, hmem], rfl⟩
            allowed := fun htried => absurd htried (by simp [lookOf, hmem]) }

/-! ## One call -/

/-- A track whose last try may have been set to the time of a pod restart. -/
def Touched (now : Time) (t t' : Option Retry.Track) : Prop :=
  t' = t ∨ t' = t.map fun a => { a with last := now }

theorem Touched.trans {now : Time} {t t' t'' : Option Retry.Track} (h : Touched now t t')
    (h' : Touched now t' t'') : Touched now t t'' := by
  rcases h with rfl | rfl
  · exact h'
  · rcases h' with rfl | rfl
    · exact Or.inr rfl
    · right
      cases t <;> rfl

theorem touched_touchTries (now : Time) (ranks : List Int) (m : EngineMemory) (rank : Int) :
    Touched now (trackOf m.tracks rank) (trackOf (touchTries now ranks m).tracks rank) := by
  unfold touchTries
  dsimp only
  generalize m.tracks = ts
  induction ranks generalizing ts with
  | nil => exact Or.inl rfl
  | cons first ranks ih =>
      refine Touched.trans ?_ (ih _)
      cases hget : ts.get first with
      | none =>
          simp only [hget]
          exact Or.inl rfl
      | some tr =>
          simp only [hget, trackOf_put]
          split
          · next hrank =>
              subst hrank
              exact Or.inr (by simp [trackOf, hget, timesOf])
          · exact Or.inl rfl

theorem enginesOf_noteEngines (w : World) (name : String) (m : EngineMemory) :
    enginesOf (noteEngines w name m) name = m := by
  simp [enginesOf, noteEngines]

/-- What a call leaves of the tracks of its plan. -/
theorem touched_reconcileEngineRestart (ns : String) (p : Pass) (faults : List Fault) (w : World)
    (rank : Int) :
    Touched w.clock
      (trackOf (planOf w.clock p (enginesOf w p.sys.name)).memory.tracks rank)
      (trackOf (enginesOf ((reconcileEngineRestart ns p).exec cluster faults w).world
        p.sys.name).tracks rank) := by
  have hproof : EnginesProof p.sys.name ns fun u => u.clock = w.clock ∧ Touched w.clock
      (trackOf (planOf w.clock p (enginesOf w p.sys.name)).memory.tracks rank)
      (trackOf (enginesOf u p.sys.name).tracks rank) :=
    { other := fun c f u hc hu => by
        unfold enginesOf
        rw [hc.engines rfl, hc.surroundings.2.1]
        exact hu
      finished := fun u hu => by
        rw [enginesOf_noteEngines]
        exact hu
      touched := fun u ranks hu => by
        rw [enginesOf_noteEngines]
        refine ⟨hu.1, hu.2.trans ?_⟩
        rw [← hu.1]
        exact touched_touchTries _ _ _ _ }
  have hwp : (reconcileEngineRestart ns p).wp cluster (fun _ => True) ⟨w, []⟩ _ _ :=
    hproof.wp_reconcileEngineRestart (by
      rw [enginesOf_noteEngines]
      exact ⟨rfl, Or.inl rfl⟩)
  exact (Prog.exec_ends hwp faults fun _ _ => trivial).2

theorem engines_of_other (ns : String) (p : Pass) (faults : List Fault) (w : World)
    {other : String} (hne : other ≠ p.sys.name) :
    ((reconcileEngineRestart ns p).exec cluster faults w).world.memory.engines.get other =
      w.memory.engines.get other := by
  have hput : ∀ u m, (noteEngines u p.sys.name m).memory.engines.get other =
      u.memory.engines.get other := fun u m => u.memory.engines.get_put_of_ne hne _
  have hproof : EnginesProof p.sys.name ns fun u =>
      u.memory.engines.get other = w.memory.engines.get other :=
    { other := fun c f u hc hu => by
        rw [hc.engines rfl]
        exact hu
      finished := fun u hu => (hput u _).trans hu
      touched := fun u ranks hu => (hput u _).trans hu }
  have hwp : (reconcileEngineRestart ns p).wp cluster (fun _ => True) ⟨w, []⟩ _ _ :=
    hproof.wp_reconcileEngineRestart (hput w _)
  exact Prog.exec_ends hwp faults fun _ _ => trivial

/-- A start that begins now is for the ranks that are due. -/
theorem running_planOf {now : Time} {p : Pass} {m : EngineMemory}
    (h : (planOf now p m).due ≠ []) :
    (planOf now p m).memory.running = rankList (planOf now p m).due := by
  unfold planOf planRestart at h ⊢
  dsimp only at h ⊢
  split_ifs at h ⊢
  · exact absurd rfl h
  · exact absurd rfl h
  · rfl

/-- The call creates no Job, or the start Job of a rank set. -/
def StartsOnly (running : String) (c : Call) : Prop :=
  ∀ spec, c = .createJob spec → spec.command.args = ["system", "start", "--ranks=" ++ running]

section StartsOnly

variable {running name ns : String}

theorem startsOnly_of_systemCall {c : Call}
    (h : SystemCall name ns { pods := true, engines := true } c) : StartsOnly running c := by
  rintro spec rfl
  cases h with
  | quiet h => cases h
  | createJob kind _ h => cases h

theorem obeys_event_startsOnly (sys : DaosSystem) (warning : Bool) (reason msg : String) :
    (event sys warning reason msg).Obeys (StartsOnly running) fun _ => True :=
  Prog.obeys_ask (by rintro _ ⟨⟩)

theorem obeys_runStart_startsOnly (p : Pass) :
    (runStart ns p running).Obeys (StartsOnly running) fun _ => True := by
  have hrun : (runDmg p.sys ns .engineStart ["system", "start", "--ranks=" ++ running]).Obeys
      (StartsOnly running) fun _ => True := by
    refine (Dmg.obeys_run _).mono (fun c hc spec hspec => ?_) fun _ h => h
    cases hc <;> cases hspec
    rfl
  refine hrun.mapError.bind fun res _ => ?_
  refine Prog.obeys_ite (fun _ => trivial) fun _ => ?_
  exact (obeys_finishStart rfl rfl rfl _ res).mono (fun _ => startsOnly_of_systemCall)
    fun _ _ => trivial

end StartsOnly

/-- Every start Job of a call carries the rank set in flight, which is that of the ranks that are
due when there are any. -/
theorem args_of_startJob (ns : String) (p : Pass) (faults : List Fault) (w : World)
    {x : Entry Call World} (hx : x ∈ ((reconcileEngineRestart ns p).exec cluster faults w).log)
    {spec : Dmg.RunSpec} (hcall : x.call = .createJob spec) :
    let plan := planOf w.clock p (enginesOf w p.sys.name)
    spec.command.args = ["system", "start", "--ranks=" ++ plan.memory.running] ∧
      (plan.due ≠ [] → plan.memory.running = rankList plan.due) := by
  intro plan
  refine ⟨?_, running_planOf⟩
  have hwp : (reconcileEngineRestart ns p).wp cluster (fun _ => True) ⟨w, []⟩
      (fun _ t => ∀ y ∈ t.log, StartsOnly plan.memory.running y.call)
      fun t => ∀ y ∈ t.log, StartsOnly plan.memory.running y.call := by
    -- the plan is made from the first two answers, and the rest goes by the plan
    refine EnginesProof.wp_inProcess rfl (EnginesProof.wp_inProcess rfl
      (EnginesProof.wp_inProcess rfl ?_))
    refine Prog.wp_mono (Prog.Obeys.wp (S := StartsOnly plan.memory.running)
      (P := fun _ => True) ?_ ?_ ?_) (fun _ _ h => h.2) fun _ h => h
    · refine Prog.Obeys.bind (P := fun _ => True)
        (Prog.obeys_foldList (fun _ _ _ _ => obeys_event_startsOnly ..) trivial) fun _ _ => ?_
      refine Prog.obeys_ite (fun _ => trivial) fun _ => ?_
      refine Prog.Obeys.bind (P := fun _ => True)
        (Prog.obeys_ite (fun _ => trivial) fun _ => obeys_event_startsOnly ..) fun _ _ => ?_
      exact obeys_runStart_startsOnly _
    · intro c f t hc _ _ ht y hy
      rcases Handler.mem_next_log hy with hy | rfl
      · exact ht y hy
      · exact hc
    · simp [StartsOnly]
  exact Prog.exec_ends hwp faults (fun _ _ => trivial) x hx spec hcall

/-! ## Sequences of calls -/

/-- One call of `reconcileEngineRestart`: the cluster it finds, what it works on, and the
calls of its own that fail. -/
structure StartCall where
  world : World
  ns : String
  pass : Pass
  faults : List Fault

/-- The cluster of a call, with what the process remembers about engines. -/
def StartCall.before (c : StartCall) (engines : Table String EngineMemory) : World :=
  { c.world with memory := { c.world.memory with engines } }

/-- One process: its calls share what it remembers about engines.  What is observed of a
call is the ranks it puts into a request. -/
def process : Machine (Table String EngineMemory) StartCall (List Int) where
  step engines c :=
    (((reconcileEngineRestart c.ns c.pass).exec cluster c.faults
        (c.before engines)).world.memory.engines,
      (planOf c.world.clock c.pass (enginesOf (c.before engines) c.pass.sys.name)).due)

abbrev CallRecord := Record (Table String EngineMemory) StartCall (List Int)

def ofSystem (name : String) (r : CallRecord) : Bool := r.event.pass.sys.name = name

/-- The call sees the rank in another state than joined. -/
def seesDown (rank : Int) (r : CallRecord) : Bool := isDown r.event.pass.status rank

def lookAt (rank : Int) (r : CallRecord) : Retry.Look where
  now := r.event.world.clock
  candidate := isCandidate r.event.pass rank
  tried := rank ∈ r.obs

/-- An outage of a rank of a system: a maximal run of the system's calls that see the rank
in another state than joined. -/
def IsOutage (name : String) (rank : Int) (calls outage : List CallRecord) : Prop :=
  ∃ pre post, calls.filter (ofSystem name) = pre ++ outage ++ post ∧
    (∀ r ∈ outage, seesDown rank r = true) ∧ (∀ r ∈ pre.getLast?, seesDown rank r = false) ∧
    ∀ r ∈ post.head?, seesDown rank r = false

/-- The rank may be started: it is errored or excluded on a node with a ready server
workload, the membership is known, and nobody asked for a rank operation. -/
structure Startable (p : Pass) (rank : Int) : Prop where
  known : membershipKnown p.status = true
  unasked : p.sys.annotations.rankOp = none
  down : ∃ rk ∈ p.status.ranks, rk.rank = rank ∧ (rk.state = "errored" ∨ rk.state = "excluded") ∧
    ∃ nc ∈ p.status.nodeConfigs, nc.node = rk.node ∧ nc.workload ≠ "" ∧ nc.serverReady = true

theorem startable_of_isCandidate {p : Pass} {rank : Int} (h : isCandidate p rank = true) :
    Startable p rank := by
  obtain ⟨rk, hrk, hrank⟩ := List.any_eq_true.mp h
  unfold engineRestartCandidates at hrk
  split at hrk
  · cases hrk
  · next hgates =>
      simp only [Bool.or_eq_true, Bool.not_eq_true', not_or, Bool.not_eq_false,
        Bool.not_eq_true, Option.isSome_eq_false_iff, Option.isNone_iff_eq_none] at hgates
      obtain ⟨hmem, hfit⟩ := List.mem_filter.mp hrk
      simp only [decide_eq_true_eq] at hfit hrank
      refine ⟨hgates.1.2, hgates.2, rk, hmem, hrank,
        by simpa [engineRestartStates] using hfit.1, ?_⟩
      have hserved := hfit.2
      unfold nodeServed at hserved
      cases hlast : (p.status.nodeConfigs.filter fun nc => nc.node = rk.node).getLast? with
      | none => simp [hlast] at hserved
      | some nc =>
          obtain ⟨hnc, hnode⟩ := List.mem_filter.mp (List.mem_of_getLast? hlast)
          simp only [hlast, Option.map_some, Option.getD_some, served, Bool.and_eq_true,
            decide_eq_true_eq] at hserved
          exact ⟨nc, hnc, by simpa using hnode, hserved.1, hserved.2⟩

/-- The calls of the current outage and the track of the rank agree. -/
def FollowsPolicy (name : String) (rank : Int) (calls : List CallRecord)
    (engines : Table String EngineMemory) : Prop :=
  startPolicy.Run (((calls.filter (ofSystem name)).rtakeWhile (seesDown rank)).map (lookAt rank))
    (trackOf ((engines.get name).getD {}).tracks rank)

theorem FollowsPolicy.step {name : String} {rank : Int} {calls : List CallRecord}
    {engines : Table String EngineMemory} (h : FollowsPolicy name rank calls engines)
    {c : StartCall} (hranks : (c.pass.status.ranks.map (·.rank)).Nodup) :
    FollowsPolicy name rank (calls ++ [process.record engines c]) (process.step engines c).1 := by
  unfold FollowsPolicy at h ⊢
  rw [List.filter_append]
  by_cases hname : c.pass.sys.name = name
  · subst hname
    have hof : ofSystem c.pass.sys.name (process.record engines c) = true := by simp [ofSystem]
    rw [List.filter_cons_of_pos hof, List.filter_nil]
    have htouched := touched_reconcileEngineRestart c.ns c.pass c.faults (c.before engines) rank
    by_cases hdown : isDown c.pass.status rank = true
    · have hmoves := moves_planOf hranks c.world.clock
        (enginesOf (c.before engines) c.pass.sys.name) hdown
      have hsees : seesDown rank (process.record engines c) = true := hdown
      rw [List.rtakeWhile_concat_pos _ _ _ hsees, List.map_append]
      refine .look h ?_
      rcases htouched with hsame | hagain
      · exact hsame ▸ hmoves
      · have hmoved : startPolicy.Moves _ _ _ := hmoves
        cases htrack : trackOf (planOf c.world.clock c.pass
            (enginesOf (c.before engines) c.pass.sys.name)).memory.tracks rank with
        | none =>
            rw [htrack] at hmoved
            have hnone : trackOf (enginesOf _ c.pass.sys.name).tracks rank = none :=
              hagain.trans (by
                rw [show (c.before engines).clock = c.world.clock from rfl, htrack]; rfl)
            exact hnone ▸ hmoved
        | some b =>
            rw [htrack] at hmoved
            have hsome : trackOf (enginesOf _ c.pass.sys.name).tracks rank =
                some { b with last := c.world.clock } :=
              hagain.trans (by
                rw [show (c.before engines).clock = c.world.clock from rfl, htrack]; rfl)
            exact hsome ▸ hmoved.again
    · have hforgets := (planOf_of_not_down hranks c.world.clock
        (enginesOf (c.before engines) c.pass.sys.name) (by simpa using hdown)).2
      have hsees : ¬seesDown rank (process.record engines c) = true := hdown
      rw [List.rtakeWhile_concat_neg _ _ _ hsees]
      have hnone : trackOf (enginesOf ((reconcileEngineRestart c.ns c.pass).exec cluster c.faults
          (c.before engines)).world c.pass.sys.name).tracks rank = none := by
        rcases htouched with hsame | hagain
        · exact hsame.trans hforgets
        · exact hagain.trans (congrArg _ hforgets)
      exact hnone ▸ .start
  · have hof : ofSystem name (process.record engines c) = false := by simp [ofSystem, hname]
    rw [List.filter_cons_of_neg (by simp [hof]), List.filter_nil, List.append_nil]
    have hother : (process.step engines c).1.get name = engines.get name :=
      engines_of_other c.ns c.pass c.faults (c.before engines) (Ne.symm hname)
    rw [hother]
    exact h

theorem followsPolicy_history (calls : List StartCall)
    (hranks : ∀ c ∈ calls, (c.pass.status.ranks.map (·.rank)).Nodup) (name : String) (rank : Int) :
    FollowsPolicy name rank (process.history Table.empty calls)
      (process.final Table.empty calls) := by
  refine Machine.history_induction
    (R := fun r => (r.event.pass.status.ranks.map (·.rank)).Nodup) .start
    (fun _ _ _ h hr => h.step hr) calls ?_
  intro r hr
  obtain ⟨pre, c, post, rfl, rfl⟩ := Machine.exists_of_mem_history hr
  exact hranks c (by simp)

theorem rtakeWhile_outage {rank : Int} {pre outage : List CallRecord}
    (hdown : ∀ r ∈ outage, seesDown rank r = true)
    (hpre : ∀ r ∈ pre.getLast?, seesDown rank r = false) :
    (pre ++ outage).rtakeWhile (seesDown rank) = outage := by
  unfold List.rtakeWhile
  have hnone : pre.reverse.takeWhile (seesDown rank) = [] := by
    rw [← List.head?_reverse] at hpre
    cases hrev : pre.reverse with
    | nil => rfl
    | cons r rest =>
        rw [hrev] at hpre
        exact List.takeWhile_cons_of_neg (by simp [hpre r rfl])
  rw [List.reverse_append, List.takeWhile_append_of_pos fun r hr => hdown r (by simpa using hr),
    hnone, List.append_nil, List.reverse_reverse]

theorem startable_of_mem_obs {calls : List StartCall}
    (hranks : ∀ c ∈ calls, (c.pass.status.ranks.map (·.rank)).Nodup) {r : CallRecord}
    (hr : r ∈ process.history Table.empty calls) {rank : Int} (hrank : rank ∈ r.obs) :
    Startable r.event.pass rank := by
  obtain ⟨pre, c, post, rfl, rfl⟩ := Machine.exists_of_mem_history hr
  exact startable_of_isCandidate ((planOf_cases (hranks c (by simp)) _ _ rank).1 hrank).1

/-- Over every sequence of calls of one process, the starts of an outage keep the limits, and
every rank put into a request is fit for it. -/
theorem engine_starts_polite (calls : List StartCall)
    (htimes : (calls.map (·.world.clock)).Pairwise (· ≤ ·))
    (hranks : ∀ c ∈ calls, (c.pass.status.ranks.map (·.rank)).Nodup) :
    (∀ name rank outage, IsOutage name rank (process.history Table.empty calls) outage →
      startPolicy.Polite (outage.map (lookAt rank))) ∧
    ∀ r ∈ process.history Table.empty calls, ∀ rank ∈ r.obs, Startable r.event.pass rank := by
  refine ⟨?_, fun r hr rank hrank => startable_of_mem_obs hranks hr hrank⟩
  rintro name rank outage ⟨pre, post, hcalls, hdown, hpre, -⟩
  -- the calls up to the end of the outage
  obtain ⟨first, rest, hsplit, hfirst, -⟩ := List.filter_eq_append_iff.mp hcalls
  obtain ⟨early, late, rfl, rfl, -⟩ := Machine.history_eq_append hsplit
  have hfollows := followsPolicy_history early (fun c hc => hranks c (by simp [hc])) name rank
  unfold FollowsPolicy at hfollows
  rw [hfirst, rtakeWhile_outage hdown hpre] at hfollows
  refine hfollows.polite ?_
  have hsuffix : outage.Sublist ((process.history Table.empty early).filter (ofSystem name)) := by
    rw [hfirst]
    exact List.sublist_append_right pre outage
  have hsublist := hsuffix.trans List.filter_sublist
  have hclocks : (process.history Table.empty early).map (·.event.world.clock) =
      early.map (·.world.clock) := by
    have hevents := congrArg (List.map (·.world.clock))
      (Machine.map_event_history (m := process) Table.empty early)
    simpa [Function.comp_def] using hevents
  rw [List.map_append, List.pairwise_append] at htimes
  have hearly := htimes.1
  rw [← hclocks] at hearly
  simpa [Function.comp_def, lookAt] using hearly.sublist (hsublist.map _)

/-- A system whose rank 0 is errored on a node with a ready server. -/
def erroredRank : Pass where
  sys := { name := "s" }
  status :=
    { conditions := [⟨.formatted, .isTrue, "Formatted", "1 rank(s)"⟩]
      nodeConfigs := [{ node := "a", workload := "s-server-a", serverReady := true }]
      ranks := [⟨0, "a", "errored"⟩] }

def callAt (clock : Time) (job : Option Job) : StartCall where
  world := { clock, jobs := Table.empty.put (jobKey "s" "daos-system" .engineStart) job }
  ns := "daos-system"
  pass := erroredRank
  faults := []

def finishedStart : Job where
  uid := 0
  spec := jobSpec erroredRank.sys "daos-system" .engineStart
    (.dmg ["system", "start", "--ranks=" ++ rankList [0]])
  created := 120
  conditions := [.complete true]

/-- The rank stays down; its start is asked for, the Job finishes, and so on. -/
def downCalls : List StartCall :=
  [callAt 0 none, callAt 119 none, callAt 120 none, callAt 130 (some finishedStart),
    callAt 419 none, callAt 420 none]

/-- The outage of these calls has two starts. -/
theorem engine_starts_polite_two_starts :
    ((process.history Table.empty downCalls).filter fun r => (0 : Int) ∈ r.obs).map
      (·.event.world.clock) = [120, 420] ∧
    startPolicy.Polite ((process.history Table.empty downCalls).map (lookAt 0)) := by
  have hsystem : ∀ r ∈ process.history Table.empty downCalls, ofSystem "s" r = true := by
    decide +kernel
  have hdown : ∀ r ∈ process.history Table.empty downCalls, seesDown 0 r = true := by
    decide +kernel
  have houtage : IsOutage "s" 0 (process.history Table.empty downCalls)
      (process.history Table.empty downCalls) := by
    refine ⟨[], [], ?_, hdown, by simp, by simp⟩
    rw [List.filter_eq_self.mpr hsystem, List.nil_append, List.append_nil]
  have hpolite := engine_starts_polite downCalls (by decide +kernel) (by decide +kernel)
  exact ⟨by decide +kernel, hpolite.1 "s" 0 _ houtage⟩

end DaosOperator.System
