import DaosOperator.Cluster
import DaosOperator.Dmg.Output
import DaosOperator.Effect.Failure

/-!
# Running `dmg` as a Job

`JobRunner.Run` creates the Job when there is none, reports that it is not done
while the Job runs, and once it finished reads the log of its newest pod, deletes
the Job and hands out the result.  The deletion comes before the caller acts on
the result.
-/

namespace DaosOperator.Dmg

open Effect

structure Result where
  done : Bool := false
  exitCode : Int := 0
  output : String := ""
  failure : String := ""
  started : Option Time := none
  deriving DecidableEq

/-- `Result.QueriedAt`. -/
def Result.queriedAt (r : Result) (fallback : Time) : Time := r.started.getD fallback

/-- `jobFinished`: the failure text of a finished Job, empty when it completed. -/
def jobFinished : List JobCondition → Option String
  | [] => none
  | .complete true :: _ => some ""
  | .failed true reason message :: _ => some (Text.trimSpace (reason ++ ": " ++ message))
  | _ :: cs => jobFinished cs

def newestPod (pods : List JobPod) : Option JobPod :=
  (pods.insertionSort fun a b => b.created ≤ a.created).head?

/-- The result of a finished Job, from the pod that ran it. -/
def readResult (key : ObjectKey) (failure : String) (pods : List JobPod) : Op Result :=
  match newestPod pods with
  | none => .ret { done := true, exitCode := -1, failure }
  | some p =>
      ((ask (.podLogs key p)).mapError fun e => "logs of " ++ p.name ++ ": " ++ e).bind
        fun output =>
          .ret { done := true, failure, output
                 exitCode := (p.terminated.map (·.1)).getD (-1)
                 started := p.terminated.map (·.2) }

/-- `JobRunner.Run`. -/
def run (s : RunSpec) : Op Result :=
  (ask (.getJob s.key)).bind fun
    | none => (ask (.createJob s)).bind fun _ => .ret {}
    | some job =>
        -- a previous run that is still being removed is not read
        if job.deleting then .ret {}
        else
          match jobFinished job.conditions with
          | none => .ret {}
          | some failure =>
              (ask (.listJobPods s.key)).bind fun pods =>
                (readResult s.key failure pods).bind fun res =>
                  (ask (.deleteJob s.key)).bind fun _ => .ret res

/-! ## What a run can do -/

/-- The calls of `run`. -/
inductive RunCall (s : RunSpec) : Call → Prop where
  | getJob : RunCall s (.getJob s.key)
  | createJob : RunCall s (.createJob s)
  | listJobPods : RunCall s (.listJobPods s.key)
  | podLogs (pod : JobPod) : RunCall s (.podLogs s.key pod)
  | deleteJob : RunCall s (.deleteJob s.key)

theorem obeys_readResult (s : RunSpec) (failure : String) (pods : List JobPod) :
    (readResult s.key failure pods).Obeys (RunCall s) fun _ => True := by
  unfold readResult
  split
  · trivial
  · next p _ =>
      refine (Prog.obeys_ask (.podLogs p)).mapError.bind ?_
      intro output _
      trivial

theorem obeys_run (s : RunSpec) : (run s).Obeys (RunCall s) fun _ => True := by
  refine Prog.obeys_ask_bind .getJob ?_
  rintro (_ | job)
  · refine Prog.obeys_ask_bind .createJob ?_
    intro _
    trivial
  · refine Prog.obeys_ite (fun _ => trivial) ?_
    intro _
    split
    · trivial
    · refine Prog.obeys_ask_bind .listJobPods ?_
      intro pods
      refine (obeys_readResult s _ pods).bind ?_
      intro res _
      refine Prog.obeys_ask_bind .deleteJob ?_
      intro _
      trivial

/-- The result of a finished Job, as `run` hands it out. -/
def jobResult (failure : String) (job : Job) : Result :=
  match newestPod job.pods with
  | none => { done := true, exitCode := -1, failure }
  | some p =>
      { done := true, failure, output := p.log
        exitCode := (p.terminated.map (·.1)).getD (-1)
        started := p.terminated.map (·.2) }

theorem done_jobResult (failure : String) (job : Job) : (jobResult failure job).done = true := by
  unfold jobResult
  split <;> rfl

/-- Without faults, `run` hands out the result of a finished Job. -/
theorem exec_run_finished {spec : RunSpec} {w : World} {job : Job} {failure : String}
    (hjob : w.jobs.get spec.key = some job) (hlive : job.deleting = false)
    (hfinished : jobFinished job.conditions = some failure) :
    ((run spec).exec cluster [] w).result = .ok (jobResult failure job) := by
  have hget : (perform (.getJob spec.key) w).1 = some job := hjob
  have hpods : (perform (.listJobPods spec.key) w).1 = job.pods := by simp [perform, hjob]
  unfold run
  rw [Prog.exec_bind_nil (Prog.exec_ask_nil _).1, (Prog.exec_ask_nil _).2]
  simp only [show cluster.perform = perform from rfl, hget]
  rw [if_neg (by simp [hlive])]
  simp only [hfinished]
  rw [Prog.exec_bind_nil (Prog.exec_ask_nil _).1, (Prog.exec_ask_nil _).2]
  change (((readResult spec.key failure (perform (.listJobPods spec.key) w).1).bind fun res =>
    (ask (.deleteJob spec.key)).bind fun _ => .ret res).exec cluster [] w).result = _
  rw [hpods]
  unfold readResult jobResult
  cases newestPod job.pods with
  | none => rfl
  | some p => rfl

/-- The rule for `run`: reading changes nothing, so only the creation of a missing Job
and the deletion of a finished one have to be looked at. -/
theorem wp_run {spec : RunSpec} {rely : Entry Call World → Prop} {I W : Point Call World → Prop}
    {A : Result → Point Call World → Prop} {s : Point Call World}
    (hread : ∀ c f t, c.quiet = true → rely ⟨c, f, t.world⟩ → I t → I (cluster.next t c f))
    (hs : I s) (hstop : ∀ t, I t → W t)
    (hcreate : ∀ t, I t → t.world = s.world → s.world.jobs.get spec.key = none →
      (ask (.createJob spec)).wp cluster rely t (fun _ => A {}) W)
    (hwait : ∀ t job, I t → t.world = s.world → s.world.jobs.get spec.key = some job →
      A {} t)
    (hdone : ∀ t job failure, I t → t.world = s.world → s.world.jobs.get spec.key = some job →
      job.deleting = false → jobFinished job.conditions = some failure →
      (ask (.deleteJob spec.key)).wp cluster rely t (fun _ => A (jobResult failure job)) W) :
    (run spec).wp cluster rely s A W := by
  -- a call that reads keeps the world and the invariant
  have hask : ∀ {c : Call} {t : Point Call World}, c.quiet = true → I t → t.world = s.world →
      (ask c).wp cluster rely t
        (fun a u => a = (perform c t.world).1 ∧ I u ∧ u.world = s.world) W := by
    intro c t hc ht hworld
    refine Prog.wp_ask ?_ ?_
    · intro hrely
      refine ⟨rfl, hread c .none t hc hrely ht, ?_⟩
      exact (perform_quiet hc t.world).trans hworld
    · intro f _ _ hrely
      exact hstop _ (hread c f t hc hrely ht)
  refine Prog.wp_bind (hask rfl hs rfl) ?_
  rintro (_ | job) t ⟨hjob, ht, hworld⟩
  · exact Prog.wp_bind (hcreate t ht hworld hjob.symm) fun _ _ h => h
  have hget : s.world.jobs.get spec.key = some job := hjob.symm
  refine Prog.wp_ite (fun _ => hwait t job ht hworld hget) fun hlive => ?_
  split
  · exact hwait t job ht hworld hget
  · next failure hfinished =>
      refine Prog.wp_bind (hask rfl ht hworld) ?_
      rintro pods u ⟨hpods, hu, hsame⟩
      obtain rfl : pods = job.pods := by
        simpa [perform, hworld, hget] using hpods
      refine Prog.wp_bind (A := fun res t => res = jobResult failure job ∧ I t ∧
        t.world = s.world) ?_ ?_
      · unfold readResult jobResult
        split
        · exact ⟨rfl, hu, hsame⟩
        · refine Prog.wp_bind (Prog.wp_mapError.mpr (hask rfl hu hsame)) ?_
          rintro _ v ⟨rfl, hv⟩
          exact ⟨rfl, hv⟩
      · rintro _ t ⟨rfl, ht, hworld⟩
        exact Prog.wp_bind (hdone t job failure ht hworld hget (by simpa using hlive) hfinished)
          fun _ _ h => h

/-- Where every call is answered, `run` hands out the result of a finished Job. -/
theorem wp_run_finished {spec : RunSpec} {rely : Entry Call World → Prop}
    {s : Point Call World} {job : Job} {failure : String}
    {A : Result → Point Call World → Prop} {W : Point Call World → Prop}
    (hrely : ∀ e, rely e → e.fault = .none) (hjob : s.world.jobs.get spec.key = some job)
    (hlive : job.deleting = false) (hfinished : jobFinished job.conditions = some failure)
    (h : ∀ t, A (jobResult failure job) t) : (run spec).wp cluster rely s A W := by
  have hget : (cluster.perform (.getJob spec.key) s.world).1 = some job := hjob
  have hpods : (cluster.perform (.listJobPods spec.key) s.world).1 = job.pods := by
    simp [cluster, perform, hjob]
  refine Prog.wp_answered (fun _ _ => hrely _) ?_
  rw [hget]
  refine Prog.wp_ite (fun hdeleting => ?_) fun _ => ?_
  · simp [hlive] at hdeleting
  rw [hfinished]
  refine Prog.wp_answered (fun _ _ => hrely _) ?_
  change ((readResult spec.key failure
    (cluster.perform (.listJobPods spec.key) s.world).1).bind _).wp cluster rely _ A W
  rw [hpods]
  refine Prog.wp_bind (A := fun res _ => res = jobResult failure job) ?_ ?_
  · unfold readResult jobResult
    split
    · rfl
    · next pod _ =>
        refine Prog.wp_bind (A := fun log _ => log = pod.log) (Prog.wp_mapError.mpr ?_) ?_
        · exact Prog.wp_ask (fun _ => rfl) fun f hf _ hentry => absurd (hrely _ hentry) hf
        · rintro _ t rfl
          rfl
  · rintro _ t rfl
    exact Prog.wp_answered (fun _ _ => hrely _) (h _)

/-- The result that `run` hands out for the Job of a name. -/
def resultOf (w : World) (key : ObjectKey) : Option Result :=
  (w.jobs.get key).bind fun job =>
    if job.deleting then none else (jobFinished job.conditions).map fun f => jobResult f job

/-- The result of the Job was read off: the Job had finished, and its deletion was answered. -/
def Read (w : World) (log : List (Entry Call World)) (key : ObjectKey) (res : Result) : Prop :=
  resultOf w key = some res ∧ ∃ x ∈ log, x.call = .deleteJob key ∧ x.fault = .none

theorem Read.append {w : World} {log : List (Entry Call World)} {key : ObjectKey} {res : Result}
    (h : Read w log key res) (new : List (Entry Call World)) : Read w (log ++ new) key res := by
  obtain ⟨hfinished, x, hx, hcall⟩ := h
  exact ⟨hfinished, x, List.mem_append_left _ hx, hcall⟩

/-- The rule for `run` in a program whose calls keep an invariant: it creates a Job that is
missing, deletes one that finished, and hands out the result of the Job it found. -/
theorem wp_run_keeps {spec : RunSpec} {rely : Entry Call World → Prop}
    {I : Point Call World → Prop} {s : Point Call World}
    (hkeep : ∀ c f t, (c.quiet = true ∨ c = .createJob spec ∨ c = .deleteJob spec.key) →
      s.log <+: t.log → I t → I (cluster.next t c f)) (hs : I s) :
    (run spec).wp cluster rely s
      (fun res t => (res.done = false ∨ Read s.world t.log spec.key res) ∧ s.log <+: t.log ∧ I t)
      I := by
  have hnext : ∀ c f t, (c.quiet = true ∨ c = .createJob spec ∨ c = .deleteJob spec.key) →
      s.log <+: t.log ∧ I t → s.log <+: (cluster.next t c f).log ∧ I (cluster.next t c f) := by
    intro c f t hc ht
    exact ⟨ht.1.trans (List.prefix_append _ _), hkeep c f t hc ht.1 ht.2⟩
  refine wp_run (I := fun t => s.log <+: t.log ∧ I t) (fun c f t hc _ => hnext c f t (Or.inl hc))
    ⟨List.prefix_refl _, hs⟩ (fun _ ht => ht.2) ?_ ?_ ?_
  · intro t ht _ _
    refine Prog.wp_ask (fun _ => ⟨Or.inl rfl, ?_⟩) fun f _ _ _ => ?_
    · exact hnext _ _ t (Or.inr (Or.inl rfl)) ht
    · exact (hnext _ f t (Or.inr (Or.inl rfl)) ht).2
  · intro t job ht _ _
    exact ⟨Or.inl rfl, ht⟩
  · intro t job failure ht _ hjob hlive hfinished
    refine Prog.wp_ask (fun _ => ⟨Or.inr ⟨?_, ?_⟩, ?_⟩) fun f _ _ _ => ?_
    · simp [resultOf, hjob, hlive, hfinished]
    · exact ⟨_, List.mem_append_right _ (List.mem_singleton_self _), rfl, rfl⟩
    · exact hnext _ _ t (Or.inr (Or.inr rfl)) ht
    · exact (hnext _ f t (Or.inr (Or.inr rfl)) ht).2

end DaosOperator.Dmg
