import DaosOperator.System.Basic

/-!
# Certificates and the full-stop restart

`ensureCerts` and `rotateCerts` manage the Secret with the transport certificates.
`reconcileUpgrade` is the state machine that stops the whole system, replaces its
server pods and starts it again, for a changed server image or for new
certificates.
-/

namespace DaosOperator.System

open Effect

/-! ## Certificates -/

def certsRenewApproved (sys : DaosSystem) : Bool :=
  certsNeeded sys && sys.annotations.certsRenewApproved = some "true"

def renewBefore (sys : DaosSystem) : Int :=
  (if sys.spec.renewBeforeDays ≤ 0 then 30 else sys.spec.renewBeforeDays) * 86400

/-- The Secret with the certificates in use. -/
def certsKey (name ns : String) : ObjectKey := ⟨ns, name ++ "-certs"⟩

/-- The Secret a rotation leaves the replaced certificates in. -/
def previousCertsKey (name ns : String) : ObjectKey := ⟨ns, name ++ "-certs-previous"⟩

/-- The status for a Secret that verifies. -/
def certsValid (sys : DaosSystem) (now exp : Time) (st : DaosSystemStatus) : DaosSystemStatus :=
  let name := certsSecretName sys
  let kept := st.certificates
  let left : Int := (exp : Int) - now
  let expiring := left < renewBefore sys
  let msg := "Secret " ++ name ++ " valid until " ++ Text.rfc3339 exp ++ " (" ++
    toString ((exp - now) / 86400) ++ " days left)" ++
    (if expiring then
      "; rotation replaces the CA, so it needs a full-stop restart: kubectl annotate daossystem " ++
        sys.name ++ " " ++ annotationCertsRenewApproved ++ "=true"
    else "") ++
    (if certsRenewApproved sys then "; rotation approved, running on the next pass" else "")
  let certs : CertificatesStatus :=
    ⟨name, some exp, kept.bind (·.rotatedAt), (kept.map (·.previousSecret)).getD ""⟩
  setCond { st with certificates := some certs }
    .certificates .isTrue (if expiring then "ExpiringSoon" else "Valid") msg

/-- `ensureCerts`: the name of the Secret to mount, empty without TLS. -/
def ensureCerts (ns : String) (p : Pass) : Op (String × Pass) :=
  if !certsNeeded p.sys then
    .ret ("", p.cond .certificates .isFalse "Insecure"
      "spec.allowInsecure=true: no transport certificates (Phase 0 only)")
  else
    let name := certsSecretName p.sys
    let key := certsKey p.sys.name ns
    (ask (.getSecret key)).bind fun
      | none =>
          ((ask .generateCerts).mapError ("generate certificates: " ++ ·)).bind fun bundle =>
            ((ask (.createSecret key bundle)).mapError fun e =>
              "create " ++ name ++ ": " ++ e).bind fun _ =>
              (event p.sys false "CertificatesGenerated"
                ("transport certificates generated into Secret " ++ name)).bind fun _ =>
                .ret (name, p.cond .certificates .isTrue "Generated"
                  ("Secret " ++ name ++ " created (CA, server, agent, admin)"))
      | some bundle =>
          (ask .now).bind fun now =>
            match bundle.verify now with
            -- a user-supplied or damaged Secret is reported and never overwritten
            | .error e => .ret (name, p.cond .certificates .isFalse "Invalid"
                ("Secret " ++ name ++ ": " ++ e ++ " (fix it or delete it to regenerate)"))
            | .ok exp => .ret (name, { p with status := certsValid p.sys now exp p.status })

def clearCertsApproval (sys : DaosSystem) : Op DaosSystem :=
  if sys.annotations.certsRenewApproved.isNone then .ret sys
  else patch sys .removeCertsRenewApproved

/-- `rotateCerts`: back up the current bundle, then write a new one. -/
def rotateCerts (ns : String) (p : Pass) : Op Pass :=
  let name := certsSecretName p.sys
  let prevName := name ++ "-previous"
  ((ask (.getSecret (certsKey p.sys.name ns))).mapError fun e =>
    "read " ++ name ++ ": " ++ e).bind fun
    | none => .fail ("read " ++ name ++ ": secrets \"" ++ name ++ "\" not found")
    | some cur =>
        ((ask (.putSecret (previousCertsKey p.sys.name ns) cur)).mapError fun e =>
          "back up to " ++ prevName ++ ": " ++ e).bind fun _ =>
          ((ask .generateCerts).mapError ("generate certificates: " ++ ·)).bind fun bundle =>
            ((ask (.putSecret (certsKey p.sys.name ns) bundle)).mapError fun e =>
              "update " ++ name ++ ": " ++ e).bind fun _ =>
              (ask .now).bind fun now =>
                (event p.sys false "CertificatesRotated"
                  ("new CA and certificates written to " ++ name ++ " (previous kept in " ++
                    prevName ++ "); restart DAOS clients too: the CSI node DaemonSet and any " ++
                    "pod with a daos_agent sidecar")).bind fun _ =>
                  .ret { p with status := { p.status with
                    certificates := some ⟨name, some bundle.notAfter, some now, prevName⟩ } }

/-! ## Server pods -/

/-- `serverPods`, in the order of their names. -/
def serverPods (sys : DaosSystem) (ns : String) : Op (List ServerPod) :=
  (ask (.listServerPods ns sys.name)).bind fun pods =>
    .ret (pods.insertionSort fun a b => a.key.name ≤ b.key.name)

def podImage (p : ServerPod) : String := (lookupKey p.containers "daos-server").getD ""

def podReady (p : ServerPod) : Bool := !p.terminating && p.readyCondition

/-! ## The restart -/

def upgradeInProgress (st : DaosSystemStatus) : Bool :=
  match st.upgrade with
  | none => false
  | some up =>
      match up.phase with
      | .stopping | .updating | .starting | .startingSystem | .verifying => true
      | .pending | .completed | .failed => false

def upgradeTimeout (sys : DaosSystem) : Duration :=
  if 0 < sys.spec.upgrade.timeoutMinutes then (sys.spec.upgrade.timeoutMinutes * 60).toNat
  else 1800

def resetApproval (sys : DaosSystem) : Op DaosSystem :=
  if sys.spec.upgrade.approved then patch sys .resetUpgradeApproved else .ret sys

/-- `done`: whatever ends the restart consumes both approvals. -/
def consumeApprovals (sys : DaosSystem) : Op DaosSystem :=
  (resetApproval sys).bind clearCertsApproval

/-- What `reconcileUpgrade` returns. -/
structure UpgradeResult where
  inProgress : Bool
  requeue : Duration
  pass : Pass

/-- Record the state of the restart. -/
def Pass.withUpgrade (p : Pass) (up : UpgradeStatus) : Pass :=
  { p with status := { p.status with upgrade := some up } }

/-- Record the state of a running restart and its condition. -/
def Pass.upgrading (p : Pass) (up : UpgradeStatus) : Pass :=
  (p.withUpgrade up).cond .upgrading .isTrue up.phase.text up.message

/-- `fail`: end the restart. -/
def failUpgrade (p : Pass) (up : UpgradeStatus) (msg : String) : Op UpgradeResult :=
  (ask .now).bind fun now =>
    let p := (p.withUpgrade
      { up with phase := .failed, message := msg, finishedAt := some now }).cond
        .upgrading .isFalse "Failed" msg
    (event p.sys true "UpgradeFailed" msg).bind fun _ =>
      (consumeApprovals p.sys).bind fun sys => .ret ⟨false, requeueSlow, { p with sys }⟩

def staleImages (want : String) (pods : List ServerPod) : List String :=
  (pods.map podImage).filter fun img => img ≠ "" ∧ img ≠ want

/-- A restart that is under way, or the end of the step. -/
inductive Begun where
  | idle (result : UpgradeResult)
  | underWay (up : UpgradeStatus) (pass : Pass)

/-- Nothing to restart: the pods run the wanted image. -/
def upToDate (p : Pass) (pods : List ServerPod) : Op Begun :=
  let st := p.status
  let st :=
    if st.upgrade.any (fun up => up.phase = .pending) then { st with upgrade := none } else st
  let st := if pods.isEmpty then st else { st with observedVersion := p.sys.spec.version }
  let st :=
    if (findCond st .upgrading).all (fun c => c.reason = "Pending") then
      setCond st .upgrading .isFalse "UpToDate" "server pods run spec.images.server"
    else st
  -- an approval with nothing stale must not latch
  if !pods.isEmpty && p.sys.spec.upgrade.approved then
    (resetApproval p.sys).bind fun sys =>
      (event sys false "UpgradeApprovalDropped"
        "spec.upgrade.approved reset: server pods already run spec.images.server").bind fun _ =>
        .ret (.idle ⟨false, 0, ⟨sys, st⟩⟩)
  else .ret (.idle ⟨false, 0, { p with status := st }⟩)

def awaitApproval (p : Pass) (stale : List String) : Begun :=
  let want := p.sys.spec.images.server
  let first := stale.headD ""
  let up : UpgradeStatus := match p.status.upgrade with
    | some up =>
        if up.phase = .pending then up
        else { trigger := .imageChange, phase := .pending, fromImage := first, toImage := want }
    | none => { trigger := .imageChange, phase := .pending, fromImage := first, toImage := want }
  let msg := toString stale.length ++ " server pod(s) run " ++ first ++ ", spec wants " ++ want ++
    "; full-stop upgrade waits for spec.upgrade.approved=true (drain clients first: the " ++
    "operator cannot see client handles)"
  .idle ⟨false, 0,
    (p.withUpgrade { up with message := msg }).cond .upgrading .isFalse "Pending" msg⟩

/-- Decide whether a restart begins. -/
def beginUpgrade (p : Pass) (pods : List ServerPod) : Op Begun :=
  let want := p.sys.spec.images.server
  let stale := staleImages want pods
  if certsRenewApproved p.sys then
    (ask .now).bind fun now =>
      let up : UpgradeStatus :=
        { trigger := .certificateRotation, phase := .stopping, fromImage := want, toImage := want
          startedAt := some now
          message := "certificate rotation approved; stopping the system (dmg system stop)" }
      (event p.sys false "CertificateRotationStarted"
        "full-stop restart to replace the transport certificates").bind fun _ =>
        .ret (.underWay up (p.upgrading up))
  else if stale.isEmpty then upToDate p pods
  else if !p.sys.spec.upgrade.approved then .ret (awaitApproval p stale)
  else
    (ask .now).bind fun now =>
      let up : UpgradeStatus :=
        { trigger := .imageChange, phase := .stopping, fromImage := stale.headD "", toImage := want
          startedAt := some now
          message := "approved; stopping the system (dmg system stop)" }
      (event p.sys false "UpgradeStarted"
        ("full-stop upgrade " ++ stale.headD "" ++ " -> " ++ want)).bind fun _ =>
        .ret (.underWay up (p.upgrading up))

/-- A phase that runs one command and moves on when it answered. -/
def commandPhase (ns : String) (kind : JobKind) (verb : String) (next : UpgradePhase)
    (msg : String) (up : UpgradeStatus) (p : Pass) : Op UpgradeResult :=
  (runDmg p.sys ns kind ["system", verb]).bind fun res =>
    if !res.done then .ret ⟨true, requeueProbe, p⟩
    else
      match parseResult res with
      | .error e => failUpgrade p up ("dmg system " ++ verb ++ ": " ++ e)
      | .ok env =>
          match env.error with
          | some e => failUpgrade p up ("dmg system " ++ verb ++ ": " ++ e)
          | none => .ret ⟨true, 1, p.upgrading { up with phase := next, message := msg }⟩

/-- Delete one server pod unless it is terminating or keeps running as it is. -/
def replacePod (trigger : UpgradeTrigger) (want : String) (deleted : Nat) (pod : ServerPod) :
    Op Nat :=
  if pod.terminating then .ret deleted
  else if trigger = .certificateRotation ∨ podImage pod ≠ want then
    (ask (.deletePod pod.key)).bind fun _ => .ret (deleted + 1)
  else .ret deleted

/-- Delete the server pods, so that they come back from the current template. -/
def replacePods (rendered : Nat) (pods : List ServerPod) (up : UpgradeStatus) (p : Pass) :
    Op UpgradeResult :=
  let want := p.sys.spec.images.server
  (Prog.foldList (replacePod up.trigger want) pods 0).bind fun deleted =>
    let up := { up with
      phase := .starting
      message := toString deleted ++ " pod(s) deleted; waiting for " ++ toString rendered ++
        " server pod(s) with " ++ want ++ " to become Ready" }
    (event p.sys false "UpgradePodsReplaced" up.message).bind fun _ =>
      .ret ⟨true, requeueUpgrade, p.upgrading up⟩

/-- Phase `Updating`. -/
def updatingPhase (ns : String) (rendered : Nat) (pods : List ServerPod) (up : UpgradeStatus)
    (p : Pass) : Op UpgradeResult :=
  if up.trigger = .certificateRotation then
    -- the engines are down: swap the certificates, then restart every pod
    (rotateCerts ns p).attempt.bind fun
      | .error e => failUpgrade p up ("certificate rotation: " ++ e)
      | .ok p => replacePods rendered pods up p
  else replacePods rendered pods up p

/-- Phase `Starting`. -/
def startingPhase (rendered : Nat) (pods : List ServerPod) (up : UpgradeStatus) (p : Pass) :
    UpgradeResult :=
  let want := p.sys.spec.images.server
  let ready := (pods.filter fun pod => podImage pod = want ∧ podReady pod ∧ !pod.terminating).length
  if ready < rendered then
    ⟨true, requeueUpgrade, p.upgrading { up with
      message :=
        toString ready ++ "/" ++ toString rendered ++ " server pod(s) Ready with " ++ want }⟩
  else
    ⟨true, 1, p.upgrading { up with
      phase := .startingSystem, message := "all server pods Ready; dmg system start" }⟩

/-- End a restart whose ranks all joined. -/
def completeUpgrade (members : Nat) (up : UpgradeStatus) (p : Pass) : Op UpgradeResult :=
  (ask .now).bind fun now =>
    let rotated := up.trigger = .certificateRotation
    let msg :=
      if rotated then
        toString members ++ " ranks joined with the new certificates; restart DAOS clients (CSI " ++
          "node DaemonSet, agent sidecars) to pick up the new CA"
      else toString members ++ " ranks joined on " ++ p.sys.spec.images.server
    let p := p.withUpgrade { up with phase := .completed, finishedAt := some now, message := msg }
    let p := if rotated then p
      else { p with status := { p.status with observedVersion := p.sys.spec.version } }
    let p := p.cond .upgrading .isFalse "Completed" msg
    (event p.sys false
      (if rotated then "CertificateRotationCompleted" else "UpgradeCompleted") msg).bind fun _ =>
      (ask (.clearHold p.sys.name)).bind fun _ =>
        (consumeApprovals p.sys).bind fun sys => .ret ⟨false, 1, { p with sys }⟩

/-- Phase `Verifying`. -/
def verifyingPhase (ns : String) (up : UpgradeStatus) (p : Pass) : Op UpgradeResult :=
  (runDmg p.sys ns .verify ["system", "query", "-v"]).bind fun res =>
    if !res.done then .ret ⟨true, requeueProbe, p⟩
    else
      match parseResult res with
      | .error e =>
          .ret ⟨true, requeueUpgrade,
            p.withUpgrade { up with message := "dmg system query: " ++ e ++ "; retrying" }⟩
      | .ok env =>
          match env.error with
          | some e =>
              .ret ⟨true, requeueUpgrade,
                p.upgrading { up with message := "dmg system query: " ++ e ++ "; retrying" }⟩
          | none =>
              match Dmg.systemQuery env with
              | .error e => failUpgrade p up e
              | .ok members =>
                  let notJoined := (members.filter fun m => m.state ≠ memberJoined).map fun m =>
                    "rank " ++ toString m.rank ++ " " ++ m.state
                  if members.isEmpty || !notJoined.isEmpty then
                    .ret ⟨true, requeueUpgrade, p.upgrading { up with
                      message := toString (members.length - notJoined.length) ++ "/" ++
                        toString members.length ++ " ranks joined; " ++ Text.join notJoined ", " }⟩
                  else completeUpgrade members.length up p

/-- One step of a restart that is under way. -/
def upgradeStep (ns : String) (rendered : Nat) (pods : List ServerPod) (up : UpgradeStatus)
    (p : Pass) : Op UpgradeResult :=
  match up.phase with
  | .stopping =>
      commandPhase ns .stop "stop" .updating "system stopped; replacing server pods" up p
  | .updating => updatingPhase ns rendered pods up p
  | .starting => .ret (startingPhase rendered pods up p)
  | .startingSystem =>
      commandPhase ns .start "start" .verifying "system started; waiting for all ranks to join" up p
  | .verifying => verifyingPhase ns up p
  | .pending | .completed | .failed => .ret ⟨false, 0, p⟩

/-- A restart that is under way, bounded in time. -/
def continueUpgrade (ns : String) (rendered : Nat) (pods : List ServerPod) (up : UpgradeStatus)
    (p : Pass) : Op UpgradeResult :=
  (ask .now).bind fun now =>
    let timeout := upgradeTimeout p.sys
    if up.startedAt.any fun t => timeout < now - t then
      failUpgrade p up ("upgrade timed out in phase " ++ up.phase.text ++ " after " ++
        Text.showDuration timeout)
    else upgradeStep ns rendered pods up p

def reconcileUpgrade (ns : String) (rendered : Nat) (p : Pass) : Op UpgradeResult :=
  if !serverEnabled p.sys || rendered = 0 then .ret ⟨false, 0, p⟩
  else
    (serverPods p.sys ns).bind fun pods =>
      match p.status.upgrade, upgradeInProgress p.status with
      | some up, true => continueUpgrade ns rendered pods up p
      | _, _ =>
          (beginUpgrade p pods).bind fun
            | .idle r => .ret r
            | .underWay up p => continueUpgrade ns rendered pods up p

end DaosOperator.System
