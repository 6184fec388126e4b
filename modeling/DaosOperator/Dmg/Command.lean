import DaosOperator.Api
import DaosOperator.Text

/-!
# The Jobs that run `dmg` and `daos`

A `RunSpec` describes one invocation.  The command of the Job's container is kept
by what it runs and with which words; `Command.words` is the command line the Job
is created with.
-/

namespace DaosOperator.Dmg

/-! ## Shell text -/

/-- `ShellQuote`. -/
def shellQuote (s : String) : String := "'" ++ Text.replaceChar '\'' "'\\''" s ++ "'"

/-- Words behind a command, each quoted. -/
def quoted (ws : List String) : String :=
  String.join (ws.map fun w => " " ++ shellQuote w)

def dmgLine (args : List String) : String := "dmg -j" ++ quoted args

def timeoutEnvelope (seconds : Nat) : String :=
  "\x7b\"response\":null,\"error\":\"dmg: no answer within " ++ toString seconds ++
    " s\",\"status\":-1\x7d"

def aclFilePath : String := "/tmp/daos-acl"

def controlConfigPath : String := "/etc/daos/daos_control.yml"

/-- `WithACLFile`. -/
def withACLFile (entries : List String) (path : String) (command : List String) : List String :=
  if entries.isEmpty then command
  else ["bash", "-c", "printf '%s\\n'" ++ quoted entries ++ " > " ++ shellQuote path ++
    " && exec" ++ quoted command]

def waitForAgent : String :=
  "for i in $(seq 1 60); do [ -S /var/run/daos_agent/daos_agent.sock ] && break; sleep 1; done; "

def clientCommand (sysName : String) (acl args : List String) : List String :=
  let writeAcl :=
    if acl.isEmpty then ""
    else "printf '%s\\n'" ++ quoted acl ++ " > " ++ shellQuote aclFilePath ++ " && "
  let group := if sysName = "" then "" else " -G " ++ shellQuote sysName
  ["bash", "-c", waitForAgent ++ writeAcl ++ "exec daos -j" ++ group ++ quoted args]

/-! ## Commands -/

/-- What the container of a Job runs. -/
inductive Command where
  /-- `RunSpec.Args` with `Then`, `FirstTimeoutSeconds` and `Fallback`. -/
  | dmg (args : List String) (andThen : List String := []) (firstTimeout : Nat := 0)
      (fallback : List String := [])
  /-- `dmg` with an ACL file that is written first. -/
  | dmgWithACL (acl : List String) (args : List String)
  /-- The `daos` client next to an agent sidecar. -/
  | daos (sysName : String) (acl : List String) (args : List String)
  deriving DecidableEq

/-- The words given to the tool. -/
def Command.args : Command → List String
  | dmg args _ _ _ => args
  | dmgWithACL _ args => args
  | daos _ _ args => args

/-- The container's command, as `JobRunner.create` builds it. -/
def Command.words : Command → List String
  | dmg args andThen firstTimeout fallback =>
      if andThen.isEmpty then ["dmg", "-j"] ++ args
      else
        let first :=
          if firstTimeout = 0 then dmgLine args
          else
            let onTimeout := "echo " ++ shellQuote (timeoutEnvelope firstTimeout) ++
              (if fallback.isEmpty then "" else "; " ++ dmgLine fallback)
            "timeout " ++ toString firstTimeout ++ " " ++ dmgLine args ++
              "; if [ $? -eq 124 ]; then " ++ onTimeout ++ "; fi"
        ["sh", "-c", first ++ "; " ++ dmgLine andThen]
  | dmgWithACL acl args =>
      withACLFile acl aclFilePath (["dmg", "-o", controlConfigPath, "-j"] ++ args)
  | daos sysName acl args => clientCommand sysName acl args

/-- The object that owns a Job. -/
inductive Owner where
  | system (name : String)
  | pool (name : String)
  deriving DecidableEq

structure RunSpec where
  owner : Owner
  /-- Namespace and name of the Job. -/
  key : ObjectKey
  image : String
  controlConfigMap : String
  command : Command
  nodeSelector : List (String × String)
  labels : List (String × String)
  /-- The Job's deadline; 0 stands for the default. -/
  deadlineSeconds : Nat := 0
  certsSecret : String
  deriving DecidableEq

/-- The deadline `JobRunner.create` sets. -/
def RunSpec.deadline (s : RunSpec) : Nat :=
  if s.deadlineSeconds = 0 then 600 else s.deadlineSeconds

end DaosOperator.Dmg
