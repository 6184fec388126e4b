import DaosOperator.Plugin.Flags

/-!
# The command line of the plugin

`splitArgs` takes the global flags out of a command line; what is left is the command, its
positionals and its own flags.  Those are read in a second stage, which takes the first two
arguments as the command and stops at the first argument that is no flag.
-/

namespace DaosOperator.Plugin

open Flags

/-! ## `splitArgs` -/

/-- `strings.TrimLeft(s, "-")`. -/
def trimDashes (s : String) : String := String.ofList (s.toList.dropWhile (· = '-'))

def subcommandFlag (name : String) : Bool :=
  name ∈ ["ranks", "image", "version", "wait", "discard-data"]

/-- The flags that `needsValue` knows. -/
def valueFlag (name : String) : Bool :=
  name ∈ ["n", "namespace", "kubeconfig", "context", "image", "version", "ranks", "wait"]

def needsValue (f : String) : Bool := valueFlag (trimDashes f)

/-- The argument before this one is a flag that waits for its value. -/
def expectsValue (prev : Option String) : Bool :=
  prev.any fun p => Text.hasPrefix p "-" && '=' ∉ p.toList && needsValue p

/-- The loop of `splitArgs`, with the argument before and where its value goes. -/
def splitArgsFrom : Option String → Bool → List String → List String × List String
  | _, _, [] => ([], [])
  | prev, toArgs, arg :: rest =>
      if Text.hasPrefix arg "-" then
        let (name, hasValue) := match Text.cut (trimDashes arg) '=' with
          | some (name, _) => (name, true)
          | none => (trimDashes arg, false)
        let (global, args) := splitArgsFrom (some arg) (subcommandFlag name && !hasValue) rest
        if subcommandFlag name then (global, arg :: args) else (arg :: global, args)
      else
        let (global, args) := splitArgsFrom (some arg) toArgs rest
        if expectsValue prev && !toArgs then (arg :: global, args) else (global, arg :: args)

/-- `splitArgs`: the global flags, and everything else. -/
def splitArgs (line : List String) : List String × List String := splitArgsFrom none false line

/-! ## Flag sets -/

/-- `strconv.ParseBool`. -/
def parseBool (s : String) : Option Bool :=
  if s ∈ ["1", "t", "T", "TRUE", "true", "True"] then some true
  else if s ∈ ["0", "f", "F", "FALSE", "false", "False"] then some false
  else none

/-- What the global flags write. -/
structure Globals where
  yes : Bool := false
  ns : String := "default"
  kubeconfig : String := ""
  context : String := ""
  deriving DecidableEq

def stringFlag {σ : Type} (set : String → σ → σ) : FlagDef σ := ⟨false, fun v s => some (set v s)⟩

def boolFlag {σ : Type} (set : Bool → σ → σ) : FlagDef σ :=
  ⟨true, fun v s => (parseBool v).map fun b => set b s⟩

/-- The flag set of `main`. -/
def globalFlags : FlagSet Globals := fun name =>
  if name = "yes" then some (boolFlag fun b g => { g with yes := b })
  else if name = "n" ∨ name = "namespace" then some (stringFlag fun v g => { g with ns := v })
  else if name = "kubeconfig" then some (stringFlag fun v g => { g with kubeconfig := v })
  else if name = "context" then some (stringFlag fun v g => { g with context := v })
  else none

abbrev Nanoseconds := Int

/-- What the flags of a subcommand write. -/
structure SubFlags where
  image : String := ""
  version : String := ""
  ranks : String := ""
  wait : Nanoseconds := 300000000000
  discard : Bool := false
  deriving DecidableEq

/-- The flag set of `systemUpgrade`. -/
def upgradeFlags : FlagSet SubFlags := fun name =>
  if name = "image" then some (stringFlag fun v s => { s with image := v })
  else if name = "version" then some (stringFlag fun v s => { s with version := v })
  else none

/-- The flag set of `rankOp`; `parseDuration` is `time.ParseDuration`. -/
def rankFlags (parseDuration : String → Option Nanoseconds) : FlagSet SubFlags := fun name =>
  if name = "ranks" then some (stringFlag fun v s => { s with ranks := v })
  else if name = "wait" then
    some ⟨false, fun v s => (parseDuration v).map fun d => { s with wait := d }⟩
  else if name = "discard-data" then some (boolFlag fun b s => { s with discard := b })
  else none

/-! ## Commands -/

/-- What comes of a command line before anything is asked of the cluster. -/
inductive Outcome where
  | badGlobals (e : FlagError)
  | usage
  | unknownCommand (cmd : String)
  | badFlags (e : FlagError)
  | missingName
  | request (cmd name : String) (globals : Globals) (flags : SubFlags)
  /-- A command without flags of its own. -/
  | other (cmd : String) (globals : Globals) (rest : List String)
  deriving DecidableEq

/-- The loop over the arguments of a subcommand: positionals up to the first flag, then the flag
set, and what the flag set leaves. -/
def positionals (fs : FlagSet SubFlags) : List String → Except FlagError (SubFlags × List String)
  | [] => .ok ({}, [])
  | arg :: rest =>
      if Text.hasPrefix arg "-" then parse fs {} (arg :: rest)
      else (positionals fs rest).map fun r => (r.1, arg :: r.2)

/-- The start of `systemUpgrade` and `rankOp`. -/
def subcommand (fs : FlagSet SubFlags) (cmd : String) (globals : Globals) (rest : List String) :
    Outcome :=
  match positionals fs rest with
  | .error e => .badFlags e
  | .ok (_, []) => .missingName
  | .ok (flags, name :: _) => .request cmd name globals flags

def rankCommands : List String :=
  ["rank drain", "rank exclude", "rank reintegrate", "rank clear-exclude"]

def otherCommands : List String :=
  ["system status", "system format", "system certs", "pool destroy", "cont destroy",
    "container destroy"]

section Main

variable (parseDuration : String → Option Nanoseconds)

def run (globals : Globals) : List String → Outcome
  | a :: b :: rest =>
      let cmd := a ++ " " ++ b
      if cmd = "system upgrade" then subcommand upgradeFlags cmd globals rest
      else if cmd ∈ rankCommands then subcommand (rankFlags parseDuration) cmd globals rest
      else if cmd ∈ otherCommands then .other cmd globals rest
      else .unknownCommand cmd
  | _ => .usage

/-- `main` up to the first call to the cluster; `env` is `$KUBECONFIG`. -/
def main (env : String) (line : List String) : Outcome :=
  let (global, args) := splitArgs line
  match parse globalFlags { kubeconfig := env } global with
  | .error e => .badGlobals e
  | .ok (globals, _) => run parseDuration globals args

end Main

end DaosOperator.Plugin
