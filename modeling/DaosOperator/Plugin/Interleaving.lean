import DaosOperator.Plugin.CommandLine

/-!
# Flags anywhere on the command line

A command line is its two command words and the system's name, with flags before, between and
behind them.  The global flags may stand anywhere.  The flags of the subcommand have to follow
the command, and those behind the system's name are lost when others stand before it.
-/

namespace DaosOperator.Plugin

open Flags

/-! ## Command lines -/

/-- The commands that have flags of their own. -/
inductive Command where
  | upgrade
  | drain
  | exclude
  | reintegrate
  | clearExclude
  deriving DecidableEq

namespace Command

def first : Command → String
  | upgrade => "system"
  | _ => "rank"

def second : Command → String
  | upgrade => "upgrade"
  | drain => "drain"
  | exclude => "exclude"
  | reintegrate => "reintegrate"
  | clearExclude => "clear-exclude"

def flagSet (parseDuration : String → Option Nanoseconds) : Command → FlagSet SubFlags
  | upgrade => upgradeFlags
  | _ => rankFlags parseDuration

end Command

/-- A command line, by the flags in each place. -/
structure Line where
  command : Command
  name : String
  /-- Before the command. -/
  front : List Flag := []
  /-- Between the command words. -/
  middle : List Flag := []
  /-- Between the command and the name. -/
  before : List Flag := []
  /-- Behind the name. -/
  behind : List Flag := []

def subs (flags : List Flag) : List Flag := flags.filter fun f => subcommandFlag f.name

def globals (flags : List Flag) : List Flag := flags.filter fun f => !subcommandFlag f.name

namespace Line

/-- All flags in their order. -/
def flags (l : Line) : List Flag := l.front ++ l.middle ++ l.before ++ l.behind

def words (l : Line) : List String :=
  wordsOf l.front ++ l.command.first :: (wordsOf l.middle ++ l.command.second ::
    (wordsOf l.before ++ l.name :: wordsOf l.behind))

def atEnd (l : Line) : Line := { command := l.command, name := l.name, behind := l.flags }

end Line

section Lines

variable (parseDuration : String → Option Nanoseconds) (env : String)

/-- The name is no flag, and each flag is one of the plugin or of the command. -/
structure Line.Valid (l : Line) : Prop where
  name : IsPlain l.name
  flags : ∀ f ∈ l.flags,
    if subcommandFlag f.name then WellWritten (l.command.flagSet parseDuration) f
    else WellWritten globalFlags f

/-- What the flags of the subcommand write. -/
def Line.values (l : Line) (flags : List Flag) : Except FlagError SubFlags :=
  assignAll (l.command.flagSet parseDuration) (subs flags) {}

/-- The flags of the subcommand follow the command, and those before the name alone write what
all of them write. -/
def Line.InPlace (l : Line) : Prop :=
  subs l.front = [] ∧ subs l.middle = [] ∧
    (subs l.before = [] ∨ l.values parseDuration l.before = l.values parseDuration l.flags)

/-- The global flags are refused, whatever else is on the line. -/
def Line.GlobalsRefused (l : Line) : Prop :=
  ∃ e, assignAll globalFlags (globals l.flags) { kubeconfig := env } = .error e

end Lines

/-! ## `splitArgs` -/

theorem hasPrefix_dash (s : String) :
    Text.hasPrefix s "-" = true ↔ s.toList.head? = some '-' := by
  unfold Text.hasPrefix
  rw [show "-".toList = ['-'] from rfl]
  cases s.toList with
  | nil => simp
  | cons c rest =>
      simp only [List.isPrefixOf, Bool.and_true, beq_iff_eq, List.head?_cons, Option.some.injEq]
      exact eq_comm

theorem hasPrefix_of_isPlain {s : String} (h : IsPlain s) : Text.hasPrefix s "-" = false := by
  rw [Bool.eq_false_iff, Ne, hasPrefix_dash]
  exact h

theorem splitArgsFrom_settled {prev : Option String} (h : expectsValue prev = false)
    (toArgs : Bool) (line : List String) : splitArgsFrom prev toArgs line = splitArgs line := by
  induction line generalizing prev toArgs with
  | nil => rfl
  | cons arg rest ih =>
      unfold splitArgs splitArgsFrom
      by_cases hdash : Text.hasPrefix arg "-" = true
      · simp only [hdash, if_true]
      · have hsettled : expectsValue (some arg) = false := by simp [expectsValue, hdash]
        simp only [hdash, Bool.false_eq_true, if_false, h, ih hsettled]
        simp [expectsValue]

theorem splitArgs_plain {arg : String} (h : IsPlain arg) (rest : List String) :
    splitArgs (arg :: rest) = ((splitArgs rest).1, arg :: (splitArgs rest).2) := by
  have hdash := hasPrefix_of_isPlain h
  have hsettled : expectsValue (some arg) = false := by simp [expectsValue, hdash]
  rw [splitArgs, splitArgsFrom]
  simp only [hdash, Bool.false_eq_true, if_false, splitArgsFrom_settled hsettled]
  simp [expectsValue]

/-- A flag is written as `splitArgs` expects it. -/
structure Regular (f : Flag) : Prop where
  name : IsName f.name
  form : match f.form with
    | .joined _ => True
    | .separate v => valueFlag f.name = true ∧ IsPlain v
    | .bare => valueFlag f.name = false

theorem valueFlag_of_globalFlags {name : String} {d : FlagDef Globals}
    (h : globalFlags name = some d) : valueFlag name = !d.isBool := by
  unfold globalFlags at h
  split_ifs at h with h1 h2 h3 h4 <;> cases h <;> simp_all [valueFlag, boolFlag, stringFlag]
  rcases h2 with h2 | h2 <;> simp [h2]

theorem valueFlag_of_flagSet {parseDuration : String → Option Nanoseconds} {c : Command}
    {name : String} {d : FlagDef SubFlags} (h : c.flagSet parseDuration name = some d) :
    valueFlag name = !d.isBool := by
  have hupgrade (h : upgradeFlags name = some d) : valueFlag name = !d.isBool := by
    unfold upgradeFlags at h
    split_ifs at h with h1 h2 <;> cases h <;> simp_all [valueFlag, stringFlag]
  have hrank (h : rankFlags parseDuration name = some d) : valueFlag name = !d.isBool := by
    unfold rankFlags at h
    split_ifs at h with h1 h2 h3 <;> cases h <;> simp_all [valueFlag, stringFlag, boolFlag]
  cases c with
  | upgrade => exact hupgrade h
  | drain => exact hrank h
  | exclude => exact hrank h
  | reintegrate => exact hrank h
  | clearExclude => exact hrank h

theorem regular_of_wellWritten {σ : Type} {fs : FlagSet σ} {f : Flag} (h : WellWritten fs f)
    (hkind : ∀ d, fs f.name = some d → valueFlag f.name = !d.isBool) : Regular f := by
  obtain ⟨d, hd, hform⟩ := h.defined
  refine ⟨h.name, ?_⟩
  have hvalue := hkind d hd
  cases hf : f.form with
  | joined v => trivial
  | separate v =>
      rw [hf] at hform
      exact ⟨by rw [hvalue, hform.1]; rfl, hform.2⟩
  | bare =>
      rw [hf] at hform
      have hbool : d.isBool = true := hform
      rw [hvalue, hbool]
      rfl

theorem dropWhile_head {f : Flag} (h : IsName f.name) (rest : List Char) :
    (f.head.toList ++ rest).dropWhile (· = '-') = f.name.toList ++ rest := by
  obtain ⟨c, tail, hname, hdash, _⟩ := h.cons
  rw [toList_head, hname]
  cases f.twoDashes <;> simp [hdash]

theorem trimDashes_head {f : Flag} (h : IsName f.name) : trimDashes f.head = f.name := by
  have hdrop := dropWhile_head h []
  rw [List.append_nil, List.append_nil] at hdrop
  rw [trimDashes, hdrop, String.ofList_toList]

theorem trimDashes_joined {f : Flag} (h : IsName f.name) (value : String) :
    trimDashes (f.head ++ "=" ++ value) = f.name ++ "=" ++ value := by
  have hdrop := dropWhile_head h ('=' :: value.toList)
  have hlist : (f.head ++ "=" ++ value).toList = f.head.toList ++ '=' :: value.toList := by simp
  rw [trimDashes, hlist, hdrop, ← String.toList_inj, String.toList_ofList]
  simp

theorem hasPrefix_head (f : Flag) (s : String) : Text.hasPrefix (f.head ++ s) "-" = true := by
  rw [hasPrefix_dash, String.toList_append, toList_head]
  cases f.twoDashes <;> rfl

/-- A flag waits for the next argument exactly if `needsValue` knows it. -/
theorem expectsValue_head {f : Flag} (h : IsName f.name) :
    expectsValue (some f.head) = valueFlag f.name := by
  have hdash : Text.hasPrefix f.head "-" = true := by
    have hdash := hasPrefix_head f ""
    rwa [String.append_empty] at hdash
  have hequals : '=' ∉ f.head.toList := by
    rw [toList_head, List.mem_append, not_or]
    refine ⟨?_, h.noEquals⟩
    cases f.twoDashes <;> decide
  simp [expectsValue, hdash, hequals, needsValue, trimDashes_head h]

theorem splitArgsFrom_head {f : Flag} (h : IsName f.name) (prev : Option String) (toArgs : Bool)
    (rest : List String) :
    splitArgsFrom prev toArgs (f.head :: rest) =
      let r := splitArgsFrom (some f.head) (subcommandFlag f.name) rest
      if subcommandFlag f.name then (r.1, f.head :: r.2) else (f.head :: r.1, r.2) := by
  have hdash : Text.hasPrefix f.head "-" = true := by
    have hdash := hasPrefix_head f ""
    rwa [String.append_empty] at hdash
  have hcut : Text.cut f.name '=' = none := by
    rw [Text.cut, Text.cutChars_eq_none h.noEquals]
    rfl
  rw [splitArgsFrom]
  simp only [hdash, if_true, trimDashes_head h, hcut, Bool.not_false, Bool.and_true]

theorem splitArgs_words {f : Flag} (h : Regular f) (rest : List String) :
    splitArgs (f.words ++ rest) =
      if subcommandFlag f.name then ((splitArgs rest).1, f.words ++ (splitArgs rest).2)
      else (f.words ++ (splitArgs rest).1, (splitArgs rest).2) := by
  have hform := h.form
  unfold Flag.words
  cases hf : f.form with
  | joined value =>
      have hdash : Text.hasPrefix (f.head ++ "=" ++ value) "-" = true := by
        rw [String.append_assoc]
        exact hasPrefix_head f _
      have hcut : Text.cut (f.name ++ "=" ++ value) '=' = some (f.name, value) :=
        Text.cut_append rfl h.name.noEquals
      have hsettled : expectsValue (some (f.head ++ "=" ++ value)) = false := by
        simp [expectsValue]
      rw [splitArgs, List.singleton_append, splitArgsFrom]
      simp only [hdash, if_true, trimDashes_joined h.name, hcut, splitArgsFrom_settled hsettled]
      rfl
  | separate value =>
      rw [hf] at hform
      obtain ⟨hvalue, hplain⟩ := hform
      have hexpects : expectsValue (some f.head) = true := by rw [expectsValue_head h.name, hvalue]
      have hsettled : expectsValue (some value) = false := by
        simp [expectsValue, hasPrefix_of_isPlain hplain]
      have hnext (toArgs : Bool) : splitArgsFrom (some f.head) toArgs (value :: rest) =
          if toArgs then ((splitArgs rest).1, value :: (splitArgs rest).2)
          else (value :: (splitArgs rest).1, (splitArgs rest).2) := by
        rw [splitArgsFrom]
        simp only [hasPrefix_of_isPlain hplain, Bool.false_eq_true, if_false,
          splitArgsFrom_settled hsettled, hexpects, Bool.true_and]
        cases toArgs <;> rfl
      rw [splitArgs]
      change splitArgsFrom none false (f.head :: (value :: rest)) = _
      rw [splitArgsFrom_head h.name, hnext]
      cases subcommandFlag f.name <;> rfl
  | bare =>
      rw [hf] at hform
      have hsettled : expectsValue (some f.head) = false := by
        rw [expectsValue_head h.name]
        exact hform
      rw [splitArgs, List.singleton_append, splitArgsFrom_head h.name]
      simp only [splitArgsFrom_settled hsettled]
      rfl

theorem splitArgs_wordsOf {flags : List Flag} (h : ∀ f ∈ flags, Regular f) (rest : List String) :
    splitArgs (wordsOf flags ++ rest) =
      (wordsOf (globals flags) ++ (splitArgs rest).1,
        wordsOf (subs flags) ++ (splitArgs rest).2) := by
  induction flags with
  | nil => rfl
  | cons f flags ih =>
      have hflags : ∀ g ∈ flags, Regular g := fun g hg => h g (List.mem_cons_of_mem f hg)
      have hwords : wordsOf (f :: flags) ++ rest = f.words ++ (wordsOf flags ++ rest) := by
        simp [wordsOf]
      rw [hwords, splitArgs_words (h f List.mem_cons_self), ih hflags]
      by_cases hsub : subcommandFlag f.name = true
      · simp [globals, subs, hsub, wordsOf]
      · simp [globals, subs, hsub, wordsOf]

/-! ## The command -/

/-- Everything but the global flags, in its order. -/
def Line.args (l : Line) : List String :=
  wordsOf (subs l.front) ++ l.command.first :: (wordsOf (subs l.middle) ++ l.command.second ::
    (wordsOf (subs l.before) ++ l.name :: wordsOf (subs l.behind)))

theorem isPlain_first (c : Command) : IsPlain c.first := by
  cases c <;> decide +kernel

theorem isPlain_second (c : Command) : IsPlain c.second := by
  cases c <;> decide +kernel

section Reading

variable {parseDuration : String → Option Nanoseconds} {l : Line}

theorem Line.Valid.regular (h : l.Valid parseDuration) {f : Flag} (hf : f ∈ l.flags) :
    Regular f := by
  have hwritten := h.flags f hf
  split at hwritten
  · exact regular_of_wellWritten hwritten fun d hd => valueFlag_of_flagSet hd
  · exact regular_of_wellWritten hwritten fun d hd => valueFlag_of_globalFlags hd

theorem Line.Valid.subs (h : l.Valid parseDuration) {f : Flag} (hf : f ∈ subs l.flags) :
    WellWritten (l.command.flagSet parseDuration) f := by
  obtain ⟨hmem, hsub⟩ := List.mem_filter.1 hf
  have hwritten := h.flags f hmem
  rwa [if_pos hsub] at hwritten

theorem Line.Valid.globals (h : l.Valid parseDuration) {f : Flag} (hf : f ∈ globals l.flags) :
    WellWritten globalFlags f := by
  obtain ⟨hmem, hglobal⟩ := List.mem_filter.1 hf
  have hwritten := h.flags f hmem
  rwa [if_neg (by simpa using hglobal)] at hwritten

theorem Line.Valid.atEnd (h : l.Valid parseDuration) : l.atEnd.Valid parseDuration where
  name := h.name
  flags := h.flags

theorem splitArgs_line (h : l.Valid parseDuration) :
    splitArgs l.words = (wordsOf (globals l.flags), l.args) := by
  have hflags {f : Flag} (hf : f ∈ l.front ∨ f ∈ l.middle ∨ f ∈ l.before ∨ f ∈ l.behind) :
      Regular f := h.regular (by simpa [Line.flags] using hf)
  have hbehind := splitArgs_wordsOf (fun f (hf : f ∈ l.behind) => hflags (by simp [hf])) []
  rw [List.append_nil] at hbehind
  rw [Line.words, splitArgs_wordsOf fun f (hf : f ∈ l.front) => hflags (by simp [hf]),
    splitArgs_plain (isPlain_first _),
    splitArgs_wordsOf fun f (hf : f ∈ l.middle) => hflags (by simp [hf]),
    splitArgs_plain (isPlain_second _),
    splitArgs_wordsOf fun f (hf : f ∈ l.before) => hflags (by simp [hf]),
    splitArgs_plain h.name, hbehind]
  simp [Line.args, Line.flags, globals, wordsOf, splitArgs, splitArgsFrom]

/-- The global flags are read wherever they stand. -/
theorem main_words (env : String) (h : l.Valid parseDuration) :
    main parseDuration env l.words =
      match assignAll globalFlags (globals l.flags) { kubeconfig := env } with
      | .error e => .badGlobals e
      | .ok g => run parseDuration g l.args := by
  simp only [main, splitArgs_line h, parse_all fun f hf => h.globals hf]
  cases assignAll globalFlags (globals l.flags) { kubeconfig := env } <;> rfl

/-! ## Flags before the command -/

/-- No command starts with a dash, and none has one behind its blank. -/
theorem run_dash {a b : String}
    (h : Text.hasPrefix a "-" = true ∨ Text.hasPrefix b "-" = true) (g : Globals)
    (rest : List String) :
    run parseDuration g (a :: b :: rest) = .unknownCommand (a ++ " " ++ b) := by
  have hknown : ∀ cmd ∈ "system upgrade" :: (rankCommands ++ otherCommands),
      cmd.toList.head? ≠ some '-' ∧ ¬ [' ', '-'] <:+: cmd.toList := by decide +kernel
  have hcmd : a ++ " " ++ b ∉ "system upgrade" :: (rankCommands ++ otherCommands) := by
    intro hmem
    obtain ⟨hfront, hblank⟩ := hknown _ hmem
    rcases h with h | h
    · obtain ⟨tail, ha⟩ := List.head?_eq_some_iff.1 ((hasPrefix_dash a).1 h)
      exact hfront (by simp [ha])
    · obtain ⟨tail, hb⟩ := List.head?_eq_some_iff.1 ((hasPrefix_dash b).1 h)
      exact hblank ⟨a.toList, tail, by simp [hb]⟩
  simp only [List.mem_cons, List.mem_append, not_or] at hcmd
  simp only [run, hcmd.1, hcmd.2.1, hcmd.2.2, if_false]

theorem wordsOf_cons_dash (f : Flag) (flags : List Flag) :
    ∃ w ws, wordsOf (f :: flags) = w :: ws ∧ Text.hasPrefix w "-" = true := by
  have hhead := hasPrefix_head f ""
  rw [String.append_empty] at hhead
  unfold wordsOf Flag.words
  rw [List.flatMap_cons]
  cases f.form with
  | joined value => exact ⟨_, _, rfl, by rw [String.append_assoc]; exact hasPrefix_head f _⟩
  | separate value => exact ⟨_, _, rfl, hhead⟩
  | bare => exact ⟨_, _, rfl, hhead⟩

/-- A flag of the subcommand before or between the command words hides the command. -/
theorem run_hidden (h : subs l.front ≠ [] ∨ subs l.middle ≠ []) (g : Globals) :
    ∃ cmd, run parseDuration g l.args = .unknownCommand cmd := by
  unfold Line.args
  cases hfront : subs l.front with
  | cons f flags =>
      obtain ⟨w, ws, hwords, hdash⟩ := wordsOf_cons_dash f flags
      rw [hwords]
      cases ws with
      | nil => exact ⟨_, run_dash (.inl hdash) g _⟩
      | cons w' ws => exact ⟨_, run_dash (.inl hdash) g _⟩
  | nil =>
      cases hmiddle : subs l.middle with
      | cons f flags =>
          obtain ⟨w, ws, hwords, hdash⟩ := wordsOf_cons_dash f flags
          rw [hwords]
          exact ⟨_, run_dash (.inr hdash) g _⟩
      | nil => simp [hfront, hmiddle] at h

/-! ## Flags behind the command -/

/-- What the command does with the values of its flags. -/
def Line.outcome (l : Line) (g : Globals) : Except FlagError SubFlags → Outcome
  | .error e => .badFlags e
  | .ok flags => .request (l.command.first ++ " " ++ l.command.second) l.name g flags

theorem outcome_inj {g : Globals} {a b : Except FlagError SubFlags} :
    l.outcome g a = l.outcome g b ↔ a = b := by
  refine ⟨fun h => ?_, fun h => h ▸ rfl⟩
  cases a <;> cases b <;> simp_all [Line.outcome]

theorem outcome_ne_unknown (g : Globals) (a : Except FlagError SubFlags) (cmd : String) :
    l.outcome g a ≠ .unknownCommand cmd := by
  cases a <;> simp [Line.outcome]

/-- `positionals` on flags reads them as the flag set does. -/
theorem positionals_wordsOf {fs : FlagSet SubFlags} {f : Flag} {flags : List Flag}
    (h : ∀ f' ∈ f :: flags, WellWritten fs f') {rest : List String}
    (hrest : ∀ arg ∈ rest.head?, IsPlain arg) :
    positionals fs (wordsOf (f :: flags) ++ rest) =
      (assignAll fs (f :: flags) {}).map fun s => (s, rest) := by
  obtain ⟨w, ws, hwords, hdash⟩ := wordsOf_cons_dash f flags
  rw [← parse_wordsOf h hrest, hwords, List.cons_append, positionals, if_pos hdash]

/-- The flags that the command reads: those before the name, if there are any. -/
def Line.read (l : Line) : List Flag := if subs l.before = [] then l.behind else l.before

theorem subs_append (a b : List Flag) : subs (a ++ b) = subs a ++ subs b := List.filter_append ..

theorem Line.Valid.mem_subs (h : l.Valid parseDuration) {flags : List Flag}
    (hflags : flags ⊆ l.flags) {f : Flag} (hf : f ∈ Plugin.subs flags) :
    WellWritten (l.command.flagSet parseDuration) f := by
  obtain ⟨hmem, hsub⟩ := List.mem_filter.1 hf
  exact h.subs (List.mem_filter.2 ⟨hflags hmem, hsub⟩)

theorem subcommand_args (h : l.Valid parseDuration) (cmd : String) (g : Globals) :
    subcommand (l.command.flagSet parseDuration) cmd g
        (wordsOf (subs l.before) ++ l.name :: wordsOf (subs l.behind)) =
      match l.values parseDuration l.read with
      | .error e => .badFlags e
      | .ok flags => .request cmd l.name g flags := by
  have hbefore : l.before ⊆ l.flags := fun f hf => by simp [Line.flags, hf]
  have hbehind : l.behind ⊆ l.flags := fun f hf => by simp [Line.flags, hf]
  unfold subcommand Line.values Line.read
  cases hsubs : subs l.before with
  | cons f flags =>
      have hwritten : ∀ f' ∈ f :: flags, WellWritten (l.command.flagSet parseDuration) f' :=
        fun f' hf' => h.mem_subs hbefore (hsubs ▸ hf')
      rw [positionals_wordsOf hwritten (by simpa using h.name), if_neg (by simp), hsubs]
      cases assignAll (l.command.flagSet parseDuration) (f :: flags) {} <;> rfl
  | nil =>
      rw [if_pos rfl, show wordsOf ([] : List Flag) = [] from rfl, List.nil_append, positionals,
        hasPrefix_of_isPlain h.name, if_neg (by simp)]
      cases hsubs' : subs l.behind with
      | nil => rfl
      | cons f flags =>
          have hwritten : ∀ f' ∈ f :: flags, WellWritten (l.command.flagSet parseDuration) f' :=
            fun f' hf' => h.mem_subs hbehind (hsubs' ▸ hf')
          have hrest : ∀ arg ∈ ([] : List String).head?, IsPlain arg := by simp
          have hread := positionals_wordsOf hwritten hrest
          rw [List.append_nil] at hread
          rw [hread]
          cases assignAll (l.command.flagSet parseDuration) (f :: flags) {} <;> rfl

theorem run_command (c : Command) (g : Globals) (rest : List String) :
    run parseDuration g (c.first :: c.second :: rest) =
      subcommand (c.flagSet parseDuration) (c.first ++ " " ++ c.second) g rest := by
  cases c <;> simp [run, Command.first, Command.second, Command.flagSet, rankCommands]

theorem run_read (h : l.Valid parseDuration) (hfront : subs l.front = [])
    (hmiddle : subs l.middle = []) (g : Globals) :
    run parseDuration g l.args = l.outcome g (l.values parseDuration l.read) := by
  have hargs : l.args = l.command.first :: l.command.second ::
      (wordsOf (subs l.before) ++ l.name :: wordsOf (subs l.behind)) := by
    rw [Line.args, hfront, hmiddle]
    rfl
  rw [hargs, run_command, subcommand_args h]
  rfl

/-- With all flags at the end, all of them are read. -/
theorem run_atEnd (h : l.Valid parseDuration) (g : Globals) :
    run parseDuration g l.atEnd.args = l.outcome g (l.values parseDuration l.flags) :=
  run_read h.atEnd rfl rfl g

/-- Flags in place write what all flags write. -/
theorem inPlace_iff (hfront : subs l.front = []) (hmiddle : subs l.middle = []) :
    l.InPlace parseDuration ↔
      l.values parseDuration l.read = l.values parseDuration l.flags := by
  have hsubs : subs l.flags = subs l.before ++ subs l.behind := by
    simp [Line.flags, subs_append, hfront, hmiddle]
  unfold Line.InPlace Line.read
  by_cases hbefore : subs l.before = []
  · simp [hfront, hmiddle, hbefore, Line.values, hsubs]
  · simp [hfront, hmiddle, hbefore]

/-- A command line means the same with all its flags at the end exactly if the flags of the
subcommand follow the command and those before the name, if there are any, write what all of
them write; or if the global flags are refused in the first place. -/
theorem flags_anywhere_iff (env : String) (h : l.Valid parseDuration) :
    main parseDuration env l.words = main parseDuration env l.atEnd.words ↔
      l.GlobalsRefused env ∨ l.InPlace parseDuration := by
  have hflags : l.atEnd.flags = l.flags := rfl
  rw [main_words env h, main_words env h.atEnd, hflags, Line.GlobalsRefused]
  cases assignAll globalFlags (globals l.flags) { kubeconfig := env } with
  | error e => simp
  | ok g =>
      simp only [reduceCtorEq, exists_false, false_or]
      rw [run_atEnd h]
      by_cases hhidden : subs l.front ≠ [] ∨ subs l.middle ≠ []
      · obtain ⟨cmd, hcmd⟩ : ∃ cmd, run parseDuration g l.args = .unknownCommand cmd :=
          run_hidden hhidden g
        rw [hcmd]
        constructor
        · intro heq
          exact absurd heq.symm (outcome_ne_unknown g _ cmd)
        · rintro ⟨hfront, hmiddle, _⟩
          simp [hfront, hmiddle] at hhidden
      · simp only [ne_eq, not_or, not_not] at hhidden
        rw [run_read h hhidden.1 hhidden.2, outcome_inj, inPlace_iff hhidden.1 hhidden.2]

/-- `--yes rank drain --ranks 1 d1 -n=x`. -/
theorem flags_anywhere_drain :
    main (fun _ => none) "" ["--yes", "rank", "drain", "--ranks", "1", "d1", "-n=x"] =
      main (fun _ => none) "" ["rank", "drain", "d1", "--yes", "--ranks", "1", "-n=x"] := by
  let yes : Flag := { name := "yes", form := .bare }
  let ranks : Flag := { name := "ranks", form := .separate "1" }
  let ns : Flag := { twoDashes := false, name := "n", form := .joined "x" }
  let l : Line :=
    { command := .drain, name := "d1", front := [yes], before := [ranks], behind := [ns] }
  have hyes : WellWritten globalFlags yes :=
    ⟨⟨⟨'y', by decide +kernel, by decide⟩, by decide +kernel⟩, _, rfl, rfl⟩
  have hranks : WellWritten (Command.drain.flagSet fun _ => none) ranks :=
    ⟨⟨⟨'r', by decide +kernel, by decide⟩, by decide +kernel⟩, _, rfl, rfl, by decide +kernel⟩
  have hns : WellWritten globalFlags ns :=
    ⟨⟨⟨'n', by decide +kernel, by decide⟩, by decide +kernel⟩, _, rfl, trivial⟩
  have hvalid : l.Valid fun _ => none := by
    refine ⟨by decide +kernel, fun f hf => ?_⟩
    have hmem : f = yes ∨ f = ranks ∨ f = ns := by simpa [Line.flags, l] using hf
    rcases hmem with rfl | rfl | rfl
    · exact hyes
    · exact hranks
    · exact hns
  exact (flags_anywhere_iff "" hvalid).2 (.inr ⟨rfl, rfl, .inr rfl⟩)

/-- `system upgrade --image=a d1 --version=b` loses the version. -/
theorem version_dropped :
    main (fun _ => none) "" ["system", "upgrade", "--image=a", "d1", "--version=b"] =
        .request "system upgrade" "d1" {} { image := "a" } ∧
      main (fun _ => none) "" ["system", "upgrade", "d1", "--image=a", "--version=b"] =
        .request "system upgrade" "d1" {} { image := "a", version := "b" } := by
  decide +kernel

/-- `--ranks=1 rank drain d1` is no command. -/
example : main (fun _ => none) "" ["--ranks=1", "rank", "drain", "d1"] =
    .unknownCommand "--ranks=1 rank" := by
  decide +kernel

end Reading

end DaosOperator.Plugin
