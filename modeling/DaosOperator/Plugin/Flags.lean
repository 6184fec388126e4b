import DaosOperator.Text
import Mathlib.Data.List.Basic

/-!
# Flag sets

The package `flag`: a flag set reads its flags from the front of a list of arguments and stops
at the first argument that is no flag.  A flag set is given by what it does with each name; the
values are any state that the flags write to.
-/

namespace DaosOperator.Flags

/-! ## Reading arguments -/

/-- How an argument reads. -/
inductive Shape where
  /-- No flag. -/
  | plain
  /-- `--`, which ends the flags. -/
  | terminator
  /-- A dash with no name behind it. -/
  | bad
  | flag (name : String) (value : Option String)
  deriving DecidableEq

/-- Name and value of a flag without its dashes. -/
def shapeOfBody (body : List Char) : Shape :=
  match body with
  | [] => .bad
  | c :: _ =>
      if c = '-' || c = '=' then .bad
      else
        match Text.cutChars '=' body with
        | some (name, value) => .flag (String.ofList name) (some (String.ofList value))
        | none => .flag (String.ofList body) none

def shapeOf (arg : String) : Shape :=
  match arg.toList with
  | ['-'] => .plain
  | ['-', '-'] => .terminator
  | '-' :: '-' :: body => shapeOfBody body
  | '-' :: body => shapeOfBody body
  | _ => .plain

/-- A flag that is defined: a boolean flag needs no value, and a value is taken or refused. -/
structure FlagDef (σ : Type) where
  isBool : Bool
  set : String → σ → Option σ

/-- What a flag set knows about each name. -/
abbrev FlagSet (σ : Type) := String → Option (FlagDef σ)

inductive FlagError where
  | badSyntax (arg : String)
  | help
  | undefined (name : String)
  | needsArgument (name : String)
  | invalidBoolean (value name : String)
  | invalid (value name : String)
  deriving DecidableEq

section Parse

variable {σ : Type} (fs : FlagSet σ)

def assign (name : String) (value : Option String) (s : σ) : Except FlagError σ :=
  match fs name with
  | none => .error (if name = "help" || name = "h" then .help else .undefined name)
  | some d =>
      if d.isBool then
        let v := value.getD "true"
        match d.set v s with
        | some s => .ok s
        | none => .error (.invalidBoolean v name)
      else
        match value with
        | none => .error (.needsArgument name)
        | some v =>
            match d.set v s with
            | some s => .ok s
            | none => .error (.invalid v name)

def takesNext (name : String) (value : Option String) : Bool :=
  value.isNone && (fs name).any fun d => !d.isBool

/-- `FlagSet.Parse`: the state after the flags, and the arguments behind them. -/
def parse : σ → List String → Except FlagError (σ × List String)
  | s, [] => .ok (s, [])
  | s, arg :: args =>
      match shapeOf arg with
      | .plain => .ok (s, arg :: args)
      | .terminator => .ok (s, args)
      | .bad => .error (.badSyntax arg)
      | .flag name value =>
          match args with
          | [] => (assign fs name value s).map fun s => (s, [])
          | next :: rest =>
              if takesNext fs name value then
                match assign fs name (some next) s with
                | .ok s => parse s rest
                | .error e => .error e
              else
                match assign fs name value s with
                | .ok s => parse s (next :: rest)
                | .error e => .error e

end Parse

/-! ## Flags as they are written -/

/-- How a flag is given its value. -/
inductive Form where
  /-- `--name=value`. -/
  | joined (value : String)
  /-- `--name value`. -/
  | separate (value : String)
  /-- `--name`. -/
  | bare
  deriving DecidableEq

structure Flag where
  twoDashes : Bool := true
  name : String
  form : Form
  deriving DecidableEq

namespace Flag

def head (f : Flag) : String := (if f.twoDashes then "--" else "-") ++ f.name

/-- The arguments that a flag is written as. -/
def words (f : Flag) : List String :=
  match f.form with
  | .joined value => [f.head ++ "=" ++ value]
  | .separate value => [f.head, value]
  | .bare => [f.head]

def value (f : Flag) : Option String :=
  match f.form with
  | .joined value => some value
  | .separate value => some value
  | .bare => none

end Flag

/-- A name that a flag can have. -/
structure IsName (name : String) : Prop where
  first : ∃ c, name.toList.head? = some c ∧ c ≠ '-'
  noEquals : '=' ∉ name.toList

/-- The argument does not look like a flag. -/
def IsPlain (arg : String) : Prop := arg.toList.head? ≠ some '-'
  deriving Decidable

/-- The flag is written as its kind asks for: a boolean flag never takes the next argument, any
other flag always has a value, and a separate value does not look like a flag. -/
structure WellWritten {σ : Type} (fs : FlagSet σ) (f : Flag) : Prop where
  name : IsName f.name
  defined : ∃ d, fs f.name = some d ∧
    match f.form with
    | .joined _ => True
    | .separate v => d.isBool = false ∧ IsPlain v
    | .bare => d.isBool = true

section Written

variable {σ : Type} {fs : FlagSet σ}

/-- What a list of flags writes, one after the other. -/
def assignAll (fs : FlagSet σ) (flags : List Flag) (s : σ) : Except FlagError σ :=
  flags.foldlM (fun s f => assign fs f.name f.value s) s

/-- The arguments that flags are written as. -/
def wordsOf (flags : List Flag) : List String := flags.flatMap Flag.words

theorem shapeOf_plain {arg : String} (h : IsPlain arg) : shapeOf arg = .plain := by
  unfold shapeOf IsPlain at *
  cases harg : arg.toList with
  | nil => rfl
  | cons c rest =>
      have hc : c ≠ '-' := by simpa [harg] using h
      split
      all_goals first | rfl | exact absurd (List.cons.inj ‹_›).1 hc

theorem shapeOf_dashes {arg : String} {two : Bool} {c : Char} {body : List Char} (hc : c ≠ '-')
    (harg : arg.toList = (if two then ['-', '-'] else ['-']) ++ c :: body) :
    shapeOf arg = shapeOfBody (c :: body) := by
  unfold shapeOf
  rw [harg]
  cases two with
  | true => rfl
  | false => simp [hc]

theorem toList_head (f : Flag) :
    f.head.toList = (if f.twoDashes then ['-', '-'] else ['-']) ++ f.name.toList := by
  unfold Flag.head
  cases f.twoDashes <;> simp

theorem IsName.cons {name : String} (h : IsName name) :
    ∃ c rest, name.toList = c :: rest ∧ c ≠ '-' ∧ c ≠ '=' := by
  obtain ⟨c, hfirst, hdash⟩ := h.first
  obtain ⟨rest, hname⟩ := List.head?_eq_some_iff.1 hfirst
  refine ⟨c, rest, hname, hdash, ?_⟩
  rintro rfl
  exact h.noEquals (by simp [hname])

theorem shapeOfBody_name {name : String} (h : IsName name) :
    shapeOfBody name.toList = .flag name none := by
  obtain ⟨c, rest, hname, hdash, hequals⟩ := h.cons
  have hcut := Text.cutChars_eq_none h.noEquals
  rw [hname] at hcut ⊢
  simp only [shapeOfBody, hcut]
  rw [if_neg (by simp [hdash, hequals]), ← hname, String.ofList_toList]

theorem shapeOfBody_joined {name : String} (h : IsName name) (value : String) :
    shapeOfBody (name.toList ++ '=' :: value.toList) = .flag name (some value) := by
  obtain ⟨c, rest, hname, hdash, hequals⟩ := h.cons
  have hcut := Text.cutChars_append h.noEquals value.toList
  rw [hname] at hcut ⊢
  rw [List.cons_append] at hcut ⊢
  simp only [shapeOfBody, hcut]
  rw [if_neg (by simp [hdash, hequals]), ← hname, String.ofList_toList, String.ofList_toList]

theorem shapeOf_head {f : Flag} (h : IsName f.name) : shapeOf f.head = .flag f.name none := by
  obtain ⟨c, rest, hname, hdash, _⟩ := h.cons
  have hlist := toList_head f
  rw [hname] at hlist
  rw [shapeOf_dashes hdash hlist, ← hname, shapeOfBody_name h]

theorem shapeOf_joined {f : Flag} (h : IsName f.name) (value : String) :
    shapeOf (f.head ++ "=" ++ value) = .flag f.name (some value) := by
  obtain ⟨c, rest, hname, hdash, _⟩ := h.cons
  have hlist : (f.head ++ "=" ++ value).toList =
      (if f.twoDashes then ['-', '-'] else ['-']) ++ c :: (rest ++ '=' :: value.toList) := by
    rw [String.toList_append, String.toList_append, toList_head, hname]
    simp
  rw [shapeOf_dashes hdash hlist, ← List.cons_append, ← hname, shapeOfBody_joined h]

/-- A flag whose value is not the next argument. -/
theorem parse_flag {arg name : String} {value : Option String}
    (harg : shapeOf arg = .flag name value) (hnext : takesNext fs name value = false)
    (s : σ) (args : List String) :
    parse fs s (arg :: args) = assign fs name value s >>= fun s => parse fs s args := by
  rw [parse, harg]
  cases args with
  | nil =>
      dsimp only
      cases assign fs name value s <;> rfl
  | cons next rest =>
      simp only [hnext, Bool.false_eq_true, if_false]
      cases assign fs name value s <;> rfl

theorem parse_flag_next {arg name : String} (harg : shapeOf arg = .flag name none)
    (hnext : takesNext fs name none = true) (s : σ) (next : String) (args : List String) :
    parse fs s (arg :: next :: args) =
      assign fs name (some next) s >>= fun s => parse fs s args := by
  rw [parse, harg]
  simp only [hnext, if_true]
  cases assign fs name (some next) s <;> rfl

/-- One flag in front of other arguments. -/
theorem parse_words {f : Flag} (h : WellWritten fs f) (s : σ) (args : List String) :
    parse fs s (f.words ++ args) = assign fs f.name f.value s >>= fun s => parse fs s args := by
  obtain ⟨d, hd, hform⟩ := h.defined
  unfold Flag.words Flag.value
  cases hf : f.form with
  | joined value => exact parse_flag (shapeOf_joined h.name value) rfl s args
  | separate value =>
      rw [hf] at hform
      exact parse_flag_next (shapeOf_head h.name) (by simp [takesNext, hd, hform.1]) s value args
  | bare =>
      rw [hf] at hform
      have hbool : d.isBool = true := hform
      exact parse_flag (shapeOf_head h.name) (by simp [takesNext, hd, hbool]) s args

/-- The flags in front of a plain argument are read, and the rest is left. -/
theorem parse_wordsOf {flags : List Flag} (h : ∀ f ∈ flags, WellWritten fs f) {rest : List String}
    (hrest : ∀ arg ∈ rest.head?, IsPlain arg) (s : σ) :
    parse fs s (wordsOf flags ++ rest) = (assignAll fs flags s).map fun s => (s, rest) := by
  induction flags generalizing s with
  | nil =>
      cases rest with
      | nil => rfl
      | cons arg rest =>
          change parse fs s (arg :: rest) = _
          rw [parse, shapeOf_plain (hrest arg rfl)]
          rfl
  | cons f flags ih =>
      have hflags : ∀ g ∈ flags, WellWritten fs g := fun g hg => h g (List.mem_cons_of_mem f hg)
      have hwords : wordsOf (f :: flags) ++ rest = f.words ++ (wordsOf flags ++ rest) := by
        simp [wordsOf]
      rw [hwords, parse_words (h f List.mem_cons_self), assignAll, List.foldlM_cons]
      cases assign fs f.name f.value s with
      | error e => rfl
      | ok s => exact ih hflags s

theorem parse_all {flags : List Flag} (h : ∀ f ∈ flags, WellWritten fs f) (s : σ) :
    parse fs s (wordsOf flags) = (assignAll fs flags s).map fun s => (s, []) := by
  have hrest : ∀ arg ∈ ([] : List String).head?, IsPlain arg := by simp
  have hparse := parse_wordsOf h hrest s
  rwa [List.append_nil] at hparse

end Written

end DaosOperator.Flags
