import DaosOperator.Text

/-!
# Decoding JSON as `encoding/json` does

A reader takes one JSON value from the front of a text and leaves the rest; its
errors are those of Go's scanner.  Values keep the raw text of their members,
because a `json.RawMessage` field is that text.

The second half is what `Unmarshal` does with a struct: keys are matched exactly
or else ignoring case, the last occurrence counts, `null` leaves a field at its
zero value, and a value of the wrong kind is an error.
-/

/-- A decoded JSON value.  Numbers are kept as written. -/
inductive Json where
  | null
  | bool (b : Bool)
  | num (literal : String)
  | str (s : String)
  /-- Elements with their raw text. -/
  | arr (items : List (String × Json))
  /-- Members with the raw text of their values. -/
  | obj (fields : List (String × String × Json))

namespace Json

/-! ## The scanner -/

/-- What is left of the input behind a value, or the scanner's error. -/
abbrev Scan (α : Type) := Except String (α × List Char)

def isBlank (c : Char) : Bool := c = ' ' || c = '\t' || c = '\n' || c = '\r'

def skipBlanks (cs : List Char) : List Char := cs.dropWhile isBlank

/-- A character as the scanner quotes it. -/
def quoteChar (c : Char) : String :=
  if c = '\'' then "'\\''"
  else if c = '"' then "'\"'"
  else "'" ++ String.ofList (Text.quoteChar c) ++ "'"

def invalid {α : Type} (c : Char) (context : String) : Except String α :=
  .error ("invalid character " ++ quoteChar c ++ " " ++ context)

def unexpectedEnd {α : Type} : Except String α := .error "unexpected EOF"

/-- Fail at the head of the input. -/
def reject {α : Type} (context : String) : List Char → Except String α
  | [] => unexpectedEnd
  | c :: _ => invalid c context

def hexValue? (c : Char) : Option Nat :=
  if '0' ≤ c ∧ c ≤ '9' then some (c.toNat - 48)
  else if 'a' ≤ c ∧ c ≤ 'f' then some (c.toNat - 87)
  else if 'A' ≤ c ∧ c ≤ 'F' then some (c.toNat - 55)
  else none

/-- Exactly `n` hexadecimal digits. -/
def hexDigits : Nat → Nat → List Char → Scan Nat
  | 0, acc, cs => .ok (acc, cs)
  | _ + 1, _, [] => unexpectedEnd
  | n + 1, acc, c :: cs =>
      match hexValue? c with
      | some d => hexDigits n (16 * acc + d) cs
      | none => invalid c "in \\u hexadecimal character escape"

/-- Join the two halves of a surrogate pair; a half that stands alone is replaced. -/
def joinSurrogates : List Nat → List Char
  | [] => []
  | [n] => [if 0xD800 ≤ n ∧ n < 0xE000 then Char.ofNat 0xFFFD else Char.ofNat n]
  | n :: m :: ns =>
      if 0xD800 ≤ n ∧ n < 0xDC00 then
        if 0xDC00 ≤ m ∧ m < 0xE000 then
          Char.ofNat (0x10000 + (n - 0xD800) * 1024 + (m - 0xDC00)) :: joinSurrogates ns
        else Char.ofNat 0xFFFD :: joinSurrogates (m :: ns)
      else if 0xDC00 ≤ n ∧ n < 0xE000 then Char.ofNat 0xFFFD :: joinSurrogates (m :: ns)
      else Char.ofNat n :: joinSurrogates (m :: ns)

/-- The code units of a string literal behind its opening quote.  The fuel bounds
the length of the literal. -/
def stringUnits : Nat → List Char → Scan (List Nat)
  | 0, _ => unexpectedEnd
  | _ + 1, [] => unexpectedEnd
  | fuel + 1, '"' :: cs => let _ := fuel; .ok ([], cs)
  | fuel + 1, '\\' :: cs =>
      match cs with
      | [] => unexpectedEnd
      | e :: rest =>
          let unit (n : Nat) : Scan (List Nat) :=
            (stringUnits fuel rest).map fun r => (n :: r.1, r.2)
          if e = '"' then unit 34
          else if e = '\\' then unit 92
          else if e = '/' then unit 47
          else if e = 'b' then unit 8
          else if e = 'f' then unit 12
          else if e = 'n' then unit 10
          else if e = 'r' then unit 13
          else if e = 't' then unit 9
          else if e = 'u' then
            match hexDigits 4 0 rest with
            | .error msg => .error msg
            | .ok (n, rest) => (stringUnits fuel rest).map fun r => (n :: r.1, r.2)
          else invalid e "in string escape code"
  | fuel + 1, c :: cs =>
      if c.toNat < 32 then invalid c "in string literal"
      else (stringUnits fuel cs).map fun r => (c.toNat :: r.1, r.2)

/-- A string literal behind its opening quote. -/
def stringBody (cs : List Char) : Scan String :=
  (stringUnits (cs.length + 1) cs).map fun r => (String.ofList (joinSurrogates r.1), r.2)

/-- Digits from the front of the input. -/
def takeDigits (cs : List Char) : List Char × List Char :=
  (cs.takeWhile fun c => (Text.digit? c).isSome, cs.dropWhile fun c => (Text.digit? c).isSome)

def someDigits (context : String) (cs : List Char) : Scan (List Char) :=
  match takeDigits cs with
  | ([], rest) => reject context rest
  | (ds, rest) => .ok (ds, rest)

/-- The exponent of a number, if there is one. -/
def exponent : List Char → Scan (List Char)
  | c :: cs =>
      if c = 'e' || c = 'E' then
        let signed := match cs with
          | '+' :: rest => (['+'], rest)
          | '-' :: rest => (['-'], rest)
          | rest => ([], rest)
        (someDigits "in exponent of numeric literal" signed.2).map fun r =>
          (c :: signed.1 ++ r.1, r.2)
      else .ok ([], c :: cs)
  | [] => .ok ([], [])

/-- The fraction of a number, if there is one. -/
def fraction : List Char → Scan (List Char)
  | '.' :: cs =>
      (someDigits "after decimal point in numeric literal" cs).map fun r => ('.' :: r.1, r.2)
  | cs => .ok ([], cs)

/-- The integer part of a number: a zero stands alone. -/
def integerPart : List Char → Scan (List Char)
  | '0' :: cs => .ok (['0'], cs)
  | cs => someDigits "in numeric literal" cs

def number (cs : List Char) : Except String (Json × List Char) := do
  let sign := match cs with
    | '-' :: rest => (['-'], rest)
    | rest => ([], rest)
  let (int, rest) ← integerPart sign.2
  let (frac, rest) ← fraction rest
  let (exp, rest) ← exponent rest
  .ok (num (String.ofList (sign.1 ++ int ++ frac ++ exp)), rest)

/-- The characters of a literal behind its first one. -/
def literal (name : String) (value : Json) : List Char → List Char → Scan Json
  | [], cs => .ok (value, cs)
  | _ :: _, [] => unexpectedEnd
  | e :: es, c :: cs =>
      if c = e then literal name value es cs
      else invalid c ("in literal " ++ name ++ " (expecting " ++ quoteChar e ++ ")")

/-- The text consumed between two positions of the input. -/
def consumed (start rest : List Char) : String :=
  String.ofList (start.take (start.length - rest.length))

mutual

/-- One value from the front of the input.  Every step consumes input, so fuel for
the length of the input is enough. -/
def value : Nat → List Char → Scan Json
  | 0, _ => unexpectedEnd
  | fuel + 1, input =>
      match skipBlanks input with
      | [] => unexpectedEnd
      | '{' :: cs =>
          match skipBlanks cs with
          | '}' :: rest => .ok (obj [], rest)
          | rest => (members fuel rest).map fun r => (obj r.1, r.2)
      | '[' :: cs =>
          match skipBlanks cs with
          | ']' :: rest => .ok (arr [], rest)
          | rest => (elements fuel rest).map fun r => (arr r.1, r.2)
      | '"' :: cs => (stringBody cs).map fun r => (str r.1, r.2)
      | 't' :: cs => literal "true" (bool true) ['r', 'u', 'e'] cs
      | 'f' :: cs => literal "false" (bool false) ['a', 'l', 's', 'e'] cs
      | 'n' :: cs => literal "null" null ['u', 'l', 'l'] cs
      | c :: cs =>
          if c = '-' || (Text.digit? c).isSome then number (c :: cs)
          else invalid c "looking for beginning of value"

/-- The members of an object up to its closing brace. -/
def members : Nat → List Char → Scan (List (String × String × Json))
  | 0, _ => unexpectedEnd
  | fuel + 1, '"' :: cs =>
      match stringBody cs with
      | .error e => .error e
      | .ok (key, rest) =>
          match skipBlanks rest with
          | ':' :: rest =>
              let start := skipBlanks rest
              match value fuel start with
              | .error e => .error e
              | .ok (v, rest) =>
                  let entry := (key, consumed start rest, v)
                  match skipBlanks rest with
                  | ',' :: rest =>
                      (members fuel (skipBlanks rest)).map fun r => (entry :: r.1, r.2)
                  | '}' :: rest => .ok ([entry], rest)
                  | rest => reject "after object key:value pair" rest
          | rest => reject "after object key" rest
  | _ + 1, cs => reject "looking for beginning of object key string" cs

/-- The elements of an array up to its closing bracket. -/
def elements : Nat → List Char → Scan (List (String × Json))
  | 0, _ => unexpectedEnd
  | fuel + 1, input =>
      let start := skipBlanks input
      match value fuel start with
      | .error e => .error e
      | .ok (v, rest) =>
          let entry := (consumed start rest, v)
          match skipBlanks rest with
          | ',' :: rest => (elements fuel rest).map fun r => (entry :: r.1, r.2)
          | ']' :: rest => .ok ([entry], rest)
          | rest => reject "after array element" rest

end

/-- One value from the front of a text, as `json.Decoder` reads it. -/
def read (cs : List Char) : Scan Json := value (2 * cs.length + 1) cs

/-- `json.Unmarshal` reads the whole text. -/
def parse (s : String) : Except String Json :=
  match read s.toList with
  | .error "unexpected EOF" => .error "unexpected end of JSON input"
  | .error e => .error e
  | .ok (v, rest) =>
      match skipBlanks rest with
      | [] => .ok v
      | c :: _ => invalid c "after top-level value"

/-! ## Unmarshalling -/

/-- The name of a value's kind in an `UnmarshalTypeError`. -/
def kind : Json → String
  | null => "null"
  | bool _ => "bool"
  | num l => "number " ++ l
  | str _ => "string"
  | arr _ => "array"
  | obj _ => "object"

/-- A decoder for a Go type; the context names the field that is being decoded. -/
abbrev Decoder (α : Type) := String → Json → Except String α

def typeError {α : Type} (context goType : String) (v : Json) : Except String α :=
  .error ("json: cannot unmarshal " ++ kind v ++ " into Go " ++ context ++ " of type " ++ goType)

/-- Key folding: ASCII case, the Kelvin sign and the long s. -/
def foldChar (c : Char) : Char :=
  if 'A' ≤ c ∧ c ≤ 'Z' then Char.ofNat (c.toNat + 32)
  else if c.toNat = 0x212A then 'k'
  else if c.toNat = 0x17F then 's'
  else c

def fold (s : String) : List Char := s.toList.map foldChar

/-- The struct field a key is decoded into. -/
def resolve (names : List String) (key : String) : Option String :=
  if key ∈ names then some key else names.find? fun n => fold n = fold key

/-- The last member that is decoded into a field. -/
def member (names : List String) (name : String) (fields : List (String × String × Json)) :
    Option (String × Json) :=
  (fields.filter fun f => resolve names f.1 = some name).getLast?.map (·.2)

/-- A field of a struct with the given field names; absent and `null` leave the zero
value. -/
def field {α : Type} (struct : String) (names : List String) (name : String) (zero : α)
    (decode : Decoder α) (fields : List (String × String × Json)) : Except String α :=
  match member names name fields with
  | none => .ok zero
  | some (_, null) => .ok zero
  | some (_, v) => decode ("struct field " ++ struct ++ "." ++ name) v

/-- A `json.RawMessage` field; empty when absent. -/
def rawField (names : List String) (name : String) (fields : List (String × String × Json)) :
    String :=
  ((member names name fields).map (·.1)).getD ""

def string : Decoder String
  | _, str s => .ok s
  | _, null => .ok ""
  | context, v => typeError context "string" v

def boolean : Decoder Bool
  | _, bool b => .ok b
  | _, null => .ok false
  | context, v => typeError context "bool" v

/-- The integer a literal stands for, when it is written as one. -/
def integerLiteral (l : String) : Option Int :=
  match l.toList with
  | '-' :: cs => if Text.isDigits cs then some (-(Text.digitsValue cs : Int)) else none
  | cs => if Text.isDigits cs then some (Text.digitsValue cs : Int) else none

def integer (goType : String) (lo hi : Int) : Decoder Int
  | _, null => .ok 0
  | context, num l =>
      match integerLiteral l with
      | some i => if lo ≤ i ∧ i ≤ hi then .ok i else typeError context goType (num l)
      | none => typeError context goType (num l)
  | context, v => typeError context goType v

def int32 : Decoder Int := integer "int32" (-2147483648) 2147483647

def int64 : Decoder Int := integer "int64" (-9223372036854775808) 9223372036854775807

def int : Decoder Int := integer "int" (-9223372036854775808) 9223372036854775807

/-- A pointer: `null` is nil. -/
def pointer {α : Type} (decode : Decoder α) : Decoder (Option α)
  | _, null => .ok none
  | context, v => (decode context v).map some

def slice {α : Type} (goType : String) (decode : Decoder α) : Decoder (List α)
  | _, null => .ok []
  | context, arr items => items.mapM fun i => decode context i.2
  | context, v => typeError context goType v

/-- A map from strings; the last occurrence of a key counts. -/
def stringMap (goType : String) (decode : Decoder String) : Decoder (List (String × String))
  | _, null => .ok []
  | context, obj fields => do
      let entries ← fields.mapM fun f => (decode context f.2.2).map fun v => (f.1, v)
      .ok (entries.foldl (fun m e => m.filter (fun x => x.1 ≠ e.1) ++ [e]) [])
  | context, v => typeError context goType v

def struct {α : Type} (goType : String)
    (decode : List (String × String × Json) → Except String α) (zero : α) : Decoder α
  | _, null => .ok zero
  | _, obj fields => decode fields
  | context, v => typeError context goType v

/-! ## What decoders yield -/

/-- Every value the decoder accepts satisfies `P`. -/
def Yields {α : Type} (decode : Decoder α) (P : α → Prop) : Prop :=
  ∀ context v a, decode context v = .ok a → P a

variable {α : Type} {P : α → Prop} {decode : Decoder α}

theorem yields_integer (goType : String) {lo hi : Int} (hzero : lo ≤ 0 ∧ 0 ≤ hi) :
    Yields (integer goType lo hi) fun i => lo ≤ i ∧ i ≤ hi := by
  intro context v i h
  unfold integer at h
  split at h
  · cases h
    exact hzero
  · split at h
    · split at h
      · next hrange =>
          cases h
          exact hrange
      · cases h
    · cases h
  · cases h

theorem field_yields (hdecode : Yields decode P) {zero a : α} (hzero : P zero)
    {struct name : String} {names : List String} {fields : List (String × String × Json)}
    (h : field struct names name zero decode fields = .ok a) : P a := by
  unfold field at h
  split at h
  · cases h
    exact hzero
  · cases h
    exact hzero
  · exact hdecode _ _ _ h

theorem yields_struct (goType : String) {body : List (String × String × Json) → Except String α}
    {zero : α} (hbody : ∀ fields a, body fields = .ok a → P a) (hzero : P zero) :
    Yields (struct goType body zero) P := by
  intro context v a h
  unfold struct at h
  split at h
  · cases h
    exact hzero
  · exact hbody _ _ h
  · cases h

theorem exists_of_mem_mapM {β : Type} {f : α → Except String β} {l : List α} {bs : List β}
    (h : l.mapM f = .ok bs) : ∀ b ∈ bs, ∃ a ∈ l, f a = .ok b := by
  induction l generalizing bs with
  | nil =>
      cases h
      simp
  | cons a l ih =>
      rw [List.mapM_cons] at h
      cases ha : f a with
      | error e =>
          rw [ha] at h
          cases h
      | ok b =>
          cases hl : l.mapM f with
          | error e =>
              rw [ha, hl] at h
              cases h
          | ok bs' =>
              rw [ha, hl] at h
              cases h
              intro b' hb'
              rcases List.mem_cons.mp hb' with rfl | hb'
              · exact ⟨a, by simp, ha⟩
              · obtain ⟨a', ha', hfa'⟩ := ih hl b' hb'
                exact ⟨a', by simp [ha'], hfa'⟩

theorem yields_slice (goType : String) (hdecode : Yields decode P) :
    Yields (slice goType decode) fun l => ∀ a ∈ l, P a := by
  intro context v l h
  unfold slice at h
  split at h
  · cases h
    simp
  · intro a ha
    obtain ⟨item, -, hitem⟩ := exists_of_mem_mapM h a ha
    exact hdecode _ _ _ hitem
  · cases h

end Json
