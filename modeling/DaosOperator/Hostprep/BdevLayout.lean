import DaosOperator.Config
import DaosOperator.Effect.Table
import DaosOperator.Json

/-!
# The storage layout check

`daos_server` keeps the device configuration of an engine from the time of its format.  An
init container compares it with the configuration the operator renders now: the operator
passes the layout of every engine as one text, and the check reads it back and reports the
engines whose formatted devices are others.
-/

namespace DaosOperator.Hostprep

open Effect

/-! ## Layouts -/

structure BdevLayout where
  kind : String := ""
  devices : List String := []
  deriving DecidableEq

/-- `String`. -/
def BdevLayout.text (l : BdevLayout) : String := l.kind ++ " " ++ Text.join l.devices ","

def BdevLayout.equal (l o : BdevLayout) : Bool := l.text = o.text

/-- An entry of `spdkConf`. -/
structure SpdkMethod where
  method : String := ""
  filename : String := ""
  traddr : String := ""
  deriving DecidableEq

/-- The parameters of an entry: file name and address. -/
def decodeParams : Json.Decoder (String × String) :=
  let names := ["filename", "traddr"]
  Json.struct "struct" (fun fields => do
    let filename ← Json.field "" names "filename" "" Json.string fields
    let traddr ← Json.field "" names "traddr" "" Json.string fields
    .ok (filename, traddr)) ("", "")

def decodeMethod : Json.Decoder SpdkMethod :=
  let names := ["method", "params"]
  Json.struct "struct" (fun fields => do
    let method ← Json.field "" names "method" "" Json.string fields
    let params ← Json.field "" names "params" ("", "") decodeParams fields
    .ok ⟨method, params.1, params.2⟩) {}

/-- `spdkConf`: the entries of every subsystem. -/
def decodeSpdkConf : Json.Decoder (List (List SpdkMethod)) :=
  let subsystem : Json.Decoder (List SpdkMethod) :=
    Json.struct "struct" (fun fields =>
      Json.field "" ["config"] "config" [] (Json.slice "[]struct" decodeMethod) fields) []
  Json.struct "hostprep.spdkConf" (fun fields =>
    Json.field "spdkConf" ["subsystems"] "subsystems" []
      (Json.slice "[]struct" subsystem) fields) []

/-- The kind and the device of an entry that creates or attaches one. -/
def SpdkMethod.device? (m : SpdkMethod) : Option (String × String) :=
  if m.method = "bdev_aio_create" then some ("aio", m.filename)
  else if m.method = "bdev_nvme_attach_controller" then some ("nvme", m.traddr)
  else none

/-- The loop of `ReadBdevLayout` over the entries. -/
def layoutOfMethods (methods : List SpdkMethod) : Option BdevLayout :=
  if methods.any fun m => Text.contains m.method "vmd" then none
  else
    let found := methods.filterMap (·.device?)
    match (found.map (·.1)).dedup with
    | [kind] => some ⟨kind, Text.sortStrings (found.map (·.2))⟩
    | _ => none

/-- `ReadBdevLayout`; `none` is a file the check does not understand. -/
def readBdevLayout (conf : String) : Option BdevLayout :=
  match Json.parse conf with
  | .error _ => none
  | .ok v =>
      match decodeSpdkConf "value" v with
      | .error _ => none
      | .ok subsystems => layoutOfMethods subsystems.flatten

/-! ## The text form -/

def badLayout (part : String) : String :=
  "bad engine layout " ++ Text.quote part ++ " (want <index>=<aio|nvme>:<dev>[,<dev>...])"

/-- One part of the text; `none` is a part that is no layout. -/
def parsePart (part : String) : Option (Int × BdevLayout) := do
  let (idx, rest) ← Text.cut part '='
  let (kind, devs) ← Text.cut rest ':'
  let i ← Text.atoi idx
  if devs = "" then none else some (i, ⟨kind, Text.sortStrings (Text.split devs ',')⟩)

def addPart (m : Table Int BdevLayout) (part : String) : Except String (Table Int BdevLayout) :=
  if part = "" then .ok m
  else
    match parsePart part with
    | none => .error (badLayout part)
    | some (i, l) => .ok (m.put i (some l))

/-- `ParseBdevLayouts`. -/
def parseBdevLayouts (s : String) : Except String (Table Int BdevLayout) :=
  (Text.split s ';').foldlM addPart Table.empty

def sortedEntries (m : Table Int BdevLayout) : List (Int × BdevLayout) :=
  m.entries.insertionSort fun a b => a.1 ≤ b.1

/-- The text form of one layout. -/
def formatPart (e : Int × BdevLayout) : String :=
  toString e.1 ++ "=" ++ e.2.kind ++ ":" ++ Text.join e.2.devices ","

/-- `FormatBdevLayouts`. -/
def formatBdevLayouts (m : Table Int BdevLayout) : String :=
  Text.join ((sortedEntries m).map formatPart) ";"

/-! ## The check -/

/-- What reading a file gives. -/
inductive FileRead where
  | missing
  | failed (error : String)
  | content (text : String)
  deriving DecidableEq

/-- The file of an engine, below the control metadata. -/
def confPath (i : Int) : String := "daos_control/engine" ++ toString i ++ "/daos_nvme.conf"

def changedLine (i : Int) (have' want : BdevLayout) : String :=
  "engine " ++ toString i ++ ": control_metadata was formatted for " ++ have'.text ++
    ", the config asks for " ++ want.text

def checkEngine (files : String → FileRead) (bad : List String) (e : Int × BdevLayout) :
    Except String (List String) :=
  match files (confPath e.1) with
  | .missing => .ok bad
  | .failed error => .error error
  | .content text =>
      match readBdevLayout text with
      | none => .ok bad
      | some l => if l.equal e.2 then .ok bad else .ok (bad ++ [changedLine e.1 l e.2])

/-- `CheckBdevLayouts` of the files of a control-metadata directory. -/
def checkBdevLayouts (files : String → FileRead) (want : Table Int BdevLayout) :
    Except String (List String) :=
  (sortedEntries want).foldlM (checkEngine files) []

/-! ## The layouts of a configuration -/

/-- `kindOf`; empty for a class the check does not know. -/
def kindOf (cls : String) : String :=
  if cls = "nvme" then "nvme" else if cls = "kdev" || cls = "file" then "aio" else ""

/-- The tiers of an engine, with class and devices, as `daos_server.yml` lists them. -/
def listedTiers (e : Render.Engine) : List (String × List String) :=
  if e.tiers.isEmpty then [(e.bdevClass, e.bdevs)] else e.tiers.map fun t => (t.cls, t.bdevs)

/-- One tier of the loop; `none` where the loop gives up. -/
def addTier (l : BdevLayout) (t : String × List String) : Option BdevLayout :=
  let k := kindOf t.1
  if k = "" ∨ (l.kind ≠ "" ∧ l.kind ≠ k) then none else some ⟨k, l.devices ++ t.2⟩

def engineLayout (e : Render.Engine) : Option BdevLayout :=
  match (listedTiers e).foldlM addTier {} with
  | none => none
  | some l =>
      if l.kind ≠ "" ∧ l.devices ≠ [] then some { l with devices := Text.sortStrings l.devices }
      else none

def addEngine (m : Table Int BdevLayout) (e : Render.Engine) : Table Int BdevLayout :=
  match engineLayout e with
  | none => m
  | some l => m.put e.index (some l)

def engineBdevLayouts (engines : List Render.Engine) : Table Int BdevLayout :=
  engines.foldl addEngine Table.empty

end DaosOperator.Hostprep
