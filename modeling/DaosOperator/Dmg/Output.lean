import DaosOperator.Json

/-!
# Reading the output of `dmg` and `daos`

The tools print one JSON envelope each, between other lines of the pod's log.
This module is `internal/dmg` from the text of a log to the values the
controllers work with.
-/

namespace DaosOperator.Dmg

/-! ## Envelopes -/

/-- `Envelope`: the frame of `dmg -j`.  The response is kept as raw text. -/
structure Envelope where
  response : String
  error : Option String
  status : Int
  deriving DecidableEq

def decodeEnvelope : Json → Except String Envelope :=
  let names := ["response", "error", "status"]
  Json.struct "dmg.Envelope" (fun fields => do
    let error ← Json.field "Envelope" names "error" none (Json.pointer Json.string) fields
    let status ← Json.field "Envelope" names "status" 0 Json.int fields
    .ok ⟨Json.rawField names "response" fields, error, status⟩) ⟨"", none, 0⟩ "value"

/-- One envelope from the front of a text that starts with a brace. -/
def readEnvelope (cs : List Char) : Except String (Envelope × List Char) :=
  match Json.read cs with
  | .error e => .error e
  | .ok (v, rest) => (decodeEnvelope v).map fun e => (e, rest)

/-- The error for an output without any envelope. -/
def noJson (out : String) : String :=
  "no JSON in dmg output: " ++ Text.quote (Text.trimSpace (Text.firstLine out))

/-- `Parse`: the first JSON value counts. -/
def parse (out : String) : Except String Envelope :=
  match out.toList.dropWhile (· ≠ '{') with
  | [] => .error (noJson out)
  | cs =>
      match readEnvelope cs with
      | .ok (e, _) => .ok e
      | .error e => .error ("dmg output is not JSON: " ++ e)

/-- The loop of `ParseAll`; it consumes input in every round. -/
def parseAllFrom : Nat → List Char → List Envelope
  | 0, _ => []
  | fuel + 1, rest =>
      match rest.dropWhile (· ≠ '{') with
      | [] => []
      | brace :: cs =>
          match readEnvelope (brace :: cs) with
          | .ok (e, rest) => e :: parseAllFrom fuel rest
          -- a brace that starts no envelope (a log line)
          | .error _ => parseAllFrom fuel cs

/-- `ParseAll`: every envelope of the output, in order. -/
def parseAll (out : String) : Except String (List Envelope) :=
  match parseAllFrom (out.toList.length + 1) out.toList with
  | [] => .error (noJson out)
  | envs => .ok envs

/-- The response is absent or `null`. -/
def Envelope.empty (e : Envelope) : Bool := e.response = "" || e.response = "null"

/-- Unmarshal the response, naming it in the error. -/
def Envelope.unmarshal {α : Type} (e : Envelope) (what : String) (decode : Json.Decoder α) :
    Except String α :=
  match Json.parse e.response with
  | .error msg => .error (what ++ ": " ++ msg)
  | .ok v =>
      match decode "value" v with
      | .error msg => .error (what ++ ": " ++ msg)
      | .ok a => .ok a

/-! ## Errors -/

inductive ErrorKind where
  | none
  | unformatted
  | unreachable
  | notFound
  | other
  | timeout
  deriving DecidableEq

/-- `TimeoutError` starts the error of the envelope a pod prints when its first
command ran too long. -/
def timeoutError : String := "dmg: no answer within"

/-- `Classify`. -/
def classify (msg : String) : ErrorKind :=
  let m := Text.toLower msg
  let mentions (sub : String) : Bool := Text.contains m sub
  if m = "" then .none
  else if Text.hasPrefix msg timeoutError then .timeout
  else if mentions "system is uninitialized" || mentions "storage format required" ||
      mentions "raft service unavailable" then .unformatted
  else if mentions "unable to find pool service with label" || mentions "der_nonexist" ||
      mentions "does not exist" || mentions "not found" then .notFound
  else if mentions "unable to contact the daos management service" ||
      mentions "connection refused" || mentions "no route to host" ||
      mentions "deadline exceeded" || mentions "i/o timeout" || mentions "der_unreach" ||
      mentions "unreachable node" || mentions "refused the connection" then .unreachable
  else .other

/-- `RFExceeded`. -/
@[irreducible] def rfExceeded (output : String) : Bool :=
  let m := Text.toLower output
  Text.contains m "der_rf(" || Text.contains m "failures exceed rf"

/-! ## Responses -/

structure LeaderInfo where
  currentLeader : String
  replicas : List String
  downReplicas : List String
  deriving DecidableEq

/-- `LeaderQuery`; `none` when there is no response. -/
def leaderQuery (e : Envelope) : Except String (Option LeaderInfo) :=
  if e.empty then .ok none
  else
    let names := ["current_leader", "replicas", "down_replicas"]
    let strings := Json.slice "[]string" Json.string
    e.unmarshal "leader query response" (Json.struct "dmg.LeaderInfo" (fun fields => do
      let leader ← Json.field "LeaderInfo" names "current_leader" "" Json.string fields
      let replicas ← Json.field "LeaderInfo" names "replicas" [] strings fields
      let down ← Json.field "LeaderInfo" names "down_replicas" [] strings fields
      .ok (some ⟨leader, replicas, down⟩)) (some ⟨"", [], []⟩))

/-- `Member`, with the fields the operator uses. -/
structure Member where
  rank : Int
  addr : String
  state : String
  deriving DecidableEq

/-- A member of `dmg -j system query -v`.  The fields the operator ignores are still
decoded, and a wrong kind there is an error. -/
def decodeMember : Json.Decoder Member :=
  let names := ["rank", "addr", "state", "fault_domain", "uuid", "info"]
  Json.struct "dmg.Member" (fun fields => do
    let rank ← Json.field "Member" names "rank" 0 Json.int32 fields
    let addr ← Json.field "Member" names "addr" "" Json.string fields
    let state ← Json.field "Member" names "state" "" Json.string fields
    let _ ← Json.field "Member" names "fault_domain" "" Json.string fields
    let _ ← Json.field "Member" names "uuid" "" Json.string fields
    let _ ← Json.field "Member" names "info" "" Json.string fields
    .ok ⟨rank, addr, state⟩) ⟨0, "", ""⟩

/-- `SystemQuery`: the members in rank order; none when there is no response. -/
def systemQuery (e : Envelope) : Except String (List Member) :=
  if e.empty then .ok []
  else
    (e.unmarshal "system query response" (Json.struct "struct" (fun fields =>
      Json.field "" ["members"] "members" [] (Json.slice "[]dmg.Member" decodeMember) fields)
      [])).map fun ms => ms.insertionSort fun a b => a.rank ≤ b.rank

/-- `StorageFormat`: per-host errors, keyed by message. -/
def storageFormat (e : Envelope) : Except String (List (String × String)) :=
  if e.empty then .ok []
  else
    e.unmarshal "storage format response" (Json.struct "struct" (fun fields =>
      Json.field "" ["host_errors"] "host_errors" []
        (Json.stringMap "map[string]string" Json.string) fields) [])

/-- `Host` strips the port from an address. -/
def host (addr : String) : String :=
  match Text.beforeLast addr ':' with
  | some "" => addr
  | some h => h
  | none => addr

structure RankResult where
  rank : Int
  errored : Bool
  msg : String
  state : String := ""
  pool : String := ""
  deriving DecidableEq

/-- The order of `sortRanks`. -/
def sortRanks (l : List RankResult) : List RankResult :=
  l.insertionSort fun a b => a.rank < b.rank ∨ (a.rank = b.rank ∧ a.pool ≤ b.pool)

/-- The per-pool shape, answered by `drain`. -/
def decodePerPool : Json.Decoder (List RankResult) :=
  let result (pool : String) : Json.Decoder RankResult :=
    let names := ["rank", "errored", "msg"]
    Json.struct "struct" (fun fields => do
      let rank ← Json.field "" names "rank" 0 Json.int32 fields
      let errored ← Json.field "" names "errored" false Json.boolean fields
      let msg ← Json.field "" names "msg" "" Json.string fields
      .ok { rank, errored, msg, pool }) { rank := 0, errored := false, msg := "", pool }
  let response : Json.Decoder (List RankResult) :=
    let names := ["id", "results"]
    Json.struct "struct" (fun fields => do
      let id ← Json.field "" names "id" "" Json.string fields
      Json.field "" names "results" [] (Json.slice "[]struct" (result id)) fields) []
  Json.struct "struct" (fun fields =>
    (Json.field "" ["responses"] "responses" [] (Json.slice "[]struct" response) fields).map
      List.flatten) []

/-- The response carries the per-pool shape. -/
def hasResponses : Json.Decoder Bool :=
  Json.struct "struct" (fun fields =>
    (Json.field "" ["responses"] "responses" []
      (Json.slice "[]struct" fun _ v => .ok v) fields).map fun l => !l.isEmpty) false

/-- The member shape, answered by `exclude`, `reintegrate` and `start`. -/
def decodeMembers : Json.Decoder (List RankResult) :=
  let result : Json.Decoder RankResult :=
    let names := ["Rank", "Errored", "Msg", "state"]
    Json.struct "struct" (fun fields => do
      let rank ← Json.field "" names "Rank" 0 Json.int32 fields
      let errored ← Json.field "" names "Errored" false Json.boolean fields
      let msg ← Json.field "" names "Msg" "" Json.string fields
      let state ← Json.field "" names "state" "" Json.string fields
      .ok { rank, errored, msg, state }) { rank := 0, errored := false, msg := "" }
  Json.struct "struct" (fun fields =>
    Json.field "" ["Results"] "Results" [] (Json.slice "[]struct" result) fields) []

/-- `RankOp`. -/
def rankOp (e : Envelope) : Except String (List RankResult) :=
  if e.empty then .ok []
  else
    let what := "rank operation response"
    match e.unmarshal what hasResponses, e.unmarshal what decodePerPool with
    | .ok true, .ok results => .ok (sortRanks results)
    | _, _ => (e.unmarshal what decodeMembers).map sortRanks

/-! ## Pools -/

/-- One tier of `dmg -j pool query`. -/
structure TierStat where
  total : Int
  free : Int
  deriving DecidableEq

/-- `PoolInfo`; the rank sets are kept as raw text. -/
structure PoolInfo where
  uuid : String
  state : String
  disabledTargets : Int
  rebuildState : String
  tierStats : List TierStat
  enabledRanks : String
  deadRanks : String
  deriving DecidableEq

/-- The sum of two `int64` values. -/
def addInt64 (a b : Int) : Int :=
  (a + b + 9223372036854775808) % 18446744073709551616 - 9223372036854775808

/-- `PoolInfo.Totals`: total and free bytes over all tiers. -/
def PoolInfo.totals (p : PoolInfo) : Int × Int :=
  p.tierStats.foldl (fun acc t => (addInt64 acc.1 t.total, addInt64 acc.2 t.free)) (0, 0)

def decodeTier : Json.Decoder TierStat :=
  let names := ["total", "free", "media_type"]
  Json.struct "struct" (fun fields => do
    let total ← Json.field "" names "total" 0 Json.int64 fields
    let free ← Json.field "" names "free" 0 Json.int64 fields
    let _ ← Json.field "" names "media_type" "" Json.string fields
    .ok ⟨total, free⟩) ⟨0, 0⟩

def decodePoolInfo : Json.Decoder PoolInfo :=
  let names := ["uuid", "label", "state", "total_targets", "active_targets", "disabled_targets",
    "rebuild", "tier_stats", "enabled_ranks", "disabled_ranks", "dead_ranks"]
  let rebuild : Json.Decoder String :=
    Json.struct "struct" (fun fields =>
      Json.field "" ["state"] "state" "" Json.string fields) ""
  Json.struct "dmg.PoolInfo" (fun fields => do
    let uuid ← Json.field "PoolInfo" names "uuid" "" Json.string fields
    let _ ← Json.field "PoolInfo" names "label" "" Json.string fields
    let state ← Json.field "PoolInfo" names "state" "" Json.string fields
    let _ ← Json.field "PoolInfo" names "total_targets" 0 Json.int32 fields
    let _ ← Json.field "PoolInfo" names "active_targets" 0 Json.int32 fields
    let disabled ← Json.field "PoolInfo" names "disabled_targets" 0 Json.int32 fields
    let rebuildState ← Json.field "PoolInfo" names "rebuild" "" rebuild fields
    let tiers ← Json.field "PoolInfo" names "tier_stats" []
      (Json.slice "[]struct" decodeTier) fields
    .ok ⟨uuid, state, disabled, rebuildState, tiers, Json.rawField names "enabled_ranks" fields,
      Json.rawField names "dead_ranks" fields⟩) ⟨"", "", 0, "", [], "", ""⟩

/-- `PoolQuery`. -/
def poolQuery (e : Envelope) : Except String PoolInfo :=
  if e.empty then .error "pool query: empty response"
  else e.unmarshal "pool query response" decodePoolInfo

/-- A property of `dmg -j pool get-prop` with the raw text of its value. -/
def decodeProp : Json.Decoder (String × String) :=
  let names := ["name", "value"]
  Json.struct "struct" (fun fields => do
    let name ← Json.field "" names "name" "" Json.string fields
    .ok (name, Json.rawField names "value" fields)) ("", "")

/-- The text of a property value: a JSON string is unquoted, anything else is shown
as it is. -/
def propText (raw : String) : String :=
  match Json.parse raw with
  | .ok (.str s) => s
  | .ok .null => ""
  | _ => raw

/-- `PoolProp`; `none` when the response does not carry the property. -/
def poolProp (e : Envelope) (name : String) : Except String (Option String) :=
  if e.empty then .error "pool get-prop: empty response"
  else
    (e.unmarshal "pool get-prop response" (Json.slice "[]struct" decodeProp)).map fun props =>
      (props.find? fun p => p.1 = name).map fun p => propText p.2

/-- `%d` of `fmt.Sscanf` into an `int32`: the number and the rest of the text. -/
def scanInt32 (cs : List Char) : Option (Int × List Char) :=
  let cs := cs.dropWhile Text.isSpace
  let (sign, digits) : Int × List Char := match cs with
    | '+' :: rest => (1, rest)
    | '-' :: rest => (-1, rest)
    | rest => (1, rest)
  match Json.takeDigits digits with
  | ([], _) => none
  | (ds, rest) =>
      let i := sign * (Text.digitsValue ds : Int)
      if -2147483648 ≤ i ∧ i ≤ 2147483647 then some (i, rest) else none

/-- The integers from `lo` to `hi`. -/
def intRange (lo hi : Int) : List Int :=
  (List.range (hi - lo + 1).toNat).map fun i => lo + (i : Int)

/-- One part of a rank set: `lo-hi`, a single rank, or nothing.  `none` stands for the
loop over `lo..hi` that never ends, because the counter wraps at the largest rank. -/
def rankPart (part : String) : Option (List Int) :=
  match scanInt32 part.toList with
  | none => some []
  | some (lo, rest) =>
      match rest with
      | '-' :: rest =>
          match scanInt32 rest with
          | some (hi, _) =>
              if lo ≤ hi ∧ hi = 2147483647 then none else some (intRange lo hi)
          | none => some [lo]
      | _ => some [lo]

/-- `Ranks` on a text that is no array. -/
def ranksOfText (s : String) : Option (List Int) :=
  let bracket (c : Char) : Bool := c = '[' || c = ']'
  let body := Text.dropRight bracket ((Text.trimSpace s).toList.dropWhile bracket)
  if body.isEmpty then some []
  else
    ((Text.split (String.ofList body) ',').mapM rankPart).map fun parts =>
      parts.flatten.insertionSort (· ≤ ·)

/-- `Ranks`: a rank set that dmg prints as an array or as a text such as `[0-3,5]`.
`none` when the function does not return. -/
def ranks (raw : String) : Option (List Int) :=
  if raw = "" || raw = "null" then some []
  else
    match Json.parse raw with
    | .error _ => some []
    | .ok v =>
        match Json.slice "[]int32" Json.int32 "value" v with
        | .ok l => some (l.insertionSort (· ≤ ·))
        | .error _ =>
            match v with
            | .str s => ranksOfText s
            | _ => some []

/-- `PoolCreate`: the uuid and the ranks of a new pool. -/
def poolCreate (e : Envelope) : Except String (String × List Int) :=
  if e.empty then .error "pool create: empty response"
  else
    let names := ["uuid", "tgt_ranks"]
    e.unmarshal "pool create response" (Json.struct "struct" (fun fields => do
      let uuid ← Json.field "" names "uuid" "" Json.string fields
      let ranks ← Json.field "" names "tgt_ranks" [] (Json.slice "[]int32" Json.int32) fields
      .ok (uuid, ranks)) ("", []))

/-! ## Containers -/

/-- `ContainerInfo`, with the fields the operator uses. -/
structure ContainerInfo where
  poolUUID : String
  uuid : String
  type : String
  health : String
  deriving DecidableEq

def decodeContainerInfo : Json.Decoder ContainerInfo :=
  let names := ["pool_uuid", "container_uuid", "container_label", "redundancy_factor",
    "container_type", "health", "chunk_size", "dir_object_class", "file_object_class"]
  let text (name : String) := Json.field "ContainerInfo" names name "" Json.string
  Json.struct "dmg.ContainerInfo" (fun fields => do
    let poolUUID ← text "pool_uuid" fields
    let uuid ← text "container_uuid" fields
    let _ ← text "container_label" fields
    let _ ← Json.field "ContainerInfo" names "redundancy_factor" 0 Json.int32 fields
    let type ← text "container_type" fields
    let health ← text "health" fields
    let _ ← Json.field "ContainerInfo" names "chunk_size" 0 Json.int64 fields
    let _ ← text "dir_object_class" fields
    let _ ← text "file_object_class" fields
    .ok ⟨poolUUID, uuid, type, health⟩) ⟨"", "", "", ""⟩

/-- `ContainerQuery`. -/
def containerQuery (e : Envelope) : Except String ContainerInfo :=
  if e.empty then .error "container query: empty response"
  else e.unmarshal "container query response" decodeContainerInfo

/-! ## Ranges -/

theorem Envelope.unmarshal_yields {α : Type} {P : α → Prop} {decode : Json.Decoder α}
    (hdecode : Json.Yields decode P) {e : Envelope} {what : String} {a : α}
    (h : e.unmarshal what decode = .ok a) : P a := by
  unfold Envelope.unmarshal at h
  split at h
  · cases h
  · split at h
    · cases h
    · next b hb =>
        cases h
        exact hdecode _ _ _ hb

/-- The ranks of members are 32-bit integers. -/
theorem yields_decodeMember :
    Json.Yields decodeMember fun m => -2147483648 ≤ m.rank ∧ m.rank ≤ 2147483647 := by
  refine Json.yields_struct _ ?_ (by decide)
  intro fields m h
  cases hrank : Json.field "Member" ["rank", "addr", "state", "fault_domain", "uuid", "info"] "rank"
      0 Json.int32 fields with
  | error e =>
      rw [hrank] at h
      cases h
  | ok rank =>
      rw [hrank] at h
      have hrange : -2147483648 ≤ rank ∧ rank ≤ 2147483647 :=
        Json.field_yields (Json.yields_integer "int32" (by decide)) (by decide) hrank
      simp only [bind, Except.bind] at h
      split at h
      · cases h
      split at h
      · cases h
      split at h
      · cases h
      split at h
      · cases h
      split at h
      · cases h
      cases h
      exact hrange

theorem rank_of_systemQuery {e : Envelope} {members : List Member}
    (h : systemQuery e = .ok members) :
    ∀ m ∈ members, -2147483648 ≤ m.rank ∧ m.rank ≤ 2147483647 := by
  unfold systemQuery at h
  split at h
  · cases h
    simp
  · have hyields : Json.Yields (Json.struct "struct" (fun fields =>
        Json.field "" ["members"] "members" [] (Json.slice "[]dmg.Member" decodeMember) fields) [])
        fun ms => ∀ m ∈ ms, -2147483648 ≤ m.rank ∧ m.rank ≤ 2147483647 := by
      refine Json.yields_struct _ (fun fields ms hms => ?_) (by simp)
      exact Json.field_yields (Json.yields_slice _ yields_decodeMember) (by simp) hms
    cases hms : e.unmarshal "system query response" (Json.struct "struct" (fun fields =>
        Json.field "" ["members"] "members" [] (Json.slice "[]dmg.Member" decodeMember) fields)
        []) with
    | error msg =>
        rw [hms] at h
        cases h
    | ok ms =>
        rw [hms] at h
        cases h
        intro m hm
        exact e.unmarshal_yields hyields hms m ((List.mem_insertionSort _).mp hm)

end DaosOperator.Dmg
