import DaosOperator.JobName
import DaosOperator.System.RankOp

/-!
# The Jobs of a `DaosPool`

What a pool is created with, how its spec compares to the pool that exists, and
the Job for each of its operations.  A Job is built from the spec alone, so that a
poll after a restart of the operator finds the same one.
-/

namespace DaosOperator.Pool

open Effect

def poolLabel (pool : DaosPool) : String := pool.name

/-- `poolKey`: the key of the probe hold. -/
def poolKey (name : String) : String := "pool/" ++ name

def aclHash (entries : List String) : String :=
  if entries.isEmpty then "" else Sha256.hex 2 (Text.join entries "\n")

def ranksCSV (ranks : List Int) : String := Text.join (ranks.map toString) ","

def missingRanks (want have_ : List Int) : List Int :=
  ((want.filter (· ∉ have_)).dedup).insertionSort (· ≤ ·)

/-! ## Properties -/

def pinnedReintegration (pool : DaosPool) : Option String :=
  match lookupKey pool.spec.properties "reintegration" with
  | some m => some m
  | none => if redundancyFactor pool = 0 then some "incremental" else none

def reintegrationMode (pool : DaosPool) : String := (pinnedReintegration pool).getD "data_sync"

def pinnedSelfHeal (pool : DaosPool) : Option String :=
  if pool.spec.profile = profileKVCache ∧ kvcacheRedundancy pool = "none" then some "none" else none

/-- The conversion to `int64`. -/
def toInt64 (i : Int) : Int :=
  (i + 9223372036854775808) % 18446744073709551616 - 9223372036854775808

def minMetaPerTarget : Int := 134217728

/-- The arithmetic of `kvcacheTierRatio`. -/
def ratioOf (ranks : Nat) (perRank size : Int) : Int :=
  if ranks = 0 ∨ perRank = 0 ∨ size ≤ 0 then 0
  else
    let need := toInt64 (toInt64 (toInt64 (minMetaPerTarget * ranks) * perRank) * 100)
    let pct := (toInt64 (need + size - 1)).tdiv size
    if pct ≤ 6 ∨ 100 ≤ pct then 0 else pct

/-- `kvcacheTierRatio`; 0 leaves the default of DAOS alone. -/
def kvcacheTierRatio (pool : DaosPool) (sys : DaosSystem) : Int :=
  let ranks := if pool.spec.ranks.isEmpty then sys.status.ranks.length else pool.spec.ranks.length
  let perRank := sys.spec.engines.foldl (fun m e => if m < e.targets then e.targets else m) 0
  ratioOf ranks perRank pool.spec.size

/-! ## Jobs -/

/-- The Jobs of a pool: the query, and one for each operation. -/
inductive PoolJob where
  | query
  | op (operation : Operation)
  deriving DecidableEq

/-- The last part of a Job's name. -/
def PoolJob.text : PoolJob → String
  | query => "query"
  | op o => o.text

def jobKey (name ns : String) (job : PoolJob) : ObjectKey :=
  ⟨ns, jobName "pool" name ("dmg-" ++ job.text)⟩

def poolQueryTimeout : Nat := 60
def destroyDeadlineSeconds : Nat := 240

/-- The `-P` list of a create: `rd_fac`, the spec's properties by name, and the pinned
reintegration mode. -/
def createProperties (pool : DaosPool) : List String :=
  let props := pool.spec.properties.insertionSort fun a b => a.1 ≤ b.1
  ["rd_fac:" ++ toString (redundancyFactor pool)] ++
    props.map (fun kv => kv.1 ++ ":" ++ kv.2) ++
    (if (lookupKey pool.spec.properties "reintegration").isNone ∧
        reintegrationMode pool = "incremental" then ["reintegration:incremental"] else [])

/-- The words of `dmg pool create`. -/
def createArgs (pool : DaosPool) (sys : DaosSystem) : List String :=
  let ratio := kvcacheTierRatio pool sys
  ["pool", "create", "-z", toString pool.spec.size ++ "B", "-P",
    Text.join (createProperties pool) ","] ++
    (match pool.spec.memRatioPercent with
      | some r => ["--mem-ratio=" ++ toString r ++ "%"]
      | none => []) ++
    (if pool.spec.profile = profileKVCache ∧ 0 < ratio then
      ["--tier-ratio=" ++ toString ratio] else []) ++
    (if pool.spec.ranks.isEmpty then [] else ["-r", ranksCSV pool.spec.ranks]) ++
    (if pool.spec.acl.isEmpty then [] else ["-a", Dmg.aclFilePath]) ++ [poolLabel pool]

def jobCommand (pool : DaosPool) (sys : DaosSystem) : PoolJob → Dmg.Command
  | .query =>
      .dmg ["pool", "query", "--show-enabled", poolLabel pool]
        ["pool", "get-prop", poolLabel pool, "reintegration,self_heal"] poolQueryTimeout
        ["pool", "query", "-t", "--show-enabled", poolLabel pool]
  | .op .create => .dmgWithACL pool.spec.acl (createArgs pool sys)
  | .op .extend =>
      .dmg ["pool", "extend",
        "--ranks=" ++ ranksCSV (missingRanks pool.spec.ranks pool.status.enabledRanks),
        poolLabel pool]
  | .op .reintMode =>
      .dmg ["pool", "set-prop", poolLabel pool,
        "reintegration:" ++ (pinnedReintegration pool).getD ""]
  | .op .selfHeal =>
      .dmg ["pool", "set-prop", poolLabel pool, "self_heal:" ++ (pinnedSelfHeal pool).getD ""]
  | .op .acl =>
      .dmgWithACL pool.spec.acl ["pool", "overwrite-acl", "-a", Dmg.aclFilePath, poolLabel pool]
  | .op .destroy => .dmg ["pool", "destroy", "--recursive", poolLabel pool]
  -- no operation of a pool
  | .op .heal => .dmg []

def opSpec (pool : DaosPool) (sys : DaosSystem) (ns : String) (job : PoolJob) : Dmg.RunSpec where
  owner := .pool pool.name
  key := jobKey pool.name ns job
  image := sys.spec.images.admin
  controlConfigMap := sys.name ++ "-control"
  command := jobCommand pool sys job
  nodeSelector := sys.spec.nodeSelector
  labels := [("daos.gluesys.com/system", sys.name), ("daos.gluesys.com/pool", pool.name)]
  deadlineSeconds := if job = .op .destroy then destroyDeadlineSeconds else 0
  certsSecret := System.adminCertsSecret sys

end DaosOperator.Pool
