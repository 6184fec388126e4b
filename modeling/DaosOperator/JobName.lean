import DaosOperator.Sha256
import DaosOperator.Text

/-!
# Names of pool and container Jobs

A Job's name becomes a label value and must not exceed 63 characters: a long owner
is cut and marked with a hash of its full key.  Keys are Kubernetes names, so
characters and bytes are the same.
-/

namespace DaosOperator

/-- `strings.ReplaceAll(key, "/", "-")`. -/
def flatKey (key : String) : String := Text.replaceChar '/' "-" key

/-- The hash that marks a shortened key. -/
def keyId (key : String) : String := Sha256.hex 1 key

/-- The first `keep` characters of a flat key, without trailing dashes. -/
def shortKey (keep : Nat) (flat : String) : String :=
  if keep < flat.length then String.ofList (Text.dropRight (· = '-') (flat.toList.take keep))
  else flat

def jobName (kind key op : String) : String :=
  let full := kind ++ "-" ++ flatKey key ++ "-" ++ op
  if full.length ≤ 63 then full
  else
    let id := keyId key
    let used := kind.length + 1 + id.length + 1 + op.length + 1
    if 63 < used + 1 then kind ++ "-" ++ id ++ "-" ++ op
    else kind ++ "-" ++ shortKey (63 - used) (flatKey key) ++ "-" ++ id ++ "-" ++ op

/-- Every Job name ends in its operation. -/
theorem jobName_eq_append (kind key op : String) :
    ∃ stem, jobName kind key op = stem ++ ("-" ++ op) := by
  unfold jobName
  extract_lets full id used
  split
  · exact ⟨kind ++ "-" ++ flatKey key, by simp only [full, String.append_assoc]⟩
  · split
    · exact ⟨kind ++ "-" ++ id, by simp only [String.append_assoc]⟩
    · exact ⟨kind ++ "-" ++ shortKey (63 - used) (flatKey key) ++ "-" ++ id, by
        simp only [String.append_assoc]⟩

end DaosOperator
