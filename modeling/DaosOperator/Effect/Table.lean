import Mathlib.Data.List.Nodup
import Mathlib.Logic.Function.Basic

/-!
# Finite tables and watched cells

A table is a partial function together with a list of keys that covers its
domain, so that it can be looked up like a function and still be listed.

A watched cell is an object of a server as seen through a cache: readers of the
cache may see an older version, they see the versions in order, and they catch
up when the cache is delivered the next one.
-/

namespace Effect

/-- A partial function with finitely many keys. -/
structure Table (K V : Type) where
  get : K → Option V
  keys : List K
  nodup : keys.Nodup
  covers : ∀ k v, get k = some v → k ∈ keys

namespace Table

variable {K V : Type}

/-- The table without entries. -/
def empty : Table K V where
  get _ := none
  keys := []
  nodup := List.nodup_nil
  covers := by simp

instance : Inhabited (Table K V) := ⟨empty⟩

@[simp] theorem get_empty (k : K) : (empty : Table K V).get k = none := rfl

variable [DecidableEq K]

/-- The keys after a write to `k`. -/
def addKey (k : K) (ks : List K) : List K :=
  if k ∈ ks then ks else ks ++ [k]

theorem mem_addKey {k k' : K} {ks : List K} :
    k' ∈ addKey k ks ↔ k' ∈ ks ∨ k' = k := by
  unfold addKey
  split
  · next h =>
      constructor
      · exact Or.inl
      · rintro (h' | rfl)
        · exact h'
        · exact h
  · simp

theorem nodup_addKey {k : K} {ks : List K} (h : ks.Nodup) : (addKey k ks).Nodup := by
  unfold addKey
  split
  · exact h
  · next hk => exact List.Nodup.append h (List.nodup_singleton k) (by simpa using hk)

/-- Write or, with `none`, erase the entry of `k`. -/
def put (t : Table K V) (k : K) (v : Option V) : Table K V where
  get := Function.update t.get k v
  keys := addKey k t.keys
  nodup := nodup_addKey t.nodup
  covers := by
    intro k' v' h
    rw [mem_addKey]
    by_cases hk : k' = k
    · exact Or.inr hk
    · rw [Function.update_of_ne hk] at h
      exact Or.inl (t.covers k' v' h)

@[simp] theorem get_put_self (t : Table K V) (k : K) (v : Option V) :
    (t.put k v).get k = v := Function.update_self ..

theorem get_put_of_ne (t : Table K V) {k k' : K} (h : k' ≠ k) (v : Option V) :
    (t.put k v).get k' = t.get k' := Function.update_of_ne h ..

theorem get_put (t : Table K V) (k k' : K) (v : Option V) :
    (t.put k v).get k' = if k' = k then v else t.get k' := by
  split
  · next h => rw [h, get_put_self]
  · next h => exact get_put_of_ne t h v

/-- Keep the entries whose key satisfies `p`. -/
def restrict (t : Table K V) (p : K → Bool) : Table K V where
  get k := if p k then t.get k else none
  keys := t.keys
  nodup := t.nodup
  covers := by
    intro k v h
    split at h
    · exact t.covers k v h
    · cases h

/-- All entries, in key order. -/
def entries (t : Table K V) : List (K × V) :=
  t.keys.filterMap fun k => (t.get k).map fun v => (k, v)

omit [DecidableEq K] in
theorem mem_entries {t : Table K V} {k : K} {v : V} :
    (k, v) ∈ t.entries ↔ t.get k = some v := by
  simp only [entries, List.mem_filterMap, Option.map_eq_some_iff, Prod.mk.injEq]
  constructor
  · rintro ⟨k', _, v', hv, rfl, rfl⟩
    exact hv
  · intro h
    exact ⟨k, t.covers k v h, v, h, rfl, rfl⟩

end Table

/-! ## Watched cells -/

/-- The current version of an object and the versions the cache still has in
front of it, oldest first. -/
structure Watched (α : Type) where
  stored : Option α
  behind : List (Option α)

namespace Watched

variable {α : Type}

/-- No object, and the cache knows it. -/
def vacant : Watched α := ⟨none, []⟩

instance : Inhabited (Watched α) := ⟨vacant⟩

/-- What a reader of the cache sees. -/
def cached (c : Watched α) : Option α := c.behind.headD c.stored

/-- Every version a reader can still see. -/
def versions (c : Watched α) : List (Option α) := c.behind ++ [c.stored]

/-- A new version; the cache falls behind. -/
def write (c : Watched α) (a : Option α) : Watched α := ⟨a, c.behind ++ [c.stored]⟩

/-- The cache is delivered its next version. -/
def deliver (c : Watched α) : Watched α := ⟨c.stored, c.behind.tail⟩

theorem cached_mem_versions (c : Watched α) : c.cached ∈ c.versions := by
  unfold cached versions
  cases c.behind <;> simp

theorem stored_mem_versions (c : Watched α) : c.stored ∈ c.versions := by
  simp [versions]

theorem mem_versions_write {c : Watched α} {a x : Option α} :
    x ∈ (c.write a).versions ↔ x ∈ c.versions ∨ x = a := by
  simp [versions, write, or_assoc]

theorem versions_deliver_subset (c : Watched α) {x : Option α}
    (hx : x ∈ c.deliver.versions) : x ∈ c.versions := by
  simp only [versions, deliver, List.mem_append] at hx ⊢
  exact hx.imp_left List.mem_of_mem_tail

end Watched
end Effect
