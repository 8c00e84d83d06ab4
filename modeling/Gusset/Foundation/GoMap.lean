import Mathlib

/-! Go's built-in map: finitely many keys, each with a value. -/
namespace Gusset.Foundation

/-- A map from `K` to `V`. The value of an absent key is never read. -/
structure GoMap (K : Type u) (V : Type v) where
  keys : Finset K
  val : K → V

namespace GoMap

variable {K : Type u} {V : Type v} {W : Type w} [DecidableEq K]

/-- `v, ok := m[k]`. -/
def lookup (m : GoMap K V) (k : K) : Option V :=
  if k ∈ m.keys then some (m.val k) else none

/-- `m[k] = v`. -/
def insert (m : GoMap K V) (k : K) (v : V) : GoMap K V :=
  ⟨Insert.insert k m.keys, Function.update m.val k v⟩

/-- `delete(m, k)`. -/
def erase (m : GoMap K V) (k : K) : GoMap K V := ⟨m.keys.erase k, m.val⟩

/-- `make(map[K]V)`, written over a map whose values are no longer reachable. -/
def clear (m : GoMap K V) : GoMap K V := ⟨∅, m.val⟩

/-- Every value replaced, as a loop over the map does. -/
def mapVal (m : GoMap K V) (f : V → W) : GoMap K W := ⟨m.keys, fun k => f (m.val k)⟩

/-- `len(m)`. -/
def len (m : GoMap K V) : Nat := m.keys.card

@[simp] theorem lookup_insert (m : GoMap K V) (k j : K) (v : V) :
    (m.insert k v).lookup j = if j = k then some v else m.lookup j := by
  by_cases same : j = k <;> simp [lookup, insert, same]

@[simp] theorem lookup_erase (m : GoMap K V) (k j : K) :
    (m.erase k).lookup j = if j = k then none else m.lookup j := by
  by_cases same : j = k <;> simp [lookup, erase, same]

@[simp] theorem lookup_clear (m : GoMap K V) (j : K) : m.clear.lookup j = none := by
  simp [lookup, clear]

@[simp] theorem lookup_mapVal (m : GoMap K V) (f : V → W) (j : K) :
    (m.mapVal f).lookup j = (m.lookup j).map f := by
  by_cases present : j ∈ m.keys <;> simp [lookup, mapVal, present]

@[simp] theorem keys_insert (m : GoMap K V) (k : K) (v : V) :
    (m.insert k v).keys = Insert.insert k m.keys := rfl

@[simp] theorem keys_erase (m : GoMap K V) (k : K) : (m.erase k).keys = m.keys.erase k := rfl

omit [DecidableEq K] in
@[simp] theorem keys_clear (m : GoMap K V) : m.clear.keys = ∅ := rfl

theorem mem_keys (m : GoMap K V) (k : K) : k ∈ m.keys ↔ (m.lookup k).isSome := by
  by_cases present : k ∈ m.keys <;> simp [lookup, present]

theorem mem_keys_of_lookup {m : GoMap K V} {k : K} {v : V} (found : m.lookup k = some v) :
    k ∈ m.keys := by
  simp [mem_keys, found]

theorem lookup_eq_none {m : GoMap K V} {k : K} : m.lookup k = none ↔ k ∉ m.keys := by
  by_cases present : k ∈ m.keys <;> simp [lookup, present]

end GoMap

end Gusset.Foundation
