import Mathlib.Data.List.AList

/-!
# `NfsMount.Lib.HashMap`: a map as a list without repeated keys

A `HashMap` is Mathlib's `AList`, which brings `insert`, `lookup` and `erase`. The order of the
entries has no meaning: a map is read by `lookup` and `entries.length` only. This file adds
`retain` and `modify`, and says for each operation what a lookup finds after it.
-/

set_option autoImplicit false

namespace NfsMount.Lib

/-- A map from keys to values. -/
abbrev HashMap (κ ν : Type) := AList fun _ : κ => ν

namespace HashMap

variable {κ ν : Type} [DecidableEq κ]

/-- Keep the entries with `p`. -/
def retain (m : HashMap κ ν) (p : κ → ν → Bool) : HashMap κ ν where
  entries := m.entries.filter fun e => p e.1 e.2
  nodupKeys := m.nodupKeys.sublist List.filter_sublist

/-- Change the value at `k` in place, if there is one. -/
def modify (m : HashMap κ ν) (k : κ) (f : ν → ν) : HashMap κ ν :=
  match m.lookup k with
  | none => m
  | some v => m.insert k (f v)

/-- A key that was inserted has its new value. -/
theorem lookup_insert_eq (m : HashMap κ ν) (k k' : κ) (v : ν) :
    (m.insert k v).lookup k' = if k' = k then some v else m.lookup k' := by
  by_cases h : k' = k
  · rw [if_pos h, h, AList.lookup_insert]
  · rw [if_neg h, AList.lookup_insert_ne h]

/-- A key that was erased has none. -/
theorem lookup_erase_eq (m : HashMap κ ν) (k k' : κ) :
    (m.erase k).lookup k' = if k' = k then none else m.lookup k' := by
  by_cases h : k' = k
  · rw [if_pos h, h, AList.lookup_erase]
  · rw [if_neg h, AList.lookup_erase_ne h]

/-- A value that was modified. -/
theorem lookup_modify (m : HashMap κ ν) (k k' : κ) (f : ν → ν) :
    (m.modify k f).lookup k' = if k' = k then (m.lookup k').map f else m.lookup k' := by
  rw [modify]
  by_cases h : k' = k
  · rw [if_pos h, h]
    cases hk : m.lookup k with
    | none => exact hk
    | some v => exact AList.lookup_insert m
  · rw [if_neg h]
    cases m.lookup k with
    | none => rfl
    | some v => exact AList.lookup_insert_ne h

/-- A key is in the map at most once, so an entry that is dropped uncovers no other. -/
theorem lookup_retain (m : HashMap κ ν) (p : κ → ν → Bool) (k : κ) :
    (m.retain p).lookup k = (m.lookup k).filter (p k) := by
  ext v
  rw [Option.filter_eq_some_iff, ← Option.mem_def, ← Option.mem_def, AList.mem_lookup_iff,
    AList.mem_lookup_iff]
  exact List.mem_filter

end HashMap

end NfsMount.Lib
