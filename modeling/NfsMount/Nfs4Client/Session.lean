import Mathlib.Data.List.Basic
import NfsMount.Nfs4Types.Base

/-!
# `NfsMount.Nfs4Client.Session`: the slot table

The model of `nfs4-client/src/session.rs`. The table sits behind a mutex, so an allocation
and a release are each one step. In both, `none` stands for a panic: of the arithmetic, in a
build that checks it, or of an index out of range. The lock is not poisoned by a panic, and
the table stays as it is at that point: an allocation has not changed it then, and a release
has already cleared the flag of the slot. So `releaseSlot` returns a table also when it panics.

The two vectors are made with one entry a slot, from a 32-bit count, and never change their
lengths. The table carries that, so a slot number has the same meaning in both of them and
as a 32-bit slot id.
-/

set_option autoImplicit false

namespace NfsMount.Nfs4Client

open NfsMount.Lib NfsMount.Nfs4Types

/-- An entry of a list with one element added: an old one, or the new one at the end. -/
theorem getElem?_concat_eq_some {α : Type} {l : List α} {a b : α} {i : Nat} :
    (l ++ [a])[i]? = some b ↔ l[i]? = some b ∨ i = l.length ∧ b = a := by
  rcases Nat.lt_trichotomy i l.length with hlt | rfl | hgt
  · rw [List.getElem?_append_left hlt]
    exact ⟨.inl, fun h => h.resolve_right fun heq => absurd heq.1 (Nat.ne_of_lt hlt)⟩
  · simp [eq_comm]
  · have hlen : (l ++ [a]).length ≤ i := by
      rw [List.length_append]
      exact hgt
    rw [List.getElem?_eq_none hlen, List.getElem?_eq_none (Nat.le_of_lt hgt)]
    simp [Nat.ne_of_gt hgt]

/-- The slots of a session: a sequence id and a flag for each of them. -/
structure SlotTable where
  /-- Next sequence id for each slot. -/
  sequenceIds : List UInt32
  /-- Whether each slot is currently in use. -/
  inUse : List Bool
  length_eq : sequenceIds.length = inUse.length
  length_lt : inUse.length < 2 ^ 32

/-- What `try_alloc_slot` returns for a slot: `(slot_id, sequence_id, highest_slot_id)`. -/
structure AllocatedSlot where
  slotId : SlotId4
  sequenceId : SequenceId4
  highestSlotId : SlotId4
deriving DecidableEq

namespace SlotTable

/-- Sequence ids start at 1. -/
def new (maxSlots : UInt32) : SlotTable where
  sequenceIds := List.replicate maxSlots.toNat 1
  inUse := List.replicate maxSlots.toNat false
  length_eq := by rw [List.length_replicate, List.length_replicate]
  length_lt := by
    rw [List.length_replicate]
    exact maxSlots.toNat_lt

/-- The table with the slot `i` taken. -/
def take (t : SlotTable) (i : Nat) : SlotTable where
  sequenceIds := t.sequenceIds
  inUse := t.inUse.set i true
  length_eq := by rw [List.length_set, t.length_eq]
  length_lt := by rw [List.length_set]; exact t.length_lt

/-- The table with the slot `i` free, and its sequence id as it was. -/
def clear (t : SlotTable) (i : Nat) : SlotTable where
  sequenceIds := t.sequenceIds
  inUse := t.inUse.set i false
  length_eq := by rw [List.length_set, t.length_eq]
  length_lt := by rw [List.length_set]; exact t.length_lt

/-- The table with the slot `i` free and its next sequence id `seq`. -/
def free (t : SlotTable) (i : Nat) (seq : UInt32) : SlotTable where
  sequenceIds := t.sequenceIds.set i seq
  inUse := t.inUse.set i false
  length_eq := by rw [List.length_set, List.length_set, t.length_eq]
  length_lt := by rw [List.length_set]; exact t.length_lt

/-- Allocate a slot for a new request: the first one that is not in use, if there is one. -/
def tryAllocSlot (m : Build) (t : SlotTable) : Option (Option AllocatedSlot × SlotTable) := do
  -- `in_use.len() - 1`, which is computed before the search, also for a table without slots.
  let highest ← m.subU64 (UInt64.ofNat t.inUse.length) 1
  match t.inUse.findIdx? (!·) with
  | none => some (none, t)
  | some i =>
      let seqId ← t.sequenceIds[i]?
      some (some ⟨UInt32.ofNat i, seqId, highest.toUInt32⟩, t.take i)

/-- Release a slot after the request completes, incrementing its sequence id. -/
def releaseSlot (m : Build) (t : SlotTable) (slotId : SlotId4) : Option Unit × SlotTable :=
  let idx := slotId.toNat
  if idx < t.inUse.length then
    -- `+= 1`, which a checked build does not let wrap. The flag is cleared before it.
    match t.sequenceIds[idx]?.bind fun seqId => m.addU32 seqId 1 with
    | none => (none, t.clear idx)
    | some next => (some (), t.free idx next)
  else
    -- A slot id that is out of range is ignored.
    (some (), t)

/-- The table behind a release that returns. -/
def released (m : Build) (t : SlotTable) (slotId : SlotId4) : Option SlotTable :=
  (t.releaseSlot m slotId).1.map fun _ => (t.releaseSlot m slotId).2

/-! ### The two vectors -/

variable {m : Build} {t t' : SlotTable} {i : Nat}

/-- A new table has all its slots free, with the sequence id 1. -/
theorem inUse_new {maxSlots : UInt32} {busy : Bool} :
    (new maxSlots).inUse[i]? = some busy ↔ i < maxSlots.toNat ∧ busy = false := by
  simp [new, List.getElem?_replicate, eq_comm]

/-- Every slot starts with the id 1. -/
theorem sequenceIds_new {maxSlots : UInt32} (h : i < maxSlots.toNat) :
    (new maxSlots).sequenceIds[i]? = some 1 := by
  simp [new, h]

/-- The slot is in use, and the others are as they were. -/
theorem inUse_take (h : i < t.inUse.length) (j : Nat) :
    (t.take i).inUse[j]? = if i = j then some true else t.inUse[j]? := by
  simp only [take, List.getElem?_set, if_pos h]

/-- The slot is free, and the others are as they were. -/
theorem inUse_free (h : i < t.inUse.length) (seq : UInt32) (j : Nat) :
    (t.free i seq).inUse[j]? = if i = j then some false else t.inUse[j]? := by
  simp only [free, List.getElem?_set, if_pos h]

/-- The slot has its next id, and the others have theirs. -/
theorem sequenceIds_free (h : i < t.inUse.length) (seq : UInt32) (j : Nat) :
    (t.free i seq).sequenceIds[j]? = if i = j then some seq else t.sequenceIds[j]? := by
  simp only [free, List.getElem?_set, t.length_eq, if_pos h]

/-- What is in use is a slot. -/
theorem lt_length {busy : Bool} (h : t.inUse[i]? = some busy) : i < t.inUse.length :=
  (List.getElem?_eq_some_iff.mp h).1

/-! ### What the operations do -/

/-- The first slot that is not in use. -/
theorem findIdx?_eq_some (h : t.inUse.findIdx? (!·) = some i) :
    i < t.inUse.length ∧ t.inUse[i]? = some false ∧ ∀ j < i, t.inUse[j]? = some true := by
  obtain ⟨hi, hfree, hbefore⟩ := List.findIdx?_eq_some_iff_getElem.mp h
  refine ⟨hi, ?_, fun j hj => ?_⟩
  · rw [List.getElem?_eq_getElem hi, Option.some.injEq]
    simpa using hfree
  · rw [List.getElem?_eq_getElem (Nat.lt_trans hj hi), Option.some.injEq]
    simpa using hbefore j hj

/-- No slot is free. -/
theorem findIdx?_eq_none (h : t.inUse.findIdx? (!·) = none) :
    ∀ i < t.inUse.length, t.inUse[i]? = some true := by
  intro i hi
  rw [List.getElem?_eq_getElem hi, Option.some.injEq]
  simpa using List.findIdx?_eq_none_iff.mp h _ (List.getElem_mem hi)

/-- The highest slot id of a table with slots. -/
theorem highest_eq (h : 0 < t.inUse.length) :
    ∃ highest, m.subU64 (UInt64.ofNat t.inUse.length) 1 = some highest ∧
      highest.toUInt32.toNat = t.inUse.length - 1 := by
  have hlt := t.length_lt
  -- The length comes from a 32-bit count, so both conversions keep it.
  have hlen : (UInt64.ofNat t.inUse.length).toNat = t.inUse.length :=
    UInt64.toNat_ofNat_of_lt' (Nat.lt_trans hlt (by decide))
  have hle : (1 : UInt64) ≤ UInt64.ofNat t.inUse.length := by
    rw [UInt64.le_iff_toNat_le, hlen]
    exact h
  refine ⟨_, Build.subU64_of_le m hle, ?_⟩
  rw [UInt64.toNat_toUInt32, UInt64.toNat_sub_of_le _ _ hle, hlen]
  exact Nat.mod_eq_of_lt (by show _ - 1 < _; omega)

/-- An allocation in a table with slots, when the first free one is `i`. -/
theorem tryAllocSlot_of_some (h : t.inUse.findIdx? (!·) = some i) :
    ∃ slot, t.tryAllocSlot m = some (some slot, t.take i) ∧ slot.slotId.toNat = i ∧
      t.sequenceIds[i]? = some slot.sequenceId ∧
      slot.highestSlotId.toNat = t.inUse.length - 1 := by
  have hi := (findIdx?_eq_some h).1
  have hlt := t.length_lt
  obtain ⟨highest, hsub, hhighest⟩ := t.highest_eq (m := m) (Nat.zero_lt_of_lt hi)
  have hseq := List.getElem?_eq_getElem (t.length_eq ▸ hi : i < t.sequenceIds.length)
  refine ⟨⟨UInt32.ofNat i, _, highest.toUInt32⟩, ?_, ?_, hseq, hhighest⟩
  · simp only [tryAllocSlot, hsub, h, hseq, Option.bind_eq_bind, Option.bind_some]
  · exact UInt32.toNat_ofNat_of_lt' (Nat.lt_trans hi hlt)

/-- An allocation that returns a slot: it was free, all the slots before it are in use, and
its sequence id is the one the table holds. -/
theorem tryAllocSlot_eq_slot {slot : AllocatedSlot}
    (h : t.tryAllocSlot m = some (some slot, t')) :
    t.inUse[slot.slotId.toNat]? = some false ∧
      (∀ j < slot.slotId.toNat, t.inUse[j]? = some true) ∧
      t.sequenceIds[slot.slotId.toNat]? = some slot.sequenceId ∧
      slot.highestSlotId.toNat = t.inUse.length - 1 ∧
      t' = t.take slot.slotId.toNat := by
  cases hfind : t.inUse.findIdx? (!·) with
  | none =>
      rw [tryAllocSlot, hfind] at h
      cases hsub : m.subU64 (UInt64.ofNat t.inUse.length) 1 <;> simp [hsub] at h
  | some i =>
      obtain ⟨slot', halloc, rfl, hseq, hhighest⟩ := tryAllocSlot_of_some (m := m) hfind
      obtain ⟨rfl, rfl⟩ : slot' = slot ∧ t.take slot'.slotId.toNat = t' := by
        simpa [halloc] using h
      obtain ⟨-, hfree, hbefore⟩ := findIdx?_eq_some hfind
      exact ⟨hfree, hbefore, hseq, hhighest, rfl⟩

/-- An allocation that returns no slot: all of them are in use. -/
theorem tryAllocSlot_eq_none (h : t.tryAllocSlot m = some (none, t')) :
    t' = t ∧ ∀ i < t.inUse.length, t.inUse[i]? = some true := by
  cases hfind : t.inUse.findIdx? (!·) with
  | none =>
      refine ⟨?_, findIdx?_eq_none hfind⟩
      rw [tryAllocSlot, hfind] at h
      cases hsub : m.subU64 (UInt64.ofNat t.inUse.length) 1 with
      | none => simp [hsub] at h
      | some highest => simpa [hsub, eq_comm] using h
  | some i =>
      obtain ⟨slot, halloc, -⟩ := tryAllocSlot_of_some (m := m) hfind
      simp [halloc] at h

/-- An allocation in a table with slots does not panic. -/
theorem tryAllocSlot_isSome (h : 0 < t.inUse.length) : (t.tryAllocSlot m).isSome := by
  cases hfind : t.inUse.findIdx? (!·) with
  | none =>
      obtain ⟨highest, hsub, -⟩ := t.highest_eq (m := m) h
      simp [tryAllocSlot, hsub, hfind]
  | some i =>
      obtain ⟨slot, halloc, -⟩ := tryAllocSlot_of_some (m := m) hfind
      rw [halloc]
      rfl

/-- A slot id that is out of range is ignored. -/
theorem released_of_le {slotId : SlotId4} (h : t.inUse.length ≤ slotId.toNat) :
    t.released m slotId = some t := by
  simp only [released, releaseSlot, if_neg (Nat.not_lt_of_le h), Option.map_some]

/-- What a release does to a slot of the table that holds `seqId`. -/
theorem releaseSlot_of_lt {slotId : SlotId4} {seqId : UInt32}
    (hlt : slotId.toNat < t.inUse.length) (hseq : t.sequenceIds[slotId.toNat]? = some seqId) :
    t.releaseSlot m slotId =
      match m.addU32 seqId 1 with
      | none => (none, t.clear slotId.toNat)
      | some next => (some (), t.free slotId.toNat next) := by
  simp only [releaseSlot, if_pos hlt, hseq, Option.bind_some]

/-- A release of a slot counts its id, if that does not overflow. -/
theorem released_of_lt {slotId : SlotId4} {seqId : UInt32}
    (hlt : slotId.toNat < t.inUse.length) (hseq : t.sequenceIds[slotId.toNat]? = some seqId) :
    t.released m slotId = (m.addU32 seqId 1).map fun next => t.free slotId.toNat next := by
  rw [released, releaseSlot_of_lt hlt hseq]
  cases m.addU32 seqId 1 <;> rfl

/-- In a release build, a release of a slot of the table does not panic. -/
theorem released_release_isSome {slotId : SlotId4} (hlt : slotId.toNat < t.inUse.length) :
    (t.released .release slotId).isSome := by
  have hseq := List.getElem?_eq_getElem (t.length_eq ▸ hlt : slotId.toNat < t.sequenceIds.length)
  rw [released_of_lt hlt hseq]
  rfl

/-- A release of a slot of the table. -/
theorem released_eq_some {slotId : SlotId4} (hlt : slotId.toNat < t.inUse.length)
    (h : t.released m slotId = some t') :
    ∃ seqId, t.sequenceIds[slotId.toNat]? = some seqId ∧
      t' = t.free slotId.toNat (seqId + 1) := by
  have hseq := List.getElem?_eq_getElem (t.length_eq ▸ hlt : slotId.toNat < t.sequenceIds.length)
  refine ⟨_, hseq, ?_⟩
  rw [released_of_lt hlt hseq] at h
  obtain ⟨next, hnext, rfl⟩ := Option.map_eq_some_iff.mp h
  rw [← Build.addU32_eq_some hnext]

/-- Whether it returns or panics, a release leaves the flags as they are with the slot cleared. -/
theorem inUse_releaseSlot {slotId : SlotId4} :
    (t.releaseSlot m slotId).2.inUse = t.inUse.set slotId.toNat false := by
  simp only [releaseSlot]
  split
  · split <;> rfl
  · exact (List.set_eq_of_length_le (Nat.le_of_not_lt ‹_›)).symm

end SlotTable

end NfsMount.Nfs4Client
