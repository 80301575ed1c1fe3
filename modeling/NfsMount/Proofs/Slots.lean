import NfsMount.Lib.Run
import NfsMount.Nfs4Client.Session

/-!
# `NfsMount.Proofs.Slots`: a slot has one user at a time

The runs of one slot table. Any number of users allocate slots, and a user releases a slot
that it holds. A run records who holds which slot, and what the allocations returned.

The invariant relates the two vectors of the table to that record. A slot is in use exactly
when some user holds it, and its next sequence id counts the allocations of the slot.
`slots_exclusive` reads off it what holds in every state of every run, and what the next
allocation will return. Arithmetic wraps here, as in a release build.
-/

set_option autoImplicit false

namespace NfsMount.Nfs4Client

open NfsMount.Lib NfsMount.Nfs4Types

/-- The users of slots are numbered. -/
abbrev User := Nat

/-- A slot table with its users, and what has been allocated so far. -/
structure SlotUse where
  table : SlotTable
  holds : User → SlotId4 → Bool
  allocated : List AllocatedSlot

/-- What a user can do. -/
inductive SlotEvent where
  | alloc (user : User)
  | release (user : User) (slotId : SlotId4)

namespace SlotUse

/-- A new session: no user holds a slot. -/
def new (maxSlots : UInt32) : SlotUse where
  table := SlotTable.new maxSlots
  holds := fun _ _ => false
  allocated := []

/-- An allocation may return no slot. Only a slot that the user holds is released. -/
def step (s : SlotUse) : SlotEvent → Option SlotUse
  | .alloc user =>
      match s.table.tryAllocSlot .release with
      | none => none
      | some (none, table) => some { s with table }
      | some (some slot, table) => some
          { table
            holds := fun v id => (v == user && id == slot.slotId) || s.holds v id
            allocated := s.allocated ++ [slot] }
  | .release user slotId =>
      if s.holds user slotId then
        match s.table.released .release slotId with
        | none => none
        | some table => some { s with
            table, holds := fun v id => !(v == user && id == slotId) && s.holds v id }
      else
        none

/-- Some user holds the slot. -/
def Held (s : SlotUse) (slotId : SlotId4) : Prop := ∃ user, s.holds user slotId = true

/-- The allocations of one slot, in order. -/
def allocationsOf (s : SlotUse) (slotId : SlotId4) : List AllocatedSlot :=
  s.allocated.filter (·.slotId = slotId)

/-! ### The invariant -/

/-- The table, the users and the allocations agree. -/
structure Inv (slots : Nat) (s : SlotUse) : Prop where
  length : s.table.inUse.length = slots
  exclusive : ∀ u v slotId, s.holds u slotId = true → s.holds v slotId = true → u = v
  held : ∀ slotId, s.table.inUse[slotId.toNat]? = some true ↔ s.Held slotId
  /-- The next sequence id of a slot in use is still the one of its last allocation. -/
  next : ∀ slotId busy, s.table.inUse[slotId.toNat]? = some busy →
    s.table.sequenceIds[slotId.toNat]? =
      some (UInt32.ofNat ((s.allocationsOf slotId).length + (!busy).toNat))
  ids : ∀ slotId i slot, (s.allocationsOf slotId)[i]? = some slot →
    slot.sequenceId = UInt32.ofNat (i + 1)
  highest : ∀ slot ∈ s.allocated, slot.slotId.toNat ≤ slot.highestSlotId.toNat ∧
    slot.highestSlotId.toNat = slots - 1

variable {slots : Nat} {s s' : SlotUse}

/-- A new session has the invariant. -/
theorem inv_new (maxSlots : UInt32) : Inv maxSlots.toNat (new maxSlots) where
  length := List.length_replicate
  exclusive _ _ _ h := nomatch h
  held slotId := by
    have hfalse : ¬ (new maxSlots).Held slotId := fun ⟨_, h⟩ => nomatch h
    exact iff_of_false (fun h => nomatch (SlotTable.inUse_new.mp h).2) hfalse
  next slotId busy h := by
    obtain ⟨hlt, rfl⟩ := SlotTable.inUse_new.mp h
    exact SlotTable.sequenceIds_new hlt
  ids _ _ _ h := nomatch h
  highest _ h := nomatch h

/-- The slot that is taken joins the allocations of its own slot id, and of no other. -/
private theorem filter_concat (allocated : List AllocatedSlot) (slot : AllocatedSlot)
    (slotId : SlotId4) :
    (allocated ++ [slot]).filter (·.slotId = slotId) =
      allocated.filter (·.slotId = slotId) ++ if slot.slotId = slotId then [slot] else [] := by
  rw [List.filter_append]
  by_cases h : slot.slotId = slotId
  · rw [if_pos h, List.filter_cons_of_pos (by simpa using h), List.filter_nil]
  · rw [if_neg h, List.filter_cons_of_neg (by simpa using h), List.filter_nil]

/-- The slot that is taken was held by nobody. -/
theorem inv_alloc {user : User} {slot : AllocatedSlot} {table : SlotTable} (hs : Inv slots s)
    (h : s.table.tryAllocSlot .release = some (some slot, table)) :
    Inv slots { table, allocated := s.allocated ++ [slot]
                holds := fun v id => (v == user && id == slot.slotId) || s.holds v id } := by
  obtain ⟨hfree, -, hseq, hhighest, rfl⟩ := SlotTable.tryAllocSlot_eq_slot h
  have hlt := SlotTable.lt_length hfree
  -- The slot was free, so nobody held it.
  have hnobody : ∀ v, ¬ s.holds v slot.slotId = true := fun v hv => by
    have htrue := (hs.held slot.slotId).mpr ⟨v, hv⟩
    rw [hfree] at htrue
    simp at htrue
  have hnext := hs.next slot.slotId false hfree
  -- A free slot has the sequence id of its next allocation.
  rw [hseq, Option.some.injEq] at hnext
  constructor
  case length => exact (List.length_set).trans hs.length
  case exclusive =>
      intro u v id hu hv
      simp only [Bool.or_eq_true, Bool.and_eq_true, beq_iff_eq] at hu hv
      rcases hu with ⟨rfl, rfl⟩ | hu
      · rcases hv with ⟨rfl, -⟩ | hv
        · rfl
        · exact (hnobody v hv).elim
      · rcases hv with ⟨rfl, rfl⟩ | hv
        · exact (hnobody u hu).elim
        · exact hs.exclusive u v id hu hv
  case held =>
      intro id
      simp only [SlotTable.inUse_take hlt, Held, Bool.or_eq_true, Bool.and_eq_true, beq_iff_eq]
      by_cases hid : slot.slotId = id
      · subst hid
        rw [if_pos rfl]
        exact iff_of_true rfl ⟨user, .inl ⟨rfl, rfl⟩⟩
      · rw [if_neg (mt UInt32.toNat_inj.mp hid), hs.held id]
        exact ⟨fun ⟨v, hv⟩ => ⟨v, .inr hv⟩,
          fun ⟨v, hv⟩ => ⟨v, hv.resolve_left fun heq => hid heq.2.symm⟩⟩
  case next =>
      intro id busy hbusy
      rw [SlotTable.inUse_take hlt] at hbusy
      simp only [allocationsOf, filter_concat]
      by_cases hid : slot.slotId = id
      · subst hid
        rw [if_pos rfl, Option.some.injEq] at hbusy
        subst hbusy
        rw [if_pos rfl, List.length_append]
        exact hseq.trans (congrArg some hnext)
      · rw [if_neg (mt UInt32.toNat_inj.mp hid)] at hbusy
        rw [if_neg hid, List.append_nil]
        exact hs.next id busy hbusy
  case ids =>
      intro id i slot' hi
      simp only [allocationsOf, filter_concat] at hi
      by_cases hid : slot.slotId = id
      · subst hid
        rw [if_pos rfl] at hi
        rcases getElem?_concat_eq_some.mp hi with hi | ⟨rfl, rfl⟩
        · exact hs.ids _ i slot' hi
        · exact hnext
      · rw [if_neg hid, List.append_nil] at hi
        exact hs.ids id i slot' hi
  case highest =>
      intro slot' hmem
      rcases List.mem_append.mp hmem with hmem | hmem
      · exact hs.highest slot' hmem
      · obtain rfl := List.mem_singleton.mp hmem
        rw [hhighest, ← hs.length]
        exact ⟨Nat.le_sub_one_of_lt hlt, rfl⟩

/-- The slot that is given back is held by nobody else. -/
theorem inv_release {user : User} {slotId : SlotId4} {table : SlotTable} (hs : Inv slots s)
    (hholds : s.holds user slotId = true)
    (h : s.table.released .release slotId = some table) :
    Inv slots { s with
      table, holds := fun v id => !(v == user && id == slotId) && s.holds v id } := by
  have hused := (hs.held slotId).mpr ⟨user, hholds⟩
  have hlt := SlotTable.lt_length hused
  obtain ⟨seqId, hseq, rfl⟩ := SlotTable.released_eq_some hlt h
  have hnext := hs.next slotId true hused
  -- A slot in use has the sequence id of its last allocation, and the release counts it up.
  rw [hseq, Option.some.injEq] at hnext
  constructor
  case length => exact (List.length_set).trans hs.length
  case exclusive =>
      intro u v id hu hv
      simp only [Bool.and_eq_true] at hu hv
      exact hs.exclusive u v id hu.2 hv.2
  case held =>
      intro id
      simp only [SlotTable.inUse_free hlt, Held, Bool.and_eq_true, Bool.not_eq_true',
        Bool.and_eq_false_imp, beq_iff_eq, beq_eq_false_iff_ne]
      by_cases hid : slotId = id
      · subst hid
        rw [if_pos rfl]
        refine iff_of_false (by simp) ?_
        rintro ⟨v, hne, hv⟩
        -- Another holder would be a second user of the slot.
        exact hne (hs.exclusive v user slotId hv hholds) rfl
      · rw [if_neg (mt UInt32.toNat_inj.mp hid), hs.held id]
        exact ⟨fun ⟨v, hv⟩ => ⟨v, fun _ heq => hid heq.symm, hv⟩, fun ⟨v, _, hv⟩ => ⟨v, hv⟩⟩
  case next =>
      intro id busy hbusy
      rw [SlotTable.inUse_free hlt] at hbusy
      rw [SlotTable.sequenceIds_free hlt]
      by_cases hid : slotId = id
      · subst hid
        rw [if_pos rfl, Option.some.injEq] at hbusy
        subst hbusy
        rw [if_pos rfl, hnext]
        exact congrArg some (UInt32.ofNat_add _ 1).symm
      · rw [if_neg (mt UInt32.toNat_inj.mp hid)] at hbusy
        rw [if_neg (mt UInt32.toNat_inj.mp hid)]
        exact hs.next id busy hbusy
  case ids => exact hs.ids
  case highest => exact hs.highest

/-- **Step.** Every event keeps the invariant. -/
theorem inv_step {e : SlotEvent} (hs : Inv slots s) (h : step s e = some s') : Inv slots s' := by
  cases e with
  | alloc user =>
      rw [step] at h
      -- A release build cannot panic here: the first case is void.
      rcases halloc : s.table.tryAllocSlot .release with _ | ⟨_ | slot, table⟩
      · rw [halloc] at h
        simp at h
      · rw [halloc] at h
        obtain rfl := Option.some.inj h
        obtain ⟨rfl, -⟩ := SlotTable.tryAllocSlot_eq_none halloc
        exact hs
      · rw [halloc] at h
        obtain rfl := Option.some.inj h
        exact inv_alloc hs halloc
  | release user slotId =>
      rw [step] at h
      by_cases hholds : s.holds user slotId = true
      · rw [if_pos hholds] at h
        cases hrel : s.table.released .release slotId with
        | none =>
            rw [hrel] at h
            simp at h
        | some table =>
            rw [hrel] at h
            obtain rfl := Option.some.inj h
            exact inv_release hs hholds hrel
      · -- Only the user that holds a slot gives it back.
        rw [if_neg hholds] at h
        simp at h

/-- **Run.** Every session that can be reached has the invariant. -/
theorem inv_run {maxSlots : UInt32} {es : List SlotEvent}
    (h : run step (new maxSlots) es = some s) : Inv maxSlots.toNat s :=
  run_invariant (fun _ _ _ hs h => inv_step hs h) (inv_new maxSlots) h

/-! ### What holds in every state of every run -/

/-- What the users of a table of `slots` slots can rely on. -/
structure Exclusive (slots : Nat) (s : SlotUse) : Prop where
  /-- Two users never hold the same slot. -/
  exclusive : ∀ u v slotId, s.holds u slotId = true → s.holds v slotId = true → u = v
  /-- The allocations of a slot return the sequence ids 1, 2, 3 and so on, modulo `2 ^ 32`. -/
  consecutive : ∀ slotId i slot, (s.allocationsOf slotId)[i]? = some slot →
    slot.sequenceId.toNat = (i + 1) % 2 ^ 32
  /-- Within `2 ^ 32` allocations of a slot no sequence id repeats. -/
  unrepeated : ∀ slotId i j slot slot', i < j → j < i + 2 ^ 32 →
    (s.allocationsOf slotId)[i]? = some slot → (s.allocationsOf slotId)[j]? = some slot' →
    slot.sequenceId ≠ slot'.sequenceId
  highest : ∀ slot ∈ s.allocated, slot.slotId ≤ slot.highestSlotId ∧
    slot.highestSlotId.toNat = slots - 1
  /-- The next allocation does not panic. It returns the lowest slot that is not held, or
  none exactly when all the slots are held. -/
  lowest : ∃ result table, s.table.tryAllocSlot .release = some (result, table) ∧
    (result = none ↔ ∀ slotId : SlotId4, slotId.toNat < slots → s.Held slotId) ∧
    ∀ slot, result = some slot → ¬ s.Held slot.slotId ∧ ∀ id < slot.slotId, s.Held id
  /-- The release of a slot by a user that holds it does not panic. -/
  releases : ∀ slotId, s.Held slotId → (s.table.released .release slotId).isSome
  /-- When all slots have been released, all of them are free. -/
  free : (∀ slotId, ¬ s.Held slotId) → s.table.inUse = List.replicate slots false

/-- Sequence ids of a slot that are fewer than `2 ^ 32` allocations apart. -/
private theorem succ_mod_ne {i j : Nat} (h : i < j) (hlt : j < i + 2 ^ 32) :
    (i + 1) % 2 ^ 32 ≠ (j + 1) % 2 ^ 32 := by
  omega

/-- An allocation finds the lowest slot that nobody holds, or none if all are held. -/
theorem Inv.lowest (hs : Inv slots s) (hslots : 0 < slots) :
    ∃ result table, s.table.tryAllocSlot .release = some (result, table) ∧
      (result = none ↔ ∀ slotId : SlotId4, slotId.toNat < slots → s.Held slotId) ∧
      ∀ slot, result = some slot → ¬ s.Held slot.slotId ∧ ∀ id < slot.slotId, s.Held id := by
  obtain ⟨⟨result, table⟩, halloc⟩ := Option.isSome_iff_exists.mp
    (SlotTable.tryAllocSlot_isSome (m := .release) (hs.length ▸ hslots))
  refine ⟨result, table, halloc, ?_⟩
  cases result with
  | none =>
      obtain ⟨-, hall⟩ := SlotTable.tryAllocSlot_eq_none halloc
      refine ⟨iff_of_true rfl fun slotId hlt => ?_, fun slot h => nomatch h⟩
      exact (hs.held slotId).mp (hall _ (hs.length ▸ hlt))
  | some slot =>
      obtain ⟨hfree, hbefore, -⟩ := SlotTable.tryAllocSlot_eq_slot halloc
      have hnot : ¬ s.Held slot.slotId := fun hheld => by
        rw [(hs.held slot.slotId).mpr hheld] at hfree
        simp at hfree
      refine ⟨iff_of_false (by simp) fun hall => ?_, fun slot' h => ?_⟩
      · exact hnot (hall slot.slotId (hs.length ▸ SlotTable.lt_length hfree))
      · obtain rfl := Option.some.inj h
        exact ⟨hnot, fun id hid => (hs.held id).mp (hbefore _ (UInt32.lt_iff_toNat_lt.mp hid))⟩

/-- **Slot exclusivity.** In every run of a table with slots, each slot has at most one user
at a time, and its allocations return consecutive sequence ids. -/
theorem slots_exclusive {maxSlots : UInt32} (hslots : 0 < maxSlots) (es : List SlotEvent)
    (h : run step (new maxSlots) es = some s) : Exclusive maxSlots.toNat s := by
  have hs := inv_run h
  have hpos : 0 < maxSlots.toNat := UInt32.lt_iff_toNat_lt.mp hslots
  have hids : ∀ slotId i slot, (s.allocationsOf slotId)[i]? = some slot →
      slot.sequenceId.toNat = (i + 1) % 2 ^ 32 := fun slotId i slot hi => by
    rw [hs.ids slotId i slot hi, UInt32.toNat_ofNat']
  constructor
  case exclusive => exact hs.exclusive
  case consecutive => exact hids
  case unrepeated =>
      intro slotId i j slot slot' hij hlt hi hj heq
      have hne := succ_mod_ne hij hlt
      rw [← hids slotId i slot hi, ← hids slotId j slot' hj, heq] at hne
      exact hne rfl
  case highest =>
      exact fun slot hmem => ⟨UInt32.le_iff_toNat_le.mpr (hs.highest slot hmem).1,
        (hs.highest slot hmem).2⟩
  case lowest => exact hs.lowest hpos
  case releases =>
      exact fun slotId hheld => SlotTable.released_release_isSome
        (SlotTable.lt_length ((hs.held slotId).mpr hheld))
  case free =>
      intro hnone
      refine List.eq_replicate_iff.mpr ⟨hs.length, fun busy hmem => ?_⟩
      cases busy with
      | false => rfl
      | true =>
          obtain ⟨i, hi⟩ := List.getElem?_of_mem hmem
          -- Every index of the table is a slot id.
          have hi32 : (UInt32.ofNat i).toNat = i := UInt32.toNat_ofNat_of_lt'
            (Nat.lt_trans (SlotTable.lt_length hi) s.table.length_lt)
          rw [← hi32] at hi
          exact absurd ((hs.held _).mp hi) (hnone _)

/-- Three users of two slots. -/
theorem slots_exclusive_two :
    ∃ s, run step (new 2) [.alloc 7, .alloc 8, .alloc 9, .release 7 0, .alloc 9] = some s ∧
      Exclusive (UInt32.toNat 2) s :=
  ⟨_, rfl, slots_exclusive (by decide)
    [.alloc 7, .alloc 8, .alloc 9, .release 7 0, .alloc 9] rfl⟩

end SlotUse

end NfsMount.Nfs4Client
