import NfsMount.Lib.Run
import NfsMount.Nfs4Client.Session

/-!
# `NfsMount.Proofs.SlotArith`: the arithmetic of the slot table over long runs

Two computations of the slot table can leave their range. An allocation subtracts one from
the number of slots, which is 0 when the server grants none, and a release adds one to the
sequence id of the slot, which is `2 ^ 32 - 1` after `2 ^ 32 - 2` releases of it.

A release build wraps, and both wrapped results are the right ones. A checked build panics.
`Budget` counts the releases that a table is good for, and each call takes its part of it
(`budget_cons`). `slot_arith_iff` is the case of a new table: the runs without a panic are
those that allocate from a table with slots only, and release no slot too often.
-/

set_option autoImplicit false

namespace NfsMount.Nfs4Client

open NfsMount.Lib NfsMount.Nfs4Types

/-- A call on the slot table. -/
inductive SlotCall where
  | tryAllocSlot
  | releaseSlot (slotId : SlotId4)
deriving DecidableEq

namespace SlotCall

/-- The slots after a call, if it does not panic. -/
def step (m : Build) (t : SlotTable) : SlotCall → Option SlotTable
  | .tryAllocSlot => (t.tryAllocSlot m).map Prod.snd
  | .releaseSlot slotId => t.released m slotId

/-- The call does not panic, a table without slots returns `None`, and the sequence id after
`2 ^ 32 - 1` is 0. -/
def Safe (m : Build) (t : SlotTable) : SlotCall → Prop
  | .tryAllocSlot =>
      ∃ slot t', t.tryAllocSlot m = some (slot, t') ∧ (t.inUse = [] → slot = none)
  | .releaseSlot slotId =>
      ∃ t', t.released m slotId = some t' ∧
        (t.sequenceIds[slotId.toNat]? = some 0xFFFFFFFF → t'.sequenceIds[slotId.toNat]? = some 0)

end SlotCall

namespace SlotTable

variable {m : Build} {t t' : SlotTable} {slotId : SlotId4} {seq : UInt32}

/-- A table without slots. -/
theorem tryAllocSlot_of_nil (h : t.inUse = []) :
    t.tryAllocSlot m =
      match m with
      | .checked => none
      | .release => some (none, t) := by
  cases m with
  | checked => simp [tryAllocSlot, h, Build.subU64]
  | release => simp [tryAllocSlot, h, Build.subU64]

/-- An allocation keeps the sequence ids, and the number of slots. -/
theorem tryAllocSlot_keeps (h : (SlotCall.tryAllocSlot).step m t = some t') :
    t'.sequenceIds = t.sequenceIds ∧ t'.inUse.length = t.inUse.length := by
  obtain ⟨⟨slot, t''⟩, halloc, rfl⟩ := Option.map_eq_some_iff.mp h
  cases slot with
  | none =>
      obtain ⟨rfl, -⟩ := tryAllocSlot_eq_none halloc
      exact ⟨rfl, rfl⟩
  | some slot =>
      obtain ⟨-, -, -, -, rfl⟩ := tryAllocSlot_eq_slot halloc
      exact ⟨rfl, List.length_set⟩

/-- A slot id that is out of range has no sequence id, and its release does nothing. -/
theorem released_of_none (h : t.sequenceIds[slotId.toNat]? = none) :
    t.released m slotId = some t := by
  have hge : t.inUse.length ≤ slotId.toNat := by
    rw [← t.length_eq]
    exact List.getElem?_eq_none_iff.mp h
  exact released_of_le hge

/-- The release of a slot, by its sequence id. -/
theorem released_of_some (h : t.sequenceIds[slotId.toNat]? = some seq) :
    slotId.toNat < t.inUse.length ∧
      t.released m slotId = (m.addU32 seq 1).map fun next => t.free slotId.toNat next := by
  have hlt : slotId.toNat < t.inUse.length := by
    rw [← t.length_eq]
    exact (List.getElem?_eq_some_iff.mp h).1
  exact ⟨hlt, released_of_lt hlt h⟩

/-- In a release build every call is safe. -/
theorem safe_release (t : SlotTable) (call : SlotCall) : call.Safe .release t := by
  cases call with
  | tryAllocSlot =>
      by_cases h : t.inUse = []
      · exact ⟨none, t, tryAllocSlot_of_nil h, fun _ => rfl⟩
      · obtain ⟨⟨slot, t'⟩, halloc⟩ := Option.isSome_iff_exists.mp
          (tryAllocSlot_isSome (m := .release) (List.length_pos_of_ne_nil h))
        exact ⟨slot, t', halloc, fun hnil => absurd hnil h⟩
  | releaseSlot slotId =>
      cases hseq : t.sequenceIds[slotId.toNat]? with
      | none => exact ⟨t, released_of_none hseq, by simp [hseq]⟩
      | some seq =>
          obtain ⟨hlt, hrelease⟩ := released_of_some (m := .release) hseq
          refine ⟨_, hrelease, fun hmax => ?_⟩
          rw [sequenceIds_free hlt, if_pos rfl]
          obtain rfl := Option.some.inj (hseq.symm.trans hmax)
          rfl

/-- In a checked build an allocation panics on a table without slots. -/
theorem safe_alloc_checked_iff : SlotCall.tryAllocSlot.Safe .checked t ↔ t.inUse ≠ [] := by
  by_cases h : t.inUse = []
  · refine iff_of_false ?_ (not_not_intro h)
    rintro ⟨slot, t', halloc, -⟩
    rw [tryAllocSlot_of_nil h] at halloc
    simp at halloc
  · refine iff_of_true ?_ h
    obtain ⟨⟨slot, t'⟩, halloc⟩ := Option.isSome_iff_exists.mp
      (tryAllocSlot_isSome (m := .checked) (List.length_pos_of_ne_nil h))
    exact ⟨slot, t', halloc, fun hnil => absurd hnil h⟩

/-- In a checked build a release panics on the highest sequence id. Below it, the sequence id
goes up by one. -/
theorem released_checked (h : t.sequenceIds[slotId.toNat]? = some seq) :
    (seq.toNat + 1 = 2 ^ 32 → t.released .checked slotId = none) ∧
    (seq.toNat + 1 < 2 ^ 32 →
      t.released .checked slotId = some (t.free slotId.toNat (seq + 1)) ∧
        (seq + 1).toNat = seq.toNat + 1) := by
  obtain ⟨-, hrelease⟩ := released_of_some (m := .checked) h
  have hone : (1 : UInt32).toNat = 1 := rfl
  constructor
  · intro hmax
    have hadd : Build.addU32 .checked seq 1 = none := if_neg (by rw [hone]; omega)
    rw [hrelease, hadd]
    rfl
  · intro hlt
    have hadd : Build.addU32 .checked seq 1 = some (seq + 1) := if_pos (by rw [hone]; omega)
    refine ⟨by rw [hrelease, hadd]; rfl, ?_⟩
    rw [UInt32.toNat_add, hone, Nat.mod_eq_of_lt hlt]

end SlotTable

open SlotTable

/-- The calls that a table is good for in a checked build: no allocations, if it has no slots,
and for each slot no more releases than its sequence id allows. -/
def Budget (t : SlotTable) (calls : List SlotCall) : Prop :=
  (t.inUse = [] → .tryAllocSlot ∉ calls) ∧
  ∀ slotId seq, t.sequenceIds[slotId.toNat]? = some seq →
    seq.toNat + calls.count (.releaseSlot slotId) < 2 ^ 32

section Budget

variable {t t' : SlotTable} {slotId : SlotId4} {seq : UInt32} {calls : List SlotCall}

/-- No calls need no ids. -/
theorem budget_nil : Budget t [] := by
  refine ⟨by simp, fun slotId seq _ => ?_⟩
  rw [List.count_nil, Nat.add_zero]
  exact seq.toNat_lt

/-- An allocation leaves the budget as it is. -/
theorem budget_alloc (hslots : t.inUse ≠ [])
    (hstep : SlotCall.tryAllocSlot.step .checked t = some t') :
    Budget t (.tryAllocSlot :: calls) ↔ Budget t' calls := by
  obtain ⟨hseqs, hlength⟩ := tryAllocSlot_keeps hstep
  have hslots' : t'.inUse ≠ [] := by
    intro h
    rw [h, List.length_nil] at hlength
    exact hslots (List.eq_nil_of_length_eq_zero hlength.symm)
  have hcount : ∀ slotId : SlotId4, (SlotCall.tryAllocSlot :: calls).count (.releaseSlot slotId)
      = calls.count (.releaseSlot slotId) := by
    intro slotId
    exact List.count_cons_of_ne (by simp)
  simp only [Budget, hseqs, hcount, hslots, hslots', false_imp_iff, true_and]

/-- A release that does nothing. -/
theorem budget_release_of_none (hseq : t.sequenceIds[slotId.toNat]? = none) :
    Budget t (.releaseSlot slotId :: calls) ↔ Budget t calls := by
  have hmem : SlotCall.tryAllocSlot ∉ SlotCall.releaseSlot slotId :: calls ↔
      SlotCall.tryAllocSlot ∉ calls := by
    rw [List.mem_cons, not_or]
    exact and_iff_right (by simp)
  rw [Budget, Budget, hmem]
  refine and_congr_right fun _ => forall_congr' fun other => forall_congr' fun seq =>
    forall_congr' fun hother => ?_
  -- The other slots have a sequence id, and this one has none.
  have hne : SlotCall.releaseSlot slotId ≠ SlotCall.releaseSlot other := by
    rintro ⟨⟩
    rw [hseq] at hother
    simp at hother
  rw [List.count_cons_of_ne hne]

/-- A release takes one id off the budget of its slot, and none off the others. -/
theorem budget_release (hseq : t.sequenceIds[slotId.toNat]? = some seq)
    (hnext : (seq + 1).toNat = seq.toNat + 1) :
    Budget t (.releaseSlot slotId :: calls) ↔ Budget (t.free slotId.toNat (seq + 1)) calls := by
  obtain ⟨hlt, -⟩ := released_of_some (m := .checked) hseq
  have hslots : t.inUse ≠ [] := List.ne_nil_of_length_pos (Nat.zero_lt_of_lt hlt)
  have hslots' : (t.free slotId.toNat (seq + 1)).inUse ≠ [] := by
    refine List.ne_nil_of_length_pos ?_
    rw [SlotTable.free, List.length_set]
    exact Nat.zero_lt_of_lt hlt
  have hself : (SlotCall.releaseSlot slotId :: calls).count (.releaseSlot slotId)
      = calls.count (.releaseSlot slotId) + 1 := List.count_cons_self
  simp only [Budget, hslots, hslots', false_imp_iff, true_and, sequenceIds_free hlt]
  -- The sequence id goes up by one where the count goes down by one.
  constructor
  · intro h other seq' hother
    by_cases heq : slotId = other
    · subst heq
      rw [if_pos rfl] at hother
      obtain rfl := Option.some.inj hother
      have hused := h slotId seq hseq
      rw [hself] at hused
      omega
    · rw [if_neg (mt UInt32.toNat_inj.mp heq)] at hother
      have hother := h other seq' hother
      rwa [List.count_cons_of_ne (by simpa using heq)] at hother
  · intro h other seq' hother
    by_cases heq : slotId = other
    · subst heq
      obtain rfl := Option.some.inj (hseq.symm.trans hother)
      have hleft := h slotId (seq + 1) (if_pos rfl)
      rw [hself]
      omega
    · rw [List.count_cons_of_ne (by simpa using heq)]
      exact h other seq' (by rwa [if_neg (mt UInt32.toNat_inj.mp heq)])

/-- The budget of a first call, and of the calls behind it. -/
theorem budget_cons (t : SlotTable) (call : SlotCall) (calls : List SlotCall) :
    Budget t (call :: calls) ↔
      call.Safe .checked t ∧ ∀ t', call.step .checked t = some t' → Budget t' calls := by
  cases call with
  | tryAllocSlot =>
      rw [safe_alloc_checked_iff]
      by_cases hslots : t.inUse = []
      · exact iff_of_false (fun h => h.1 hslots List.mem_cons_self) fun h => h.1 hslots
      · rw [and_iff_right hslots]
        obtain ⟨slot, t', halloc, -⟩ := safe_alloc_checked_iff.mpr hslots
        have hstep : SlotCall.tryAllocSlot.step .checked t = some t' := by
          rw [SlotCall.step, halloc]
          rfl
        rw [budget_alloc hslots hstep, hstep]
        simp
  | releaseSlot slotId =>
      cases hseq : t.sequenceIds[slotId.toNat]? with
      | none =>
          -- A slot id out of range is ignored.
          have hrelease := released_of_none (m := .checked) hseq
          have hsafe : (SlotCall.releaseSlot slotId).Safe .checked t :=
            ⟨t, hrelease, by simp [hseq]⟩
          rw [budget_release_of_none hseq, and_iff_right hsafe, SlotCall.step, hrelease]
          simp
      | some seq =>
          obtain ⟨hpanic, hnext⟩ := released_checked hseq
          by_cases hmax : seq.toNat + 1 = 2 ^ 32
          · -- The budget of the slot is used up, and the release panics.
            refine iff_of_false (fun h => ?_) fun h => ?_
            · have hused := h.2 slotId seq hseq
              rw [List.count_cons_self] at hused
              omega
            · obtain ⟨t', hrelease, -⟩ := h.1
              rw [hpanic hmax] at hrelease
              simp at hrelease
          · have hlt := seq.toNat_lt
            obtain ⟨hrelease, hnat⟩ := hnext (by omega)
            have hsafe : (SlotCall.releaseSlot slotId).Safe .checked t := by
              refine ⟨_, hrelease, fun h => ?_⟩
              obtain rfl := Option.some.inj (hseq.symm.trans h)
              exact absurd rfl hmax
            rw [budget_release hseq hnat, and_iff_right hsafe, SlotCall.step, hrelease]
            simp

/-- The runs without a panic, in a checked build, are those within the budget. -/
theorem along_safe_checked_iff (t : SlotTable) (calls : List SlotCall) :
    Along (SlotCall.step .checked) (SlotCall.Safe .checked) t calls ↔ Budget t calls := by
  induction calls generalizing t with
  | nil => exact iff_of_true trivial budget_nil
  | cons call calls ih =>
      rw [budget_cons]
      exact and_congr_right fun _ => forall_congr' fun t' => imp_congr_right fun _ => ih t'

end Budget

/-- **Slot arithmetic.** Take the runs of a session with `maxSlots` slots, of allocations and
releases in any order. In a release build every call of every run is safe. In a checked build
the calls of a run are safe exactly when the run does not allocate from a session without
slots, and releases no slot more than `2 ^ 32 - 2` times. -/
theorem slot_arith_iff (maxSlots : UInt32) (calls : List SlotCall) :
    Along (SlotCall.step .release) (SlotCall.Safe .release) (SlotTable.new maxSlots) calls ∧
    (Along (SlotCall.step .checked) (SlotCall.Safe .checked) (SlotTable.new maxSlots) calls ↔
      (maxSlots = 0 → .tryAllocSlot ∉ calls) ∧
      ∀ slotId < maxSlots, calls.count (.releaseSlot slotId) ≤ 2 ^ 32 - 2) := by
  have hrelease : ∀ t, Along (SlotCall.step .release) (SlotCall.Safe .release) t calls := by
    induction calls with
    | nil => exact fun _ => trivial
    | cons call calls ih => exact fun t => ⟨safe_release t call, fun t' _ => ih t'⟩
  refine ⟨hrelease _, ?_⟩
  have hnil : (SlotTable.new maxSlots).inUse = [] ↔ maxSlots = 0 := by
    rw [SlotTable.new, List.replicate_eq_nil_iff]
    exact ⟨fun h => UInt32.toNat_inj.mp h, fun h => by rw [h]; rfl⟩
  have hone : (1 : UInt32).toNat = 1 := rfl
  rw [along_safe_checked_iff, Budget, hnil]
  refine and_congr_right fun _ => forall_congr' fun slotId => ?_
  constructor
  · intro h hlt
    -- Each id starts at 1, so that `2 ^ 32 - 2` releases bring it to its last value.
    have := h 1 (sequenceIds_new (UInt32.lt_iff_toNat_lt.mp hlt))
    omega
  · intro h seq hseq
    have hlt : slotId.toNat < maxSlots.toNat := by
      have := (List.getElem?_eq_some_iff.mp hseq).1
      rwa [SlotTable.new, List.length_replicate] at this
    rw [sequenceIds_new hlt] at hseq
    obtain rfl := Option.some.inj hseq
    have := h (UInt32.lt_iff_toNat_lt.mpr hlt)
    omega

/-- In a checked build, an allocation from a session without slots panics, and so does the
release number `2 ^ 32 - 1` of one slot. -/
theorem slot_arith_panics :
    ¬ Along (SlotCall.step .checked) (SlotCall.Safe .checked) (SlotTable.new 0) [.tryAllocSlot] ∧
    ¬ Along (SlotCall.step .checked) (SlotCall.Safe .checked) (SlotTable.new 1)
      (List.replicate (2 ^ 32 - 1) [.tryAllocSlot, .releaseSlot 0]).flatten := by
  constructor
  · rw [along_safe_checked_iff]
    exact fun h => h.1 rfl List.mem_cons_self
  · rw [along_safe_checked_iff]
    intro h
    have hlt := h.2 0 1 rfl
    rw [List.count_flatten, List.map_replicate, List.sum_replicate_nat] at hlt
    exact absurd hlt (by decide)

end NfsMount.Nfs4Client
