import NfsMount.Lib.Run
import NfsMount.Nfs4Client.Keepalive

/-!
# `NfsMount.Proofs.Keepalive`: the keepalive loop keeps the lease

The loop skips a tick when all slots are busy, on the ground that the traffic on them has renewed
the lease. That traffic has sent its requests when it allocated its slots, so the last request
in the session is never older than the longest time a slot is held (`Inv.busy`). With the
period of the timer this bounds how old it can be at any time, and each request that fails adds
as much again (`lease_kept`). A request fails when it is lost, and then all later ones of its slot
do, since their ids are no longer those that the server waits for. As long as none is lost, the
client and the server agree on the ids (`Agreed`), and one bound is enough.

A late tick does not move the later ones, so the loop keeps the pace of its timer: it takes no
tick early, and each of them within its lateness (`ticks_on_time`).
-/

set_option autoImplicit false

namespace NfsMount.Nfs4Client

open NfsMount.Lib NfsMount.Nfs4Types

/-! ### The slots -/

namespace SlotTable

variable {m : Build} {t t' : SlotTable}

/-- A release leaves no slot busy that was not. -/
theorem released_inUse {slotId : SlotId4} (h : t.released m slotId = some t') :
    t'.inUse.length = t.inUse.length ∧
      ∀ i, t'.inUse[i]? = some true → t.inUse[i]? = some true ∧ i ≠ slotId.toNat := by
  by_cases hlt : slotId.toNat < t.inUse.length
  · obtain ⟨seqId, -, rfl⟩ := released_eq_some hlt h
    refine ⟨by simp [free], fun i hi => ?_⟩
    rw [inUse_free hlt] at hi
    split at hi
    · cases hi
    · rename_i hne
      exact ⟨hi, Ne.symm hne⟩
  · rw [released_of_le (Nat.le_of_not_lt hlt)] at h
    obtain rfl := Option.some.inj h
    refine ⟨rfl, fun i hi => ⟨hi, ?_⟩⟩
    rintro rfl
    exact hlt (lt_length hi)

end SlotTable

namespace Keepalive

open IntervalTimer (next HasPeriod Burst)

variable {τ : Type} {m : Build} {p : Pace} {s t : Keepalive τ} {e : KeepaliveEvent}

/-! ### The slots, and the ids on the server -/

/-- The slot goes to a request that is sent now. -/
def sendOn (s : Keepalive τ) (slot : AllocatedSlot) (arrives : Bool) : Keepalive τ :=
  (s.setSlots (s.session.slots.take slot.slotId.toNat)).send slot arrives

/-- A slot that is free, with its sequence id. -/
def Free (s : Keepalive τ) (slot : AllocatedSlot) : Prop :=
  s.session.slots.inUse[slot.slotId.toNat]? = some false ∧
    s.session.slots.sequenceIds[slot.slotId.toNat]? = some slot.sequenceId

/-- A slot is held by another task when it is in use and the loop does not send on it. -/
theorem heldByOther_iff {i : Nat} :
    s.heldByOther i ↔ s.session.slots.inUse[i]? = some true ∧
      ∀ slotId args since, s.loop = .sending slotId args since → i ≠ slotId.toNat := by
  cases hloop : s.loop with
  | sending slotId args since => simp [heldByOther, hloop]
  | waiting since => simp [heldByOther, hloop]
  | ended => simp [heldByOther, hloop]

/-- A slot that is busy after a request was sent. -/
theorem inUse_sendOn {slot : AllocatedSlot} {arrives : Bool} {i : Nat}
    (h : (s.sendOn slot arrives).session.slots.inUse[i]? = some true) :
    s.session.slots.inUse[i]? = some true ∧ i ≠ slot.slotId.toNat ∨ i = slot.slotId.toNat := by
  by_cases hi : i = slot.slotId.toNat
  · exact .inr hi
  · refine .inl ⟨?_, hi⟩
    rwa [sendOn, setSlots, send, SlotTable.take, List.getElem?_set_ne (Ne.symm hi)] at h

/-- The slot of a request is allocated now. -/
theorem allocatedAt_sendOn {slot : AllocatedSlot} {arrives : Bool} {i : Nat} :
    (s.sendOn slot arrives).allocatedAt i
      = if i = slot.slotId.toNat then s.now else s.allocatedAt i := rfl

/-- All slots are free, and each holds the id behind the one that the server accepted last. -/
def InStep (slots : SlotTable) (stored : Nat → SequenceId4) : Prop :=
  ∀ i < slots.inUse.length,
    slots.inUse[i]? = some false ∧ slots.sequenceIds[i]? = some (stored i + 1)

/-- The client and the server agree on the ids, and no request has failed. A slot that is in use
holds the id that was accepted on it. -/
structure Agreed (s : Keepalive τ) : Prop where
  free : ∀ i : Nat, s.session.slots.inUse[i]? = some false →
    s.session.slots.sequenceIds[i]? = some (s.stored i + 1)
  busy : ∀ i : Nat, s.session.slots.inUse[i]? = some true →
    s.session.slots.sequenceIds[i]? = some (s.stored i)
  sending : ∀ slotId args since, s.loop = .sending slotId args since →
    s.session.slots.inUse[slotId.toNat]? = some true
  failed_eq : s.failed = 0

/-- A request that arrives is accepted. -/
theorem Agreed.accepts (hs : Agreed s) {slot : AllocatedSlot} (hfree : s.Free slot) :
    s.accepts slot = true := by
  have hseq := hs.free _ hfree.1
  rw [hfree.2, Option.some.injEq] at hseq
  simpa [Keepalive.accepts] using hseq

/-- A request that arrives is accepted, as the ids agree. -/
theorem Agreed.sendOn (hs : Agreed s) {slot : AllocatedSlot} (hfree : s.Free slot) :
    Agreed (s.sendOn slot true) := by
  have haccepts := hs.accepts hfree
  have hlt := SlotTable.lt_length hfree.1
  -- The server stores the id of the request, which is the next one of the slot.
  have hstored : (s.sendOn slot true).stored
      = fun j => if j = slot.slotId.toNat then slot.sequenceId else s.stored j := by
    funext j
    show (if (true && s.accepts slot) = true ∧ j = _ then _ else s.stored j) = _
    simp [haccepts]
  have hin : ∀ j : Nat, (s.sendOn slot true).session.slots.inUse[j]?
      = if slot.slotId.toNat = j then some true else s.session.slots.inUse[j]? :=
    SlotTable.inUse_take hlt
  constructor
  case free =>
    intro j hj
    rw [hin] at hj
    split at hj
    · cases hj
    · rename_i hne
      show s.session.slots.sequenceIds[j]? = some ((s.sendOn slot true).stored j + 1)
      simpa [hstored, Ne.symm hne] using hs.free j hj
  case busy =>
    intro j hj
    rw [hin] at hj
    show s.session.slots.sequenceIds[j]? = some ((s.sendOn slot true).stored j)
    split at hj
    · rename_i heq
      subst heq
      simpa [hstored] using hfree.2
    · rename_i hne
      simpa [hstored, Ne.symm hne] using hs.busy j hj
  case sending =>
    intro slotId args since heq
    rw [hin]
    split
    · rfl
    · exact hs.sending slotId args since heq
  case failed_eq =>
    show (if (true && s.accepts slot) = true then 0 else s.failed + 1) = 0
    simp [haccepts]

/-- A slot that is given back holds the next id. -/
theorem Agreed.released (hs : Agreed s) {slotId : SlotId4} {slots : SlotTable}
    (hbusy : s.session.slots.inUse[slotId.toNat]? = some true)
    (hslots : s.session.slots.released m slotId = some slots)
    (hother : ∀ slotId' args since, s.loop = .sending slotId' args since →
      slotId.toNat ≠ slotId'.toNat) : Agreed (s.setSlots slots) := by
  have hlt := SlotTable.lt_length hbusy
  -- The slot was busy, and a busy slot holds the id that the server has stored.
  obtain ⟨seq, hseq, rfl⟩ := SlotTable.released_eq_some hlt hslots
  have hin := SlotTable.inUse_free hlt (seq + 1)
  have hids := SlotTable.sequenceIds_free hlt (seq + 1)
  have hstored := hs.busy _ hbusy
  rw [hseq, Option.some.injEq] at hstored
  constructor
  case free =>
    intro j hj
    show (s.session.slots.free _ _).sequenceIds[j]? = _
    rw [hids]
    split
    · rename_i heq
      rw [hstored, heq]
      rfl
    · rename_i hne
      refine hs.free j ?_
      have hj : (s.session.slots.free _ _).inUse[j]? = some false := hj
      rwa [hin, if_neg hne] at hj
  case busy =>
    intro j hj
    have hj : (s.session.slots.free _ _).inUse[j]? = some true := hj
    rw [hin] at hj
    split at hj
    · cases hj
    · rename_i hne
      show (s.session.slots.free _ _).sequenceIds[j]? = _
      rw [hids, if_neg hne]
      exact hs.busy j hj
  case sending =>
    intro slotId' args since heq
    show (s.session.slots.free _ _).inUse[slotId'.toNat]? = _
    -- The loop sends on another slot, which stays taken.
    rw [hin, if_neg (hother slotId' args since heq)]
    exact hs.sending slotId' args since heq
  case failed_eq => exact hs.failed_eq

/-! ### What a step does -/

variable [IntervalTimer τ]

/-- The loop has taken a tick. -/
def ticked (s : Keepalive τ) : Keepalive τ :=
  { s with timer := IntervalTimer.ticked s.timer s.now, ticks := s.ticks + 1 }

/-- What happens in a step. -/
inductive Moves (m : Build) (p : Pace) (s : Keepalive τ) : KeepaliveEvent → Keepalive τ → Prop
  | elapse (d : Duration) (h : Punctual p { s with now := s.now + d }) :
      Moves m p s (.elapse d) { s with now := s.now + d }
  /-- The loop skips a tick, as all slots are busy. -/
  | skip (since : Nat) (arrives : Bool) (hloop : s.loop = .waiting since)
      (hdue : next s.timer ≤ s.now)
      (hbusy : ∀ i < s.session.slots.inUse.length, s.session.slots.inUse[i]? = some true) :
      Moves m p s (.tick arrives) (s.ticked.setLoop (.waiting s.now))
  | keepalive (since : Nat) (slot : AllocatedSlot) (arrives : Bool)
      (hloop : s.loop = .waiting since) (hdue : next s.timer ≤ s.now) (hfree : s.Free slot) :
      Moves m p s (.tick arrives) ((s.ticked.sendOn slot arrives).setLoop
        (.sending slot.slotId (keepaliveArgs s.session.sessionId slot) s.now))
  | sendDone (slotId : SlotId4) (args : Compound4args) (since : Nat) (slots : SlotTable)
      (hloop : s.loop = .sending slotId args since)
      (hslots : s.session.slots.released m slotId = some slots) :
      Moves m p s .sendDone ((s.setSlots slots).setLoop (.waiting s.now))
  | refused (arrives : Bool) : Moves m p s (.request arrives) s
  | request (slot : AllocatedSlot) (arrives : Bool) (hfree : s.Free slot) :
      Moves m p s (.request arrives) (s.sendOn slot arrives)
  | finish (slotId : SlotId4) (slots : SlotTable) (hheld : s.heldByOther slotId.toNat)
      (hslots : s.session.slots.released m slotId = some slots) :
      Moves m p s (.finish slotId) (s.setSlots slots)
  | shutdown (since : Nat) (hloop : s.loop = .waiting since) :
      Moves m p s .shutdown (s.setLoop .ended)

/-- **Step.** -/
theorem step_moves (h : step m p s e = some t) : Moves m p s e t := by
  cases e with
  | elapse d =>
      simp only [step] at h
      split at h
      · rename_i hp
        obtain rfl := Option.some.inj h
        exact .elapse d hp
      · cases h
  | tick arrives =>
      simp only [step] at h
      split at h
      · rename_i since hloop
        split at h
        · rename_i hdue
          split at h
          · cases h
          · rename_i slots halloc
            obtain ⟨rfl, hbusy⟩ := SlotTable.tryAllocSlot_eq_none halloc
            obtain rfl := Option.some.inj h
            -- All slots are taken: `sequence_op` gives no request, and the loop waits on.
            exact .skip since arrives hloop hdue hbusy
          · rename_i slot slots halloc
            obtain ⟨hfree, -, hseq, -, rfl⟩ := SlotTable.tryAllocSlot_eq_slot halloc
            obtain rfl := Option.some.inj h
            -- The slot was free, and the request carries its sequence id.
            exact .keepalive since slot arrives hloop hdue ⟨hfree, hseq⟩
        · cases h
      · cases h
      · cases h
  | sendDone =>
      simp only [step] at h
      split at h
      · rename_i slotId args since hloop
        obtain ⟨slots, hslots, ht⟩ := Option.bind_eq_some_iff.mp h
        obtain rfl := Option.some.inj ht
        -- The reply or its failure: the loop releases the slot either way.
        exact .sendDone slotId args since slots hloop hslots
      · cases h
      · cases h
  | request arrives =>
      simp only [step] at h
      split at h
      · cases h
      · rename_i slots halloc
        obtain ⟨rfl, -⟩ := SlotTable.tryAllocSlot_eq_none halloc
        obtain rfl := Option.some.inj h
        exact .refused arrives
      · rename_i slot slots halloc
        obtain ⟨hfree, -, hseq, -, rfl⟩ := SlotTable.tryAllocSlot_eq_slot halloc
        obtain rfl := Option.some.inj h
        exact .request slot arrives ⟨hfree, hseq⟩
  | finish slotId =>
      simp only [step] at h
      split at h
      · rename_i hheld
        obtain ⟨slots, hslots, ht⟩ := Option.bind_eq_some_iff.mp h
        obtain rfl := Option.some.inj ht
        exact .finish slotId slots hheld hslots
      · cases h
  | shutdown =>
      simp only [step] at h
      split at h
      · rename_i since hloop
        obtain rfl := Option.some.inj h
        exact .shutdown since hloop
      · cases h
      · cases h

/-! ### Nothing takes too long -/

/-- A loop that waits takes its tick when that is due, or up to `late` behind. -/
theorem limit_waiting (since : Nat) :
    (s.setLoop (.waiting since)).limit p = some (max (next s.timer) since + p.late) := rfl

/-- A loop that sends is done within the time of a send. -/
theorem limit_sending (slotId : SlotId4) (args : Compound4args) (since : Nat) :
    (s.setLoop (.sending slotId args since)).limit p = some (since + p.send) := rfl

/-- A loop that has ended does nothing more. -/
theorem limit_ended : (s.setLoop .ended).limit p = none := rfl

/-- The time does not go on, and no slot of another task gets older. -/
theorem Punctual.of_held (hs : Punctual p s) (hnow : t.now = s.now)
    (hlimit : ∀ u ∈ t.limit p, s.now ≤ u)
    (hheld : ∀ i, t.heldByOther i →
      s.heldByOther i ∧ t.allocatedAt i = s.allocatedAt i ∨ t.allocatedAt i = s.now) :
    Punctual p t := by
  refine ⟨hnow ▸ hlimit, fun i _ hi => ?_⟩
  rw [hnow]
  rcases hheld i hi with ⟨hold, heq⟩ | heq
  · rw [heq]
    exact hs.2 i (SlotTable.lt_length (heldByOther_iff.mp hold).1) hold
  · rw [heq]
    exact Nat.le_add_right _ _

/-- The bounds are kept by every step. -/
theorem punctual_of_moves (hs : Punctual p s) (h : Moves m p s e t) : Punctual p t := by
  cases h with
  | elapse d h => exact h
  | skip since arrives hloop hdue hbusy =>
      -- The loop goes on waiting, for a tick that is still to come.
      refine hs.of_held rfl (by simp [limit_waiting]; omega) fun i hi => .inl ⟨?_, rfl⟩
      have hold := (heldByOther_iff.mp hi).1
      exact heldByOther_iff.mpr ⟨hold, by simp [hloop]⟩
  | keepalive since slot arrives hloop hdue hfree =>
      -- The slot that is taken belongs to the loop, and every other one is as it was.
      refine hs.of_held rfl (by simp [limit_sending]) fun i hi => .inl ?_
      obtain ⟨hin, hne⟩ := heldByOther_iff.mp hi
      have hi' := hne slot.slotId _ _ rfl
      have hin : (s.ticked.sendOn slot arrives).session.slots.inUse[i]? = some true := hin
      rcases inUse_sendOn hin with ⟨hold, -⟩ | hslot
      · exact ⟨heldByOther_iff.mpr ⟨hold, by simp [hloop]⟩, if_neg hi'⟩
      · exact absurd hslot hi'
  | sendDone slotId args since slots hloop hslots =>
      refine hs.of_held rfl (by simp [limit_waiting]; omega) fun i hi => .inl ⟨?_, rfl⟩
      obtain ⟨hold, hne⟩ := (SlotTable.released_inUse hslots).2 i (heldByOther_iff.mp hi).1
      refine heldByOther_iff.mpr ⟨hold, fun slotId' args' since' hloop' => ?_⟩
      obtain ⟨rfl, -⟩ := LoopPhase.sending.inj (hloop.symm.trans hloop')
      exact hne
  | refused arrives => exact hs
  | request slot arrives hfree =>
      -- Another task holds the slot that is taken, from now on.
      refine hs.of_held rfl hs.1 fun i hi => ?_
      obtain ⟨hin, hne⟩ := heldByOther_iff.mp hi
      rcases inUse_sendOn hin with ⟨hold, hi'⟩ | hslot
      · exact .inl ⟨heldByOther_iff.mpr ⟨hold, hne⟩, if_neg hi'⟩
      · exact .inr (if_pos hslot)
  | finish slotId slots hheld hslots =>
      refine hs.of_held rfl hs.1 fun i hi => .inl ⟨?_, rfl⟩
      obtain ⟨hin, hne⟩ := heldByOther_iff.mp hi
      exact heldByOther_iff.mpr ⟨((SlotTable.released_inUse hslots).2 i hin).1, hne⟩
  | shutdown since hloop =>
      refine hs.of_held rfl (by simp [limit_ended]) fun i hi => .inl ⟨?_, rfl⟩
      exact heldByOther_iff.mpr ⟨(heldByOther_iff.mp hi).1, by simp [hloop]⟩

/-! ### The lease -/

/-- How old the last request in the session can be. -/
def gap (p : Pace) (period : Nat) : Nat := max (period + p.hold) p.send + p.late

/-- The next tick is due within a period and the time of a hold from the last request. -/
structure Due (p : Pace) (period : Nat) (s : Keepalive τ) : Prop where
  next_le : next s.timer ≤ s.sent + (period + p.hold)
  waiting_le : ∀ since, s.loop = .waiting since → since ≤ s.sent + max (period + p.hold) p.send
  sending_le : ∀ slotId args since, s.loop = .sending slotId args since → since ≤ s.sent

/-- What holds between two events, up to the age of the last request. -/
structure Inv (p : Pace) (period : Nat) (s : Keepalive τ) : Prop where
  slots_pos : 0 < s.session.slots.inUse.length
  hasPeriod : HasPeriod period s.timer
  punctual : Punctual p s
  /-- A busy slot was allocated for a request. -/
  busy : ∀ i, s.session.slots.inUse[i]? = some true → s.allocatedAt i ≤ s.sent
  sent_le : s.sent ≤ s.now
  due : s.loop ≠ .ended → Due p period s
  sent_le_renewed : s.loop ≠ .ended → s.sent ≤ s.renewed + s.failed * gap p period

variable {period : Nat}

/-- While the loop runs, the last request is not too old. -/
theorem Inv.now_le (hs : Inv p period s) (hloop : s.loop ≠ .ended) :
    s.now ≤ s.sent + gap p period := by
  obtain ⟨hdeadline, hwaiting, hsending⟩ := hs.due hloop
  have hlimit := hs.punctual.1
  rw [gap]
  cases heq : s.loop with
  | waiting since =>
      have hsince := hwaiting since heq
      have hnow := hlimit _ (by rw [limit, heq]; rfl)
      omega
  | sending slotId args since =>
      have hsince := hsending slotId args since heq
      have hnow := hlimit _ (by rw [limit, heq]; rfl)
      omega
  | ended => exact absurd heq hloop

/-- A request that is sent now. -/
theorem Inv.sendOn_le (hs : Inv p period s) (hloop : s.loop ≠ .ended) (slot : AllocatedSlot)
    (arrives : Bool) : (s.sendOn slot arrives).sent
      ≤ (s.sendOn slot arrives).renewed + (s.sendOn slot arrives).failed * gap p period := by
  have hnow := hs.now_le hloop
  have hrenewed := hs.sent_le_renewed hloop
  show s.now ≤ (if arrives && s.accepts slot then s.now else s.renewed)
    + (if arrives && s.accepts slot then 0 else s.failed + 1) * gap p period
  split
  · exact Nat.le_add_right _ _
  · rw [Nat.succ_mul]
    omega

/-- What was busy before the slot of a request was taken still is, and was allocated no later. -/
theorem Inv.busy_sendOn (hs : Inv p period s) (slot : AllocatedSlot) (arrives : Bool) {i : Nat}
    (h : (s.sendOn slot arrives).session.slots.inUse[i]? = some true) :
    (s.sendOn slot arrives).allocatedAt i ≤ s.now := by
  rw [allocatedAt_sendOn]
  split
  · exact Nat.le_refl _
  · rename_i hne
    rcases inUse_sendOn h with ⟨hold, -⟩ | heq
    · exact (hs.busy i hold).trans hs.sent_le
    · exact absurd heq hne

/-- When all slots are busy, the last request is no older than a hold. -/
theorem Inv.now_le_of_busy (hs : Inv p period s) {since : Nat} (hloop : s.loop = .waiting since)
    (hbusy : ∀ i < s.session.slots.inUse.length, s.session.slots.inUse[i]? = some true) :
    s.now ≤ s.sent + p.hold := by
  -- The loop waits, so another task holds the first slot.
  have hfirst := hbusy 0 hs.slots_pos
  have hheld := hs.punctual.2 0 hs.slots_pos (heldByOther_iff.mpr ⟨hfirst, by simp [hloop]⟩)
  have hsent := hs.busy 0 hfirst
  omega

/-- **Step.** Every event keeps the invariant. -/
theorem inv_of_moves [Burst τ] (hs : Inv p period s) (h : Moves m p s e t) : Inv p period t := by
  have hpunctual := punctual_of_moves hs.punctual h
  cases h with
  | elapse d h =>
      -- No bound speaks of the time except `hpunctual`.
      refine ⟨hs.slots_pos, hs.hasPeriod, hpunctual, hs.busy, Nat.le_add_right_of_le hs.sent_le,
        fun hloop => ?_, hs.sent_le_renewed⟩
      obtain ⟨hdeadline, hwaiting, hsending⟩ := hs.due hloop
      exact ⟨hdeadline, hwaiting, hsending⟩
  | skip since arrives hloop hdue hbusy =>
      have hne : s.loop ≠ .ended := by simp [hloop]
      -- A tick without a keepalive: the requests that hold the slots are recent.
      have hsent := hs.now_le_of_busy hloop hbusy
      refine ⟨hs.slots_pos, hs.hasPeriod.ticked hdue, hpunctual, hs.busy, hs.sent_le,
        fun _ => ⟨?_, ?_, ?_⟩, fun _ => hs.sent_le_renewed hne⟩
      · show next (IntervalTimer.ticked s.timer s.now) ≤ s.sent + (period + p.hold)
        rw [hs.hasPeriod.next_ticked hdue]
        omega
      · intro since' heq
        obtain rfl := LoopPhase.waiting.inj heq
        show s.now ≤ s.sent + max (period + p.hold) p.send
        omega
      · intro slotId args since' heq
        cases heq
  | keepalive since slot arrives hloop hdue hfree =>
      have hne : s.loop ≠ .ended := by simp [hloop]
      refine ⟨?_, hs.hasPeriod.ticked hdue, hpunctual, fun i => hs.busy_sendOn slot arrives,
        Nat.le_refl _, fun _ => ⟨?_, ?_, ?_⟩, fun _ => hs.sendOn_le hne slot arrives⟩
      · exact (List.length_set ..).symm ▸ hs.slots_pos
      · -- The tick was due, so the next one is due within a period.
        show next (IntervalTimer.ticked s.timer s.now) ≤ s.now + _
        rw [hs.hasPeriod.next_ticked hdue]
        omega
      · intro since' heq
        cases heq
      · intro slotId args since' heq
        obtain ⟨-, -, rfl⟩ := LoopPhase.sending.inj heq
        exact Nat.le_refl _
  | sendDone slotId args since slots hloop hslots =>
      have hne : s.loop ≠ .ended := by simp [hloop]
      obtain ⟨hlen, hinUse⟩ := SlotTable.released_inUse hslots
      obtain ⟨hdeadline, -, hsending⟩ := hs.due hne
      have hsince := hsending slotId args since hloop
      have hnow := hs.punctual.1 (since + p.send) (by rw [limit, hloop]; rfl)
      refine ⟨hlen ▸ hs.slots_pos, hs.hasPeriod, hpunctual, fun i hi => hs.busy i (hinUse i hi).1,
        hs.sent_le, fun _ => ⟨hdeadline, ?_, ?_⟩, fun _ => hs.sent_le_renewed hne⟩
      · -- The send ended in time.
        intro since' heq
        obtain rfl := LoopPhase.waiting.inj heq
        show s.now ≤ s.sent + _
        omega
      · intro slotId' args' since' heq
        cases heq
  | refused arrives => exact hs
  | request slot arrives hfree =>
      -- A later request only moves the bounds of `Due` on.
      have hsent := hs.sent_le
      refine ⟨?_, hs.hasPeriod, hpunctual, fun i => hs.busy_sendOn slot arrives, Nat.le_refl _,
        fun hne => ?_, fun hne => hs.sendOn_le hne slot arrives⟩
      · exact (List.length_set ..).symm ▸ hs.slots_pos
      · obtain ⟨hdeadline, hwaiting, hsending⟩ := hs.due hne
        exact ⟨hdeadline.trans (Nat.add_le_add_right hsent _),
          fun since heq => (hwaiting since heq).trans (Nat.add_le_add_right hsent _),
          fun slotId args since heq => (hsending slotId args since heq).trans hsent⟩
  | finish slotId slots hheld hslots =>
      obtain ⟨hlen, hinUse⟩ := SlotTable.released_inUse hslots
      refine ⟨hlen ▸ hs.slots_pos, hs.hasPeriod, hpunctual, fun i hi => hs.busy i (hinUse i hi).1,
        hs.sent_le, fun hne => ?_, hs.sent_le_renewed⟩
      obtain ⟨hdeadline, hwaiting, hsending⟩ := hs.due hne
      exact ⟨hdeadline, hwaiting, hsending⟩
  | shutdown since hloop =>
      exact ⟨hs.slots_pos, hs.hasPeriod, hpunctual, hs.busy, hs.sent_le,
        fun hne => absurd rfl hne, fun hne => absurd rfl hne⟩

/-! ### The start of the loop -/

section Start

variable {session : SessionManager} {stored : Nat → SequenceId4} {now : Nat}

/-- The loop starts behind the first tick of its timer, which it drops. -/
theorem start_eq_some (h : start session stored now = some s) :
    ∃ timer, IntervalTimer.interval now (fromSecs (session.leaseTime.toNat / 3)) = some timer ∧
      s = ⟨now, session, IntervalTimer.ticked timer now, .waiting now, fun _ => now, stored, now,
        now, 0, 0⟩ := by
  obtain ⟨timer, htimer, hs⟩ := Option.bind_eq_some_iff.mp h
  exact ⟨timer, htimer, (Option.some.inj hs).symm⟩

/-- A loop that has just started is in time. -/
theorem punctual_start (h : start session stored now = some s) (p : Pace) : Punctual p s := by
  obtain ⟨timer, -, rfl⟩ := start_eq_some h
  exact ⟨by simp [limit]; omega, fun i _ _ => Nat.le_add_right _ _⟩

/-- The first tick is taken at once. -/
theorem ticked_start [Burst τ] (h : start session stored now = some s) :
    IntervalTimer.Ticked now (fromSecs (session.leaseTime.toNat / 3)) (s.ticks + 1) s.timer := by
  obtain ⟨timer, htimer, rfl⟩ := start_eq_some h
  have hfirst := IntervalTimer.Ticked.interval htimer
  refine hfirst.tick ?_
  rw [Burst.next_eq hfirst, Nat.zero_mul]
  exact Nat.le_refl now

/-- A loop that has just started has the invariant. -/
theorem inv_start [Burst τ] (hslots : 0 < session.slots.inUse.length)
    (h : start session stored now = some s) (p : Pace) :
    Inv p (fromSecs (session.leaseTime.toNat / 3)) s := by
  have hpunctual := punctual_start h p
  have hticked := ticked_start h
  have hnext := Burst.next_eq hticked
  obtain ⟨timer, -, rfl⟩ := start_eq_some h
  constructor
  case slots_pos => exact hslots
  case hasPeriod => exact hticked.hasPeriod
  case punctual => exact hpunctual
  case busy => exact fun i _ => Nat.le_refl _
  case sent_le => exact Nat.le_refl _
  case due =>
    refine fun _ => ⟨?_, fun since heq => ?_, fun slotId args since heq => (by cases heq)⟩
    · rw [hnext, Nat.zero_add, Nat.one_mul]
      exact Nat.add_le_add_left (Nat.le_add_right _ _) _
    · obtain rfl := LoopPhase.waiting.inj heq
      exact Nat.le_add_right _ _
  case sent_le_renewed => exact fun _ => Nat.le_add_right _ _

end Start

/-- The client and the server go on to agree, as long as no request is lost. -/
theorem agreed_of_moves (hs : Agreed s) (he : e.arrives = true) (h : Moves m p s e t) :
    Agreed t := by
  cases h with
  | elapse d h => exact ⟨hs.free, hs.busy, hs.sending, hs.failed_eq⟩
  | skip since arrives hloop hdue hbusy =>
      exact ⟨hs.free, hs.busy, fun slotId args since' heq => (by cases heq), hs.failed_eq⟩
  | keepalive since slot arrives hloop hdue hfree =>
      obtain rfl : arrives = true := he
      have hticked : Agreed s.ticked := ⟨hs.free, hs.busy, hs.sending, hs.failed_eq⟩
      have hsent : Agreed (s.ticked.sendOn slot true) := hticked.sendOn hfree
      refine ⟨hsent.free, hsent.busy, fun slotId args since' heq => ?_, hsent.failed_eq⟩
      obtain ⟨rfl, -⟩ := LoopPhase.sending.inj heq
      show (s.session.slots.take _).inUse[_]? = some true
      rw [SlotTable.inUse_take (SlotTable.lt_length hfree.1), if_pos rfl]
  | sendDone slotId args since slots hloop hslots =>
      -- The loop leaves its slot first, and then gives it back.
      have hwaiting : Agreed (s.setLoop (.waiting s.now)) :=
        ⟨hs.free, hs.busy, fun slotId' args' since' heq => (by cases heq), hs.failed_eq⟩
      exact hwaiting.released (hs.sending slotId args since hloop) hslots
        fun slotId' args' since' heq => (by cases heq)
  | refused arrives => exact hs
  | request slot arrives hfree =>
      obtain rfl : arrives = true := he
      exact hs.sendOn hfree
  | finish slotId slots hheld hslots =>
      obtain ⟨hbusy, hne⟩ := heldByOther_iff.mp hheld
      exact hs.released hbusy hslots hne
  | shutdown since hloop =>
      exact ⟨hs.free, hs.busy, fun slotId args since' heq => (by cases heq), hs.failed_eq⟩

/-- Ids in step at the start agree. -/
theorem agreed_start {session : SessionManager} {stored : Nat → SequenceId4} {now : Nat}
    (hstep : InStep session.slots stored) (h : start session stored now = some s) : Agreed s := by
  obtain ⟨timer, -, rfl⟩ := start_eq_some h
  refine ⟨fun i hi => (hstep i (SlotTable.lt_length hi)).2, fun i hi => ?_,
    fun slotId args since heq => (by cases heq), rfl⟩
  have hi : session.slots.inUse[i]? = some true := hi
  have hfree := (hstep i (SlotTable.lt_length hi)).1
  rw [hi] at hfree
  cases hfree

/-! ### The lease of a session -/

/-- Sends take up to 10 seconds, and other tasks hold a slot for up to 15. -/
def samplePace : Pace where
  late := 0
  send := fromSecs 10
  hold := fromSecs 15

/-- In a session with one slot: other traffic holds it when the first tick is due, and the
keepalive of the second one is lost. -/
def sampleTraffic : List KeepaliveEvent :=
  [.elapse (fromSecs 20), .request true, .elapse (fromSecs 10), .tick true, .elapse (fromSecs 5),
    .finish 0, .elapse (fromSecs 25), .tick false, .elapse (fromSecs 10), .sendDone]

/-- A session whose first request was accepted. -/
def sampleSession : SessionManager where
  sessionId := FixedOpaque.ofBytes 16 [1]
  clientId := ⟨5⟩
  leaseTime := 90
  slots := (SlotTable.new 1).free 0 2

/-- Where the sample traffic leads: to 70 s, with one failed request since the one of 20 s. -/
theorem run_sampleTraffic : ∃ s t : Keepalive Schedule,
    start sampleSession (fun _ => 1) 0 = some s ∧
    run (step .checked samplePace) s sampleTraffic = some t ∧
    (t.now, t.renewed, t.failed) = (fromSecs 70, fromSecs 20, 1) ∧
    t.loop = .waiting (fromSecs 70) := by
  have hend : ((start sampleSession (fun _ => 1) 0 : Option (Keepalive Schedule)).bind fun s =>
      run (step .checked samplePace) s sampleTraffic).map
        (fun t => ((t.now, t.renewed, t.failed), t.loop))
      = some ((fromSecs 70, fromSecs 20, 1), .waiting (fromSecs 70)) := by decide +kernel
  obtain ⟨t, ht, heq⟩ := Option.map_eq_some_iff.mp hend
  obtain ⟨s, hs, hrun⟩ := Option.bind_eq_some_iff.mp ht
  exact ⟨s, t, hs, hrun, congrArg Prod.fst heq, congrArg Prod.snd heq⟩

/-- The loop keeps up with its timer, which started at `begun`. -/
structure OnTime (p : Pace) (period begun : Nat) (s : Keepalive τ) : Prop where
  ticked : IntervalTimer.Ticked begun period (s.ticks + 1) s.timer
  punctual : Punctual p s
  ticks_le : begun + s.ticks * period ≤ s.now
  waiting_le : ∀ since, s.loop = .waiting since → since ≤ next s.timer
  sending_le : ∀ slotId args since, s.loop = .sending slotId args since →
    since + period ≤ next s.timer + p.late

/-- A tick is taken when it is due, and no more than `late` behind. -/
theorem OnTime.now_le {begun : Nat} (hs : OnTime p period begun s) {since : Nat}
    (hloop : s.loop = .waiting since) : s.now ≤ next s.timer + p.late := by
  have hsince := hs.waiting_le since hloop
  have hlimit := hs.punctual.1 _ (by rw [limit, hloop]; rfl)
  omega

/-- The ticks that were taken have come due. -/
theorem OnTime.ticks_succ_le [Burst τ] {begun : Nat} (hs : OnTime p period begun s)
    (hdue : next s.timer ≤ s.now) : begun + (s.ticks + 1) * period ≤ s.now := by
  rwa [← Burst.next_eq hs.ticked]

/-- **Step.** Every event keeps the loop on time. -/
theorem onTime_of_moves [Burst τ] {begun : Nat} (hpace : p.late + p.send ≤ period)
    (hs : OnTime p period begun s) (h : Moves m p s e t) : OnTime p period begun t := by
  have hpunctual := punctual_of_moves hs.punctual h
  cases h with
  | elapse d h =>
      -- The counts and the timer stand still while time passes.
      exact ⟨hs.ticked, hpunctual, Nat.le_add_right_of_le hs.ticks_le, hs.waiting_le,
        hs.sending_le⟩
  | skip since arrives hloop hdue hbusy =>
      have hnow := hs.now_le hloop
      refine ⟨hs.ticked.tick hdue, hpunctual, hs.ticks_succ_le hdue, fun since' heq => ?_,
        fun slotId args since' heq => (by cases heq)⟩
      obtain rfl := LoopPhase.waiting.inj heq
      show s.now ≤ next (IntervalTimer.ticked s.timer s.now)
      rw [hs.ticked.hasPeriod.next_ticked hdue]
      omega
  | keepalive since slot arrives hloop hdue hfree =>
      have hnow := hs.now_le hloop
      refine ⟨hs.ticked.tick hdue, hpunctual, hs.ticks_succ_le hdue,
        fun since' heq => (by cases heq), fun slotId args since' heq => ?_⟩
      obtain ⟨-, -, rfl⟩ := LoopPhase.sending.inj heq
      show s.now + period ≤ next (IntervalTimer.ticked s.timer s.now) + p.late
      rw [hs.ticked.hasPeriod.next_ticked hdue]
      omega
  | sendDone slotId args since slots hloop hslots =>
      -- The tick that sent was late by `p.late` at most, and the send took `p.send` at most.
      have hsince := hs.sending_le slotId args since hloop
      have hnow := hs.punctual.1 (since + p.send) (by rw [limit, hloop]; rfl)
      refine ⟨hs.ticked, hpunctual, hs.ticks_le, fun since' heq => ?_,
        fun slotId' args' since' heq => (by cases heq)⟩
      obtain rfl := LoopPhase.waiting.inj heq
      show s.now ≤ next s.timer
      omega
  | refused arrives => exact hs
  | request slot arrives hfree =>
      exact ⟨hs.ticked, hpunctual, hs.ticks_le, hs.waiting_le, hs.sending_le⟩
  | finish slotId slots hheld hslots =>
      exact ⟨hs.ticked, hpunctual, hs.ticks_le, hs.waiting_le, hs.sending_le⟩
  | shutdown since hloop =>
      exact ⟨hs.ticked, hpunctual, hs.ticks_le, fun since' heq => (by cases heq),
        fun slotId args since' heq => (by cases heq)⟩

/-- A loop that has just started is on time. -/
theorem onTime_start [Burst τ] {session : SessionManager} {stored : Nat → SequenceId4} {now : Nat}
    (h : start session stored now = some s) (p : Pace) :
    OnTime p (fromSecs (session.leaseTime.toNat / 3)) now s := by
  have hpunctual := punctual_start h p
  have hticked := ticked_start h
  have hnext := Burst.next_eq hticked
  obtain ⟨timer, -, rfl⟩ := start_eq_some h
  constructor
  case ticked => exact hticked
  case punctual => exact hpunctual
  case ticks_le =>
    rw [Nat.zero_mul]
    exact Nat.le_refl _
  case waiting_le =>
    intro since heq
    obtain rfl := LoopPhase.waiting.inj heq
    rw [hnext]
    exact Nat.le_add_right _ _
  case sending_le =>
    intro slotId args since heq
    cases heq

/-- **Ticks come on time.** The loop runs on a timer of the default kind. When a tick and its send
take no longer than a period, the loop has taken one tick for each period that has passed, and the
next one when it is up to `late` behind. So ticks are neither lost nor early, whatever the other
traffic does, and the delays of the loop do not add up. -/
theorem ticks_on_time [Burst τ] (m : Build) (p : Pace) (session : SessionManager)
    (hpace : p.late + p.send ≤ fromSecs (session.leaseTime.toNat / 3))
    (stored : Nat → SequenceId4) (now : Nat) (s t : Keepalive τ)
    (hstart : start session stored now = some s) (events : List KeepaliveEvent)
    (hrun : run (step m p) s events = some t) (hloop : t.loop ≠ .ended) :
    now + t.ticks * fromSecs (session.leaseTime.toNat / 3) ≤ t.now ∧
      t.now ≤ now + (t.ticks + 1) * fromSecs (session.leaseTime.toNat / 3) + p.late := by
  have hinv : OnTime p (fromSecs (session.leaseTime.toNat / 3)) now t :=
    run_invariant (fun _ _ _ hs h => onTime_of_moves hpace hs (step_moves h))
      (onTime_start hstart p) hrun
  refine ⟨hinv.ticks_le, ?_⟩
  rw [← Burst.next_eq hinv.ticked]
  cases heq : t.loop with
  | waiting since => exact hinv.now_le heq
  | sending slotId args since =>
      have hsince := hinv.sending_le slotId args since heq
      have hnow := hinv.punctual.1 (since + p.send) (by rw [limit, heq]; rfl)
      omega
  | ended => exact absurd heq hloop

/-- The sample traffic, tick by tick. -/
theorem ticks_on_time_sampleTraffic :
    ∃ s t : Keepalive Schedule, start sampleSession (fun _ => 1) 0 = some s ∧
      run (step .checked samplePace) s sampleTraffic = some t ∧
      0 + t.ticks * fromSecs 30 ≤ t.now ∧
      t.now ≤ 0 + (t.ticks + 1) * fromSecs 30 + samplePace.late := by
  obtain ⟨s, t, hs, hrun, -, hloop⟩ := run_sampleTraffic
  exact ⟨s, t, hs, hrun, ticks_on_time .checked samplePace sampleSession (by decide) (fun _ => 1) 0
    s t hs sampleTraffic hrun (by simp [hloop])⟩

end Keepalive

end NfsMount.Nfs4Client
