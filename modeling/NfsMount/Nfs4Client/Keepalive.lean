import NfsMount.Lib.Interval
import NfsMount.Nfs4Client.Client

/-!
# `NfsMount.Nfs4Client.Keepalive`: the keepalive loop beside other traffic

The model of `keepalive_loop` in `nfs4-client/src/keepalive.rs`, on any timer. The loop shares the
session with other tasks, which allocate slots and release them as it does. Each of the events
below is what one task does between two `await`s, or time that passes.

At the other end is a server that keeps, for each slot, the sequence id that it accepted last. It
accepts a SEQUENCE with the next one, and this is what renews the lease. A request that is lost,
or that is refused, renews nothing.

Nothing in the source says how long anything takes. `Pace` has bounds for it, and time does not
pass beyond them (`Keepalive.Punctual`). The times are in nanoseconds.
-/

set_option autoImplicit false

namespace NfsMount.Nfs4Client

open NfsMount.Lib NfsMount.Nfs4Types

/-- The request of a keepalive. -/
def keepaliveArgs (sessionId : SessionId4) (slot : AllocatedSlot) : Compound4args :=
  ((CompoundBuilder.new.withTag "keepalive").sequence sessionId slot.sequenceId slot.slotId
    slot.highestSlotId).build

/-- Where the loop stands. -/
inductive LoopPhase where
  /-- In the `select!`, from this time on. -/
  | waiting (since : Nat)
  /-- Waits for `send_compound`. -/
  | sending (slotId : SlotId4) (args : Compound4args) (since : Nat)
  | ended
deriving DecidableEq

/-- How long things take at most. -/
structure Pace where
  /-- From when a tick is due to when the loop takes it. -/
  late : Nat
  /-- The `send_compound` of the loop. -/
  send : Nat
  /-- From when another task allocates a slot to when it releases it. -/
  hold : Nat

/-- The session, its users, and the server, at a time. -/
structure Keepalive (τ : Type) where
  now : Nat
  session : SessionManager
  timer : τ
  loop : LoopPhase
  /-- When each slot was last allocated. -/
  allocatedAt : Nat → Nat
  /-- The sequence id that the server accepted last on each slot. -/
  stored : Nat → SequenceId4
  /-- When the last request was sent in the session. -/
  sent : Nat
  /-- When the last request was sent that the server accepted. -/
  renewed : Nat
  /-- How many requests were lost or refused since then. -/
  failed : Nat
  /-- How many ticks were taken, besides the first. -/
  ticks : Nat

/-- What can happen. -/
inductive KeepaliveEvent where
  | elapse (d : Duration)
  /-- `timer.tick()` completes. A request that is sent then comes to be judged by its sequence id,
  or it is lost, or refused for another reason. -/
  | tick (arrives : Bool)
  /-- `send_compound` returns, `Ok` or `Err`. -/
  | sendDone
  /-- Another task sends a request, if it gets a slot. -/
  | request (arrives : Bool)
  /-- Another task releases its slot. -/
  | finish (slotId : SlotId4)
  | shutdown
deriving DecidableEq

/-- No request that is sent in the event is lost, or refused for another reason than its id. -/
def KeepaliveEvent.arrives : KeepaliveEvent → Bool
  | .tick arrives | .request arrives => arrives
  | .elapse _ | .sendDone | .finish _ | .shutdown => true

namespace Keepalive

variable {τ : Type}

/-- A slot that the loop does not hold itself. -/
def heldByOther (s : Keepalive τ) (i : Nat) : Bool :=
  s.session.slots.inUse[i]? == some true &&
    match s.loop with
    | .sending slotId _ _ => i != slotId.toNat
    | .waiting _ | .ended => true

/-- The state with the loop at another place. -/
def setLoop (s : Keepalive τ) (loop : LoopPhase) : Keepalive τ := { s with loop }

/-- The state with other slots in the session. -/
def setSlots (s : Keepalive τ) (slots : SlotTable) : Keepalive τ :=
  { s with session := { s.session with slots } }

/-- The server accepts the SEQUENCE of a request that arrives. -/
def accepts (s : Keepalive τ) (slot : AllocatedSlot) : Bool :=
  slot.sequenceId = s.stored slot.slotId.toNat + 1

/-- A request goes out on a slot that was just allocated. -/
def send (s : Keepalive τ) (slot : AllocatedSlot) (arrives : Bool) : Keepalive τ :=
  let i := slot.slotId.toNat
  let accepted := arrives && s.accepts slot
  { s with
    allocatedAt := fun j => if j = i then s.now else s.allocatedAt j
    stored := fun j => if accepted ∧ j = i then slot.sequenceId else s.stored j
    sent := s.now
    renewed := if accepted then s.now else s.renewed
    failed := if accepted then 0 else s.failed + 1 }

variable [IntervalTimer τ]

/-- The start of the loop, right after a request in the session that was accepted. The first tick
is taken at once. -/
def start (session : SessionManager) (stored : Nat → SequenceId4) (now : Nat) :
    Option (Keepalive τ) := do
  let timer ← IntervalTimer.interval now (fromSecs (session.leaseTime.toNat / 3))
  some {
    now, session, stored, loop := .waiting now, timer := IntervalTimer.ticked timer now
    allocatedAt := fun _ => now, sent := now, renewed := now, failed := 0, ticks := 0 }

/-- Until when the loop has moved on. -/
def limit (p : Pace) (s : Keepalive τ) : Option Nat :=
  match s.loop with
  | .waiting since => some (max (IntervalTimer.next s.timer) since + p.late)
  | .sending _ _ since => some (since + p.send)
  | .ended => none

/-- Nothing takes longer than it may, up to now. -/
def Punctual (p : Pace) (s : Keepalive τ) : Prop :=
  (∀ t ∈ s.limit p, s.now ≤ t) ∧
  ∀ i < s.session.slots.inUse.length, s.heldByOther i → s.now ≤ s.allocatedAt i + p.hold

instance (p : Pace) (s : Keepalive τ) : Decidable (Punctual p s) :=
  inferInstanceAs (Decidable (_ ∧ _))

/-- What an event leads to, if it can happen. -/
def step (m : Build) (p : Pace) (s : Keepalive τ) : KeepaliveEvent → Option (Keepalive τ)
  | .elapse d =>
      let s := { s with now := s.now + d }
      if Punctual p s then some s else none
  | .tick arrives =>
      match s.loop with
      | .waiting _ =>
          if IntervalTimer.next s.timer ≤ s.now then
            let s := { s with timer := IntervalTimer.ticked s.timer s.now, ticks := s.ticks + 1 }
            match s.session.slots.tryAllocSlot m with
            | none => none
            -- All slots are busy, and the tick is skipped.
            | some (none, slots) => some ((s.setSlots slots).setLoop (.waiting s.now))
            | some (some slot, slots) =>
                some (((s.setSlots slots).send slot arrives).setLoop
                  (.sending slot.slotId (keepaliveArgs s.session.sessionId slot) s.now))
          else none
      | .sending _ _ _ | .ended => none
  | .sendDone =>
      match s.loop with
      | .sending slotId _ _ => do
          let slots ← s.session.slots.released m slotId
          some ((s.setSlots slots).setLoop (.waiting s.now))
      | .waiting _ | .ended => none
  | .request arrives =>
      match s.session.slots.tryAllocSlot m with
      | none => none
      | some (none, slots) => some (s.setSlots slots)
      | some (some slot, slots) => some ((s.setSlots slots).send slot arrives)
  | .finish slotId =>
      if s.heldByOther slotId.toNat then do
        let slots ← s.session.slots.released m slotId
        some (s.setSlots slots)
      else none
  | .shutdown =>
      match s.loop with
      | .waiting _ => some (s.setLoop .ended)
      | .sending _ _ _ | .ended => none

end Keepalive

end NfsMount.Nfs4Client
