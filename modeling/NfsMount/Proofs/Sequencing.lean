import Mathlib.Logic.Function.Basic
import NfsMount.Lib.Run
import NfsMount.Nfs4Client.Session

/-!
# `NfsMount.Proofs.Sequencing`: what the server sees of a slot

The client's slot table against a session server, over a connection that may lose requests. A
request that the encoder refuses is not sent at all, which for the server is the same.
The users of slots are `resolve_path`, the ticks of `keepalive_loop`, and RECLAIM_COMPLETE in
`connect`. Each allocates a slot, sends one SEQUENCE on it, and releases it when the call has
returned, however it returned. RECLAIM_COMPLETE alone keeps its slot when the call failed.
The requests of a slot go over one connection, so they arrive in the order they were sent.

The server stores the last sequence id it accepted of each slot. The client's next sequence
id counts all requests of the slot, so the two move apart by one with every request that
was lost or not accepted. `failed` counts these. The invariant is that the next request to
arrive carries the stored id, plus `failed`, plus 1, and `arrivals_inOrder_iff` draws the
consequence.
-/

set_option autoImplicit false

namespace NfsMount.Nfs4Client

open NfsMount.Lib NfsMount.Nfs4Types

/-- The code that sends a SEQUENCE on a slot. -/
inductive SlotUser where
  | resolvePath
  | keepalive
  | reclaimComplete
deriving DecidableEq

/-- How far a user has got with its slot. `returned` tells whether the call returned `Ok`. -/
inductive Phase where
  | allocated
  | sent
  | returned (ok : Bool)
deriving DecidableEq

/-- A user that has a slot, with the sequence id of its request. -/
structure Request where
  user : SlotUser
  slotId : SlotId4
  sequenceId : SequenceId4
  phase : Phase

/-- One slot, on the connection and at the server. -/
structure Channel where
  /-- The requests that were sent and have neither arrived nor been lost. -/
  inFlight : List SequenceId4
  /-- The last sequence id that the server accepted. -/
  stored : SequenceId4
  /-- How many requests were lost, or arrived and were not accepted. -/
  failed : Nat

namespace Channel

/-- The request is behind those in flight. -/
def send (c : Channel) (sequenceId : SequenceId4) : Channel :=
  { c with inFlight := c.inFlight ++ [sequenceId] }

/-- The oldest request is lost, or it arrives and is not accepted. -/
def fail (c : Channel) : Channel :=
  { c with inFlight := c.inFlight.tail, failed := c.failed + 1 }

/-- The oldest request arrives and is accepted. -/
def accept (c : Channel) : Channel :=
  { c with inFlight := c.inFlight.tail, stored := c.stored + 1 }

end Channel

/-- A SEQUENCE that arrived, with the state of its slot at that moment. -/
structure Arrival where
  slotId : SlotId4
  sequenceId : SequenceId4
  stored : SequenceId4
  failed : Nat
deriving DecidableEq

/-- The client's slots and their users, with the connection and the server. -/
structure Session where
  table : SlotTable
  requests : Nat → Option Request
  channels : SlotId4 → Channel
  arrivals : List Arrival

/-- What can happen next, on either side. -/
inductive SessionEvent where
  /-- A user, under a number of its own, allocates a slot. -/
  | alloc (id : Nat) (user : SlotUser)
  | send (id : Nat)
  /-- The oldest request in flight of the slot does not reach the server. A request that the
  encoder refuses has no bytes to send, and counts as lost too. -/
  | lost (slotId : SlotId4)
  /-- The oldest request in flight of the slot arrives. -/
  | arrives (slotId : SlotId4) (accepted : Bool)
  /-- The call returns to the user. The reply to it may have been lost. -/
  | returns (id : Nat) (ok : Bool)
  /-- The user is done with its slot. -/
  | finish (id : Nat)

namespace Session

/-- A new session: no slot is used, and the server has accepted nothing. -/
def new (maxSlots : UInt32) : Session where
  table := SlotTable.new maxSlots
  requests := fun _ => none
  channels := fun _ => { inFlight := [], stored := 0, failed := 0 }
  arrivals := []

/-- A user comes, goes on, or goes. -/
def setRequest (s : Session) (id : Nat) (r : Option Request) : Session :=
  { s with requests := Function.update s.requests id r }

/-- Something happens to the requests of a slot. -/
def setChannel (s : Session) (slotId : SlotId4) (c : Channel) : Session :=
  { s with channels := Function.update s.channels slotId c }

/-- What a request finds when it arrives. -/
def arrival (s : Session) (slotId : SlotId4) (sequenceId : SequenceId4) : Arrival where
  slotId := slotId
  sequenceId := sequenceId
  stored := (s.channels slotId).stored
  failed := (s.channels slotId).failed

/-- A user gives its slot back. RECLAIM_COMPLETE does so only when its call succeeded. -/
def giveBack (m : Build) (s : Session) (r : Request) (ok : Bool) : Option SlotTable :=
  -- `connect` returns at the error and never comes to its `release_slot`.
  if r.user = .reclaimComplete ∧ ok = false then
    some s.table
  else
    s.table.released m r.slotId

/-- The session after an event, if it can happen. A panic of the arithmetic ends the run. -/
def step (m : Build) (s : Session) : SessionEvent → Option Session
  | .alloc id user =>
      match s.requests id with
      | some _ => none
      | none =>
          match s.table.tryAllocSlot m with
          | none => none
          | some (none, table) => some { s with table }
          | some (some slot, table) =>
              let r : Request := ⟨user, slot.slotId, slot.sequenceId, .allocated⟩
              some ({ s with table }.setRequest id (some r))
  | .send id =>
      match s.requests id with
      | none => none
      | some r =>
          if r.phase = .allocated then
            some ((s.setRequest id (some { r with phase := .sent })).setChannel r.slotId
              ((s.channels r.slotId).send r.sequenceId))
          else
            none
  | .lost slotId =>
      match (s.channels slotId).inFlight with
      | [] => none
      | _ :: _ => some (s.setChannel slotId (s.channels slotId).fail)
  | .arrives slotId accepted =>
      match (s.channels slotId).inFlight with
      | [] => none
      | sequenceId :: _ =>
          let arrivals := s.arrivals ++ [s.arrival slotId sequenceId]
          if accepted then
            -- Only the successor of the stored id may be accepted.
            if sequenceId = (s.channels slotId).stored + 1 then
              some ({ s with arrivals }.setChannel slotId (s.channels slotId).accept)
            else
              none
          else
            some ({ s with arrivals }.setChannel slotId (s.channels slotId).fail)
  | .returns id ok =>
      match s.requests id with
      | none => none
      | some r =>
          if r.phase = .sent then
            some (s.setRequest id (some { r with phase := .returned ok }))
          else
            none
  | .finish id =>
      match s.requests id with
      | none => none
      | some r =>
          match r.phase with
          | .returned ok =>
              match s.giveBack m r ok with
              | none => none
              | some table => some ({ s with table }.setRequest id none)
          | _ => none

/-! ### What each event does -/

variable {s s' : Session} {m : Build} {id : Nat} {slotId : SlotId4}

/-- An allocation finds no slot, or it makes a request for the slot it finds. -/
theorem step_alloc {user : SlotUser} (h : step m s (.alloc id user) = some s') :
    s' = s ∨ ∃ slot table, s.table.tryAllocSlot m = some (some slot, table) ∧
      s' = { s with table }.setRequest id
        (some ⟨user, slot.slotId, slot.sequenceId, .allocated⟩) := by
  simp only [step] at h
  split at h
  · simp at h
  · split at h
    · simp at h
    · rename_i table halloc
      left
      rw [(SlotTable.tryAllocSlot_eq_none halloc).1, Option.some.injEq] at h
      exact h.symm
    · rename_i slot table halloc
      right
      exact ⟨slot, table, halloc, (Option.some.inj h).symm⟩

/-- A request is sent once. -/
theorem step_send (h : step m s (.send id) = some s') :
    ∃ r, s.requests id = some r ∧ r.phase = .allocated ∧
      s' = (s.setRequest id (some { r with phase := .sent })).setChannel r.slotId
        ((s.channels r.slotId).send r.sequenceId) := by
  simp only [step] at h
  split at h
  · simp at h
  · rename_i r hr
    split at h
    · rename_i hphase
      exact ⟨r, hr, hphase, (Option.some.inj h).symm⟩
    · simp at h

/-- The oldest request of the slot is lost. -/
theorem step_lost (h : step m s (.lost slotId) = some s') :
    ∃ seq rest, (s.channels slotId).inFlight = seq :: rest ∧
      s' = s.setChannel slotId (s.channels slotId).fail := by
  simp only [step] at h
  split at h
  · simp at h
  · rename_i seq rest hflight
    exact ⟨seq, rest, hflight, (Option.some.inj h).symm⟩

/-- A request that arrives is recorded. It is accepted only in its place. -/
theorem step_arrives {accepted : Bool} (h : step m s (.arrives slotId accepted) = some s') :
    ∃ seq rest, (s.channels slotId).inFlight = seq :: rest ∧
      ((accepted = true ∧ seq = (s.channels slotId).stored + 1 ∧
          s' = { s with arrivals := s.arrivals ++ [s.arrival slotId seq] }.setChannel slotId
            (s.channels slotId).accept) ∨
        (accepted = false ∧
          s' = { s with arrivals := s.arrivals ++ [s.arrival slotId seq] }.setChannel slotId
            (s.channels slotId).fail)) := by
  simp only [step] at h
  split at h
  · simp at h
  · -- The channel of a slot is in order: the first request in flight arrives first.
    rename_i seq rest hflight
    refine ⟨seq, rest, hflight, ?_⟩
    cases accepted with
    | false =>
        right
        exact ⟨rfl, (Option.some.inj h).symm⟩
    | true =>
        left
        rw [if_pos rfl] at h
        split at h
        · rename_i hseq
          exact ⟨rfl, hseq, (Option.some.inj h).symm⟩
        · simp at h

/-- A call returns once, to a user that has sent its request. -/
theorem step_returns {ok : Bool} (h : step m s (.returns id ok) = some s') :
    ∃ r, s.requests id = some r ∧ r.phase = .sent ∧
      s' = s.setRequest id (some { r with phase := .returned ok }) := by
  simp only [step] at h
  split at h
  · simp at h
  · rename_i r hr
    split at h
    · rename_i hphase
      exact ⟨r, hr, hphase, (Option.some.inj h).symm⟩
    · simp at h

/-- A user finishes behind its call, and gives its slot back. -/
theorem step_finish (h : step m s (.finish id) = some s') :
    ∃ r ok table, s.requests id = some r ∧ r.phase = .returned ok ∧
      s.giveBack m r ok = some table ∧ s' = { s with table }.setRequest id none := by
  simp only [step] at h
  split at h
  · simp at h
  · rename_i r hr
    split at h
    · rename_i ok hphase
      split at h
      · simp at h
      · rename_i table hback
        exact ⟨r, ok, table, hr, hphase, hback, (Option.some.inj h).symm⟩
    · simp at h

end Session

/-! ### One slot -/

namespace Channel

/-- The sequence id of the `j`-th request that will arrive from now on, unless it is lost. -/
def expected (c : Channel) (j : Nat) : SequenceId4 :=
  c.stored + UInt32.ofNat c.failed + 1 + UInt32.ofNat j

/-- The sequence id of the next request that is sent. -/
def next (c : Channel) : SequenceId4 := c.expected c.inFlight.length

/-- The requests in flight carry the ids in the order they were sent. -/
def InSequence (c : Channel) : Prop :=
  ∀ j seq, c.inFlight[j]? = some seq → seq = c.expected j

variable {c c' : Channel}

/-- The next place is the next id. -/
theorem expected_succ (c : Channel) (j : Nat) : c.expected (j + 1) = c.expected j + 1 := by
  rw [expected, expected, UInt32.ofNat_add, ← UInt32.add_assoc]
  rfl

/-- The others move up when a request fails. -/
theorem expected_fail (c : Channel) (j : Nat) : c.fail.expected j = c.expected (j + 1) := by
  simp only [expected, fail, UInt32.ofNat_add]
  ac_rfl

/-- The others move up when a request is accepted. -/
theorem expected_accept (c : Channel) (j : Nat) : c.accept.expected j = c.expected (j + 1) := by
  simp only [expected, accept, UInt32.ofNat_add]
  ac_rfl

/-- A request with the next id keeps the order. -/
theorem inSequence_send (h : c.InSequence) : (c.send c.next).InSequence := by
  intro j seq hj
  rcases getElem?_concat_eq_some.mp hj with hj | ⟨rfl, rfl⟩
  · exact h j seq hj
  · rfl

/-- The id behind it is the next one. -/
theorem next_send (c : Channel) (seq : SequenceId4) : (c.send seq).next = c.next + 1 := by
  rw [next, next, send, List.length_append]
  exact expected_succ c _

/-- When the oldest request is gone, the rest is in sequence with it counted. -/
theorem inSequence_tail (h : c.InSequence) (htail : c'.inFlight = c.inFlight.tail)
    (hexpected : ∀ j, c'.expected j = c.expected (j + 1)) : c'.InSequence := by
  intro j seq hj
  rw [htail, List.getElem?_tail] at hj
  rw [hexpected]
  exact h (j + 1) seq hj

/-- When the oldest request is gone, the next id is the same. -/
theorem next_tail {seq : SequenceId4} {rest : List SequenceId4} (h : c.inFlight = seq :: rest)
    (htail : c'.inFlight = c.inFlight.tail)
    (hexpected : ∀ j, c'.expected j = c.expected (j + 1)) : c'.next = c.next := by
  rw [next, next, htail, h, hexpected]
  rfl

end Channel

/-! ### The invariant -/

/-- The sequence ids of the slot that the request uses up before it returns. -/
def Phase.used : Phase → SequenceId4
  | .allocated => 0
  | .sent | .returned _ => 1

/-- What the table and the connection say about a slot that is held. -/
structure Request.Agrees (t : SlotTable) (c : Channel) (r : Request) : Prop where
  inUse : t.inUse[r.slotId.toNat]? = some true
  sequenceId : t.sequenceIds[r.slotId.toNat]? = some r.sequenceId
  next : c.next = r.sequenceId + r.phase.used

namespace Session

/-- The table counts the requests of each slot, and the server sees them in sequence. -/
structure Inv (s : Session) : Prop where
  inSequence : ∀ slotId, (s.channels slotId).InSequence
  free : ∀ slotId, s.table.inUse[slotId.toNat]? = some false →
    s.table.sequenceIds[slotId.toNat]? = some (s.channels slotId).next
  agrees : ∀ id r, s.requests id = some r → r.Agrees s.table (s.channels r.slotId)
  distinct : ∀ id id' r r', s.requests id = some r → s.requests id' = some r' →
    r.slotId = r'.slotId → id = id'
  arrivals : ∀ a ∈ s.arrivals, a.sequenceId = a.stored + UInt32.ofNat a.failed + 1

variable {s s' : Session} {m : Build}

/-- A new session has the invariant. -/
theorem inv_new (maxSlots : UInt32) : Inv (new maxSlots) where
  inSequence _ _ _ h := nomatch h
  free _ h := SlotTable.sequenceIds_new (SlotTable.inUse_new.mp h).1
  agrees _ _ h := nomatch h
  distinct _ _ _ _ h := nomatch h
  arrivals _ h := nomatch h

/-- The slot that is taken was free, so it has one user. -/
theorem inv_alloc {id : Nat} {user : SlotUser} {slot : AllocatedSlot} {table : SlotTable}
    (hs : Inv s) (h : s.table.tryAllocSlot m = some (some slot, table)) :
    Inv ({ s with table }.setRequest id
      (some ⟨user, slot.slotId, slot.sequenceId, .allocated⟩)) := by
  obtain ⟨hfree, -, hseq, -, rfl⟩ := SlotTable.tryAllocSlot_eq_slot h
  have hlt := SlotTable.lt_length hfree
  -- The slots of the other requests are in use, and the new one was free.
  have hother : ∀ id r, s.requests id = some r → slot.slotId ≠ r.slotId := by
    intro id r hr heq
    have htrue := (hs.agrees id r hr).inUse
    rw [← heq, hfree] at htrue
    simp at htrue
  constructor
  case inSequence => exact hs.inSequence
  case arrivals => exact hs.arrivals
  case free =>
      intro slotId hslot
      simp only [setRequest, SlotTable.inUse_take hlt] at hslot
      split at hslot
      · simp at hslot
      · exact hs.free slotId hslot
  case agrees =>
      intro id' r hr
      simp only [setRequest, Function.update_apply] at hr
      split at hr
      · obtain rfl := Option.some.inj hr
        refine ⟨?_, hseq, ?_⟩
        · simp only [setRequest, SlotTable.inUse_take hlt, if_true]
        · have hnext := hs.free slot.slotId hfree
          rw [hseq, Option.some.injEq] at hnext
          exact hnext.symm.trans (UInt32.add_zero _).symm
      · have hold := hs.agrees id' r hr
        refine ⟨?_, hold.sequenceId, hold.next⟩
        simp only [setRequest, SlotTable.inUse_take hlt, hold.inUse, ite_self]
  case distinct =>
      intro id₁ id₂ r₁ r₂ h₁ h₂ heq
      simp only [setRequest, Function.update_apply] at h₁ h₂
      split at h₁
      · split at h₂
        · rename_i h₁' h₂'
          rw [h₁', h₂']
        · obtain rfl := Option.some.inj h₁
          exact absurd heq (hother id₂ r₂ h₂)
      · split at h₂
        · obtain rfl := Option.some.inj h₂
          exact absurd heq.symm (hother id₁ r₁ h₁)
        · exact hs.distinct id₁ id₂ r₁ r₂ h₁ h₂ heq

/-- Another request of the session has another slot. -/
theorem Inv.slotId_ne (hs : Inv s) {id id' : Nat} {r r' : Request}
    (hr : s.requests id = some r) (hr' : s.requests id' = some r') (hne : id' ≠ id) :
    r'.slotId ≠ r.slotId :=
  fun heq => hne (hs.distinct id' id r' r hr' hr heq)

/-- A request goes on to another phase. -/
theorem inv_setPhase {id : Nat} {r : Request} {phase : Phase} {c : Channel} (hs : Inv s)
    (hr : s.requests id = some r) (hc : c.InSequence)
    (hnext : c.next = r.sequenceId + phase.used) :
    Inv ((s.setRequest id (some { r with phase })).setChannel r.slotId c) := by
  have hheld := hs.agrees id r hr
  constructor
  case arrivals => exact hs.arrivals
  case inSequence =>
      intro slotId
      simp only [setChannel, Function.update_apply]
      split
      · exact hc
      · exact hs.inSequence slotId
  case free =>
      intro slotId hslot
      -- A free slot is not the slot of the request.
      have hne : slotId ≠ r.slotId := fun heq => by
        rw [heq] at hslot
        exact nomatch hheld.inUse.symm.trans hslot
      simp only [setChannel, Function.update_of_ne hne]
      exact hs.free slotId hslot
  case agrees =>
      intro id' r' hr'
      simp only [setChannel, setRequest, Function.update_apply] at hr' ⊢
      split at hr'
      · obtain rfl := Option.some.inj hr'
        rw [if_pos rfl]
        exact ⟨hheld.inUse, hheld.sequenceId, hnext⟩
      · rename_i hne
        rw [if_neg (hs.slotId_ne hr hr' hne)]
        exact hs.agrees id' r' hr'
  case distinct =>
      -- The request keeps its slot.
      have hslot : ∀ id' r', (s.setRequest id (some { r with phase })).requests id' = some r' →
          ∃ r'', s.requests id' = some r'' ∧ r''.slotId = r'.slotId := by
        intro id' r' hr'
        simp only [setRequest, Function.update_apply] at hr'
        split at hr'
        · rename_i heq
          obtain rfl := Option.some.inj hr'
          exact ⟨r, heq ▸ hr, rfl⟩
        · exact ⟨r', hr', rfl⟩
      intro id₁ id₂ r₁ r₂ h₁ h₂ heq
      obtain ⟨q₁, hq₁, hs₁⟩ := hslot id₁ r₁ h₁
      obtain ⟨q₂, hq₂, hs₂⟩ := hslot id₂ r₂ h₂
      exact hs.distinct id₁ id₂ q₁ q₂ hq₁ hq₂ (hs₁.trans (heq.trans hs₂.symm))

/-- The oldest request of a slot is gone. -/
theorem inv_tail {slotId : SlotId4} {seq : SequenceId4} {rest : List SequenceId4} {c : Channel}
    (hs : Inv s) (hflight : (s.channels slotId).inFlight = seq :: rest)
    (htail : c.inFlight = (s.channels slotId).inFlight.tail)
    (hexpected : ∀ j, c.expected j = (s.channels slotId).expected (j + 1)) :
    Inv (s.setChannel slotId c) := by
  -- The oldest request leaves the queue and is counted, so the next id to send is the same.
  have hnext := Channel.next_tail hflight htail hexpected
  have hsame : ∀ slotId', ((s.setChannel slotId c).channels slotId').next =
      (s.channels slotId').next := by
    intro slotId'
    simp only [setChannel, Function.update_apply]
    split
    · rename_i heq
      rw [hnext, heq]
    · rfl
  constructor
  case arrivals => exact hs.arrivals
  case distinct => exact hs.distinct
  case free =>
      intro slotId' hslot
      rw [hsame]
      exact hs.free slotId' hslot
  case agrees =>
      intro id r hr
      have hheld := hs.agrees id r hr
      exact ⟨hheld.inUse, hheld.sequenceId, (hsame r.slotId).trans hheld.next⟩
  case inSequence =>
      intro slotId'
      simp only [setChannel, Function.update_apply]
      split
      · exact Channel.inSequence_tail (hs.inSequence slotId) htail hexpected
      · exact hs.inSequence slotId'

/-- A request that arrives is the first of its slot that is in flight. -/
theorem inv_arrival {slotId : SlotId4} {seq : SequenceId4} {rest : List SequenceId4} (hs : Inv s)
    (hflight : (s.channels slotId).inFlight = seq :: rest) :
    Inv { s with arrivals := s.arrivals ++ [s.arrival slotId seq] } := by
  refine { hs with arrivals := fun a hmem => ?_ }
  rcases List.mem_append.mp hmem with hmem | hmem
  · exact hs.arrivals a hmem
  · obtain rfl := List.mem_singleton.mp hmem
    have hseq := hs.inSequence slotId 0 seq (by rw [hflight]; rfl)
    exact hseq.trans (UInt32.add_zero _)

/-- A request that is over no longer counts. -/
theorem inv_forget (hs : Inv s) (id : Nat) : Inv (s.setRequest id none) := by
  have hold : ∀ {id' r}, (s.setRequest id none).requests id' = some r →
      s.requests id' = some r := by
    intro id' r hr
    simp only [setRequest, Function.update_apply] at hr
    split at hr
    · simp at hr
    · exact hr
  exact { hs with
    agrees := fun id' r hr => hs.agrees id' r (hold hr)
    distinct := fun id₁ id₂ r₁ r₂ h₁ h₂ => hs.distinct id₁ id₂ r₁ r₂ (hold h₁) (hold h₂) }

/-- A request that has used its sequence id gives its slot back. -/
theorem inv_release {id : Nat} {r : Request} {table : SlotTable} (hs : Inv s)
    (hr : s.requests id = some r) (hused : r.phase.used = 1)
    (h : s.table.released m r.slotId = some table) :
    Inv ({ s with table }.setRequest id none) := by
  have hheld := hs.agrees id r hr
  have hlt := SlotTable.lt_length hheld.inUse
  obtain ⟨seqId, hseq, rfl⟩ := SlotTable.released_eq_some hlt h
  rw [hheld.sequenceId, Option.some.injEq] at hseq
  have hforget := inv_forget hs id
  constructor
  case inSequence => exact hs.inSequence
  case arrivals => exact hs.arrivals
  case distinct => exact hforget.distinct
  case free =>
      intro slotId hslot
      simp only [setRequest, SlotTable.inUse_free hlt] at hslot
      simp only [setRequest, SlotTable.sequenceIds_free hlt]
      split at hslot
      · rename_i heq
        obtain rfl := UInt32.toNat_inj.mp heq
        -- The id that the request used up is the one the release counts.
        rw [if_pos rfl, hheld.next, hused, hseq]
      · rename_i hne
        rw [if_neg hne]
        exact hs.free slotId hslot
  case agrees =>
      intro id' r' hr'
      have hold := hforget.agrees id' r' hr'
      have hne : id' ≠ id := fun heq => by
        simp only [setRequest, heq, Function.update_self] at hr'
        simp at hr'
      simp only [setRequest, Function.update_of_ne hne] at hr'
      -- The release touches one slot, and no other request has it.
      have hslot : r.slotId.toNat ≠ r'.slotId.toNat :=
        fun heq => hs.slotId_ne hr hr' hne (UInt32.toNat_inj.mp heq.symm)
      refine ⟨?_, ?_, hold.next⟩
      · simp only [setRequest, SlotTable.inUse_free hlt, if_neg hslot]
        exact hold.inUse
      · simp only [setRequest, SlotTable.sequenceIds_free hlt, if_neg hslot]
        exact hold.sequenceId

/-- Setting a slot to what it is changes nothing. -/
theorem setChannel_self (s : Session) (slotId : SlotId4) :
    s.setChannel slotId (s.channels slotId) = s := by
  rw [setChannel, Function.update_eq_self]

/-- A user that is done leaves its slot, and may keep it marked. -/
theorem inv_finish {id : Nat} {r : Request} {ok : Bool} {table : SlotTable} (hs : Inv s)
    (hr : s.requests id = some r) (hphase : r.phase = .returned ok)
    (h : s.giveBack m r ok = some table) : Inv ({ s with table }.setRequest id none) := by
  have hused : r.phase.used = 1 := by rw [hphase]; rfl
  rw [giveBack] at h
  split at h
  · obtain rfl := Option.some.inj h
    exact inv_forget hs id
  · exact inv_release hs hr hused h

/-- **Step.** Every event keeps the invariant. -/
theorem inv_step {e : SessionEvent} (hs : Inv s) (h : step m s e = some s') : Inv s' := by
  cases e with
  | alloc id user =>
      rcases step_alloc h with rfl | ⟨slot, table, halloc, rfl⟩
      · exact hs
      · exact inv_alloc hs halloc
  | send id =>
      obtain ⟨r, hr, hphase, rfl⟩ := step_send h
      have hnext := (hs.agrees id r hr).next
      rw [hphase] at hnext
      have hseq : r.sequenceId = (s.channels r.slotId).next :=
        (hnext.trans (UInt32.add_zero _)).symm
      have hsent : ((s.channels r.slotId).send r.sequenceId).InSequence :=
        hseq ▸ Channel.inSequence_send (hs.inSequence r.slotId)
      exact inv_setPhase hs hr hsent ((Channel.next_send _ _).trans (hseq ▸ rfl))
  | lost slotId =>
      obtain ⟨seq, rest, hflight, rfl⟩ := step_lost h
      exact inv_tail hs hflight rfl (Channel.expected_fail _)
  | arrives slotId accepted =>
      obtain ⟨seq, rest, hflight, hcases⟩ := step_arrives h
      have hs₁ := inv_arrival hs hflight
      rcases hcases with ⟨-, -, rfl⟩ | ⟨-, rfl⟩
      · exact inv_tail hs₁ hflight rfl (Channel.expected_accept _)
      · exact inv_tail hs₁ hflight rfl (Channel.expected_fail _)
  | returns id ok =>
      obtain ⟨r, hr, hphase, rfl⟩ := step_returns h
      have hnext := (hs.agrees id r hr).next
      rw [hphase] at hnext
      -- The channel stays as it is.
      have hinv := inv_setPhase hs hr (hs.inSequence r.slotId)
        (show _ = _ + Phase.used (.returned ok) from hnext)
      exact setChannel_self (s.setRequest id _) r.slotId ▸ hinv
  | finish id =>
      obtain ⟨r, ok, table, hr, hphase, hback, rfl⟩ := step_finish h
      exact inv_finish hs hr hphase hback

/-- **Run.** Every session that can be reached has the invariant. -/
theorem inv_run {maxSlots : UInt32} {es : List SessionEvent}
    (h : run (step m) (new maxSlots) es = some s) : Inv s :=
  run_invariant (fun _ _ _ hs h => inv_step hs h) (inv_new maxSlots) h

end Session

/-! ### In which runs the server sees a slot in order -/

/-- The SEQUENCE is a retry of the last one that was accepted, or its successor. -/
def Arrival.InOrder (a : Arrival) : Prop :=
  a.sequenceId = a.stored ∨ a.sequenceId = a.stored + 1

instance (a : Arrival) : Decidable a.InOrder :=
  inferInstanceAs (Decidable (_ ∨ _))

/-- With `failed` requests behind it, a request is `failed` steps ahead of its place. -/
theorem Arrival.inOrder_iff {a : Arrival}
    (h : a.sequenceId = a.stored + UInt32.ofNat a.failed + 1) :
    a.InOrder ↔ a.failed % 2 ^ 32 = 0 ∨ a.failed % 2 ^ 32 = 2 ^ 32 - 1 := by
  have hfailed : (UInt32.ofNat a.failed).toNat = a.failed % 2 ^ 32 := UInt32.toNat_ofNat'
  have hlt := a.stored.toNat_lt
  rw [InOrder, h, ← UInt32.toNat_inj, ← UInt32.toNat_inj, UInt32.toNat_add, UInt32.toNat_add,
    UInt32.toNat_add, hfailed, UInt32.toNat_one]
  omega

/-- A slot with a failed request gets none accepted, until the counters meet again. -/
theorem Session.failed_of_accepted {m : Build} {s s' : Session} {slotId : SlotId4} (hs : Inv s)
    (h : step m s (.arrives slotId true) = some s') :
    (s.channels slotId).failed % 2 ^ 32 = 0 := by
  obtain ⟨seq, rest, hflight, ⟨-, hsucc, -⟩ | ⟨hfalse, -⟩⟩ := step_arrives h
  · have hseq := hs.inSequence slotId 0 seq (by rw [hflight]; rfl)
    have hlt := (s.channels slotId).stored.toNat_lt
    rw [hsucc, Channel.expected, ← UInt32.toNat_inj] at hseq
    simp only [UInt32.toNat_add, UInt32.toNat_ofNat', UInt32.toNat_one] at hseq
    omega
  · simp at hfalse

/-- **When the server sees every slot in order.** In every run, all the requests that arrive
are in order if and only if, before each of them, no request of its slot was lost or not
accepted, or else as many as make the 32-bit counters meet again. -/
theorem arrivals_inOrder_iff (m : Build) (maxSlots : UInt32) (es : List SessionEvent)
    {s : Session} (h : run (Session.step m) (Session.new maxSlots) es = some s) :
    (∀ a ∈ s.arrivals, a.InOrder) ↔
      ∀ a ∈ s.arrivals, a.failed % 2 ^ 32 = 0 ∨ a.failed % 2 ^ 32 = 2 ^ 32 - 1 :=
  forall₂_congr fun a hmem => Arrival.inOrder_iff ((Session.inv_run h).arrivals a hmem)

/-- Path resolutions and a tick on one slot, all of them accepted. -/
theorem arrivals_inOrder_accepted :
    ∃ s, run (Session.step .release) (Session.new 1)
        [.alloc 0 .resolvePath, .send 0, .arrives 0 true, .returns 0 true, .finish 0,
         .alloc 1 .keepalive, .send 1, .arrives 0 true, .returns 1 true, .finish 1] = some s ∧
      ∀ a ∈ s.arrivals, a.InOrder :=
  ⟨_, rfl, (arrivals_inOrder_iff .release 1
    [.alloc 0 .resolvePath, .send 0, .arrives 0 true, .returns 0 true, .finish 0,
     .alloc 1 .keepalive, .send 1, .arrives 0 true, .returns 1 true, .finish 1] rfl).mpr
    (by decide)⟩

/-- RECLAIM_COMPLETE takes the id 1. The server refuses the next SEQUENCE, and the one after it is
two ids ahead of what the server stores. -/
theorem refused_sequence_misorders :
    ∃ s, run (Session.step .release) (Session.new 1)
        [.alloc 0 .reclaimComplete, .send 0, .arrives 0 true, .returns 0 true, .finish 0,
         .alloc 1 .resolvePath, .send 1, .arrives 0 false, .returns 1 true, .finish 1,
         .alloc 2 .keepalive, .send 2, .arrives 0 false] = some s ∧
      (⟨0, 3, 1, 1⟩ : Arrival) ∈ s.arrivals ∧ ¬ ∀ a ∈ s.arrivals, a.InOrder :=
  ⟨_, rfl, by decide, by decide⟩

end NfsMount.Nfs4Client
