import NfsMount.Lib.Run
import NfsMount.Lib.Triple
import NfsMount.Mount.Conversation
import NfsMount.Proofs.Resolve
import NfsMount.Proofs.Transports

/-!
# `NfsMount.Proofs.Conversation`: the client keeps to the protocol

Between two calls the client and the observer agree (`Between`): on the session, and on the
next sequence id of each slot that is free. A slot that is in use between two calls was lost
to a failure, and nothing is sent on it again.

The proof follows the parts of each call with `Triple`. `triple_compound` is the one place where
a turn is taken: the observer must allow the request, and the client goes on with the answer
that the observer saw. `turns_accepted` is about any calls on any transport. It asks that XDR
can carry the paths, since a path that is not sent uses up a sequence id all the same. And in a
checked build it asks for fewer calls than there are sequence ids: a release that panics leaves
the slot free with the id that was already sent, and the next request would send it again. For
that, `Between` bounds the sequence ids by the number of the calls so far.
-/

set_option autoImplicit false

namespace NfsMount.Mount

open NfsMount.Lib NfsMount.XdrCodec NfsMount.Nfs4Types NfsMount.OncRpc NfsMount.Nfs4Client
  NfsMount.Server

/-- The slots of the client are those of the session that the observer saw. A slot that is
free holds the sequence id that is next on it. -/
structure Matches (session : SessionManager) (h : Held) : Prop where
  sessionId : session.sessionId = h.sessionId
  length : session.slots.inUse.length = h.slots.toNat
  free : ∀ i : Nat, session.slots.inUse[i]? = some false →
    session.slots.sequenceIds[i]? = some (h.next i)

/-- A new session, as it is granted. -/
theorem matches_new (cs : CreateSession4resok) (clientId : ClientId4) (lease : UInt32) :
    Matches (SessionManager.new cs.csrSessionid clientId cs.csrForeChanAttrs.caMaxrequests lease)
      (Held.new cs) where
  sessionId := rfl
  length := List.length_replicate
  free _ h := SlotTable.sequenceIds_new (SlotTable.inUse_new.mp h).1

namespace Matches

variable {m : Build} {session : SessionManager} {h : Held} {slot : AllocatedSlot}
  {slots : SlotTable}

/-- The slot of an allocation, with its sequence id. -/
theorem allocated (hmatch : Matches session h)
    (halloc : session.slots.tryAllocSlot m = some (some slot, slots)) :
    h.isNext ⟨session.sessionId, slot.sequenceId, slot.slotId, slot.highestSlotId, false⟩
      = true := by
  obtain ⟨hfree, -, hseq, hhighest, -⟩ := SlotTable.tryAllocSlot_eq_slot halloc
  have hlt := SlotTable.lt_length hfree
  rw [hmatch.length] at hlt hhighest
  have hnext := hmatch.free _ hfree
  rw [hseq, Option.some.injEq] at hnext
  have hlast : slot.highestSlotId + 1 = h.slots := by
    rw [← UInt32.toNat_inj, UInt32.toNat_add, hhighest]
    have := h.slots.toNat_lt
    show (h.slots.toNat - 1 + 1) % 2 ^ 32 = _
    omega
  simp [Held.isNext, hmatch.sessionId, hlast, hnext, UInt32.lt_iff_toNat_lt, hlt]

/-- The slot of a request is in use, so the id that is next on it does not matter. -/
theorem sequenced (hmatch : Matches session h)
    (halloc : session.slots.tryAllocSlot m = some (some slot, slots)) :
    Matches { session with slots } (h.sequenced slot.slotId) := by
  obtain ⟨hfree, -, -, -, rfl⟩ := SlotTable.tryAllocSlot_eq_slot halloc
  have hlt := SlotTable.lt_length hfree
  refine ⟨hmatch.sessionId, ?_, fun i hi => ?_⟩
  · show (session.slots.inUse.set _ true).length = _
    rw [List.length_set]
    exact hmatch.length
  · rw [SlotTable.inUse_take hlt] at hi
    by_cases heq : slot.slotId.toNat = i
    · rw [if_pos heq] at hi
      simp at hi
    · rw [if_neg heq] at hi
      show session.slots.sequenceIds[i]? = some (if slot.slotId.toNat = i then _ else _)
      rw [if_neg heq]
      exact hmatch.free i hi

/-- The slot is free again, with the id that is next on it. -/
theorem released {slots' : SlotTable} (hmatch : Matches session h)
    (halloc : session.slots.tryAllocSlot m = some (some slot, slots))
    (hrelease : slots.released m slot.slotId = some slots') :
    Matches { session with slots := slots' } (h.sequenced slot.slotId) := by
  have hsequenced := hmatch.sequenced halloc
  obtain ⟨hfree, -, hseq, -, rfl⟩ := SlotTable.tryAllocSlot_eq_slot halloc
  have hlt : slot.slotId.toNat < (session.slots.take slot.slotId.toNat).inUse.length := by
    show _ < (session.slots.inUse.set _ true).length
    rw [List.length_set]
    exact SlotTable.lt_length hfree
  obtain ⟨seqId, hseqId, rfl⟩ := SlotTable.released_eq_some hlt hrelease
  obtain rfl : slot.sequenceId = seqId := Option.some.inj (hseq.symm.trans hseqId)
  refine ⟨hmatch.sessionId, ?_, fun i hi => ?_⟩
  · show (((session.slots.inUse.set _ true)).set _ false).length = _
    rw [List.length_set, List.length_set]
    exact hmatch.length
  · rw [SlotTable.sequenceIds_free hlt]
    rw [SlotTable.inUse_free hlt] at hi
    by_cases heq : slot.slotId.toNat = i
    · -- The client and the observer count on from the id of the request.
      have hnext := hmatch.free _ hfree
      rw [hseq, Option.some.injEq] at hnext
      rw [if_pos heq, hnext]
      show some _ = some (if slot.slotId.toNat = i then _ else _)
      rw [if_pos heq, heq]
    · rw [if_neg heq] at hi ⊢
      exact hsequenced.free i hi

end Matches

section Slots

variable {τ : Type} {auth : AuthFlavor} {m : Build} {s : Conversation}

/-! ### Between two calls -/

/-- The observer accepted all the turns so far. -/
structure Follows (auth : AuthFlavor) (s : Conversation) (c : Nfs4Client (Wire τ)) : Prop where
  accepted : run (Conversation.next auth) .start c.transport.turns = some s
  auth_eq : c.auth = auth

/-- The client and the observer agree. A session in which nothing was sent has no slots. Each call
counts on by one at most. -/
structure Agrees (k : Nat) (session : Option SessionManager) (held : Option Held) : Prop where
  rel : Option.Rel Matches session held
  used : ∀ h, held = some h → h.fresh = true → h.slots = 0
  few : ∀ h, held = some h → ∀ i, (h.next i).toNat ≤ k + 1

/-- What holds when `k` calls were made. -/
def Between (auth : AuthFlavor) (k : Nat) (c : Nfs4Client (Wire τ)) : Prop :=
  ∃ s, Follows auth s c ∧ Agrees k c.session s.held

variable {k : Nat}

/-- A bound on the ids is a bound for more calls. -/
theorem Agrees.mono {n : Nat} {session : Option SessionManager} {held : Option Held}
    (h : Agrees k session held) (hn : k ≤ n) : Agrees n session held :=
  { h with few := fun h' heq i => (h.few h' heq i).trans (Nat.succ_le_succ hn) }

/-- What holds behind fewer calls holds behind more. -/
theorem Between.mono {n : Nat} {c : Nfs4Client (Wire τ)} (h : Between auth k c) (hn : k ≤ n) :
    Between auth n c := by
  obtain ⟨s, hs, hagrees⟩ := h
  exact ⟨s, hs, hagrees.mono hn⟩

/-- A client whose turns are followed, and which agrees with what was said, is between two calls. -/
theorem Follows.between {c : Nfs4Client (Wire τ)}
    {session : Option SessionManager} (hs : Follows auth s c) (hsession : c.session = session)
    (h : Agrees k session s.held) : Between auth k c :=
  ⟨s, hs, hsession ▸ h⟩

/-- A request counts the id of its slot on. -/
theorem Held.next_sequenced_le {h : Held} (hfew : ∀ i, (h.next i).toNat ≤ k + 1)
    (slotId : SlotId4) (i : Nat) : ((h.sequenced slotId).next i).toNat ≤ k + 1 + 1 := by
  show (if slotId.toNat = i then h.next i + 1 else h.next i).toNat ≤ _
  split
  · exact (toNat_add_one_le _).trans (Nat.succ_le_succ (hfew i))
  · exact Nat.le_succ_of_le (hfew i)

/-- A session behind a request on one of its slots. -/
theorem Matches.agrees {session : SessionManager} {h : Held} {slotId : SlotId4}
    (hmatch : Matches session (h.sequenced slotId)) (hfew : ∀ i, (h.next i).toNat ≤ k + 1) :
    Agrees (k + 1) (some session) (some (h.sequenced slotId)) where
  rel := .some hmatch
  used h' heq hfresh := by
    obtain rfl := Option.some.inj heq
    cases hfresh
  few h' heq := by
    obtain rfl := Option.some.inj heq
    exact Held.next_sequenced_le hfew slotId

/-- What is left behind in each case in which the client and the observer agree. -/
theorem triple_between {ε α : Type} {x : Action (Nfs4Client (Wire τ)) ε α}
    {Q : α → Nfs4Client (Wire τ) → Prop} {E : Nfs4Client (Wire τ) → Prop}
    (h : ∀ s session, Agrees k session s.held →
      Action.Triple (fun c => Follows auth s c ∧ c.session = session) x Q E) :
    Action.Triple (Between auth k) x Q E := by
  rintro c ⟨s, hs, hagrees⟩
  exact h s c.session hagrees c ⟨hs, rfl⟩

/-- Without a session there is nothing to agree on. -/
theorem agrees_none (k : Nat) : Agrees k none none where
  rel := .none
  used h heq := by simp at heq
  few h heq := by simp at heq

/-- Before the first call. -/
theorem between_new (transport : τ) (auth : AuthFlavor) :
    Between auth 0 (Nfs4Client.new (⟨transport, []⟩ : Wire τ) auth) :=
  ⟨.start, ⟨rfl, rfl⟩, agrees_none 0⟩

/-- The session of the client is the one that the observer saw. -/
theorem Agrees.exists_held {session : SessionManager} {held : Option Held}
    (h : Agrees k (some session) held) : ∃ h, held = some h ∧ Matches session h := by
  obtain ⟨hrel, -, -⟩ := h
  cases hrel with
  | some hmatch => exact ⟨_, rfl, hmatch⟩

/-! ### Steps on the slots -/

/-- A step on the slots is no turn. -/
theorem triple_onSlots {α : Type} {session : SessionManager}
    (f : SlotTable → Option α × SlotTable) :
    Action.Triple (fun c : Nfs4Client (Wire τ) => Follows auth s c ∧ c.session = some session)
      (Nfs4Client.onSlots f)
      (fun a c => (f session.slots).1 = some a ∧ Follows auth s c ∧
        c.session = some { session with slots := (f session.slots).2 })
      (fun c => (f session.slots).1 = none ∧ Follows auth s c ∧
        c.session = some { session with slots := (f session.slots).2 }) := by
  rintro c ⟨hs, hsession⟩
  simp only [Action.run, Nfs4Client.onSlots, hsession]
  rcases f session.slots with ⟨_ | a, slots⟩
  · exact ⟨rfl, ⟨hs.accepted, hs.auth_eq⟩, rfl⟩
  · exact ⟨rfl, ⟨hs.accepted, hs.auth_eq⟩, rfl⟩

/-- Allocating a slot says nothing. -/
theorem triple_tryAllocSlot {session : SessionManager} :
    Action.Triple (fun c : Nfs4Client (Wire τ) => Follows auth s c ∧ c.session = some session)
      (Nfs4Client.tryAllocSlot m)
      (fun slot? c => ∃ slots, session.slots.tryAllocSlot m = some (slot?, slots) ∧
        Follows auth s c ∧ c.session = some { session with slots })
      (fun c => session.slots.tryAllocSlot m = none ∧ Follows auth s c ∧
        c.session = some session) := by
  refine (triple_onSlots _).conseq (fun _ h => h) ?_ ?_
  · rintro slot? c ⟨hslot, hs, hsession⟩
    cases halloc : session.slots.tryAllocSlot m with
    | none => simp [halloc] at hslot
    | some result =>
        rw [halloc] at hslot hsession
        exact ⟨result.2, by rw [← Option.some.inj hslot], hs, hsession⟩
  · rintro c ⟨hnone, hs, hsession⟩
    cases halloc : session.slots.tryAllocSlot m with
    | none =>
        rw [halloc] at hsession
        exact ⟨rfl, hs, hsession⟩
    | some result => simp [halloc] at hnone

/-- The release of a slot behind the request on it. -/
theorem triple_releaseSlot {h : Held} {session : SessionManager} {slot : AllocatedSlot}
    {slots : SlotTable} (hmatch : Matches session h)
    (halloc : session.slots.tryAllocSlot m = some (some slot, slots))
    (hfew : ∀ i, (h.next i).toNat ≤ k + 1) (hm : m = .release ∨ k + 2 < 2 ^ 32) :
    Action.Triple
      (fun c : Nfs4Client (Wire τ) => Follows auth ⟨none, some (h.sequenced slot.slotId)⟩ c ∧
        c.session = some { session with slots })
      (Nfs4Client.releaseSlot m slot.slotId) (fun _ => Between auth (k + 1))
      (Between auth (k + 1)) := by
  obtain ⟨hfree, -, hseq, -, rfl⟩ := SlotTable.tryAllocSlot_eq_slot halloc
  -- The id of the slot is the next one, so that it is not at its end.
  have hle : slot.sequenceId.toNat ≤ k + 1 := by
    rw [Option.some.inj (hseq.symm.trans (hmatch.free _ hfree))]
    exact hfew _
  obtain ⟨next, hnext⟩ := addU32_of_releasable (releasable_of_le hm hseq hle) hseq
  have hrelease := releaseSlot_take (m := m) (SlotTable.lt_length hfree) rfl hseq
  simp only [hnext] at hrelease
  refine (triple_onSlots fun table => table.releaseSlot m slot.slotId).conseq
    (fun _ h => h) ?_ ?_
  · rintro ⟨⟩ c ⟨-, hs, hsession⟩
    have hreleased : (session.slots.take slot.slotId.toNat).released m slot.slotId
        = some ((session.slots.take slot.slotId.toNat).releaseSlot m slot.slotId).2 := by
      rw [SlotTable.released, hrelease]
      rfl
    exact hs.between hsession ((hmatch.released halloc hreleased).agrees hfew)
  · rintro c ⟨hnone, -⟩
    simp [hrelease] at hnone

end Slots

section Calls

variable {τ : Type} [RpcTransport τ] {auth : AuthFlavor} {m : Build} {s : Conversation}
  {session : Option SessionManager} {k : Nat}

/-! ### One turn -/

/-- The observer reads the request that the client encoded. -/
theorem next_compoundCall {args : Compound4args} {bytes : Bytes}
    (henc : encode args = .ok bytes) (hminor : args.minorversion = NFS4_MINOR_VERSION)
    (hallows : s.allows args.argarray = true) (answer : Except RpcError RpcResponse) :
    Conversation.next auth s ⟨compoundCall auth bytes, answer⟩
      = some (s.after args.argarray (readResponse answer)) := by
  have hread := read_request henc []
  rw [List.append_nil] at hread
  simp only [Conversation.next, compoundCall, hread, hminor, hallows, and_self, if_true]

/-- **A turn.** The client goes on with the answer that the observer saw. If the request has no
encoding, then there is no turn. -/
theorem triple_compound {args : Compound4args} (hminor : args.minorversion = NFS4_MINOR_VERSION)
    (hallows : s.allows args.argarray = true) :
    Action.Triple (fun c : Nfs4Client (Wire τ) => Follows auth s c ∧ c.session = session)
      (Nfs4Client.compound args)
      (fun res c => Follows auth (s.after args.argarray (.ok res)) c ∧ c.session = session)
      (fun c => c.session = session ∧
        ((∃ o, Action.NoValue o ∧ Follows auth (s.after args.argarray o) c) ∨
          (∀ bytes, encode args ≠ .ok bytes) ∧ Follows auth s c)) := by
  rintro c ⟨hs, hsession⟩
  cases henc : (encode args : Encoded UInt8 XdrError) with
  | error e =>
      simp only [Action.run, Nfs4Client.compound, henc]
      exact ⟨hsession, .inr ⟨by simp, hs⟩⟩
  | ok bytes =>
      simp only [Action.run, Nfs4Client.compound, henc]
      -- However the answer reads, the client and the observer read the same.
      have hfollows : ∀ o, o = readResponse (RpcTransport.call c.transport.inner
          (compoundCall c.auth bytes)).1 → Follows auth (s.after args.argarray o)
            { c with
              transport := (RpcTransport.call c.transport (compoundCall c.auth bytes)).2 } := by
        rintro o rfl
        refine ⟨run_append.mpr ⟨s, hs.accepted, ?_⟩, hs.auth_eq⟩
        rw [run, hs.auth_eq, next_compoundCall henc hminor hallows]
        rfl
      show Action.Ends _ _ (readResponse (RpcTransport.call c.transport.inner
        (compoundCall c.auth bytes)).1, _)
      cases hread : readResponse (RpcTransport.call c.transport.inner
          (compoundCall c.auth bytes)).1 with
      | ok res => exact ⟨hfollows _ hread.symm, hsession⟩
      | err e => exact ⟨hsession, .inl ⟨_, Action.noValue_err e, hfollows _ hread.symm⟩⟩
      | panic => exact ⟨hsession, .inl ⟨_, Action.noValue_panic, hfollows _ hread.symm⟩⟩

/-- A request outside of a session. Without a reply the observer sees the same session. -/
theorem triple_outside (args : Compound4args) (hagrees : Agrees k session s.held)
    (hminor : args.minorversion = NFS4_MINOR_VERSION) (hallows : s.allows args.argarray = true)
    (hheld : ∀ o, Action.NoValue o → (s.after args.argarray o).held = s.held) :
    Action.Triple (fun c : Nfs4Client (Wire τ) => Follows auth s c ∧ c.session = session)
      (Nfs4Client.compound args)
      (fun res c => Follows auth (s.after args.argarray (.ok res)) c ∧ c.session = session)
      (Between auth k) := by
  refine (triple_compound hminor hallows).conseq (fun _ h => h) (fun _ _ h => h) ?_
  rintro c ⟨hsession, ⟨o, ho, hs⟩ | ⟨-, hs⟩⟩
  · exact hs.between hsession ((hheld o ho).symm ▸ hagrees)
  · exact hs.between hsession hagrees

/-- A call without a value gives the observer nothing to remember. -/
theorem valueOf_of_noValue {ε α : Type} {o : Outcome ε α} (h : Action.NoValue o) :
    Conversation.valueOf o = none := by
  cases o with
  | ok a => exact absurd rfl (h a)
  | err e => rfl
  | panic => rfl

/-- Nor does what would have followed it. -/
theorem valueOf_bind_of_noValue {ε α β : Type} {o : Outcome ε α} (h : Action.NoValue o)
    (f : α → Outcome ε β) : Conversation.valueOf (o >>= f) = none := by
  cases o with
  | ok a => exact absurd rfl (h a)
  | err e => rfl
  | panic => rfl

/-! ### The calls -/

/-- EXCHANGE_ID may be said at any time, and its answer is remembered. -/
theorem triple_exchangeId (hagrees : Agrees k session s.held) (owner : ClientOwner4) :
    Action.Triple (fun c : Nfs4Client (Wire τ) => Follows auth s c ∧ c.session = session)
      (Nfs4Client.exchangeId owner)
      (fun ex c => Follows auth ⟨some ex, s.held⟩ c ∧ c.session = session) (Between auth k) := by
  refine (triple_outside _ hagrees rfl rfl fun _ _ => rfl).bind fun res =>
    Action.triple_lift fun c hc => ?_
  obtain ⟨hs, hsession⟩ := hc
  cases hres : exchangeResult res with
  | ok ex =>
      have hafter : s.after (exchangeArgs owner).argarray (.ok res) = ⟨some ex, s.held⟩ := by
        show (⟨Conversation.valueOf (exchangeResult res), s.held⟩ : Conversation) = _
        rw [hres]
        rfl
      exact ⟨hafter ▸ hs, hsession⟩
  | err e => exact hs.between hsession hagrees
  | panic => exact hs.between hsession hagrees

/-- What a CREATE_SESSION leaves. -/
theorem after_createSession (s : Conversation) (a : CreateSession4args)
    (answer : Outcome NfsError Compound4res) :
    s.after [.createSession a] answer
      = ⟨none, ((Conversation.valueOf (answer >>= createResult)).map Held.new).or s.held⟩ := by
  simp only [Conversation.after]
  cases Conversation.valueOf (answer >>= createResult) with
  | none => rfl
  | some cs => rfl

/-- CREATE_SESSION may be said behind its EXCHANGE_ID, and opens a session. -/
theorem triple_createSession {held : Option Held} (hagrees : Agrees k session held)
    (ex : ExchangeId4resok) :
    Action.Triple
      (fun c : Nfs4Client (Wire τ) => Follows auth ⟨some ex, held⟩ c ∧ c.session = session)
      (Nfs4Client.createSession ex.eirClientid ex.eirSequenceid)
      (fun cs c => Follows auth ⟨none, some (Held.new cs)⟩ c ∧ c.session = session)
      (Between auth k) := by
  refine (triple_outside (createArgs ex.eirClientid ex.eirSequenceid) hagrees rfl ?_
    fun o ho => ?_).bind fun res => Action.triple_lift fun c hc => ?_
  · simp [Conversation.allows, createArgs, CompoundBuilder.createSession, CompoundBuilder.push,
      CompoundBuilder.build, CompoundBuilder.withTag, CompoundBuilder.new]
  · show (Conversation.after _ [.createSession _] _).held = held
    rw [after_createSession, valueOf_bind_of_noValue ho]
    rfl
  · obtain ⟨hs, hsession⟩ := hc
    have hafter : (⟨some ex, held⟩ : Conversation).after
        (createArgs ex.eirClientid ex.eirSequenceid).argarray (.ok res)
          = ⟨none, ((Conversation.valueOf (createResult res)).map Held.new).or held⟩ :=
      after_createSession ..
    rw [hafter] at hs
    -- Only a result opens a session. Behind an error the old one is held on.
    cases hres : createResult res with
    | ok cs =>
        rw [hres] at hs
        exact ⟨hs, hsession⟩
    | err e =>
        rw [hres] at hs
        exact hs.between hsession hagrees
    | panic =>
        rw [hres] at hs
        exact hs.between hsession hagrees

/-- Step 3 of a connect, in the session that was just stored. -/
theorem triple_reclaimComplete (cs : CreateSession4resok) (clientId : ClientId4) :
    Action.Triple
      (fun c : Nfs4Client (Wire τ) => Follows auth ⟨none, some (Held.new cs)⟩ c ∧
        c.session = some (SessionManager.new cs.csrSessionid clientId
          cs.csrForeChanAttrs.caMaxrequests 90))
      (Nfs4Client.reclaimComplete m cs.csrSessionid) (fun _ => Between auth 1)
      (Between auth 1) := by
  have hmatch := matches_new cs clientId 90
  have hfew : ∀ i, ((Held.new cs).next i).toNat ≤ 0 + 1 := fun _ => Nat.le_refl 1
  -- Without a slot nothing is sent, and then there are no slots at all.
  have hnone : ∀ c : Nfs4Client (Wire τ), Follows auth ⟨none, some (Held.new cs)⟩ c →
      c.session = some (SessionManager.new cs.csrSessionid clientId
        cs.csrForeChanAttrs.caMaxrequests 90) → cs.csrForeChanAttrs.caMaxrequests = 0 →
      Between auth 1 c := by
    intro c hs hsession hzero
    refine hs.between hsession ⟨.some hmatch, fun h heq _ => ?_, fun h heq i => ?_⟩
    · obtain rfl := Option.some.inj heq
      exact hzero
    · obtain rfl := Option.some.inj heq
      exact Nat.le_succ_of_le (hfew i)
  have hempty : ∀ t, (SlotTable.new cs.csrForeChanAttrs.caMaxrequests).tryAllocSlot m
      = some (none, t) → cs.csrForeChanAttrs.caMaxrequests = 0 := by
    intro t halloc
    obtain ⟨-, hfull⟩ := SlotTable.tryAllocSlot_eq_none halloc
    by_contra hne
    have hbusy := hfull 0 (length_new_pos hne)
    exact (not_busy_new _ 0).1 hbusy
  have hpanic : (SlotTable.new cs.csrForeChanAttrs.caMaxrequests).tryAllocSlot m = none →
      cs.csrForeChanAttrs.caMaxrequests = 0 := by
    intro halloc
    by_contra hne
    have hsome := SlotTable.tryAllocSlot_isSome (m := m) (length_new_pos hne)
    rw [halloc] at hsome
    simp at hsome
  refine (triple_tryAllocSlot.conseq (fun _ h => h) (fun _ _ h => h) ?_).bind fun slot? => ?_
  · rintro c ⟨halloc, hs, hsession⟩
    exact hnone c hs hsession (hpanic halloc)
  · cases slot? with
    | none =>
        refine Action.triple_lift fun c hc => ?_
        obtain ⟨slots, halloc, hs, hsession⟩ := hc
        obtain ⟨rfl, -⟩ := SlotTable.tryAllocSlot_eq_none halloc
        exact hnone c hs hsession (hempty _ halloc)
    | some slot =>
        refine Action.triple_exists fun slots => Action.triple_pure fun halloc => ?_
        have hallows : Conversation.allows ⟨none, some (Held.new cs)⟩
            (reclaimArgs cs.csrSessionid slot).argarray = true := by
          have hnext := hmatch.allocated halloc
          show (Option.any (fun h : Held => h.isNext _ && h.fresh) (some (Held.new cs))) = true
          rw [Option.any_some, Bool.and_eq_true]
          exact ⟨hnext, rfl⟩
        refine ((triple_compound rfl hallows).conseq (fun _ h => h) (fun _ _ h => h) ?_).bind
          fun res => (triple_releaseSlot hmatch halloc hfew (.inr (by decide))).bind fun _ =>
            Action.triple_lift_self _ _
        rintro c ⟨hsession, ⟨o, -, hs⟩ | ⟨hno, -⟩⟩
        · exact hs.between hsession ((hmatch.sequenced halloc).agrees hfew)
        · -- The request has an encoding.
          obtain ⟨bytes, hbytes, -⟩ :=
            isCodec.yields _ (wellFormed_reclaimArgs cs.csrSessionid slot)
          exact absurd hbytes (hno bytes)

/-- A connect is accepted. -/
theorem triple_connect (owner : ClientOwner4) :
    Action.Triple (Between auth k) (Nfs4Client.connect (τ := Wire τ) m owner)
      (fun _ => Between auth (k + 1)) (Between auth (k + 1)) := by
  refine triple_between fun s session hagrees => ?_
  have hsucc := hagrees.mono (Nat.le_succ k)
  refine (triple_exchangeId hsucc owner).bind fun ex =>
    (triple_createSession hsucc ex).bind fun cs => ?_
  refine (Action.triple_modify fun c hc => ?_).bind fun _ =>
    (triple_reclaimComplete cs ex.eirClientid).conseq (fun _ h => h)
      (fun _ _ h => h.mono (Nat.succ_le_succ (Nat.zero_le k)))
      fun _ h => h.mono (Nat.succ_le_succ (Nat.zero_le k))
  exact ⟨⟨hc.1.accepted, hc.1.auth_eq⟩, rfl⟩

/-- A disconnect is accepted. -/
theorem triple_disconnect :
    Action.Triple (Between auth k) (Nfs4Client.disconnect (τ := Wire τ))
      (fun _ => Between auth k) (Between auth k) := by
  refine triple_between fun s session hagrees => Action.triple_get fun c hc => ?_
  obtain ⟨hs, rfl⟩ := hc
  cases hsession : c.session with
  | none => exact hs.between hsession (hsession ▸ hagrees)
  | some session =>
      rw [hsession] at hagrees
      obtain ⟨h, hheld, hmatch⟩ := hagrees.exists_held
      have hallows : s.allows (destroyArgs session.sessionId).argarray = true := by
        show (s.held.any fun h => decide (session.sessionId = h.sessionId)) = true
        rw [hheld, Option.any_some, decide_eq_true_eq]
        exact hmatch.sessionId
      refine ((triple_outside _ hagrees rfl hallows fun o ho => ?_).bind fun res =>
        (Action.triple_modify fun c' hc' => ?_).bind fun _ => Action.triple_lift_self _ _)
          c ⟨hs, hsession⟩
      · show (if (Conversation.valueOf o).isSome then none else s.held) = s.held
        rw [valueOf_of_noValue ho]
        rfl
      · exact Follows.between (s := ⟨none, none⟩) ⟨hc'.1.accepted, hc'.1.auth_eq⟩ rfl
          (agrees_none k)

/-- The operations of a resolution are lookups and a GETFH. -/
theorem isLookups_lookups (names : List String) :
    isLookups (lookups names ++ [.getFh]) = true := by
  induction names with
  | nil => rfl
  | cons name names ih => exact ih

/-- A walk is allowed in a session that has begun, with the id that is next. -/
theorem allows_walk (s : Conversation) (a : Sequence4args) (ops : List NfsArgOp4) :
    s.allows (.sequence a :: .putRootFh :: ops)
      = s.held.any fun h => h.isNext a && !h.fresh && isLookups ops := rfl

/-- A resolution on a slot of the session. -/
theorem allows_resolveArgs {h : Held} {session : SessionManager} {slot : AllocatedSlot}
    {slots : SlotTable} (hmatch : Matches session h) (hused : h.fresh = true → h.slots = 0)
    (halloc : session.slots.tryAllocSlot m = some (some slot, slots))
    (hheld : s.held = some h) (components : List String) :
    s.allows (resolveArgs session.sessionId slot components).argarray = true := by
  have hnext := hmatch.allocated halloc
  have hfresh : h.fresh = false := by
    rw [Bool.eq_false_iff]
    intro hfresh
    have hlt := SlotTable.lt_length (SlotTable.tryAllocSlot_eq_slot halloc).1
    rw [hmatch.length, hused hfresh] at hlt
    exact Nat.not_lt_zero _ hlt
  rw [resolveArgs_eq, allows_walk, hheld, Option.any_some, hnext, hfresh]
  exact isLookups_lookups components

/-- What a resolution does once it has its slot. The slot is released whatever came of the
request, and nothing that follows is a turn. -/
theorem triple_resolve_slot {h : Held} {session : SessionManager} {slot : AllocatedSlot}
    {slots : SlotTable} {components : List String} (hmatch : Matches session h)
    (hused : h.fresh = true → h.slots = 0)
    (hfew : ∀ i, (h.next i).toNat ≤ k + 1) (hm : m = .release ∨ k + 2 < 2 ^ 32)
    (halloc : session.slots.tryAllocSlot m = some (some slot, slots)) (hheld : s.held = some h)
    (hfits : Fits components) :
    Action.Triple
      (fun c : Nfs4Client (Wire τ) => Follows auth s c ∧ c.session = some { session with slots })
      (do
        let res ← Action.attempt
          (Nfs4Client.compound (resolveArgs session.sessionId slot components))
        Action.mapError .nfs (Nfs4Client.releaseSlot m slot.slotId)
        let res ← Action.lift (propagate res)
        Action.lift (resolvedHandle res))
      (fun _ => Between auth (k + 1)) (Between auth (k + 1)) := by
  have hallows := allows_resolveArgs hmatch hused halloc hheld components
  -- The SEQUENCE at the front counts, and the operations behind it change no session.
  have hsequenced : ∀ o,
      s.after (resolveArgs session.sessionId slot components).argarray o
        = ⟨none, some (h.sequenced slot.slotId)⟩ := by
    intro o
    rw [resolveArgs_eq]
    show (⟨none, s.held.map _⟩ : Conversation) = _
    rw [hheld]
    rfl
  refine (((((triple_compound rfl hallows).conseq (fun _ h => h) ?_ ?_).attempt).conseq
    (fun _ h => h) (fun _ _ h => h) ?_).bind fun res =>
      ((triple_releaseSlot hmatch halloc hfew hm).mapError _).bind fun _ =>
        (Action.triple_lift_self _ _).bind fun _ => Action.triple_lift_self _ _)
  · rintro res c ⟨hs, hsession⟩
    exact ⟨hsequenced (.ok res) ▸ hs, hsession⟩
  · rintro c ⟨hsession, ⟨o, -, hs⟩ | ⟨hno, -⟩⟩
    · exact ⟨hsequenced o ▸ hs, hsession⟩
    · -- A request that does not encode is not sent: here it encodes.
      obtain ⟨bytes, hbytes⟩ := encode_of_fits session.sessionId slot hfits
      exact absurd hbytes (hno bytes)
  · rintro c ⟨hs, hsession⟩
    exact hs.between hsession ((hmatch.sequenced halloc).agrees hfew)

/-- A resolution of a path that XDR can carry. -/
theorem triple_resolvePath {path : String} (hfits : Fits (toNfsComponents path))
    (hm : m = .release ∨ k + 2 < 2 ^ 32) :
    Action.Triple (Between auth k) (resolvePath (τ := Wire τ) m path)
      (fun _ => Between auth (k + 1)) (Between auth (k + 1)) := by
  refine triple_between fun s session hagrees => Action.triple_get fun c hc => ?_
  obtain ⟨hs, rfl⟩ := hc
  have hsucc := hagrees.mono (Nat.le_succ k)
  cases hsession : c.session with
  -- Not connected, and nothing is sent.
  | none => exact hs.between hsession (hsession ▸ hsucc)
  | some session =>
      rw [hsession] at hagrees hsucc
      obtain ⟨h, hheld, hmatch⟩ := hagrees.exists_held
      refine (((triple_tryAllocSlot.mapError MountError.nfs).conseq
        (fun _ h => h) (fun _ _ h => h) ?_).bind fun slot? => ?_) c ⟨hs, hsession⟩
      · rintro c' ⟨-, hs', hsession'⟩
        exact hs'.between hsession' hsucc
      · cases slot? with
        | none =>
            -- No slot is free: the slots are as they were.
            refine Action.triple_lift fun c' hc' => ?_
            obtain ⟨slots, halloc, hs', hsession'⟩ := hc'
            obtain ⟨rfl, -⟩ := SlotTable.tryAllocSlot_eq_none halloc
            exact hs'.between hsession' hsucc
        | some slot =>
            refine Action.triple_exists fun slots => Action.triple_pure fun halloc => ?_
            exact triple_resolve_slot hmatch (hagrees.used h hheld) (hagrees.few h hheld) hm
              halloc hheld hfits

/-- A call counts the sequence ids on by one at most. -/
theorem triple_perform {call : MountCall}
    (hfits : ∀ path, call = .resolvePath path → Fits (toNfsComponents path))
    (hm : m = .release ∨ k + 2 < 2 ^ 32) :
    Action.Triple (Between auth k) (call.perform (τ := Wire τ) m)
      (fun _ => Between auth (k + 1)) (Between auth (k + 1)) := by
  cases call with
  | connect owner =>
      exact ((triple_connect owner).mapError _).bind fun _ => Action.triple_lift_self _ _
  | disconnect =>
      have hsucc : ∀ c : Nfs4Client (Wire τ), Between auth k c → Between auth (k + 1) c :=
        fun _ h => h.mono (Nat.le_succ k)
      exact ((triple_disconnect.mapError _).conseq (fun _ h => h) (fun _ => hsucc) hsucc).bind
        fun _ => Action.triple_lift_self _ _
  | resolvePath path =>
      exact (triple_resolvePath (hfits path rfl) hm).bind fun _ => Action.triple_lift_self _ _

/-- The turns of the calls are accepted. -/
theorem accepted_calls {calls : List MountCall} {c : Nfs4Client (Wire τ)}
    (hc : Between auth 0 c)
    (hfits : ∀ path, .resolvePath path ∈ calls → Fits (toNfsComponents path))
    (hm : m = .release ∨ calls.length + 1 < 2 ^ 32) :
    (run (Conversation.next auth) .start
      (Action.after (MountCall.perform m) c calls).transport.turns).isSome := by
  have hcalls : ∀ call ∈ calls, ∀ k < 0 + calls.length,
      Action.Triple (Between auth k) (call.perform (τ := Wire τ) m)
        (fun _ => Between auth (k + 1)) (Between auth (k + 1)) := fun call hcall k hk =>
    triple_perform (fun path heq => hfits path (heq ▸ hcall)) (hm.imp_right fun h => by omega)
  obtain ⟨s, hs, -⟩ := Action.Triple.after hcalls hc
  exact Option.isSome_iff_exists.mpr ⟨s, hs.accepted⟩

/-- The record of the turns changes nothing. -/
theorem simulates_wire :
    Simulates (fun (w : Wire τ) (t : τ) => w.inner = t) (fun _ => False) (fun _ => True) where
  call w t args h _ := by
    subst h
    exact .inl ⟨rfl, rfl⟩
  broken _ _ h := h.elim

/-- **The client keeps to the protocol.** It makes any calls on any transport, which may answer
as it likes or fail. Then an observer accepts all the turns on the transport: each CREATE_SESSION
follows its EXCHANGE_ID, each session starts with its RECLAIM_COMPLETE and is used until a reply
to its DESTROY_SESSION, and on each slot the sequence ids count up from 1 without a gap. The
observer changes nothing about what the calls return. XDR must be able to carry the paths, and in
a checked build the calls must be fewer than the sequence ids. -/
theorem turns_accepted (m : Build) (transport : τ) (auth : AuthFlavor) (calls : List MountCall)
    (hfits : ∀ path, .resolvePath path ∈ calls → Fits (toNfsComponents path))
    (hm : m = .release ∨ calls.length + 1 < 2 ^ 32) :
    (run (Conversation.next auth) .start (Action.after (MountCall.perform m)
        (Nfs4Client.new (⟨transport, []⟩ : Wire τ) auth) calls).transport.turns).isSome ∧
      results m (Nfs4Client.new (⟨transport, []⟩ : Wire τ) auth) calls
        = results m (Nfs4Client.new transport auth) calls := by
  constructor
  · exact accepted_calls (between_new transport auth) hfits hm
  · have hsame : SameClient (fun (w : Wire τ) (t : τ) => w.inner = t) auth
        (Nfs4Client.new ⟨transport, []⟩ auth) (Nfs4Client.new transport auth) :=
      ⟨rfl, rfl, rfl, rfl⟩
    rcases simulates_wire.results (m := m) (fun _ _ _ _ _ _ => trivial) hsame with
      heq | ⟨⟨_, hfalse⟩, -⟩
    · exact heq
    · exact hfalse.elim

end Calls

/-- The calls of a mount and an unmount, on a script of replies. -/
def sampleCalls : List MountCall := [.connect sampleOwner, .resolvePath "\\docs", .disconnect]

/-- XDR can carry the sample paths. -/
theorem fits_sampleCalls : ∀ path, .resolvePath path ∈ sampleCalls →
    Fits (toNfsComponents path) := by
  intro path hpath
  obtain rfl : path = "\\docs" := by simpa [sampleCalls] using hpath
  rw [show toNfsComponents "\\docs" = ["docs"] by decide +kernel]
  exact ⟨by decide, by decide +kernel⟩

/-- The replies to the first two steps of a connect, and errors from there on. -/
def sampleScript : Script := ⟨[answer exchangeReply, answer (createReply 9 2)]⟩

/-- The sample calls, on a transport that fails now and then. -/
theorem turns_accepted_sampleCalls :
    (run (Conversation.next .none) .start (Action.after (MountCall.perform .checked)
        (Nfs4Client.new (⟨sampleScript, []⟩ : Wire Script) .none)
          sampleCalls).transport.turns).isSome
      ∧ results .checked (Nfs4Client.new (⟨sampleScript, []⟩ : Wire Script) .none) sampleCalls
        = results .checked (Nfs4Client.new sampleScript .none) sampleCalls :=
  turns_accepted .checked sampleScript .none sampleCalls fits_sampleCalls (.inr (by decide))

/-- All three calls take turns: three for the connect, and one for each of the others. -/
example : (Action.after (MountCall.perform .checked)
    (Nfs4Client.new (⟨sampleScript, []⟩ : Wire Script) .none) sampleCalls).transport.turns.length
      = 5 := by
  decide +kernel

end NfsMount.Mount
