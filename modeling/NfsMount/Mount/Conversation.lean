import NfsMount.Mount.Calls
import NfsMount.Server.Request

/-!
# `NfsMount.Mount.Conversation`: what a client may say when

`Conversation.next` reads the turns on a `Wire` one by one, as an observer between the client and
the server would. It knows the answer to the last EXCHANGE_ID, if that was the last turn, and the
session that was created last, with the sequence id that is next on each of its slots. It
refuses a turn that is not the client's to take: a CREATE_SESSION that does not follow its
EXCHANGE_ID, a SEQUENCE that is not the next one of its slot, a RECLAIM_COMPLETE that is not the
first request of its session, or a request in a session that was destroyed.
-/

set_option autoImplicit false

namespace NfsMount.Mount

open NfsMount.Lib NfsMount.XdrCodec NfsMount.Nfs4Types NfsMount.OncRpc NfsMount.Nfs4Client
  NfsMount.Server

/-- A session, as far as the turns show it. -/
structure Held where
  sessionId : SessionId4
  /-- The number of slots that were granted. -/
  slots : UInt32
  /-- The sequence id that is next on a slot. -/
  next : Nat → SequenceId4
  /-- No request was sent in the session. -/
  fresh : Bool

namespace Held

/-- A session that was just created. -/
def new (cs : CreateSession4resok) : Held where
  sessionId := cs.csrSessionid
  slots := cs.csrForeChanAttrs.caMaxrequests
  next _ := 1
  fresh := true

/-- The SEQUENCE is the next one on a slot of the session. -/
def isNext (h : Held) (a : Sequence4args) : Bool :=
  a.saSessionid = h.sessionId && a.saSlotid < h.slots && a.saHighestSlotid + 1 = h.slots
    && a.saSequenceid = h.next a.saSlotid.toNat

/-- The session after a request on a slot. -/
def sequenced (h : Held) (slotId : SlotId4) : Held :=
  { h with
    next := fun i => if slotId.toNat = i then h.next i + 1 else h.next i
    fresh := false }

end Held

/-- LOOKUPs, and a GETFH behind them. -/
def isLookups : List NfsArgOp4 → Bool
  | [.getFh] => true
  | .lookup _ :: ops => isLookups ops
  | _ => false

/-- The operations of a resolution behind its SEQUENCE. -/
def isWalk : List NfsArgOp4 → Bool
  | .putRootFh :: ops => isLookups ops
  | _ => false

/-- What the turns so far have led to. -/
structure Conversation where
  /-- The body of the answer, if the last turn was an EXCHANGE_ID that was answered `Ok`. -/
  exchanged : Option ExchangeId4resok
  held : Option Held

namespace Conversation

/-- Nothing has been said. -/
def start : Conversation where
  exchanged := none
  held := none

/-- The operations that the client may send. -/
def allows (s : Conversation) : List NfsArgOp4 → Bool
  | [.exchangeId _] => true
  | [.createSession a] =>
      s.exchanged.any fun ex =>
        a.csaClientid = ex.eirClientid && a.csaSequence = ex.eirSequenceid
  | [.destroySession a] => s.held.any fun h => a.dsaSessionid = h.sessionId
  | [.sequence a, .reclaimComplete _] => s.held.any fun h => h.isNext a && h.fresh
  | .sequence a :: ops => s.held.any fun h => h.isNext a && !h.fresh && isWalk ops
  | _ => false

/-- A client cannot start with a CREATE_SESSION. -/
example : start.allows (createArgs ⟨5⟩ 1).argarray = false := by decide

/-- The value of an outcome. -/
def valueOf {ε α : Type} : Outcome ε α → Option α
  | .ok a => some a
  | _ => none

/-- What the operations and the answer lead to. -/
def after (s : Conversation) (ops : List NfsArgOp4) (answer : Outcome NfsError Compound4res) :
    Conversation :=
  match ops with
  | [.exchangeId _] => { s with exchanged := valueOf (answer >>= exchangeResult) }
  | [.createSession _] =>
      { exchanged := none
        held :=
          match valueOf (answer >>= createResult) with
          | some cs => some (Held.new cs)
          | none => s.held }
  -- Any reply ends the session for the client, also one with an error in it.
  | [.destroySession _] =>
      { exchanged := none, held := if (valueOf answer).isSome then none else s.held }
  | .sequence a :: _ => { exchanged := none, held := s.held.map (·.sequenced a.saSlotid) }
  | _ => s

/-- The next turn, of a client with these credentials. -/
def next (auth : AuthFlavor) (s : Conversation) (turn : Turn) : Option Conversation :=
  match (decode : Decoder UInt8 XdrError Compound4args).run turn.call.args with
  | .ok (request, []) =>
      if turn.call = compoundCall auth turn.call.args ∧
          request.minorversion = NFS4_MINOR_VERSION ∧ s.allows request.argarray then
        some (s.after request.argarray (readResponse turn.answer))
      else none
  | _ => none

end Conversation

end NfsMount.Mount
