import NfsMount.Lib.Action
import NfsMount.Nfs4Client.Compound
import NfsMount.Nfs4Client.Session
import NfsMount.Nfs4Types.Compound
import NfsMount.OncRpc.Tcp

/-!
# `NfsMount.Nfs4Client.Client`: compounds, connect and disconnect

The model of `nfs4-client/src/client.rs`, with the session manager of `session.rs` around the
slot table, and of the errors of `error.rs`. The transport is any type with a `call`.

A method is an `Action` on the client: an error that `?` propagates leaves the client as it
is at that point. `connect` is split at its three requests. Where an error carries a text
made with `format!("{:?}", v)`, the model carries `v`.
-/

set_option autoImplicit false

namespace NfsMount.Nfs4Client

open NfsMount.Lib NfsMount.XdrCodec NfsMount.Nfs4Types NfsMount.OncRpc

/-- The program number of NFS. -/
def NFS4_PROGRAM : UInt32 := 100003

/-- The version of the program. -/
def NFS4_VERSION : UInt32 := 4

/-- The one procedure that the client calls. -/
def NFSPROC4_COMPOUND : UInt32 := 1

/-- What an `UnexpectedResponse` reports to have got. -/
inductive Actual where
  | text (s : String)
  | debug (op : NfsResOp4)
deriving DecidableEq

/-- What a call of the client can fail with. -/
inductive NfsError where
  | nfs (status : NfsStat4)
  | rpc (e : RpcError)
  /-- `Rpc(AcceptError(format!("{:?}", status)))`. -/
  | acceptError (status : AcceptStatus)
  | xdr (e : XdrError)
  | noSession
  | unexpectedResponse (expected : String) (actual : Actual)
deriving DecidableEq

/-- The session: its ids, the lease, and the slots behind their mutex. -/
structure SessionManager where
  sessionId : SessionId4
  clientId : ClientId4
  leaseTime : UInt32
  slots : SlotTable

/-- A session whose slots are all unused. -/
def SessionManager.new (sessionId : SessionId4) (clientId : ClientId4)
    (maxSlots leaseTime : UInt32) : SessionManager where
  sessionId := sessionId
  clientId := clientId
  leaseTime := leaseTime
  slots := SlotTable.new maxSlots

/-- The transport, the credentials of its calls, and the session, if there is one. -/
structure Nfs4Client (τ : Type) where
  transport : τ
  auth : AuthFlavor
  session : Option SessionManager

/-! ### What the client makes of a reply -/

/-- What `compound` makes of the outcome of the call. -/
def readResponse : Except RpcError RpcResponse → Outcome NfsError Compound4res
  | .error e => .err (.rpc e)
  | .ok response =>
      match response.status with
      | .success data =>
          match (decode : Decoder UInt8 XdrError Compound4res).run data.bytes with
          | .ok (res, _) => .ok res
          | .err e => .err (.xdr e)
          | .panic => .panic
      | other => .err (.acceptError other)

/-- The check of the status of a whole reply. -/
def checkStatus (res : Compound4res) : Outcome NfsError Unit :=
  if res.status.isOk then pure ()
  else .err (.nfs res.status)

/-- `&res.resarray[0]`, which panics when there are no results. -/
def firstResult (res : Compound4res) : Outcome NfsError NfsResOp4 :=
  match res.resarray with
  | [] => .panic
  | r :: _ => .ok r

/-- The body of a result, after the check of its status. -/
def resokOf {β : Type} (expected : String) (r : OpResult β) : Outcome NfsError β :=
  if r.status.isOk then
    match r.resok with
    | some ok => .ok ok
    | none => .err (.unexpectedResponse expected (.text "None"))
  else .err (.nfs r.status)

/-- The body of the first result of a reply, which must be the result that `pick` takes. -/
def firstBody {β : Type} (pick : NfsResOp4 → Option (OpResult β)) (expected expectedBody : String)
    (res : Compound4res) : Outcome NfsError β := do
  checkStatus res
  let first ← firstResult res
  match pick first with
  | some r => resokOf expectedBody r
  | none => .err (.unexpectedResponse expected (.debug first))

/-- The body of an EXCHANGE_ID, if that is the first result. -/
def exchangeResult : Compound4res → Outcome NfsError ExchangeId4resok :=
  firstBody (fun | .exchangeId r => some r | _ => none) "ExchangeId" "ExchangeId4resok"

/-- The body of a CREATE_SESSION, if that is the first result. -/
def createResult : Compound4res → Outcome NfsError CreateSession4resok :=
  firstBody (fun | .createSession r => some r | _ => none) "CreateSession" "CreateSession4resok"

/-! ### The requests -/

/-- The channel that a client asks for. -/
def defaultChan : ChannelAttrs4 where
  caHeaderpadsize := 0
  caMaxrequestsize := 1048576
  caMaxresponsesize := 1048576
  caMaxresponsesizeCached := 65536
  caMaxoperations := 64
  caMaxrequests := 32
  caRdmaIrd := []

/-- The request of the first step of `connect`. -/
def exchangeArgs (clientOwner : ClientOwner4) : Compound4args :=
  ((CompoundBuilder.new.withTag "exchange_id").exchangeId clientOwner 0).build

/-- The request of its second step. -/
def createArgs (clientId : ClientId4) (sequenceId : SequenceId4) : Compound4args :=
  ((CompoundBuilder.new.withTag "create_session").createSession clientId sequenceId 0
    defaultChan defaultChan).build

/-- The request of its third step, on the first slot of the new session. -/
def reclaimArgs (sessionId : SessionId4) (slot : AllocatedSlot) : Compound4args :=
  (((CompoundBuilder.new.withTag "reclaim_complete").sequence sessionId slot.sequenceId
    slot.slotId slot.highestSlotId).reclaimComplete false).build

/-- The request of `disconnect`. -/
def destroyArgs (sessionId : SessionId4) : Compound4args :=
  ((CompoundBuilder.new.withTag "destroy_session").destroySession sessionId).build

/-- The arguments of the call that carries an encoded request. -/
def compoundCall (auth : AuthFlavor) (bytes : Bytes) : CallArgs where
  program := NFS4_PROGRAM
  version := NFS4_VERSION
  procedure := NFSPROC4_COMPOUND
  args := bytes
  cred := auth
  verf := .none

namespace Nfs4Client

variable {τ : Type}

/-- A client without a session. -/
def new (transport : τ) (auth : AuthFlavor) : Nfs4Client τ where
  transport := transport
  auth := auth
  session := none

/-- A step on the slots of the session the client holds, where `none` stands for a panic. The
table that the step leaves is that of the session from then on, also behind a panic. -/
def onSlots {α : Type} (f : SlotTable → Option α × SlotTable) :
    Action (Nfs4Client τ) NfsError α := fun client =>
  match client.session with
  | none => (.panic, client)
  | some session =>
      let (result, slots) := f session.slots
      let client := { client with session := some { session with slots } }
      match result with
      | none => (.panic, client)
      | some a => (.ok a, client)

/-- A slot of the session, if one is free. -/
def tryAllocSlot (m : Build) : Action (Nfs4Client τ) NfsError (Option AllocatedSlot) :=
  onSlots fun slots =>
    match slots.tryAllocSlot m with
    | none => (none, slots)
    | some (slot?, slots) => (some slot?, slots)

/-- The slot is given back. -/
def releaseSlot (m : Build) (slotId : SlotId4) : Action (Nfs4Client τ) NfsError Unit :=
  onSlots fun slots => slots.releaseSlot m slotId

variable [RpcTransport τ]

/-- Send a COMPOUND request and decode the response. -/
def compound (args : Compound4args) : Action (Nfs4Client τ) NfsError Compound4res :=
  fun client =>
    match (encode args : Encoded UInt8 XdrError) with
    | .error e => (.err (.xdr e), client)
    | .ok bytes =>
        let (response, transport) :=
          RpcTransport.call client.transport (compoundCall client.auth bytes)
        (readResponse response, { client with transport })

/-- Step 1 of `connect`. -/
def exchangeId (clientOwner : ClientOwner4) :
    Action (Nfs4Client τ) NfsError ExchangeId4resok := do
  let res ← compound (exchangeArgs clientOwner)
  Action.lift (exchangeResult res)

/-- Step 2 of `connect`. -/
def createSession (clientId : ClientId4) (sequenceId : SequenceId4) :
    Action (Nfs4Client τ) NfsError CreateSession4resok := do
  let res ← compound (createArgs clientId sequenceId)
  Action.lift (createResult res)

/-- Step 3 of `connect`, on the session that the client just stored. -/
def reclaimComplete (m : Build) (sessionId : SessionId4) :
    Action (Nfs4Client τ) NfsError Unit := do
  match ← tryAllocSlot m with
  | none => Action.lift (.err .noSession)
  | some slot =>
      -- An error of the compound returns here, with the slot still taken.
      let res ← compound (reclaimArgs sessionId slot)
      releaseSlot m slot.slotId
      Action.lift (checkStatus res)

/-- Establish a session: EXCHANGE_ID, CREATE_SESSION and RECLAIM_COMPLETE. -/
def connect (m : Build) (clientOwner : ClientOwner4) : Action (Nfs4Client τ) NfsError Unit := do
  let resok ← exchangeId clientOwner
  let csresok ← createSession resok.eirClientid resok.eirSequenceid
  let session := SessionManager.new csresok.csrSessionid resok.eirClientid
    csresok.csrForeChanAttrs.caMaxrequests 90
  Action.modify fun client => { client with session := some session }
  reclaimComplete m csresok.csrSessionid

/-- Destroy the active session. -/
def disconnect : Action (Nfs4Client τ) NfsError Unit := do
  match (← Action.get).session with
  | none => Action.lift (.err .noSession)
  | some session =>
      let res ← compound (destroyArgs session.sessionId)
      -- The session is dropped before the status of the reply is looked at.
      Action.modify fun client => { client with session := none }
      Action.lift (checkStatus res)

end Nfs4Client

end NfsMount.Nfs4Client
