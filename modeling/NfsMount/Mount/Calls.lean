import NfsMount.Lib.Refinement
import NfsMount.Mount.Resolve

/-!
# `NfsMount.Mount.Calls`: sequences of calls on a client

A call on the client with its arguments: `connect` and `disconnect` of `nfs4-client/src/client.rs`,
and `MountHandle::resolve_path`. The client sits behind a lock, so the calls come one after the
other. `results` is what they return, on any transport. A call that fails leaves the client
as it is at that point, and the next call starts from there. `Wire` is a transport that keeps a
record of the turns that are taken on it.
-/

set_option autoImplicit false

namespace NfsMount.Mount

open NfsMount.Lib NfsMount.XdrCodec NfsMount.Nfs4Types NfsMount.OncRpc NfsMount.Nfs4Client

/-- A call on the transport, and what it returned. -/
structure Turn where
  call : CallArgs
  answer : Except RpcError RpcResponse

/-- A transport, and the turns that were taken on it: the calls and the answers to them. -/
structure Wire (τ : Type) where
  inner : τ
  turns : List Turn

instance {τ : Type} [RpcTransport τ] : RpcTransport (Wire τ) where
  call t c :=
    let (answer, inner) := RpcTransport.call t.inner c
    (answer, { inner, turns := t.turns ++ [⟨c, answer⟩] })

/-- A call on the client. -/
inductive MountCall where
  | connect (owner : ClientOwner4)
  | disconnect
  | resolvePath (path : String)

/-- What a call returns: a filehandle, if it is a resolution. -/
abbrev CallResult := Outcome MountError (Option NfsFh4)

namespace MountCall

/-- A call, with its error as that of a mount. -/
def perform {τ : Type} [RpcTransport τ] (m : Build) :
    MountCall → Action (Nfs4Client τ) MountError (Option NfsFh4)
  | .connect owner => do
      Action.mapError .nfs (Nfs4Client.connect m owner)
      pure none
  | .disconnect => do
      Action.mapError .nfs Nfs4Client.disconnect
      pure none
  | .resolvePath path => do
      let fh ← Mount.resolvePath m path
      pure (some fh)

/-- The requests that a call can send, whatever the replies. -/
inductive Sends : MountCall → Compound4args → Prop where
  | exchangeId (owner : ClientOwner4) : Sends (.connect owner) (exchangeArgs owner)
  | createSession (owner : ClientOwner4) (clientId : ClientId4) (sequenceId : SequenceId4) :
      Sends (.connect owner) (createArgs clientId sequenceId)
  | reclaimComplete (owner : ClientOwner4) (sessionId : SessionId4) (slot : AllocatedSlot) :
      Sends (.connect owner) (reclaimArgs sessionId slot)
  | destroySession (sessionId : SessionId4) : Sends .disconnect (destroyArgs sessionId)
  | resolve (path : String) (sessionId : SessionId4) (slot : AllocatedSlot) :
      Sends (.resolvePath path) (resolveArgs sessionId slot (toNfsComponents path))

end MountCall

/-- What the calls return, one after the other. -/
def results {τ : Type} [RpcTransport τ] (m : Build) (c : Nfs4Client τ) (calls : List MountCall) :
    List CallResult :=
  Action.play (MountCall.perform m) c calls

end NfsMount.Mount
