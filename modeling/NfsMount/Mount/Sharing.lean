import NfsMount.Lib.Sharing
import NfsMount.Mount.Conversation
import NfsMount.Server.Mount

/-!
# `NfsMount.Mount.Sharing`: mounts that share a server

A `Party` is a mount on a machine of its own, with the calls that are made on it. The parties
reach one server, and a schedule says whose turn is next: then that party sends its next request
and the server answers it. So there may be any requests of the others between any two requests
of a party.

What a party sends next follows from the answers that it got. `Replay` is the transport that gives
a party the answers of its turns so far, and `Party.request` runs its calls on it, up to the
request for which there is no answer yet.
-/

set_option autoImplicit false

namespace NfsMount.Mount

open NfsMount.Lib NfsMount.XdrCodec NfsMount.Nfs4Types NfsMount.OncRpc NfsMount.Nfs4Client
  NfsMount.Server

/-- A transport after a turn, if it gives the answer of the turn. -/
def take {τ : Type} [RpcTransport τ] (t : τ) (turn : Turn) : Option τ :=
  let (answer, t') := RpcTransport.call t turn.call
  if answer = turn.answer then some t' else none

/-- A transport on which these turns can be taken, and then no more. -/
structure Replay where
  turns : List Turn

namespace Replay

/-- What a call returns that is not the next turn. -/
def closed : Except RpcError RpcResponse := .error (.transport (.unexpectedEof "closed"))

end Replay

instance : RpcTransport Replay where
  call t c :=
    match t.turns with
    | [] => (Replay.closed, t)
    | turn :: turns => if turn.call = c then (turn.answer, ⟨turns⟩) else (Replay.closed, ⟨[]⟩)

/-- A mount: how its program was built, its credentials, and the calls on it. -/
structure Party where
  build : Build
  auth : AuthFlavor
  calls : List MountCall

namespace Party

/-- The client, when it gets the answers of these turns. -/
def client (p : Party) (turns : List Turn) : Nfs4Client (Wire Replay) :=
  Nfs4Client.new ⟨⟨turns⟩, []⟩ p.auth

/-- The turns that the calls take. -/
def taken (p : Party) (turns : List Turn) : List Turn :=
  (Action.after (MountCall.perform p.build) (p.client turns) p.calls).transport.turns

/-- What the calls return. -/
def returned (p : Party) (turns : List Turn) : List CallResult :=
  results p.build (p.client turns) p.calls

/-- The request that the calls send behind these turns. -/
def request (p : Party) (turns : List Turn) : Option CallArgs :=
  ((p.taken turns)[turns.length]?).map (·.call)

end Party

/-- A server, and the turns that were taken on it. -/
structure Shared {Node : Type} (e : Export Node) (ι : Type) where
  server : Served (MountServer e)
  turns : List (ι × Turn)

namespace Shared

variable {Node ι : Type} [DecidableEq ι] {e : Export Node}

/-- Nobody has taken a turn. -/
def new (files : FileServer e.tree) : Shared e ι where
  server := ⟨MountServer.new files⟩
  turns := []

/-- The party `i` takes a turn, if it is not finished. -/
def step (parties : ι → Party) (s : Shared e ι) (i : ι) : Shared e ι :=
  match (parties i).request (partOf i s.turns) with
  | none => s
  | some c =>
      let (answer, server) := RpcTransport.call s.server c
      { server, turns := s.turns ++ [(i, ⟨c, answer⟩)] }

/-- The turns are taken in the order of the schedule. -/
def play (files : FileServer e.tree) (parties : ι → Party) (schedule : List ι) : Shared e ι :=
  schedule.foldl (step parties) (new files)

/-- What the calls of the party `i` return with the answers that it got. -/
def returned (parties : ι → Party) (s : Shared e ι) (i : ι) : List CallResult :=
  (parties i).returned (partOf i s.turns)

end Shared

end NfsMount.Mount
