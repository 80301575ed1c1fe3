import NfsMount.Proofs.Segmentation

/-!
# `NfsMount.Server.OverTcp`: a server at the other end of a TCP connection

`OverTcp ρ` is a transport: the client's `TcpTransport`, a network, and a server that answers
the calls as `ρ` does. The server is the loop of the mock servers in the tests of
`onc-rpc/src/tcp.rs` and `onc-rpc/tests/rpc_round_trip.rs`. It reads a record with a
`RecordReader` of its own, decodes the call, and writes the reply as a record.

The network cuts the bytes of both directions into reads as it likes. It may also refuse a
write, or break the stream off in the middle of a reply. A stream that broke off once stays
so: every later call fails to write.
-/

set_option autoImplicit false

namespace NfsMount.Server

open NfsMount.Lib NfsMount.XdrCodec NfsMount.OncRpc NfsMount.OncRpc.TcpTransport

/-- A way to cut streams into reads. -/
structure Cutting where
  cut : Bytes → List Bytes
  isCut : ∀ stream, IsCut (cut stream) stream

/-- What the network does with a call. -/
structure Link where
  /-- How `write_all` and `flush` end. -/
  written : Except IoError Unit
  request : Cutting
  reply : Cutting
  /-- After how many bytes of the reply the stream breaks off, and with which error. Without
  an error it ends. -/
  cutOff : Option (Nat × Option IoError)

namespace Link

/-- The network carries the call and the reply. -/
def Reliable (link : Link) : Prop := link.written = .ok () ∧ link.cutOff = none

/-- Where the stream breaks off in these bytes of the server, if it does. -/
def breaksIn (link : Link) (sent : Bytes) : Option (Nat × Option IoError) :=
  link.cutOff.filter fun place => place.1 < sent.length

/-- The reads of the client, when the server has sent these bytes. -/
def reads (link : Link) (sent : Bytes) : List SocketRead :=
  match link.breaksIn sent with
  | none => chunkReads (link.reply.cut sent)
  | some (n, e) => chunkReads (link.reply.cut (sent.take n)) ++ tailReads [e]

end Link

/-- The error of the stream that has ended. -/
def eof : IoError := .unexpectedEof "connection closed while reading reply"

/-- A connection to a server, over a network that says for each call what it does. -/
structure OverTcp (ρ : Type) where
  transport : TcpTransport
  server : ρ
  /-- The reader of the server. -/
  reader : RecordReader
  /-- What the network does with the calls to come. -/
  network : Nat → Link
  /-- The error that the stream broke off with. -/
  failed : Option IoError

namespace OverTcp

variable {ρ : Type} [RpcTransport ρ]

/-- The reply of the server to a call. -/
def respond (server : ρ) (call : RpcCall) : Option RpcReply × ρ :=
  let (response, server) := RpcTransport.call server
    { program := call.program, version := call.version, procedure := call.procedure
      args := call.body.bytes, cred := call.cred, verf := call.verf }
  match response with
  | .ok response => (some ⟨call.xid, response.verf, response.status⟩, server)
  | .error _ => (none, server)

/-- The server reads a record, and sends the bytes of the reply to it. It sends nothing for
what it cannot read. -/
def serve (t : OverTcp ρ) (chunks : List Bytes) : Bytes × ρ × RecordReader :=
  match receive t.reader (chunkReads chunks) with
  | some ((.ok record, reader), _) =>
      match (decode : Decoder UInt8 XdrError RpcCall).run record with
      | .ok (call, _) =>
          match respond t.server call with
          | (some reply, server) =>
              match (encode reply : Encoded UInt8 XdrError) with
              | .ok payload => (writeRecord payload, server, reader)
              | .error _ => ([], server, reader)
          | (none, server) => ([], server, reader)
      | _ => ([], t.server, reader)
  | _ => ([], t.server, t.reader)

/-- How the write of the next call ends. -/
def written (t : OverTcp ρ) : Except IoError Unit :=
  match t.failed with
  | none => (t.network 0).written
  | some e => .error e

/-- The error that the stream breaks off with in a call, for the bytes that the server has
sent. -/
def breaks (t : OverTcp ρ) (sent : Bytes) : Option IoError :=
  match t.written with
  | .error e => some e
  | .ok () => ((t.network 0).breaksIn sent).map fun place => place.2.getD eof

/-- What the client gets from a call. A panic, or a call that waits for ever, is no result: the
error stands for both, and neither happens (`call_server`, `call_breaks`). -/
def outcome : Option Exchanged → Except RpcError RpcResponse
  | some ⟨.ok response, _, _⟩ => .ok response
  | some ⟨.err e, _, _⟩ => .error e
  | some ⟨.panic, _, _⟩ | none => .error (.transport eof)

instance : RpcTransport (OverTcp ρ) where
  call t c :=
    let (sent, server, reader) :=
      match (t.transport.prepare c).1.2, t.written with
      | .ok message, .ok () => t.serve ((t.network 0).request.cut (writeRecord message))
      | _, _ => ([], t.server, t.reader)
    let (exchanged, transport) :=
      t.transport.call ⟨c, t.written⟩ ((t.network 0).reads sent)
    (outcome exchanged, {
      transport, server, reader
      network := fun n => t.network (n + 1)
      failed := t.breaks sent })

end OverTcp

end NfsMount.Server
