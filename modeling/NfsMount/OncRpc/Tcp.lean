import NfsMount.OncRpc.Message
import NfsMount.OncRpc.Record

/-!
# `NfsMount.OncRpc.Tcp`: one RPC call over TCP

The model of `onc-rpc/src/transport.rs` and `tcp.rs`. What the socket does is an input. A
read of the socket is a `SocketRead`: the bytes it delivered, where no bytes mean end of
file, or an I/O error. A call takes its reads off a list of them. When the list runs out the
call is still waiting, and there is no result.

`call` draws its xid before it locks the stream, so the model has two steps: `prepare` up to
the lock, and `exchange` under it. The reader is made anew in every exchange, and what it
still holds when the exchange ends is dropped with it.
-/

set_option autoImplicit false

namespace NfsMount.OncRpc

open NfsMount.Lib NfsMount.XdrCodec

/-- What a call returns of the reply. -/
structure RpcResponse where
  xid : UInt32
  verf : AuthFlavor
  status : AcceptStatus
deriving DecidableEq

/-- The arguments of `RpcTransport::call`. -/
structure CallArgs where
  program : UInt32
  version : UInt32
  procedure : UInt32
  args : Bytes
  cred : AuthFlavor
  verf : AuthFlavor
deriving DecidableEq

/-- The trait: one call, which changes the state that the transport keeps between calls. -/
class RpcTransport (τ : Type) where
  call : τ → CallArgs → Except RpcError RpcResponse × τ

/-- The part of the transport besides the stream. -/
structure TcpTransport where
  nextXid : UInt32
deriving DecidableEq

/-- What one read of the socket returns: some bytes, none at the end, or an error. -/
abbrev SocketRead := Except IoError Bytes

namespace TcpTransport

/-- A new connection, whose first xid is 1. -/
def new : TcpTransport where
  nextXid := 1

/-- `next_xid.fetch_add(1)`, which wraps. -/
def fetchXid (t : TcpTransport) : UInt32 × TcpTransport :=
  (t.nextXid, { nextXid := t.nextXid + 1 })

/-- Everything before the lock: the xid, and the encoded call message. -/
def prepare (t : TcpTransport) (c : CallArgs) :
    (UInt32 × Encoded UInt8 XdrError) × TcpTransport :=
  let (xid, t) := t.fetchXid
  let call : RpcCall :=
    { xid, program := c.program, version := c.version, procedure := c.procedure
      cred := c.cred, verf := c.verf, body := ⟨c.args⟩ }
  ((xid, encode call), t)

/-- The read loop: feed the reader until it returns a record or an error. The reader after
the last read is part of the result. -/
def receive (reader : RecordReader) :
    List SocketRead → Option ((Except RpcError Bytes × RecordReader) × List SocketRead)
  | [] => none
  | .error e :: reads => some ((.error (.transport e), reader), reads)
  | .ok chunk :: reads =>
      if chunk.length = 0 then
        some ((.error (.transport
          (.unexpectedEof "connection closed while reading reply")), reader), reads)
      else
        match reader.read chunk with
        | (.error e, reader) => some ((.error e, reader), reads)
        | (.ok (.complete record), reader) => some ((.ok record, reader), reads)
        | (.ok .incomplete, reader) => receive reader reads

/-- What a call makes of the record it received. -/
def checkReply (xid : UInt32) (record : Bytes) : Outcome RpcError RpcResponse :=
  match (decode : Decoder UInt8 XdrError RpcReply).run record with
  | .panic => .panic
  | .err e => .err (.xdr e)
  | .ok (reply, _) =>
      if reply.xid ≠ xid then
        .err (.xidMismatch xid reply.xid)
      else
        .ok { xid := reply.xid, verf := reply.verf, status := reply.status }

/-- The end of an exchange. -/
structure Exchanged where
  result : Outcome RpcError RpcResponse
  /-- The bytes that were read off the socket and are dropped with the reader. -/
  dropped : Bytes
  /-- The reads that are left. -/
  reads : List SocketRead

/-- Everything under the lock, once the call message is written. -/
def exchange (xid : UInt32) (reads : List SocketRead) : Option Exchanged :=
  -- A new reader, whatever the last exchange left unread in its own.
  match receive RecordReader.new reads with
  | none => none
  | some ((.error e, reader), reads) => some ⟨.err e, reader.input, reads⟩
  | some ((.ok record, reader), reads) => some ⟨checkReply xid record, reader.input, reads⟩

/-- A call, with how `write_all` and `flush` end. -/
structure Invocation where
  args : CallArgs
  written : Except IoError Unit

/-- `RpcTransport::call`, with the reads of the socket that are still to come. -/
def call (t : TcpTransport) (c : Invocation) (reads : List SocketRead) :
    Option Exchanged × TcpTransport :=
  match t.prepare c.args with
  -- The xid is used up even when the message has no encoding.
  | ((_, .error e), t) => (some ⟨.err (.xdr e), [], reads⟩, t)
  | ((xid, .ok _), t) =>
      match c.written with
      | .error e => (some ⟨.err (.transport e), [], reads⟩, t)
      | .ok () => (exchange xid reads, t)

end TcpTransport

end NfsMount.OncRpc
