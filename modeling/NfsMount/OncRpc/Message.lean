import NfsMount.OncRpc.Auth

/-!
# `NfsMount.OncRpc.Message`: call and reply messages

The model of `onc-rpc/src/message.rs`. The body of a call and the result of a successful
reply are the rest of the record, without a length word.
-/

set_option autoImplicit false

namespace NfsMount.OncRpc

open NfsMount.Lib NfsMount.XdrCodec

/-- The message is a call. -/
def MSG_TYPE_CALL : UInt32 := 0

/-- The message is a reply. -/
def MSG_TYPE_REPLY : UInt32 := 1

/-- The version of RPC itself. -/
def RPC_VERSION : UInt32 := 2

/-- The call was accepted. -/
def MSG_ACCEPTED : UInt32 := 0

/-- The call was carried out, and its results follow. -/
def ACCEPT_SUCCESS : UInt32 := 0

/-- The server does not have the program. -/
def ACCEPT_PROG_UNAVAIL : UInt32 := 1

/-- The server does not have this version of the program, and says which it has. -/
def ACCEPT_PROG_MISMATCH : UInt32 := 2

/-- The program does not have the procedure. -/
def ACCEPT_PROC_UNAVAIL : UInt32 := 3

/-- The arguments could not be decoded. -/
def ACCEPT_GARBAGE_ARGS : UInt32 := 4

/-- Something else went wrong on the server. -/
def ACCEPT_SYSTEM_ERR : UInt32 := 5

/-- `Opaque(buf.to_vec())` and `buf.advance(buf.remaining())`: the rest of the buffer. -/
def decodeRest : Decoder UInt8 XdrError Opaque := do
  let remaining ← Decoder.remaining
  let body ← Decoder.splitTo remaining
  pure ⟨body⟩

/-- A call of a procedure. The arguments are the rest of the message. -/
structure RpcCall where
  xid : UInt32
  program : UInt32
  version : UInt32
  procedure : UInt32
  cred : AuthFlavor
  verf : AuthFlavor
  body : Opaque
deriving DecidableEq

instance : XdrEncode RpcCall where
  encode call := Encoded.seq
    [encode call.xid, encode MSG_TYPE_CALL, encode RPC_VERSION, encode call.program,
     encode call.version, encode call.procedure, encode call.cred, encode call.verf,
     .ok call.body.bytes]

instance : XdrDecode RpcCall where
  decode := do
    let xid ← decode
    let msgType : UInt32 ← decode
    if msgType ≠ MSG_TYPE_CALL then
      Decoder.fail (.invalidEnum msgType "MsgType (expected CALL=0)")
    else
      let rpcVers : UInt32 ← decode
      if rpcVers ≠ RPC_VERSION then
        Decoder.fail (.invalidEnum rpcVers "RpcVersion (expected 2)")
      else
        let program ← decode
        let version ← decode
        let procedure ← decode
        let cred ← decode
        let verf ← decode
        let body ← decodeRest
        pure { xid, program, version, procedure, cred, verf, body }

/-- Accept status of an RPC reply. -/
inductive AcceptStatus where
  | success (body : Opaque)
  | programUnavailable
  | programMismatch (low high : UInt32)
  | procedureUnavailable
  | garbageArgs
  | systemError
deriving DecidableEq

instance : XdrEncode AcceptStatus where
  encode
    | .success body => Encoded.seq [encode ACCEPT_SUCCESS, .ok body.bytes]
    | .programUnavailable => encode ACCEPT_PROG_UNAVAIL
    | .programMismatch low high =>
        Encoded.seq [encode ACCEPT_PROG_MISMATCH, encode low, encode high]
    | .procedureUnavailable => encode ACCEPT_PROC_UNAVAIL
    | .garbageArgs => encode ACCEPT_GARBAGE_ARGS
    | .systemError => encode ACCEPT_SYSTEM_ERR

instance : XdrDecode AcceptStatus where
  decode := do
    let stat : UInt32 ← decode
    if stat = ACCEPT_SUCCESS then
      .success <$> decodeRest
    else if stat = ACCEPT_PROG_UNAVAIL then
      pure .programUnavailable
    else if stat = ACCEPT_PROG_MISMATCH then
      let low ← decode
      let high ← decode
      pure (.programMismatch low high)
    else if stat = ACCEPT_PROC_UNAVAIL then
      pure .procedureUnavailable
    else if stat = ACCEPT_GARBAGE_ARGS then
      pure .garbageArgs
    else if stat = ACCEPT_SYSTEM_ERR then
      pure .systemError
    else
      Decoder.fail (.invalidEnum stat "AcceptStatus")

/-- An RPC reply message. Only accepted replies are decoded. -/
structure RpcReply where
  xid : UInt32
  verf : AuthFlavor
  status : AcceptStatus
deriving DecidableEq

instance : XdrEncode RpcReply where
  encode reply := Encoded.seq
    [encode reply.xid, encode MSG_TYPE_REPLY, encode MSG_ACCEPTED, encode reply.verf,
     encode reply.status]

instance : XdrDecode RpcReply where
  decode := do
    let xid ← decode
    let msgType : UInt32 ← decode
    if msgType ≠ MSG_TYPE_REPLY then
      Decoder.fail (.invalidEnum msgType "MsgType (expected REPLY=1)")
    else
      let replyStat : UInt32 ← decode
      if replyStat ≠ MSG_ACCEPTED then
        Decoder.fail (.invalidEnum replyStat "ReplyStat (expected ACCEPTED=0)")
      else
        let verf ← decode
        let status ← decode
        pure { xid, verf, status }

end NfsMount.OncRpc
