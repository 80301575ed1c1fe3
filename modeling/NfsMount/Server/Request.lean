import NfsMount.Nfs4Types.Args

/-!
# `NfsMount.Server.Request`: how a server reads a COMPOUND request

The client encodes requests and has no decoder for them. This is the reader of the other
side, an abstract server. It reads the operation number and then the arguments of that
operation, with the decoders that the argument types derive.

The exception is PUTFH. The client encodes a filehandle of any length, but the decoder of
`NfsFh4` refuses more than 128 bytes. The server here takes whatever opaque was sent.
-/

set_option autoImplicit false

namespace NfsMount.Server

open NfsMount.Lib NfsMount.XdrCodec NfsMount.Nfs4Types

/-- The arguments of PUTFH, for a filehandle of any length. -/
def readPutFh : Decoder UInt8 XdrError PutFh4args :=
  (fun o : Opaque => ⟨⟨o.bytes⟩⟩) <$> decode

instance : XdrDecode NfsArgOp4 where
  decode := do
    let opnum : UInt32 ← decode
    if opnum = OP_PUTROOTFH then pure .putRootFh
    else if opnum = OP_PUTFH then .putFh <$> readPutFh
    else if opnum = OP_LOOKUP then .lookup <$> decode
    else if opnum = OP_GETFH then pure .getFh
    else if opnum = OP_GETATTR then .getAttr <$> decode
    else if opnum = OP_SETATTR then .setAttr <$> decode
    else if opnum = OP_OPEN then .open <$> decode
    else if opnum = OP_CLOSE then .close <$> decode
    else if opnum = OP_READ then .read <$> decode
    else if opnum = OP_WRITE then .write <$> decode
    else if opnum = OP_READDIR then .readDir <$> decode
    else if opnum = OP_REMOVE then .remove <$> decode
    else if opnum = OP_RENAME then .rename <$> decode
    else if opnum = OP_EXCHANGE_ID then .exchangeId <$> decode
    else if opnum = OP_CREATE_SESSION then .createSession <$> decode
    else if opnum = OP_DESTROY_SESSION then .destroySession <$> decode
    else if opnum = OP_SEQUENCE then .sequence <$> decode
    else if opnum = OP_RECLAIM_COMPLETE then .reclaimComplete <$> decode
    else Decoder.fail (.invalidEnum opnum "NfsArgOp4")

instance : XdrDecode Compound4args where
  decode := do
    let tag ← decode
    let minorversion ← decode
    let argarray ← decode
    pure { tag, minorversion, argarray }

end NfsMount.Server
