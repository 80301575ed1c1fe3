import NfsMount.Nfs4Types.Ops

/-!
# `NfsMount.Nfs4Types.Compound`: the COMPOUND reply

The model of `NfsResOp4` and `Compound4res` of `nfs4-types/src/compound.rs`. An operation
result is the operation number and the result. The operations whose only result is a status
store just the status.
-/

set_option autoImplicit false

namespace NfsMount.Nfs4Types

open NfsMount.Lib NfsMount.XdrCodec

/-- A single operation result in a COMPOUND response. -/
inductive NfsResOp4 where
  | putRootFh (s : NfsStat4)
  | putFh (s : NfsStat4)
  | lookup (s : NfsStat4)
  | getFh (r : GetFh4res)
  | getAttr (r : GetAttr4res)
  | setAttr (r : SetAttr4res)
  | open (r : Open4res)
  | close (r : Close4res)
  | read (r : Read4res)
  | write (r : Write4res)
  | readDir (r : ReadDir4res)
  | remove (r : Remove4res)
  | rename (r : Rename4res)
  | exchangeId (r : ExchangeId4res)
  | createSession (r : CreateSession4res)
  | destroySession (s : NfsStat4)
  | sequence (r : Sequence4res)
  | reclaimComplete (s : NfsStat4)
deriving DecidableEq

instance : XdrEncode NfsResOp4 where
  encode
    | .putRootFh s => Encoded.seq [encode OP_PUTROOTFH, encode s]
    | .putFh s => Encoded.seq [encode OP_PUTFH, encode s]
    | .lookup s => Encoded.seq [encode OP_LOOKUP, encode s]
    | .getFh r => Encoded.seq [encode OP_GETFH, encode r]
    | .getAttr r => Encoded.seq [encode OP_GETATTR, encode r]
    | .setAttr r => Encoded.seq [encode OP_SETATTR, encode r]
    | .open r => Encoded.seq [encode OP_OPEN, encode r]
    | .close r => Encoded.seq [encode OP_CLOSE, encode r]
    | .read r => Encoded.seq [encode OP_READ, encode r]
    | .write r => Encoded.seq [encode OP_WRITE, encode r]
    | .readDir r => Encoded.seq [encode OP_READDIR, encode r]
    | .remove r => Encoded.seq [encode OP_REMOVE, encode r]
    | .rename r => Encoded.seq [encode OP_RENAME, encode r]
    | .exchangeId r => Encoded.seq [encode OP_EXCHANGE_ID, encode r]
    | .createSession r => Encoded.seq [encode OP_CREATE_SESSION, encode r]
    | .destroySession s => Encoded.seq [encode OP_DESTROY_SESSION, encode s]
    | .sequence r => Encoded.seq [encode OP_SEQUENCE, encode r]
    | .reclaimComplete s => Encoded.seq [encode OP_RECLAIM_COMPLETE, encode s]

instance : XdrDecode NfsResOp4 where
  decode := do
    let opnum : UInt32 ← decode
    if opnum = OP_PUTROOTFH then .putRootFh <$> decode
    else if opnum = OP_PUTFH then .putFh <$> decode
    else if opnum = OP_LOOKUP then .lookup <$> decode
    else if opnum = OP_GETFH then .getFh <$> decode
    else if opnum = OP_GETATTR then .getAttr <$> decode
    else if opnum = OP_SETATTR then .setAttr <$> decode
    else if opnum = OP_OPEN then .open <$> decode
    else if opnum = OP_CLOSE then .close <$> decode
    else if opnum = OP_READ then .read <$> decode
    else if opnum = OP_WRITE then .write <$> decode
    else if opnum = OP_READDIR then .readDir <$> decode
    else if opnum = OP_REMOVE then .remove <$> decode
    else if opnum = OP_RENAME then .rename <$> decode
    else if opnum = OP_EXCHANGE_ID then .exchangeId <$> decode
    else if opnum = OP_CREATE_SESSION then .createSession <$> decode
    else if opnum = OP_DESTROY_SESSION then .destroySession <$> decode
    else if opnum = OP_SEQUENCE then .sequence <$> decode
    else if opnum = OP_RECLAIM_COMPLETE then .reclaimComplete <$> decode
    else Decoder.fail (.invalidEnum opnum "NfsResOp4")

/-- COMPOUND response: the overall status and the results up to the failing operation. -/
structure Compound4res where
  status : NfsStat4
  tag : String
  resarray : List NfsResOp4
deriving DecidableEq

instance : XdrEncode Compound4res where
  encode v := Encoded.seq [encode v.status, encode v.tag, encode v.resarray]

instance : XdrDecode Compound4res where
  decode := do
    let status ← decode
    let tag ← decode
    let resarray ← decode
    pure { status, tag, resarray }

end NfsMount.Nfs4Types
