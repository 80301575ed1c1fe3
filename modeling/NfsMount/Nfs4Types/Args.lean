import NfsMount.Nfs4Types.Ops

/-!
# `NfsMount.Nfs4Types.Args`: the COMPOUND request

The model of the argument types of `nfs4-types/src/ops/filehandle.rs`, `session.rs` and
`data.rs`, and of `NfsArgOp4` and `Compound4args` of `compound.rs`. A request is only ever
encoded: `NfsArgOp4` has no decoder in the source, though the argument types derive theirs.
-/

set_option autoImplicit false

namespace NfsMount.Nfs4Types

open NfsMount.Lib NfsMount.XdrCodec

/-! ### `ops/filehandle.rs` -/

/-- The arguments of PUTFH: the filehandle that becomes current. -/
structure PutFh4args where
  object : NfsFh4
deriving DecidableEq

instance : XdrEncode PutFh4args where
  encode v := encode v.object

instance : XdrDecode PutFh4args where
  decode := PutFh4args.mk <$> decode

/-- The arguments of LOOKUP: one component of a path. -/
structure Lookup4args where
  objname : String
deriving DecidableEq

instance : XdrEncode Lookup4args where
  encode v := encode v.objname

instance : XdrDecode Lookup4args where
  decode := Lookup4args.mk <$> decode

/-- The arguments of GETATTR: which attributes. -/
structure GetAttr4args where
  attrRequest : Bitmap4
deriving DecidableEq

instance : XdrEncode GetAttr4args where
  encode v := encode v.attrRequest

instance : XdrDecode GetAttr4args where
  decode := GetAttr4args.mk <$> decode

/-- The arguments of SETATTR: which attributes, and their values. -/
structure SetAttr4args where
  saStateid : StateId4
  saFattr : Fattr4
deriving DecidableEq

instance : XdrEncode SetAttr4args where
  encode v := Encoded.seq [encode v.saStateid, encode v.saFattr]

instance : XdrDecode SetAttr4args where
  decode := do
    let saStateid ← decode
    let saFattr ← decode
    pure { saStateid, saFattr }

/-! ### `ops/session.rs` -/

/-- Client owner: a verifier and an opaque owner string. -/
structure ClientOwner4 where
  coVerifier : Verifier4
  coOwnerid : Opaque
deriving DecidableEq

instance : XdrEncode ClientOwner4 where
  encode v := Encoded.seq [encode v.coVerifier, encode v.coOwnerid]

instance : XdrDecode ClientOwner4 where
  decode := do
    let coVerifier ← decode
    let coOwnerid ← decode
    pure { coVerifier, coOwnerid }

/-- State protection selection sent by the client. Only SP_NONE is supported. -/
inductive StateProtect4a where
  | spNone
deriving DecidableEq

instance : XdrEncode StateProtect4a where
  encode := encodeZeroArm

instance : XdrDecode StateProtect4a where
  decode := decodeZeroArm "StateProtect4a" .spNone

/-- Callback security parameters. Only AUTH_NONE is supported. -/
inductive CallbackSecParms4 where
  | authNone
deriving DecidableEq

instance : XdrEncode CallbackSecParms4 where
  encode
    -- The flavor, and a body length.
    | .authNone => Encoded.seq [encode (0 : UInt32), encode (0 : UInt32)]

instance : XdrDecode CallbackSecParms4 where
  decode := do
    let flavor : UInt32 ← decode
    if flavor = 0 then
      -- Whatever the length word says, no body is read.
      let _bodyLen : UInt32 ← decode
      pure .authNone
    else
      Decoder.fail (.invalidEnum flavor "CallbackSecParms4")

/-- The arguments of EXCHANGE_ID: who the client is, and what it can do. -/
structure ExchangeId4args where
  eiaClientowner : ClientOwner4
  eiaFlags : UInt32
  eiaStateProtect : StateProtect4a
  eiaClientImplId : List NfsImplId4
deriving DecidableEq

instance : XdrEncode ExchangeId4args where
  encode v := Encoded.seq
    [encode v.eiaClientowner, encode v.eiaFlags, encode v.eiaStateProtect,
     encode v.eiaClientImplId]

instance : XdrDecode ExchangeId4args where
  decode := do
    let eiaClientowner ← decode
    let eiaFlags ← decode
    let eiaStateProtect ← decode
    let eiaClientImplId ← decode
    pure { eiaClientowner, eiaFlags, eiaStateProtect, eiaClientImplId }

/-- The arguments of CREATE_SESSION: the channels, and how callbacks authenticate. -/
structure CreateSession4args where
  csaClientid : ClientId4
  csaSequence : SequenceId4
  csaFlags : UInt32
  csaForeChanAttrs : ChannelAttrs4
  csaBackChanAttrs : ChannelAttrs4
  csaCbProgram : UInt32
  csaSecParms : List CallbackSecParms4
deriving DecidableEq

instance : XdrEncode CreateSession4args where
  encode v := Encoded.seq
    [encode v.csaClientid, encode v.csaSequence, encode v.csaFlags,
     encode v.csaForeChanAttrs, encode v.csaBackChanAttrs, encode v.csaCbProgram,
     encode v.csaSecParms]

instance : XdrDecode CreateSession4args where
  decode := do
    let csaClientid ← decode
    let csaSequence ← decode
    let csaFlags ← decode
    let csaForeChanAttrs ← decode
    let csaBackChanAttrs ← decode
    let csaCbProgram ← decode
    let csaSecParms ← decode
    pure { csaClientid, csaSequence, csaFlags, csaForeChanAttrs, csaBackChanAttrs,
           csaCbProgram, csaSecParms }

/-- The arguments of DESTROY_SESSION: which session. -/
structure DestroySession4args where
  dsaSessionid : SessionId4
deriving DecidableEq

instance : XdrEncode DestroySession4args where
  encode v := encode v.dsaSessionid

instance : XdrDecode DestroySession4args where
  decode := DestroySession4args.mk <$> decode

/-- The arguments of SEQUENCE: the slot, and the place of the request on it. -/
structure Sequence4args where
  saSessionid : SessionId4
  saSequenceid : SequenceId4
  saSlotid : SlotId4
  saHighestSlotid : SlotId4
  saCachethis : Bool
deriving DecidableEq

instance : XdrEncode Sequence4args where
  encode v := Encoded.seq
    [encode v.saSessionid, encode v.saSequenceid, encode v.saSlotid,
     encode v.saHighestSlotid, encode v.saCachethis]

instance : XdrDecode Sequence4args where
  decode := do
    let saSessionid ← decode
    let saSequenceid ← decode
    let saSlotid ← decode
    let saHighestSlotid ← decode
    let saCachethis ← decode
    pure { saSessionid, saSequenceid, saSlotid, saHighestSlotid, saCachethis }

/-- The arguments of RECLAIM_COMPLETE: whether for one file system only. -/
structure ReclaimComplete4args where
  rcaOneFs : Bool
deriving DecidableEq

instance : XdrEncode ReclaimComplete4args where
  encode v := encode v.rcaOneFs

instance : XdrDecode ReclaimComplete4args where
  decode := ReclaimComplete4args.mk <$> decode

/-! ### `ops/data.rs` -/

/-- No access is denied to others. -/
def OPEN4_SHARE_DENY_NONE : UInt32 := 0

/-- A file that exists is opened as it is. -/
def UNCHECKED4 : UInt32 := 0

/-- The file is claimed by its name in the current directory. -/
def CLAIM_NULL : UInt32 := 0

/-- The file is claimed by the current filehandle. -/
def CLAIM_FH : UInt32 := 4

/-- Whose open it is: the client, and a name that it chose. -/
structure OpenOwner4 where
  clientid : ClientId4
  owner : Opaque
deriving DecidableEq

instance : XdrEncode OpenOwner4 where
  encode v := Encoded.seq [encode v.clientid, encode v.owner]

instance : XdrDecode OpenOwner4 where
  decode := do
    let clientid ← decode
    let owner ← decode
    pure { clientid, owner }

/-- How to open a file. A creation is unchecked and carries the attributes. -/
inductive OpenFlag4 where
  | noCreate
  | createUnchecked (attrs : Fattr4)
deriving DecidableEq

instance : XdrEncode OpenFlag4 where
  encode
    | .noCreate => encode (0 : UInt32)
    | .createUnchecked attrs =>
        Encoded.seq [encode (1 : UInt32), encode UNCHECKED4, encode attrs]

instance : XdrDecode OpenFlag4 where
  decode := do
    let disc : UInt32 ← decode
    if disc = 0 then
      pure .noCreate
    else if disc = 1 then
      let how : UInt32 ← decode
      if how = 0 then .createUnchecked <$> decode
      else Decoder.fail (.invalidEnum how "createhow4")
    else
      Decoder.fail (.invalidEnum disc "OpenFlag4")

/-- What to open: a name in the current directory, or the current filehandle. -/
inductive OpenClaim4 where
  | claimNull (name : String)
  | claimFh
deriving DecidableEq

instance : XdrEncode OpenClaim4 where
  encode
    | .claimNull name => Encoded.seq [encode CLAIM_NULL, encode name]
    | .claimFh => encode CLAIM_FH

instance : XdrDecode OpenClaim4 where
  decode := do
    let disc : UInt32 ← decode
    if disc = 0 then .claimNull <$> decode
    else if disc = 4 then pure .claimFh
    else Decoder.fail (.invalidEnum disc "OpenClaim4")

/-- The arguments of OPEN. -/
structure Open4args where
  seqid : UInt32
  shareAccess : UInt32
  shareDeny : UInt32
  owner : OpenOwner4
  openhow : OpenFlag4
  claim : OpenClaim4
deriving DecidableEq

instance : XdrEncode Open4args where
  encode v := Encoded.seq
    [encode v.seqid, encode v.shareAccess, encode v.shareDeny, encode v.owner,
     encode v.openhow, encode v.claim]

instance : XdrDecode Open4args where
  decode := do
    let seqid ← decode
    let shareAccess ← decode
    let shareDeny ← decode
    let owner ← decode
    let openhow ← decode
    let claim ← decode
    pure { seqid, shareAccess, shareDeny, owner, openhow, claim }

/-- The arguments of CLOSE: the state of the open. -/
structure Close4args where
  seqid : UInt32
  openStateid : StateId4
deriving DecidableEq

instance : XdrEncode Close4args where
  encode v := Encoded.seq [encode v.seqid, encode v.openStateid]

instance : XdrDecode Close4args where
  decode := do
    let seqid ← decode
    let openStateid ← decode
    pure { seqid, openStateid }

/-- The arguments of READ: which range, under which state. -/
structure Read4args where
  stateid : StateId4
  offset : UInt64
  count : UInt32
deriving DecidableEq

instance : XdrEncode Read4args where
  encode v := Encoded.seq [encode v.stateid, encode v.offset, encode v.count]

instance : XdrDecode Read4args where
  decode := do
    let stateid ← decode
    let offset ← decode
    let count ← decode
    pure { stateid, offset, count }

/-- The arguments of WRITE: the data and its offset, under which state. -/
structure Write4args where
  stateid : StateId4
  offset : UInt64
  stable : UInt32
  data : Opaque
deriving DecidableEq

instance : XdrEncode Write4args where
  encode v := Encoded.seq [encode v.stateid, encode v.offset, encode v.stable, encode v.data]

instance : XdrDecode Write4args where
  decode := do
    let stateid ← decode
    let offset ← decode
    let stable ← decode
    let data ← decode
    pure { stateid, offset, stable, data }

/-- The arguments of READDIR: from which entry on, and how much. -/
structure ReadDir4args where
  cookie : UInt64
  cookieverf : Verifier4
  dircount : UInt32
  maxcount : UInt32
  attrRequest : Bitmap4
deriving DecidableEq

instance : XdrEncode ReadDir4args where
  encode v := Encoded.seq
    [encode v.cookie, encode v.cookieverf, encode v.dircount, encode v.maxcount,
     encode v.attrRequest]

instance : XdrDecode ReadDir4args where
  decode := do
    let cookie ← decode
    let cookieverf ← decode
    let dircount ← decode
    let maxcount ← decode
    let attrRequest ← decode
    pure { cookie, cookieverf, dircount, maxcount, attrRequest }

/-- The arguments of REMOVE: the name of the entry. -/
structure Remove4args where
  target : String
deriving DecidableEq

instance : XdrEncode Remove4args where
  encode v := encode v.target

instance : XdrDecode Remove4args where
  decode := Remove4args.mk <$> decode

/-- The arguments of RENAME: the old name and the new one. -/
structure Rename4args where
  oldname : String
  newname : String
deriving DecidableEq

instance : XdrEncode Rename4args where
  encode v := Encoded.seq [encode v.oldname, encode v.newname]

instance : XdrDecode Rename4args where
  decode := do
    let oldname ← decode
    let newname ← decode
    pure { oldname, newname }

/-! ### `compound.rs` -/

/-- A single operation in a COMPOUND request. -/
inductive NfsArgOp4 where
  | putRootFh
  | putFh (a : PutFh4args)
  | lookup (a : Lookup4args)
  | getFh
  | getAttr (a : GetAttr4args)
  | setAttr (a : SetAttr4args)
  | open (a : Open4args)
  | close (a : Close4args)
  | read (a : Read4args)
  | write (a : Write4args)
  | readDir (a : ReadDir4args)
  | remove (a : Remove4args)
  | rename (a : Rename4args)
  | exchangeId (a : ExchangeId4args)
  | createSession (a : CreateSession4args)
  | destroySession (a : DestroySession4args)
  | sequence (a : Sequence4args)
  | reclaimComplete (a : ReclaimComplete4args)
deriving DecidableEq

instance : XdrEncode NfsArgOp4 where
  encode
    | .putRootFh => encode OP_PUTROOTFH
    | .putFh a => Encoded.seq [encode OP_PUTFH, encode a]
    | .lookup a => Encoded.seq [encode OP_LOOKUP, encode a]
    | .getFh => encode OP_GETFH
    | .getAttr a => Encoded.seq [encode OP_GETATTR, encode a]
    | .setAttr a => Encoded.seq [encode OP_SETATTR, encode a]
    | .open a => Encoded.seq [encode OP_OPEN, encode a]
    | .close a => Encoded.seq [encode OP_CLOSE, encode a]
    | .read a => Encoded.seq [encode OP_READ, encode a]
    | .write a => Encoded.seq [encode OP_WRITE, encode a]
    | .readDir a => Encoded.seq [encode OP_READDIR, encode a]
    | .remove a => Encoded.seq [encode OP_REMOVE, encode a]
    | .rename a => Encoded.seq [encode OP_RENAME, encode a]
    | .exchangeId a => Encoded.seq [encode OP_EXCHANGE_ID, encode a]
    | .createSession a => Encoded.seq [encode OP_CREATE_SESSION, encode a]
    | .destroySession a => Encoded.seq [encode OP_DESTROY_SESSION, encode a]
    | .sequence a => Encoded.seq [encode OP_SEQUENCE, encode a]
    | .reclaimComplete a => Encoded.seq [encode OP_RECLAIM_COMPLETE, encode a]

/-- COMPOUND request: the operations to be executed in order by the server. -/
structure Compound4args where
  tag : String
  minorversion : UInt32
  argarray : List NfsArgOp4
deriving DecidableEq

instance : XdrEncode Compound4args where
  encode v := Encoded.seq [encode v.tag, encode v.minorversion, encode v.argarray]

end NfsMount.Nfs4Types
