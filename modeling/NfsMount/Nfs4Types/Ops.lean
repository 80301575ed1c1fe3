import NfsMount.Nfs4Types.Base

/-!
# `NfsMount.Nfs4Types.Ops`: the results of the operations

The model of the result types of `nfs4-types/src/ops/filehandle.rs`, `session.rs` and
`data.rs`, and of the operation numbers of `ops/mod.rs`. The body of a GETFH result, which
`OpResult` calls `resok` like all others, is the field `object` in the source.
-/

set_option autoImplicit false

namespace NfsMount.Nfs4Types

open NfsMount.Lib NfsMount.XdrCodec

/-! ### `ops/mod.rs`: operation numbers -/

/-- CLOSE gives up the state of an open. -/
def OP_CLOSE : UInt32 := 4

/-- GETATTR reads attributes of the current file. -/
def OP_GETATTR : UInt32 := 9

/-- GETFH returns the current filehandle. -/
def OP_GETFH : UInt32 := 10

/-- LOOKUP goes from the current directory to one of its entries. -/
def OP_LOOKUP : UInt32 := 15

/-- OPEN opens a file, and may create it. -/
def OP_OPEN : UInt32 := 18

/-- PUTFH sets the current filehandle. -/
def OP_PUTFH : UInt32 := 22

/-- PUTROOTFH sets the current filehandle to the root. -/
def OP_PUTROOTFH : UInt32 := 24

/-- READ returns data of the current file. -/
def OP_READ : UInt32 := 25

/-- READDIR lists a part of the current directory. -/
def OP_READDIR : UInt32 := 26

/-- REMOVE removes an entry of the current directory. -/
def OP_REMOVE : UInt32 := 28

/-- RENAME moves an entry from the saved directory to the current one. -/
def OP_RENAME : UInt32 := 29

/-- SETATTR sets attributes of the current file. -/
def OP_SETATTR : UInt32 := 34

/-- WRITE writes data to the current file. -/
def OP_WRITE : UInt32 := 38

/-- EXCHANGE_ID makes the client known to the server. -/
def OP_EXCHANGE_ID : UInt32 := 42

/-- CREATE_SESSION makes a session of a client. -/
def OP_CREATE_SESSION : UInt32 := 43

/-- DESTROY_SESSION ends a session. -/
def OP_DESTROY_SESSION : UInt32 := 44

/-- SEQUENCE puts a request on a slot of a session. -/
def OP_SEQUENCE : UInt32 := 53

/-- RECLAIM_COMPLETE ends the grace period of the client. -/
def OP_RECLAIM_COMPLETE : UInt32 := 58

/-! ### `ops/filehandle.rs` -/

/-- The result of GETFH: the current filehandle. -/
abbrev GetFh4res := OpResult NfsFh4

/-- The body of a GETATTR that succeeded. -/
structure GetAttr4resok where
  objAttributes : Fattr4
deriving DecidableEq

instance : XdrEncode GetAttr4resok where
  encode v := encode v.objAttributes

instance : XdrDecode GetAttr4resok where
  decode := GetAttr4resok.mk <$> decode

/-- The result of GETATTR. -/
abbrev GetAttr4res := OpResult GetAttr4resok

/-- The body of a SETATTR that succeeded: the attributes that were set. -/
structure SetAttr4resok where
  attrsset : Bitmap4
deriving DecidableEq

instance : XdrEncode SetAttr4resok where
  encode v := encode v.attrsset

instance : XdrDecode SetAttr4resok where
  decode := SetAttr4resok.mk <$> decode

/-- The result of SETATTR. -/
abbrev SetAttr4res := OpResult SetAttr4resok

/-! ### Unions with one supported arm

`StateProtect4r` and `OpenDelegation4` support the arm with discriminant 0 only, which is
void. Their hand-written codecs differ in the name they put in the error. -/

/-- The encoder of a union with the one arm 0. -/
def encodeZeroArm {α : Type} (_ : α) : Encoded UInt8 XdrError := encode (0 : UInt32)

/-- The decoder of a union with the one arm 0, whose value is `v`. -/
def decodeZeroArm {α : Type} (typeName : String) (v : α) : Decoder UInt8 XdrError α := do
  let disc : UInt32 ← decode
  if disc = 0 then pure v
  else Decoder.fail (.invalidEnum disc typeName)

/-! ### `ops/session.rs` -/

/-- Implementation identifier advertised during EXCHANGE_ID. -/
structure NfsImplId4 where
  niiDomain : String
  niiName : String
  niiDate : NfsTime4
deriving DecidableEq

instance : XdrEncode NfsImplId4 where
  encode v := Encoded.seq [encode v.niiDomain, encode v.niiName, encode v.niiDate]

instance : XdrDecode NfsImplId4 where
  decode := do
    let niiDomain ← decode
    let niiName ← decode
    let niiDate ← decode
    pure { niiDomain, niiName, niiDate }

/-- State protection returned by the server. Only SP_NONE is supported. -/
inductive StateProtect4r where
  | spNone
deriving DecidableEq

instance : XdrEncode StateProtect4r where
  encode := encodeZeroArm

instance : XdrDecode StateProtect4r where
  decode := decodeZeroArm "StateProtect4r" .spNone

/-- The server's name for itself, which tells the addresses of one server. -/
structure ServerOwner4 where
  soMinorId : UInt64
  soMajorId : Opaque
deriving DecidableEq

instance : XdrEncode ServerOwner4 where
  encode v := Encoded.seq [encode v.soMinorId, encode v.soMajorId]

instance : XdrDecode ServerOwner4 where
  decode := do
    let soMinorId ← decode
    let soMajorId ← decode
    pure { soMinorId, soMajorId }

/-- Channel attributes of the fore and back channels. -/
structure ChannelAttrs4 where
  caHeaderpadsize : UInt32
  caMaxrequestsize : UInt32
  caMaxresponsesize : UInt32
  caMaxresponsesizeCached : UInt32
  caMaxoperations : UInt32
  caMaxrequests : UInt32
  caRdmaIrd : List UInt32
deriving DecidableEq

instance : XdrEncode ChannelAttrs4 where
  encode v := Encoded.seq
    [encode v.caHeaderpadsize, encode v.caMaxrequestsize, encode v.caMaxresponsesize,
     encode v.caMaxresponsesizeCached, encode v.caMaxoperations, encode v.caMaxrequests,
     encode v.caRdmaIrd]

instance : XdrDecode ChannelAttrs4 where
  decode := do
    let caHeaderpadsize ← decode
    let caMaxrequestsize ← decode
    let caMaxresponsesize ← decode
    let caMaxresponsesizeCached ← decode
    let caMaxoperations ← decode
    let caMaxrequests ← decode
    let caRdmaIrd ← decode
    pure { caHeaderpadsize, caMaxrequestsize, caMaxresponsesize, caMaxresponsesizeCached,
           caMaxoperations, caMaxrequests, caRdmaIrd }

/-- The body of an EXCHANGE_ID that succeeded: the client id, and who the server is. -/
structure ExchangeId4resok where
  eirClientid : ClientId4
  eirSequenceid : SequenceId4
  eirFlags : UInt32
  eirStateProtect : StateProtect4r
  eirServerOwner : ServerOwner4
  eirServerScope : Opaque
  eirServerImplId : List NfsImplId4
deriving DecidableEq

instance : XdrEncode ExchangeId4resok where
  encode v := Encoded.seq
    [encode v.eirClientid, encode v.eirSequenceid, encode v.eirFlags,
     encode v.eirStateProtect, encode v.eirServerOwner, encode v.eirServerScope,
     encode v.eirServerImplId]

instance : XdrDecode ExchangeId4resok where
  decode := do
    let eirClientid ← decode
    let eirSequenceid ← decode
    let eirFlags ← decode
    let eirStateProtect ← decode
    let eirServerOwner ← decode
    let eirServerScope ← decode
    let eirServerImplId ← decode
    pure { eirClientid, eirSequenceid, eirFlags, eirStateProtect, eirServerOwner,
           eirServerScope, eirServerImplId }

/-- The result of EXCHANGE_ID. -/
abbrev ExchangeId4res := OpResult ExchangeId4resok

/-- The body of a CREATE_SESSION that succeeded: the session, and the channels that are granted. -/
structure CreateSession4resok where
  csrSessionid : SessionId4
  csrSequence : SequenceId4
  csrFlags : UInt32
  csrForeChanAttrs : ChannelAttrs4
  csrBackChanAttrs : ChannelAttrs4
deriving DecidableEq

instance : XdrEncode CreateSession4resok where
  encode v := Encoded.seq
    [encode v.csrSessionid, encode v.csrSequence, encode v.csrFlags,
     encode v.csrForeChanAttrs, encode v.csrBackChanAttrs]

instance : XdrDecode CreateSession4resok where
  decode := do
    let csrSessionid ← decode
    let csrSequence ← decode
    let csrFlags ← decode
    let csrForeChanAttrs ← decode
    let csrBackChanAttrs ← decode
    pure { csrSessionid, csrSequence, csrFlags, csrForeChanAttrs, csrBackChanAttrs }

/-- The result of CREATE_SESSION. -/
abbrev CreateSession4res := OpResult CreateSession4resok

/-- The body of a SEQUENCE that succeeded: the slot it was on, and what the server allows. -/
structure Sequence4resok where
  srSessionid : SessionId4
  srSequenceid : SequenceId4
  srSlotid : SlotId4
  srHighestSlotid : SlotId4
  srTargetHighestSlotid : SlotId4
  srStatusFlags : UInt32
deriving DecidableEq

instance : XdrEncode Sequence4resok where
  encode v := Encoded.seq
    [encode v.srSessionid, encode v.srSequenceid, encode v.srSlotid,
     encode v.srHighestSlotid, encode v.srTargetHighestSlotid, encode v.srStatusFlags]

instance : XdrDecode Sequence4resok where
  decode := do
    let srSessionid ← decode
    let srSequenceid ← decode
    let srSlotid ← decode
    let srHighestSlotid ← decode
    let srTargetHighestSlotid ← decode
    let srStatusFlags ← decode
    pure { srSessionid, srSequenceid, srSlotid, srHighestSlotid, srTargetHighestSlotid,
           srStatusFlags }

/-- The result of SEQUENCE. -/
abbrev Sequence4res := OpResult Sequence4resok

/-! ### `ops/data.rs` -/

/-- Open delegation. Only OPEN_DELEGATE_NONE is supported. -/
inductive OpenDelegation4 where
  | none
deriving DecidableEq

instance : XdrEncode OpenDelegation4 where
  encode := encodeZeroArm

instance : XdrDecode OpenDelegation4 where
  decode := decodeZeroArm "OpenDelegation4" .none

/-- The body of an OPEN that succeeded: the state of the open, and the change of the directory. -/
structure Open4resok where
  stateid : StateId4
  cinfo : ChangeInfo4
  rflags : UInt32
  attrset : Bitmap4
  delegation : OpenDelegation4
deriving DecidableEq

instance : XdrEncode Open4resok where
  encode v := Encoded.seq
    [encode v.stateid, encode v.cinfo, encode v.rflags, encode v.attrset,
     encode v.delegation]

instance : XdrDecode Open4resok where
  decode := do
    let stateid ← decode
    let cinfo ← decode
    let rflags ← decode
    let attrset ← decode
    let delegation ← decode
    pure { stateid, cinfo, rflags, attrset, delegation }

/-- The result of OPEN. -/
abbrev Open4res := OpResult Open4resok

/-- The body of a CLOSE that succeeded: the state, which is no longer valid. -/
structure Close4resok where
  openStateid : StateId4
deriving DecidableEq

instance : XdrEncode Close4resok where
  encode v := encode v.openStateid

instance : XdrDecode Close4resok where
  decode := Close4resok.mk <$> decode

/-- The result of CLOSE. -/
abbrev Close4res := OpResult Close4resok

/-- The body of a READ that succeeded: the data, and whether the file ends with it. -/
structure Read4resok where
  eof : Bool
  data : Opaque
deriving DecidableEq

instance : XdrEncode Read4resok where
  encode v := Encoded.seq [encode v.eof, encode v.data]

instance : XdrDecode Read4resok where
  decode := do
    let eof ← decode
    let data ← decode
    pure { eof, data }

/-- The result of READ. -/
abbrev Read4res := OpResult Read4resok

/-- The body of a WRITE that succeeded: how much was written, and how stably. -/
structure Write4resok where
  count : UInt32
  committed : UInt32
  writeverf : Verifier4
deriving DecidableEq

instance : XdrEncode Write4resok where
  encode v := Encoded.seq [encode v.count, encode v.committed, encode v.writeverf]

instance : XdrDecode Write4resok where
  decode := do
    let count ← decode
    let committed ← decode
    let writeverf ← decode
    pure { count, committed, writeverf }

/-- The result of WRITE. -/
abbrev Write4res := OpResult Write4resok

/-- A single directory entry. -/
structure Entry4 where
  cookie : UInt64
  name : String
  attrs : Fattr4
deriving DecidableEq

/-- Directory listing: entries and the end-of-directory flag. -/
structure DirList4 where
  entries : List Entry4
  eof : Bool
deriving DecidableEq

/-- The body of a READDIR that succeeded: a part of the directory. -/
structure ReadDir4resok where
  cookieverf : Verifier4
  reply : DirList4
deriving DecidableEq

/-- One link of the entry chain: `true` and the entry, or `false` at its end. -/
def encodeEntry : Option Entry4 → Encoded UInt8 XdrError
  | some entry =>
      Encoded.seq [encode true, encode entry.cookie, encode entry.name, encode entry.attrs]
  | none => encode false

/-- One turn of the decoding loop: the entry, or `none` where the loop breaks. -/
def decodeEntry : Decoder UInt8 XdrError (Option Entry4) := do
  let hasEntry : Bool ← decode
  if !hasEntry then
    pure none
  else
    let cookie ← decode
    let name ← decode
    let attrs ← decode
    pure (some { cookie, name, attrs })

instance : XdrEncode ReadDir4resok where
  encode v := Encoded.seq
    [encode v.cookieverf,
     Encoded.seq (v.reply.entries.map (fun entry => encodeEntry (some entry))
       ++ [encodeEntry none]),
     encode v.reply.eof]

instance : XdrDecode ReadDir4resok where
  decode := do
    let cookieverf ← decode
    let entries ← Decoder.loop decodeEntry
    let eof ← decode
    pure { cookieverf, reply := { entries, eof } }

/-- The result of READDIR. -/
abbrev ReadDir4res := OpResult ReadDir4resok

/-- The body of a REMOVE that succeeded: the change of the directory. -/
structure Remove4resok where
  cinfo : ChangeInfo4
deriving DecidableEq

instance : XdrEncode Remove4resok where
  encode v := encode v.cinfo

instance : XdrDecode Remove4resok where
  decode := Remove4resok.mk <$> decode

/-- The result of REMOVE. -/
abbrev Remove4res := OpResult Remove4resok

/-- The body of a RENAME that succeeded: the changes of the two directories. -/
structure Rename4resok where
  sourceCinfo : ChangeInfo4
  targetCinfo : ChangeInfo4
deriving DecidableEq

instance : XdrEncode Rename4resok where
  encode v := Encoded.seq [encode v.sourceCinfo, encode v.targetCinfo]

instance : XdrDecode Rename4resok where
  decode := do
    let sourceCinfo ← decode
    let targetCinfo ← decode
    pure { sourceCinfo, targetCinfo }

/-- The result of RENAME. -/
abbrev Rename4res := OpResult Rename4resok

end NfsMount.Nfs4Types
