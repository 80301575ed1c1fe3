import NfsMount.Nfs4Types.Compound
import NfsMount.Rfc8881.Status

/-!
# `NfsMount.Rfc8881.Reply`: what a conforming server sends

The bytes of a COMPOUND reply as RFC 8881 has them, for the operations that the client
supports. `Wire` is the wire format of a type, written from the RFC and not from the client.
The records are those of the client, since they have the fields of the RFC.

A result has a body on NFS4_OK only. The one exception is SETATTR, whose result has the
attributes that were set on every status. The operations that succeeded come first, and at
most one that failed is behind them.
-/

set_option autoImplicit false

namespace NfsMount.Rfc8881

open NfsMount.Lib NfsMount.XdrCodec NfsMount.Nfs4Types

/-- The bytes of a value. -/
class Wire (α : Type) where
  wire : α → Bytes

export Wire (wire)

/-! ### XDR -/

instance : Wire UInt32 where
  wire x := beBytes 4 x.toNat

instance : Wire UInt64 where
  wire x := beBytes 8 x.toNat

instance : Wire Int64 where
  wire x := beBytes 8 x.toUInt64.toNat

instance : Wire Bool where
  wire b := wire (if b then 1 else 0 : UInt32)

/-- `opaque<>`: the length, the bytes, and zeros up to a multiple of four. -/
def wireOpaque (b : Bytes) : Bytes :=
  wire (UInt32.ofNat b.length) ++ b ++ List.replicate ((4 - b.length % 4) % 4) 0

instance : Wire Opaque where
  wire o := wireOpaque o.bytes

/-- A string is the opaque of its UTF-8 bytes. -/
instance : Wire String where
  wire s := wireOpaque (stringBytes s)

/-- `opaque[n]`, for an `n` that is a multiple of four. -/
instance {n : Nat} : Wire (FixedOpaque n) where
  wire v := v.bytes

instance {α : Type} [Wire α] : Wire (List α) where
  wire l := wire (UInt32.ofNat l.length) ++ l.flatMap wire

/-! ### Types of the protocol -/

instance : Wire NfsFh4 where
  wire fh := wireOpaque fh.bytes

instance : Wire ClientId4 where
  wire c := wire c.id

instance : Wire StateId4 where
  wire v := wire v.seqid ++ wire v.other

instance : Wire NfsTime4 where
  wire v := wire v.seconds ++ wire v.nseconds

instance : Wire ChangeInfo4 where
  wire v := wire v.atomic ++ wire v.before ++ wire v.after

instance : Wire Bitmap4 where
  wire v := wire v.words

instance : Wire Fattr4 where
  wire v := wire v.attrmask ++ wireOpaque v.attrVals

/-! ### Bodies of results -/

instance : Wire GetAttr4resok where
  wire v := wire v.objAttributes

instance : Wire SetAttr4resok where
  wire v := wire v.attrsset

/-- OPEN_DELEGATE_NONE, whose arm is void. -/
instance : Wire OpenDelegation4 where
  wire
    | .none => wire (0 : UInt32)

instance : Wire Open4resok where
  wire v := wire v.stateid ++ wire v.cinfo ++ wire v.rflags ++ wire v.attrset ++ wire v.delegation

instance : Wire Close4resok where
  wire v := wire v.openStateid

instance : Wire Read4resok where
  wire v := wire v.eof ++ wire v.data

instance : Wire Write4resok where
  wire v := wire v.count ++ wire v.committed ++ wire v.writeverf

instance : Wire Entry4 where
  wire v := wire v.cookie ++ wire v.name ++ wire v.attrs

/-- The entries are a linked list: each is behind a `true`, and a `false` ends it. -/
instance : Wire DirList4 where
  wire v := v.entries.flatMap (fun entry => wire true ++ wire entry) ++ wire false ++ wire v.eof

instance : Wire ReadDir4resok where
  wire v := wire v.cookieverf ++ wire v.reply

instance : Wire Remove4resok where
  wire v := wire v.cinfo

instance : Wire Rename4resok where
  wire v := wire v.sourceCinfo ++ wire v.targetCinfo

/-- SP4_NONE, whose arm is void. -/
instance : Wire StateProtect4r where
  wire
    | .spNone => wire (0 : UInt32)

instance : Wire ServerOwner4 where
  wire v := wire v.soMinorId ++ wire v.soMajorId

instance : Wire NfsImplId4 where
  wire v := wire v.niiDomain ++ wire v.niiName ++ wire v.niiDate

instance : Wire ExchangeId4resok where
  wire v :=
    wire v.eirClientid ++ wire v.eirSequenceid ++ wire v.eirFlags ++ wire v.eirStateProtect ++
    wire v.eirServerOwner ++ wire v.eirServerScope ++ wire v.eirServerImplId

instance : Wire ChannelAttrs4 where
  wire v :=
    wire v.caHeaderpadsize ++ wire v.caMaxrequestsize ++ wire v.caMaxresponsesize ++
    wire v.caMaxresponsesizeCached ++ wire v.caMaxoperations ++ wire v.caMaxrequests ++
    wire v.caRdmaIrd

instance : Wire CreateSession4resok where
  wire v :=
    wire v.csrSessionid ++ wire v.csrSequence ++ wire v.csrFlags ++ wire v.csrForeChanAttrs ++
    wire v.csrBackChanAttrs

instance : Wire Sequence4resok where
  wire v :=
    wire v.srSessionid ++ wire v.srSequenceid ++ wire v.srSlotid ++ wire v.srHighestSlotid ++
    wire v.srTargetHighestSlotid ++ wire v.srStatusFlags

/-! ### Results -/

/-- The supported operations. -/
inductive Op where
  | close | getattr | getfh | lookup | open | putfh | putrootfh | read | readdir | remove
  | rename | setattr | write | exchangeId | createSession | destroySession | sequence
  | reclaimComplete
deriving DecidableEq

/-- `nfs_opnum4`. -/
def Op.num : Op → UInt32
  | .close => 4
  | .getattr => 9
  | .getfh => 10
  | .lookup => 15
  | .open => 18
  | .putfh => 22
  | .putrootfh => 24
  | .read => 25
  | .readdir => 26
  | .remove => 28
  | .rename => 29
  | .setattr => 34
  | .write => 38
  | .exchangeId => 42
  | .createSession => 43
  | .destroySession => 44
  | .sequence => 53
  | .reclaimComplete => 58

/-- An operation that succeeded, and the body of its result. -/
inductive Success where
  | putrootfh | putfh | lookup | destroySession | reclaimComplete
  | getfh (object : NfsFh4)
  | getattr (body : GetAttr4resok)
  | setattr (body : SetAttr4resok)
  | open (body : Open4resok)
  | close (body : Close4resok)
  | read (body : Read4resok)
  | write (body : Write4resok)
  | readdir (body : ReadDir4resok)
  | remove (body : Remove4resok)
  | rename (body : Rename4resok)
  | exchangeId (body : ExchangeId4resok)
  | createSession (body : CreateSession4resok)
  | sequence (body : Sequence4resok)
deriving DecidableEq

namespace Success

/-- Which operation it is the result of. -/
def op : Success → Op
  | putrootfh => .putrootfh
  | putfh => .putfh
  | lookup => .lookup
  | destroySession => .destroySession
  | reclaimComplete => .reclaimComplete
  | getfh _ => .getfh
  | getattr _ => .getattr
  | setattr _ => .setattr
  | .open _ => .open
  | close _ => .close
  | read _ => .read
  | write _ => .write
  | readdir _ => .readdir
  | remove _ => .remove
  | rename _ => .rename
  | exchangeId _ => .exchangeId
  | createSession _ => .createSession
  | sequence _ => .sequence

/-- The body behind the status, as it is on the wire. -/
def wireBody : Success → Bytes
  | putrootfh | putfh | lookup | destroySession | reclaimComplete => []
  | getfh object => wire object
  | getattr body => wire body
  | setattr body => wire body
  | .open body => wire body
  | close body => wire body
  | read body => wire body
  | write body => wire body
  | readdir body => wire body
  | remove body => wire body
  | rename body => wire body
  | exchangeId body => wire body
  | createSession body => wire body
  | sequence body => wire body

instance : Wire Success where
  wire r := wire r.op.num ++ (wire Nfsstat4.NFS4_OK.code ++ r.wireBody)

end Success

/-- An operation that failed. -/
structure Failure where
  op : Op
  status : Nfsstat4
  /-- The attributes that a SETATTR set before it failed. -/
  attrsset : Bitmap4
  status_ne : status ≠ .NFS4_OK
deriving DecidableEq

/-- What is behind the status: a bitmap for SETATTR, and nothing for the others. -/
def Failure.trailing (f : Failure) : Bytes :=
  if f.op = .setattr then wire f.attrsset else []

instance : Wire Failure where
  wire f := wire f.op.num ++ wire f.status.code ++ f.trailing

/-! ### Replies -/

/-- A reply. Its status is that of the last result. Without results it can be any. -/
structure Reply where
  status : Nfsstat4
  tag : String
  succeeded : List Success
  failed : Option Failure
  status_failed : ∀ f ∈ failed, f.status = status
  status_succeeded : failed = none → succeeded ≠ [] → status = .NFS4_OK

instance : Wire Reply where
  wire r :=
    wire r.status.code ++ wire r.tag ++
    wire (UInt32.ofNat (r.succeeded.length + r.failed.toList.length)) ++
    (r.succeeded.flatMap wire ++ r.failed.toList.flatMap wire)

end NfsMount.Rfc8881
