import NfsMount.Nfs4Types.Status

/-!
# `NfsMount.Nfs4Types.Base`: base types, attributes and the shape of a result

The model of `nfs4-types/src/base.rs` and of the types of `bitmap.rs` that results carry.
A derived struct encodes its fields in the order of the declaration and decodes them in the
same order (`xdr-derive/src/lib.rs`, `encode_struct_fields` and `decode_struct_fields`).

Thirteen operations have a result struct with a status and a body that is present on `Ok`
only. Their hand-written codecs are the same up to the type of the body. `OpResult` is that
struct and its codec.
-/

set_option autoImplicit false

namespace NfsMount.Nfs4Types

open NfsMount.Lib NfsMount.XdrCodec

/-! ### `base.rs` -/

/-- NFS filehandle: variable-length opaque, at most 128 bytes when decoded. -/
structure NfsFh4 where
  bytes : Bytes
deriving DecidableEq

instance : XdrEncode NfsFh4 where
  encode fh := encode (Opaque.mk fh.bytes)

instance : XdrDecode NfsFh4 where
  decode := do
    let opq : Opaque ← decode
    if 128 < opq.bytes.length then
      Decoder.fail (.lengthExceeded 128 (UInt32.ofNat opq.bytes.length))
    else
      pure ⟨opq.bytes⟩

/-- Client identifier assigned by the server during EXCHANGE_ID. -/
structure ClientId4 where
  id : UInt64
deriving DecidableEq

instance : XdrEncode ClientId4 where
  encode c := encode c.id

instance : XdrDecode ClientId4 where
  decode := ClientId4.mk <$> decode

/-- A byte array of fixed length. -/
structure FixedOpaque (n : Nat) where
  bytes : Bytes
  length_eq : bytes.length = n
deriving DecidableEq

/-- `copy_to_slice` into an array of `n` zeros. -/
def FixedOpaque.ofBytes (n : Nat) (bs : Bytes) : FixedOpaque n where
  bytes := (bs ++ List.replicate n 0).take n
  length_eq := by simp

instance {n : Nat} : XdrEncode (FixedOpaque n) where
  encode v := .ok v.bytes

instance {n : Nat} : XdrDecode (FixedOpaque n) where
  decode := FixedOpaque.ofBytes n <$> readFixed n

/-- Verifier: 8 bytes used for reboot detection. -/
abbrev Verifier4 := FixedOpaque 8

/-- Session identifier: 16 bytes. -/
abbrev SessionId4 := FixedOpaque 16

/-- The 12-byte `other` field of a stateid. -/
abbrev StateIdOther := FixedOpaque 12

/-- Sequence ID for session slot tracking. -/
abbrev SequenceId4 := UInt32

/-- Slot ID within a session. -/
abbrev SlotId4 := UInt32

/-- The state of an open or a lock, with how often it has changed. -/
structure StateId4 where
  seqid : UInt32
  other : StateIdOther
deriving DecidableEq

instance : XdrEncode StateId4 where
  encode v := Encoded.seq [encode v.seqid, encode v.other]

instance : XdrDecode StateId4 where
  decode := do
    let seqid ← decode
    let other ← decode
    pure { seqid, other }

/-- A time in seconds and nanoseconds. -/
structure NfsTime4 where
  seconds : Int64
  nseconds : UInt32
deriving DecidableEq

instance : XdrEncode NfsTime4 where
  encode v := Encoded.seq [encode v.seconds, encode v.nseconds]

instance : XdrDecode NfsTime4 where
  decode := do
    let seconds ← decode
    let nseconds ← decode
    pure { seconds, nseconds }

/-- Change info returned by mutating operations. -/
structure ChangeInfo4 where
  atomic : Bool
  before : UInt64
  after : UInt64
deriving DecidableEq

instance : XdrEncode ChangeInfo4 where
  encode v := Encoded.seq [encode v.atomic, encode v.before, encode v.after]

instance : XdrDecode ChangeInfo4 where
  decode := do
    let atomic ← decode
    let before ← decode
    let after ← decode
    pure { atomic, before, after }

/-! ### `bitmap.rs` -/

/-- Attribute bitmap: an array of words. -/
structure Bitmap4 where
  words : List UInt32
deriving DecidableEq

instance : XdrEncode Bitmap4 where
  encode b := encode b.words

instance : XdrDecode Bitmap4 where
  decode := Bitmap4.mk <$> decode

/-- File attributes: a bitmap and the encoded values in bitmap order. -/
structure Fattr4 where
  attrmask : Bitmap4
  attrVals : Bytes
deriving DecidableEq

instance : XdrEncode Fattr4 where
  encode v := Encoded.seq [encode v.attrmask, encode (Opaque.mk v.attrVals)]

instance : XdrDecode Fattr4 where
  decode := do
    let attrmask ← decode
    let attrVals : Opaque ← decode
    pure { attrmask, attrVals := attrVals.bytes }

/-! ### The result of an operation -/

/-- The result of an operation whose body is present on `Ok` only. -/
structure OpResult (β : Type) where
  status : NfsStat4
  resok : Option β
deriving DecidableEq

instance {β : Type} [XdrEncode β] : XdrEncode (OpResult β) where
  encode r := Encoded.seq
    [encode r.status,
     match r.resok with
     | some ok => encode ok
     | none => .ok []]

instance {β : Type} [XdrDecode β] : XdrDecode (OpResult β) where
  decode := do
    let status : NfsStat4 ← decode
    if status.isOk then
      let ok ← decode
      pure { status, resok := some ok }
    else
      pure { status, resok := none }

end NfsMount.Nfs4Types
