import NfsMount.Lib.BigEndian
import NfsMount.Lib.Decoder

/-!
# `NfsMount.XdrCodec.Primitives`: errors, traits and fixed-width types

The model of `xdr-codec/src/error.rs`, `traits.rs` and `primitives.rs`. A `BytesMut` that is
written to is the list of bytes appended, and a `Bytes` that is read from is the list of
unread bytes. `Buf::get_u32`, `get_u64`, `copy_to_slice` and `split_to` are
`Decoder.splitTo`, which panics when it is asked for more than `remaining()`.
-/

set_option autoImplicit false

namespace NfsMount.XdrCodec

open NfsMount.Lib

/-- The bytes of a buffer. -/
abbrev Bytes := List UInt8

/-- What decoding can fail with, and what cannot be encoded. -/
inductive XdrError where
  | bufferTooShort (needed available : Nat)
  | invalidBool (value : UInt32)
  | invalidEnum (discriminant : UInt32) (typeName : String)
  | stringNotUtf8 (raw : Bytes)
  | lengthExceeded (max actual : UInt32)
deriving DecidableEq, Repr

/-- Encode a value, appending to the buffer. -/
class XdrEncode (α : Type) where
  encode : α → Encoded UInt8 XdrError

/-- Decode a value, advancing the buffer cursor. -/
class XdrDecode (α : Type) where
  decode : Decoder UInt8 XdrError α

export XdrEncode (encode)
export XdrDecode (decode)

/-- The guard and the read that every fixed-width decoder makes: `n` bytes, or
`BufferTooShort` when fewer are left. -/
def readFixed (n : Nat) : Decoder UInt8 XdrError Bytes := do
  let available ← Decoder.remaining
  if available < n then
    Decoder.fail (.bufferTooShort n available)
  else
    Decoder.splitTo n

instance : XdrEncode UInt32 where
  encode x := .ok (beBytes 4 x.toNat)

instance : XdrDecode UInt32 where
  decode := (fun bs => UInt32.ofNat (ofBE bs)) <$> readFixed 4

instance : XdrEncode Int32 where
  encode x := .ok (beBytes 4 x.toUInt32.toNat)

instance : XdrDecode Int32 where
  decode := (fun bs => (UInt32.ofNat (ofBE bs)).toInt32) <$> readFixed 4

instance : XdrEncode UInt64 where
  encode x := .ok (beBytes 8 x.toNat)

instance : XdrDecode UInt64 where
  decode := (fun bs => UInt64.ofNat (ofBE bs)) <$> readFixed 8

instance : XdrEncode Int64 where
  encode x := .ok (beBytes 8 x.toUInt64.toNat)

instance : XdrDecode Int64 where
  decode := (fun bs => (UInt64.ofNat (ofBE bs)).toInt64) <$> readFixed 8

instance : XdrEncode Bool where
  encode b := encode (if b then 1 else 0 : UInt32)

instance : XdrDecode Bool where
  decode := do
    let val : UInt32 ← decode
    if val = 0 then pure false
    else if val = 1 then pure true
    else Decoder.fail (.invalidBool val)

end NfsMount.XdrCodec
