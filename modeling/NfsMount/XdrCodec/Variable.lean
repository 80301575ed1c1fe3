import NfsMount.XdrCodec.Primitives

/-!
# `NfsMount.XdrCodec.Variable`: opaque data, strings, arrays and optional data

The model of `xdr-codec/src/variable.rs`. Opaque data and strings are a length word, the
bytes, and zero padding to a 4-byte boundary. An array is a count word and the elements, and
optional data is a word that says whether the value follows.

`Vec::with_capacity` has no effect on the result and is left out. `len + xdr_padding(len)`
is below `2 ^ 32 + 3`, so it cannot overflow a 64-bit `usize`.
-/

set_option autoImplicit false

namespace NfsMount.XdrCodec

open NfsMount.Lib

/-- The number of padding bytes to a 4-byte boundary. -/
def xdrPadding (len : Nat) : Nat := (4 - len % 4) % 4

/-- Variable-length opaque data. -/
structure Opaque where
  bytes : Bytes
deriving DecidableEq, Repr

/-- `u32::try_from(len)`, with the error the encoders map a failure to. -/
def lengthWord (len : Nat) : Except XdrError UInt32 :=
  if len < 2 ^ 32 then .ok (UInt32.ofNat len)
  else .error (.lengthExceeded 0xFFFFFFFF 0)

/-- A length, the data, and the padding to whole words. -/
def encodeOpaqueBytes (data : Bytes) : Encoded UInt8 XdrError :=
  match lengthWord data.length with
  | .error e => .error e
  | .ok len =>
      Encoded.seq [encode len, .ok data, .ok (List.replicate (xdrPadding data.length) 0)]

/-- The length, then as many bytes, with the padding skipped. -/
def decodeOpaqueBytes : Decoder UInt8 XdrError Bytes := do
  let word : UInt32 ← decode
  let len := word.toNat
  let padded := len + xdrPadding len
  let available ← Decoder.remaining
  if available < padded then
    Decoder.fail (.bufferTooShort padded available)
  else
    let data ← Decoder.splitTo len
    let pad := xdrPadding len
    if 0 < pad then
      Decoder.advance pad
    pure data

instance : XdrEncode Opaque where
  encode o := encodeOpaqueBytes o.bytes

instance : XdrDecode Opaque where
  decode := Opaque.mk <$> decodeOpaqueBytes

/-- `String::as_bytes`. -/
def stringBytes (s : String) : Bytes := s.toByteArray.data.toList

/-- `String::from_utf8`. -/
def fromUtf8 (raw : Bytes) : Except XdrError String :=
  if h : (ByteArray.mk raw.toArray).IsValidUTF8 then .ok (String.ofByteArray _ h)
  else .error (.stringNotUtf8 raw)

instance : XdrEncode String where
  encode s := encodeOpaqueBytes (stringBytes s)

instance : XdrDecode String where
  decode := do
    let raw ← decodeOpaqueBytes
    match fromUtf8 raw with
    | .ok s => pure s
    | .error e => Decoder.fail e

instance {α : Type} [XdrEncode α] : XdrEncode (List α) where
  encode items :=
    match lengthWord items.length with
    | .error e => .error e
    | .ok len => Encoded.seq (encode len :: items.map encode)

instance {α : Type} [XdrDecode α] : XdrDecode (List α) where
  decode := do
    let len : UInt32 ← decode
    Decoder.times len.toNat decode

/-! ### Optional data -/

instance {α : Type} [XdrEncode α] : XdrEncode (Option α) where
  encode
    | some val => Encoded.seq [encode (1 : UInt32), encode val]
    | none => encode (0 : UInt32)

instance {α : Type} [XdrDecode α] : XdrDecode (Option α) where
  decode := do
    let disc : UInt32 ← decode
    if disc = 0 then pure none
    else if disc = 1 then some <$> decode
    else Decoder.fail (.invalidBool disc)

end NfsMount.XdrCodec
