import NfsMount.XdrCodec.Variable

/-!
# `NfsMount.XdrDerive.Macro`: the derive macros

The model of `xdr-derive/src/lib.rs`. `Ty` describes the types the macros are for: the types
with a codec of their own in `xdr-codec`, arrays and optional data of any described type,
and derived structs and enums. `Ty.Val` are the values of a description.

Named, tuple and unit fields generate the same code but for how a field is named, so they are
one `Fields`. A variant carries what `get_discriminant` looks at. The macros panic on a
variant without a discriminant, so a description has none.

`encode` and `decode` are the code that the macros generate, or that `xdr-codec` has. They
are two traversals of the description. An enum is encoded by the variant of the value, and
decoded by the first arm whose discriminant is the word that was read.

The macros do not look at names, and the code they generate need not compile (`Ty.compiles`): the
pattern of a variant binds its fields beside the parameter `buf`. `Ty.derive` is the codec of a
description, if it has one. The idents are without the prefix of raw identifiers. The described
types, and what else is declared around them, are taken not to clash with the names that the
generated code refers to (`Ok`, `Result`, `u32`, `bytes`, `xdr_codec` and its bindings).
-/

set_option autoImplicit false

namespace NfsMount.XdrDerive

open NfsMount.Lib NfsMount.XdrCodec

/-! ### Discriminants -/

/-- An expression. Only integer literals matter. -/
inductive Expr where
  | intLit (value : Nat)
  | other
deriving DecidableEq

/-- An attribute after its path: nothing, `= value`, or `(..)`. A list is kept when it parses
as `key = value`. -/
inductive Meta where
  | path
  | nameValue (value : Expr)
  | list (nested : Option (String × Expr))
deriving DecidableEq

/-- An attribute of a variant, in its two parts. -/
structure Attribute where
  path : String
  body : Meta
deriving DecidableEq

/-- What `get_discriminant` looks at in a variant. -/
structure VariantSyntax where
  attrs : List Attribute
  /-- The `= expr` of the variant. -/
  discriminant : Option Expr
deriving DecidableEq

/-- `lit_int.base10_parse::<u32>().ok()`. -/
def parseU32 (value : Nat) : Option UInt32 :=
  if value < 2 ^ 32 then some (UInt32.ofNat value) else none

/-- One turn of the loop over the attributes: what it returns, if it returns. -/
def attrDiscriminant (attr : Attribute) : Option (Option UInt32) :=
  if attr.path ≠ "xdr" then none
  else
    match attr.body with
    | .list (some (key, .intLit value)) =>
        if key = "discriminant" then some (parseU32 value) else none
    | _ => none

/-- The discriminant of a variant: of the first attribute that gives one, else the explicit
one. A literal that is no `u32` in the attribute does not fall back. -/
def getDiscriminant (variant : VariantSyntax) : Option UInt32 :=
  match variant.attrs.findSome? attrDiscriminant with
  | some returned => returned
  | none =>
      match variant.discriminant with
      | some (.intLit value) => parseU32 value
      | _ => none

/-- A variant that the macros accept. -/
structure Variant where
  ident : String
  body : VariantSyntax
  hasDiscriminant : (getDiscriminant body).isSome
deriving DecidableEq

/-- The word that stands for the variant on the wire. -/
def Variant.disc (v : Variant) : UInt32 := (getDiscriminant v.body).get v.hasDiscriminant

/-! ### Descriptions of types -/

/-- How a field is named: by an identifier, or by its index in a tuple. -/
inductive Member where
  | named (ident : String)
  | index (i : Nat)
deriving DecidableEq

mutual

/-- A type that the macros, or `xdr-codec`, give a codec. -/
inductive Ty where
  | u32
  | i32
  | u64
  | i64
  | bool
  | opaqueData
  | string
  | vec (elem : Ty)
  | option (elem : Ty)
  | struct (name : String) (fields : Fields)
  | enum (name : String) (variants : Variants)

/-- The fields of a struct or of a variant, in their order. -/
inductive Fields where
  | nil
  | cons (member : Member) (ty : Ty) (rest : Fields)

/-- The variants of an enum, in their order. -/
inductive Variants where
  | nil
  | cons (variant : Variant) (fields : Fields) (rest : Variants)

end

mutual

/-- The values of a type. -/
def Ty.Val : Ty → Type
  | .u32 => UInt32
  | .i32 => Int32
  | .u64 => UInt64
  | .i64 => Int64
  | .bool => Bool
  | .opaqueData => Opaque
  | .string => String
  | .vec elem => List elem.Val
  | .option elem => Option elem.Val
  | .struct _ fields => fields.Val
  | .enum _ variants => variants.Val

/-- A value for each field. -/
def Fields.Val : Fields → Type
  | .nil => Unit
  | .cons _ ty rest => ty.Val × rest.Val

/-- The fields of one variant. -/
def Variants.Val : Variants → Type
  | .nil => Empty
  | .cons _ fields rest => fields.Val ⊕ rest.Val

end

/-! ### The generated code -/

mutual

/-- `XdrEncode::encode` of a described type. -/
def Ty.encode : (ty : Ty) → ty.Val → Encoded UInt8 XdrError
  | .u32, (v : UInt32) => XdrEncode.encode v
  | .i32, (v : Int32) => XdrEncode.encode v
  | .u64, (v : UInt64) => XdrEncode.encode v
  | .i64, (v : Int64) => XdrEncode.encode v
  | .bool, (v : Bool) => XdrEncode.encode v
  | .opaqueData, (v : Opaque) => XdrEncode.encode v
  | .string, (v : String) => XdrEncode.encode v
  | .vec elem, (v : List elem.Val) =>
      letI : XdrEncode elem.Val := ⟨fun a => elem.encode a⟩
      XdrEncode.encode v
  | .option elem, (v : Option elem.Val) =>
      letI : XdrEncode elem.Val := ⟨fun a => elem.encode a⟩
      XdrEncode.encode v
  | .struct _ fields, v => Encoded.seq (fields.encodeStructFields v)
  | .enum _ variants, v => variants.encodeEnumVariants v

/-- One `encode` for each field, in the order of the declaration. -/
def Fields.encodeStructFields : (fields : Fields) → fields.Val → List (Encoded UInt8 XdrError)
  | .nil, _ => []
  | .cons _ ty rest, (v, vs) => ty.encode v :: rest.encodeStructFields vs

/-- The arm of the variant of the value: its discriminant and its fields. -/
def Variants.encodeEnumVariants : (variants : Variants) → variants.Val → Encoded UInt8 XdrError
  | .nil, v => v.elim
  | .cons variant fields _, .inl v =>
      Encoded.seq (XdrEncode.encode variant.disc :: fields.encodeStructFields v)
  | .cons _ _ rest, .inr v => rest.encodeEnumVariants v

end

mutual

/-- `XdrDecode::decode` of a described type. -/
def Ty.decode : (ty : Ty) → Decoder UInt8 XdrError ty.Val
  | .u32 => (XdrDecode.decode : Decoder UInt8 XdrError UInt32)
  | .i32 => (XdrDecode.decode : Decoder UInt8 XdrError Int32)
  | .u64 => (XdrDecode.decode : Decoder UInt8 XdrError UInt64)
  | .i64 => (XdrDecode.decode : Decoder UInt8 XdrError Int64)
  | .bool => (XdrDecode.decode : Decoder UInt8 XdrError Bool)
  | .opaqueData => (XdrDecode.decode : Decoder UInt8 XdrError Opaque)
  | .string => (XdrDecode.decode : Decoder UInt8 XdrError String)
  | .vec elem =>
      letI : XdrDecode elem.Val := ⟨elem.decode⟩
      (XdrDecode.decode : Decoder UInt8 XdrError (List elem.Val))
  | .option elem =>
      letI : XdrDecode elem.Val := ⟨elem.decode⟩
      (XdrDecode.decode : Decoder UInt8 XdrError (Option elem.Val))
  | .struct _ fields => fields.decodeStructFields
  | .enum name variants => do
      let discriminant : UInt32 ← XdrDecode.decode
      variants.decodeEnumVariants name discriminant

/-- One `decode` for each field, in the order of the declaration. -/
def Fields.decodeStructFields : (fields : Fields) → Decoder UInt8 XdrError fields.Val
  | .nil => pure ()
  | .cons _ ty rest => do
      let v ← ty.decode
      let vs ← rest.decodeStructFields
      pure (v, vs)

/-- `match discriminant`, with one arm for each variant and the arm of the error. -/
def Variants.decodeEnumVariants (name : String) (discriminant : UInt32) :
    (variants : Variants) → Decoder UInt8 XdrError variants.Val
  | .nil => Decoder.fail (.invalidEnum discriminant name)
  | .cons variant fields rest =>
      if discriminant = variant.disc then .inl <$> fields.decodeStructFields
      else .inr <$> rest.decodeEnumVariants name discriminant

end

/-! ### Names in the generated code -/

/-- What a name stands for in an arm of `match self`. -/
inductive Local where
  /-- A reference to a field of the variant. -/
  | field
  /-- The parameter that takes the bytes. -/
  | buffer
deriving DecidableEq

/-- The name that the pattern of an arm has for a field: `f0`, `f1` and so on in a tuple. -/
def Member.binding : Member → String
  | .named ident => ident
  | .index i => "f" ++ toString i

/-- The constructors that are in scope everywhere. In a pattern these names bind nothing. -/
def preludeConstructors : List String := ["Some", "None", "Ok", "Err"]

/-- The names in the pattern of the arm of a variant with these fields. -/
def Fields.bindings : Fields → List String
  | .nil => []
  | .cons member _ rest => member.binding :: rest.bindings

/-- What the names in the arm stand for. The pattern is inside of the parameter. -/
def Fields.scope (fields : Fields) : List (String × Local) :=
  fields.bindings.map (·, .field) ++ [("buf", .buffer)]

/-- The arm of a variant with these fields type-checks: its pattern binds the fields, and what
is passed to `encode` as `buf` is the buffer. -/
def Fields.armCompiles (fields : Fields) : Bool :=
  fields.bindings.all (· ∉ preludeConstructors) && fields.scope.lookup "buf" == some .buffer

/-- Whether `match self` has no arm. -/
def Variants.isEmpty : Variants → Bool
  | .nil => true
  | .cons _ _ _ => false

mutual

/-- The generated code type-checks, in the described type and in all that it is made of. -/
def Ty.compiles : Ty → Bool
  | .vec elem => elem.compiles
  | .option elem => elem.compiles
  | .struct _ fields => fields.compiles
  -- `self` is a reference, and a `match` on a reference has at least one arm.
  | .enum _ variants => !variants.isEmpty && variants.compiles
  | .u32 | .i32 | .u64 | .i64 | .bool | .opaqueData | .string => true

/-- The types of the fields. A struct has its fields behind `self`, whatever their names. -/
def Fields.compiles : Fields → Bool
  | .nil => true
  | .cons _ ty rest => ty.compiles && rest.compiles

/-- The arms, and the types of the fields in them. -/
def Variants.compiles : Variants → Bool
  | .nil => true
  | .cons _ fields rest => fields.armCompiles && fields.compiles && rest.compiles

end

/-- An implementation of the two traits. -/
structure Codec (α : Type) where
  encode : α → Encoded UInt8 XdrError
  decode : Decoder UInt8 XdrError α

/-- What the two macros make of a described type. Without a codec, it does not compile. -/
def Ty.derive (ty : Ty) : Option (Codec ty.Val) :=
  if ty.compiles then some ⟨ty.encode, ty.decode⟩ else none

end NfsMount.XdrDerive
