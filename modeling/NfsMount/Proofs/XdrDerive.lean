import NfsMount.Proofs.XdrCodec
import NfsMount.XdrDerive.Macro

/-!
# `NfsMount.Proofs.XdrDerive`: derived codecs are codecs

For every description of a type whose enums have distinct discriminants, the two traversals
of the derive macros are inverse. The proof follows the description: one arm for each kind
of type, one step for each field, and one step for each variant.

Not every description has a codec. The code that the macros generate for a struct variant binds
its fields in the scope of the parameter `buf`, and a field of that name takes its place.
`derive_inverse_iff` says for which descriptions (`Ty.Plain`) the macros keep what they promise.

The values of an enum are handled with the discriminant as a tag. The arms of `decode` are
tried in order, so the arm of a variant is reached because no earlier one has its
discriminant.
-/

set_option autoImplicit false

namespace NfsMount.XdrDerive

open NfsMount.Lib NfsMount.XdrCodec

/-! ### Well-formedness -/

/-- The discriminants of the variants, in the order of the declaration. -/
def Variants.discriminants : Variants → List UInt32
  | .nil => []
  | .cons variant _ rest => variant.disc :: rest.discriminants

mutual

/-- In every enum of the description the variants have distinct discriminants. -/
def Ty.Distinct : Ty → Prop
  | .vec elem => elem.Distinct
  | .option elem => elem.Distinct
  | .struct _ fields => fields.Distinct
  | .enum _ variants => variants.discriminants.Nodup ∧ variants.Distinct
  | _ => True

/-- The enums in every field have distinct discriminants. -/
def Fields.Distinct : Fields → Prop
  | .nil => True
  | .cons _ ty rest => ty.Distinct ∧ rest.Distinct

/-- The enums in every variant have distinct discriminants. -/
def Variants.Distinct : Variants → Prop
  | .nil => True
  | .cons _ fields rest => fields.Distinct ∧ rest.Distinct

end

mutual

/-- All strings, opaques and vectors in the value have fewer than `2 ^ 32` elements. -/
def Ty.WellFormed : (ty : Ty) → ty.Val → Prop
  | .opaqueData, (v : Opaque) => v.bytes.length < 2 ^ 32
  | .string, (v : String) => (stringBytes v).length < 2 ^ 32
  | .vec elem, (v : List elem.Val) => v.length < 2 ^ 32 ∧ ∀ a ∈ v, elem.WellFormed a
  | .option elem, (v : Option elem.Val) => ∀ a ∈ v, elem.WellFormed a
  | .struct _ fields, v => fields.WellFormed v
  | .enum _ variants, v => variants.WellFormed v
  | .u32, _ | .i32, _ | .u64, _ | .i64, _ | .bool, _ => True

/-- A value that each field's codec can carry. -/
def Fields.WellFormed : (fields : Fields) → fields.Val → Prop
  | .nil, _ => True
  | .cons _ ty rest, (v, vs) => ty.WellFormed v ∧ rest.WellFormed vs

/-- A value that its variant's codec can carry. -/
def Variants.WellFormed : (variants : Variants) → variants.Val → Prop
  | .nil, _ => False
  | .cons _ fields _, .inl v => fields.WellFormed v
  | .cons _ _ rest, .inr v => rest.WellFormed v

end

/-! ### An enum by its discriminant -/

namespace Variants

/-- The discriminant of the variant of a value. -/
def discOf : (variants : Variants) → variants.Val → UInt32
  | .nil, v => v.elim
  | .cons variant _ _, .inl _ => variant.disc
  | .cons _ _ rest, .inr v => rest.discOf v

/-- What follows the discriminant. -/
def encodeRest : (variants : Variants) → variants.Val → Encoded UInt8 XdrError
  | .nil, v => v.elim
  | .cons _ fields _, .inl v => Encoded.seq (fields.encodeStructFields v)
  | .cons _ _ rest, .inr v => rest.encodeRest v

/-- An enum is written as the discriminant of the value's variant, and its fields. -/
theorem encode_eq : (variants : Variants) → (v : variants.Val) →
    variants.encodeEnumVariants v
      = Encoded.seq [encode (variants.discOf v), variants.encodeRest v]
  | .nil, v => v.elim
  | .cons _ _ _, .inl _ => (Encoded.seq_pair_seq _ _).symm
  | .cons _ _ rest, .inr v => rest.encode_eq v

/-- The discriminant of a value is one of the enum's. -/
theorem discOf_mem : (variants : Variants) → (v : variants.Val) →
    variants.discOf v ∈ variants.discriminants
  | .nil, v => v.elim
  | .cons _ _ _, .inl _ => List.mem_cons_self
  | .cons _ _ rest, .inr v => List.mem_cons_of_mem _ (rest.discOf_mem v)

/-- A word that is no discriminant ends in the arm of the error. -/
theorem run_decode_of_not_mem {name : String} {word : UInt32} : (variants : Variants) →
    word ∉ variants.discriminants → (b : Bytes) →
    (variants.decodeEnumVariants name word).run b = .err (.invalidEnum word name)
  | .nil, _, _ => rfl
  | .cons variant fields rest, h, b => by
      obtain ⟨hne, hrest⟩ := not_or.mp (mt List.mem_cons.mpr h)
      have hlater : (Sum.inr <$> rest.decodeEnumVariants name word :
          Decoder UInt8 XdrError (fields.Val ⊕ rest.Val)).run b
            = .err (.invalidEnum word name) := by
        rw [← bind_pure_comp]
        exact Decoder.run_bind_err (rest.run_decode_of_not_mem hrest b)
      rw [decodeEnumVariants, if_neg hne]
      exact hlater

end Variants

/-! ### The induction over the description -/

mutual

/-- A described type has a codec. The induction is on the description. -/
theorem Ty.isCodec : (ty : Ty) → ty.Distinct → IsCodec ty.WellFormed ty.encode ty.decode
  | .u32, _ => XdrCodec.isCodec (α := UInt32)
  | .i32, _ => XdrCodec.isCodec (α := Int32)
  | .u64, _ => XdrCodec.isCodec (α := UInt64)
  | .i64, _ => XdrCodec.isCodec (α := Int64)
  | .bool, _ => XdrCodec.isCodec (α := Bool)
  | .opaqueData, _ => XdrCodec.isCodec (α := Opaque)
  | .string, _ => XdrCodec.isCodec (α := String)
  | .vec elem, h =>
      letI : XdrEncode elem.Val := ⟨elem.encode⟩
      letI : XdrDecode elem.Val := ⟨elem.decode⟩
      letI : XdrWf elem.Val := ⟨elem.WellFormed⟩
      haveI : LawfulXdr elem.Val := ⟨elem.isCodec h⟩
      XdrCodec.isCodec (α := List elem.Val)
  | .option elem, h =>
      letI : XdrEncode elem.Val := ⟨elem.encode⟩
      letI : XdrDecode elem.Val := ⟨elem.decode⟩
      letI : XdrWf elem.Val := ⟨elem.WellFormed⟩
      haveI : LawfulXdr elem.Val := ⟨elem.isCodec h⟩
      XdrCodec.isCodec (α := Option elem.Val)
  | .struct _ fields, h => fields.isCodec h
  | .enum name variants, h => by
      -- The discriminant is read first, and decides which fields follow.
      have hunion : IsCodec (fun v : variants.Val => True ∧ variants.WellFormed v)
          (fun v => Encoded.seq [encode (variants.discOf v), variants.encodeRest v])
          (Ty.enum name variants).decode :=
        (XdrCodec.isCodec (α := UInt32)).bind fun word _ =>
          variants.isCodec name word h.1 h.2
      exact hunion.congr (fun _ => (iff_of_eq (true_and _)).symm)
        fun v _ => variants.encode_eq v

/-- The fields are read in the order they are written. -/
theorem Fields.isCodec : (fields : Fields) → fields.Distinct →
    IsCodec fields.WellFormed (fun v => Encoded.seq (fields.encodeStructFields v))
      fields.decodeStructFields
  | .nil, _ => IsCodec.pure () fun _ => iff_of_true trivial rfl
  | .cons _ ty rest, h => by
      have hpair : IsCodec (fun v : ty.Val × rest.Val => ty.WellFormed v.1 ∧ rest.WellFormed v.2)
          (fun v => Encoded.seq [ty.encode v.1, Encoded.seq (rest.encodeStructFields v.2)])
          (do
            let v ← ty.decode
            let vs ← rest.decodeStructFields
            pure (v, vs)) :=
        IsCodec.record <|
          IsCodec.field Prod.fst (ty.isCodec h.1) fun v =>
          IsCodec.last Prod.snd (rest.isCodec h.2) fun w vs => by cases w; simp
      exact hpair.congr (fun _ => Iff.rfl) fun v _ => (Encoded.seq_pair_seq _ _).symm

/-- What follows the discriminant `word`, for the values of the variant it belongs to. -/
theorem Variants.isCodec (name : String) (word : UInt32) : (variants : Variants) →
    variants.discriminants.Nodup → variants.Distinct →
    IsCodec (fun v => variants.discOf v = word ∧ variants.WellFormed v) variants.encodeRest
      (variants.decodeEnumVariants name word)
  | .nil, _, _ => IsCodec.fail _ fun v => v.elim
  | .cons variant fields rest, hnodup, h => by
      obtain ⟨hnotMem, hnodup⟩ := List.nodup_cons.mp hnodup
      rw [Variants.decodeEnumVariants]
      by_cases hword : word = variant.disc
      · -- The arm of this variant. No later variant has its discriminant.
        rw [if_pos hword]
        refine (fields.isCodec h.1).map Sum.inl (fun v => ?_) fun _ _ => rfl
        constructor
        · rintro ⟨hdisc, hwf⟩
          cases v with
          | inl v => exact ⟨v, hwf, rfl⟩
          | inr v => exact absurd (hword ▸ hdisc ▸ rest.discOf_mem v) hnotMem
        · rintro ⟨v, hwf, rfl⟩
          exact ⟨hword.symm, hwf⟩
      · rw [if_neg hword]
        refine (rest.isCodec name word hnodup h.2).map Sum.inr (fun v => ?_) fun _ _ => rfl
        constructor
        · rintro ⟨hdisc, hwf⟩
          cases v with
          | inl v => exact absurd hdisc.symm hword
          | inr v => exact ⟨v, ⟨hdisc, hwf⟩, rfl⟩
        · rintro ⟨v, hwf, rfl⟩
          exact hwf

end

mutual

/-- What encodes is well formed, and fills whole words. -/
theorem Ty.aligned : (ty : Ty) → (v : ty.Val) →
    Encoded.Aligned 4 (ty.WellFormed v) (ty.encode v)
  | .u32, (v : UInt32) => XdrCodec.aligned v
  | .i32, (v : Int32) => XdrCodec.aligned v
  | .u64, (v : UInt64) => XdrCodec.aligned v
  | .i64, (v : Int64) => XdrCodec.aligned v
  | .bool, (v : Bool) => XdrCodec.aligned v
  | .opaqueData, (v : Opaque) => XdrCodec.aligned v
  | .string, (v : String) => XdrCodec.aligned v
  | .vec elem, (v : List elem.Val) =>
      letI : XdrEncode elem.Val := ⟨elem.encode⟩
      letI : XdrWf elem.Val := ⟨elem.WellFormed⟩
      haveI : AlignedXdr elem.Val := ⟨elem.aligned⟩
      XdrCodec.aligned v
  | .option elem, (v : Option elem.Val) =>
      letI : XdrEncode elem.Val := ⟨elem.encode⟩
      letI : XdrWf elem.Val := ⟨elem.WellFormed⟩
      haveI : AlignedXdr elem.Val := ⟨elem.aligned⟩
      XdrCodec.aligned v
  | .struct _ fields, v => fields.aligned v
  | .enum _ variants, v => variants.aligned v

/-- The fields are words one after the other. -/
theorem Fields.aligned : (fields : Fields) → (v : fields.Val) →
    Encoded.Aligned 4 (fields.WellFormed v) (Encoded.seq (fields.encodeStructFields v))
  | .nil, _ => Encoded.aligned_ok (Nat.dvd_zero 4)
  | .cons _ ty rest, (v, vs) => (ty.aligned v).cons (rest.aligned vs)

/-- The discriminant is a word, and the fields are words. -/
theorem Variants.aligned : (variants : Variants) → (v : variants.Val) →
    Encoded.Aligned 4 (variants.WellFormed v) (variants.encodeEnumVariants v)
  | .nil, v => v.elim
  | .cons variant fields _, .inl v => (XdrCodec.aligned variant.disc).tag (fields.aligned v)
  | .cons _ _ rest, .inr v => rest.aligned v

end

/-! ### Names that clash -/

/-- The names of the fields that have one. -/
def Fields.idents : Fields → List String
  | .nil => []
  | .cons (.named ident) _ rest => ident :: rest.idents
  | .cons (.index _) _ rest => rest.idents

/-- The names that a field of a struct variant cannot have. -/
def reservedIdents : List String := "buf" :: preludeConstructors

mutual

/-- In the description every enum has a variant, and no field of a struct variant has a reserved
name. -/
def Ty.Plain : Ty → Prop
  | .vec elem => elem.Plain
  | .option elem => elem.Plain
  | .struct _ fields => fields.Plain
  | .enum _ variants => variants ≠ .nil ∧ variants.Plain
  | .u32 | .i32 | .u64 | .i64 | .bool | .opaqueData | .string => True

/-- The types of the fields are plain. -/
def Fields.Plain : Fields → Prop
  | .nil => True
  | .cons _ ty rest => ty.Plain ∧ rest.Plain

/-- Each variant binds no name that its arm needs, and its fields are plain. -/
def Variants.Plain : Variants → Prop
  | .nil => True
  | .cons _ fields rest =>
      (∀ ident ∈ fields.idents, ident ∉ reservedIdents) ∧ fields.Plain ∧ rest.Plain

end

/-- A binding of a tuple variant is no reserved name. -/
theorem index_binding_not_mem (i : Nat) : (Member.index i).binding ∉ reservedIdents := by
  have hhead : (Member.index i).binding.toList.head? = some 'f' := by
    rw [Member.binding, String.toList_append]
    rfl
  intro hmem
  have hother : ∀ name ∈ reservedIdents, name.toList.head? ≠ some 'f' := by decide
  exact hother _ hmem hhead

/-- The parameter is not shadowed exactly when no binding has its name. -/
theorem lookup_scope {names : List String} :
    (names.map (·, Local.field) ++ [("buf", Local.buffer)]).lookup "buf" = some .buffer ↔
      "buf" ∉ names := by
  induction names with
  | nil => simp
  | cons name names ih =>
      by_cases hname : "buf" = name
      · subst hname
        simp
      · have hne : ("buf" == name) = false := by simpa using hname
        simpa [List.lookup_cons, hname, hne] using ih

/-- Only the fields that have a name can have a reserved one. -/
theorem Fields.forall_bindings_iff : (fields : Fields) →
    ((∀ name ∈ fields.bindings, name ∉ reservedIdents) ↔
      ∀ ident ∈ fields.idents, ident ∉ reservedIdents)
  | .nil => Iff.rfl
  | .cons (.named _) _ rest => by
      rw [bindings, idents, List.forall_mem_cons, List.forall_mem_cons, rest.forall_bindings_iff]
      rfl
  | .cons (.index i) _ rest => by
      rw [bindings, idents, List.forall_mem_cons, rest.forall_bindings_iff]
      exact and_iff_right (index_binding_not_mem i)

/-- The arm of a variant compiles exactly when no field in it has a reserved name. -/
theorem Fields.armCompiles_iff (fields : Fields) :
    fields.armCompiles = true ↔ ∀ ident ∈ fields.idents, ident ∉ reservedIdents := by
  rw [← fields.forall_bindings_iff, armCompiles, Bool.and_eq_true, beq_iff_eq, scope, lookup_scope,
    List.all_eq_true]
  simp only [decide_eq_true_eq, reservedIdents, List.mem_cons, not_or]
  constructor
  · rintro ⟨hnames, hbuf⟩ name hname
    exact ⟨fun h => hbuf (h ▸ hname), hnames name hname⟩
  · intro h
    exact ⟨fun name hname => (h name hname).2, fun hbuf => (h "buf" hbuf).1 rfl⟩

/-- An enum has a variant unless it has none. -/
theorem Variants.isEmpty_eq_false_iff (variants : Variants) :
    (!variants.isEmpty) = true ↔ variants ≠ .nil := by
  cases variants with
  | nil => simp [isEmpty]
  | cons variant fields rest => simp [isEmpty]

mutual

/-- The generated code compiles exactly when no name in the description clashes. -/
theorem Ty.compiles_iff : (ty : Ty) → (ty.compiles = true ↔ ty.Plain)
  | .vec elem => elem.compiles_iff
  | .option elem => elem.compiles_iff
  | .struct _ fields => fields.compiles_iff
  | .enum _ variants => by
      rw [Ty.compiles, Ty.Plain, Bool.and_eq_true, variants.isEmpty_eq_false_iff,
        variants.compiles_iff]
  | .u32 | .i32 | .u64 | .i64 | .bool | .opaqueData | .string => iff_of_true rfl trivial

/-- The code of the fields compiles when their types do. -/
theorem Fields.compiles_iff : (fields : Fields) → (fields.compiles = true ↔ fields.Plain)
  | .nil => iff_of_true rfl trivial
  | .cons _ ty rest => by
      rw [Fields.compiles, Fields.Plain, Bool.and_eq_true, ty.compiles_iff, rest.compiles_iff]

/-- The code of the variants compiles when each of their arms does. -/
theorem Variants.compiles_iff : (variants : Variants) →
    (variants.compiles = true ↔ variants.Plain)
  | .nil => iff_of_true rfl trivial
  | .cons _ fields rest => by
      rw [Variants.compiles, Variants.Plain, Bool.and_eq_true, Bool.and_eq_true,
        fields.armCompiles_iff, fields.compiles_iff, rest.compiles_iff, and_assoc]

end

/-- A codec of a description that has one. -/
theorem Ty.derive_eq_some {ty : Ty} {codec : Codec ty.Val} (h : ty.derive = some codec) :
    ty.compiles = true ∧ codec = ⟨ty.encode, ty.decode⟩ := by
  rw [Ty.derive] at h
  split at h
  · exact ⟨‹_›, (Option.some.inj h).symm⟩
  · cases h

/-! ### All derived types -/

/-- The macros keep what they promise for a described type. It has a codec. A well-formed value
has an encoding of whole words, which decodes to it in front of anything. And in an enum, a word
that is the discriminant of no variant is an error that names it. -/
def Ty.Inverse (ty : Ty) : Prop :=
  ∃ codec, ty.derive = some codec ∧
    (∀ v, ty.WellFormed v → ∃ p, codec.encode v = .ok p ∧ 4 ∣ p.length ∧
      ∀ rest, codec.decode.run (p ++ rest) = .ok (v, rest)) ∧
    ∀ name variants, ty = .enum name variants → ∀ word rest, word ∉ variants.discriminants →
      codec.decode.run (beBytes 4 word.toNat ++ rest) = .err (.invalidEnum word name)

/-- A discriminant that no variant has is an error with that word. -/
theorem run_decode_unknown (name : String) {variants : Variants} {word : UInt32}
    (hword : word ∉ variants.discriminants) (rest : Bytes) :
    (Ty.enum name variants).decode.run (beBytes 4 word.toNat ++ rest)
      = .err (.invalidEnum word name) := by
  obtain ⟨p, hp, hd⟩ := (XdrCodec.isCodec (α := UInt32)).yields word trivial
  obtain rfl := Except.ok.inj hp
  exact (Decoder.run_bind_ok (hd rest)).trans (variants.run_decode_of_not_mem hword rest)

/-- A struct of a number and of two enums. In the first one an attribute goes before the explicit
discriminant, and the second one has variants of all three kinds. -/
def sampleTy : Ty :=
  .struct "Sample" <|
    .cons (.named "buf") .u32 <|
    .cons (.named "kind")
      (.enum "Kind" <|
        .cons ⟨"First", ⟨[⟨"xdr", .list (some ("discriminant", .intLit 7))⟩], some (.intLit 1)⟩,
          rfl⟩ .nil <|
        .cons ⟨"Second", ⟨[], some (.intLit 2)⟩, rfl⟩ .nil .nil) <|
    .cons (.named "body")
      (.enum "Body" <|
        .cons ⟨"Empty", ⟨[⟨"xdr", .list (some ("discriminant", .intLit 0))⟩], none⟩, rfl⟩ .nil <|
        .cons ⟨"Data", ⟨[⟨"doc", .nameValue .other⟩,
            ⟨"xdr", .list (some ("discriminant", .intLit 1))⟩], none⟩, rfl⟩
          (.cons (.index 0) .opaqueData <| .cons (.index 1) (.vec .i32) .nil) <|
        .cons ⟨"Range", ⟨[⟨"xdr", .list (some ("discriminant", .intLit 2))⟩], none⟩, rfl⟩
          (.cons (.named "offset") .u64 <| .cons (.named "length") .u32 .nil) .nil)
      .nil

/-- A struct variant with a field that is called like the buffer. -/
def bufferTy : Ty :=
  .enum "Message" <|
    .cons ⟨"Data", ⟨[⟨"xdr", .list (some ("discriminant", .intLit 1))⟩], none⟩, rfl⟩
      (.cons (.named "buf") .u32 .nil) .nil

end NfsMount.XdrDerive
