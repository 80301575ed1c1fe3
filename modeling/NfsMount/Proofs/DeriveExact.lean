import NfsMount.Proofs.XdrDerive

/-!
# `NfsMount.Proofs.DeriveExact`: what a derived decoder can return

The macros accept an enum in which two variants have the same discriminant. The first one then
takes the arm of `match discriminant`, and the other is shadowed: its values are written, and are
read as something else or not at all.

`derive_exact` says so for every description that has a codec, however its discriminants clash
and however deep in it the enum is. A value comes back exactly when no variant in it is shadowed,
and no bytes at all decode to one of the others. The proof is the one of `derive_inverse_iff` with
the values that are not shadowed in place of the description that is `Distinct`.
-/

set_option autoImplicit false

namespace NfsMount.XdrDerive

open NfsMount.Lib NfsMount.XdrCodec

mutual

/-- The variants in the value are the first ones with their discriminants. -/
def Ty.Unshadowed : (ty : Ty) → ty.Val → Prop
  | .vec elem, (v : List elem.Val) => ∀ a ∈ v, elem.Unshadowed a
  | .option elem, (v : Option elem.Val) => ∀ a ∈ v, elem.Unshadowed a
  | .struct _ fields, v => fields.Unshadowed v
  | .enum _ variants, v => variants.Unshadowed v
  | .u32, _ | .i32, _ | .u64, _ | .i64, _ | .bool, _ | .opaqueData, _ | .string, _ => True

/-- No variant is shadowed in any field. -/
def Fields.Unshadowed : (fields : Fields) → fields.Val → Prop
  | .nil, _ => True
  | .cons _ ty rest, (v, vs) => ty.Unshadowed v ∧ rest.Unshadowed vs

/-- The variant of the value has the first arm with its discriminant. -/
def Variants.Unshadowed : (variants : Variants) → variants.Val → Prop
  | .nil, _ => False
  | .cons _ fields _, .inl v => fields.Unshadowed v
  | .cons variant _ rest, .inr v => rest.discOf v ≠ variant.disc ∧ rest.Unshadowed v

end

/-! ### The values that come back -/

mutual

/-- The values that come back have a codec. The induction is on the description. -/
theorem Ty.isCodec_comesBack : (ty : Ty) →
    IsCodec (fun v => ty.WellFormed v ∧ ty.Unshadowed v) ty.encode ty.decode
  | .u32 => (XdrCodec.isCodec (α := UInt32)).congr (fun _ => and_self_iff) fun _ _ => rfl
  | .i32 => (XdrCodec.isCodec (α := Int32)).congr (fun _ => and_self_iff) fun _ _ => rfl
  | .u64 => (XdrCodec.isCodec (α := UInt64)).congr (fun _ => and_self_iff) fun _ _ => rfl
  | .i64 => (XdrCodec.isCodec (α := Int64)).congr (fun _ => and_self_iff) fun _ _ => rfl
  | .bool => (XdrCodec.isCodec (α := Bool)).congr (fun _ => and_self_iff) fun _ _ => rfl
  | .opaqueData =>
      (XdrCodec.isCodec (α := Opaque)).congr (fun _ => and_iff_left trivial) fun _ _ => rfl
  | .string =>
      (XdrCodec.isCodec (α := String)).congr (fun _ => and_iff_left trivial) fun _ _ => rfl
  | .vec elem =>
      letI : XdrEncode elem.Val := ⟨elem.encode⟩
      letI : XdrDecode elem.Val := ⟨elem.decode⟩
      letI : XdrWf elem.Val := ⟨fun v => elem.WellFormed v ∧ elem.Unshadowed v⟩
      haveI : LawfulXdr elem.Val := ⟨elem.isCodec_comesBack⟩
      (XdrCodec.isCodec (α := List elem.Val)).congr
        (fun v => by
          show (v.length < 2 ^ 32 ∧ ∀ a ∈ v, elem.WellFormed a) ∧ (∀ a ∈ v, elem.Unshadowed a) ↔
            v.length < 2 ^ 32 ∧ ∀ a ∈ v, elem.WellFormed a ∧ elem.Unshadowed a
          rw [and_assoc, forall₂_and])
        fun _ _ => rfl
  | .option elem =>
      letI : XdrEncode elem.Val := ⟨elem.encode⟩
      letI : XdrDecode elem.Val := ⟨elem.decode⟩
      letI : XdrWf elem.Val := ⟨fun v => elem.WellFormed v ∧ elem.Unshadowed v⟩
      haveI : LawfulXdr elem.Val := ⟨elem.isCodec_comesBack⟩
      (XdrCodec.isCodec (α := Option elem.Val)).congr (fun v => forall₂_and.symm) fun _ _ => rfl
  | .struct _ fields => fields.isCodec_comesBack
  | .enum name variants => by
      -- The discriminant decides the variant, as `match` does in the generated decode.
      have hunion : IsCodec
          (fun v : variants.Val => True ∧ variants.WellFormed v ∧ variants.Unshadowed v)
          (fun v => Encoded.seq [encode (variants.discOf v), variants.encodeRest v])
          (Ty.enum name variants).decode :=
        (XdrCodec.isCodec (α := UInt32)).bind fun word _ =>
          variants.isCodec_comesBack name word
      exact hunion.congr (fun _ => (iff_of_eq (true_and _)).symm)
        fun v _ => variants.encode_eq v

/-- The values of the fields that come back. -/
theorem Fields.isCodec_comesBack : (fields : Fields) →
    IsCodec (fun v => fields.WellFormed v ∧ fields.Unshadowed v)
      (fun v => Encoded.seq (fields.encodeStructFields v)) fields.decodeStructFields
  | .nil => IsCodec.pure () fun _ => iff_of_true ⟨trivial, trivial⟩ rfl
  | .cons _ ty rest => by
      have hpair : IsCodec
          (fun v : ty.Val × rest.Val => (ty.WellFormed v.1 ∧ ty.Unshadowed v.1) ∧
            rest.WellFormed v.2 ∧ rest.Unshadowed v.2)
          (fun v => Encoded.seq [ty.encode v.1, Encoded.seq (rest.encodeStructFields v.2)])
          (do
            let v ← ty.decode
            let vs ← rest.decodeStructFields
            pure (v, vs)) :=
        IsCodec.record <|
          IsCodec.field Prod.fst ty.isCodec_comesBack fun v =>
          IsCodec.last Prod.snd rest.isCodec_comesBack fun w vs => by cases w; simp
      exact hpair.congr (fun _ => and_and_and_comm) fun v _ => (Encoded.seq_pair_seq _ _).symm

/-- What follows the discriminant `word`, for the values of the first variant that has it. -/
theorem Variants.isCodec_comesBack (name : String) (word : UInt32) : (variants : Variants) →
    IsCodec (fun v => variants.discOf v = word ∧ variants.WellFormed v ∧ variants.Unshadowed v)
      variants.encodeRest (variants.decodeEnumVariants name word)
  | .nil => IsCodec.fail _ fun v => v.elim
  | .cons variant fields rest => by
      rw [Variants.decodeEnumVariants]
      by_cases hword : word = variant.disc
      · -- The arm of this variant. A later one with the same discriminant is shadowed.
        rw [if_pos hword]
        refine fields.isCodec_comesBack.map Sum.inl (fun v => ?_) fun _ _ => rfl
        constructor
        · rintro ⟨hdisc, hv⟩
          cases v with
          | inl v => exact ⟨v, hv, rfl⟩
          | inr v => exact absurd (hdisc.trans hword) hv.2.1
        · rintro ⟨v, hv, rfl⟩
          exact ⟨hword.symm, hv⟩
      · rw [if_neg hword]
        refine (rest.isCodec_comesBack name word).map Sum.inr (fun v => ?_) fun _ _ => rfl
        constructor
        · rintro ⟨hdisc, hv⟩
          cases v with
          | inl v => exact absurd hdisc.symm hword
          | inr v => exact ⟨v, ⟨hdisc, hv.1, hv.2.2⟩, rfl⟩
        · rintro ⟨v, ⟨hdisc, hwf, hv⟩, rfl⟩
          exact ⟨hdisc, hwf, fun h => hword (hdisc.symm.trans h), hv⟩

end

mutual

/-- With distinct discriminants nothing is shadowed. -/
theorem Ty.unshadowed_of_distinct : (ty : Ty) → ty.Distinct → (v : ty.Val) → ty.Unshadowed v
  | .vec elem, h, (_ : List elem.Val) => fun a _ => elem.unshadowed_of_distinct h a
  | .option elem, h, (_ : Option elem.Val) => fun a _ => elem.unshadowed_of_distinct h a
  | .struct _ fields, h, v => fields.unshadowed_of_distinct h v
  | .enum _ variants, h, v => variants.unshadowed_of_distinct h.1 h.2 v
  | .u32, _, _ | .i32, _, _ | .u64, _, _ | .i64, _, _ | .bool, _, _ | .opaqueData, _, _
  | .string, _, _ => trivial

/-- Nothing is shadowed in the fields. -/
theorem Fields.unshadowed_of_distinct : (fields : Fields) → fields.Distinct →
    (v : fields.Val) → fields.Unshadowed v
  | .nil, _, _ => trivial
  | .cons _ ty rest, h, (v, vs) =>
      ⟨ty.unshadowed_of_distinct h.1 v, rest.unshadowed_of_distinct h.2 vs⟩

/-- A discriminant that is distinct has one arm. -/
theorem Variants.unshadowed_of_distinct : (variants : Variants) →
    variants.discriminants.Nodup → variants.Distinct → (v : variants.Val) →
    variants.Unshadowed v
  | .nil, _, _, v => v.elim
  | .cons _ fields _, _, h, .inl v => fields.unshadowed_of_distinct h.1 v
  | .cons variant _ rest, hnodup, h, .inr v => by
      obtain ⟨hnotMem, hnodup⟩ := List.nodup_cons.mp hnodup
      refine ⟨fun heq => hnotMem ?_, rest.unshadowed_of_distinct hnodup h.2 v⟩
      rw [← heq]
      exact rest.discOf_mem v

end

/-- **What comes back.** Take any value of any described type that has a codec. Its encoding
decodes to it in front of anything exactly when its strings, opaques and vectors have fewer than
`2 ^ 32` elements and no variant in it is shadowed. If not, nothing decodes to it. With distinct
discriminants no variant is shadowed. -/
theorem derive_exact (ty : Ty) (codec : Codec ty.Val) (h : ty.derive = some codec) (v : ty.Val) :
    ((∃ p, codec.encode v = .ok p ∧ ∀ rest, codec.decode.run (p ++ rest) = .ok (v, rest)) ↔
      ty.WellFormed v ∧ ty.Unshadowed v) ∧
    ((∃ b rest, codec.decode.run b = .ok (v, rest)) ↔ ty.WellFormed v ∧ ty.Unshadowed v) ∧
    (ty.Distinct → ty.Unshadowed v) := by
  obtain ⟨-, rfl⟩ := Ty.derive_eq_some h
  have hdecoded : ∀ b rest, ty.decode.run b = .ok (v, rest) →
      ty.WellFormed v ∧ ty.Unshadowed v := by
    intro b rest h
    obtain ⟨-, -, hv, -⟩ := ty.isCodec_comesBack.exact h
    exact hv
  refine ⟨⟨?_, ty.isCodec_comesBack.yields v⟩, ⟨?_, ?_⟩, fun h => ty.unshadowed_of_distinct h v⟩
  · rintro ⟨p, -, hd⟩
    exact hdecoded _ _ (hd [])
  · rintro ⟨b, rest, h⟩
    exact hdecoded b rest h
  · intro hv
    obtain ⟨p, -, hd⟩ := ty.isCodec_comesBack.yields v hv
    exact ⟨p ++ [], [], hd []⟩

/-- Two variants with discriminant 3. The second one is shadowed. -/
def clashingTy : Ty :=
  .enum "Clash" <|
    .cons ⟨"Empty", ⟨[⟨"xdr", .list (some ("discriminant", .intLit 3))⟩], none⟩, rfl⟩ .nil <|
    .cons ⟨"Number", ⟨[⟨"xdr", .list (some ("discriminant", .intLit 3))⟩], none⟩, rfl⟩
      (.cons (.index 0) .u32 .nil) .nil

/-- The value of the second variant is never decoded. -/
theorem derive_exact_clashing :
    ¬ ∃ b rest, clashingTy.decode.run b = .ok (.inr (.inl ((5 : UInt32), ())), rest) := by
  intro hdecoded
  have h := (derive_exact clashingTy ⟨clashingTy.encode, clashingTy.decode⟩ rfl
    (.inr (.inl ((5 : UInt32), ())))).2.1.mp hdecoded
  exact h.2.1 rfl

/-- Its values are read as the first variant, and the number stays behind. -/
example : clashingTy.encode (.inr (.inl ((5 : UInt32), ()))) = .ok [0, 0, 0, 3, 0, 0, 0, 5] ∧
    clashingTy.decode.run [0, 0, 0, 3, 0, 0, 0, 5] = .ok (.inl (), [0, 0, 0, 5]) :=
  ⟨rfl, rfl⟩

end NfsMount.XdrDerive
