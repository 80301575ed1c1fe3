import NfsMount.Lib.Aligned
import NfsMount.XdrCodec.Variable

/-!
# `NfsMount.Proofs.XdrCodec`: the XDR primitives are codecs

`XdrWf` says which values of a type have an encoding, and `LawfulXdr` says that the type's
encoder and decoder are a codec of these values (`IsCodec`). This module has the instances
of the primitive types, of opaque data and strings, and of arrays of any lawful type.

Fixed-width numbers have no ill-formed values. Opaque data, strings and arrays must have
fewer than `2 ^ 32` elements, which is what the length word can hold.
-/

set_option autoImplicit false

namespace NfsMount.XdrCodec

open NfsMount.Lib

/-- The values of a type that have an encoding. -/
class XdrWf (α : Type) where
  wellFormed : α → Prop

export XdrWf (wellFormed)

/-- The encoder and the decoder of a type are inverse on its well-formed values. -/
class LawfulXdr (α : Type) [XdrEncode α] [XdrDecode α] [XdrWf α] : Prop where
  isCodec : IsCodec (wellFormed (α := α)) encode decode

export LawfulXdr (isCodec)

/-! ### Fixed-width numbers -/

/-- A fixed number of bytes is taken as it is. -/
theorem takes_readFixed (n : Nat) : Decoder.Takes (readFixed n) n id where
  long p r hp := by
    have hge : ¬ (p ++ r).length < n := by rw [List.length_append]; omega
    have hle : n ≤ (p ++ r).length := Nat.not_lt.mp hge
    rw [readFixed, Decoder.run_bind_ok (Decoder.run_remaining _), if_neg hge,
      Decoder.run_splitTo_of_le hle, ← hp, List.take_left, List.drop_left, id_eq]
  short b hb := by
    rw [readFixed, Decoder.run_bind_ok (Decoder.run_remaining _), if_pos hb]
    exact ⟨_, rfl⟩

/-- `n` raw bytes. -/
theorem isCodec_readFixed (n : Nat) :
    IsCodec (fun bs : Bytes => bs.length = n) (fun bs => .ok bs) (readFixed n) :=
  IsCodec.fixed (takes_readFixed n) (fun p hp => ⟨hp, p, rfl, hp⟩)
    fun v hv => ⟨v, hv, rfl, rfl⟩

/-- A number of `w` bytes, `toNat` giving the number of a value and `ofNat` the value of a
number. -/
theorem isCodec_word {α : Type} {w : Nat} (toNat : α → Nat) (ofNat : Nat → α)
    (hlt : ∀ x, toNat x < 256 ^ w) (hof : ∀ x, ofNat (toNat x) = x)
    (hto : ∀ n, n < 256 ^ w → toNat (ofNat n) = n) :
    IsCodec (fun _ : α => True) (fun x => .ok (beBytes w (toNat x)))
      ((fun bs => ofNat (ofBE bs)) <$> readFixed w) := by
  refine (isCodec_readFixed w).map _ (fun x => iff_of_true trivial ?_) fun bs hbs => ?_
  · exact ⟨beBytes w (toNat x), length_beBytes _ _, by rw [ofBE_beBytes (hlt x), hof]⟩
  · subst hbs
    rw [hto _ (ofBE_lt bs), beBytes_ofBE]

instance : XdrWf UInt32 where
  wellFormed _ := True

instance : LawfulXdr UInt32 where
  isCodec := isCodec_word UInt32.toNat UInt32.ofNat (fun x => x.toNat_lt)
    (fun _ => UInt32.ofNat_toNat) fun _ h => UInt32.toNat_ofNat_of_lt' h

instance : XdrWf UInt64 where
  wellFormed _ := True

instance : LawfulXdr UInt64 where
  isCodec := isCodec_word UInt64.toNat UInt64.ofNat (fun x => x.toNat_lt)
    (fun _ => UInt64.ofNat_toNat) fun _ h => UInt64.toNat_ofNat_of_lt' h

instance : XdrWf Int64 where
  wellFormed _ := True

instance : LawfulXdr Int64 where
  isCodec := isCodec_word (fun x => x.toUInt64.toNat) (fun n => (UInt64.ofNat n).toInt64)
    (fun x => x.toUInt64.toNat_lt) (fun x => by rw [UInt64.ofNat_toNat, Int64.toInt64_toUInt64])
    fun _ h => by rw [UInt64.toUInt64_toInt64, UInt64.toNat_ofNat_of_lt' h]

instance : XdrWf Int32 where
  wellFormed _ := True

instance : LawfulXdr Int32 where
  isCodec := isCodec_word (fun x => x.toUInt32.toNat) (fun n => (UInt32.ofNat n).toInt32)
    (fun x => x.toUInt32.toNat_lt) (fun x => by rw [UInt32.ofNat_toNat, Int32.toInt32_toUInt32])
    fun _ h => by rw [UInt32.toUInt32_toInt32, UInt32.toNat_ofNat_of_lt' h]

instance : XdrWf Bool where
  wellFormed _ := True

instance : LawfulXdr Bool where
  isCodec := by
    -- The word determines the value, and the two arms are the two words that are accepted.
    have htag : IsCodec (fun b : Bool => True ∧ True)
        (fun b => encode (if b then 1 else 0 : UInt32)) (decode : Decoder UInt8 XdrError Bool) := by
      refine (isCodec (α := UInt32)).tagged fun val _ => ?_
      by_cases h0 : val = 0
      · rw [if_pos h0]
        exact IsCodec.pure false fun b => by subst h0; cases b <;> decide
      · rw [if_neg h0]
        by_cases h1 : val = 1
        · rw [if_pos h1]
          exact IsCodec.pure true fun b => by subst h1; cases b <;> decide
        · rw [if_neg h1]
          refine IsCodec.fail _ fun b => ?_
          cases b with
          | false => exact fun h => h0 h.1.symm
          | true => exact fun h => h1 h.1.symm
    exact htag.congr (fun _ => (and_self_iff).symm) fun _ _ => rfl

/-! ### Opaque data, strings and arrays -/

/-- The length word of a value with fewer than `2 ^ 32` elements. -/
theorem lengthWord_of_lt {len : Nat} (h : len < 2 ^ 32) :
    lengthWord len = .ok (UInt32.ofNat len) := if_pos h

/-- A length in range is the word that it is written as. -/
theorem toNat_ofNat_eq_iff {len : Nat} {word : UInt32} (h : len < 2 ^ 32) :
    UInt32.ofNat len = word ↔ len = word.toNat := by
  constructor
  · rintro rfl
    exact (UInt32.toNat_ofNat_of_lt' h).symm
  · rintro rfl
    exact UInt32.ofNat_toNat

/-- What follows the length word of opaque data: the bytes and the padding. -/
def decodePadded (len : Nat) : Decoder UInt8 XdrError Bytes := do
  let available ← Decoder.remaining
  if available < len + xdrPadding len then
    Decoder.fail (.bufferTooShort (len + xdrPadding len) available)
  else
    let data ← Decoder.splitTo len
    if 0 < xdrPadding len then
      Decoder.advance (xdrPadding len)
    pure data

/-- Padded data takes its padding too. -/
theorem takes_decodePadded (len : Nat) :
    Decoder.Takes (decodePadded len) (len + xdrPadding len) (List.take len) where
  long p r hp := by
    have hge : ¬ (p ++ r).length < len + xdrPadding len := by
      rw [List.length_append]
      omega
    have hle : len ≤ (p ++ r).length := by omega
    have htake : (p ++ r).take len = p.take len := List.take_append_of_le_length (by omega)
    have hrest : ((p ++ r).drop len).drop (xdrPadding len) = r := by
      rw [List.drop_drop, ← hp, List.drop_left]
    rw [decodePadded, Decoder.run_bind_ok (Decoder.run_remaining _), if_neg hge,
      Decoder.run_bind_ok (Decoder.run_splitTo_of_le hle), htake]
    -- The padding is skipped only when there is some. Both ways end behind it.
    by_cases hpad : 0 < xdrPadding len
    · have hadv : xdrPadding len ≤ ((p ++ r).drop len).length := by
        rw [List.length_drop]
        omega
      rw [if_pos hpad, Decoder.run_bind_ok (Decoder.run_advance_of_le hadv), Decoder.run_pure,
        hrest]
    · rw [Nat.eq_zero_of_not_pos hpad, List.drop_zero] at hrest
      rw [if_neg hpad, hrest]
      exact Decoder.run_pure _ _
  short b hb := by
    rw [decodePadded, Decoder.run_bind_ok (Decoder.run_remaining _), if_pos hb]
    exact ⟨_, rfl⟩

/-- Data of a known length, with its padding, is a codec. -/
theorem isCodec_decodePadded (len : Nat) :
    IsCodec (fun bs : Bytes => bs.length = len)
      (fun bs => Encoded.seq [.ok bs, .ok (List.replicate (xdrPadding bs.length) 0)])
      (decodePadded len) := by
  refine IsCodec.fixed (takes_decodePadded len) (fun p hp => ?_) fun bs hbs => ?_
  · have hlen : (p.take len).length = len := by rw [List.length_take]; omega
    refine ⟨hlen, p.take len ++ List.replicate (xdrPadding len) 0, ?_, ?_⟩
    · rw [hlen]
      exact Encoded.seq_cons_ok rfl (Encoded.seq_singleton _)
    · rw [List.length_append, hlen, List.length_replicate]
  · subst hbs
    refine ⟨bs ++ List.replicate (xdrPadding bs.length) 0, ?_, ?_, List.take_left⟩
    · rw [List.length_append, List.length_replicate]
    · exact Encoded.seq_cons_ok rfl (Encoded.seq_singleton _)

/-- Opaque data is a length word, and data of that length. -/
theorem decodeOpaqueBytes_eq : decodeOpaqueBytes =
    (decode : Decoder UInt8 XdrError UInt32) >>= fun word => decodePadded word.toNat := rfl

/-- Opaque data is a codec, up to the length that a word can say. -/
theorem isCodec_opaqueBytes :
    IsCodec (fun bs : Bytes => bs.length < 2 ^ 32) encodeOpaqueBytes decodeOpaqueBytes := by
  -- The length word is the tag. It fixes how many bytes follow.
  have hword : IsCodec (fun bs : Bytes => True ∧ bs.length < 2 ^ 32)
      (fun bs => Encoded.seq [encode (UInt32.ofNat bs.length),
        Encoded.seq [.ok bs, .ok (List.replicate (xdrPadding bs.length) 0)]])
      decodeOpaqueBytes := by
    refine (isCodec (α := UInt32)).bind fun word _ => ?_
    refine (isCodec_decodePadded word.toNat).congr (fun bs => ?_) fun _ _ => rfl
    constructor
    · exact fun h => (toNat_ofNat_eq_iff h.2).mp h.1
    · intro h
      have hlt : bs.length < 2 ^ 32 := h ▸ word.toNat_lt
      exact ⟨(toNat_ofNat_eq_iff hlt).mpr h, hlt⟩
  refine hword.congr (fun bs => by rw [true_and]) fun bs hbs => ?_
  rw [encodeOpaqueBytes, lengthWord_of_lt hbs.2, Encoded.seq_pair_seq]

instance : XdrWf Opaque where
  wellFormed o := o.bytes.length < 2 ^ 32

instance : LawfulXdr Opaque where
  isCodec := isCodec_opaqueBytes.wrap Opaque.mk Opaque.bytes (fun _ => rfl) fun _ => rfl

instance : XdrWf String where
  wellFormed s := (stringBytes s).length < 2 ^ 32

/-- `from_utf8` accepts the bytes of strings and nothing else. -/
theorem fromUtf8_eq_ok_iff {raw : Bytes} {s : String} :
    fromUtf8 raw = .ok s ↔ stringBytes s = raw := by
  constructor
  · intro h
    rw [fromUtf8] at h
    split at h
    · obtain rfl := Except.ok.inj h
      rfl
    · simp at h
  · rintro rfl
    have hbytes : ByteArray.mk (stringBytes s).toArray = s.toByteArray := by
      simp only [stringBytes, Array.toArray_toList]
    rw [fromUtf8, dif_pos (hbytes ▸ s.isValidUTF8)]
    congr 1

instance : LawfulXdr String where
  isCodec := by
    have htag : IsCodec (fun s : String => (stringBytes s).length < 2 ^ 32 ∧ True)
        (fun s => encodeOpaqueBytes (stringBytes s))
        (decode : Decoder UInt8 XdrError String) := by
      refine isCodec_opaqueBytes.tagged fun raw _ => ?_
      -- Bytes that are no UTF-8 belong to no string, so the error arm loses no value.
      cases hraw : fromUtf8 raw with
      | ok s =>
          refine IsCodec.pure s fun v => ?_
          rw [and_true, ← fromUtf8_eq_ok_iff, hraw, Except.ok.injEq, eq_comm]
      | error e =>
          refine IsCodec.fail e fun v hv => ?_
          rw [fromUtf8_eq_ok_iff.mpr hv.1] at hraw
          simp at hraw
    exact htag.congr (fun _ => (iff_of_eq (and_true _)).symm) fun _ _ => rfl

instance {α : Type} [XdrWf α] : XdrWf (List α) where
  wellFormed items := items.length < 2 ^ 32 ∧ ∀ a ∈ items, wellFormed a

instance {α : Type} [XdrEncode α] [XdrDecode α] [XdrWf α] [LawfulXdr α] :
    LawfulXdr (List α) where
  isCodec := by
    -- The count word is the tag, as it is for opaque data.
    have hword : IsCodec (fun items : List α => True ∧ wellFormed items)
        (fun items => Encoded.seq [encode (UInt32.ofNat items.length),
          Encoded.seq (items.map encode)])
        (decode : Decoder UInt8 XdrError (List α)) := by
      refine (isCodec (α := UInt32)).bind fun word _ => ?_
      refine ((isCodec (α := α)).times word.toNat).congr (fun items => ?_) fun _ _ => rfl
      constructor
      · exact fun ⟨hlen, hlt, hall⟩ => ⟨(toNat_ofNat_eq_iff hlt).mp hlen, hall⟩
      · rintro ⟨hlen, hall⟩
        have hlt : items.length < 2 ^ 32 := hlen ▸ word.toNat_lt
        exact ⟨(toNat_ofNat_eq_iff hlt).mpr hlen, hlt, hall⟩
    refine hword.congr (fun items => by rw [true_and]) fun items hitems => ?_
    rw [Encoded.seq_pair_seq]
    simp only [encode, lengthWord_of_lt hitems.2.1]

instance {α : Type} [XdrWf α] : XdrWf (Option α) where
  wellFormed o := ∀ val ∈ o, wellFormed val

/-- The word in front of optional data. -/
def optionDisc {α : Type} (o : Option α) : UInt32 := if o.isSome then 1 else 0

/-- What follows that word. -/
def encodeVal {α : Type} [XdrEncode α] : Option α → Encoded UInt8 XdrError
  | some val => encode val
  | none => .ok []

/-- An option is written as its discriminant and what it holds. -/
theorem option_encode_eq {α : Type} [XdrEncode α] (o : Option α) :
    encode o = Encoded.seq [encode (optionDisc o), encodeVal o] := by
  cases o with
  | some val => rfl
  | none => rfl

instance {α : Type} [XdrEncode α] [XdrDecode α] [XdrWf α] [LawfulXdr α] :
    LawfulXdr (Option α) where
  isCodec := by
    have hunion : IsCodec (fun o : Option α => True ∧ wellFormed o)
        (fun o => Encoded.seq [encode (optionDisc o), encodeVal o])
        (decode : Decoder UInt8 XdrError (Option α)) := by
      refine (isCodec (α := UInt32)).bind fun disc _ => ?_
      refine IsCodec.unitArm (none : Option α) ⟨rfl, by simp [wellFormed], rfl⟩ (fun o ho => ?_)
        fun h0 => isCodec.arm some (fun val => ⟨rfl, by simp [wellFormed], rfl⟩) (fun o ho => ?_)
        fun h1 => IsCodec.fail _ fun o ho => ?_
      · cases o with
        | some val => simp [optionDisc] at ho
        | none => rfl
      · cases o with
        | some val => exact ⟨val, rfl⟩
        | none => simp [optionDisc] at ho
      · cases o with
        | some val => exact h1 ho.1.symm
        | none => exact h0 ho.1.symm
    exact hunion.congr (fun _ => (iff_of_eq (true_and _)).symm) fun o _ => option_encode_eq o

/-! ### Where a decoder stops

The length words of the input say how much of it a decoder takes. -/

/-- A word takes 4 bytes, with the first byte on top. -/
theorem takes_word :
    Decoder.Takes (decode : Decoder UInt8 XdrError UInt32) 4 fun p => UInt32.ofNat (ofBE p) :=
  (takes_readFixed 4).map _

/-- A word is the number at the front of the buffer. -/
theorem run_decodeWord_eq_ok {b r : Bytes} {w : UInt32} :
    (decode : Decoder UInt8 XdrError UInt32).run b = .ok (w, r) ↔
      4 ≤ b.length ∧ w = UInt32.ofNat (wordAt b 0) ∧ r = b.drop 4 :=
  takes_word.run_eq_ok

/-- A word, and then what `f` makes of it. -/
theorem endsAt_word_bind {α : Type} {f : UInt32 → Decoder UInt8 XdrError α} {b r : Bytes} :
    Decoder.EndsAt (decode >>= f) b r ↔
      4 ≤ b.length ∧ Decoder.EndsAt (f (UInt32.ofNat (wordAt b 0))) (b.drop 4) r := by
  rw [Decoder.endsAt_bind]
  constructor
  · rintro ⟨w, s, hw, hr⟩
    obtain ⟨hlen, rfl, rfl⟩ := run_decodeWord_eq_ok.mp hw
    exact ⟨hlen, hr⟩
  · exact fun ⟨hlen, hr⟩ => ⟨_, _, run_decodeWord_eq_ok.mpr ⟨hlen, rfl, rfl⟩, hr⟩

/-- Reading a word does not panic, so a panic is in what follows it. -/
theorem run_word_bind_eq_panic {α : Type} {f : UInt32 → Decoder UInt8 XdrError α} {b : Bytes} :
    (decode >>= f).run b = .panic ↔
      4 ≤ b.length ∧ (f (UInt32.ofNat (wordAt b 0))).run (b.drop 4) = .panic := by
  rw [Decoder.run_bind_eq_panic]
  constructor
  · rintro (h | ⟨w, s, hw, hs⟩)
    · exact absurd h (isCodec.noPanic b)
    · obtain ⟨hlen, rfl, rfl⟩ := run_decodeWord_eq_ok.mp hw
      exact ⟨hlen, hs⟩
  · exact fun ⟨hlen, hs⟩ => .inr ⟨_, _, run_decodeWord_eq_ok.mpr ⟨hlen, rfl, rfl⟩, hs⟩

/-- A word of a buffer fits in a word. -/
theorem toNat_wordAt (b : Bytes) (i : Nat) : (UInt32.ofNat (wordAt b i)).toNat = wordAt b i :=
  UInt32.toNat_ofNat_of_lt' (wordAt_lt b i)

/-- The bytes opaque data takes: the length word, the bytes and the padding. -/
def opaqueSpan (b : Bytes) : Nat := 4 + wordAt b 0 + xdrPadding (wordAt b 0)

/-- Opaque data is read when the buffer holds it with its padding. -/
theorem run_decodeOpaqueBytes_eq_ok {b r data : Bytes} :
    decodeOpaqueBytes.run b = .ok (data, r) ↔
      opaqueSpan b ≤ b.length ∧ data = (b.drop 4).take (wordAt b 0) ∧
        r = b.drop (opaqueSpan b) := by
  rw [decodeOpaqueBytes_eq, Decoder.run_bind_eq_ok, opaqueSpan]
  constructor
  · rintro ⟨w, s, hw, hs⟩
    obtain ⟨hlen, rfl, rfl⟩ := run_decodeWord_eq_ok.mp hw
    rw [(takes_decodePadded _).run_eq_ok, toNat_wordAt, List.length_drop, List.take_take,
      List.drop_drop] at hs
    obtain ⟨hle, rfl, rfl⟩ := hs
    rw [Nat.min_eq_left (Nat.le_add_right _ _), ← Nat.add_assoc]
    exact ⟨by omega, rfl, rfl⟩
  · rintro ⟨hle, rfl, rfl⟩
    refine ⟨_, _, run_decodeWord_eq_ok.mpr ⟨by omega, rfl, rfl⟩, ?_⟩
    rw [(takes_decodePadded _).run_eq_ok, toNat_wordAt, List.length_drop, List.take_take,
      List.drop_drop, Nat.min_eq_left (Nat.le_add_right _ _), ← Nat.add_assoc]
    exact ⟨by omega, rfl, rfl⟩

/-- A string is read when, besides, its bytes are text. -/
theorem endsAt_string {b r : Bytes} :
    Decoder.EndsAt (decode : Decoder UInt8 XdrError String) b r ↔
      opaqueSpan b ≤ b.length ∧ r = b.drop (opaqueSpan b) ∧
        ∃ s, stringBytes s = (b.drop 4).take (wordAt b 0) := by
  show Decoder.EndsAt (decodeOpaqueBytes >>= _) b r ↔ _
  rw [Decoder.endsAt_bind]
  constructor
  · rintro ⟨raw, t, hraw, hs⟩
    obtain ⟨hle, rfl, rfl⟩ := run_decodeOpaqueBytes_eq_ok.mp hraw
    cases hutf : fromUtf8 ((b.drop 4).take (wordAt b 0)) with
    | error e =>
        simp only [hutf] at hs
        obtain ⟨v, hv⟩ := hs
        cases hv
    | ok s =>
        simp only [hutf] at hs
        exact ⟨hle, Decoder.endsAt_pure.mp hs, s, fromUtf8_eq_ok_iff.mp hutf⟩
  · rintro ⟨hle, rfl, s, hs⟩
    refine ⟨_, _, run_decodeOpaqueBytes_eq_ok.mpr ⟨hle, rfl, rfl⟩, ?_⟩
    simp only [fromUtf8_eq_ok_iff.mpr hs]
    exact Decoder.endsAt_pure.mpr rfl

/-- `n` words end behind `4 * n` bytes. -/
theorem endsAt_times_word (n : Nat) {b r : Bytes} :
    Decoder.EndsAt (Decoder.times n (decode : Decoder UInt8 XdrError UInt32)) b r ↔
      4 * n ≤ b.length ∧ r = b.drop (4 * n) := by
  induction n generalizing b r with
  | zero => simp [Decoder.times, Decoder.endsAt_pure]
  | succ n ih =>
      have hrest : ∀ (a : UInt32) (s : Bytes),
          Decoder.EndsAt (do
            let as ← Decoder.times n (decode : Decoder UInt8 XdrError UInt32)
            pure (a :: as)) s r ↔ 4 * n ≤ s.length ∧ r = s.drop (4 * n) := by
        intro a s
        rw [bind_pure_comp, Decoder.endsAt_map, ih]
      rw [Decoder.times, endsAt_word_bind, hrest, List.length_drop, List.drop_drop,
        Nat.mul_succ, Nat.add_comm (4 * n)]
      constructor
      · rintro ⟨h4, hlen, hr⟩
        exact ⟨by omega, hr⟩
      · rintro ⟨hlen, hr⟩
        exact ⟨by omega, by omega, hr⟩

/-- An array of words ends behind its count and as many words. -/
theorem endsAt_words {b r : Bytes} :
    Decoder.EndsAt (decode : Decoder UInt8 XdrError (List UInt32)) b r ↔
      4 + 4 * wordAt b 0 ≤ b.length ∧ r = b.drop (4 + 4 * wordAt b 0) := by
  show Decoder.EndsAt (decode >>= _) b r ↔ _
  rw [endsAt_word_bind, toNat_wordAt, endsAt_times_word, List.length_drop, List.drop_drop]
  constructor
  · rintro ⟨h4, hlen, hr⟩
    exact ⟨by omega, hr⟩
  · rintro ⟨hlen, hr⟩
    exact ⟨by omega, by omega, hr⟩

/-! ### Whole words

What encodes is well formed, and its encoding fills whole words. -/

/-- Only the well-formed values of a type encode, and to a multiple of 4 bytes. -/
class AlignedXdr (α : Type) [XdrEncode α] [XdrWf α] : Prop where
  aligned : ∀ v : α, Encoded.Aligned 4 (wellFormed v) (encode v)

export AlignedXdr (aligned)

/-- A number of whole words is aligned. -/
theorem aligned_beBytes {w : Nat} (hw : 4 ∣ w) (n : Nat) :
    Encoded.Aligned 4 True (.ok (beBytes w n) : Encoded UInt8 XdrError) :=
  Encoded.aligned_ok (by rwa [length_beBytes])

instance : AlignedXdr UInt32 where
  aligned v := aligned_beBytes (by decide) v.toNat

instance : AlignedXdr Int32 where
  aligned v := aligned_beBytes (by decide) v.toUInt32.toNat

instance : AlignedXdr UInt64 where
  aligned v := aligned_beBytes (by decide) v.toNat

instance : AlignedXdr Int64 where
  aligned v := aligned_beBytes (by decide) v.toUInt64.toNat

instance : AlignedXdr Bool where
  aligned b := aligned (if b then 1 else 0 : UInt32)

/-- The padding completes the last word. -/
theorem dvd_add_xdrPadding (len : Nat) : 4 ∣ len + xdrPadding len := by
  rw [xdrPadding]
  omega

/-- Opaque data is aligned by its padding. -/
theorem aligned_opaqueBytes (data : Bytes) :
    Encoded.Aligned 4 (data.length < 2 ^ 32) (encodeOpaqueBytes data) := by
  by_cases hlt : data.length < 2 ^ 32
  · -- The bytes and the padding fill whole words together, not each for itself.
    have hbody : Encoded.Aligned 4 True (Encoded.seq
        [.ok data, .ok (List.replicate (xdrPadding data.length) 0)] :
          Encoded UInt8 XdrError) := by
      rw [Encoded.seq_cons_ok rfl (Encoded.seq_singleton _)]
      refine Encoded.aligned_ok ?_
      rw [List.length_append, List.length_replicate]
      exact dvd_add_xdrPadding data.length
    rw [encodeOpaqueBytes, lengthWord_of_lt hlt]
    exact ((aligned (UInt32.ofNat data.length)).tag hbody).imp fun _ => hlt
  · rw [encodeOpaqueBytes, lengthWord, if_neg hlt]
    exact Encoded.aligned_error

instance : AlignedXdr Opaque where
  aligned o := aligned_opaqueBytes o.bytes

instance : AlignedXdr String where
  aligned s := aligned_opaqueBytes (stringBytes s)

instance {α : Type} [XdrEncode α] [XdrWf α] [AlignedXdr α] : AlignedXdr (List α) where
  aligned items := by
    by_cases hlt : items.length < 2 ^ 32
    · have hitems : Encoded.Aligned 4 (∀ a ∈ items, wellFormed a)
          (Encoded.seq (items.map encode)) := Encoded.Aligned.all aligned
      simp only [encode, lengthWord_of_lt hlt]
      exact ((aligned (UInt32.ofNat items.length)).tag hitems).imp fun h => ⟨hlt, h⟩
    · simp only [encode, lengthWord, if_neg hlt]
      exact Encoded.aligned_error

instance {α : Type} [XdrEncode α] [XdrWf α] [AlignedXdr α] : AlignedXdr (Option α) where
  aligned
    | some val =>
        ((aligned (1 : UInt32)).tag (aligned val).last).imp fun h => by simpa [wellFormed] using h
    | none => (aligned (0 : UInt32)).imp fun _ => by simp [wellFormed]

end NfsMount.XdrCodec
