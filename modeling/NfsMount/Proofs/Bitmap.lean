import Mathlib.Data.List.GetD
import Mathlib.Data.Nat.Bitwise
import NfsMount.Lib.FoldSet
import NfsMount.Nfs4Types.Bitmap
import NfsMount.Proofs.Request

/-!
# `NfsMount.Proofs.Bitmap`: a bitmap is a set of attribute numbers

A bitmap is read through `word b i`, its word `i`, which is zero behind the end. Setting a bit
sets it in its word and leaves the other words alone (`word_set`), and makes the bitmap as long
as that word needs (`length_set`). Words and length determine the bitmap, so setting bits
commutes and is idempotent, as both are true of `|||` and of `max`.

Setting a sequence of bits therefore depends only on which bits it has (`NfsMount.Lib.FoldSet`),
and the members of the result are these bits.
-/

set_option autoImplicit false

namespace NfsMount.Nfs4Types.Bitmap4

open NfsMount.Lib NfsMount.XdrCodec

/-! ### Words and bits -/

/-- Word `i`, zero behind the end. -/
def word (b : Bitmap4) (i : Nat) : UInt32 := b.words.getD i 0

/-- What setting `bit` does to word `i`. -/
def mask (bit : UInt32) (i : Nat) : UInt32 :=
  if (bit / 32).toNat = i then 1 <<< (bit % 32) else 0

/-- A bit is set in a bitmap that has its word. -/
theorem length_set (b : Bitmap4) (bit : UInt32) :
    (b.set bit).words.length = max b.words.length ((bit / 32).toNat + 1) := by
  show ((extend (bit / 32).toNat b.words).modify _ _).length = _
  rw [List.length_modify, extend_eq, List.length_append, List.length_replicate]
  omega

/-- The zeros that were pushed are what is read there anyway. -/
theorem getD_extend (w : Nat) (words : List UInt32) (i : Nat) :
    (extend w words).getD i 0 = words.getD i 0 := by
  rw [extend_eq]
  by_cases hi : i < words.length
  · rw [List.getD_append _ _ _ _ hi]
  · have hi := Nat.not_lt.mp hi
    rw [List.getD_append_right _ _ _ _ hi, List.getD_eq_default _ _ hi]
    by_cases hpad : i - words.length < w + 1 - words.length
    · exact List.getD_replicate _ hpad
    · apply List.getD_eq_default
      rw [List.length_replicate]
      exact Nat.not_lt.mp hpad

/-- A bit is set in its word, and in no other. -/
theorem word_set (b : Bitmap4) (bit : UInt32) (i : Nat) :
    (b.set bit).word i = b.word i ||| mask bit i := by
  have hlt := lt_length_extend (bit / 32).toNat b.words
  show ((extend (bit / 32).toNat b.words).modify (bit / 32).toNat
    fun w => w ||| (1 <<< (bit % 32))).getD i 0 = b.words.getD i 0 ||| mask bit i
  rw [← getD_extend (bit / 32).toNat b.words i, mask]
  by_cases hi : (bit / 32).toNat = i
  · subst hi
    rw [if_pos rfl, List.getD_eq_getElem _ _ hlt, List.getD_eq_getElem _ _ (by
      rwa [List.length_modify]), List.getElem_modify_eq]
  · rw [if_neg hi, UInt32.or_zero, List.getD_eq_getElem?_getD, List.getElem?_modify_ne _ _ hi,
      List.getD_eq_getElem?_getD]

/-- A bitmap is its length and its words. -/
theorem ext_word {b c : Bitmap4} (hlen : b.words.length = c.words.length)
    (hword : ∀ i, b.word i = c.word i) : b = c := by
  have hwords : b.words = c.words := by
    apply List.ext_getElem hlen
    intro i hb hc
    have heq := hword i
    rwa [word, word, List.getD_eq_getElem _ _ hb, List.getD_eq_getElem _ _ hc] at heq
  cases b
  exact congrArg Bitmap4.mk hwords

/-- Shifting a bit down and masking it reads it. -/
theorem shiftRight_and_one (w : UInt32) {pos : UInt32} (hpos : pos.toNat < 32) :
    ((w >>> pos) &&& 1 == 1) = w.toNat.testBit pos.toNat := by
  have hbit : ((w >>> pos) &&& 1).toNat = w.toNat / 2 ^ pos.toNat % 2 := by
    rw [UInt32.toNat_and, UInt32.toNat_shiftRight, Nat.mod_eq_of_lt hpos, UInt32.toNat_one,
      Nat.and_one_is_mod, Nat.shiftRight_eq_div_pow]
  rw [Nat.testBit_eq_decide_div_mod_eq, Bool.eq_iff_iff, beq_iff_eq, ← UInt32.toNat_inj, hbit,
    UInt32.toNat_one, decide_eq_true_eq]

/-- The place of a bit in its word. -/
theorem toNat_pos_lt (bit : UInt32) : (bit % 32).toNat < 32 := by
  rw [UInt32.toNat_mod]
  exact Nat.mod_lt _ (by decide)

/-- Reading a bit reads the word at its place. -/
theorem isSet_eq_testBit (b : Bitmap4) (bit : UInt32) :
    b.isSet bit = (b.word (bit / 32).toNat).toNat.testBit (bit % 32).toNat := by
  rw [isSet, word, List.getD_eq_getElem?_getD]
  cases b.words[(bit / 32).toNat]? with
  | none => exact (Nat.zero_testBit _).symm
  | some w => exact shiftRight_and_one w (toNat_pos_lt bit)

/-- A bit number is its word and its position. -/
theorem eq_iff_word_pos {i j : UInt32} :
    j = i ↔ (i / 32).toNat = (j / 32).toNat ∧ (i % 32).toNat = (j % 32).toNat := by
  simp only [← UInt32.toNat_inj, UInt32.toNat_div, UInt32.toNat_mod]
  have h32 : (32 : UInt32).toNat = 32 := rfl
  rw [h32]
  omega

/-- The mask has the one bit that is set. -/
theorem testBit_mask (i j : UInt32) :
    (mask i (j / 32).toNat).toNat.testBit (j % 32).toNat = decide (j = i) := by
  have hpos := toNat_pos_lt i
  have hiff := eq_iff_word_pos (i := i) (j := j)
  rw [mask]
  by_cases hword : (i / 32).toNat = (j / 32).toNat
  · have hpow : ((1 : UInt32) <<< (i % 32)).toNat = 2 ^ (i % 32).toNat := by
      rw [UInt32.toNat_shiftLeft, UInt32.toNat_one, Nat.mod_eq_of_lt hpos, Nat.one_shiftLeft]
      exact Nat.mod_eq_of_lt (Nat.pow_lt_pow_right (by decide) hpos)
    rw [if_pos hword, hpow, Nat.testBit_two_pow]
    simp only [hiff, hword, true_and]
  · rw [if_neg hword, decide_eq_false fun heq => hword (hiff.mp heq).1]
    exact Nat.zero_testBit _

/-! ### Setting one bit -/

/-- A bit is set, and the others are as they were. -/
theorem isSet_set_iff (b : Bitmap4) (i j : UInt32) :
    (b.set i).isSet j = true ↔ j = i ∨ b.isSet j = true := by
  rw [isSet_eq_testBit, isSet_eq_testBit, word_set, UInt32.toNat_or, Nat.testBit_or,
    testBit_mask, Bool.or_eq_true, decide_eq_true_eq, or_comm]

/-- Setting bits sees neither their order nor their repetitions. -/
theorem setAction : SetAction set where
  comm b i j := by
    apply ext_word
    · rw [length_set, length_set, length_set, length_set, max_right_comm]
    · intro k
      rw [word_set, word_set, word_set, word_set, UInt32.or_assoc, UInt32.or_assoc,
        UInt32.or_comm (mask i k)]
  idem b i := by
    apply ext_word
    · rw [length_set, length_set, max_assoc, max_self]
    · intro k
      rw [word_set, word_set, UInt32.or_assoc, UInt32.or_self]

/-! ### Setting a sequence of bits -/

/-- The bitmap of a sequence of calls of `set` on a new one. -/
def ofBits (bits : List UInt32) : Bitmap4 := bits.foldl set new

/-- The bits of a list are set, and the others are as they were. -/
theorem isSet_foldl_iff (bits : List UInt32) (b : Bitmap4) (j : UInt32) :
    (bits.foldl set b).isSet j = true ↔ j ∈ bits ∨ b.isSet j = true := by
  induction bits generalizing b with
  | nil => simp
  | cons i bits ih => rw [List.foldl_cons, ih, isSet_set_iff, List.mem_cons, or_left_comm, or_assoc]

/-- The members are the bits that were set. -/
theorem isSet_ofBits_iff (bits : List UInt32) (j : UInt32) :
    (ofBits bits).isSet j = true ↔ j ∈ bits := by
  rw [ofBits, isSet_foldl_iff]
  simp [isSet, new]

/-- **Canonicity.** A bitmap that was built is determined by its members. -/
theorem ofBits_eq_iff {is js : List UInt32} :
    ofBits is = ofBits js ↔ ∀ i, i ∈ is ↔ i ∈ js := by
  constructor
  · intro heq i
    rw [← isSet_ofBits_iff, heq, isSet_ofBits_iff]
  · intro hiff
    exact setAction.foldl_congr hiff new

/-! ### On the wire -/

/-- A bit number is below `2 ^ 32`, so there are few words. -/
theorem length_ofBits_le (bits : List UInt32) : (ofBits bits).words.length ≤ 2 ^ 27 := by
  induction bits using List.reverseRecOn with
  | nil => exact Nat.zero_le _
  | append_singleton bits bit ih =>
      have hbit : bit.toNat < 2 ^ 32 := bit.toNat_lt
      have hword : (bit / 32).toNat = bit.toNat / 32 := UInt32.toNat_div bit 32
      rw [ofBits, List.foldl_append, List.foldl_cons, List.foldl_nil, length_set, ← ofBits]
      omega

/-- A bitmap of 32-bit numbers has few words. -/
theorem wellFormed_ofBits (bits : List UInt32) : wellFormed (ofBits bits) := by
  have hle := length_ofBits_le bits
  exact ⟨by omega, fun _ _ => trivial⟩

/-- What encodes is read back. -/
theorem decode_encode {b : Bitmap4} {bytes : Bytes} (h : encode b = .ok bytes) (rest : Bytes) :
    (decode : Decoder UInt8 XdrError Bitmap4).run (bytes ++ rest) = .ok (b, rest) := by
  obtain ⟨bytes', hbytes', hdec⟩ := (isCodec (α := Bitmap4)).yields b (aligned b bytes h).1
  obtain rfl := Except.ok.inj (h.symm.trans hbytes')
  exact hdec rest

/-- **A bitmap is a canonical set of attribute numbers.** Setting a bit adds it to the members.
Setting is idempotent, and any two settings commute. Two bitmaps that were built from new ones
are equal exactly when the same bits were set, and so are their encodings, which exist. Decoding
an encoding gives the same members. -/
theorem bitmap_canonical :
    (∀ (b : Bitmap4) (i j : UInt32),
      (b.set i).isSet j = true ↔ j = i ∨ b.isSet j = true) ∧
    (∀ (b : Bitmap4) (i : UInt32), (b.set i).set i = b.set i) ∧
    (∀ (b : Bitmap4) (i j : UInt32), (b.set i).set j = (b.set j).set i) ∧
    (∀ is js : List UInt32, ofBits is = ofBits js ↔ ∀ i, i ∈ is ↔ i ∈ js) ∧
    (∀ is js : List UInt32, (encode (ofBits is) = encode (ofBits js)) ↔ ∀ i, i ∈ is ↔ i ∈ js) ∧
    (∀ is : List UInt32, ∃ bytes, encode (ofBits is) = .ok bytes) ∧
    ∀ (b : Bitmap4) (bytes rest : Bytes), encode b = .ok bytes →
      ∃ b', (decode : Decoder UInt8 XdrError Bitmap4).run (bytes ++ rest) = .ok (b', rest) ∧
        ∀ j, b'.isSet j = b.isSet j := by
  have hencodes : ∀ is : List UInt32, ∃ bytes, encode (ofBits is) = .ok bytes := by
    intro is
    obtain ⟨bytes, hbytes, -⟩ := (isCodec (α := Bitmap4)).yields _ (wellFormed_ofBits is)
    exact ⟨bytes, hbytes⟩
  refine ⟨isSet_set_iff, setAction.idem, setAction.comm, fun _ _ => ofBits_eq_iff,
    fun is js => ?_, hencodes, fun b bytes rest h => ⟨b, decode_encode h rest, fun _ => rfl⟩⟩
  rw [← ofBits_eq_iff]
  constructor
  · intro heq
    -- Equal encodings decode to the same bitmap.
    obtain ⟨bytes, hbytes⟩ := hencodes is
    have hi := decode_encode hbytes []
    rw [decode_encode (heq.symm.trans hbytes) []] at hi
    injection hi with hpair
    exact (congrArg Prod.fst hpair).symm
  · intro heq
    rw [heq]

end NfsMount.Nfs4Types.Bitmap4
