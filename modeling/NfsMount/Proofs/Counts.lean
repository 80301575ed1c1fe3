import NfsMount.Proofs.AuthLength
import NfsMount.Proofs.Loops

/-!
# `NfsMount.Proofs.Counts`: the counts that arrays are reserved with

An array decoder reads a count and reserves that many elements, before it reads the first of
them. `Logged.Fits` says of a buffer that no array is entered with a count above the bytes that
are left, and the lemmas below read off the words of the buffer when that is so. An array is
entered where the parts before it decode.
-/

set_option autoImplicit false

namespace NfsMount.XdrCodec

open NfsMount.Lib Logged

/-- The count word at `i` is no more than the bytes behind it. -/
def CountFits (b : Bytes) (i : Nat) : Prop :=
  i + 4 ≤ b.length → wordAt b i ≤ b.length - (i + 4)

/-- The bytes at `i` are an opaque of UTF-8 text. -/
def NameAt (b : Bytes) (i : Nat) : Prop :=
  ∃ s, stringBytes s = (b.drop (i + 4)).take (wordAt b i)

/-- The count word of the bytes behind `i`. -/
theorem countFits_drop {b : Bytes} {i j : Nat} : CountFits (b.drop i) j ↔ CountFits b (i + j) := by
  rw [CountFits, CountFits, wordAt_drop, List.length_drop]
  constructor
  · intro h hle
    have := h (by omega)
    omega
  · intro h hle
    have := h (by omega)
    omega

/-- The name of the bytes behind `i`. -/
theorem nameAt_drop {b : Bytes} {i j : Nat} : NameAt (b.drop i) j ↔ NameAt b (i + j) := by
  rw [NameAt, NameAt, wordAt_drop, List.drop_drop, Nat.add_assoc]

/-- There is nothing to check behind the end. -/
theorem countFits_of_length {b : Bytes} {i n : Nat} (hn : n ≤ i + 4) :
    (n ≤ b.length → CountFits b i) ↔ CountFits b i :=
  ⟨fun h hle => h (hn.trans hle) hle, fun h _ => h⟩

/-! ### Fields without arrays -/

section

variable {α β : Type} [XdrEncode α] [XdrDecode α] [XdrWf α] [LawfulXdr α]
  {g : α → Decoder UInt8 XdrError β} {l : Nat} {f : ∀ a, Logged 4 l (g a)} {b : Bytes}

/-- What has no arrays enters none. -/
@[simp] theorem fits_quietXdr : (quietXdr (α := α)).Fits b :=
  fits_of_log_nil rfl

/-- A field without arrays, and then what does not depend on it. -/
theorem fits_field {P : Bytes → Prop} (hf : ∀ a r, (f a).Fits r ↔ P r) :
    (quietXdr.bind f).Fits b ↔
      ∀ r, Decoder.EndsAt (decode : Decoder UInt8 XdrError α) b r → P r := by
  rw [fits_bind_of_forall hf]
  exact and_iff_right fits_quietXdr

end

/-- What ends after `n` bytes. -/
def Fixed {α : Type} (d : Decoder UInt8 XdrError α) (n : Nat) : Prop :=
  ∀ b r, Decoder.EndsAt d b r ↔ n ≤ b.length ∧ r = b.drop n

/-- A decoder that takes `n` bytes ends behind them. -/
theorem fixed_of_takes {α : Type} {d : Decoder UInt8 XdrError α} {n : Nat} {f : Bytes → α}
    (h : Decoder.Takes d n f) : Fixed d n := by
  intro b r
  simp only [Decoder.EndsAt, h.run_eq_ok]
  constructor
  · rintro ⟨_, hle, -, hr⟩
    exact ⟨hle, hr⟩
  · rintro ⟨hle, hr⟩
    exact ⟨_, hle, rfl, hr⟩

/-- A word has 4 bytes. -/
theorem fixed_word : Fixed (decode : Decoder UInt8 XdrError UInt32) 4 := fixed_of_takes takes_word

/-- A hyper has 8 bytes. -/
theorem fixed_hyper : Fixed (decode : Decoder UInt8 XdrError UInt64) 8 :=
  fixed_of_takes ((takes_readFixed 8).map _)

/-- The lengths of two fields that are fixed add up. -/
theorem Fixed.bind {α β : Type} {d : Decoder UInt8 XdrError α}
    {g : α → Decoder UInt8 XdrError β} {n k : Nat} (hd : Fixed d n) (hg : ∀ a, Fixed (g a) k) :
    Fixed (d >>= g) (n + k) := by
  intro b r
  rw [Decoder.endsAt_bind_of_forall fun a => hg a]
  simp only [hd b]
  constructor
  · rintro ⟨s, ⟨hle, rfl⟩, hk, rfl⟩
    rw [List.length_drop] at hk
    exact ⟨by omega, by rw [List.drop_drop]⟩
  · rintro ⟨hle, rfl⟩
    refine ⟨_, ⟨by omega, rfl⟩, ?_, by rw [List.drop_drop]⟩
    rw [List.length_drop]
    omega

/-- A value takes nothing. -/
theorem fixed_pure {α : Type} (a : α) : Fixed (pure a) 0 := by
  intro b r
  rw [Decoder.endsAt_pure, List.drop_zero]
  exact (and_iff_right (Nat.zero_le _)).symm

/-- What holds where a field ends that has `n` bytes, if they are such that `Q`. -/
theorem forall_endsAt_iff {α : Type} {d : Decoder UInt8 XdrError α} {b : Bytes} {n : Nat}
    {Q : Prop} (hd : ∀ r, Decoder.EndsAt d b r ↔ n ≤ b.length ∧ Q ∧ r = b.drop n)
    {P : Bytes → Prop} :
    (∀ r, Decoder.EndsAt d b r → P r) ↔ (n ≤ b.length → Q → P (b.drop n)) := by
  constructor
  · exact fun h hle hQ => h _ ((hd _).mpr ⟨hle, hQ, rfl⟩)
  · intro h r hr
    obtain ⟨hle, hQ, rfl⟩ := (hd r).mp hr
    exact h hle hQ

/-- What holds where a field of fixed length ends. -/
theorem Fixed.forall_endsAt {α : Type} {d : Decoder UInt8 XdrError α} {n : Nat} (hd : Fixed d n)
    {b : Bytes} {P : Bytes → Prop} :
    (∀ r, Decoder.EndsAt d b r → P r) ↔ (n ≤ b.length → P (b.drop n)) := by
  rw [forall_endsAt_iff (Q := True) fun r => by rw [hd b r, true_and], true_imp_iff]

/-- `n` bytes without arrays, and then one count `j` bytes further on. -/
theorem fits_fixed {α β : Type} [XdrEncode α] [XdrDecode α] [XdrWf α] [LawfulXdr α]
    {g : α → Decoder UInt8 XdrError β} {l : Nat} {f : ∀ a, Logged 4 l (g a)} {b : Bytes}
    {n j : Nat} (hd : Fixed (decode : Decoder UInt8 XdrError α) n)
    (hf : ∀ a r, (f a).Fits r ↔ CountFits r j) :
    (quietXdr.bind f).Fits b ↔ CountFits b (j + n) := by
  rw [fits_field hf, hd.forall_endsAt, countFits_drop, Nat.add_comm]
  exact countFits_of_length (by omega)

/-- A `bool` is a word that is 0 or 1. -/
theorem run_decodeBool_eq_ok {b r : Bytes} {v : Bool} :
    (decode : Decoder UInt8 XdrError Bool).run b = .ok (v, r) ↔
      4 ≤ b.length ∧ wordAt b 0 = v.toNat ∧ r = b.drop 4 := by
  show (decode >>= _ : Decoder UInt8 XdrError Bool).run b = _ ↔ _
  have hbit : ∀ n : UInt32, UInt32.ofNat (wordAt b 0) = n ↔ wordAt b 0 = n.toNat :=
    fun n => toNat_ofNat_eq_iff (wordAt_lt b 0)
  rw [Decoder.run_bind_eq_ok]
  constructor
  · rintro ⟨w, s, hw, hs⟩
    obtain ⟨hlen, rfl, rfl⟩ := run_decodeWord_eq_ok.mp hw
    split at hs
    · rename_i h0
      rw [Decoder.run_pure, Outcome.ok.injEq, Prod.mk.injEq] at hs
      obtain ⟨rfl, rfl⟩ := hs
      exact ⟨hlen, (hbit 0).mp h0, rfl⟩
    · split at hs
      · rename_i h1
        rw [Decoder.run_pure, Outcome.ok.injEq, Prod.mk.injEq] at hs
        obtain ⟨rfl, rfl⟩ := hs
        exact ⟨hlen, (hbit 1).mp h1, rfl⟩
      · -- Any other word is an error.
        simp [Decoder.run_fail] at hs
  · rintro ⟨hlen, hv, rfl⟩
    refine ⟨_, _, run_decodeWord_eq_ok.mpr ⟨hlen, rfl, rfl⟩, ?_⟩
    cases v with
    | false => rw [if_pos ((hbit 0).mpr hv), Decoder.run_pure]
    | true =>
        rw [if_neg fun h => ?_, if_pos ((hbit 1).mpr hv), Decoder.run_pure]
        exact absurd (hv.symm.trans ((hbit 0).mp h)) (by decide)

/-- Opaque data ends behind its padding. -/
theorem endsAt_opaqueData {b r : Bytes} :
    Decoder.EndsAt (decode : Decoder UInt8 XdrError Opaque) b r ↔
      opaqueSpan b ≤ b.length ∧ r = b.drop (opaqueSpan b) := by
  show Decoder.EndsAt (Opaque.mk <$> decodeOpaqueBytes) b r ↔ _
  rw [Decoder.endsAt_map]
  simp only [Decoder.EndsAt, run_decodeOpaqueBytes_eq_ok]
  constructor
  · rintro ⟨_, hle, -, hr⟩
    exact ⟨hle, hr⟩
  · rintro ⟨hle, hr⟩
    exact ⟨_, hle, rfl, hr⟩

/-- A string ends as opaque data does, if the bytes are text. -/
theorem endsAt_name {b r : Bytes} :
    Decoder.EndsAt (decode : Decoder UInt8 XdrError String) b r ↔
      opaqueSpan b ≤ b.length ∧ NameAt b 0 ∧ r = b.drop (opaqueSpan b) := by
  rw [endsAt_string, NameAt, and_comm (a := r = _), Nat.zero_add]

/-! ### Arrays -/

/-- The array at the front of `b`: its count is no more than the bytes behind it, and `P` holds
of every element, as far as the elements before it decode. -/
def ArrayFits {α : Type} (d : Decoder UInt8 XdrError α) (P : Bytes → Prop) (b : Bytes) : Prop :=
  CountFits b 0 ∧ (4 ≤ b.length → ∀ i < wordAt b 0, ∀ s,
    Decoder.EndsAt (Decoder.times i d) (b.drop 4) s → P s)

/-- An array fits when its count does, and the arrays of its elements. -/
theorem fits_list {α : Type} [XdrDecode α] {x : Logged 4 4 (decode : Decoder UInt8 XdrError α)}
    {b : Bytes} :
    (loggedList x).Fits b ↔ ArrayFits (decode : Decoder UInt8 XdrError α) x.Fits b := by
  have hbind : (loggedList x).Fits b ↔ _ := fits_bind
  rw [hbind, and_iff_right fits_quietXdr, ArrayFits, CountFits, Nat.zero_add]
  constructor
  · intro h
    have harray := fun hle => fits_enter.mp (h _ _ (run_decodeWord_eq_ok.mpr ⟨hle, rfl, rfl⟩))
    simp only [toNat_wordAt, List.length_drop, fits_times] at harray
    exact ⟨fun hle => (harray hle).1, fun hle => (harray hle).2⟩
  · rintro ⟨hcount, helements⟩ len r hlen
    obtain ⟨hle, rfl, rfl⟩ := run_decodeWord_eq_ok.mp hlen
    rw [fits_enter, toNat_wordAt, List.length_drop, fits_times]
    exact ⟨hcount hle, helements hle⟩

/-- Without a whole count word the array is not entered. -/
theorem arrayFits_of_short {α : Type} {d : Decoder UInt8 XdrError α} {P : Bytes → Prop} {b : Bytes}
    (h : b.length < 4) : ArrayFits d P b :=
  ⟨fun hle => absurd hle (by omega), fun hle => absurd hle (by omega)⟩

/-- An array whose elements hold no arrays. -/
theorem fits_list_of_forall {α : Type} [XdrDecode α]
    {x : Logged 4 4 (decode : Decoder UInt8 XdrError α)} (hx : ∀ s, x.Fits s) {b : Bytes} :
    (loggedList x).Fits b ↔ CountFits b 0 := by
  rw [fits_list]
  exact and_iff_left fun _ i _ s _ => hx s

/-- The words of an array have no arrays of their own. -/
theorem fits_words {b : Bytes} : (loggedList loggedWord).Fits b ↔ CountFits b 0 :=
  fits_list_of_forall fun _ => fits_of_log_nil rfl

end NfsMount.XdrCodec

namespace NfsMount.Nfs4Types

open NfsMount.Lib NfsMount.XdrCodec Logged

/-! ### The results -/

/-- Fixed opaque data takes its length. -/
theorem fixed_fixedOpaque (n : Nat) : Fixed (decode : Decoder UInt8 XdrError (FixedOpaque n)) n :=
  fixed_of_takes ((takes_readFixed n).map _)

/-- The sequence number and the 12 bytes of a state id. -/
theorem fixed_stateId4 : Fixed (decode : Decoder UInt8 XdrError StateId4) 16 :=
  fixed_word.bind fun _ => (fixed_fixedOpaque 12).bind fun _ => fixed_pure _

/-- A client id is a hyper. -/
theorem fixed_clientId4 : Fixed (decode : Decoder UInt8 XdrError ClientId4) 8 :=
  fixed_of_takes (((takes_readFixed 8).map _).map _)

/-- A `bool` and two hypers. -/
theorem endsAt_changeInfo4 {b r : Bytes} :
    Decoder.EndsAt (decode : Decoder UInt8 XdrError ChangeInfo4) b r ↔
      20 ≤ b.length ∧ wordAt b 0 ≤ 1 ∧ r = b.drop 20 := by
  have hrest : ∀ atomic : Bool, Fixed (do
      let before ← decode
      let after ← decode
      pure ({ atomic, before, after } : ChangeInfo4)) 16 := fun _ =>
    fixed_hyper.bind fun _ => fixed_hyper.bind fun _ => fixed_pure _
  show Decoder.EndsAt (decode >>= _) b r ↔ _
  rw [Decoder.endsAt_bind_of_forall hrest]
  simp only [Decoder.EndsAt, run_decodeBool_eq_ok]
  constructor
  · rintro ⟨s, ⟨v, hle, hv, rfl⟩, hlen, rfl⟩
    rw [List.length_drop] at hlen
    exact ⟨by omega, hv ▸ Bool.toNat_le v, by rw [List.drop_drop]⟩
  · rintro ⟨hle, hv, rfl⟩
    refine ⟨_, ⟨decide (wordAt b 0 = 1), by omega, ?_, rfl⟩, ?_, by rw [List.drop_drop]⟩
    · by_cases h1 : wordAt b 0 = 1
      · simp [h1]
      · have h0 : wordAt b 0 = 0 := by omega
        simp [h0]
    · rw [List.length_drop]
      omega

/-- The count of a bitmap is its first word. -/
theorem fits_bitmap4 {b : Bytes} : loggedBitmap4.Fits b ↔ CountFits b 0 := fits_words

/-- The values of the attributes are opaque, and only the bitmap has a count. -/
theorem fits_fattr4 {b : Bytes} : loggedFattr4.Fits b ↔ CountFits b 0 := by
  have hbind : loggedFattr4.Fits b ↔ _ := fits_bind
  rw [hbind, fits_bitmap4]
  exact and_iff_left fun _ r _ => fits_bind_pure.mpr fits_quietXdr

/-- The six limits of a channel come before its RDMA limits. -/
theorem fits_channelAttrs4 {b : Bytes} : loggedChannelAttrs4.Fits b ↔ CountFits b 24 :=
  fits_fixed fixed_word fun _ _ => fits_fixed fixed_word fun _ _ => fits_fixed fixed_word fun _ _ =>
  fits_fixed fixed_word fun _ _ => fits_fixed fixed_word fun _ _ => fits_fixed fixed_word fun _ _ =>
  fits_bind_pure.trans fits_words

/-- A minor id and a major id, which is opaque. -/
theorem endsAt_serverOwner4 {b r : Bytes} :
    Decoder.EndsAt (decode : Decoder UInt8 XdrError ServerOwner4) b r ↔
      8 + opaqueSpan (b.drop 8) ≤ b.length ∧ r = b.drop (8 + opaqueSpan (b.drop 8)) := by
  have hmajor : ∀ (soMinorId : UInt64) (s r : Bytes), Decoder.EndsAt (do
      let soMajorId : Opaque ← decode
      pure ({ soMinorId, soMajorId } : ServerOwner4)) s r ↔
        opaqueSpan s ≤ s.length ∧ r = s.drop (opaqueSpan s) := by
    intro soMinorId s r
    rw [bind_pure_comp, Decoder.endsAt_map, endsAt_opaqueData]
  show Decoder.EndsAt ((decode : Decoder UInt8 XdrError UInt64) >>= _) b r ↔ _
  rw [Decoder.endsAt_bind_of_forall hmajor]
  simp only [fixed_hyper b]
  constructor
  · rintro ⟨s, ⟨hle, rfl⟩, hlen, rfl⟩
    rw [List.length_drop] at hlen
    exact ⟨by omega, by rw [List.drop_drop]⟩
  · rintro ⟨hle, rfl⟩
    refine ⟨_, ⟨by omega, rfl⟩, ?_, by rw [List.drop_drop]⟩
    rw [List.length_drop]
    omega

/-- Only SP4_NONE is read, which has no body. -/
theorem endsAt_stateProtect4r {b r : Bytes} :
    Decoder.EndsAt (decode : Decoder UInt8 XdrError StateProtect4r) b r ↔
      4 ≤ b.length ∧ wordAt b 0 = 0 ∧ r = b.drop 4 := by
  show Decoder.EndsAt (decodeZeroArm "StateProtect4r" StateProtect4r.spNone) b r ↔ _
  have hdisc : UInt32.ofNat (wordAt b 0) = 0 ↔ wordAt b 0 = 0 :=
    toNat_ofNat_eq_iff (wordAt_lt b 0)
  rw [decodeZeroArm, endsAt_word_bind]
  refine and_congr_right fun _ => ?_
  by_cases h : wordAt b 0 = 0
  · rw [if_pos (hdisc.mpr h), Decoder.endsAt_pure, and_iff_right h]
  · rw [if_neg (mt hdisc.mp h)]
    exact iff_of_false (fun ⟨_, hv⟩ => nomatch hv) fun h' => h h'.1

/-- A state id, a change of the directory and the flags come before the bitmap. -/
theorem fits_open4resok {b : Bytes} :
    loggedOpen4resok.Fits b ↔ (wordAt b 16 ≤ 1 → CountFits b 40) := by
  have hfields : loggedOpen4resok.Fits b ↔
      ∀ r, Decoder.EndsAt (decode : Decoder UInt8 XdrError StateId4) b r →
        ∀ s, Decoder.EndsAt (decode : Decoder UInt8 XdrError ChangeInfo4) r s → CountFits s 4 :=
    fits_field fun _ _ => fits_field fun _ _ => fits_fixed fixed_word fun _ _ =>
      fits_bind.trans ((and_iff_left fun _ _ _ => fits_bind_pure.mpr fits_quietXdr).trans
        fits_bitmap4)
  rw [hfields, fixed_stateId4.forall_endsAt, forall_endsAt_iff fun r => endsAt_changeInfo4]
  simp only [countFits_drop, wordAt_drop, List.length_drop, Nat.reduceAdd]
  constructor
  · exact fun h hatomic hle => h (by omega) (by omega) hatomic hle
  · exact fun h _ _ hatomic => h hatomic

/-- Where the implementation ids of an EXCHANGE_ID result are, behind the server owner and the
server scope. -/
def implIdsAt (b : Bytes) : Nat :=
  let scope := 28 + opaqueSpan (b.drop 28)
  scope + opaqueSpan (b.drop scope)

/-- An implementation id has no arrays. -/
theorem fits_implId4 (b : Bytes) : loggedImplId4.Fits b := by
  have hname : ∀ s, loggedString.Fits s := fun _ => fits_of_log_nil rfl
  exact fits_bind.mpr ⟨hname b, fun _ _ _ => fits_bind.mpr ⟨fits_quietXdr, fun _ _ _ =>
    fits_bind_pure.mpr fits_quietXdr⟩⟩

/-- The implementation ids are the last field, behind two opaques. -/
theorem fits_exchangeId4resok {b : Bytes} :
    loggedExchangeId4resok.Fits b ↔ (wordAt b 16 = 0 → CountFits b (implIdsAt b)) := by
  have hfields : loggedExchangeId4resok.Fits b ↔
      ∀ r₁, Decoder.EndsAt (decode : Decoder UInt8 XdrError ClientId4) b r₁ →
      ∀ r₂, Decoder.EndsAt (decode : Decoder UInt8 XdrError UInt32) r₁ r₂ →
      ∀ r₃, Decoder.EndsAt (decode : Decoder UInt8 XdrError UInt32) r₂ r₃ →
      ∀ r₄, Decoder.EndsAt (decode : Decoder UInt8 XdrError StateProtect4r) r₃ r₄ →
      ∀ r₅, Decoder.EndsAt (decode : Decoder UInt8 XdrError ServerOwner4) r₄ r₅ →
      ∀ r₆, Decoder.EndsAt (decode : Decoder UInt8 XdrError Opaque) r₅ r₆ → CountFits r₆ 0 :=
    fits_field fun _ _ => fits_field fun _ _ => fits_field fun _ _ => fits_field fun _ _ =>
      fits_field fun _ _ => fits_field fun _ _ =>
      fits_bind_pure.trans (fits_list_of_forall fits_implId4)
  have howner : ∀ {s r : Bytes}, Decoder.EndsAt (decode : Decoder UInt8 XdrError ServerOwner4) s r ↔
      8 + opaqueSpan (s.drop 8) ≤ s.length ∧ True ∧ r = s.drop (8 + opaqueSpan (s.drop 8)) := by
    simp only [endsAt_serverOwner4, true_and, implies_true]
  have hscope : ∀ {s r : Bytes}, Decoder.EndsAt (decode : Decoder UInt8 XdrError Opaque) s r ↔
      opaqueSpan s ≤ s.length ∧ True ∧ r = s.drop (opaqueSpan s) := by
    simp only [endsAt_opaqueData, true_and, implies_true]
  simp only [hfields, fixed_clientId4.forall_endsAt, fixed_word.forall_endsAt,
    forall_endsAt_iff fun r => endsAt_stateProtect4r, forall_endsAt_iff fun r => howner,
    forall_endsAt_iff fun r => hscope, List.drop_drop, countFits_drop, wordAt_drop,
    List.length_drop, Nat.reduceAdd, Nat.add_zero]
  rw [implIdsAt]
  -- The opaque of the owner ends `28 + major` bytes into the result.
  generalize hmajor : opaqueSpan (b.drop 28) = major
  have hend : 8 + (4 + (4 + (4 + (8 + major)))) = 28 + major := by omega
  rw [hend]
  generalize opaqueSpan (b.drop (28 + major)) = scope
  have hids : 8 + (4 + (4 + (4 + (8 + major + scope)))) = 28 + major + scope := by omega
  rw [hids]
  constructor
  · intro h hstate hle
    exact h (by omega) (by omega) (by omega) (by omega) hstate (by omega) trivial (by omega)
      trivial hle
  · exact fun h _ _ _ _ hstate _ _ _ _ => h hstate

/-- The two channels of a CREATE_SESSION result. The second stands behind the limits of the
first. -/
theorem fits_createSession4resok {b : Bytes} :
    loggedCreateSession4resok.Fits b ↔
      CountFits b 48 ∧ CountFits b (76 + 4 * wordAt b 48) := by
  have hchannel : ∀ s r, Decoder.EndsAt (decode : Decoder UInt8 XdrError ChannelAttrs4) s r ↔
      28 + 4 * wordAt s 24 ≤ s.length ∧ True ∧ r = s.drop (28 + 4 * wordAt s 24) := by
    intro s r
    show Decoder.EndsAt ((decode : Decoder UInt8 XdrError UInt32) >>= _) s r ↔ _
    -- Six limits of a word each, and the words of the RDMA array.
    rw [endsAt_word_bind, endsAt_word_bind, endsAt_word_bind, endsAt_word_bind,
      endsAt_word_bind, endsAt_word_bind, bind_pure_comp, Decoder.endsAt_map, endsAt_words]
    simp only [List.drop_drop, wordAt_drop, List.length_drop, Nat.reduceAdd, true_and]
    have hlast : 24 + (4 + 4 * wordAt s 24) = 28 + 4 * wordAt s 24 := by omega
    rw [hlast]
    constructor
    · rintro ⟨_, _, _, _, _, _, hle, hr⟩
      exact ⟨by omega, hr⟩
    · rintro ⟨hle, hr⟩
      exact ⟨by omega, by omega, by omega, by omega, by omega, by omega, by omega, hr⟩
  have hfields : loggedCreateSession4resok.Fits b ↔
      ∀ r₁, Decoder.EndsAt (decode : Decoder UInt8 XdrError SessionId4) b r₁ →
      ∀ r₂, Decoder.EndsAt (decode : Decoder UInt8 XdrError UInt32) r₁ r₂ →
      ∀ r₃, Decoder.EndsAt (decode : Decoder UInt8 XdrError UInt32) r₂ r₃ →
      CountFits r₃ 24 ∧ ∀ r₄, Decoder.EndsAt (decode : Decoder UInt8 XdrError ChannelAttrs4) r₃ r₄ →
        CountFits r₄ 24 :=
    fits_field fun _ _ => fits_field fun _ _ => fits_field fun _ _ =>
      (fits_bind_of_forall fun _ _ => fits_bind_pure.trans fits_channelAttrs4).trans
        (and_congr_left' fits_channelAttrs4)
  simp only [hfields, (fixed_fixedOpaque 16).forall_endsAt, fixed_word.forall_endsAt,
    forall_endsAt_iff fun r => hchannel _ r, countFits_drop, wordAt_drop, List.length_drop,
    Nat.reduceAdd]
  -- Session id, sequence, flags and six limits: the first count is behind 48 bytes.
  generalize hcount : wordAt b 48 = count
  have hback : 16 + (4 + (4 + (28 + 4 * count + 24))) = 76 + 4 * count := by omega
  rw [hback]
  constructor
  · intro h
    refine ⟨fun hle => (h (by omega) (by omega) (by omega)).1 hle, fun hle => ?_⟩
    exact (h (by omega) (by omega) (by omega)).2 (by omega) trivial hle
  · rintro ⟨hfore, hback⟩ - - -
    exact ⟨hfore, fun _ _ => hback⟩

/-! ### Directories -/

/-- The bitmap of the entry at the front of `b` is behind its name. -/
def EntryFits (b : Bytes) : Prop :=
  wordAt b 0 = 1 → NameAt b 12 → CountFits b (12 + opaqueSpan (b.drop 12))

/-- An entry has one array, the bitmap of its attributes. -/
theorem fits_entry {b : Bytes} : loggedEntry.Fits b ↔ EntryFits b := by
  have hbool : loggedBool.Fits b := by
    refine fits_bind.mpr ⟨fits_of_log_nil rfl, fun _ _ _ => ?_⟩
    exact fits_ite.mpr ⟨fun _ => fits_pure, fun _ => fits_ite.mpr ⟨fun _ => fits_pure,
      fun _ => fits_fail⟩⟩
  have hfields : (quietXdr.bind fun (cookie : UInt64) => quietXdr.bind fun (name : String) =>
      loggedFattr4.bind fun attrs => Logged.pure (w := 4) (ε := XdrError)
        (some ({ cookie, name, attrs } : Entry4))).Fits (b.drop 4) ↔
      ∀ r₁, Decoder.EndsAt (decode : Decoder UInt8 XdrError UInt64) (b.drop 4) r₁ →
      ∀ r₂, Decoder.EndsAt (decode : Decoder UInt8 XdrError String) r₁ r₂ → CountFits r₂ 0 :=
    fits_field fun _ _ => fits_field fun _ _ => fits_bind_pure.trans fits_fattr4
  have hbind : loggedEntry.Fits b ↔ _ := fits_bind
  rw [hbind, and_iff_right hbool, EntryFits]
  simp only [fixed_hyper.forall_endsAt, forall_endsAt_iff fun r => endsAt_name, countFits_drop,
    nameAt_drop, List.drop_drop, List.length_drop, Nat.reduceAdd, Nat.add_zero] at hfields
  constructor
  · intro h hentry hname hle
    have hpresent := h true _ (run_decodeBool_eq_ok.mpr ⟨by omega, hentry, rfl⟩)
    exact hfields.mp ((fits_ite.mp hpresent).2 (by simp)) (by omega) (by omega) hname hle
  · intro h present r hrun
    obtain ⟨-, hentry, rfl⟩ := run_decodeBool_eq_ok.mp hrun
    -- `false` ends the loop, and nothing follows it in this turn.
    cases present with
    | false => exact fits_ite.mpr ⟨fun _ => fits_pure, fun h => absurd rfl h⟩
    | true =>
        refine fits_ite.mpr ⟨fun h => absurd h (by simp), fun _ => hfields.mpr ?_⟩
        exact fun _ _ hname => h hentry hname

/-- The entries begin behind the verifier, and each must fit. -/
theorem fits_readDir4resok {b : Bytes} :
    loggedReadDir4resok.Fits b ↔
      (8 ≤ b.length → ∀ i s, Passes decodeEntry i (b.drop 8) s → EntryFits s) := by
  have hloop : loggedReadDir4resok.Fits b ↔
      ∀ r, Decoder.EndsAt (decode : Decoder UInt8 XdrError Verifier4) b r →
        loggedEntry.loop.Fits r :=
    fits_field fun _ _ => fits_bind.trans (and_iff_left fun _ _ _ =>
      fits_bind_pure.mpr fits_quietXdr)
  rw [hloop, (fixed_fixedOpaque 8).forall_endsAt, fits_loop (by decide)]
  simp only [fits_entry]

/-! ### Operations -/

/-- The status that a word stands for. -/
theorem NfsStat4.find?_discriminant (status : NfsStat4) :
    NfsStat4.variants.find? (fun v => v.discriminant == status.discriminant) = some status := by
  cases hfind : NfsStat4.variants.find? (fun v => v.discriminant == status.discriminant) with
  | none =>
      have hne := List.find?_eq_none.mp hfind status status.mem_variants
      simp at hne
  | some v =>
      have hv : v.discriminant = status.discriminant := by simpa using List.find?_some hfind
      rw [NfsStat4.discriminant_inj v v.mem_variants status status.mem_variants hv]

/-- A status is one of the words that the client knows. -/
theorem run_nfsStat4_eq_ok {b r : Bytes} {status : NfsStat4} :
    (decode : Decoder UInt8 XdrError NfsStat4).run b = .ok (status, r) ↔
      4 ≤ b.length ∧ wordAt b 0 = status.discriminant.toNat ∧ r = b.drop 4 := by
  have hword : ∀ s : NfsStat4, UInt32.ofNat (wordAt b 0) = s.discriminant ↔
      wordAt b 0 = s.discriminant.toNat := fun s => toNat_ofNat_eq_iff (wordAt_lt b 0)
  show (decodeUnitEnum "NfsStat4" NfsStat4.variants NfsStat4.discriminant).run b = _ ↔ _
  rw [decodeUnitEnum, Decoder.run_bind_eq_ok]
  constructor
  · rintro ⟨w, s, hw, hs⟩
    obtain ⟨hlen, rfl, rfl⟩ := run_decodeWord_eq_ok.mp hw
    split at hs
    · rename_i v hfind
      rw [Decoder.run_pure, Outcome.ok.injEq, Prod.mk.injEq] at hs
      obtain ⟨rfl, rfl⟩ := hs
      have hv : v.discriminant = UInt32.ofNat (wordAt b 0) := by simpa using List.find?_some hfind
      exact ⟨hlen, (hword v).mp hv.symm, rfl⟩
    · simp [Decoder.run_fail] at hs
  · rintro ⟨hlen, hstatus, rfl⟩
    refine ⟨_, _, run_decodeWord_eq_ok.mpr ⟨hlen, rfl, rfl⟩, ?_⟩
    rw [(hword status).mpr hstatus, NfsStat4.find?_discriminant]
    exact Decoder.run_pure _ _

/-- The body of a result follows the status `Ok` only. -/
theorem fits_opResult {β : Type} [XdrDecode β] {x : Logged 4 0 (decode : Decoder UInt8 XdrError β)}
    {b : Bytes} :
    (loggedOpResult x).Fits b ↔ (4 ≤ b.length → wordAt b 0 = 0 → x.Fits (b.drop 4)) := by
  have hbind : (loggedOpResult x).Fits b ↔ _ := fits_bind
  rw [hbind, and_iff_right fits_quietXdr]
  constructor
  · intro h hle hok
    have harm := h .ok _ (run_nfsStat4_eq_ok.mpr ⟨hle, hok, rfl⟩)
    exact fits_bind_pure.mp ((fits_ite.mp harm).1 rfl)
  · intro h status r hrun
    obtain ⟨hle, hword, rfl⟩ := run_nfsStat4_eq_ok.mp hrun
    refine fits_ite.mpr ⟨fun hok => fits_bind_pure.mpr (h hle ?_), fun _ => fits_pure⟩
    obtain rfl : status = .ok := by simpa [NfsStat4.isOk] using hok
    exact hword

/-- The counts in the body of a result of the operation `op`, whose status is `Ok`. -/
structure BodyFits (op : UInt32) (body : Bytes) : Prop where
  attributes : op = OP_GETATTR ∨ op = OP_SETATTR → CountFits body 0
  opened : op = OP_OPEN → wordAt body 16 ≤ 1 → CountFits body 40
  entries : op = OP_READDIR → 8 ≤ body.length →
    ∀ i s, Passes decodeEntry i (body.drop 8) s → EntryFits s
  implIds : op = OP_EXCHANGE_ID → wordAt body 16 = 0 → CountFits body (implIdsAt body)
  channels : op = OP_CREATE_SESSION →
    CountFits body 48 ∧ CountFits body (76 + 4 * wordAt body 48)

/-- The counts in the result at the front of `b`. -/
def ResultFits (b : Bytes) : Prop :=
  8 ≤ b.length → wordAt b 4 = 0 → BodyFits (UInt32.ofNat (wordAt b 0)) (b.drop 8)

/-- A result fits when the body does that its operation number announces. -/
theorem fits_resOp4 {b : Bytes} : loggedResOp4.Fits b ↔ ResultFits b := by
  have hbind : loggedResOp4.Fits b ↔ _ := fits_bind
  have hword : loggedWord.Fits b := fits_of_log_nil rfl
  have hget : ∀ s, loggedGetAttr4resok.Fits s ↔ CountFits s 0 := fun _ => fits_fattr4
  have hset : ∀ s, loggedSetAttr4resok.Fits s ↔ CountFits s 0 := fun _ => fits_bitmap4
  rw [hbind, and_iff_right hword]
  -- Only six of the arms have counts. The others are quiet.
  simp only [fits_ite, fits_map, fits_opResult, fits_quietXdr, fits_fail, hget, hset,
    fits_open4resok, fits_readDir4resok, fits_exchangeId4resok, fits_createSession4resok,
    implies_true, true_and, and_true]
  constructor
  · intro h hle hok
    have harm := h _ _ (run_decodeWord_eq_ok.mpr ⟨by omega, rfl, rfl⟩)
    have h4 : 4 ≤ (b.drop 4).length := by
      rw [List.length_drop]
      omega
    have hstatus : wordAt (b.drop 4) 0 = 0 := by rwa [wordAt_drop]
    have hbody : (b.drop 4).drop 4 = b.drop 8 := List.drop_drop
    simp only [h4, hstatus, hbody, true_imp_iff] at harm
    generalize UInt32.ofNat (wordAt b 0) = op at harm ⊢
    refine ⟨?_, ?_, ?_, ?_, ?_⟩
    · rintro (rfl | rfl)
      · simpa +decide only [true_imp_iff, false_imp_iff, and_true] using harm
      · simpa +decide only [true_imp_iff, false_imp_iff, true_and, and_true] using harm
    · rintro rfl
      simpa +decide only [true_imp_iff, false_imp_iff, true_and, and_true] using harm
    · rintro rfl
      simpa +decide only [true_imp_iff, false_imp_iff, true_and, and_true] using harm
    · rintro rfl
      simpa +decide only [true_imp_iff, false_imp_iff, true_and, and_true] using harm
    · rintro rfl
      simpa +decide only [true_imp_iff, false_imp_iff, true_and, and_true] using harm
  · intro h op r hrun
    obtain ⟨hle, rfl, rfl⟩ := run_decodeWord_eq_ok.mp hrun
    have hbody : 4 ≤ (b.drop 4).length → wordAt (b.drop 4) 0 = 0 →
        BodyFits (UInt32.ofNat (wordAt b 0)) ((b.drop 4).drop 4) := by
      rw [List.length_drop, wordAt_drop, List.drop_drop]
      exact fun hle hok => h (by omega) hok
    generalize UInt32.ofNat (wordAt b 0) = op at hbody ⊢
    intro _ _ _ _
    refine ⟨fun hop h4 hok => (hbody h4 hok).attributes (.inl hop), fun _ => ?_⟩
    refine ⟨fun hop h4 hok => (hbody h4 hok).attributes (.inr hop), fun _ => ?_⟩
    refine ⟨fun hop h4 hok => (hbody h4 hok).opened hop, fun _ _ _ _ => ?_⟩
    refine ⟨fun hop h4 hok => (hbody h4 hok).entries hop, fun _ _ _ => ?_⟩
    refine ⟨fun hop h4 hok => (hbody h4 hok).implIds hop, fun _ => ?_⟩
    exact fun hop h4 hok => (hbody h4 hok).channels hop

/-- The counts in a reply: of the results, behind the tag, and in each result. -/
def ReplyFits (b : Bytes) : Prop :=
  (∃ status : NfsStat4, wordAt b 0 = status.discriminant.toNat) → NameAt b 4 →
    ArrayFits (decode : Decoder UInt8 XdrError NfsResOp4) ResultFits
      (b.drop (4 + opaqueSpan (b.drop 4)))

/-- The count of the results is behind the tag, and each result must fit. -/
theorem fits_compound4res {b : Bytes} : loggedCompound4res.Fits b ↔ ReplyFits b := by
  have hstatus : ∀ r, Decoder.EndsAt (decode : Decoder UInt8 XdrError NfsStat4) b r ↔
      4 ≤ b.length ∧ (∃ status : NfsStat4, wordAt b 0 = status.discriminant.toNat) ∧
        r = b.drop 4 := by
    intro r
    simp only [Decoder.EndsAt, run_nfsStat4_eq_ok, exists_and_left, exists_and_right]
  have hresults : ∀ r, (loggedList loggedResOp4).Fits r ↔
      ArrayFits (decode : Decoder UInt8 XdrError NfsResOp4) ResultFits r := by
    intro r
    simp only [fits_list, ArrayFits, fits_resOp4]
  have hfields : loggedCompound4res.Fits b ↔
      ∀ r₁, Decoder.EndsAt (decode : Decoder UInt8 XdrError NfsStat4) b r₁ →
      ∀ r₂, Decoder.EndsAt (decode : Decoder UInt8 XdrError String) r₁ r₂ →
        ArrayFits (decode : Decoder UInt8 XdrError NfsResOp4) ResultFits r₂ :=
    fits_field fun _ _ => fits_field fun _ r => fits_bind_pure.trans (hresults r)
  rw [hfields, forall_endsAt_iff hstatus, forall_endsAt_iff fun r => endsAt_name, nameAt_drop,
    List.drop_drop, List.length_drop, ReplyFits]
  constructor
  · intro h hstatus hname
    by_cases hle : 4 + opaqueSpan (b.drop 4) ≤ b.length
    · exact h (by omega) hstatus (by omega) hname
    · -- The tag runs out of the buffer, and there is no count behind it.
      refine arrayFits_of_short ?_
      rw [List.length_drop]
      omega
  · exact fun h _ hstatus _ hname => h hstatus hname

end NfsMount.Nfs4Types

namespace NfsMount.OncRpc

open NfsMount.Lib NfsMount.XdrCodec NfsMount.Nfs4Types Logged

/-! ### RPC replies -/

/-- The log of an AUTH_SYS body, with the array of the group ids. -/
def loggedAuthSys : Logged 4 0 decodeAuthSys :=
  quietXdr.bind fun (_ : UInt32) => quietXdr.bind fun (_ : String) =>
  quietXdr.bind fun (_ : UInt32) => quietXdr.bind fun (_ : UInt32) =>
  (loggedList loggedWord).bind fun _ => .pure _

/-- Bytes that are skipped. -/
def quietAdvance (n : Nat) : Logged 4 0 (Decoder.advance n : Decoder UInt8 XdrError Unit) :=
  .quiet fun {b _ r} h => by
    by_cases hle : n ≤ b.length
    · rw [Decoder.run_advance_of_le hle, Outcome.ok.injEq, Prod.mk.injEq] at h
      rw [← h.2, List.length_drop]
      omega
    · rw [Decoder.run_advance_of_lt (Nat.not_le.mp hle)] at h
      simp at h

/-- Looking at what is left takes nothing. -/
def quietRemaining : Logged 4 0 (Decoder.remaining : Decoder UInt8 XdrError Nat) :=
  .quiet fun {b _ r} h => by
    rw [Decoder.run_remaining, Outcome.ok.injEq, Prod.mk.injEq] at h
    rw [h.2, Nat.zero_add]

/-- The log of an auth body. Only AUTH_SYS has an array. -/
def loggedAuthBody (flavor : UInt32) (bodyLen : Nat) :
    Logged 4 0 (decodeAuthBody flavor bodyLen) :=
  .ite _ (.ite _ ((quietAdvance bodyLen).bind fun _ => .pure _) (.pure _)) <|
    .ite _ (loggedAuthSys.map _) <|
    quietRemaining.bind fun _ => .ite _ (.fail _) ((quietAdvance bodyLen).bind fun _ => .pure _)

/-- The log of an auth flavor: the flavor, the length, and the body. -/
def loggedAuthFlavor : Logged 4 0 (decode : Decoder UInt8 XdrError AuthFlavor) :=
  quietXdr.bind fun (flavor : UInt32) => quietXdr.bind fun (bodyLen : UInt32) =>
    loggedAuthBody flavor bodyLen.toNat

/-- The rest of a buffer is taken as it is. -/
def quietRest : Logged 4 0 decodeRest :=
  .quiet fun {b body r} h => by
    obtain rfl : [] = r := by
      rw [decodeRest, Decoder.run_bind_ok (Decoder.run_remaining b),
        Decoder.run_bind_ok (Decoder.run_splitTo_of_le (Nat.le_refl _)), Decoder.run_pure,
        List.drop_length, Outcome.ok.injEq, Prod.mk.injEq] at h
      exact h.2
    exact Nat.zero_le _

/-- The log of the status of an accepted reply. -/
def loggedAcceptStatus : Logged 4 0 (decode : Decoder UInt8 XdrError AcceptStatus) :=
  quietXdr.bind fun (_ : UInt32) =>
    .ite _ (quietRest.map _) <| .ite _ (.pure _) <|
    .ite _ (quietXdr.bind fun (_ : UInt32) => quietXdr.bind fun (_ : UInt32) => .pure _) <|
    .ite _ (.pure _) <| .ite _ (.pure _) <| .ite _ (.pure _) <| .fail _

/-- The log of a reply message. -/
def loggedRpcReply : Logged 4 0 (decode : Decoder UInt8 XdrError RpcReply) :=
  quietXdr.bind fun (_ : UInt32) => quietXdr.bind fun (_ : UInt32) => .ite _ (.fail _) <|
    quietXdr.bind fun (_ : UInt32) => .ite _ (.fail _) <|
    loggedAuthFlavor.bind fun _ => loggedAcceptStatus.bind fun _ => .pure _

/-- The count of the group ids is behind the machine name, and behind two ids. -/
theorem fits_authSys {b : Bytes} :
    loggedAuthSys.Fits b ↔ (NameAt b 4 → CountFits b (12 + opaqueSpan (b.drop 4))) := by
  have hfields : loggedAuthSys.Fits b ↔
      ∀ r₁, Decoder.EndsAt (decode : Decoder UInt8 XdrError UInt32) b r₁ →
      ∀ r₂, Decoder.EndsAt (decode : Decoder UInt8 XdrError String) r₁ r₂ → CountFits r₂ 8 :=
    fits_field fun _ _ => fits_field fun _ _ => fits_fixed fixed_word fun _ _ =>
      fits_fixed fixed_word fun _ _ => fits_bind_pure.trans fits_words
  have hids : 4 + (opaqueSpan (b.drop 4) + 8) = 12 + opaqueSpan (b.drop 4) := by omega
  rw [hfields, fixed_word.forall_endsAt, forall_endsAt_iff fun r => endsAt_name, nameAt_drop,
    countFits_drop, countFits_drop, List.length_drop, hids]
  exact ⟨fun h hname hle => h (by omega) (by omega) hname hle, fun h _ _ hname => h hname⟩

/-- Only the body of an AUTH_SYS auth has a count. -/
theorem fits_authBody {flavor : UInt32} {bodyLen : Nat} {b : Bytes} :
    (loggedAuthBody flavor bodyLen).Fits b ↔
      (flavor = AUTH_SYS → NameAt b 4 → CountFits b (12 + opaqueSpan (b.drop 4))) := by
  have hskip : ((quietAdvance bodyLen).bind fun _ =>
      Logged.pure (w := 4) (ε := XdrError) AuthFlavor.none).Fits b :=
    fits_bind_pure.mpr (fits_of_log_nil rfl)
  have harms : (loggedAuthBody flavor bodyLen).Fits b ↔ _ := fits_ite
  rw [harms, fits_ite, fits_ite, fits_map, fits_authSys]
  constructor
  · rintro ⟨-, h⟩ rfl
    exact (h (by decide)).1 rfl
  · intro hsys
    refine ⟨fun _ => ⟨fun _ => hskip, fun _ => fits_pure⟩, fun _ => ⟨hsys, fun _ => ?_⟩⟩
    refine fits_bind.mpr ⟨fits_of_log_nil rfl, fun _ r hr => ?_⟩
    obtain rfl : b = r := by
      rw [Decoder.run_remaining, Outcome.ok.injEq, Prod.mk.injEq] at hr
      exact hr.2
    exact fits_ite.mpr ⟨fun _ => fits_fail, fun _ => hskip⟩

/-- The flavor and the length come before the body. -/
theorem fits_authFlavor {b : Bytes} :
    loggedAuthFlavor.Fits b ↔
      (wordAt b 0 = 1 → NameAt b 12 → CountFits b (20 + opaqueSpan (b.drop 12))) := by
  have hbody : ∀ (flavor : UInt32) s, (quietXdr.bind fun (bodyLen : UInt32) =>
      loggedAuthBody flavor bodyLen.toNat).Fits s ↔ (4 ≤ s.length → flavor = AUTH_SYS →
        NameAt s 8 → CountFits s (16 + opaqueSpan (s.drop 8))) := by
    intro flavor s
    have hfield : (quietXdr.bind fun (bodyLen : UInt32) =>
        loggedAuthBody flavor bodyLen.toNat).Fits s ↔ _ :=
      fits_field fun (bodyLen : UInt32) r => fits_authBody
    rw [hfield, fixed_word.forall_endsAt, nameAt_drop, countFits_drop, List.drop_drop,
      ← Nat.add_assoc]
  have hbind : loggedAuthFlavor.Fits b ↔ _ := fits_bind
  rw [hbind, and_iff_right fits_quietXdr]
  simp only [hbody]
  constructor
  · intro h hsys hname hle
    have hflavor := h _ _ (run_decodeWord_eq_ok.mpr ⟨by omega, rfl, rfl⟩)
    rw [List.length_drop, nameAt_drop, countFits_drop, List.drop_drop, ← Nat.add_assoc] at hflavor
    exact hflavor (by omega) ((word_eq_iff b 0 AUTH_SYS).mpr hsys) hname hle
  · intro h flavor r hrun
    obtain ⟨-, rfl, rfl⟩ := run_decodeWord_eq_ok.mp hrun
    rw [nameAt_drop, countFits_drop, List.drop_drop, ← Nat.add_assoc]
    exact fun _ hsys => h ((word_eq_iff b 0 AUTH_SYS).mp hsys)

/-- The status of an accepted reply has no arrays. -/
theorem fits_acceptStatus {b : Bytes} : loggedAcceptStatus.Fits b := by
  refine fits_bind.mpr ⟨fits_quietXdr, fun _ r _ => ?_⟩
  -- The results of a successful call are handed on as they are, without a count.
  refine fits_ite.mpr ⟨fun _ => fits_of_log_nil rfl, fun _ => ?_⟩
  refine fits_ite.mpr ⟨fun _ => fits_pure, fun _ => ?_⟩
  refine fits_ite.mpr ⟨fun _ => ?_, fun _ => ?_⟩
  · exact fits_bind.mpr ⟨fits_quietXdr, fun _ _ _ => fits_bind_pure.mpr fits_quietXdr⟩
  · refine fits_ite.mpr ⟨fun _ => fits_pure, fun _ => ?_⟩
    refine fits_ite.mpr ⟨fun _ => fits_pure, fun _ => ?_⟩
    exact fits_ite.mpr ⟨fun _ => fits_pure, fun _ => fits_fail⟩

/-- A word that must be `c`, and then what follows it. -/
theorem fits_guard {α : Type} {c : UInt32} {e : UInt32 → XdrError} {d : Decoder UInt8 XdrError α}
    {x : Logged 4 0 d} {b : Bytes} :
    (quietXdr.bind fun (word : UInt32) => Logged.ite (word ≠ c) (fail (e word)) x).Fits b ↔
      (4 ≤ b.length → wordAt b 0 = c.toNat → x.Fits (b.drop 4)) := by
  rw [fits_bind, and_iff_right fits_quietXdr]
  simp only [fits_ite, fits_fail, implies_true, true_and, not_not]
  constructor
  · exact fun h hle hword =>
      h _ _ (run_decodeWord_eq_ok.mpr ⟨hle, rfl, rfl⟩) ((word_eq_iff b 0 c).mpr hword)
  · rintro h _ _ hrun hword
    obtain ⟨hle, rfl, rfl⟩ := run_decodeWord_eq_ok.mp hrun
    exact h hle ((word_eq_iff b 0 c).mp hword)

/-- The group count of the verifier. -/
def VerifierFits (b : Bytes) : Prop :=
  AcceptsReply b → wordAt b 12 = 1 → NameAt b 24 → CountFits b (32 + opaqueSpan (b.drop 24))

/-- A reply message has one array, in an AUTH_SYS verifier. -/
theorem fits_rpcReply {b : Bytes} : loggedRpcReply.Fits b ↔ VerifierFits b := by
  have hverf : ∀ (xid : UInt32) s, (loggedAuthFlavor.bind fun verf =>
      loggedAcceptStatus.bind fun status => Logged.pure (w := 4) (ε := XdrError)
        ({ xid, verf, status } : RpcReply)).Fits s ↔
      (wordAt s 0 = 1 → NameAt s 12 → CountFits s (20 + opaqueSpan (s.drop 12))) :=
    fun _ _ => (fits_bind.trans (and_iff_left fun _ _ _ =>
      fits_bind_pure.mpr fits_acceptStatus)).trans fits_authFlavor
  have hfields : loggedRpcReply.Fits b ↔
      ∀ r, Decoder.EndsAt (decode : Decoder UInt8 XdrError UInt32) b r →
        4 ≤ r.length → wordAt r 0 = 1 → 4 ≤ (r.drop 4).length → wordAt (r.drop 4) 0 = 0 →
        wordAt ((r.drop 4).drop 4) 0 = 1 → NameAt ((r.drop 4).drop 4) 12 →
        CountFits ((r.drop 4).drop 4) (20 + opaqueSpan (((r.drop 4).drop 4).drop 12)) :=
    fits_field fun xid _ => fits_guard.trans <| forall_congr' fun _ => forall_congr' fun _ =>
      fits_guard.trans <| forall_congr' fun _ => forall_congr' fun _ => hverf xid _
  rw [hfields, fixed_word.forall_endsAt, VerifierFits, AcceptsReply]
  simp only [List.drop_drop, List.length_drop, wordAt_drop, nameAt_drop, countFits_drop,
    Nat.reduceAdd, Nat.add_zero]
  have hids : 12 + (20 + opaqueSpan (b.drop 24)) = 32 + opaqueSpan (b.drop 24) := by omega
  rw [hids]
  constructor
  · rintro h ⟨hlen, htype, hstat⟩
    exact h (by omega) (by omega) htype (by omega) hstat
  · exact fun h _ _ htype _ hstat hsys hname hle => h ⟨by omega, htype, hstat⟩ hsys hname hle

/-- **Array counts.** Every array that a decoder of replies enters has a count of at most the
bytes that are left, exactly when every count word that is reached is at most the bytes behind
it: the count of the results, the counts in the results with status `Ok`, and the group count
of an AUTH_SYS verifier. -/
theorem counts_fit_iff (b : Bytes) :
    (loggedCompound4res.Fits b ↔ ReplyFits b) ∧ (loggedRpcReply.Fits b ↔ VerifierFits b) :=
  ⟨fits_compound4res, fits_rpcReply⟩

/-- A reply of 12 bytes announces 2^32 - 1 results, and a verifier of 20 bytes as many
groups. Both arrays are entered. -/
theorem counts_not_fit :
    ¬ loggedCompound4res.Fits ([0, 0, 0, 0, 0, 0, 0, 0] ++ List.replicate 4 255) ∧
    ¬ loggedRpcReply.Fits ([0, 0, 0, 9, 0, 0, 0, 1, 0, 0, 0, 0, 0, 0, 0, 1, 0, 0, 0, 20] ++
      List.replicate 16 0 ++ List.replicate 4 255) := by
  refine ⟨fun h => ?_, fun h => ?_⟩
  · exact absurd (h (2 ^ 32 - 1) 0 (by decide)) (by decide)
  · exact absurd (h (2 ^ 32 - 1) 0 (by decide)) (by decide)

end NfsMount.OncRpc
