import Mathlib.Data.UInt
import Mathlib.Tactic.Ring

/-!
# `NfsMount.Lib.BigEndian`: fixed-width big-endian numbers

`beBytes w n` is the number `n` in `w` bytes, most significant byte first. `ofBE` reads the
bytes back. The two are inverse on numbers below `256 ^ w` and on lists of `w` bytes.
-/

set_option autoImplicit false

namespace NfsMount.Lib

/-- The `w` low bytes of `n`, most significant first. -/
def beBytes : Nat → Nat → List UInt8
  | 0, _ => []
  | w + 1, n => UInt8.ofNat (n / 256 ^ w) :: beBytes w n

/-- The number whose big-endian bytes are `bs`. -/
def ofBE : List UInt8 → Nat
  | [] => 0
  | b :: bs => b.toNat * 256 ^ bs.length + ofBE bs

/-- `w` bytes are `w` bytes. -/
@[simp] theorem length_beBytes (w n : Nat) : (beBytes w n).length = w := by
  induction w with
  | zero => rfl
  | succ w ih => rw [beBytes, List.length_cons, ih]

/-- A number of some bytes is below the next power. -/
theorem ofBE_lt (bs : List UInt8) : ofBE bs < 256 ^ bs.length := by
  induction bs with
  | nil => decide
  | cons b bs ih =>
      have hb : b.toNat + 1 ≤ 256 := b.toNat_lt
      have hmul : (b.toNat + 1) * 256 ^ bs.length ≤ 256 * 256 ^ bs.length :=
        Nat.mul_le_mul_right _ hb
      rw [ofBE, List.length_cons, Nat.pow_succ, Nat.mul_comm (256 ^ bs.length)]
      rw [Nat.add_mul, Nat.one_mul] at hmul
      omega

/-- Only the low `w` bytes of the number matter. -/
theorem beBytes_add_mul (w n m : Nat) : beBytes w (n + m * 256 ^ w) = beBytes w n := by
  induction w generalizing m with
  | zero => rfl
  | succ w ih =>
      have hpow : m * 256 ^ (w + 1) = m * 256 * 256 ^ w := by rw [Nat.pow_succ]; ring
      have hdiv : (n + m * 256 * 256 ^ w) / 256 ^ w = n / 256 ^ w + m * 256 :=
        Nat.add_mul_div_right _ _ (Nat.pow_pos (by decide))
      -- The top byte is taken modulo 256, so a multiple of it does not show.
      have hbyte : UInt8.ofNat (n / 256 ^ w + m * 256) = UInt8.ofNat (n / 256 ^ w) := by
        apply UInt8.toNat_inj.mp
        simp only [UInt8.toNat_ofNat']
        omega
      rw [hpow, beBytes, beBytes, hdiv, hbyte, ih]

/-- The bytes of a number that fits are the number. -/
theorem ofBE_beBytes {w n : Nat} (h : n < 256 ^ w) : ofBE (beBytes w n) = n := by
  induction w generalizing n with
  | zero =>
      have hn : n = 0 := by simpa using h
      rw [hn]
      rfl
  | succ w ih =>
      have hdiv : n / 256 ^ w < 256 := by
        rw [Nat.div_lt_iff_lt_mul (Nat.pow_pos (by decide)), Nat.mul_comm]
        rwa [Nat.pow_succ] at h
      have hmod : beBytes w n = beBytes w (n % 256 ^ w) := by
        conv_lhs => rw [← Nat.mod_add_div n (256 ^ w), Nat.mul_comm (256 ^ w)]
        exact beBytes_add_mul w _ _
      rw [beBytes, ofBE, length_beBytes, hmod, ih (Nat.mod_lt _ (Nat.pow_pos (by decide))),
        UInt8.toNat_ofNat', Nat.mod_eq_of_lt hdiv, Nat.mul_comm]
      exact Nat.div_add_mod n (256 ^ w)

/-- The number of a byte list has that list as its bytes. -/
theorem beBytes_ofBE (bs : List UInt8) : beBytes bs.length (ofBE bs) = bs := by
  induction bs with
  | nil => rfl
  | cons b bs ih =>
      have hlt := ofBE_lt bs
      have hdiv : (b.toNat * 256 ^ bs.length + ofBE bs) / 256 ^ bs.length = b.toNat := by
        rw [Nat.add_comm, Nat.add_mul_div_right _ _ (Nat.pow_pos (by decide)), Nat.div_eq_of_lt hlt,
          Nat.zero_add]
      rw [List.length_cons, beBytes, ofBE, hdiv, Nat.add_comm, beBytes_add_mul, ih,
        UInt8.ofNat_toNat]

/-- The 4-byte number at offset `i`. -/
def wordAt (b : List UInt8) (i : Nat) : Nat := ofBE ((b.drop i).take 4)

/-- A word has 32 bits. -/
theorem wordAt_lt (b : List UInt8) (i : Nat) : wordAt b i < 2 ^ 32 :=
  Nat.lt_of_lt_of_le (ofBE_lt _)
    (Nat.pow_le_pow_right (by decide) (List.length_take_le 4 _) : _ ≤ 256 ^ 4)

/-- A word behind the first `i` bytes. -/
theorem wordAt_drop (b : List UInt8) (i j : Nat) : wordAt (b.drop i) j = wordAt b (i + j) := by
  rw [wordAt, wordAt, List.drop_drop]

end NfsMount.Lib
