import NfsMount.Lib.Loop
import NfsMount.Nfs4Types.Base

/-!
# `NfsMount.Nfs4Types.Bitmap`: setting and reading attribute bits

The model of the methods of `Bitmap4` in `nfs4-types/src/bitmap.rs`. Attribute number `bit` is
bit `bit % 32` of word `bit / 32`.
-/

set_option autoImplicit false

namespace NfsMount.Nfs4Types

open NfsMount.Lib

namespace Bitmap4

/-- No bit is set. -/
def new : Bitmap4 where
  words := []

/-- One turn of the loop that extends the words up to `word`. -/
def extendTurn (word : Nat) (words : List UInt32) : Turn (List UInt32) (List UInt32) :=
  if words.length ≤ word then .next (words ++ [0]) else .done words

/-- The loop ends, as every turn adds a word. -/
theorem extendTurn_decreases (word : Nat) :
    Loop.Decreases (extendTurn word) fun words => word + 1 - words.length := by
  intro words words' h
  rw [extendTurn] at h
  by_cases hle : words.length ≤ word
  · rw [if_pos hle] at h
    obtain rfl := Turn.next.inj h
    show word + 1 - (words ++ [0]).length < word + 1 - words.length
    rw [List.length_append, List.length_singleton]
    omega
  · rw [if_neg hle] at h
    cases h

/-- `while self.0.len() <= word { self.0.push(0) }`. -/
def extend (word : Nat) (words : List UInt32) : List UInt32 :=
  Loop.run (extendTurn word) (fun words => word + 1 - words.length) (extendTurn_decreases word)
    words

/-- Set a bit in the bitmap, extending if necessary. -/
def set (b : Bitmap4) (bit : UInt32) : Bitmap4 :=
  let word := (bit / 32).toNat
  let pos := bit % 32
  -- The index is in range, as the words have been extended.
  { words := (extend word b.words).modify word fun w => w ||| (1 <<< pos) }

/-- Check if a bit is set. -/
def isSet (b : Bitmap4) (bit : UInt32) : Bool :=
  let word := (bit / 32).toNat
  let pos := bit % 32
  match b.words[word]? with
  | none => false
  | some w => (w >>> pos) &&& 1 == 1

/-- The loop fills up with zeros. -/
theorem extend_eq (word : Nat) (words : List UInt32) :
    extend word words = words ++ List.replicate (word + 1 - words.length) 0 := by
  apply Loop.run_induct (extendTurn_decreases word)
    (P := fun s b => b = s ++ List.replicate (word + 1 - s.length) 0)
  · intro s b h
    rw [extendTurn] at h
    by_cases hle : s.length ≤ word
    · rw [if_pos hle] at h
      cases h
    · rw [if_neg hle] at h
      obtain rfl := Turn.done.inj h
      rw [Nat.sub_eq_zero_of_le (Nat.lt_of_not_le hle), List.replicate_zero, List.append_nil]
  · intro s s' b h ih
    rw [extendTurn] at h
    by_cases hle : s.length ≤ word
    · rw [if_pos hle] at h
      obtain rfl := Turn.next.inj h
      have hcount : word + 1 - s.length = word + 1 - (s ++ [0]).length + 1 := by
        rw [List.length_append, List.length_singleton]
        omega
      rw [ih, hcount, List.replicate_succ, List.append_assoc]
      rfl
    · rw [if_neg hle] at h
      cases h

/-- The bitmap has the word then. -/
theorem lt_length_extend (word : Nat) (words : List UInt32) :
    word < (extend word words).length := by
  rw [extend_eq, List.length_append, List.length_replicate]
  omega

end Bitmap4

end NfsMount.Nfs4Types
