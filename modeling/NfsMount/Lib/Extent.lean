import Mathlib.Data.List.Basic

/-!
# `NfsMount.Lib.Extent`: reading and overwriting ranges of a file

A file is a list. `extent f off len` is what a read of `len` elements at `off` returns, cut
at the end of the file. `overwrite fill f off d` is the file after a write of `d` at `off`.
A write behind the end of the file fills the gap, and a write of nothing changes nothing.

Two facts carry the buffers that are built on them: a range of a range is a range
(`extent_extent`), and a write followed by a write behind it is one write
(`overwrite_append`).
-/

set_option autoImplicit false

namespace NfsMount.Lib

variable {α : Type}

/-- The elements of `f` at `off`, `len` of them unless the file ends before. -/
def extent (f : List α) (off len : Nat) : List α := (f.drop off).take len

/-- The file `f` after `d` was written at `off`. -/
def overwrite (fill : α) (f : List α) (off : Nat) (d : List α) : List α :=
  if d.isEmpty then f
  else f.take off ++ List.replicate (off - f.length) fill ++ d ++ f.drop (off + d.length)

/-- A range of a range of a file is a range of the file. -/
theorem extent_extent (f : List α) {off len start n : Nat} (h : start + n ≤ len) :
    extent (extent f off len) start n = extent f (off + start) n := by
  rw [extent, extent, extent, List.drop_take, List.take_take, List.drop_drop,
    Nat.min_eq_left (by omega)]

/-- Two ranges that lie one behind the other. -/
theorem extent_append (f : List α) (off n k : Nat) :
    extent f off n ++ extent f (off + n) k = extent f off (n + k) := by
  rw [extent, extent, extent, List.take_add, List.drop_drop]

variable (fill : α) (f : List α) (off : Nat)

/-- Writing nothing leaves the file. -/
@[simp] theorem overwrite_nil : overwrite fill f off [] = f := rfl

/-- A write keeps what is before and behind it, and fills a gap. -/
theorem overwrite_of_ne_nil {d : List α} (h : d ≠ []) :
    overwrite fill f off d =
      f.take off ++ List.replicate (off - f.length) fill ++ d ++ f.drop (off + d.length) := by
  rw [overwrite, List.isEmpty_eq_false_iff.mpr h, if_neg Bool.false_ne_true]

/-- What stands before the written range. -/
theorem length_take_replicate :
    (f.take off ++ List.replicate (off - f.length) fill).length = off := by
  rw [List.length_append, List.length_take, List.length_replicate]
  omega

/-- **Coalescing.** Two adjacent writes are one write. -/
theorem overwrite_append (d e : List α) :
    overwrite fill (overwrite fill f off d) (off + d.length) e = overwrite fill f off (d ++ e) := by
  by_cases hd : d = []
  · subst hd
    rfl
  by_cases he : e = []
  · subst he
    rw [overwrite_nil, List.append_nil]
  have hbefore := length_take_replicate fill f off
  have hde : d ++ e ≠ [] := fun h => hd (List.append_eq_nil_iff.mp h).1
  rw [overwrite_of_ne_nil fill f off hd, overwrite_of_ne_nil fill _ _ he,
    overwrite_of_ne_nil fill f off hde]
  generalize f.take off ++ List.replicate (off - f.length) fill = before at hbefore ⊢
  -- The first write reaches up to the second one, so there is no gap to fill.
  have hlen : (before ++ d).length = off + d.length := by rw [List.length_append, hbefore]
  have hgap : off + d.length - (before ++ d ++ f.drop (off + d.length)).length = 0 := by
    rw [List.length_append, hlen]
    omega
  rw [List.take_left' hlen, hgap, List.replicate_zero, List.append_nil, ← List.drop_drop,
    List.drop_left' hlen, List.drop_drop, List.length_append, ← Nat.add_assoc, List.append_assoc,
    List.append_assoc, List.append_assoc, List.append_assoc]

end NfsMount.Lib
