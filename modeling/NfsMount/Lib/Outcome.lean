import Mathlib.Data.UInt

/-!
# `NfsMount.Lib.Outcome`: fallible calls and machine arithmetic

A call in a language with recoverable errors and panics ends in one of three
ways. `Outcome ε α` names them: `ok` returns a value, `err` returns a recoverable
error, and `panic` abandons the call. `Outcome ε` is a lawful monad, and the bind
lemmas below say when a sequence of calls ends in each of the three ways.

`Build` names the two arithmetic modes of a compiler that can check overflow.
`Build.checked` panics when a result leaves the machine range, and `Build.release`
wraps. The operations return `Option`, and `none` stands for the panic.
-/

set_option autoImplicit false

namespace NfsMount.Lib

/-- The three ways a call can end. -/
inductive Outcome (ε α : Type) where
  | ok (a : α)
  | err (e : ε)
  | panic
deriving DecidableEq, Repr

namespace Outcome

variable {ε α β : Type}

/-- Sequencing: the second call runs only when the first returns a value. -/
def bind (x : Outcome ε α) (f : α → Outcome ε β) : Outcome ε β :=
  match x with
  | ok a => f a
  | err e => err e
  | panic => panic

instance : Monad (Outcome ε) where
  pure := ok
  bind := bind

instance : LawfulMonad (Outcome ε) :=
  LawfulMonad.mk' (Outcome ε) (fun x => by cases x <;> rfl) (fun _ _ => rfl)
    (fun x _ _ => by cases x <;> rfl)

/-- Behind a value the computation goes on. -/
@[simp] theorem ok_bind (a : α) (f : α → Outcome ε β) : (ok a >>= f) = f a := rfl

/-- Behind an error it does not. -/
@[simp] theorem err_bind (e : ε) (f : α → Outcome ε β) :
    ((err e : Outcome ε α) >>= f) = err e := rfl

/-- Behind a panic it does not. -/
@[simp] theorem panic_bind (f : α → Outcome ε β) :
    ((panic : Outcome ε α) >>= f) = panic := rfl

/-- A sequence returns a value exactly when both calls do. -/
theorem bind_eq_ok {x : Outcome ε α} {f : α → Outcome ε β} {b : β} :
    x >>= f = ok b ↔ ∃ a, x = ok a ∧ f a = ok b := by
  cases x with
  | ok a => simp
  | err e => simp
  | panic => simp

/-- A sequence panics exactly when the first call panics, or the second does on
the value of the first. -/
theorem bind_eq_panic {x : Outcome ε α} {f : α → Outcome ε β} :
    x >>= f = panic ↔ x = panic ∨ ∃ a, x = ok a ∧ f a = panic := by
  cases x with
  | ok a => simp
  | err e => simp
  | panic => simp

end Outcome

/-! ### Machine arithmetic in the two build modes -/

/-- The arithmetic mode of a build. -/
inductive Build where
  /-- An operation that leaves the machine range panics. -/
  | checked
  /-- An operation that leaves the machine range wraps. -/
  | release
deriving DecidableEq, Repr

namespace Build

/-- 64-bit addition. -/
def addU64 (m : Build) (x y : UInt64) : Option UInt64 :=
  match m with
  | checked => if x.toNat + y.toNat < 2 ^ 64 then some (x + y) else none
  | release => some (x + y)

/-- 64-bit subtraction. -/
def subU64 (m : Build) (x y : UInt64) : Option UInt64 :=
  match m with
  | checked => if y ≤ x then some (x - y) else none
  | release => some (x - y)

/-- 64-bit multiplication. -/
def mulU64 (m : Build) (x y : UInt64) : Option UInt64 :=
  match m with
  | checked => if x.toNat * y.toNat < 2 ^ 64 then some (x * y) else none
  | release => some (x * y)

/-- 32-bit addition. -/
def addU32 (m : Build) (x y : UInt32) : Option UInt32 :=
  match m with
  | checked => if x.toNat + y.toNat < 2 ^ 32 then some (x + y) else none
  | release => some (x + y)

/-- When it does not panic, 32-bit addition wraps in both modes. -/
theorem addU32_eq_some {m : Build} {x y z : UInt32} (h : m.addU32 x y = some z) :
    z = x + y := by
  cases m with
  | checked =>
      rw [addU32] at h
      split at h
      · exact (Option.some.inj h).symm
      · simp at h
  | release => exact (Option.some.inj h).symm

/-- In range, addition is exact in both modes. -/
theorem addU64_of_lt (m : Build) {x y : UInt64} (h : x.toNat + y.toNat < 2 ^ 64) :
    m.addU64 x y = some (x + y) := by
  cases m with
  | checked => simp only [addU64, if_pos h]
  | release => rfl

/-- Addition panics in a checked build, when it leaves the range. -/
theorem addU64_eq_none_iff {m : Build} {x y : UInt64} :
    m.addU64 x y = none ↔ m = .checked ∧ 2 ^ 64 ≤ x.toNat + y.toNat := by
  cases m with
  | checked => simp [addU64]
  | release => simp [addU64]

/-- A product panics in a checked build when it leaves the range. -/
theorem mulU64_eq_none_iff {m : Build} {x y : UInt64} :
    m.mulU64 x y = none ↔ m = .checked ∧ 2 ^ 64 ≤ x.toNat * y.toNat := by
  cases m with
  | checked => simp [mulU64]
  | release => simp [mulU64]

/-- When it does not panic, addition wraps in both modes. -/
theorem addU64_eq_some {m : Build} {x y z : UInt64} (h : m.addU64 x y = some z) :
    z = x + y := by
  cases m with
  | checked =>
      rw [addU64] at h
      split at h
      · exact (Option.some.inj h).symm
      · simp at h
  | release => exact (Option.some.inj h).symm

/-- Without a borrow, subtraction is exact in both modes. -/
theorem subU64_of_le (m : Build) {x y : UInt64} (h : y ≤ x) :
    m.subU64 x y = some (x - y) := by
  cases m with
  | checked => simp only [subU64, if_pos h]
  | release => rfl

end Build

end NfsMount.Lib
