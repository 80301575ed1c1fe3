import Mathlib.Data.List.Basic

/-!
# `NfsMount.Lib.Clock`: durations, and histories on a clock

A duration is a number of nanoseconds. A history is a list of operations with the times at
which they are done, and `Clocked` says that its clock never goes back.
-/

set_option autoImplicit false

namespace NfsMount.Lib

/-- `std::time::Duration`. -/
abbrev Duration := Nat

/-- `Duration::from_secs`. -/
def fromSecs (secs : Nat) : Duration := secs * 1000000000

/-- An operation, and the time at which it is done. -/
structure At (α : Type) where
  now : Nat
  op : α

/-- The clock never goes back in the history, and has not gone back since. -/
def Clocked {α : Type} (history : List (At α)) (now : Nat) : Prop :=
  (history.map At.now ++ [now]).Pairwise (· ≤ ·)

/-- The history before its last event, and that event, are in the past. -/
theorem Clocked.append {α : Type} {history : List (At α)} {e : At α} {now : Nat}
    (h : Clocked (history ++ [e]) now) : Clocked history e.now ∧ e.now ≤ now := by
  rw [Clocked, List.map_append, List.map_singleton, List.pairwise_append] at h
  exact ⟨h.1, h.2.2 e.now (by simp) now (by simp)⟩

/-- The clock of a history is that of its operations seen another way. -/
theorem Clocked.map {α β : Type} {f : At α → At β} (hf : ∀ e, (f e).now = e.now)
    {history : List (At α)} {now : Nat} (h : Clocked history now) :
    Clocked (history.map f) now := by
  rw [Clocked, List.map_map]
  rwa [Clocked, ← List.map_congr_left fun e _ => hf e] at h

end NfsMount.Lib
