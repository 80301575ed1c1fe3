import NfsMount.Lib.Clock

/-!
# `NfsMount.Lib.Interval`: timers that tick at an interval

The timer of a task is a `tokio::time::Interval`. Its code is not modelled: `IntervalTimer` names
what a task does with it, on any type of timers. `Burst` is what is documented of a timer that is
set up by default, where a tick that is taken late does not move the ones behind it, so that
these may be due at once. A result about a task asks for that where it needs it.

`Schedule` is one timer of that kind, for the runs on fixed inputs.
-/

set_option autoImplicit false

namespace NfsMount.Lib

/-- What a task does with a timer. -/
class IntervalTimer (τ : Type) where
  /-- `interval(period)` at this time, where `none` stands for a panic. -/
  interval : Nat → Duration → Option τ
  /-- The next instant of the interval, from which on `tick()` completes. -/
  next : τ → Nat
  /-- The timer, when `tick()` completed at this time. -/
  ticked : τ → Nat → τ

namespace IntervalTimer

variable {τ : Type} [IntervalTimer τ]

/-- A timer that was made at `start`, and whose `tick()` completed `n` times. -/
inductive Ticked (start : Nat) (period : Duration) : Nat → τ → Prop
  | interval {t : τ} (h : interval start period = some t) : Ticked start period 0 t
  | tick {n : Nat} {t : τ} {now : Nat} (h : Ticked start period n t) (hdue : next t ≤ now) :
      Ticked start period (n + 1) (ticked t now)

/-- `MissedTickBehavior::Burst`, the default. The first tick is due at once, and each other one a
period behind the last, however late that one was taken. -/
class Burst (τ : Type) [IntervalTimer τ] : Prop where
  next_eq : ∀ {start : Nat} {period : Duration} {n : Nat} {t : τ}, Ticked start period n t →
    next t = start + n * period

/-- A timer with this period. -/
def HasPeriod (period : Duration) (t : τ) : Prop := ∃ start n, Ticked start period n t

/-- A timer after some ticks has the period it was set to. -/
theorem Ticked.hasPeriod {start n : Nat} {period : Duration} {t : τ} (h : Ticked start period n t) :
    HasPeriod period t := ⟨start, n, h⟩

/-- A tick that is taken. -/
theorem HasPeriod.ticked {period : Duration} {t : τ} {now : Nat} (h : HasPeriod period t)
    (hdue : next t ≤ now) : HasPeriod period (ticked t now) := by
  obtain ⟨start, n, h⟩ := h
  exact ⟨start, n + 1, h.tick hdue⟩

/-- The next tick is due a period behind one that is taken. -/
theorem HasPeriod.next_ticked [Burst τ] {period : Duration} {t : τ} {now : Nat}
    (h : HasPeriod period t) (hdue : next t ≤ now) :
    next (IntervalTimer.ticked t now) = next t + period := by
  obtain ⟨start, n, h⟩ := h
  rw [Burst.next_eq h, Burst.next_eq (h.tick hdue), Nat.succ_mul, Nat.add_assoc]

end IntervalTimer

/-- A timer that keeps its next instant, and its period. -/
structure Schedule where
  next : Nat
  period : Duration
deriving DecidableEq

namespace Schedule

instance : IntervalTimer Schedule where
  interval now period := if period = 0 then none else some ⟨now, period⟩
  next t := t.next
  ticked t _ := { t with next := t.next + t.period }

/-- A schedule after `n` ticks is known. -/
theorem eq_of_ticked {start n : Nat} {period : Duration} {t : Schedule}
    (h : IntervalTimer.Ticked start period n t) : t = ⟨start + n * period, period⟩ := by
  induction h with
  | interval h =>
      change (if period = 0 then none else some _) = _ at h
      split at h
      · cases h
      · rw [Nat.zero_mul, Nat.add_zero]
        exact (Option.some.inj h).symm
  | tick h hdue ih =>
      subst ih
      show Schedule.mk _ _ = _
      rw [Nat.succ_mul, Nat.add_assoc]

instance : IntervalTimer.Burst Schedule where
  next_eq h := by rw [eq_of_ticked h]; rfl

end Schedule

end NfsMount.Lib
