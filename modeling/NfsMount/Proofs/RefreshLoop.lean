import NfsMount.AwsCreds.RefreshLoop
import NfsMount.Lib.Run

/-!
# `NfsMount.Proofs.RefreshLoop`: the refresh task keeps the cache fresh

The task refreshes credentials that are within 10 minutes of expiry, and a `resolve` goes to the
provider when they are within 5. In between the task has 5 minutes. Its turns are at most a
`turnGap` apart, and each refresh that fails costs one more. So while no more than `f` of them
fail in a row and `f + 1` gaps fit in the 5 minutes, a `resolve` never waits for the provider
(`cache_stays_fresh`), and the loop never comes to its own backoff.
-/

set_option autoImplicit false

namespace NfsMount.AwsCreds

open NfsMount.Lib

/-! ### Credentials and their expiry -/

/-- Credentials that are valid until this time at least. -/
def ResolvedCredentials.LastsUntil (creds : ResolvedCredentials) (t : Nat) : Prop :=
  ∀ expiry ∈ creds.expiry, t ≤ expiry

/-- Enough time is left when the expiry is far enough ahead. -/
theorem remaining_lt_eq_false {expiry now d : Nat} (hd : 0 < d) :
    decide (remaining expiry now < d) = false ↔ now + d ≤ expiry := by
  rw [decide_eq_false_iff_not]
  show ¬ expiry - now < d ↔ _
  omega

/-- Credentials are not due when they last for 10 minutes more. -/
theorem refreshDue_eq_false {now : Nat} {creds : ResolvedCredentials} :
    refreshDue now creds = false ↔ creds.LastsUntil (now + fromSecs 600) := by
  rw [refreshDue, ResolvedCredentials.LastsUntil]
  cases creds.expiry with
  | none => simp
  | some expiry => simpa using remaining_lt_eq_false (d := fromSecs 600) (by decide)

/-- Credentials have not expired when they last for 5 minutes more. -/
theorem isExpired_eq_false {now : Nat} {creds : ResolvedCredentials} :
    isExpired now creds = false ↔ creds.LastsUntil (now + fromSecs 300) := by
  rw [isExpired, ResolvedCredentials.LastsUntil]
  cases creds.expiry with
  | none => simp
  | some expiry => simpa using remaining_lt_eq_false (d := fromSecs 300) (by decide)

/-- Seconds add up. -/
theorem add_fromSecs_add (t a b : Nat) :
    t + fromSecs (a + b) = t + fromSecs a + fromSecs b := by
  rw [fromSecs, Nat.add_mul]
  exact (Nat.add_assoc _ _ _).symm

namespace RefreshTask

open IntervalTimer (next HasPeriod Burst)

variable {τ : Type} {p : RefreshPace} {period : Nat} {s t : RefreshTask τ} {e : RefreshEvent}

/-- What is stored is not due for a refresh yet. -/
def Fresh (s : RefreshTask τ) : RefreshEvent → Prop
  | .answer (.ok creds) => refreshDue s.now (.ofCredentials creds) = false
  | .stored creds => refreshDue s.now creds = false
  | _ => True

instance (s : RefreshTask τ) : (e : RefreshEvent) → Decidable (Fresh s e)
  | .answer (.ok creds) =>
      inferInstanceAs (Decidable (refreshDue s.now (.ofCredentials creds) = false))
  | .stored creds => inferInstanceAs (Decidable (refreshDue s.now creds = false))
  | .answer (.error _) | .elapse _ | .tick | .wake | .shutdown => isTrue trivial

/-- Credentials that are not due are noted. -/
theorem noted_of_fresh {creds : ResolvedCredentials} (h : refreshDue s.now creds = false) :
    s.noted creds = { s with good := s.now, failed := 0 } := by
  rw [noted, if_neg (by simp [h])]

variable [IntervalTimer τ]

/-- The turns of the loop are no further apart, from one tick to the next. -/
def turnGap (p : RefreshPace) (period : Nat) : Nat := max period p.fetch + p.late

/-- Where the loop stands in a turn, as long as `resolve` finds its credentials in the cache. -/
def InTurn (p : RefreshPace) (period : Nat) (s : RefreshTask τ) : RefreshPhase → Prop
  | .waiting since => next s.timer ≤ s.checked + period ∧
      since ≤ s.checked + max period p.fetch ∧ s.checked ≤ s.good + s.failed * turnGap p period
  | .refreshing since => next s.timer ≤ s.checked + period ∧ since = s.checked ∧
      s.checked ≤ s.good + (s.failed + 1) * turnGap p period
  | .resolving _ | .sleeping _ => False
  | .ended => True

/-- What holds between two events, up to the age of the cached credentials. -/
structure Inv (p : RefreshPace) (period : Nat) (s : RefreshTask τ) : Prop where
  hasPeriod : HasPeriod period s.timer
  punctual : Punctual p s
  checked_le : s.checked ≤ s.now
  cached : ∃ creds, s.shared.cached = some creds ∧ creds.LastsUntil (s.good + fromSecs 600)
  turn : InTurn p period s s.phase

/-- While the loop runs, it was not long ago that the credentials were good. -/
theorem Inv.now_le (hs : Inv p period s) (hphase : s.phase ≠ .ended) :
    s.now ≤ s.good + (s.failed + 1) * turnGap p period + p.fetch := by
  have hlimit := hs.punctual
  have hturn := hs.turn
  rw [Nat.succ_mul]
  cases heq : s.phase with
  | waiting since =>
      rw [heq] at hturn
      obtain ⟨hdeadline, hsince, hchecked⟩ := hturn
      have hnow := hlimit _ (by rw [limit, heq]; rfl)
      -- The next tick is within a period and the lateness of one.
      rw [turnGap] at hchecked ⊢
      omega
  | refreshing since =>
      rw [heq] at hturn
      obtain ⟨-, rfl, hchecked⟩ := hturn
      have hnow := hlimit _ (by rw [limit, heq]; rfl)
      rw [Nat.succ_mul] at hchecked
      omega
  | resolving since =>
      rw [heq] at hturn
      exact hturn.elim
  | sleeping wakeAt =>
      rw [heq] at hturn
      exact hturn.elim
  | ended => exact absurd heq hphase

variable {f : Nat}

/-- A `resolve` finds credentials in the cache, which last until 10 minutes after `good`. -/
theorem Inv.hit (hs : Inv p period s) (hphase : s.phase ≠ .ended) (hfailed : s.failed ≤ f)
    (hf : (f + 1) * turnGap p period + p.fetch ≤ fromSecs 300) :
    ∃ creds, s.shared.resolveCached s.now = some creds ∧ s.shared.cached = some creds ∧
      creds.LastsUntil (s.good + fromSecs 600) := by
  obtain ⟨creds, hcached, hlasts⟩ := hs.cached
  have hnow := hs.now_le hphase
  have hmul := Nat.mul_le_mul_right (turnGap p period) (Nat.add_le_add_right hfailed 1)
  have hlong : s.now + fromSecs 300 ≤ s.good + fromSecs 600 := by
    have hsum : s.good + fromSecs 600 = _ := add_fromSecs_add s.good 300 300
    omega
  have hfresh : isExpired s.now creds = false :=
    isExpired_eq_false.mpr fun expiry hexpiry => Nat.le_trans hlong (hlasts expiry hexpiry)
  exact ⟨creds, by simp [AwsCredentialProvider.resolveCached, hcached, hfresh], hcached, hlasts⟩

/-- The turn does not depend on the time or on what is cached, and it only gets easier with
credentials that were good later. -/
theorem InTurn.of_le (h : InTurn p period s s.phase) (hphase : t.phase = s.phase)
    (htimer : t.timer = s.timer) (hchecked : t.checked = s.checked)
    (hgood : (∀ k, s.checked ≤ s.good + (s.failed + k) * turnGap p period →
      s.checked ≤ t.good + (t.failed + k) * turnGap p period)) : InTurn p period t t.phase := by
  rw [hphase]
  cases heq : s.phase with
  | waiting since =>
      rw [heq] at h
      simp only [InTurn, htimer, hchecked]
      exact ⟨h.1, h.2.1, hgood 0 h.2.2⟩
  | refreshing since =>
      rw [heq] at h
      simp only [InTurn, htimer, hchecked]
      exact ⟨h.1, h.2.1, hgood 1 h.2.2⟩
  | resolving since =>
      rw [heq] at h
      exact h
  | sleeping wakeAt =>
      rw [heq] at h
      exact h
  | ended => trivial

/-- A turn that finds its credentials in the cache. -/
theorem Inv.tick [Burst τ] (hs : Inv p period s) {since : Nat} (hphase : s.phase = .waiting since)
    (hdue : next s.timer ≤ s.now) {creds : ResolvedCredentials}
    (hcached : s.shared.cached = some creds)
    (hlasts : creds.LastsUntil (s.good + fromSecs 600)) :
    Inv p period (s.ticked.resolved creds) := by
  have hdeadline : next (IntervalTimer.ticked s.timer s.now) ≤ s.now + period := by
    rw [hs.hasPeriod.next_ticked hdue]
    exact Nat.add_le_add_right hdue period
  have hperiod : HasPeriod period (IntervalTimer.ticked s.timer s.now) :=
    hs.hasPeriod.ticked hdue
  cases hrefresh : refreshDue s.now creds with
  | false =>
      rw [resolved, noted_of_fresh (s := s.ticked) hrefresh, if_neg (by simp [ticked, hrefresh])]
      refine ⟨hperiod, by simp [Punctual, limit]; omega, Nat.le_refl _,
        ⟨creds, hcached, refreshDue_eq_false.mp hrefresh⟩, hdeadline, ?_, Nat.le_add_right _ _⟩
      exact Nat.le_add_right _ _
  | true =>
      rw [resolved, noted, if_pos (show refreshDue s.ticked.now creds from hrefresh),
        if_pos (show refreshDue s.ticked.now creds from hrefresh)]
      refine ⟨hperiod, by simp [Punctual, limit], Nat.le_refl _, ⟨creds, hcached, hlasts⟩,
        hdeadline, rfl, ?_⟩
      -- The last turn was no longer ago than a gap.
      have hturn := hs.turn
      rw [hphase] at hturn
      obtain ⟨hdeadline, hsince, hchecked⟩ := hturn
      have hnow := hs.punctual _ (by rw [limit, hphase]; rfl)
      show s.now ≤ s.good + (s.failed + 1) * turnGap p period
      rw [Nat.succ_mul]
      rw [turnGap] at hchecked ⊢
      omega

/-- The answer to a refresh of the loop. -/
theorem Inv.answer (hs : Inv p period s) {since : Nat} (hphase : s.phase = .refreshing since)
    {answer : Except String Credentials} (hfresh : Fresh s (.answer answer))
    (h : step p s (.answer answer) = some t) : Inv p period t := by
  have hturn := hs.turn
  rw [hphase] at hturn
  obtain ⟨hdeadline, rfl, hchecked⟩ := hturn
  have hnow := hs.punctual (s.checked + p.fetch) (by rw [limit, hphase]; rfl)
  have hsince : s.now ≤ s.checked + max period p.fetch := by omega
  simp only [step, hphase] at h
  cases answer with
  | error message =>
      obtain rfl := Option.some.inj h
      exact ⟨hs.hasPeriod, by simp [Punctual, limit]; omega, hs.checked_le, hs.cached, hdeadline,
        hsince, hchecked⟩
  | ok creds =>
      simp only [AwsCredentialProvider.refreshed] at h
      rw [noted_of_fresh (s := s.store _) hfresh] at h
      obtain rfl := Option.some.inj h
      exact ⟨hs.hasPeriod, by simp [Punctual, limit, store]; omega, hs.checked_le,
        ⟨_, rfl, refreshDue_eq_false.mp hfresh⟩, hdeadline, hsince,
        Nat.le_trans hs.checked_le (Nat.le_add_right _ _)⟩

/-- **Step.** Every event of a steady run keeps the invariant. -/
theorem inv_of_step [Burst τ] (hs : Inv p period s) (hfailed : s.failed ≤ f)
    (hf : (f + 1) * turnGap p period + p.fetch ≤ fromSecs 300) (hfresh : Fresh s e)
    (h : step p s e = some t) : Inv p period t := by
  have hturn := hs.turn
  cases e with
  | elapse d =>
      simp only [step] at h
      split at h
      · rename_i hp
        obtain rfl := Option.some.inj h
        exact ⟨hs.hasPeriod, hp, Nat.le_add_right_of_le hs.checked_le, hs.cached,
          hturn.of_le rfl rfl rfl fun _ hk => hk⟩
      · cases h
  | tick =>
      simp only [step] at h
      split at h
      · rename_i since hphase
        -- The cache answers the tick: what it holds is not due before the next check.
        obtain ⟨creds, hhit, hcached, hlasts⟩ := hs.hit (by simp [hphase]) hfailed hf
        split at h
        · rename_i hdue
          rw [hhit] at h
          obtain rfl := Option.some.inj h
          -- The check either finds them good for a period, or asks the provider.
          exact hs.tick hphase hdue hcached hlasts
        · cases h
      · cases h
  | answer answer =>
      cases hphase : s.phase with
      -- A steady run never asks behind an empty cache, and so never backs off.
      | resolving since =>
          rw [hphase] at hturn
          exact hturn.elim
      | refreshing since => exact hs.answer hphase hfresh h
      | _ => simp only [step, hphase, reduceCtorEq] at h
  | wake =>
      cases hphase : s.phase with
      | sleeping wakeAt =>
          rw [hphase] at hturn
          exact hturn.elim
      | _ => simp only [step, hphase, reduceCtorEq] at h
  | stored creds =>
      simp only [step] at h
      rw [noted_of_fresh (s := s.store _) hfresh] at h
      obtain rfl := Option.some.inj h
      -- Another task stored credentials: they are fresh, and replace the cached ones.
      refine ⟨hs.hasPeriod, hs.punctual, hs.checked_le,
        ⟨creds, rfl, refreshDue_eq_false.mp hfresh⟩, ?_⟩
      exact hturn.of_le rfl rfl rfl fun _ _ => Nat.le_trans hs.checked_le (Nat.le_add_right _ _)
  | shutdown =>
      simp only [step] at h
      split at h
      · obtain rfl := Option.some.inj h
        exact ⟨hs.hasPeriod, by simp [Punctual, limit], hs.checked_le, hs.cached, trivial⟩
      · cases h

/-- The task starts with credentials in the cache. -/
theorem inv_start [Burst τ] {shared : AwsCredentialProvider} {creds : ResolvedCredentials}
    {now : Nat} (hcached : shared.cached = some creds) (hgood : refreshDue now creds = false)
    (h : start shared period now = some s) (p : RefreshPace) : Inv p period s := by
  obtain ⟨timer, htimer, hs⟩ := Option.bind_eq_some_iff.mp h
  obtain rfl := Option.some.inj hs
  have hfirst := IntervalTimer.Ticked.interval htimer
  have hdue : next timer ≤ now := by
    rw [Burst.next_eq hfirst, Nat.zero_mul]
    exact Nat.le_refl now
  have hdeadline : next (IntervalTimer.ticked timer now) ≤ now + period := by
    rw [hfirst.hasPeriod.next_ticked hdue]
    exact Nat.add_le_add_right hdue period
  exact ⟨(hfirst.tick hdue).hasPeriod, by simp [Punctual, limit]; omega, Nat.le_refl _,
    ⟨creds, hcached, refreshDue_eq_false.mp hgood⟩, hdeadline, Nat.le_add_right _ _,
    Nat.le_add_right _ _⟩

/-- **The cache stays fresh.** The refresh task starts when credentials are cached that are not
due, on a timer of the default kind, and runs beside any other tasks. What is stored is not due
either, and no more than `f` refreshes of the task fail in a row. When `f + 1` gaps and a fetch fit
in 5 minutes, a `resolve` never has to wait for the provider, and the loop never sleeps. -/
theorem cache_stays_fresh [Burst τ] (p : RefreshPace) (period f : Nat)
    (shared : AwsCredentialProvider) (creds : ResolvedCredentials)
    (hcached : shared.cached = some creds) (now : Nat) (hgood : refreshDue now creds = false)
    (hf : (f + 1) * turnGap p period + p.fetch ≤ fromSecs 300) (s t : RefreshTask τ)
    (hstart : start shared period now = some s) (events : List RefreshEvent)
    (hsteady : Along (step p) (fun s e => s.failed ≤ f ∧ Fresh s e) s events)
    (hrun : run (step p) s events = some t) (hfailed : t.failed ≤ f) (hphase : t.phase ≠ .ended) :
    (t.shared.resolveCached t.now).isSome ∧ ∀ wakeAt, t.phase ≠ .sleeping wakeAt := by
  have hinv : Inv p period t := run_invariant_along
    (fun _ _ _ hs he h => inv_of_step hs he.1 hf he.2 h)
    (inv_start hcached hgood hstart p) hsteady hrun
  obtain ⟨creds', hhit, -⟩ := hinv.hit hphase hfailed hf
  refine ⟨hhit ▸ rfl, fun wakeAt heq => ?_⟩
  have hturn := hinv.turn
  rw [heq] at hturn
  exact hturn

/-- Fetches of up to 10 seconds. -/
def samplePace : RefreshPace where
  late := 0
  fetch := fromSecs 10

/-- Credentials that expire after so many seconds. -/
def sampleCreds (secs : Nat) : Credentials where
  accessKeyId := "AKID"
  secretAccessKey := "SECRET"
  sessionToken := none
  expiry := some (fromSecs secs)

/-- With a turn each minute: credentials that expire after 700 seconds are due in the second
turn, whose refresh fails. The refresh of the third turn succeeds. -/
def sampleTurns : List RefreshEvent :=
  [.elapse (fromSecs 60), .tick, .elapse (fromSecs 60), .tick, .elapse (fromSecs 10),
    .answer (.error "timeout"), .elapse (fromSecs 50), .tick, .elapse (fromSecs 10),
    .answer (.ok (sampleCreds 3600))]

/-- A provider with credentials of 700 s. -/
def sampleShared : AwsCredentialProvider := ⟨some (.ofCredentials (sampleCreds 700))⟩

/-- The sample turns, one refresh of which fails. -/
theorem cache_stays_fresh_sampleTurns :
    ∃ s t : RefreshTask Schedule, start sampleShared (fromSecs 60) 0 = some s ∧
      run (step samplePace) s sampleTurns = some t ∧
      (t.shared.resolveCached t.now).isSome ∧ ∀ wakeAt, t.phase ≠ .sleeping wakeAt := by
  have hend : ((start sampleShared (fromSecs 60) 0 : Option (RefreshTask Schedule)).bind fun s =>
      run (step samplePace) s sampleTurns).map (fun t => (t.now, t.failed, t.phase))
      = some (fromSecs 190, 0, .waiting (fromSecs 190)) := by decide +kernel
  obtain ⟨t, ht, heq⟩ := Option.map_eq_some_iff.mp hend
  obtain ⟨s, hs, hrun⟩ := Option.bind_eq_some_iff.mp ht
  have hfailed : t.failed = 0 := congrArg (·.2.1) heq
  have hphase : t.phase = .waiting (fromSecs 190) := congrArg (·.2.2) heq
  have hsteady : ∀ s' ∈ (start sampleShared (fromSecs 60) 0 : Option (RefreshTask Schedule)),
      Along (step samplePace) (fun s e => s.failed ≤ 3 ∧ Fresh s e) s' sampleTurns := by
    decide +kernel
  exact ⟨s, t, hs, hrun, cache_stays_fresh samplePace (fromSecs 60) 3 sampleShared _ rfl 0
    (by decide) (by decide) s t hs sampleTurns (hsteady s hs) hrun (by simp [hfailed])
    (by simp [hphase])⟩

end RefreshTask

end NfsMount.AwsCreds
