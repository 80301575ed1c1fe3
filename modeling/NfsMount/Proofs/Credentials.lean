import Mathlib.Order.WithBot
import NfsMount.AwsCreds.Refresh
import NfsMount.Lib.Run

/-!
# `NfsMount.Proofs.Credentials`: when the cached expiry goes back

The provider issues credentials one after the other, and each issue lasts at least as long as
the one before. A refresh that has obtained an issue stores it at some later time, and the
store overwrites what is there. When a refresh that obtained a later issue has stored in
between, the cached expiry goes back (`not_neverBackwards`).

This is the only way. Every store puts the credentials of its issue in the cache (`Inv`), so a
store over an earlier issue does not lower the expiry, and no other step writes the cache
(`step_cases`). In a run whose refreshes store in the order in which they obtained, the expiry
never goes back.
-/

set_option autoImplicit false

namespace NfsMount.AwsCreds

open NfsMount.Lib

/-- Until when the credentials are valid. Those without an expiry are always valid. -/
def ResolvedCredentials.validUntil (creds : ResolvedCredentials) : WithTop SystemTime :=
  match creds.expiry with
  | none => ⊤
  | some expiry => WithTop.some expiry

/-- Until when the credentials of an issue are valid. -/
def issueValidUntil (provider : Nat → Credentials) (issue : Nat) : WithTop SystemTime :=
  (ResolvedCredentials.ofCredentials (provider issue)).validUntil

namespace Tasks

variable {provider : Nat → Credentials}

/-- The cached expiry, once there is one, has not gone back from `s` to `t`. -/
def KeepsExpiry (s t : Tasks) : Prop :=
  ∀ creds, s.shared.cached = some creds →
    ∃ creds', t.shared.cached = some creds' ∧ creds.validUntil ≤ creds'.validUntil

/-- What is cached lasts as long as it did. -/
theorem KeepsExpiry.refl (s : Tasks) : KeepsExpiry s s := fun creds h => ⟨creds, h, le_refl _⟩

/-- What lasts through both parts lasts. -/
theorem KeepsExpiry.trans {s t u : Tasks} (h : KeepsExpiry s t) (h' : KeepsExpiry t u) :
    KeepsExpiry s u := by
  intro creds hs
  obtain ⟨creds', ht, hle⟩ := h creds hs
  obtain ⟨creds'', hu, hle'⟩ := h' creds' ht
  exact ⟨creds'', hu, hle.trans hle'⟩

/-- No step of any run takes the cached expiry back. -/
def NeverBackwards (provider : Nat → Credentials) : Prop :=
  ∀ events s e t, run (step provider) new events = some s → step provider s e = some t →
    KeepsExpiry s t

/-- The step is a store of a refresh that obtained its credentials before those in the cache
were issued. -/
def StoresOlder (s : Tasks) (e : Event) : Prop :=
  ∃ task now op issue creds cached, e = .store task now ∧
    s.phase task = .storing op issue creds ∧ s.cachedIssue = some cached ∧ issue < cached

/-- A call that has returned does not wait to store. -/
theorem returned_ne_storing {now : SystemTime} {creds : ResolvedCredentials} {op op' : Op}
    {issue : Nat} {creds' : ResolvedCredentials} :
    returned now creds op ≠ .storing op' issue creds' := by
  cases op with
  | refreshTurn =>
      rw [returned]
      split
      · simp
      · simp
  | resolve => simp [returned]
  | refresh => simp [returned]

/-- A task that waits to store has the credentials of its issue. -/
def StoresIssue (provider : Nat → Credentials) (phase : Phase) : Prop :=
  ∀ op issue creds, phase = .storing op issue creds → creds = .ofCredentials (provider issue)

/-- **Step.** A step moves one task. The cache is left alone, or the step is a store of what
the task has. -/
theorem step_cases {s t : Tasks} {e : Event} (h : step provider s e = some t) :
    ∃ task phase, t.phase = (s.setPhase task phase).phase ∧ StoresIssue provider phase ∧
      (t.shared = s.shared ∧ t.cachedIssue = s.cachedIssue ∨
        ∃ now op issue creds, e = .store task now ∧ s.phase task = .storing op issue creds ∧
          t.shared.cached = some creds ∧ t.cachedIssue = some issue) := by
  cases e with
  | start task op =>
      simp only [step] at h
      split at h
      · obtain rfl := Option.some.inj h
        exact ⟨task, _, rfl, by simp [StoresIssue], .inl ⟨rfl, rfl⟩⟩
      · obtain rfl := Option.some.inj h
        exact ⟨task, _, rfl, by simp [StoresIssue], .inl ⟨rfl, rfl⟩⟩
      · cases h
  | readCache task now =>
      simp only [step] at h
      split at h
      · split at h
        · obtain rfl := Option.some.inj h
          exact ⟨task, _, rfl, fun _ _ _ heq => absurd heq returned_ne_storing,
            .inl ⟨rfl, rfl⟩⟩
        · obtain rfl := Option.some.inj h
          exact ⟨task, _, rfl, by simp [StoresIssue], .inl ⟨rfl, rfl⟩⟩
      · cases h
  | obtain task =>
      simp only [step] at h
      split at h
      · obtain rfl := Option.some.inj h
        refine ⟨task, _, rfl, fun op issue creds heq => ?_, .inl ⟨rfl, rfl⟩⟩
        -- The task has what the provider has just issued.
        obtain ⟨-, rfl, rfl⟩ := Phase.storing.inj heq
        rfl
      · cases h
  | fail task message =>
      simp only [step] at h
      split at h
      · obtain rfl := Option.some.inj h
        exact ⟨task, .idle, rfl, by simp [StoresIssue], .inl ⟨rfl, rfl⟩⟩
      · cases h
  | store task now =>
      simp only [step] at h
      split at h
      · rename_i op issue creds hphase
        obtain rfl := Option.some.inj h
        exact ⟨task, _, rfl, fun _ _ _ heq => absurd heq returned_ne_storing,
          .inr ⟨now, op, issue, creds, rfl, hphase, rfl, rfl⟩⟩
      · cases h
  | cancel task =>
      obtain rfl := Option.some.inj h
      exact ⟨task, .idle, rfl, by simp [StoresIssue], .inl ⟨rfl, rfl⟩⟩

/-- What is waiting to be stored, and what is cached, are credentials of the provider. -/
structure Inv (provider : Nat → Credentials) (s : Tasks) : Prop where
  storing : ∀ task, StoresIssue provider (s.phase task)
  cached_eq : s.shared.cached = s.cachedIssue.map fun issue => .ofCredentials (provider issue)

/-- Nothing is cached at the start. -/
theorem inv_new : Inv provider new where
  storing _ _ _ _ h := by cases h
  cached_eq := rfl

/-- **Step.** Every event keeps the invariant. -/
theorem step_inv {s t : Tasks} {e : Event} (hs : Inv provider s)
    (h : step provider s e = some t) : Inv provider t := by
  obtain ⟨task, phase, hphase, hissue, hcache⟩ := step_cases h
  constructor
  · intro u
    rw [hphase]
    by_cases hu : u = task
    · simpa only [setPhase, if_pos hu] using hissue
    · simpa only [setPhase, if_neg hu] using hs.storing u
  · rcases hcache with ⟨hshared, hcached⟩ | ⟨now, op, issue, creds, -, hstoring, hshared, hcached⟩
    · rw [hshared, hcached, hs.cached_eq]
    · rw [hshared, hcached, hs.storing task op issue creds hstoring]
      rfl

/-- A step that does not store older credentials keeps the cached expiry. -/
theorem keepsExpiry_of_not_storesOlder (hmono : Monotone (issueValidUntil provider))
    {s t : Tasks} {e : Event} (hs : Inv provider s) (h : step provider s e = some t)
    (hnot : ¬ StoresOlder s e) : KeepsExpiry s t := by
  intro creds hcreds
  obtain ⟨task, phase, -, -, ⟨hshared, -⟩ | hstore⟩ := step_cases h
  · exact ⟨creds, hshared ▸ hcreds, le_refl _⟩
  · obtain ⟨now, op, issue, creds', rfl, hstoring, hshared, -⟩ := hstore
    refine ⟨creds', hshared, ?_⟩
    cases hcached : s.cachedIssue with
    | none =>
        rw [hs.cached_eq, hcached] at hcreds
        cases hcreds
    | some cached =>
        rw [hs.cached_eq, hcached] at hcreds
        obtain rfl := Option.some.inj hcreds
        obtain rfl := hs.storing task op issue creds' hstoring
        -- The cached issue is not the later one.
        have hle : cached ≤ issue := Nat.not_lt.mp fun hlt =>
          hnot ⟨task, now, op, issue, _, cached, rfl, hstoring, hcached, hlt⟩
        exact hmono hle

/-- **Run.** A run of such steps keeps the cached expiry. -/
theorem keepsExpiry_of_run (hmono : Monotone (issueValidUntil provider)) {s t : Tasks}
    {events : List Event} (hs : Inv provider s) (h : run (step provider) s events = some t)
    (horder : Along (step provider) (fun s e => ¬ StoresOlder s e) s events) :
    KeepsExpiry s t := by
  -- The expiry in `u` is compared with the one the stretch started from.
  have hstep : ∀ u e v, (Inv provider u ∧ KeepsExpiry s u) → ¬ StoresOlder u e →
      step provider u e = some v → Inv provider v ∧ KeepsExpiry s v := by
    intro u e v hu hnot huv
    exact ⟨step_inv hu.1 huv, hu.2.trans (keepsExpiry_of_not_storesOlder hmono hu.1 huv hnot)⟩
  exact (run_invariant_along hstep ⟨hs, .refl s⟩ horder h).2

/-- **When the cached expiry goes back.** In every interleaving, a step that takes it back is a
store of a refresh that obtained its credentials before the cached ones were issued. In a
stretch of a run without such stores it never goes back. -/
theorem cached_expiry (hmono : Monotone (issueValidUntil provider)) {events : List Event}
    {s : Tasks} (hs : run (step provider) new events = some s) :
    (∀ e t, step provider s e = some t → ¬ KeepsExpiry s t → StoresOlder s e) ∧
    ∀ later t, run (step provider) s later = some t →
      Along (step provider) (fun s e => ¬ StoresOlder s e) s later → KeepsExpiry s t := by
  have hinv : Inv provider s := run_invariant (fun _ _ _ => step_inv) inv_new hs
  constructor
  · intro e t hstep hback
    by_contra hnot
    exact hback (keepsExpiry_of_not_storesOlder hmono hinv hstep hnot)
  · intro later t hrun horder
    exact keepsExpiry_of_run hmono hinv hrun horder

/-- Credentials that last until the end of the `n`-th hour. -/
def hourly (n : Nat) : Credentials where
  accessKeyId := "AKID"
  secretAccessKey := "SECRET"
  sessionToken := none
  expiry := some (fromSecs (3600 * (n + 1)))

/-- Credentials that are issued later last longer. -/
theorem hourly_monotone : Monotone (issueValidUntil hourly) := by
  intro m n h
  apply WithTop.coe_le_coe.mpr
  exact Nat.mul_le_mul_right _ (Nat.mul_le_mul_left _ (Nat.succ_le_succ h))

/-- Two refreshes, one after the other. The second has still to store. -/
def sequential : List Event :=
  [.start 0 .refresh, .obtain 0, .store 0 0, .start 1 .refresh, .obtain 1]

/-- Refreshes that follow each other. -/
theorem cached_expiry_sequential :
    ∃ s t, run (step hourly) new sequential = some s ∧ step hourly s (.store 1 0) = some t ∧
      KeepsExpiry s t := by
  refine ⟨_, _, rfl, rfl, ?_⟩
  apply (cached_expiry hourly_monotone (rfl : run (step hourly) new sequential = some _)).2
    [.store 1 0] _ rfl
  refine ⟨?_, fun _ _ => trivial⟩
  rintro ⟨task, now, op, issue, creds, cached, hevent, hphase, hcached, hlt⟩
  obtain ⟨rfl, rfl⟩ := Event.store.inj hevent
  -- The second refresh has the second issue, and the first issue is in the cache.
  obtain ⟨-, rfl, -⟩ := Phase.storing.inj hphase
  obtain rfl := Option.some.inj hcached
  exact absurd hlt (by decide)

/-- Two refreshes that obtain one after the other. The second stores first. -/
def crossing : List Event :=
  [.start 0 .refresh, .start 1 .refresh, .obtain 0, .obtain 1, .store 1 0]

/-- A refresh overwrites newer credentials with older ones. -/
theorem not_neverBackwards :
    ¬ ∀ provider, Monotone (issueValidUntil provider) → NeverBackwards provider := by
  intro h
  have hkeeps := h hourly hourly_monotone crossing _ (.store 0 0) _ rfl rfl
  obtain ⟨creds, hcreds, hle⟩ := hkeeps _ rfl
  obtain rfl := Option.some.inj hcreds
  -- From the end of the second hour back to the end of the first.
  exact absurd (WithTop.coe_le_coe.mp hle) (by decide)

end Tasks

end NfsMount.AwsCreds
