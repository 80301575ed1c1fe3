import NfsMount.AwsCreds.Refresh
import NfsMount.Lib.Interval

/-!
# `NfsMount.AwsCreds.RefreshLoop`: the refresh task and its timer

The loop of `spawn_credential_refresh` in `aws-creds/src/refresh.rs`, with the timer, the backoff
and the shutdown, which `NfsMount.AwsCreds.Refresh` leaves open. The timer is any type with the
operations of one. Other tasks share the provider: they read the cache, and store what they have
obtained.

As in the keepalive loop, time passes in steps of its own, and not beyond the bounds of a
`RefreshPace`. The timer and `SystemTime` are on one clock, in nanoseconds.
-/

set_option autoImplicit false

namespace NfsMount.AwsCreds

open NfsMount.Lib

/-- Where the loop stands. -/
inductive RefreshPhase where
  /-- In the `select!`, from this time on. -/
  | waiting (since : Nat)
  /-- `resolve` waits for `provide_credentials`. -/
  | resolving (since : Nat)
  /-- `refresh` does, as the credentials are within 10 minutes of expiry. -/
  | refreshing (since : Nat)
  | sleeping (wakeAt : Nat)
  | ended
deriving DecidableEq

/-- How long things take at most. -/
structure RefreshPace where
  /-- From when a tick or the end of a sleep is due to when the loop takes it. -/
  late : Nat
  /-- `provide_credentials`, and the write of the cache. -/
  fetch : Nat

/-- The task and the provider that it shares, at a time. -/
structure RefreshTask (τ : Type) where
  now : Nat
  shared : AwsCredentialProvider
  timer : τ
  backoff : Duration
  phase : RefreshPhase
  /-- When the loop last took a tick. -/
  checked : Nat
  /-- When the cache was last seen, or set, to credentials that are not due for a refresh. -/
  good : Nat
  /-- How many refreshes of the loop have failed since then. -/
  failed : Nat

/-- What can happen. -/
inductive RefreshEvent where
  | elapse (d : Duration)
  /-- `timer.tick()` completes, and `resolve` reads the cache. -/
  | tick
  /-- The answer of `provide_credentials` to the loop. -/
  | answer (answer : Except String Credentials)
  /-- `sleep` completes. -/
  | wake
  /-- Another task stores what it has obtained. -/
  | stored (creds : ResolvedCredentials)
  | shutdown

namespace RefreshTask

variable {τ : Type}

/-- The cache has these credentials now. -/
def noted (s : RefreshTask τ) (creds : ResolvedCredentials) : RefreshTask τ :=
  if refreshDue s.now creds then s else { s with good := s.now, failed := 0 }

/-- `resolve` has returned credentials. -/
def resolved (s : RefreshTask τ) (creds : ResolvedCredentials) : RefreshTask τ :=
  { s.noted creds with
    backoff := fromSecs 1
    phase := if refreshDue s.now creds then .refreshing s.now else .waiting s.now }

/-- The credentials are written to the cache. -/
def store (s : RefreshTask τ) (creds : ResolvedCredentials) : RefreshTask τ :=
  { s with shared := s.shared.store creds }

variable [IntervalTimer τ]

/-- The start of the task: the first tick is taken. -/
def start (shared : AwsCredentialProvider) (checkInterval : Duration) (now : Nat) :
    Option (RefreshTask τ) := do
  let timer ← IntervalTimer.interval now checkInterval
  some {
    now, shared, timer := IntervalTimer.ticked timer now
    backoff := fromSecs 1, phase := .waiting now
    checked := now, good := now, failed := 0 }

/-- Until when the loop has moved on. -/
def limit (p : RefreshPace) (s : RefreshTask τ) : Option Nat :=
  match s.phase with
  | .waiting since => some (max (IntervalTimer.next s.timer) since + p.late)
  | .resolving since | .refreshing since => some (since + p.fetch)
  | .sleeping wakeAt => some (wakeAt + p.late)
  | .ended => none

/-- Nothing takes longer than it may, up to now. -/
def Punctual (p : RefreshPace) (s : RefreshTask τ) : Prop := ∀ t ∈ s.limit p, s.now ≤ t

instance (p : RefreshPace) (s : RefreshTask τ) : Decidable (Punctual p s) :=
  inferInstanceAs (Decidable (∀ t ∈ s.limit p, s.now ≤ t))

/-- The loop has taken a tick. -/
def ticked (s : RefreshTask τ) : RefreshTask τ :=
  { s with timer := IntervalTimer.ticked s.timer s.now, checked := s.now }

/-- What an event leads to, if it can happen. -/
def step (p : RefreshPace) (s : RefreshTask τ) : RefreshEvent → Option (RefreshTask τ)
  | .elapse d =>
      let s := { s with now := s.now + d }
      if Punctual p s then some s else none
  | .tick =>
      match s.phase with
      | .waiting _ =>
          if IntervalTimer.next s.timer ≤ s.now then
            match s.shared.resolveCached s.now with
            | some creds => some (s.ticked.resolved creds)
            | none => some { s.ticked with phase := .resolving s.now }
          else none
      | _ => none
  | .answer answer =>
      match s.phase with
      | .resolving _ =>
          match AwsCredentialProvider.refreshed answer with
          | .ok creds => some ((s.store creds).resolved creds)
          | .error _ =>
              some { s with phase := .sleeping (s.now + s.backoff), failed := s.failed + 1 }
      | .refreshing _ =>
          -- What the refresh returns is dropped.
          match AwsCredentialProvider.refreshed answer with
          | .ok creds => some { (s.store creds).noted creds with phase := .waiting s.now }
          | .error _ => some { s with phase := .waiting s.now, failed := s.failed + 1 }
      | _ => none
  | .wake =>
      match s.phase with
      | .sleeping wakeAt =>
          if wakeAt ≤ s.now then
            some { s with
              backoff := min (s.backoff * 2) (fromSecs 300), phase := .waiting s.now }
          else none
      | _ => none
  | .stored creds => some ((s.store creds).noted creds)
  | .shutdown =>
      match s.phase with
      | .waiting _ => some { s with phase := .ended }
      | _ => none

end RefreshTask

end NfsMount.AwsCreds
