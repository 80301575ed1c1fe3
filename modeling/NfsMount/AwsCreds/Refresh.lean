import NfsMount.AwsCreds.Provider

/-!
# `NfsMount.AwsCreds.Refresh`: concurrent calls and the refresh task

The model of `aws-creds/src/refresh.rs`, and of any number of tasks that share one
`AwsCredentialProvider`. A task runs `resolve`, `refresh`, or a turn of the refresh loop. It
stops at every `await`, and any task may go on next.

The timer, the backoff and the shutdown decide when the refresh task takes its next turn. Here
it may take one at any time.
-/

set_option autoImplicit false

namespace NfsMount.AwsCreds

open NfsMount.Lib

/-- A turn of the refresh loop refreshes credentials that are within 10 minutes of expiry. -/
def refreshDue (now : SystemTime) (creds : ResolvedCredentials) : Bool :=
  match creds.expiry with
  | none => false
  | some expiry => remaining expiry now < fromSecs 600

/-- What a task runs. -/
inductive Op where
  | resolve
  | refresh
  | refreshTurn
deriving DecidableEq

/-- Where a task stands. -/
inductive Phase where
  | idle
  /-- Waits for the read lock. -/
  | reading (op : Op)
  /-- Waits for `provide_credentials`. -/
  | fetching (op : Op)
  /-- Waits for the write lock, with the `issue`-th credentials of the provider. -/
  | storing (op : Op) (issue : Nat) (creds : ResolvedCredentials)
deriving DecidableEq

/-- The call has returned credentials. A turn of the loop may go on with a refresh, and drops
what that returns. -/
def returned (now : SystemTime) (creds : ResolvedCredentials) : Op → Phase
  | .refreshTurn => if refreshDue now creds then .fetching .refresh else .idle
  | .resolve | .refresh => .idle

/-- The shared provider, and the tasks. -/
structure Tasks where
  shared : AwsCredentialProvider
  phase : Nat → Phase
  /-- How many credentials the provider has issued. -/
  issued : Nat
  /-- Which of them are in the cache. -/
  cachedIssue : Option Nat

/-- What a task can do next. -/
inductive Event where
  | start (task : Nat) (op : Op)
  | readCache (task : Nat) (now : SystemTime)
  | obtain (task : Nat)
  | fail (task : Nat) (message : String)
  | store (task : Nat) (now : SystemTime)
  /-- The caller drops the call at an `await`. -/
  | cancel (task : Nat)
deriving DecidableEq

namespace Tasks

/-- No task is running, and nothing is cached. -/
def new : Tasks where
  shared := .new
  phase := fun _ => .idle
  issued := 0
  cachedIssue := none

/-- A task goes on. -/
def setPhase (s : Tasks) (task : Nat) (phase : Phase) : Tasks :=
  { s with phase := fun t => if t = task then phase else s.phase t }

/-- What the provider answers, and which of its credentials it issues. -/
def answered (s : Tasks) (task : Nat) (op : Op) (answer : Except String Credentials) : Tasks :=
  match AwsCredentialProvider.refreshed answer with
  | .error _ => s.setPhase task .idle
  | .ok creds => { s.setPhase task (.storing op s.issued creds) with issued := s.issued + 1 }

/-- `provider n` are the `n`-th credentials that the provider issues. -/
def step (provider : Nat → Credentials) (s : Tasks) : Event → Option Tasks
  | .start task op =>
      match s.phase task, op with
      | .idle, .refresh => some (s.setPhase task (.fetching .refresh))
      | .idle, _ => some (s.setPhase task (.reading op))
      | _, _ => none
  | .readCache task now =>
      match s.phase task with
      | .reading op =>
          match s.shared.resolveCached now with
          | some creds => some (s.setPhase task (returned now creds op))
          | none => some (s.setPhase task (.fetching op))
      | _ => none
  | .obtain task =>
      match s.phase task with
      | .fetching op => some (s.answered task op (.ok (provider s.issued)))
      | _ => none
  | .fail task message =>
      match s.phase task with
      | .fetching op => some (s.answered task op (.error message))
      | _ => none
  | .store task now =>
      match s.phase task with
      | .storing op issue creds =>
          some { s.setPhase task (returned now creds op) with
            shared := s.shared.store creds
            cachedIssue := some issue }
      | _ => none
  | .cancel task => some (s.setPhase task .idle)

end Tasks

end NfsMount.AwsCreds
