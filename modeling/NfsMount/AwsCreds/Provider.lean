import NfsMount.Lib.Clock

/-!
# `NfsMount.AwsCreds.Provider`: cached credentials

The model of `aws-creds/src/error.rs` and `provider.rs`. `resolve` and `refresh` wait for the
SDK and for the lock of the cache, and other calls run in between. So each is cut where it
waits: `resolveCached` is what `resolve` does under the read lock, `refreshed` is what `refresh`
makes of the SDK's answer, and `store` is what it does under the write lock.

A `SystemTime` is a number of nanoseconds from some origin. What `SystemTime::now` returns is
an argument, `now`.
-/

set_option autoImplicit false

namespace NfsMount.AwsCreds

open NfsMount.Lib

/-- A moment of the wall clock, in nanoseconds. -/
abbrev SystemTime := Nat

/-- Why the SDK gave no credentials. -/
inductive CredentialError where
  | refreshFailed (message : String)
deriving DecidableEq

/-- `aws_credential_types::Credentials`, as far as it is read. -/
structure Credentials where
  accessKeyId : String
  secretAccessKey : String
  sessionToken : Option String
  expiry : Option SystemTime
deriving DecidableEq

/-- Resolved AWS credentials with optional expiry. -/
structure ResolvedCredentials where
  accessKeyId : String
  secretAccessKey : String
  sessionToken : Option String
  expiry : Option SystemTime
deriving DecidableEq

/-- `ResolvedCredentials::from`. -/
def ResolvedCredentials.ofCredentials (creds : Credentials) : ResolvedCredentials where
  accessKeyId := creds.accessKeyId
  secretAccessKey := creds.secretAccessKey
  sessionToken := creds.sessionToken
  expiry := creds.expiry

/-- `expiry.duration_since(now).unwrap_or_default()`. -/
def remaining (expiry now : SystemTime) : Duration := expiry - now

/-- Check if credentials are expired or within 5 minutes of expiry. -/
def isExpired (now : SystemTime) (creds : ResolvedCredentials) : Bool :=
  match creds.expiry with
  | none => false
  | some expiry => remaining expiry now < fromSecs 300

/-- The credentials that are cached, if there are any. -/
structure AwsCredentialProvider where
  cached : Option ResolvedCredentials

namespace AwsCredentialProvider

/-- A provider that has not been asked yet. -/
def new : AwsCredentialProvider where
  cached := none

/-- The first half of `resolve`. `none` goes on with a refresh. -/
def resolveCached (p : AwsCredentialProvider) (now : SystemTime) : Option ResolvedCredentials :=
  match p.cached with
  | none => none
  | some creds => if isExpired now creds then none else some creds

/-- What `refresh` makes of the answer of `provide_credentials`. -/
def refreshed (answer : Except String Credentials) : Except CredentialError ResolvedCredentials :=
  match answer with
  | .error e => .error (.refreshFailed e)
  | .ok creds => .ok (.ofCredentials creds)

/-- `*cached = Some(resolved.clone())`. It does not look at what was cached. -/
def store (p : AwsCredentialProvider) (resolved : ResolvedCredentials) : AwsCredentialProvider :=
  { p with cached := some resolved }

end AwsCredentialProvider

end NfsMount.AwsCreds
