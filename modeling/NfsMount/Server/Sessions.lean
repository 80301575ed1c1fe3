import NfsMount.Server.Execute

/-!
# `NfsMount.Server.Sessions`: a server that keeps sessions

The server answers every request. How it answers is open: an `Oracle` chooses the result of
each operation of a compound, and there is a new oracle for each compound. The server records
the sessions that are live because of its client. A CREATE_SESSION that is answered `Ok`
makes one, and a DESTROY_SESSION that is answered `Ok` ends the one it names.
-/

set_option autoImplicit false

namespace NfsMount.Server

open NfsMount.XdrCodec NfsMount.Nfs4Types

/-- A choice of results, which can be written to the wire. -/
structure Oracle where
  answer : NfsArgOp4 → NfsResOp4
  wellFormed_answer : ∀ op, wellFormed (answer op)

/-- A server that knows which sessions there are. How it answers is up to an oracle. -/
structure SessionServer where
  /-- The sessions that are live. -/
  live : List SessionId4
  /-- The oracle of the current compound. -/
  now : Oracle
  /-- The oracles of the compounds to come. -/
  later : Nat → Oracle

namespace SessionServer

/-- The live sessions after an operation and its result. -/
def effect (live : List SessionId4) : NfsArgOp4 → NfsResOp4 → List SessionId4
  | .createSession _, .createSession ⟨.ok, some cs⟩ => cs.csrSessionid :: live
  | .destroySession a, .destroySession .ok => live.filter (· ≠ a.dsaSessionid)
  | _, _ => live

end SessionServer

instance : CompoundServer SessionServer where
  start s := { s with now := s.later 0, later := fun n => s.later (n + 1) }
  perform s op :=
    let r := s.now.answer op
    (r, { s with live := SessionServer.effect s.live op r })
  perform_wellFormed s op := s.now.wellFormed_answer op

end NfsMount.Server
