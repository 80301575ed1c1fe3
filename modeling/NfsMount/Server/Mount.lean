import Mathlib.Logic.Function.Basic
import NfsMount.Server.Files

/-!
# `NfsMount.Server.Mount`: a server with clients, sessions and files

What RFC 8881 says a server does with the requests of a mount, as far as `nfs4-client` relies
on it: it knows its clients by their owners, counts the sessions of a client and the requests on
each slot, takes one RECLAIM_COMPLETE from a client, and lets nothing into its files that does
not come in a session. The files are those of a `FileServer`.

Two things are simpler than in a real server. It keeps no replies, so it refuses a retry, and
nothing expires. It tells the sequence number of the next CREATE_SESSION in every answer to
EXCHANGE_ID, also to a client that it knows. An id may come round again: then it stands for the
client or the session that it was given to last.
-/

set_option autoImplicit false

namespace NfsMount.Server

open NfsMount.XdrCodec NfsMount.Nfs4Types

/-- What a server is set up with. -/
structure Export (Node : Type) where
  tree : FileTree Node
  /-- The answer to EXCHANGE_ID, up to the id and the sequence number. -/
  identity : ExchangeId4resok
  wellFormed_identity : wellFormed identity
  /-- The channels that are granted. -/
  fore : ChannelAttrs4
  back : ChannelAttrs4
  wellFormed_fore : wellFormed fore
  wellFormed_back : wellFormed back
  slots_ne_zero : fore.caMaxrequests ≠ 0
  /-- The ids, in the order in which they are given. -/
  clientId : Nat → ClientId4
  sessionId : Nat → SessionId4

/-- What the server keeps of a client: its id, and whether it has reclaimed its state. -/
structure ClientRecord where
  clientId : ClientId4
  /-- The sequence number of the next CREATE_SESSION. -/
  sequence : SequenceId4
  reclaimed : Bool

/-- What the server keeps of a session: whose it is, and the last id of each slot. -/
structure SessionRecord where
  owner : ClientOwner4
  /-- The sequence id of the last request on each slot. -/
  lastIds : List SequenceId4

/-- The clients and the sessions, with the files. -/
structure MountServer {Node : Type} (e : Export Node) where
  clients : ClientOwner4 → Option ClientRecord
  /-- Whom a client id was given to. -/
  owners : ClientId4 → Option ClientOwner4
  sessions : SessionId4 → Option SessionRecord
  /-- How many ids were given. -/
  made : Nat
  /-- The owner of the session of the current compound. -/
  inSession : Option ClientOwner4
  files : FileServer e.tree

namespace MountServer

variable {Node : Type} {e : Export Node}

/-- A server that no client has talked to. -/
def new (files : FileServer e.tree) : MountServer e where
  clients _ := none
  owners _ := none
  sessions _ := none
  made := 0
  inSession := none
  files := files

/-- The record of an owner, also of one that is not known. -/
def record (s : MountServer e) (owner : ClientOwner4) : ClientRecord :=
  (s.clients owner).getD { clientId := e.clientId s.made, sequence := 1, reclaimed := false }

/-- The record of an owner is set, and its id leads to it. -/
def setClient (s : MountServer e) (owner : ClientOwner4) (r : ClientRecord) : MountServer e :=
  { s with clients := Function.update s.clients owner (some r) }

/-- A session is set, or ended. -/
def setSession (s : MountServer e) (sid : SessionId4) (r : Option SessionRecord) :
    MountServer e :=
  { s with sessions := Function.update s.sessions sid r }

/-- EXCHANGE_ID finds the record of the owner, or makes one with the next id. -/
def exchangeId (s : MountServer e) (a : ExchangeId4args) : NfsResOp4 × MountServer e :=
  let owner := a.eiaClientowner
  let r := s.record owner
  let s := { s.setClient owner r with
    owners := Function.update s.owners r.clientId (some owner), made := s.made + 1 }
  (.exchangeId ⟨.ok, some { e.identity with
    eirClientid := r.clientId, eirSequenceid := r.sequence }⟩, s)

/-- CREATE_SESSION, with the sequence number that the record says, makes the next session. -/
def createSession (s : MountServer e) (a : CreateSession4args) : NfsResOp4 × MountServer e :=
  match s.owners a.csaClientid with
  | none => (.createSession ⟨.staleClientId, none⟩, s)
  | some owner =>
      let r := s.record owner
      if a.csaSequence = r.sequence then
        let sid := e.sessionId s.made
        let session := { owner, lastIds := List.replicate e.fore.caMaxrequests.toNat 0 }
        let s := (s.setClient owner { r with sequence := r.sequence + 1 }).setSession sid
          (some session)
        (.createSession ⟨.ok, some
          { csrSessionid := sid, csrSequence := a.csaSequence, csrFlags := 0
            csrForeChanAttrs := e.fore, csrBackChanAttrs := e.back }⟩,
          { s with made := s.made + 1 })
      else (.createSession ⟨.seqMisordered, none⟩, s)

/-- SEQUENCE opens a session for the compound when the id is the next one of its slot. -/
def sequence (s : MountServer e) (a : Sequence4args) : NfsResOp4 × MountServer e :=
  if s.inSession.isSome then (.sequence ⟨.sequencePos, none⟩, s)
  else
    match s.sessions a.saSessionid with
    | none => (.sequence ⟨.badSession, none⟩, s)
    | some r =>
        match r.lastIds[a.saSlotid.toNat]? with
        | none => (.sequence ⟨.badSlot, none⟩, s)
        | some last =>
            if a.saSequenceid = last + 1 then
              let lastIds := r.lastIds.set a.saSlotid.toNat a.saSequenceid
              let s := { s.setSession a.saSessionid (some { r with lastIds }) with
                inSession := some r.owner }
              (.sequence ⟨.ok, some (s.files.sequenced a)⟩, s)
            else if a.saSequenceid = last then (.sequence ⟨.retryUncachedRep, none⟩, s)
            else (.sequence ⟨.seqMisordered, none⟩, s)

/-- RECLAIM_COMPLETE is for the owner whose session it is in, once. -/
def reclaimComplete (s : MountServer e) : NfsResOp4 × MountServer e :=
  match s.inSession with
  | none => (.reclaimComplete .opNotInSession, s)
  | some owner =>
      let r := s.record owner
      if r.reclaimed then (.reclaimComplete .completeAlready, s)
      else (.reclaimComplete .ok, s.setClient owner { r with reclaimed := true })

/-- DESTROY_SESSION ends a session that is known. -/
def destroySession (s : MountServer e) (a : DestroySession4args) : NfsResOp4 × MountServer e :=
  match s.sessions a.dsaSessionid with
  | none => (.destroySession .badSession, s)
  | some _ => (.destroySession .ok, s.setSession a.dsaSessionid none)

/-- The result of an operation that the server refuses. -/
def refuse (status : NfsStat4) : NfsArgOp4 → NfsResOp4
  | .putRootFh => .putRootFh status
  | .putFh _ => .putFh status
  | .lookup _ => .lookup status
  | .getFh => .getFh ⟨status, none⟩
  | .getAttr _ => .getAttr ⟨status, none⟩
  | .setAttr _ => .setAttr ⟨status, none⟩
  | .open _ => .open ⟨status, none⟩
  | .close _ => .close ⟨status, none⟩
  | .read _ => .read ⟨status, none⟩
  | .write _ => .write ⟨status, none⟩
  | .readDir _ => .readDir ⟨status, none⟩
  | .remove _ => .remove ⟨status, none⟩
  | .rename _ => .rename ⟨status, none⟩
  | .exchangeId _ => .exchangeId ⟨status, none⟩
  | .createSession _ => .createSession ⟨status, none⟩
  | .destroySession _ => .destroySession status
  | .sequence _ => .sequence ⟨status, none⟩
  | .reclaimComplete _ => .reclaimComplete status

/-- An operation on the files, which must come in a session. -/
def onFiles (s : MountServer e) (op : NfsArgOp4) : NfsResOp4 × MountServer e :=
  match s.inSession with
  | none => (refuse .opNotInSession op, s)
  | some _ =>
      let (r, files) := s.files.perform op
      (r, { s with files })

/-- One operation. -/
def perform (s : MountServer e) : NfsArgOp4 → NfsResOp4 × MountServer e
  | .exchangeId a => s.exchangeId a
  | .createSession a => s.createSession a
  | .destroySession a => s.destroySession a
  | .sequence a => s.sequence a
  | .reclaimComplete _ => s.reclaimComplete
  | op => s.onFiles op

/-! ### Its results can be written to the wire -/

/-- A failure has no body. -/
theorem wellFormed_failed {β : Type} [XdrWf β] {status : NfsStat4} (h : status ≠ .ok) :
    wellFormed (⟨status, none⟩ : OpResult β) :=
  ⟨iff_of_false (by simp) (by simpa [NfsStat4.isOk] using h), by simp⟩

/-- A success has its body. -/
theorem wellFormed_done {β : Type} [XdrWf β] {ok : β} (h : wellFormed ok) :
    wellFormed (⟨.ok, some ok⟩ : OpResult β) :=
  ⟨iff_of_true rfl rfl, by simpa using h⟩

/-- A refusal is well formed. -/
theorem wellFormed_refuse {status : NfsStat4} (h : status ≠ .ok) (op : NfsArgOp4) :
    wellFormed (refuse status op) := by
  cases op with
  | putRootFh | putFh | lookup | destroySession | reclaimComplete => trivial
  | _ => exact wellFormed_failed h

/-- The answer about files is well formed. -/
theorem wellFormed_onFiles (s : MountServer e) (op : NfsArgOp4) :
    wellFormed (s.onFiles op).1 := by
  rw [onFiles]
  split
  · exact wellFormed_refuse (by decide) op
  · exact s.files.perform_wellFormed op

/-- Every answer is well formed. -/
theorem perform_wellFormed (s : MountServer e) (op : NfsArgOp4) : wellFormed (s.perform op).1 := by
  cases op with
  | exchangeId a =>
      obtain ⟨-, -, hflags, hprotect, howner, hscope, himpl⟩ := e.wellFormed_identity
      exact wellFormed_done ⟨trivial, trivial, hflags, hprotect, howner, hscope, himpl⟩
  | createSession a =>
      rw [perform, createSession]
      split
      · exact wellFormed_failed (by decide)
      · dsimp only
        split
        · exact wellFormed_done ⟨trivial, trivial, trivial, e.wellFormed_fore, e.wellFormed_back⟩
        · exact wellFormed_failed (by decide)
  | destroySession a =>
      rw [perform, destroySession]
      split <;> trivial
  | sequence a =>
      rw [perform, sequence]
      split
      · exact wellFormed_failed (by decide)
      · split
        · exact wellFormed_failed (by decide)
        · split
          · exact wellFormed_failed (by decide)
          · split
            · exact wellFormed_done ⟨trivial, trivial, trivial, trivial, trivial, trivial⟩
            · split <;> exact wellFormed_failed (by decide)
  | reclaimComplete a =>
      rw [perform, reclaimComplete]
      split
      · trivial
      · dsimp only
        split <;> trivial
  -- The file operations, and those of which the mount has none.
  | _ => exact s.wellFormed_onFiles _

end MountServer

instance {Node : Type} {e : Export Node} : CompoundServer (MountServer e) where
  start s := { s with inSession := none, files := CompoundServer.start s.files }
  perform := MountServer.perform
  perform_wellFormed := MountServer.perform_wellFormed

end NfsMount.Server
