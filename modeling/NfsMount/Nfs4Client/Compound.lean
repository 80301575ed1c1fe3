import NfsMount.Nfs4Types.Args

/-!
# `NfsMount.Nfs4Client.Compound`: the builder of requests

The model of `nfs4-client/src/compound.rs`. Each method appends one operation.
-/

set_option autoImplicit false

namespace NfsMount.Nfs4Client

open NfsMount.XdrCodec NfsMount.Nfs4Types

/-- `base.rs`: the minor version of all requests. -/
def NFS4_MINOR_VERSION : UInt32 := 1

/-- A request under construction: the tag, and the operations pushed so far. -/
structure CompoundBuilder where
  tag : String
  ops : List NfsArgOp4
deriving DecidableEq

namespace CompoundBuilder

/-- No tag and no operation yet. -/
def new : CompoundBuilder where
  tag := ""
  ops := []

/-- The tag of the request. A later one replaces it. -/
def withTag (b : CompoundBuilder) (tag : String) : CompoundBuilder := { b with tag }

/-- `self.ops.push(op)`. -/
def push (b : CompoundBuilder) (op : NfsArgOp4) : CompoundBuilder :=
  { b with ops := b.ops ++ [op] }

/-- SEQUENCE, the first operation of a request in a session. It never asks the server to cache. -/
def sequence (b : CompoundBuilder) (sessionId : SessionId4) (sequenceId : SequenceId4)
    (slotId highestSlotId : SlotId4) : CompoundBuilder :=
  b.push (.sequence
    { saSessionid := sessionId, saSequenceid := sequenceId, saSlotid := slotId
      saHighestSlotid := highestSlotId, saCachethis := false })

/-- The root of the export becomes the current filehandle. -/
def putrootfh (b : CompoundBuilder) : CompoundBuilder := b.push .putRootFh

/-- A filehandle that the client holds becomes the current one. -/
def putfh (b : CompoundBuilder) (fh : NfsFh4) : CompoundBuilder :=
  b.push (.putFh { object := fh })

/-- From the current directory to its entry `name`. -/
def lookup (b : CompoundBuilder) (name : String) : CompoundBuilder :=
  b.push (.lookup { objname := name })

/-- Asks for the current filehandle. -/
def getfh (b : CompoundBuilder) : CompoundBuilder := b.push .getFh

/-- Asks for the attributes of the current file that the bitmap names. -/
def getattr (b : CompoundBuilder) (attrRequest : Bitmap4) : CompoundBuilder :=
  b.push (.getAttr { attrRequest })

/-- Sets attributes of the current file, under a state id. -/
def setattr (b : CompoundBuilder) (stateid : StateId4) (fattr : Fattr4) : CompoundBuilder :=
  b.push (.setAttr { saStateid := stateid, saFattr := fattr })

/-- Opens the entry `name` of the current directory, which must exist (CLAIM_NULL, no create). -/
def openByName (b : CompoundBuilder) (name : String) (shareAccess : UInt32) (owner : Opaque) :
    CompoundBuilder :=
  b.push (.open
    { seqid := 0, shareAccess, shareDeny := OPEN4_SHARE_DENY_NONE
      owner := { clientid := ⟨0⟩, owner }
      openhow := .noCreate, claim := .claimNull name })

/-- Gives up the state of an open. -/
def close (b : CompoundBuilder) (stateid : StateId4) : CompoundBuilder :=
  b.push (.close { seqid := 0, openStateid := stateid })

/-- At most `count` bytes of the current file, from `offset` on. -/
def read (b : CompoundBuilder) (stateid : StateId4) (offset : UInt64) (count : UInt32) :
    CompoundBuilder :=
  b.push (.read { stateid, offset, count })

/-- `data` at `offset` of the current file, as stable as asked for. -/
def write (b : CompoundBuilder) (stateid : StateId4) (offset : UInt64) (data : Bytes)
    (stable : UInt32) : CompoundBuilder :=
  b.push (.write { stateid, offset, stable, data := ⟨data⟩ })

/-- A part of the current directory, behind the cookie of the part before. -/
def readdir (b : CompoundBuilder) (cookie : UInt64) (cookieverf : Verifier4)
    (dircount maxcount : UInt32) (attrRequest : Bitmap4) : CompoundBuilder :=
  b.push (.readDir { cookie, cookieverf, dircount, maxcount, attrRequest })

/-- Removes the entry `target` of the current directory. -/
def remove (b : CompoundBuilder) (target : String) : CompoundBuilder :=
  b.push (.remove { target })

/-- Renames an entry of a directory. -/
def rename (b : CompoundBuilder) (oldname newname : String) : CompoundBuilder :=
  b.push (.rename { oldname, newname })

/-- The client makes itself known by its owner. The state is not protected. -/
def exchangeId (b : CompoundBuilder) (clientOwner : ClientOwner4) (flags : UInt32) :
    CompoundBuilder :=
  b.push (.exchangeId
    { eiaClientowner := clientOwner, eiaFlags := flags, eiaStateProtect := .spNone
      eiaClientImplId := [] })

/-- A session of the client, with the channels that it asks for and AUTH_NONE for callbacks. -/
def createSession (b : CompoundBuilder) (clientId : ClientId4) (sequence : SequenceId4)
    (flags : UInt32) (foreChan backChan : ChannelAttrs4) : CompoundBuilder :=
  b.push (.createSession
    { csaClientid := clientId, csaSequence := sequence, csaFlags := flags
      csaForeChanAttrs := foreChan, csaBackChanAttrs := backChan, csaCbProgram := 0
      csaSecParms := [.authNone] })

/-- Ends a session. -/
def destroySession (b : CompoundBuilder) (sessionId : SessionId4) : CompoundBuilder :=
  b.push (.destroySession { dsaSessionid := sessionId })

/-- The client has no more locks to reclaim. -/
def reclaimComplete (b : CompoundBuilder) (oneFs : Bool) : CompoundBuilder :=
  b.push (.reclaimComplete { rcaOneFs := oneFs })

/-- The finished request, always of minor version 1. -/
def build (b : CompoundBuilder) : Compound4args where
  tag := b.tag
  minorversion := NFS4_MINOR_VERSION
  argarray := b.ops

end CompoundBuilder

end NfsMount.Nfs4Client
