import NfsMount.Mount.Path
import NfsMount.Nfs4Client.Client

/-!
# `NfsMount.Mount.Resolve`: resolving a path

The model of `MountHandle::resolve_path` in `nfs-mount/src/mount.rs`, and of the errors it
returns. The client is behind a lock that is held for the whole call, so the call is an
`Action` on the client. The caches and buffers of the handle are not used by it.
-/

set_option autoImplicit false

namespace NfsMount.Mount

open NfsMount.Lib NfsMount.XdrCodec NfsMount.Nfs4Types NfsMount.OncRpc NfsMount.Nfs4Client

/-- What a call of a mount can fail with. -/
inductive MountError where
  | nfs (e : NfsError)
  | invalidPath (text : String)
  | notOpen (handle : UInt64)
  | staleHandle
  | notDirectory
  | isDirectory
  | io (text : String)
deriving DecidableEq

/-- `res?`, on the result of a call to the client. -/
def propagate {α : Type} : Except NfsError α → Outcome MountError α
  | .ok a => .ok a
  | .error e => .err (.nfs e)

/-- The request: SEQUENCE, PUTROOTFH, one LOOKUP for each component, and GETFH. -/
def resolveArgs (sessionId : SessionId4) (slot : AllocatedSlot) (components : List String) :
    Compound4args :=
  let builder := ((CompoundBuilder.new.withTag "resolve_path").sequence sessionId
    slot.sequenceId slot.slotId slot.highestSlotId).putrootfh
  let builder := components.foldl CompoundBuilder.lookup builder
  builder.getfh.build

/-- The filehandle in the reply: the result of GETFH is the last one. -/
def resolvedHandle (res : Compound4res) : Outcome MountError NfsFh4 :=
  if !res.status.isOk then .err (.nfs (.nfs res.status))
  else
    match res.resarray.getLast? with
    | none => .err (.nfs (.unexpectedResponse "GetFh" (.text "empty resarray")))
    | some (.getFh fhRes) =>
        if !fhRes.status.isOk then .err (.nfs (.nfs fhRes.status))
        else
          match fhRes.resok with
          | some object => .ok object
          | none => .err (.nfs (.unexpectedResponse "GetFh4res with object" (.text "None")))
    | some other => .err (.nfs (.unexpectedResponse "GetFh" (.debug other)))

/-- Translate a Windows-style path to an NFS filehandle. -/
def resolvePath {τ : Type} [RpcTransport τ] (m : Build) (windowsPath : String) :
    Action (Nfs4Client τ) MountError NfsFh4 := do
  let components := toNfsComponents windowsPath
  match (← Action.get).session with
  | none => Action.lift (.err (.nfs .noSession))
  | some session =>
      match ← Action.mapError .nfs (Nfs4Client.tryAllocSlot m) with
      | none => Action.lift (.err (.nfs .noSession))
      | some slot =>
          let res ← Action.attempt
            (Nfs4Client.compound (resolveArgs session.sessionId slot components))
          -- The slot is released before an error of the compound is propagated.
          Action.mapError .nfs (Nfs4Client.releaseSlot m slot.slotId)
          let res ← Action.lift (propagate res)
          Action.lift (resolvedHandle res)

/-! ### The request -/

/-- One LOOKUP for each name. -/
def lookups (names : List String) : List NfsArgOp4 := names.map fun name => .lookup ⟨name⟩

/-- One LOOKUP is appended for each name. -/
theorem foldl_lookup (names : List String) (builder : CompoundBuilder) :
    names.foldl CompoundBuilder.lookup builder
      = { builder with ops := builder.ops ++ lookups names } := by
  induction names generalizing builder with
  | nil => simp [lookups]
  | cons name names ih =>
      rw [List.foldl_cons, ih]
      simp [CompoundBuilder.lookup, CompoundBuilder.push, lookups]

/-- The request of a resolution, written out. -/
theorem resolveArgs_eq (sessionId : SessionId4) (slot : AllocatedSlot)
    (components : List String) :
    resolveArgs sessionId slot components =
      { tag := "resolve_path"
        minorversion := NFS4_MINOR_VERSION
        argarray :=
          .sequence ⟨sessionId, slot.sequenceId, slot.slotId, slot.highestSlotId, false⟩
            :: .putRootFh :: (lookups components ++ [.getFh]) } := by
  rw [resolveArgs, foldl_lookup]
  rfl

end NfsMount.Mount
