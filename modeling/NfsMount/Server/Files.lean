import NfsMount.Server.Sessions

/-!
# `NfsMount.Server.Files`: a server of a file tree

`FileTree` is what a server exports: nodes with filehandles, of which some are directories.
`FileTree.walk` is what a path means in it. The server walks one component at a time, with
the node of the current filehandle as its state. The operations that have nothing to do with
a walk are answered by an oracle.
-/

set_option autoImplicit false

namespace NfsMount.Server

open NfsMount.XdrCodec NfsMount.Nfs4Types

/-- A file tree. Nothing is said about its shape, so a node may be in several directories. -/
structure FileTree (Node : Type) where
  root : Node
  handle : Node → NfsFh4
  /-- A filehandle has at most 128 bytes. -/
  length_handle_le : ∀ n, (handle n).bytes.length ≤ 128
  /-- The entries of a directory, and `none` for what is no directory. -/
  entries : Node → Option (String → Option Node)

namespace FileTree

variable {Node : Type} (t : FileTree Node)

/-- One step of a walk. -/
def lookup (n : Node) (name : String) : Except NfsStat4 Node :=
  match t.entries n with
  | none => .error .notdir
  | some dir =>
      match dir name with
      | none => .error .noent
      | some child => .ok child

/-- The node that names lead to, or the status of the first one that leads nowhere. -/
def walk (n : Node) (names : List String) : Except NfsStat4 Node := names.foldlM t.lookup n

/-- A lookup does not fail with `Ok`. -/
theorem lookup_error_ne_ok {n : Node} {name : String} {s : NfsStat4}
    (h : t.lookup n name = .error s) : s ≠ .ok := by
  rw [lookup] at h
  split at h
  · rintro rfl
    simp at h
  · split at h
    · rintro rfl
      simp at h
    · simp at h

end FileTree

/-- A server of the tree `t`. -/
structure FileServer {Node : Type} (t : FileTree Node) where
  /-- The node of the current filehandle. -/
  current : Option Node
  /-- What SEQUENCE returns in a compound of the session. -/
  sequenced : Sequence4args → Sequence4resok
  /-- The results of the operations that are not part of a walk. -/
  other : Oracle

namespace FileServer

variable {Node : Type} {t : FileTree Node}

/-- One operation. -/
def perform (s : FileServer t) : NfsArgOp4 → NfsResOp4 × FileServer t
  | .sequence a => (.sequence ⟨.ok, some (s.sequenced a)⟩, s)
  | .putRootFh => (.putRootFh .ok, { s with current := some t.root })
  | .lookup a =>
      match s.current with
      | none => (.lookup .nofilehandle, s)
      | some n =>
          match t.lookup n a.objname with
          | .ok child => (.lookup .ok, { s with current := some child })
          | .error status => (.lookup status, s)
  | .getFh =>
      match s.current with
      | none => (.getFh ⟨.nofilehandle, none⟩, s)
      | some n => (.getFh ⟨.ok, some (t.handle n)⟩, s)
  | op => (s.other.answer op, s)

/-- Every answer is well formed. -/
theorem perform_wellFormed (s : FileServer t) (op : NfsArgOp4) : wellFormed (s.perform op).1 := by
  cases op with
  | sequence a =>
      refine ⟨iff_of_true rfl rfl, fun ok _ => ?_⟩
      exact ⟨trivial, trivial, trivial, trivial, trivial, trivial⟩
  | putRootFh => trivial
  | lookup a =>
      rw [perform]
      split
      · trivial
      · split <;> trivial
  | getFh =>
      rw [perform]
      split
      · exact ⟨iff_of_false (by simp) (by simp [NfsStat4.isOk]), by simp⟩
      · refine ⟨iff_of_true rfl rfl, fun fh hfh => ?_⟩
        obtain rfl := Option.some.inj hfh
        exact t.length_handle_le _
  | _ => exact s.other.wellFormed_answer _

end FileServer

instance {Node : Type} {t : FileTree Node} : CompoundServer (FileServer t) where
  start s := { s with current := none }
  perform := FileServer.perform
  perform_wellFormed := FileServer.perform_wellFormed

end NfsMount.Server
