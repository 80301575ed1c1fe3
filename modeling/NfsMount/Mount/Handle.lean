import NfsMount.Lib.HashMap
import NfsMount.Nfs4Types.Base

/-!
# `NfsMount.Mount.Handle`: the table of open files

The model of `nfs-mount/src/handle.rs`. `fetch_add` on the 64-bit counter wraps. `get_mut`
hands out a reference, and what the caller writes through it is the argument `write`.
-/

set_option autoImplicit false

namespace NfsMount.Mount

open NfsMount.Lib NfsMount.Nfs4Types

/-- What the table knows of an open file. -/
structure OpenFile where
  nfsFh : NfsFh4
  stateid : StateId4
  isDir : Bool
  read : Bool
  write : Bool
  offset : UInt64
deriving DecidableEq

/-- The open files by their handles, and the handle that the next one gets. -/
structure HandleTable where
  nextId : UInt64
  handles : HashMap UInt64 OpenFile

namespace HandleTable

/-- No file is open, and handles are counted from 1. -/
def new : HandleTable where
  nextId := 1
  handles := ∅

/-- The file gets the next handle. -/
def insert (t : HandleTable) (file : OpenFile) : UInt64 × HandleTable :=
  let id := t.nextId
  (id, { nextId := t.nextId + 1, handles := t.handles.insert id file })

/-- The file that has the handle. -/
def get (t : HandleTable) (handle : UInt64) : Option OpenFile := t.handles.lookup handle

/-- `get_mut`, with what the caller then writes to the file. -/
def getMut (t : HandleTable) (handle : UInt64) (write : OpenFile → OpenFile) : HandleTable :=
  { t with handles := t.handles.modify handle write }

/-- The file leaves the table, and is returned. -/
def remove (t : HandleTable) (handle : UInt64) : Option OpenFile × HandleTable :=
  (t.handles.lookup handle, { t with handles := t.handles.erase handle })

end HandleTable

end NfsMount.Mount
