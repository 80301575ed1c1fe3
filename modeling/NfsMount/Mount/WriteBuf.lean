import NfsMount.XdrCodec.Primitives

/-!
# `NfsMount.Mount.WriteBuf`: the write buffer

The model of `nfs-mount/src/write_buf.rs`. The buffer holds one range of the file that has
not been written to the server. A write that starts where the range ends is added to it,
and any other write first takes the range out, as the data to flush.

In `write`, `none` stands for an arithmetic panic. A `usize` has 64 bits.
-/

set_option autoImplicit false

namespace NfsMount.Mount

open NfsMount.Lib NfsMount.XdrCodec

/-- Data that is to be written to the server at an offset. -/
structure FlushData where
  offset : UInt64
  data : Bytes
deriving DecidableEq

/-- The writes that have not been sent, joined to one range. -/
structure WriteBuf where
  data : Bytes
  bufOffset : UInt64
  maxSize : UInt64
  dirty : Bool
deriving DecidableEq

namespace WriteBuf

/-- A clean buffer. -/
def new (maxSize : UInt64) : WriteBuf where
  data := []
  bufOffset := 0
  maxSize := maxSize
  dirty := false

/-- The buffered data, which leaves the buffer clean. -/
def takeFlush (b : WriteBuf) : FlushData × WriteBuf :=
  (⟨b.bufOffset, b.data⟩, { b with data := [], bufOffset := 0, dirty := false })

/-- Whether a dirty buffer has to be flushed before this write: the write starts elsewhere
than the buffered data ends, or the data together would be too large. The lengths are only
added when the first test fails. -/
def mustFlush (m : Build) (b : WriteBuf) (offset : UInt64) (data : Bytes) : Option Bool := do
  let bufEnd ← m.addU64 b.bufOffset (UInt64.ofNat b.data.length)
  if offset ≠ bufEnd then
    some true
  else
    let total ← m.addU64 (UInt64.ofNat b.data.length) (UInt64.ofNat data.length)
    some (b.maxSize < total)

/-- Buffers a write. What it does not join is returned to be sent first. -/
def write (m : Build) (b : WriteBuf) (offset : UInt64) (data : Bytes) :
    Option (Option FlushData × WriteBuf) := do
  let full ← if b.dirty then b.mustFlush m offset data else some false
  let (flush, b) := if full then (some b.takeFlush.1, b.takeFlush.2) else (none, b)
  -- A buffer that was flushed, or that was clean, starts a new range here.
  let b := if !b.dirty then { b with bufOffset := offset } else b
  some (flush, { b with data := b.data ++ data, dirty := true })

/-- The buffered data, if there is any to be sent. -/
def flush (b : WriteBuf) : Option FlushData × WriteBuf :=
  if b.dirty then (some b.takeFlush.1, b.takeFlush.2) else (none, b)

/-- Whether there is data to be sent. -/
def isDirty (b : WriteBuf) : Bool := b.dirty

/-- How much data is buffered. -/
def bufferedLen (b : WriteBuf) : Nat := b.data.length

end WriteBuf

end NfsMount.Mount
