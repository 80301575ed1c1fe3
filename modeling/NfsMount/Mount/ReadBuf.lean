import NfsMount.XdrCodec.Primitives

/-!
# `NfsMount.Mount.ReadBuf`: the read-ahead buffer

The model of `nfs-mount/src/read_buf.rs`. The buffer holds the range of the file that the
last fetch returned, and counts how many reads in a row started where a buffered read had
ended.

`none` stands for a panic: of the arithmetic, or of a slice that is out of range. A `usize`
has 64 bits.
-/

set_option autoImplicit false

namespace NfsMount.Mount

open NfsMount.Lib NfsMount.XdrCodec

/-- The range that was fetched last, and how many reads in a row have gone on in order. -/
structure ReadAheadBuf where
  data : Bytes
  bufOffset : UInt64
  maxSize : UInt64
  lastReadEnd : UInt64
  sequentialCount : UInt32
deriving DecidableEq

/-- `&data[start..stop]`. -/
def sliceRange (data : Bytes) (start stop : Nat) : Option Bytes :=
  if start ≤ stop ∧ stop ≤ data.length then some ((data.drop start).take (stop - start))
  else none

/-- `u32::saturating_add`. -/
def saturatingAdd (x y : UInt32) : UInt32 :=
  if x.toNat + y.toNat < 2 ^ 32 then x + y else 0xFFFFFFFF

/-- The sum is cut off at the maximum. -/
theorem toNat_saturatingAdd (x y : UInt32) :
    (saturatingAdd x y).toNat = min (x.toNat + y.toNat) (2 ^ 32 - 1) := by
  have hmax : (0xFFFFFFFF : UInt32).toNat = 2 ^ 32 - 1 := rfl
  rw [saturatingAdd]
  split
  · rw [UInt32.toNat_add]
    omega
  · rw [hmax]
    omega

namespace ReadAheadBuf

/-- An empty buffer. No read ends at `u64::MAX`, so the first one continues nothing. -/
def new (maxSize : UInt64) : ReadAheadBuf where
  data := []
  bufOffset := 0
  maxSize := maxSize
  lastReadEnd := 0xFFFFFFFFFFFFFFFF
  sequentialCount := 0

/-- Whether a read at `offset` goes on where the last served read ended. -/
def countRead (b : ReadAheadBuf) (offset : UInt64) : ReadAheadBuf :=
  { b with
    sequentialCount := if offset = b.lastReadEnd then saturatingAdd b.sequentialCount 1 else 0 }

/-- Serve a read from the buffer, if the buffer holds all of it. -/
def tryRead (m : Build) (b : ReadAheadBuf) (offset len : UInt64) :
    Option (Option Bytes × ReadAheadBuf) := do
  let b := b.countRead offset
  let bufEnd ← m.addU64 b.bufOffset (UInt64.ofNat b.data.length)
  if b.bufOffset ≤ offset then
    let readEnd ← m.addU64 offset len
    if readEnd ≤ bufEnd then
      let start ← m.subU64 offset b.bufOffset
      let stop ← m.addU64 start len
      let result ← sliceRange b.data start.toNat stop.toNat
      -- Only a read that is served moves the end that the next one is compared with.
      some (some result, { b with lastReadEnd := readEnd })
    else
      some (none, b)
  else
    some (none, b)

/-- The buffer holds the fetched range, and no other. -/
def fill (b : ReadAheadBuf) (offset : UInt64) (data : Bytes) : ReadAheadBuf :=
  { b with bufOffset := offset, data := data }

/-- The offset and the length to fetch for a read that was not served. -/
def fetchPlan (m : Build) (b : ReadAheadBuf) (offset requestedLen : UInt64) :
    Option (UInt64 × UInt64) := do
  if 2 ≤ b.sequentialCount then
    let grown ← m.mulU64 requestedLen 4
    some (offset, min b.maxSize grown)
  else
    some (offset, requestedLen)

/-- The buffer holds nothing. The row of reads goes on. -/
def invalidate (b : ReadAheadBuf) : ReadAheadBuf :=
  { b with data := [], bufOffset := 0 }

/-- Whether two reads in a row have continued the one before. -/
def isSequential (b : ReadAheadBuf) : Bool := 2 ≤ b.sequentialCount

end ReadAheadBuf

end NfsMount.Mount
