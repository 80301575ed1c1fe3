import NfsMount.Lib.TimedStore
import NfsMount.Nfs4Types.Base

/-!
# `NfsMount.Mount.Caches`: the attribute cache and the directory cache

The model of `nfs-mount/src/attr_cache.rs` and `dir_cache.rs`, of the durations in `config.rs`,
and of how `MountHandle::new` passes them on. The maps are keyed by the bytes of a filehandle.

An `Instant` is a number of nanoseconds from some origin. What `Instant::now` returns is an
argument, `now`. `elapsed` is the difference, and no less than zero.
-/

set_option autoImplicit false

namespace NfsMount.Mount

open NfsMount.Lib NfsMount.XdrCodec NfsMount.Nfs4Types

/-- A moment of the monotonic clock, in nanoseconds. -/
abbrev Instant := Nat

/-- `Instant::elapsed`. -/
def elapsed (now : Instant) (earlier : Instant) : Duration := now - earlier

/-! ### `config.rs`, the durations -/

/-- The settings of a mount that the caches take their lifetimes from. -/
structure MountConfig where
  acregmin : Duration
  acregmax : Duration
  acdirmin : Duration
  acdirmax : Duration

/-- `MountConfig::default`. -/
def MountConfig.default : MountConfig where
  acregmin := fromSecs 1
  acregmax := fromSecs 60
  acdirmin := fromSecs 3
  acdirmax := fromSecs 60

/-! ### `attr_cache.rs` -/

/-- Attributes, with when they were fetched. -/
structure CachedAttrs where
  attrs : Fattr4
  isDir : Bool
  inserted : Instant

/-- The attributes by filehandle, with the lifetimes of files and directories. -/
structure AttrCache where
  entries : HashMap Bytes CachedAttrs
  fileTtlMin : Duration
  fileTtlMax : Duration
  dirTtlMin : Duration
  dirTtlMax : Duration

namespace AttrCache

/-- An empty cache. -/
def new (fileTtlMin fileTtlMax dirTtlMin dirTtlMax : Duration) : AttrCache where
  entries := ∅
  fileTtlMin := fileTtlMin
  fileTtlMax := fileTtlMax
  dirTtlMin := dirTtlMin
  dirTtlMax := dirTtlMax

/-- Remembers the attributes from now on. -/
def put (c : AttrCache) (now : Instant) (fh : NfsFh4) (attrs : Fattr4) (isDir : Bool) :
    AttrCache :=
  { c with entries := c.entries.insert fh.bytes { attrs, isDir, inserted := now } }

/-- The attributes, for the shorter lifetime of their kind. -/
def get (c : AttrCache) (now : Instant) (fh : NfsFh4) : Option Fattr4 := do
  let entry ← c.entries.lookup fh.bytes
  let ttl := if entry.isDir then c.dirTtlMin else c.fileTtlMin
  if elapsed now entry.inserted < ttl then some entry.attrs else none

/-- Forgets one filehandle. -/
def invalidate (c : AttrCache) (fh : NfsFh4) : AttrCache :=
  { c with entries := c.entries.erase fh.bytes }

/-- Forgets all of them. -/
def invalidateAll (c : AttrCache) : AttrCache :=
  { c with entries := ∅ }

/-- Forgets what is older than the longer lifetime of its kind. -/
def evictExpired (c : AttrCache) (now : Instant) : AttrCache :=
  { c with entries := c.entries.retain fun _ e =>
      let max := if e.isDir then c.dirTtlMax else c.fileTtlMax
      elapsed now e.inserted < max }

end AttrCache

/-! ### `dir_cache.rs` -/

/-- An entry of a directory listing. -/
structure DirEntry where
  name : String
  cookie : UInt64
  isDir : Bool
  size : UInt64
  mode : UInt32
  mtimeSecs : Int64
  mtimeNsecs : UInt32
deriving DecidableEq

/-- A listing, with when it was fetched and whether it is whole. -/
structure CachedDir where
  entries : List DirEntry
  complete : Bool
  inserted : Instant

/-- The listings by directory, with one lifetime for all. -/
structure DirCache where
  entries : HashMap Bytes CachedDir
  ttl : Duration

namespace DirCache

/-- An empty cache. -/
def new (ttl : Duration) : DirCache where
  entries := ∅
  ttl := ttl

/-- Remembers the listing from now on. -/
def put (c : DirCache) (now : Instant) (parentFh : NfsFh4) (entries : List DirEntry)
    (complete : Bool) : DirCache :=
  { c with entries := c.entries.insert parentFh.bytes { entries, complete, inserted := now } }

/-- The listing, unless it has expired. -/
def get (c : DirCache) (now : Instant) (parentFh : NfsFh4) : Option (List DirEntry) := do
  let cached ← c.entries.lookup parentFh.bytes
  if elapsed now cached.inserted < c.ttl then some cached.entries else none

/-- Whether the listing is whole and has not expired. -/
def isComplete (c : DirCache) (now : Instant) (parentFh : NfsFh4) : Bool :=
  match c.entries.lookup parentFh.bytes with
  | none => false
  | some cached => cached.complete && elapsed now cached.inserted < c.ttl

/-- Forgets one directory. -/
def invalidate (c : DirCache) (parentFh : NfsFh4) : DirCache :=
  { c with entries := c.entries.erase parentFh.bytes }

/-- Forgets what has expired. -/
def evictExpired (c : DirCache) (now : Instant) : DirCache :=
  { c with entries := c.entries.retain fun _ e => elapsed now e.inserted < c.ttl }

end DirCache

/-! ### The caches of a mount -/

/-- The attribute cache that `MountHandle::new` makes. -/
def MountConfig.attrCache (config : MountConfig) : AttrCache :=
  AttrCache.new config.acregmin config.acregmax config.acdirmin config.acdirmax

/-- The directory cache that `MountHandle::new` makes. -/
def MountConfig.dirCache (config : MountConfig) : DirCache :=
  DirCache.new config.acdirmin

/-- The durations of the default configuration are in order. -/
theorem MountConfig.default_le :
    MountConfig.default.acregmin ≤ MountConfig.default.acregmax ∧
    MountConfig.default.acdirmin ≤ MountConfig.default.acdirmax := by
  decide

end NfsMount.Mount
