import NfsMount.Mount.Caches

/-!
# `NfsMount.Proofs.Caches`: the caches are timed stores

A history is a list of operations with the times at which they are done, on a clock that does
not go back. The reference store knows for each filehandle the last put that no later
invalidation covers, and when it was made. A cache returns that put as long as it is younger
than the time to live of its kind, and nothing else.

Both caches are the timed store of `NfsMount.Lib.TimedStore` at their own entries. For the
attribute cache an entry is fresh for the minimum time of its kind and kept for the maximum.
For the directory cache the two are one.
-/

set_option autoImplicit false

namespace NfsMount.Mount

open NfsMount.Lib NfsMount.XdrCodec NfsMount.Nfs4Types

/-- Two filehandles are one key when they are one filehandle. -/
theorem bytes_ne {fh fh' : NfsFh4} (h : fh ≠ fh') : fh.bytes ≠ fh'.bytes := by
  intro heq
  apply h
  cases fh
  exact congrArg NfsFh4.mk heq

/-! ### The attribute cache -/

/-- The calls of an attribute cache. -/
inductive AttrOp where
  | put (fh : NfsFh4) (attrs : Fattr4) (isDir : Bool)
  | get (fh : NfsFh4)
  | invalidate (fh : NfsFh4)
  | invalidateAll
  | evictExpired

namespace AttrOp

/-- The operation on the reference store. A put is entered with its time. -/
def toStore (e : At AttrOp) : At (StoreOp Bytes CachedAttrs) where
  now := e.now
  op :=
    match e.op with
    | .put fh attrs isDir => .put fh.bytes { attrs, isDir, inserted := e.now }
    | .get fh => .query fh.bytes
    | .invalidate fh => .invalidate fh.bytes
    | .invalidateAll => .invalidateAll
    | .evictExpired => .evict

/-- The operation can change what is stored for `fh`. -/
def changes (fh : NfsFh4) : AttrOp → Bool
  | .put fh' _ _ | .invalidate fh' => fh = fh'
  | .invalidateAll => true
  | .get _ | .evictExpired => false

/-- Eviction of what has expired. -/
def isEvict : AttrOp → Bool
  | .evictExpired => true
  | _ => false

end AttrOp

namespace AttrCache

/-- The cache after a call. -/
def apply (c : AttrCache) (e : At AttrOp) : AttrCache :=
  match e.op with
  | .put fh attrs isDir => c.put e.now fh attrs isDir
  | .get _ => c
  | .invalidate fh => c.invalidate fh
  | .invalidateAll => c.invalidateAll
  | .evictExpired => c.evictExpired e.now

/-- The cache after a history. -/
def play (c : AttrCache) (history : List (At AttrOp)) : AttrCache := history.foldl apply c

/-- The last put for `fh` that no later invalidation covers. -/
def lastPut (fh : NfsFh4) (history : List (At AttrOp)) : Option CachedAttrs :=
  TimedStore.lastPut fh.bytes (history.map AttrOp.toStore)

/-- For how long `get` serves attributes. -/
def ttlMin (c : AttrCache) (isDir : Bool) : Duration := if isDir then c.dirTtlMin else c.fileTtlMin

/-- For how long eviction leaves attributes. -/
def ttlMax (c : AttrCache) (isDir : Bool) : Duration := if isDir then c.dirTtlMax else c.fileTtlMax

/-- An operation is the store's operation on the entries, and leaves the times alone. -/
theorem apply_eq (c : AttrCache) (e : At AttrOp) :
    c.apply e = { c with
      entries := TimedStore.apply CachedAttrs.inserted (fun entry => c.ttlMax entry.isDir)
        c.entries (AttrOp.toStore e) } := by
  obtain ⟨now, op⟩ := e
  cases op <;> rfl

/-- The cache is the store of what its calls do. -/
theorem play_eq (c : AttrCache) (history : List (At AttrOp)) :
    c.play history = { c with
      entries := (history.map AttrOp.toStore).foldl
        (TimedStore.apply CachedAttrs.inserted fun entry => c.ttlMax entry.isDir) c.entries } := by
  induction history generalizing c with
  | nil => rfl
  | cons e history ih =>
      show (c.apply e).play history = _
      rw [ih, apply_eq]
      rfl

/-- A get takes the entry while it is younger than the minimum time of its kind. -/
theorem get_eq_some_iff (c : AttrCache) (now : Instant) (fh : NfsFh4) (attrs : Fattr4) :
    c.get now fh = some attrs ↔ ∃ entry, (c.entries.lookup fh.bytes = some entry ∧
      now - entry.inserted < c.ttlMin entry.isDir) ∧ entry.attrs = attrs := by
  unfold get elapsed ttlMin
  cases c.entries.lookup fh.bytes with
  | none => simp
  | some entry => simp

/-- The cache is its reference store, seen through the minimum times to live. -/
structure Refines (c : AttrCache) : Prop where
  /-- A get returns the last put for the filehandle while that one is fresh. -/
  get_iff : ∀ history now fh attrs, Clocked history now →
    ((c.play history).get now fh = some attrs ↔ ∃ entry, (lastPut fh history = some entry ∧
      now - entry.inserted < c.ttlMin entry.isDir) ∧ entry.attrs = attrs)
  /-- Histories that are the same up to evictions. -/
  evict_invisible : ∀ history history' now fh,
    Clocked history now → Clocked history' now →
    history.filter (!·.op.isEvict) = history'.filter (!·.op.isEvict) →
    (c.play history).get now fh = (c.play history').get now fh
  /-- Histories that are the same up to operations on other filehandles. -/
  frame : ∀ history history' now fh,
    Clocked history now → Clocked history' now →
    history.filter (·.op.changes fh) = history'.filter (·.op.changes fh) →
    (c.play history).get now fh = (c.play history').get now fh

/-- What does not change what is stored for `fh` leaves its last put alone. -/
theorem remember_of_not_changes {fh : NfsFh4} (e : At AttrOp) (h : e.op.changes fh = false)
    (last : Option CachedAttrs) :
    TimedStore.remember fh.bytes last (AttrOp.toStore e).op = last := by
  obtain ⟨now, op⟩ := e
  cases op with
  | put fh' attrs isDir => exact if_neg (bytes_ne (of_decide_eq_false h))
  | get fh' => rfl
  | invalidate fh' => exact if_neg (bytes_ne (of_decide_eq_false h))
  | invalidateAll => cases h
  | evictExpired => rfl

/-- Eviction forgets nothing that the last `put` says. -/
theorem remember_of_isEvict {fh : NfsFh4} (e : At AttrOp) (h : (!e.op.isEvict) = false)
    (last : Option CachedAttrs) :
    TimedStore.remember fh.bytes last (AttrOp.toStore e).op = last := by
  obtain ⟨now, op⟩ := e
  cases op with
  | evictExpired => rfl
  | _ => cases h

section
variable {c : AttrCache} (hempty : c.entries = ∅) (hfile : c.fileTtlMin ≤ c.fileTtlMax)
  (hdir : c.dirTtlMin ≤ c.dirTtlMax)

include hempty hfile hdir

/-- A get of a cache that started empty, in the words of the reference. -/
theorem get_play_iff {history : List (At AttrOp)} {now : Instant}
    (h : Clocked history now) (fh : NfsFh4) (attrs : Fattr4) :
    (c.play history).get now fh = some attrs ↔ ∃ entry, (lastPut fh history = some entry ∧
      now - entry.inserted < c.ttlMin entry.isDir) ∧ entry.attrs = attrs := by
  have hle : ∀ entry : CachedAttrs, c.ttlMin entry.isDir ≤ c.ttlMax entry.isDir := by
    intro entry
    cases hkind : entry.isDir with
    | true => exact hdir
    | false => exact hfile
  have hclock := h.map (f := AttrOp.toStore) fun _ => rfl
  rw [get_eq_some_iff, play_eq, hempty]
  apply exists_congr
  intro entry
  exact and_congr_left' (TimedStore.lookup_fresh hclock hle fh.bytes entry)

/-- Histories with the same last put for `fh` give the same for it. -/
theorem get_play_congr {history history' : List (At AttrOp)} {now : Instant}
    (h : Clocked history now) (h' : Clocked history' now) {fh : NfsFh4}
    (hlast : lastPut fh history = lastPut fh history') :
    (c.play history).get now fh = (c.play history').get now fh := by
  apply Option.ext
  intro attrs
  rw [get_play_iff hempty hfile hdir h, get_play_iff hempty hfile hdir h', hlast]

/-- **Refinement.** An attribute cache does what the last call for a filehandle says. -/
theorem refines : Refines c where
  get_iff _ _ fh attrs h := get_play_iff hempty hfile hdir h fh attrs
  evict_invisible _ _ _ _ h h' heq :=
    get_play_congr hempty hfile hdir h h' (TimedStore.lastPut_congr remember_of_isEvict heq)
  frame _ _ _ _ h h' heq :=
    get_play_congr hempty hfile hdir h h' (TimedStore.lastPut_congr remember_of_not_changes heq)

end

end AttrCache

/-! ### The directory cache -/

/-- The calls of a directory cache. -/
inductive DirOp where
  | put (parentFh : NfsFh4) (entries : List DirEntry) (complete : Bool)
  | get (parentFh : NfsFh4)
  | isComplete (parentFh : NfsFh4)
  | invalidate (parentFh : NfsFh4)
  | evictExpired

namespace DirOp

/-- The operation on the reference store. A put is entered with its time. -/
def toStore (e : At DirOp) : At (StoreOp Bytes CachedDir) where
  now := e.now
  op :=
    match e.op with
    | .put fh entries complete => .put fh.bytes { entries, complete, inserted := e.now }
    | .get fh => .query fh.bytes
    | .isComplete fh => .query fh.bytes
    | .invalidate fh => .invalidate fh.bytes
    | .evictExpired => .evict

/-- The operation can change what is stored for `fh`. -/
def changes (fh : NfsFh4) : DirOp → Bool
  | .put fh' _ _ | .invalidate fh' => fh = fh'
  | .get _ | .isComplete _ | .evictExpired => false

/-- Eviction of what has expired. -/
def isEvict : DirOp → Bool
  | .evictExpired => true
  | _ => false

end DirOp

namespace DirCache

/-- The cache after a call. -/
def apply (c : DirCache) (e : At DirOp) : DirCache :=
  match e.op with
  | .put fh entries complete => c.put e.now fh entries complete
  | .get _ => c
  | .isComplete _ => c
  | .invalidate fh => c.invalidate fh
  | .evictExpired => c.evictExpired e.now

/-- The cache after a history. -/
def play (c : DirCache) (history : List (At DirOp)) : DirCache := history.foldl apply c

/-- The last put for `fh` that no later invalidation covers. -/
def lastPut (fh : NfsFh4) (history : List (At DirOp)) : Option CachedDir :=
  TimedStore.lastPut fh.bytes (history.map DirOp.toStore)

/-- An operation is the store's operation on the entries, and leaves the time alone. -/
theorem apply_eq (c : DirCache) (e : At DirOp) :
    c.apply e = { c with
      entries := TimedStore.apply CachedDir.inserted (fun _ => c.ttl) c.entries
        (DirOp.toStore e) } := by
  obtain ⟨now, op⟩ := e
  cases op <;> rfl

/-- The cache is the store of what its calls do. -/
theorem play_eq (c : DirCache) (history : List (At DirOp)) :
    c.play history = { c with
      entries := (history.map DirOp.toStore).foldl
        (TimedStore.apply CachedDir.inserted fun _ => c.ttl) c.entries } := by
  induction history generalizing c with
  | nil => rfl
  | cons e history ih =>
      show (c.apply e).play history = _
      rw [ih, apply_eq]
      rfl

/-- A listing is served as long as it lives. -/
theorem get_eq_some_iff (c : DirCache) (now : Instant) (fh : NfsFh4) (entries : List DirEntry) :
    c.get now fh = some entries ↔ ∃ entry, (c.entries.lookup fh.bytes = some entry ∧
      now - entry.inserted < c.ttl) ∧ entry.entries = entries := by
  unfold get elapsed
  cases c.entries.lookup fh.bytes with
  | none => simp
  | some entry => simp

/-- A listing is known to be whole as long as it lives. -/
theorem isComplete_iff (c : DirCache) (now : Instant) (fh : NfsFh4) :
    c.isComplete now fh = true ↔ ∃ entry, (c.entries.lookup fh.bytes = some entry ∧
      now - entry.inserted < c.ttl) ∧ entry.complete = true := by
  unfold isComplete elapsed
  cases c.entries.lookup fh.bytes with
  | none => simp
  | some entry => simp [and_comm]

/-- The cache is its reference store, seen through the time to live. -/
structure Refines (c : DirCache) : Prop where
  /-- A get returns the last put for the filehandle while that one is fresh. -/
  get_iff : ∀ history now fh entries, Clocked history now →
    ((c.play history).get now fh = some entries ↔ ∃ entry, (lastPut fh history = some entry ∧
      now - entry.inserted < c.ttl) ∧ entry.entries = entries)
  /-- A listing is complete when the last put was, while that one is fresh. -/
  isComplete_iff : ∀ history now fh, Clocked history now →
    ((c.play history).isComplete now fh = true ↔ ∃ entry, (lastPut fh history = some entry ∧
      now - entry.inserted < c.ttl) ∧ entry.complete = true)
  /-- Histories that are the same up to evictions. -/
  evict_invisible : ∀ history history' now fh,
    Clocked history now → Clocked history' now →
    history.filter (!·.op.isEvict) = history'.filter (!·.op.isEvict) →
    (c.play history).get now fh = (c.play history').get now fh ∧
    (c.play history).isComplete now fh = (c.play history').isComplete now fh
  /-- Histories that are the same up to operations on other filehandles. -/
  frame : ∀ history history' now fh,
    Clocked history now → Clocked history' now →
    history.filter (·.op.changes fh) = history'.filter (·.op.changes fh) →
    (c.play history).get now fh = (c.play history').get now fh ∧
    (c.play history).isComplete now fh = (c.play history').isComplete now fh

/-- What does not change what is stored for `fh` leaves its last put alone. -/
theorem remember_of_not_changes {fh : NfsFh4} (e : At DirOp) (h : e.op.changes fh = false)
    (last : Option CachedDir) :
    TimedStore.remember fh.bytes last (DirOp.toStore e).op = last := by
  obtain ⟨now, op⟩ := e
  cases op with
  | put fh' entries complete => exact if_neg (bytes_ne (of_decide_eq_false h))
  | get fh' => rfl
  | isComplete fh' => rfl
  | invalidate fh' => exact if_neg (bytes_ne (of_decide_eq_false h))
  | evictExpired => rfl

/-- Eviction forgets nothing that the last `put` says. -/
theorem remember_of_isEvict {fh : NfsFh4} (e : At DirOp) (h : (!e.op.isEvict) = false)
    (last : Option CachedDir) :
    TimedStore.remember fh.bytes last (DirOp.toStore e).op = last := by
  obtain ⟨now, op⟩ := e
  cases op with
  | evictExpired => rfl
  | _ => cases h

section
variable {c : DirCache} (hempty : c.entries = ∅)

include hempty

/-- What is young in the cache is what is young in the reference. -/
theorem lookup_play_iff {history : List (At DirOp)} {now : Instant}
    (h : Clocked history now) (fh : NfsFh4) (entry : CachedDir) :
    ((c.play history).entries.lookup fh.bytes = some entry ∧ now - entry.inserted < c.ttl) ↔
      (lastPut fh history = some entry ∧ now - entry.inserted < c.ttl) := by
  have hclock := h.map (f := DirOp.toStore) fun _ => rfl
  rw [play_eq, hempty]
  exact TimedStore.lookup_fresh hclock (fun _ => Nat.le_refl c.ttl) fh.bytes entry

/-- After any calls a listing is served when the last call for its directory put it there. -/
theorem get_play_iff {history : List (At DirOp)} {now : Instant}
    (h : Clocked history now) (fh : NfsFh4) (entries : List DirEntry) :
    (c.play history).get now fh = some entries ↔ ∃ entry, (lastPut fh history = some entry ∧
      now - entry.inserted < c.ttl) ∧ entry.entries = entries := by
  have httl : (c.play history).ttl = c.ttl := by rw [play_eq]
  rw [get_eq_some_iff, httl]
  apply exists_congr
  intro entry
  exact and_congr_left' (lookup_play_iff hempty h fh entry)

/-- After any calls a listing is known to be whole when the last call said so. -/
theorem isComplete_play_iff {history : List (At DirOp)} {now : Instant}
    (h : Clocked history now) (fh : NfsFh4) :
    (c.play history).isComplete now fh = true ↔ ∃ entry, (lastPut fh history = some entry ∧
      now - entry.inserted < c.ttl) ∧ entry.complete = true := by
  have httl : (c.play history).ttl = c.ttl := by rw [play_eq]
  rw [DirCache.isComplete_iff, httl]
  apply exists_congr
  intro entry
  exact and_congr_left' (lookup_play_iff hempty h fh entry)

/-- Histories with the same last put for `fh` give the same for it. -/
theorem play_congr {history history' : List (At DirOp)} {now : Instant}
    (h : Clocked history now) (h' : Clocked history' now) {fh : NfsFh4}
    (hlast : lastPut fh history = lastPut fh history') :
    (c.play history).get now fh = (c.play history').get now fh ∧
    (c.play history).isComplete now fh = (c.play history').isComplete now fh := by
  constructor
  · apply Option.ext
    intro entries
    rw [get_play_iff hempty h, get_play_iff hempty h', hlast]
  · rw [Bool.eq_iff_iff, isComplete_play_iff hempty h, isComplete_play_iff hempty h', hlast]

/-- **Refinement.** A directory cache does what the last call for a directory says. -/
theorem refines : Refines c where
  get_iff _ _ fh entries h := get_play_iff hempty h fh entries
  isComplete_iff _ _ fh h := isComplete_play_iff hempty h fh
  evict_invisible _ _ _ _ h h' heq :=
    play_congr hempty h h' (TimedStore.lastPut_congr remember_of_isEvict heq)
  frame _ _ _ _ h h' heq :=
    play_congr hempty h h' (TimedStore.lastPut_congr remember_of_not_changes heq)

end

end DirCache

/-- **The caches are their reference stores.** The times of the attribute cache have to be in
order. Those of the default configuration are. -/
theorem caches_refine (fileTtlMin fileTtlMax dirTtlMin dirTtlMax ttl : Duration)
    (hfile : fileTtlMin ≤ fileTtlMax) (hdir : dirTtlMin ≤ dirTtlMax) :
    (AttrCache.new fileTtlMin fileTtlMax dirTtlMin dirTtlMax).Refines ∧
    (DirCache.new ttl).Refines :=
  ⟨AttrCache.refines rfl hfile hdir, DirCache.refines rfl⟩

/-- The caches of a mount with the default configuration. -/
theorem default_caches_refine :
    MountConfig.default.attrCache.Refines ∧ MountConfig.default.dirCache.Refines :=
  caches_refine _ _ _ _ _ MountConfig.default_le.1 MountConfig.default_le.2

end NfsMount.Mount
