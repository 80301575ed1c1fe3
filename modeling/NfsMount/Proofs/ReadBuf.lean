import NfsMount.Lib.Extent
import NfsMount.Lib.Run
import NfsMount.Mount.ReadBuf

/-!
# `NfsMount.Proofs.ReadBuf`: reads from the buffer are reads of the file

The runs of a read-ahead buffer over a file that may change. The buffer is filled with a
range of the file as it is then. When the file has changed, the buffer is invalidated before
it serves the next read. A run remembers the range of the last fill, until the buffer is
invalidated.

The invariant says that the buffer is a range of the file, unless the file has changed since
the last invalidation. A read that is served is then a range of that range, and so a range
of the file. `reads_equal_file` states this for the next read in every state of every run,
and that the read is served when the last fill covers it.
-/

set_option autoImplicit false

namespace NfsMount.Mount

open NfsMount.Lib NfsMount.XdrCodec

/-- A buffer and the file that it is filled from. -/
structure ReadAhead where
  buf : ReadAheadBuf
  file : Bytes
  /-- Whether the file has changed since the buffer was last invalidated. -/
  changed : Bool
  /-- The offset and the length of the last fill, unless the buffer was invalidated since. -/
  filled : Option (UInt64 × Nat)

/-- The calls of a program that reads ahead. -/
inductive ReadCall where
  | tryRead (offset len : UInt64)
  | fill (offset : UInt64) (data : Bytes)
  | fetchPlan (offset requestedLen : UInt64)
  | invalidate
  /-- The file gets a new content. -/
  | change (file : Bytes)

namespace ReadAhead

/-- The program has fetched nothing. -/
def new (maxSize : UInt64) (file : Bytes) : ReadAhead where
  buf := ReadAheadBuf.new maxSize
  file := file
  changed := false
  filled := none

/-- A read needs an unchanged file, and a fill the bytes of the file. Both end below
`2 ^ 64`. -/
def step (m : Build) (r : ReadAhead) : ReadCall → Option ReadAhead
  | .tryRead offset len =>
      if r.changed = false ∧ offset.toNat + len.toNat < 2 ^ 64 then
        match r.buf.tryRead m offset len with
        | none => none
        | some (_, buf) => some { r with buf }
      else
        none
  | .fill offset data =>
      if data = extent r.file offset.toNat data.length ∧ offset.toNat + data.length < 2 ^ 64 then
        some { r with buf := r.buf.fill offset data, filled := some (offset, data.length) }
      else
        none
  | .fetchPlan offset requestedLen =>
      match r.buf.fetchPlan m offset requestedLen with
      | none => none
      | some _ => some r
  | .invalidate => some { r with buf := r.buf.invalidate, changed := false, filled := none }
  | .change file => some { r with file, changed := true }

/-- The buffer is a range of the file as it was after the last invalidation, and it is the
range of the last fill. -/
structure Inv (r : ReadAhead) : Prop where
  range : r.buf.bufOffset.toNat + r.buf.data.length < 2 ^ 64
  filled : ∀ offset len, r.filled = some (offset, len) →
    r.buf.bufOffset = offset ∧ r.buf.data.length = len
  current : r.changed = false →
    r.buf.data = extent r.file r.buf.bufOffset.toNat r.buf.data.length

/-- A new buffer has the invariant. -/
theorem inv_new (maxSize : UInt64) (file : Bytes) : Inv (new maxSize file) where
  range := Nat.two_pow_pos 64
  filled _ _ h := nomatch h
  current _ := rfl

end ReadAhead

/-- A slice that is in range is a range of the data. -/
theorem sliceRange_of_le {data : Bytes} {start len : Nat} (h : start + len ≤ data.length) :
    sliceRange data start (start + len) = some (extent data start len) := by
  rw [sliceRange, if_pos ⟨Nat.le_add_right start len, h⟩, Nat.add_sub_cancel_left]
  rfl

namespace ReadAheadBuf

/-- A read returns the requested range of the buffer, exactly when the buffer covers it, and
the buffered range stays as it is. -/
theorem tryRead_spec (m : Build) {b : ReadAheadBuf} {offset len : UInt64}
    (hb : b.bufOffset.toNat + b.data.length < 2 ^ 64)
    (hrange : offset.toNat + len.toNat < 2 ^ 64) :
    ∃ result b', b.tryRead m offset len = some (result, b') ∧
      b'.data = b.data ∧ b'.bufOffset = b.bufOffset ∧
      result = if b.bufOffset.toNat ≤ offset.toNat ∧
          offset.toNat + len.toNat ≤ b.bufOffset.toNat + b.data.length then
        some (extent b.data (offset.toNat - b.bufOffset.toNat) len.toNat) else none := by
  have hlen : (UInt64.ofNat b.data.length).toNat = b.data.length :=
    UInt64.toNat_ofNat_of_lt' (by show _ < 2 ^ 64; omega)
  have hbufEnd := Build.addU64_of_lt m (hlen.symm ▸ hb)
  have hreadEnd := Build.addU64_of_lt m hrange
  -- Neither sum wraps, so the test compares the ends of the two ranges.
  have hcmp : offset + len ≤ b.bufOffset + UInt64.ofNat b.data.length ↔
      offset.toNat + len.toNat ≤ b.bufOffset.toNat + b.data.length := by
    rw [UInt64.le_iff_toNat_le, UInt64.toNat_add, UInt64.toNat_add, hlen, Nat.mod_eq_of_lt hb,
      Nat.mod_eq_of_lt hrange]
  by_cases hlo : b.bufOffset ≤ offset
  · have hloNat := UInt64.le_iff_toNat_le.mp hlo
    by_cases hhi : offset + len ≤ b.bufOffset + UInt64.ofNat b.data.length
    · -- The read is covered, so the slice is in range.
      have hhiNat := hcmp.mp hhi
      have hstart := Build.subU64_of_le m hlo
      have hstartNat := UInt64.toNat_sub_of_le _ _ hlo
      have hstop := Build.addU64_of_lt m (x := offset - b.bufOffset) (y := len)
        (by rw [hstartNat]; omega)
      have hstopNat : (offset - b.bufOffset + len).toNat =
          offset.toNat - b.bufOffset.toNat + len.toNat := by
        rw [UInt64.toNat_add, hstartNat, Nat.mod_eq_of_lt (by omega)]
      have hslice : sliceRange b.data (offset - b.bufOffset).toNat
          (offset - b.bufOffset + len).toNat =
          some (extent b.data (offset.toNat - b.bufOffset.toNat) len.toNat) := by
        rw [hstopNat, hstartNat]
        exact sliceRange_of_le (by omega)
      refine ⟨_, { b.countRead offset with lastReadEnd := offset + len }, ?_, rfl, rfl,
        (if_pos ⟨hloNat, hhiNat⟩).symm⟩
      simp only [tryRead, countRead, hbufEnd, hreadEnd, hstart, hstop, hslice, if_pos hlo,
        if_pos hhi, Option.bind_eq_bind, Option.bind_some]
    · refine ⟨none, b.countRead offset, ?_, rfl, rfl, (if_neg fun h => hhi (hcmp.mpr h.2)).symm⟩
      simp only [tryRead, countRead, hbufEnd, hreadEnd, if_pos hlo, if_neg hhi,
        Option.bind_eq_bind, Option.bind_some]
  · refine ⟨none, b.countRead offset, ?_, rfl, rfl,
      (if_neg fun h => hlo (UInt64.le_iff_toNat_le.mpr h.1)).symm⟩
    simp only [tryRead, countRead, hbufEnd, Option.bind_eq_bind, Option.bind_some]
    exact if_neg hlo

end ReadAheadBuf

namespace ReadAhead

variable {m : Build} {r r' : ReadAhead}

/-- **Step.** Every call keeps the invariant. -/
theorem inv_step {call : ReadCall} (hr : Inv r) (h : step m r call = some r') : Inv r' := by
  cases call with
  | tryRead offset len =>
      rw [step] at h
      by_cases hguard : r.changed = false ∧ offset.toNat + len.toNat < 2 ^ 64
      · obtain ⟨result, buf, hread, hdata, hoffset, -⟩ :=
          ReadAheadBuf.tryRead_spec m hr.range hguard.2
        rw [if_pos hguard, hread] at h
        obtain rfl := Option.some.inj h
        refine ⟨?_, ?_, ?_⟩
        · rw [hdata, hoffset]
          exact hr.range
        · rw [hdata, hoffset]
          exact hr.filled
        · rw [hdata, hoffset]
          exact hr.current
      · rw [if_neg hguard] at h
        simp at h
  | fill offset data =>
      rw [step] at h
      split at h
      · rename_i hguard
        obtain rfl := Option.some.inj h
        refine ⟨hguard.2, fun o n hfilled => ?_, fun _ => hguard.1⟩
        obtain ⟨rfl, rfl⟩ := Prod.mk.inj (Option.some.inj hfilled)
        exact ⟨rfl, rfl⟩
      · simp at h
  | fetchPlan offset requestedLen =>
      rw [step] at h
      split at h
      · simp at h
      · exact Option.some.inj h ▸ hr
  | invalidate =>
      obtain rfl := Option.some.inj h
      -- An empty buffer is a range of any file.
      exact ⟨Nat.two_pow_pos 64, by simp, fun _ => rfl⟩
  | change file =>
      obtain rfl := Option.some.inj h
      -- The buffer is stale now, and the invariant no longer says what it holds.
      exact ⟨hr.range, hr.filled, by simp⟩

end ReadAhead

/-- **Reads from the buffer equal the file.** In every state of every run, while the file has
not changed since the last invalidation, the next read does not panic. If it is served, it
returns `len` bytes, and they are the bytes of the file. If the last fill covers it, it is
served. -/
theorem reads_equal_file (m : Build) (maxSize : UInt64) (file : Bytes) (calls : List ReadCall)
    {r : ReadAhead} (h : run (ReadAhead.step m) (ReadAhead.new maxSize file) calls = some r)
    (hchanged : r.changed = false) (offset len : UInt64)
    (hrange : offset.toNat + len.toNat < 2 ^ 64) :
    ∃ result buf, r.buf.tryRead m offset len = some (result, buf) ∧
      (∀ bytes, result = some bytes →
        bytes.length = len.toNat ∧ bytes = extent r.file offset.toNat len.toNat) ∧
      (∀ o n, r.filled = some (o, n) → o.toNat ≤ offset.toNat →
        offset.toNat + len.toNat ≤ o.toNat + n → result.isSome) := by
  have hr : ReadAhead.Inv r :=
    run_invariant (fun _ _ _ hr h => ReadAhead.inv_step hr h) (ReadAhead.inv_new maxSize file) h
  obtain ⟨result, buf, hread, -, -, hresult⟩ := ReadAheadBuf.tryRead_spec m hr.range hrange
  refine ⟨result, buf, hread, fun bytes hbytes => ?_, fun o n hfilled hlo hhi => ?_⟩
  · rw [hresult] at hbytes
    split at hbytes
    · rename_i hcovers
      obtain rfl := Option.some.inj hbytes
      obtain ⟨hlo, hhi⟩ := hcovers
      refine ⟨?_, ?_⟩
      · rw [extent, List.length_take, List.length_drop]
        omega
      · -- What was filled is a part of the file, and the read a part of that.
        rw [hr.current hchanged, extent_extent _ (by omega)]
        congr 1
        omega
    · simp at hbytes
  · obtain ⟨hoffset, hlength⟩ := hr.filled o n hfilled
    rw [hresult, hoffset, hlength, if_pos ⟨hlo, hhi⟩]
    rfl

/-- The file changes after a read. The buffer is invalidated and filled again, and serves the
new bytes. -/
theorem reads_equal_file_changed :
    ∃ buf, (ReadAheadBuf.mk [0, 1, 2] 0 8 2 0).tryRead .checked 1 2 = some (some [1, 2], buf) := by
  obtain ⟨result, buf, hread, hfile, hserved⟩ := reads_equal_file .checked 8 [5, 6, 7, 8]
    [.fill 1 [6, 7, 8], .tryRead 1 1, .change [0, 1, 2, 3], .invalidate, .fill 0 [0, 1, 2]]
    (r := ⟨⟨[0, 1, 2], 0, 8, 2, 0⟩, [0, 1, 2, 3], false, some (0, 3)⟩) rfl rfl 1 2 (by decide)
  obtain ⟨bytes, rfl⟩ := Option.isSome_iff_exists.mp (hserved 0 3 rfl (by decide) (by decide))
  obtain ⟨-, rfl⟩ := hfile bytes rfl
  exact ⟨buf, hread⟩

end NfsMount.Mount
