import NfsMount.Mount.Buffers
import NfsMount.Proofs.ReadBuf
import NfsMount.Proofs.WriteBuf

/-!
# `NfsMount.Proofs.BufferArith`: the arithmetic of the buffers at the end of the range

Offsets are 64-bit numbers, and the buffers add lengths to them. A checked build panics when
such a sum leaves the range. A release build wraps it, and then compares the wrapped sums.

`Safe` says of one call that it does not panic and, for a read and a write, that what it
serves or joins is in place. `InRange` is a condition on the buffer before the call and on
the arguments. The two are the same for every call on every vector (`readSafe_iff`,
`writeSafe_iff`), and so along every run (`buffers_safe_iff`).
-/

set_option autoImplicit false

namespace NfsMount.Mount

open NfsMount.Lib NfsMount.XdrCodec

/-! ### Reads -/

namespace ReadAheadBuf

variable {m : Build} {b : ReadAheadBuf} {offset len : UInt64}

/-- The call returns, and the bytes that it serves are those of the buffer at that offset. -/
def ReadSafe (m : Build) (b : ReadAheadBuf) (offset len : UInt64) : Prop :=
  ∃ result b', b.tryRead m offset len = some (result, b') ∧
    ∀ bytes, result = some bytes →
      b.bufOffset.toNat ≤ offset.toNat ∧
      offset.toNat + len.toNat ≤ b.bufOffset.toNat + b.data.length ∧
      bytes = extent b.data (offset.toNat - b.bufOffset.toNat) len.toNat

/-- In a checked build no sum that the call makes leaves the range. In a release build the end
of the read does not wrap to a place below the end of the buffer, unless that end wraps too. -/
def ReadInRange (m : Build) (b : ReadAheadBuf) (offset len : UInt64) : Prop :=
  match m with
  | .checked =>
      b.bufOffset.toNat + b.data.length < 2 ^ 64 ∧
        (b.bufOffset ≤ offset → offset.toNat + len.toNat < 2 ^ 64)
  | .release =>
      b.bufOffset ≤ offset → b.bufOffset.toNat + b.data.length < 2 ^ 64 →
        2 ^ 64 ≤ offset.toNat + len.toNat →
        b.bufOffset.toNat + b.data.length < offset.toNat + len.toNat - 2 ^ 64

/-- A read in front of the buffer is not served. -/
theorem readSafe_of_lt (hb : b.IsVec) (hlt : ¬ b.bufOffset ≤ offset) :
    ReadSafe m b offset len ↔ ReadInRange m b offset len := by
  have hlen := toNat_length_vec hb
  cases hend : m.addU64 b.bufOffset (UInt64.ofNat b.data.length) with
  | none =>
      obtain ⟨rfl, hover⟩ := Build.addU64_eq_none_iff.mp hend
      rw [hlen] at hover
      refine iff_of_false ?_ fun h => Nat.not_le.mpr h.1 hover
      rintro ⟨result, b', hread, -⟩
      simp [tryRead, countRead, hend] at hread
  | some bufEnd =>
      refine iff_of_true ⟨none, b.countRead offset, ?_, by simp⟩ ?_
      · simp only [tryRead, countRead, hend, Option.bind_eq_bind, Option.bind_some]
        exact if_neg hlt
      · cases m with
        | checked =>
            refine ⟨?_, fun h => absurd h hlt⟩
            by_contra hover
            rw [Build.addU64_eq_none_iff.mpr ⟨rfl, by rw [hlen]; omega⟩] at hend
            simp at hend
        | release => exact fun h => absurd h hlt

/-- In a checked build the first sum that leaves the range panics. -/
theorem readSafe_checked (hb : b.IsVec) (hle : b.bufOffset ≤ offset) :
    ReadSafe .checked b offset len ↔ ReadInRange .checked b offset len := by
  have hlen := toNat_length_vec hb
  constructor
  · rintro ⟨result, b', hread, -⟩
    rw [tryRead] at hread
    -- The end of the buffer is computed before anything is compared.
    obtain ⟨bufEnd, hend, hread⟩ := Option.bind_eq_some_iff.mp hread
    have hfits : b.bufOffset.toNat + b.data.length < 2 ^ 64 := by
      by_contra hover
      have hnone : Build.addU64 .checked b.bufOffset (UInt64.ofNat b.data.length) = none :=
        Build.addU64_eq_none_iff.mpr ⟨rfl, by rw [hlen]; omega⟩
      have hpanic : some bufEnd = none := hend.symm.trans hnone
      simp at hpanic
    refine ⟨hfits, fun _ => ?_⟩
    -- The end of the read is computed only behind the start of the buffer.
    rw [if_pos (show (b.countRead offset).bufOffset ≤ offset from hle)] at hread
    obtain ⟨readEnd, hreadEnd, -⟩ := Option.bind_eq_some_iff.mp hread
    by_contra hover
    have hnone : Build.addU64 .checked offset len = none :=
      Build.addU64_eq_none_iff.mpr ⟨rfl, by omega⟩
    rw [hnone] at hreadEnd
    simp at hreadEnd
  · rintro ⟨hfits, hrange⟩
    obtain ⟨result, b', hread, -, -, hresult⟩ := tryRead_spec .checked hfits (hrange hle)
    refine ⟨result, b', hread, fun bytes hbytes => ?_⟩
    rw [hresult] at hbytes
    split at hbytes
    · rename_i hcovers
      exact ⟨hcovers.1, hcovers.2, (Option.some.inj hbytes).symm⟩
    · simp at hbytes

/-- A read in a release build, in natural numbers. -/
theorem run_tryRead_release (hle : b.bufOffset ≤ offset) :
    b.tryRead .release offset len =
      if offset + len ≤ b.bufOffset + UInt64.ofNat b.data.length then
        (sliceRange b.data (offset - b.bufOffset).toNat (offset - b.bufOffset + len).toNat).map
          fun bytes => (some bytes, { b.countRead offset with lastReadEnd := offset + len })
      else some (none, b.countRead offset) := by
  show (if b.bufOffset ≤ offset then _ else _) = _
  rw [if_pos hle, Option.map_eq_bind]
  rfl

/-- In a release build a read is in trouble when its end wraps and the end of the buffer does
not: then it can seem to be covered, and the slice is out of range. -/
theorem readSafe_release (hb : b.IsVec) (hle : b.bufOffset ≤ offset) :
    ReadSafe .release b offset len ↔ ReadInRange .release b offset len := by
  have hlen := toNat_length_vec hb
  have hdata : b.data.length < 2 ^ 63 := hb
  have hleNat := UInt64.le_iff_toNat_le.mp hle
  have hoffset := offset.toNat_lt
  have hlenLt := len.toNat_lt
  have hstart := UInt64.toNat_sub_of_le _ _ hle
  -- The test compares what is left of the two ends after the wrap.
  have hcmp : offset + len ≤ b.bufOffset + UInt64.ofNat b.data.length ↔
      (offset.toNat + len.toNat) % 2 ^ 64 ≤ (b.bufOffset.toNat + b.data.length) % 2 ^ 64 := by
    rw [UInt64.le_iff_toNat_le, UInt64.toNat_add, UInt64.toNat_add, hlen]
  have hstop : (offset - b.bufOffset + len).toNat =
      (offset.toNat - b.bufOffset.toNat + len.toNat) % 2 ^ 64 := by
    rw [UInt64.toNat_add, hstart]
  by_cases hhit : offset + len ≤ b.bufOffset + UInt64.ofNat b.data.length
  · have hhitNat := hcmp.mp hhit
    by_cases hcovers : offset.toNat + len.toNat ≤ b.bufOffset.toNat + b.data.length
    · -- The slice is in range, also when both ends wrap.
      have hstopNat : (offset - b.bufOffset + len).toNat =
          (offset - b.bufOffset).toNat + len.toNat := by
        rw [hstop, hstart, Nat.mod_eq_of_lt (by omega)]
      refine iff_of_true ⟨some (extent b.data (offset.toNat - b.bufOffset.toNat) len.toNat),
        { b.countRead offset with lastReadEnd := offset + len }, ?_, ?_⟩ fun _ h1 h2 => by omega
      · rw [run_tryRead_release hle, if_pos hhit, hstopNat,
          sliceRange_of_le (by rw [hstart]; omega), hstart]
        rfl
      · rintro bytes ⟨⟩
        exact ⟨hleNat, hcovers, rfl⟩
    · -- Only the end of the read has wrapped, and the slice ends outside of the buffer.
      have hslice : sliceRange b.data (offset - b.bufOffset).toNat
          (offset - b.bufOffset + len).toNat = none := by
        rw [sliceRange, if_neg]
        rw [hstop, hstart]
        omega
      refine iff_of_false ?_ fun h => ?_
      · rintro ⟨result, b', hread, -⟩
        rw [run_tryRead_release hle, if_pos hhit, hslice] at hread
        simp at hread
      · have := h hle (by omega) (by omega)
        omega
  · have hmiss := mt hcmp.mpr hhit
    refine iff_of_true ⟨none, b.countRead offset, ?_, by simp⟩ fun _ h1 h2 => by omega
    rw [run_tryRead_release hle, if_neg hhit]

/-- A read is safe exactly when it is in range. -/
theorem readSafe_iff (hb : b.IsVec) : ReadSafe m b offset len ↔ ReadInRange m b offset len := by
  by_cases hle : b.bufOffset ≤ offset
  · cases m with
    | checked => exact readSafe_checked hb hle
    | release => exact readSafe_release hb hle
  · exact readSafe_of_lt hb hle

/-- A plan panics when four times the length leaves the range, in a checked build and after
sequential reads. -/
theorem fetchPlan_eq_none_iff :
    b.fetchPlan m offset len = none ↔
      m = .checked ∧ 2 ≤ b.sequentialCount ∧ 2 ^ 64 ≤ len.toNat * 4 := by
  rw [fetchPlan]
  by_cases hseq : 2 ≤ b.sequentialCount
  · rw [if_pos hseq, Option.bind_eq_bind]
    cases hmul : m.mulU64 len 4 with
    | none =>
        obtain ⟨hm, hover⟩ := Build.mulU64_eq_none_iff.mp hmul
        exact iff_of_true rfl ⟨hm, hseq, hover⟩
    | some grown =>
        refine iff_of_false (by simp) fun ⟨hm, _, hover⟩ => ?_
        rw [Build.mulU64_eq_none_iff.mpr ⟨hm, hover⟩] at hmul
        simp at hmul
  · rw [if_neg hseq]
    exact iff_of_false (by simp) fun h => hseq h.2.1

end ReadAheadBuf

/-- A call on a read-ahead buffer does not panic, and a read is served the right bytes. -/
def ReadOp.Safe (m : Build) (b : ReadAheadBuf) : ReadOp → Prop
  | .tryRead offset len => b.ReadSafe m offset len
  | .fill _ _ => True
  | .fetchPlan offset requestedLen => b.fetchPlan m offset requestedLen ≠ none
  | .invalidate => True

/-- The call stays in the range of the arithmetic. -/
def ReadOp.InRange (m : Build) (b : ReadAheadBuf) : ReadOp → Prop
  | .tryRead offset len => b.ReadInRange m offset len
  | .fill _ _ => True
  | .fetchPlan _ requestedLen =>
      m = .checked → 2 ≤ b.sequentialCount → requestedLen.toNat * 4 < 2 ^ 64
  | .invalidate => True

/-- A call of the read buffer is safe exactly in range. -/
theorem ReadOp.safe_iff {m : Build} {b : ReadAheadBuf} (hb : b.IsVec) (op : ReadOp) :
    op.Safe m b ↔ op.InRange m b := by
  cases op with
  | tryRead offset len => exact ReadAheadBuf.readSafe_iff hb
  | fill offset data => exact Iff.rfl
  | fetchPlan offset requestedLen =>
      show _ ≠ none ↔ (m = .checked → _ → _)
      rw [ne_eq, ReadAheadBuf.fetchPlan_eq_none_iff, not_and, not_and]
      simp only [Nat.not_le]
  | invalidate => exact Iff.rfl

/-! ### Writes -/

namespace WriteBuf

variable {m : Build} {b : WriteBuf} {offset : UInt64} {data : Bytes}

/-- The call returns, and a write that joins the buffered data starts where that data ends. -/
def WriteSafe (m : Build) (b : WriteBuf) (offset : UInt64) (data : Bytes) : Prop :=
  ∃ flushed b', b.write m offset data = some (flushed, b') ∧
    (b.dirty = true → flushed = none → offset.toNat = b.bufOffset.toNat + b.data.length)

/-- In a checked build the buffered data ends below `2 ^ 64`. In a release build that end does
not wrap to the offset of a write that the buffer has room for. -/
def WriteInRange (m : Build) (b : WriteBuf) (offset : UInt64) (data : Bytes) : Prop :=
  match m with
  | .checked => b.dirty = true → b.bufOffset.toNat + b.data.length < 2 ^ 64
  | .release =>
      b.dirty = true → 2 ^ 64 ≤ b.bufOffset.toNat + b.data.length →
        offset.toNat = b.bufOffset.toNat + b.data.length - 2 ^ 64 →
        b.maxSize.toNat < b.data.length + data.length

/-- A write to a clean buffer starts a new range. -/
theorem write_of_clean (hclean : b.dirty = false) :
    b.write m offset data
      = some (none, { b with data := b.data ++ data, bufOffset := offset, dirty := true }) := by
  simp [write, hclean]

/-- A write to a dirty buffer joins the buffered data, unless that must be flushed. -/
theorem write_of_dirty (hdirty : b.dirty = true) :
    b.write m offset data = (b.mustFlush m offset data).map fun full =>
      if full then
        (some b.takeFlush.1, { b with data := data, bufOffset := offset, dirty := true })
      else (none, { b with data := b.data ++ data, dirty := true }) := by
  rw [write, hdirty, if_pos rfl, Option.map_eq_bind]
  refine congrArg _ (funext fun full => ?_)
  cases full with
  | true => simp [takeFlush]
  | false => simp [hdirty]

/-- The test, on vectors. Their lengths never have a sum out of range. -/
theorem mustFlush_of_isVec (m : Build) (hb : b.IsVec) (hdata : data.length < 2 ^ 63) :
    b.mustFlush m offset data =
      if m = .checked ∧ 2 ^ 64 ≤ b.bufOffset.toNat + b.data.length then none
      else some (decide (offset.toNat ≠ (b.bufOffset.toNat + b.data.length) % 2 ^ 64 ∨
        b.maxSize.toNat < b.data.length + data.length)) := by
  have hvec : b.data.length < 2 ^ 63 := hb
  exact mustFlush_eq m (by omega) (by omega) (by omega)

/-- A panic is not safe. -/
theorem not_writeSafe_of_panic (hdirty : b.dirty = true)
    (h : b.mustFlush m offset data = none) : ¬ WriteSafe m b offset data := by
  rintro ⟨flushed, b', hwrite, -⟩
  rw [write_of_dirty hdirty, h] at hwrite
  simp at hwrite

/-- When the buffered data is flushed, nothing is joined. -/
theorem writeSafe_of_flush (hdirty : b.dirty = true)
    (h : b.mustFlush m offset data = some true) : WriteSafe m b offset data := by
  refine ⟨some b.takeFlush.1, { b with data := data, bufOffset := offset, dirty := true }, ?_, ?_⟩
  · rw [write_of_dirty hdirty, h]
    rfl
  · intro _ hnone
    simp at hnone

/-- A write that is joined is safe when it starts where the buffered data ends. -/
theorem writeSafe_join_iff (hdirty : b.dirty = true)
    (h : b.mustFlush m offset data = some false) :
    WriteSafe m b offset data ↔ offset.toNat = b.bufOffset.toNat + b.data.length := by
  have hwrite : b.write m offset data
      = some (none, { b with data := b.data ++ data, dirty := true }) := by
    rw [write_of_dirty hdirty, h]
    rfl
  constructor
  · rintro ⟨flushed, b', hwrite', hsafe⟩
    rw [hwrite] at hwrite'
    obtain ⟨rfl, -⟩ := Prod.mk.inj (Option.some.inj hwrite')
    exact hsafe hdirty rfl
  · exact fun heq => ⟨_, _, hwrite, fun _ _ => heq⟩

/-- A write to a dirty buffer. The end that wraps is the only one that goes wrong. -/
theorem writeSafe_of_dirty (hb : b.IsVec) (hdata : data.length < 2 ^ 63)
    (hdirty : b.dirty = true) : WriteSafe m b offset data ↔ WriteInRange m b offset data := by
  have hvec : b.data.length < 2 ^ 63 := hb
  have hoffset := b.bufOffset.toNat_lt
  have hflush : b.mustFlush m offset data = _ := mustFlush_of_isVec m hb hdata
  by_cases hpanic : m = .checked ∧ 2 ^ 64 ≤ b.bufOffset.toNat + b.data.length
  · rw [if_pos hpanic] at hflush
    obtain ⟨rfl, hover⟩ := hpanic
    exact iff_of_false (not_writeSafe_of_panic hdirty hflush)
      fun h => Nat.not_le.mpr (h hdirty) hover
  · rw [if_neg hpanic] at hflush
    have hfits : m = .checked → b.bufOffset.toNat + b.data.length < 2 ^ 64 :=
      fun hm => Nat.not_le.mp fun hover => hpanic ⟨hm, hover⟩
    by_cases hjoin : offset.toNat ≠ (b.bufOffset.toNat + b.data.length) % 2 ^ 64 ∨
        b.maxSize.toNat < b.data.length + data.length
    · rw [decide_eq_true hjoin] at hflush
      refine iff_of_true (writeSafe_of_flush hdirty hflush) ?_
      cases m with
      | checked => exact fun _ => hfits rfl
      | release =>
          intro _ hover heq
          refine hjoin.resolve_left fun hne => hne ?_
          omega
    · rw [decide_eq_false hjoin] at hflush
      obtain ⟨heq, hroom⟩ := not_or.mp hjoin
      rw [writeSafe_join_iff hdirty hflush, not_not.mp heq]
      cases m with
      | checked =>
          have hend := hfits rfl
          exact iff_of_true (Nat.mod_eq_of_lt hend) fun _ => hend
      | release =>
          -- The remainder is the end itself, unless the end wraps.
          constructor
          · intro hend _ hover
            omega
          · intro h
            by_contra hne
            exact hroom (h hdirty (by omega) (by omega))

/-- A write is safe exactly when it is in range. -/
theorem writeSafe_iff (hb : b.IsVec) (hdata : data.length < 2 ^ 63) :
    WriteSafe m b offset data ↔ WriteInRange m b offset data := by
  cases hdirty : b.dirty with
  | false =>
      refine iff_of_true ⟨_, _, write_of_clean hdirty, by simp [hdirty]⟩ ?_
      cases m <;> simp [WriteInRange, hdirty]
  | true => exact writeSafe_of_dirty hb hdata hdirty

end WriteBuf

/-- A call on a write buffer does not panic, and joins adjacent data only. -/
def WriteOp.Safe (m : Build) (b : WriteBuf) : WriteOp → Prop
  | .write offset data => b.WriteSafe m offset data.val
  | .flush => True

/-- The call stays in the range of the arithmetic. -/
def WriteOp.InRange (m : Build) (b : WriteBuf) : WriteOp → Prop
  | .write offset data => b.WriteInRange m offset data.val
  | .flush => True

/-- A call of the write buffer is safe exactly in range. -/
theorem WriteOp.safe_iff {m : Build} {b : WriteBuf} (hb : b.IsVec) (op : WriteOp) :
    op.Safe m b ↔ op.InRange m b := by
  cases op with
  | write offset data => exact WriteBuf.writeSafe_iff hb data.property
  | flush => exact Iff.rfl

/-! ### Runs -/

/-- Along every run of a buffer the calls are safe exactly when they are in range, in both
builds. -/
theorem buffers_safe_iff (m : Build) (maxSize : UInt64) :
    (∀ ops : List ReadOp,
      Along (ReadOp.step m) (ReadOp.Safe m) (ReadAheadBuf.new maxSize) ops ↔
        Along (ReadOp.step m) (ReadOp.InRange m) (ReadAheadBuf.new maxSize) ops) ∧
    ∀ ops : List WriteOp,
      Along (WriteOp.step m) (WriteOp.Safe m) (WriteBuf.new maxSize) ops ↔
        Along (WriteOp.step m) (WriteOp.InRange m) (WriteBuf.new maxSize) ops := by
  constructor
  · intro ops
    exact along_iff_along (fun _ _ _ hb _ h => ReadAheadBuf.isVec_step hb h)
      (fun _ op hb => ReadOp.safe_iff hb op) (ReadAheadBuf.isVec_new maxSize)
  · intro ops
    exact along_iff_along (fun _ _ _ hb _ h => WriteBuf.isVec_step hb h)
      (fun _ op hb => WriteOp.safe_iff hb op) (WriteBuf.isVec_new maxSize)

/-- One byte at the highest offset. In both builds the read of it panics. After the write of
it a checked build panics in the next write, and a release build joins a write at offset 0. -/
theorem buffers_not_safe :
    (∀ m, ¬ Along (ReadOp.step m) (ReadOp.Safe m) (ReadAheadBuf.new 4096)
      [.tryRead 0xFFFFFFFFFFFFFFFF 1]) ∧
    ∀ m, ¬ Along (WriteOp.step m) (WriteOp.Safe m) (WriteBuf.new 4096)
      [.write 0xFFFFFFFFFFFFFFFF ⟨[1], by decide⟩, .write 0 ⟨[2], by decide⟩] := by
  constructor
  · rintro m ⟨⟨result, b', hread, -⟩, -⟩
    cases m <;> exact nomatch hread
  · intro m h
    cases m with
    | checked =>
        obtain ⟨flushed, b', hwrite, -⟩ := (h.2 _ rfl).1
        exact nomatch hwrite
    | release =>
        obtain ⟨flushed, b', hwrite, hsafe⟩ := (h.2 _ rfl).1
        obtain ⟨rfl, -⟩ := Prod.mk.inj (Option.some.inj hwrite)
        exact absurd (hsafe rfl rfl) (by decide)

end NfsMount.Mount
