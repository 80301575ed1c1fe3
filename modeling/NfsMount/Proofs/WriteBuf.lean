import NfsMount.Lib.Extent
import NfsMount.Lib.Run
import NfsMount.Mount.WriteBuf

/-!
# `NfsMount.Proofs.WriteBuf`: coalescing preserves the file

The reference is the file with every write applied to it at once. The buffer is behind: the
data it has returned to be flushed was applied, and the data it still holds was not.
`Coupled` relates the two. Applying what the buffer holds to the flushed file gives the
reference, and that is kept by every call (`coupled_step`), so it holds after every sequence
of calls (`coalescing_preserves_file`).
-/

set_option autoImplicit false

namespace NfsMount.Mount

open NfsMount.Lib NfsMount.XdrCodec

/-- The file after the data was written to it. A gap behind the end of the file is read as
zeros. -/
def FlushData.applyTo (file : Bytes) (flush : FlushData) : Bytes :=
  overwrite 0 file flush.offset.toNat flush.data

/-- The calls of a program that writes. -/
inductive WriteCall where
  | write (offset : UInt64) (data : Bytes)
  | flush

namespace WriteCall

/-- What the call does to a file that is written to directly. -/
def applyTo (file : Bytes) : WriteCall → Bytes
  | .write offset data => FlushData.applyTo file ⟨offset, data⟩
  | .flush => file

/-- The write ends below `2 ^ 64`. -/
def InRange : WriteCall → Prop
  | .write offset data => offset.toNat + data.length < 2 ^ 64
  | .flush => True

end WriteCall

/-- A buffer, and the data it has returned so far. -/
structure Writeback where
  buf : WriteBuf
  flushed : List FlushData

namespace Writeback

/-- Nothing has been written or sent. -/
def new (maxSize : UInt64) : Writeback where
  buf := WriteBuf.new maxSize
  flushed := []

/-- The buffer and what was sent, after a call. -/
def step (m : Build) (w : Writeback) : WriteCall → Option Writeback
  | .write offset data =>
      match w.buf.write m offset data with
      | none => none
      | some (flush, buf) => some { buf, flushed := w.flushed ++ flush.toList }
  | .flush =>
      let (flush, buf) := w.buf.flush
      some { buf, flushed := w.flushed ++ flush.toList }

/-- The file after the returned data was written to it, in the order it was returned. -/
def flushedTo (w : Writeback) (file : Bytes) : Bytes := w.flushed.foldl FlushData.applyTo file

end Writeback

namespace WriteBuf

variable {m : Build} {b : WriteBuf} {offset : UInt64} {data : Bytes}

/-- The buffered data as a write of its own. -/
def pending (b : WriteBuf) : FlushData := ⟨b.bufOffset, b.data⟩

/-- The buffered range ends below `2 ^ 64`, and a clean buffer is empty. -/
structure Inv (b : WriteBuf) : Prop where
  range : b.bufOffset.toNat + b.data.length < 2 ^ 64
  clean : b.dirty = false → b.data = []

/-- A new buffer has the invariant. -/
theorem inv_new (maxSize : UInt64) : Inv (new maxSize) := ⟨Nat.two_pow_pos 64, fun _ => rfl⟩

/-- A clean buffer changes nothing in a file. -/
theorem applyTo_pending_of_clean (hb : b.Inv) (hclean : b.dirty = false) (file : Bytes) :
    FlushData.applyTo file b.pending = file := by
  rw [FlushData.applyTo, pending, hb.clean hclean, overwrite_nil]

/-- The test before a write to a dirty buffer: whether the write starts elsewhere than where
the buffered data ends, in wrapping arithmetic, or is too much. It panics in a checked build
when the buffered data ends out of range. The lengths are those of vectors, and the lengths of
what would be joined have a sum in range. -/
theorem mustFlush_eq (m : Build) (hlen : b.data.length < 2 ^ 64) (hdata : data.length < 2 ^ 64)
    (hsum : offset.toNat = (b.bufOffset.toNat + b.data.length) % 2 ^ 64 →
      b.data.length + data.length < 2 ^ 64) :
    b.mustFlush m offset data =
      if m = .checked ∧ 2 ^ 64 ≤ b.bufOffset.toNat + b.data.length then none
      else some (decide (offset.toNat ≠ (b.bufOffset.toNat + b.data.length) % 2 ^ 64 ∨
        b.maxSize.toNat < b.data.length + data.length)) := by
  have hlenNat : (UInt64.ofNat b.data.length).toNat = b.data.length :=
    UInt64.toNat_ofNat_of_lt' hlen
  have hdataNat : (UInt64.ofNat data.length).toNat = data.length :=
    UInt64.toNat_ofNat_of_lt' hdata
  cases hend : m.addU64 b.bufOffset (UInt64.ofNat b.data.length) with
  | none =>
      -- The end of the buffered data is summed first, and the sum panics.
      obtain ⟨hm, hover⟩ := Build.addU64_eq_none_iff.mp hend
      rw [hlenNat] at hover
      rw [mustFlush, hend, if_pos ⟨hm, hover⟩]
      rfl
  | some bufEnd =>
      have hfits : ¬ (m = .checked ∧ 2 ^ 64 ≤ b.bufOffset.toNat + b.data.length) := by
        intro h
        rw [Build.addU64_eq_none_iff.mpr (by rwa [hlenNat])] at hend
        simp at hend
      have hendNat : bufEnd.toNat = (b.bufOffset.toNat + b.data.length) % 2 ^ 64 := by
        rw [Build.addU64_eq_some hend, UInt64.toNat_add, hlenNat]
      rw [if_neg hfits, mustFlush]
      by_cases hne : offset = bufEnd
      · -- The write starts where the buffered data ends, so the other sum is made too.
        have heq : offset.toNat = (b.bufOffset.toNat + b.data.length) % 2 ^ 64 := by
          rw [hne, hendNat]
        have hlt := hsum heq
        have htotal := Build.addU64_of_lt m (x := UInt64.ofNat b.data.length)
          (y := UInt64.ofNat data.length) (by rwa [hlenNat, hdataNat])
        have htotalNat : (UInt64.ofNat b.data.length + UInt64.ofNat data.length).toNat
            = b.data.length + data.length := by
          rw [UInt64.toNat_add, hlenNat, hdataNat, Nat.mod_eq_of_lt hlt]
        simp only [hend, htotal, Option.bind_eq_bind, Option.bind_some, if_neg (not_not.mpr hne),
          UInt64.lt_iff_toNat_lt, htotalNat]
        exact congrArg some (decide_eq_decide.mpr (or_iff_right (not_not.mpr heq)).symm)
      · have hstarts : offset.toNat ≠ (b.bufOffset.toNat + b.data.length) % 2 ^ 64 := by
          rwa [← hendNat, ne_eq, UInt64.toNat_inj]
        -- The `||` of the source stops here, and the lengths are not summed.
        simp only [hend, Option.bind_eq_bind, Option.bind_some, if_pos hne]
        rw [decide_eq_true (.inl hstarts)]

/-- In range the test does not panic. A write that passes it starts where the buffered data ends,
and one that starts there and does not pass is too much. -/
theorem mustFlush_spec (m : Build) (hb : b.Inv)
    (hrange : offset.toNat + data.length < 2 ^ 64) :
    ∃ full, b.mustFlush m offset data = some full ∧
      (full = false → offset.toNat = b.bufOffset.toNat + b.data.length) ∧
      (full = true → offset.toNat = b.bufOffset.toNat + b.data.length →
        b.maxSize.toNat < b.data.length + data.length) := by
  have hbuf := hb.range
  have hflush : b.mustFlush m offset data = _ := mustFlush_eq m (by omega) (by omega) (by omega)
  rw [if_neg fun h => Nat.not_le.mpr hbuf h.2, Nat.mod_eq_of_lt hbuf] at hflush
  refine ⟨_, hflush, fun h => ?_, fun h heq => ?_⟩
  · exact not_not.mp (not_or.mp (of_decide_eq_false h)).1
  · exact (of_decide_eq_true h).resolve_left (not_not.mpr heq)

/-- **One write.** The returned data and what the buffer then holds do to a file what the
buffered data did, followed by the write. -/
theorem write_spec (m : Build) (hb : b.Inv) (hrange : offset.toNat + data.length < 2 ^ 64) :
    ∃ flush b', b.write m offset data = some (flush, b') ∧ b'.Inv ∧
      ∀ file, FlushData.applyTo (flush.toList.foldl FlushData.applyTo file) b'.pending =
        FlushData.applyTo (FlushData.applyTo file b.pending) ⟨offset, data⟩ := by
  cases hdirty : b.dirty with
  | false =>
      -- A clean buffer holds nothing, so the write is all it holds afterwards.
      have hempty := hb.clean hdirty
      refine ⟨none, { b with data := b.data ++ data, bufOffset := offset, dirty := true },
        ?_, ⟨?_, by simp⟩, fun file => ?_⟩
      · simp [write, hdirty]
      · rwa [hempty, List.nil_append]
      · rw [applyTo_pending_of_clean hb hdirty, pending, hempty, List.nil_append]
        rfl
  | true =>
      obtain ⟨full, hfull, hnext, -⟩ := mustFlush_spec m hb hrange
      cases full with
      | true =>
          refine ⟨some b.pending, { b with data := data, bufOffset := offset, dirty := true },
            ?_, ⟨hrange, by simp⟩, fun file => rfl⟩
          simp [write, hdirty, hfull, takeFlush, pending]
      | false =>
          -- The write starts where the buffered data ends, so the two are one write.
          have hoffset := hnext rfl
          refine ⟨none, { b with data := b.data ++ data, dirty := true }, ?_,
            ⟨?_, by simp⟩, fun file => ?_⟩
          · simp [write, hdirty, hfull]
          · show b.bufOffset.toNat + (b.data ++ data).length < 2 ^ 64
            rw [List.length_append]
            omega
          · show overwrite 0 file b.bufOffset.toNat (b.data ++ data) = _
            rw [← overwrite_append, ← hoffset]
            rfl

/-- A flush returns what the buffer holds, and leaves it clean. -/
theorem flush_spec (hb : b.Inv) (file : Bytes) :
    b.flush.2.Inv ∧ b.flush.2.dirty = false ∧
      b.flush.1.toList.foldl FlushData.applyTo file = FlushData.applyTo file b.pending := by
  cases hdirty : b.dirty with
  | false =>
      have hflush : b.flush = (none, b) := by simp [flush, hdirty]
      rw [hflush]
      exact ⟨hb, hdirty, (applyTo_pending_of_clean hb hdirty file).symm⟩
  | true =>
      have hflush : b.flush = (some b.pending, b.takeFlush.2) := by
        simp [flush, hdirty, takeFlush, pending]
      rw [hflush]
      exact ⟨⟨Nat.two_pow_pos 64, fun _ => rfl⟩, rfl, rfl⟩

end WriteBuf

namespace Writeback

/-- What the buffer holds, written to the flushed file, gives the reference. -/
structure Coupled (file : Bytes) (w : Writeback) (direct : Bytes) : Prop where
  inv : w.buf.Inv
  direct_eq : FlushData.applyTo (w.flushedTo file) w.buf.pending = direct

/-- **Step.** Every call keeps the two files coupled. -/
theorem coupled_step (m : Build) (file : Bytes) {w : Writeback} {direct : Bytes}
    {call : WriteCall} (hw : Coupled file w direct) (hrange : call.InRange) :
    ∃ w', step m w call = some w' ∧ Coupled file w' (call.applyTo direct) := by
  cases call with
  | write offset data =>
      obtain ⟨flush, b', hwrite, hinv, hfile⟩ := WriteBuf.write_spec m hw.inv hrange
      refine ⟨{ buf := b', flushed := w.flushed ++ flush.toList }, by rw [step, hwrite], hinv, ?_⟩
      rw [flushedTo, List.foldl_append, hfile]
      exact congrArg (FlushData.applyTo · ⟨offset, data⟩) hw.direct_eq
  | flush =>
      obtain ⟨hinv, hclean, hfile⟩ := WriteBuf.flush_spec hw.inv (w.flushedTo file)
      refine ⟨{ buf := w.buf.flush.2, flushed := w.flushed ++ w.buf.flush.1.toList }, rfl, hinv, ?_⟩
      rw [WriteBuf.applyTo_pending_of_clean hinv hclean, flushedTo, List.foldl_append]
      exact hfile.trans hw.direct_eq

end Writeback

/-- **Coalescing preserves the file.** Every sequence of calls whose writes end below
`2 ^ 64` returns, and the data it returned, followed by the data still buffered, gives the
file that the writes give directly. A buffer that is not dirty holds nothing. -/
theorem coalescing_preserves_file (m : Build) (maxSize : UInt64) (file : Bytes)
    (calls : List WriteCall) (hcalls : ∀ call ∈ calls, call.InRange) :
    ∃ w, run (Writeback.step m) (Writeback.new maxSize) calls = some w ∧
      (w.flushed ++ w.buf.flush.1.toList).foldl FlushData.applyTo file =
        calls.foldl WriteCall.applyTo file ∧
      (w.buf.isDirty = false → w.buf.bufferedLen = 0) := by
  have hnew : Writeback.Coupled file (Writeback.new maxSize) file :=
    ⟨WriteBuf.inv_new maxSize, rfl⟩
  have hstep : ∀ w direct call, Writeback.Coupled file w direct → WriteCall.InRange call →
      ∃ w', Writeback.step m w call = some w' ∧
        Writeback.Coupled file w' (WriteCall.applyTo direct call) :=
    fun _ _ _ hw hrange => Writeback.coupled_step m file hw hrange
  obtain ⟨w, hrun, hw⟩ := run_refines hstep hnew hcalls
  refine ⟨w, hrun, ?_, fun hclean => ?_⟩
  · rw [List.foldl_append, (WriteBuf.flush_spec hw.inv _).2.2]
    exact hw.direct_eq
  · rw [WriteBuf.bufferedLen, hw.inv.clean hclean, List.length_nil]

/-- Overlapping, backward and empty writes, with a buffer of two bytes. -/
theorem coalescing_preserves_file_overlapping :
    ∃ w, run (Writeback.step .checked) (Writeback.new 2)
        [.write 1 [1, 2], .write 3 [3], .write 2 [9], .write 0 [], .flush, .write 5 [7]] = some w ∧
      (w.flushed ++ w.buf.flush.1.toList).foldl FlushData.applyTo [4] = [4, 1, 9, 3, 0, 7] ∧
      (w.buf.isDirty = false → w.buf.bufferedLen = 0) :=
  coalescing_preserves_file .checked 2 [4]
    [.write 1 [1, 2], .write 3 [3], .write 2 [9], .write 0 [], .flush, .write 5 [7]]
    (by simp [WriteCall.InRange])

end NfsMount.Mount
