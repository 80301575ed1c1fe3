import NfsMount.Proofs.BufferArith

/-!
# `NfsMount.Proofs.WriteSize`: how large the write buffer gets

`max_size` is compared with the buffered data and the new data together, and only when the
write continues the buffered data. A write that starts a new range is buffered whatever its
length.

`Bounded` says of one call that the buffer and what it returns are within the size. As long
as no write is larger than the size the bound is kept (`inv_apply`), and a write that is
larger breaks it at once (`not_bounded_of_lt`). So a run keeps the bound exactly when every
write of it is within the size (`within_size_iff`).
-/

set_option autoImplicit false

namespace NfsMount.Mount

open NfsMount.Lib NfsMount.XdrCodec

/-- How many bytes a call writes. -/
def WriteOp.size : WriteOp → Nat
  | .write _ data => data.val.length
  | .flush => 0

/-- After the call the buffer is within its size, and so is the data to flush. -/
def WriteOp.Bounded (m : Build) (b : WriteBuf) (op : WriteOp) : Prop :=
  ∀ flushed b', op.apply m b = some (flushed, b') →
    b'.bufferedLen ≤ b.maxSize.toNat ∧ ∀ f ∈ flushed, f.data.length ≤ b.maxSize.toNat

namespace WriteBuf

variable {m : Build} {b b' : WriteBuf} {op : WriteOp} {flushed : Option FlushData}

/-- A clean buffer is empty, and a buffer is within its size. -/
structure SizeInv (maxSize : UInt64) (b : WriteBuf) : Prop where
  isVec : b.IsVec
  maxSize_eq : b.maxSize = maxSize
  clean : b.dirty = false → b.data = []
  size : b.data.length ≤ maxSize.toNat

/-- A new buffer is within its size. -/
theorem sizeInv_new (maxSize : UInt64) : SizeInv maxSize (new maxSize) where
  isVec := isVec_new maxSize
  maxSize_eq := rfl
  clean _ := rfl
  size := Nat.zero_le _

/-- The data of a write is the end of what the buffer holds after it. -/
theorem write_cases {offset : UInt64} {data : Bytes}
    (h : b.write m offset data = some (flushed, b')) :
    b'.maxSize = b.maxSize ∧ b'.dirty = true ∧
      (b.dirty = false ∧ flushed = none ∧ b'.data = b.data ++ data ∨
       b.dirty = true ∧ flushed = some b.takeFlush.1 ∧ b'.data = data ∨
       b.dirty = true ∧ b.mustFlush m offset data = some false ∧ flushed = none ∧
        b'.data = b.data ++ data) := by
  cases hdirty : b.dirty with
  | false =>
      rw [write_of_clean hdirty] at h
      obtain ⟨rfl, rfl⟩ := Prod.mk.inj (Option.some.inj h)
      exact ⟨rfl, rfl, .inl ⟨rfl, rfl, rfl⟩⟩
  | true =>
      rw [write_of_dirty hdirty] at h
      obtain ⟨full, hfull, h⟩ := Option.map_eq_some_iff.mp h
      cases full with
      | true =>
          obtain ⟨rfl, rfl⟩ := Prod.mk.inj h
          exact ⟨rfl, rfl, .inr (.inl ⟨rfl, rfl, rfl⟩)⟩
      | false =>
          obtain ⟨rfl, rfl⟩ := Prod.mk.inj h
          exact ⟨rfl, rfl, .inr (.inr ⟨rfl, hfull, rfl, rfl⟩)⟩

/-- What joins the buffered data fits with it. -/
theorem length_le_of_mustFlush {offset : UInt64} {data : Bytes} (hb : b.IsVec)
    (hdata : data.length < 2 ^ 63) (h : b.mustFlush m offset data = some false) :
    b.data.length + data.length ≤ b.maxSize.toNat := by
  rw [mustFlush_of_isVec m hb hdata] at h
  split at h
  · simp at h
  · have hnot := of_decide_eq_false (Option.some.inj h)
    omega

/-- A write that is larger than the size is in the buffer after it. -/
theorem not_bounded_of_lt (h : op.apply m b = some (flushed, b'))
    (hlt : b.maxSize.toNat < op.size) : ¬ op.Bounded m b := by
  intro hbounded
  have hle := (hbounded flushed b' h).1
  cases op with
  | write offset data =>
      obtain ⟨-, -, hcases⟩ := write_cases (apply_write h).1
      have hlength : data.val.length ≤ b'.bufferedLen := by
        rw [bufferedLen]
        rcases hcases with ⟨-, -, heq⟩ | ⟨-, -, heq⟩ | ⟨-, -, -, heq⟩
        · rw [heq, List.length_append]
          omega
        · rw [heq]
        · rw [heq, List.length_append]
          omega
      have hlarge : b.maxSize.toNat < data.val.length := hlt
      omega
  | flush => exact Nat.not_lt_zero _ hlt

/-- A write within the size keeps the buffer within it. What it flushes was in the buffer. -/
theorem inv_write {maxSize offset : UInt64} {data : VecBytes} (hb : SizeInv maxSize b)
    (hdata : data.val.length ≤ maxSize.toNat)
    (h : (WriteOp.write offset data).apply m b = some (flushed, b')) :
    SizeInv maxSize b' ∧ ∀ f ∈ flushed, f.data.length ≤ maxSize.toNat := by
  obtain ⟨hwrite, hvec⟩ := apply_write h
  obtain ⟨hmax, hdirty, hcases⟩ := write_cases hwrite
  have hinv : b'.data.length ≤ maxSize.toNat → SizeInv maxSize b' := fun hsize =>
    ⟨hvec, hmax.trans hb.maxSize_eq, by simp [hdirty], hsize⟩
  rcases hcases with ⟨hwas, rfl, heq⟩ | ⟨-, rfl, heq⟩ | ⟨-, hroom, rfl, heq⟩
  · -- A clean buffer is empty.
    refine ⟨hinv ?_, by simp⟩
    rw [heq, hb.clean hwas, List.nil_append]
    exact hdata
  · -- What is flushed was the buffer, and the write takes its place.
    refine ⟨hinv (heq ▸ hdata), fun f hf => ?_⟩
    obtain rfl := Option.some.inj hf
    exact hb.size
  · refine ⟨hinv ?_, by simp⟩
    rw [heq, List.length_append, ← hb.maxSize_eq]
    exact length_le_of_mustFlush hb.isVec data.property hroom

/-- A flush is within the size. -/
theorem inv_flush {maxSize : UInt64} (hb : SizeInv maxSize b)
    (h : b.flush = (flushed, b')) :
    SizeInv maxSize b' ∧ ∀ f ∈ flushed, f.data.length ≤ maxSize.toNat := by
  cases hdirty : b.dirty with
  | false =>
      rw [WriteBuf.flush, hdirty, if_neg Bool.false_ne_true] at h
      obtain ⟨rfl, rfl⟩ := Prod.mk.inj h
      exact ⟨hb, by simp⟩
  | true =>
      rw [WriteBuf.flush, hdirty, if_pos rfl] at h
      obtain ⟨rfl, rfl⟩ := Prod.mk.inj h
      refine ⟨⟨Nat.two_pow_pos 63, hb.maxSize_eq, fun _ => rfl, Nat.zero_le _⟩, fun f hf => ?_⟩
      obtain rfl := Option.some.inj hf
      exact hb.size

/-- A small call stays within the size. -/
theorem inv_apply {maxSize : UInt64} (hb : SizeInv maxSize b) (hop : op.size ≤ maxSize.toNat)
    (h : op.apply m b = some (flushed, b')) :
    SizeInv maxSize b' ∧ ∀ f ∈ flushed, f.data.length ≤ maxSize.toNat := by
  cases op with
  | write offset data => exact inv_write hb hop h
  | flush => exact inv_flush hb (Option.some.inj h)

end WriteBuf

open WriteBuf

/-- A run of calls, from a buffer within its size. -/
theorem along_bounded_iff {m : Build} {maxSize : UInt64} {ops : List WriteOp} {b b' : WriteBuf}
    (hb : SizeInv maxSize b) (h : run (WriteOp.step m) b ops = some b') :
    Along (WriteOp.step m) (WriteOp.Bounded m) b ops ↔ ∀ op ∈ ops, op.size ≤ maxSize.toNat := by
  -- The first write that is too large breaks the bound, and before it the invariant holds.
  induction ops generalizing b with
  | nil => exact iff_of_true trivial (by simp)
  | cons op ops ih =>
      obtain ⟨b₁, hstep, hrun⟩ := run_cons_eq_some.mp h
      obtain ⟨⟨flushed, b₂⟩, happly, rfl⟩ := Option.map_eq_some_iff.mp hstep
      rw [along_cons_of_eq_some hstep, List.forall_mem_cons]
      by_cases hop : op.size ≤ maxSize.toNat
      · obtain ⟨hinv, hflushed⟩ := inv_apply hb hop happly
        have hbounded : op.Bounded m b := by
          intro flushed' b₃ happly'
          obtain ⟨rfl, rfl⟩ := Prod.mk.inj (Option.some.inj (happly.symm.trans happly'))
          rw [hb.maxSize_eq]
          exact ⟨hinv.size, hflushed⟩
        exact and_congr (iff_of_true hbounded hop) (ih hinv hrun)
      · refine iff_of_false (fun h => ?_) fun h => hop h.1
        exact not_bounded_of_lt happly (by rw [hb.maxSize_eq]; omega) h.1

/-- **The size of the write buffer.** In a run of calls, the buffered data and all data to
flush are within the size of the buffer after every call exactly when every single write is
within it. -/
theorem within_size_iff {m : Build} {maxSize : UInt64} {ops : List WriteOp} {b : WriteBuf}
    (h : run (WriteOp.step m) (WriteBuf.new maxSize) ops = some b) :
    Along (WriteOp.step m) (WriteOp.Bounded m) (WriteBuf.new maxSize) ops ↔
      ∀ op ∈ ops, op.size ≤ maxSize.toNat :=
  along_bounded_iff (sizeInv_new maxSize) h

/-- A buffer of two bytes, and writes of three: one to the clean buffer, and one that flushes
it. -/
theorem not_within_size :
    ∃ b, run (WriteOp.step .checked) (WriteBuf.new 2)
        [.write 0 ⟨[1, 2, 3], by decide⟩, .write 3 ⟨[4, 5, 6], by decide⟩] = some b ∧
      b.bufferedLen = 3 ∧
      ¬ Along (WriteOp.step .checked) (WriteOp.Bounded .checked) (WriteBuf.new 2)
        [.write 0 ⟨[1, 2, 3], by decide⟩, .write 3 ⟨[4, 5, 6], by decide⟩] := by
  refine ⟨_, rfl, rfl, fun h => ?_⟩
  exact absurd (h.1 _ _ rfl).1 (by decide)

/-- Writes that fit in the size. -/
theorem within_size_small :
    Along (WriteOp.step .checked) (WriteOp.Bounded .checked) (WriteBuf.new 2)
      [.write 0 ⟨[1], by decide⟩, .write 1 ⟨[2], by decide⟩, .write 2 ⟨[3, 4], by decide⟩,
       .flush] := by
  have h : run (WriteOp.step .checked) (WriteBuf.new 2)
      [.write 0 ⟨[1], by decide⟩, .write 1 ⟨[2], by decide⟩, .write 2 ⟨[3, 4], by decide⟩,
       .flush] = some _ := rfl
  exact (within_size_iff h).mpr (by simp [WriteOp.size])

end NfsMount.Mount
