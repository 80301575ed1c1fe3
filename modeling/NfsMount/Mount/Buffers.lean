import NfsMount.Lib.Run
import NfsMount.Mount.ReadBuf
import NfsMount.Mount.WriteBuf

/-!
# `NfsMount.Mount.Buffers`: sequences of calls on the two buffers

A call on a buffer with all its arguments, and the buffer after it. `none` stands for a call
that does not return. The bytes of a call are a `Vec<u8>` or a slice, of which the language
says that it has at most `isize::MAX` bytes. The write buffer is such a vector too, so a
write that would make it longer does not return.
-/

set_option autoImplicit false

namespace NfsMount.Mount

open NfsMount.Lib NfsMount.XdrCodec

/-- The bytes of a vector or a slice, at most `isize::MAX` of them. -/
abbrev VecBytes := { data : Bytes // data.length < 2 ^ 63 }

/-- The length of a vector is kept by the conversion to 64 bits. -/
theorem toNat_length_vec {data : Bytes} (h : data.length < 2 ^ 63) :
    (UInt64.ofNat data.length).toNat = data.length :=
  UInt64.toNat_ofNat_of_lt' (Nat.lt_trans h (by decide))

/-- A call on a read-ahead buffer. -/
inductive ReadOp where
  | tryRead (offset len : UInt64)
  | fill (offset : UInt64) (data : VecBytes)
  | fetchPlan (offset requestedLen : UInt64)
  | invalidate

/-- The buffer after a call. -/
def ReadOp.step (m : Build) (b : ReadAheadBuf) : ReadOp → Option ReadAheadBuf
  | .tryRead offset len => (b.tryRead m offset len).map Prod.snd
  | .fill offset data => some (b.fill offset data.val)
  | .fetchPlan offset requestedLen => (b.fetchPlan m offset requestedLen).map fun _ => b
  | .invalidate => some b.invalidate

/-- A call on a write buffer. -/
inductive WriteOp where
  | write (offset : UInt64) (data : VecBytes)
  | flush

/-- What a call returns, and the buffer after it. -/
def WriteOp.apply (m : Build) (b : WriteBuf) : WriteOp → Option (Option FlushData × WriteBuf)
  | .write offset data =>
      match b.write m offset data.val with
      | none => none
      -- `extend_from_slice` panics when the vector would get too long.
      | some (flushed, b') => if b'.data.length < 2 ^ 63 then some (flushed, b') else none
  | .flush => some b.flush

/-- The buffer after a call. What the call returns is dropped. -/
def WriteOp.step (m : Build) (b : WriteBuf) (op : WriteOp) : Option WriteBuf :=
  (op.apply m b).map Prod.snd

/-! ### What the calls leave as it is -/

namespace ReadAheadBuf

variable {m : Build} {b b' : ReadAheadBuf} {offset len : UInt64} {result : Option Bytes}

/-- A read moves the end of the last served read to its own end when it is served, and counts
the reads that start there. It leaves the rest of the buffer as it is. -/
theorem tryRead_effect (h : b.tryRead m offset len = some (result, b')) :
    b' = { b.countRead offset with
      lastReadEnd := if result.isSome then offset + len else b.lastReadEnd } := by
  rw [tryRead] at h
  obtain ⟨bufEnd, -, h⟩ := Option.bind_eq_some_iff.mp h
  split at h
  · obtain ⟨readEnd, hend, h⟩ := Option.bind_eq_some_iff.mp h
    split at h
    · obtain ⟨start, -, h⟩ := Option.bind_eq_some_iff.mp h
      obtain ⟨stop, -, h⟩ := Option.bind_eq_some_iff.mp h
      obtain ⟨bytes, -, h⟩ := Option.bind_eq_some_iff.mp h
      obtain ⟨rfl, rfl⟩ := Prod.mk.inj (Option.some.inj h)
      rw [Build.addU64_eq_some hend]
      rfl
    · obtain ⟨rfl, rfl⟩ := Prod.mk.inj (Option.some.inj h)
      rfl
  · obtain ⟨rfl, rfl⟩ := Prod.mk.inj (Option.some.inj h)
    rfl

/-- A vector of bytes, as it is in the buffer. -/
def IsVec (b : ReadAheadBuf) : Prop := b.data.length < 2 ^ 63

/-- A new buffer is empty. -/
theorem isVec_new (maxSize : UInt64) : IsVec (new maxSize) := Nat.two_pow_pos 63

/-- What a call stores is a vector. -/
theorem isVec_step {op : ReadOp} (hb : b.IsVec) (h : op.step m b = some b') : b'.IsVec := by
  cases op with
  | tryRead offset len =>
      obtain ⟨⟨result, b''⟩, hread, rfl⟩ := Option.map_eq_some_iff.mp h
      rw [tryRead_effect hread]
      exact hb
  | fill offset data =>
      obtain rfl := Option.some.inj h
      exact data.property
  | fetchPlan offset requestedLen =>
      obtain ⟨plan, -, rfl⟩ := Option.map_eq_some_iff.mp h
      exact hb
  | invalidate =>
      obtain rfl := Option.some.inj h
      exact Nat.two_pow_pos 63

end ReadAheadBuf

namespace WriteBuf

variable {m : Build} {b b' : WriteBuf} {flushed : Option FlushData}

/-- What a write returns, when the vector does not get too long. -/
theorem apply_write {offset : UInt64} {data : VecBytes}
    (h : (WriteOp.write offset data).apply m b = some (flushed, b')) :
    b.write m offset data.val = some (flushed, b') ∧ b'.data.length < 2 ^ 63 := by
  rw [WriteOp.apply] at h
  cases hwrite : b.write m offset data.val with
  | none => simp [hwrite] at h
  | some result =>
      simp only [hwrite, Option.ite_none_right_eq_some, Option.some.injEq] at h
      obtain ⟨hlt, heq⟩ := h
      obtain ⟨rfl, rfl⟩ := Prod.mk.inj heq
      exact ⟨rfl, hlt⟩

/-- A vector of bytes, as it is in the buffer. -/
def IsVec (b : WriteBuf) : Prop := b.data.length < 2 ^ 63

/-- A new buffer is empty. -/
theorem isVec_new (maxSize : UInt64) : IsVec (new maxSize) := Nat.two_pow_pos 63

/-- What a call joins is a vector. -/
theorem isVec_step {op : WriteOp} (hb : b.IsVec) (h : op.step m b = some b') : b'.IsVec := by
  obtain ⟨⟨flushed, b''⟩, happly, rfl⟩ := Option.map_eq_some_iff.mp h
  cases op with
  | write offset data => exact (apply_write happly).2
  | flush =>
      obtain rfl : b.flush.2 = b'' := congrArg Prod.snd (Option.some.inj happly)
      rw [WriteBuf.flush]
      split
      · exact Nat.two_pow_pos 63
      · exact hb

end WriteBuf

end NfsMount.Mount
