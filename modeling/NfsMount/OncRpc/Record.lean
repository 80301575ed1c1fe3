import NfsMount.Lib.Loop
import NfsMount.XdrCodec.Primitives

/-!
# `NfsMount.OncRpc.Record`: record marking

The model of `onc-rpc/src/error.rs` and `record.rs`. A record is one or more fragments. A
fragment is a 4-byte header and a body. Bit 31 of the header marks the last fragment of the
record, and the other bits are the length of the body.

`RecordReader.iteration` is one turn of the loop in `RecordReader::read`. The reader's state
after an error is part of the model, as later calls start from it.
-/

set_option autoImplicit false

namespace NfsMount.OncRpc

open NfsMount.Lib NfsMount.XdrCodec

/-- `std::io::Error`: one the transport makes, or one the operating system reports. -/
inductive IoError where
  | unexpectedEof (message : String)
  | os (code : Int32)
deriving DecidableEq

/-- The errors of the transport and of record marking. -/
inductive RpcError where
  | xdr (e : XdrError)
  | xidMismatch (expected actual : UInt32)
  | transport (e : IoError)
  | recordTooLarge (size max : Nat)
deriving DecidableEq

/-- Hard limit on the size of a record. -/
def MAX_RECORD_SIZE : Nat := 10 * 1024 * 1024

/-- Bit 31 of the fragment header marks the last fragment of a record. -/
def LAST_FRAGMENT : UInt32 := 0x80000000

/-- `data` as a record of one fragment. `data.len() as u32` keeps the low 32 bits. -/
def writeRecord (data : Bytes) : Bytes :=
  beBytes 4 (LAST_FRAGMENT ||| UInt32.ofNat data.length).toNat ++ data

/-- Result of attempting to read a record. -/
inductive RecordResult where
  | complete (record : Bytes)
  | incomplete
deriving DecidableEq

/-- A reader between two reads: the input, and the record and the fragment it is in. -/
structure RecordReader where
  /-- Raw bytes received but not yet consumed. -/
  input : Bytes
  /-- Accumulated payload bytes of the current record. -/
  record : Bytes
  /-- Bytes remaining in the current fragment. -/
  remaining : Nat
  /-- Whether the reader is in the middle of a fragment body. -/
  inFragment : Bool
  /-- Whether the current fragment is the last in its record. -/
  isLast : Bool
deriving DecidableEq

namespace RecordReader

/-- What `read` returns, with the reader after it. -/
abbrev ReadResult := Except RpcError RecordResult × RecordReader

/-- A reader at the start of a connection. -/
def new : RecordReader where
  input := []
  record := []
  remaining := 0
  inFragment := false
  isLast := false

/-- The second half of a turn: take as much of the fragment body as there is. -/
def takeBody (r : RecordReader) : Turn RecordReader ReadResult :=
  -- A zero-length body takes nothing and still closes the fragment.
  let available := min r.input.length r.remaining
  let r := { r with
    record := r.record ++ r.input.take available
    input := r.input.drop available
    remaining := r.remaining - available }
  if r.remaining = 0 then
    let r := { r with inFragment := false }
    if r.isLast then
      .done (.ok (.complete r.record), { r with record := [] })
    else
      .next r
  else
    .done (.ok .incomplete, r)

/-- One turn of the loop: the header, unless a fragment is open, and then the body. -/
def iteration (r : RecordReader) : Turn RecordReader ReadResult :=
  if r.inFragment then
    r.takeBody
  else if r.input.length < 4 then
    .done (.ok .incomplete, r)
  else
    let header := UInt32.ofNat (wordAt r.input 0)
    let r := { r with
      input := r.input.drop 4
      isLast := header &&& LAST_FRAGMENT ≠ 0 }
    let length := (header &&& ~~~LAST_FRAGMENT).toNat
    if MAX_RECORD_SIZE < r.record.length + length then
      -- The header is gone from the input, but the fragment is not open. A later call takes
      -- the bytes of the body for a header.
      .done (.error (.recordTooLarge (r.record.length + length) MAX_RECORD_SIZE), r)
    else
      takeBody { r with remaining := length, inFragment := true }

/-! ### The three ways a body is taken -/

/-- The body is not all there. -/
theorem takeBody_of_lt {r : RecordReader} (h : r.input.length < r.remaining) :
    r.takeBody = .done (.ok .incomplete, { r with
      record := r.record ++ r.input
      input := []
      remaining := r.remaining - r.input.length }) := by
  have hmin : min r.input.length r.remaining = r.input.length := Nat.min_eq_left (by omega)
  have hleft : ¬ r.remaining - r.input.length = 0 := by omega
  simp only [takeBody, hmin, List.take_length, List.drop_length, if_neg hleft]

/-- The body ends the record. -/
theorem takeBody_of_le_last {r : RecordReader} (h : r.remaining ≤ r.input.length)
    (hlast : r.isLast) :
    r.takeBody = .done (.ok (.complete (r.record ++ r.input.take r.remaining)), { r with
      record := []
      input := r.input.drop r.remaining
      remaining := 0
      inFragment := false }) := by
  have hmin : min r.input.length r.remaining = r.remaining := Nat.min_eq_right h
  simp only [takeBody, hmin, Nat.sub_self, if_true, if_pos hlast]

/-- The body ends, and another fragment follows. -/
theorem takeBody_of_le_more {r : RecordReader} (h : r.remaining ≤ r.input.length)
    (hlast : ¬ r.isLast) :
    r.takeBody = .next { r with
      record := r.record ++ r.input.take r.remaining
      input := r.input.drop r.remaining
      remaining := 0
      inFragment := false } := by
  have hmin : min r.input.length r.remaining = r.remaining := Nat.min_eq_right h
  simp only [takeBody, hmin, Nat.sub_self, if_true, if_neg hlast]

/-- What holds of the three ways holds of taking the body. -/
theorem takeBody_rule {r : RecordReader} {P : Turn RecordReader ReadResult → Prop}
    (hpart : r.input.length < r.remaining → P (.done (.ok .incomplete, { r with
      record := r.record ++ r.input
      input := []
      remaining := r.remaining - r.input.length })))
    (hlast : r.remaining ≤ r.input.length → r.isLast →
      P (.done (.ok (.complete (r.record ++ r.input.take r.remaining)), { r with
        record := []
        input := r.input.drop r.remaining
        remaining := 0
        inFragment := false })))
    (hmore : r.remaining ≤ r.input.length → ¬ r.isLast → P (.next { r with
      record := r.record ++ r.input.take r.remaining
      input := r.input.drop r.remaining
      remaining := 0
      inFragment := false })) : P r.takeBody := by
  by_cases hlt : r.input.length < r.remaining
  · rw [takeBody_of_lt hlt]
    exact hpart hlt
  · have hle := Nat.not_lt.mp hlt
    by_cases h : r.isLast
    · rw [takeBody_of_le_last hle h]
      exact hlast hle h
    · rw [takeBody_of_le_more hle h]
      exact hmore hle h

/-- What holds of the four ways a turn can go, whatever the header says, holds of a turn. -/
theorem iteration_rule {r : RecordReader} {P : Turn RecordReader ReadResult → Prop}
    (hopen : r.inFragment = true → P r.takeBody)
    (hshort : r.inFragment = false → r.input.length < 4 → P (.done (.ok .incomplete, r)))
    (hlarge : r.inFragment = false → 4 ≤ r.input.length → ∀ last length,
      MAX_RECORD_SIZE < r.record.length + length →
      P (.done (.error (.recordTooLarge (r.record.length + length) MAX_RECORD_SIZE),
        { r with input := r.input.drop 4, isLast := last })))
    (hheader : r.inFragment = false → 4 ≤ r.input.length → ∀ last length,
      r.record.length + length ≤ MAX_RECORD_SIZE →
      P (takeBody { r with
        input := r.input.drop 4, isLast := last, remaining := length, inFragment := true })) :
    P (iteration r) := by
  rw [iteration]
  by_cases hin : r.inFragment
  · rw [if_pos hin]
    exact hopen hin
  · have hclosed : r.inFragment = false := Bool.eq_false_of_not_eq_true hin
    rw [if_neg hin]
    by_cases h4 : r.input.length < 4
    · rw [if_pos h4]
      exact hshort hclosed h4
    · rw [if_neg h4]
      simp only
      split
      · exact hlarge hclosed (Nat.not_lt.mp h4) _ _ ‹_›
      · exact hheader hclosed (Nat.not_lt.mp h4) _ _ (Nat.not_lt.mp ‹_›)

/-! ### The loop -/

/-- The unread input, and one for an open fragment. -/
def variant (r : RecordReader) : Nat := r.input.length + r.inFragment.toNat

/-- Taking a body does not add input. Unless more input is needed, it closes the fragment. -/
theorem takeBody_closes (r : RecordReader) :
    r.takeBody.Post (fun r' => r'.input.length ≤ r.input.length ∧ r'.inFragment = false)
      fun res => ∀ record, res.1 = .ok (.complete record) →
        res.2.input.length ≤ r.input.length ∧ res.2.inFragment = false := by
  have hdrop : (r.input.drop r.remaining).length ≤ r.input.length := by
    rw [List.length_drop]
    exact Nat.sub_le _ _
  apply takeBody_rule
  · intro _ record hrecord
    cases hrecord
  · intro _ _ _ _
    exact ⟨hdrop, rfl⟩
  · intro _ _
    exact ⟨hdrop, rfl⟩

/-- A turn that goes on or returns a record takes a header or closes a fragment. -/
theorem iteration_variant (r : RecordReader) :
    (iteration r).Post (fun r' => variant r' < variant r)
      fun res => ∀ record, res.1 = .ok (.complete record) → variant res.2 < variant r := by
  apply iteration_rule
  · intro hin
    have hlt : ∀ r' : RecordReader, r'.input.length ≤ r.input.length ∧ r'.inFragment = false →
        variant r' < variant r := by
      intro r' h
      rw [variant, variant, hin, h.2]
      exact Nat.lt_succ_of_le h.1
    exact r.takeBody_closes.imp hlt fun res h record hrecord => hlt res.2 (h record hrecord)
  · intro _ _ record hrecord
    cases hrecord
  · intro _ _ last length _ record hrecord
    cases hrecord
  · intro _ h4 last length _
    have hlt : ∀ r' : RecordReader, r'.input.length ≤ (r.input.drop 4).length ∧
        r'.inFragment = false → variant r' < variant r := by
      intro r' h
      have hle := h.1
      rw [List.length_drop] at hle
      rw [variant, variant, h.2, Bool.toNat_false]
      omega
    exact (takeBody_closes _).imp hlt fun res h record hrecord => hlt res.2 (h record hrecord)

/-- The loop ends, as every turn takes input or closes a fragment. -/
theorem iteration_decreases : Loop.Decreases iteration variant := fun r _ h =>
  (iteration_variant r).next h

/-- Feed `data` to the reader and attempt to produce a complete record. -/
def read (r : RecordReader) (data : Bytes) : ReadResult :=
  Loop.run iteration variant iteration_decreases { r with input := r.input ++ data }

end RecordReader

end NfsMount.OncRpc
