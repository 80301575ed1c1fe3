import NfsMount.Proofs.Record

/-!
# `NfsMount.Proofs.RecordBounds`: what the reader accumulates, and how long it loops

The size limit is checked when a header is read, and only then. `Bounded` is what that check
leaves behind: the record and the rest of the open fragment fit in the limit together. Every
turn keeps it, also one that leaves with an error.

A turn that goes on has closed the open fragment, or it has taken a header of four bytes off
the input. `turnsLeft` counts these, and it bounds the turns of a call.
-/

set_option autoImplicit false

namespace NfsMount.OncRpc.RecordReader

open NfsMount.Lib NfsMount.XdrCodec

/-! ### The bound on the record -/

/-- The limit holds for what has been accumulated and for what the open fragment will add. -/
structure Bounded (r : RecordReader) : Prop where
  total_le : r.record.length + r.remaining ≤ MAX_RECORD_SIZE
  remaining_eq : r.inFragment = false → r.remaining = 0

/-- A new reader is within its bounds. -/
theorem bounded_new : Bounded new where
  total_le := Nat.zero_le _
  remaining_eq _ := rfl

/-- The invariant does not speak of the input. -/
theorem Bounded.feed {r : RecordReader} (hr : r.Bounded) (data : Bytes) :
    Bounded { r with input := r.input ++ data } :=
  ⟨hr.total_le, hr.remaining_eq⟩

/-- What a call returns is bounded: the reader it leaves, and the record it completes. -/
def BoundedResult (res : ReadResult) : Prop :=
  Bounded res.2 ∧ ∀ record, res.1 = .ok (.complete record) → record.length ≤ MAX_RECORD_SIZE

/-- Taking the body of an open fragment moves bytes from `remaining` to `record`. -/
theorem takeBody_bounded {r : RecordReader} (hin : r.inFragment = true)
    (htotal : r.record.length + r.remaining ≤ MAX_RECORD_SIZE) :
    r.takeBody.Post Bounded BoundedResult := by
  have hrecord : r.remaining ≤ r.input.length →
      (r.record ++ r.input.take r.remaining).length ≤ MAX_RECORD_SIZE := by
    intro hle
    rw [List.length_append, List.length_take_of_le hle]
    exact htotal
  apply takeBody_rule
  · intro hlt
    refine ⟨⟨?_, fun hclosed => ?_⟩, by simp⟩
    · show (r.record ++ r.input).length + (r.remaining - r.input.length) ≤ MAX_RECORD_SIZE
      rw [List.length_append]
      omega
    · exact absurd (hin.symm.trans hclosed) (by decide)
  · intro hle _
    refine ⟨⟨Nat.zero_le _, fun _ => rfl⟩, fun record h => ?_⟩
    obtain rfl := RecordResult.complete.inj (Except.ok.inj h)
    exact hrecord hle
  · intro hle _
    exact ⟨hrecord hle, fun _ => rfl⟩

/-- **Step.** A turn keeps the bound, whichever way it ends. -/
theorem iteration_bounded {r : RecordReader} (hr : r.Bounded) :
    (iteration r).Post Bounded BoundedResult := by
  apply iteration_rule
  · intro hin
    exact takeBody_bounded hin hr.total_le
  · intro _ _
    exact ⟨hr, by simp⟩
  · intro _ _ last length _
    -- The error leaves `record` and `remaining` as they were.
    exact ⟨⟨hr.total_le, hr.remaining_eq⟩, by simp⟩
  · intro _ _ last length hle
    exact takeBody_bounded rfl hle

/-- **Run.** A call keeps the bound. -/
theorem read_bounded {r : RecordReader} (hr : r.Bounded) (data : Bytes) :
    BoundedResult (r.read data) :=
  Loop.run_post iteration_decreases (fun _ hs => iteration_bounded hs) (hr.feed data)

/-- The reader after the calls with these chunks, whatever they returned. -/
def afterReads (chunks : List Bytes) : RecordReader :=
  chunks.foldl (fun r data => (r.read data).2) new

/-- One more chunk is one more read. -/
theorem afterReads_append (chunks : List Bytes) (data : Bytes) :
    afterReads (chunks ++ [data]) = ((afterReads chunks).read data).2 := by
  rw [afterReads, List.foldl_append]
  rfl

/-- A reader stays within its bounds. -/
theorem afterReads_bounded (chunks : List Bytes) : (afterReads chunks).Bounded := by
  induction chunks using List.reverseRecOn with
  | nil => exact bounded_new
  | append_singleton chunks data ih =>
      rw [afterReads_append]
      exact (read_bounded ih data).1

/-! ### The bound on the turns -/

/-- A bound on the turns that go on: the headers the input can hold, and one for an open
fragment. -/
def turnsLeft (r : RecordReader) : Nat := r.input.length / 4 + r.inFragment.toNat

/-- A turn that goes on closes the open fragment, or takes a header. Empty fragments are no
exception, as their header is taken too. -/
theorem iteration_decreases_turnsLeft : Loop.Decreases iteration turnsLeft := by
  intro r r' h
  have hpost : (iteration r).Post (fun r' => turnsLeft r' < turnsLeft r) fun _ => True := by
    apply iteration_rule
    · intro hin
      apply r.takeBody_closes.imp _ fun _ _ => trivial
      intro r' hr'
      rw [turnsLeft, turnsLeft, hin, hr'.2]
      exact Nat.lt_succ_of_le (Nat.div_le_div_right hr'.1)
    · intro _ _
      trivial
    · intro _ _ _ _ _
      trivial
    · intro _ h4 last length _
      apply (takeBody_closes _).imp _ fun _ _ => trivial
      intro r' hr'
      have hle := hr'.1
      rw [List.length_drop] at hle
      rw [turnsLeft, turnsLeft, hr'.2, Bool.toNat_false]
      omega
  exact hpost.next h

/-- A call leaves its loop within a turn for each four bytes buffered, and two. -/
theorem upTo_read (r : RecordReader) (data : Bytes) :
    Loop.upTo iteration ((r.input ++ data).length / 4 + 2) { r with input := r.input ++ data } =
      some (r.read data) := by
  apply Loop.upTo_eq_run iteration_decreases iteration_decreases_turnsLeft
  have hopen : r.inFragment.toNat ≤ 1 := Bool.toNat_le r.inFragment
  show (r.input ++ data).length / 4 + r.inFragment.toNat < (r.input ++ data).length / 4 + 2
  omega

/-- **Accumulation is bounded and the loop ends.** After any calls with any bytes, also calls
that failed, the record and the rest of the open fragment are within the limit, and a closed
reader expects nothing. The next call leaves its loop within a turn for each four buffered bytes
and two, and a record it completes is within the limit. -/
theorem reads_bounded (chunks : List Bytes) (data : Bytes) :
    let r := afterReads chunks
    r.record.length + r.remaining ≤ MAX_RECORD_SIZE ∧
    (r.inFragment = false → r.remaining = 0) ∧
    Loop.upTo iteration ((r.input ++ data).length / 4 + 2) { r with input := r.input ++ data } =
      some (r.read data) ∧
    ∀ record, (r.read data).1 = .ok (.complete record) → record.length ≤ MAX_RECORD_SIZE := by
  have hr := afterReads_bounded chunks
  exact ⟨hr.total_le, hr.remaining_eq, upTo_read _ data, (read_bounded hr data).2⟩

end NfsMount.OncRpc.RecordReader
