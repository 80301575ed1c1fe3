import NfsMount.Proofs.RecordBounds
import NfsMount.Lib.Run

/-!
# `NfsMount.Proofs.Rejected`: the reader after an oversized record

`read` leaves with `RecordTooLarge` when it has taken the header off the input. The earlier
fragments of the record stay where they are, and the body of the rejected fragment is the next
thing in the input.

`Observed` is a reader under observation. It knows which bytes of the stream each header was
read from, and which ones the record holds. A byte of the stream is its position: the number of
bytes before it. The observer does not disturb the reader (`reader_read`), and it is right about
the bytes (`read_traced`).

A call is `Clean` when it does not look at a body that an earlier call rejected, and does not
return bytes of a record that an earlier call rejected. Runs of clean calls are the runs in
which no call after a rejection finds four bytes, and so no header (`clean_iff_quiet`).
-/

set_option autoImplicit false

namespace NfsMount.OncRpc

open NfsMount.Lib NfsMount.XdrCodec RecordReader

/-! ### What a turn takes off the input -/

namespace RecordReader

/-- The record as a turn leaves it, or returns it. -/
def accumulated (res : ReadResult) : Bytes :=
  match res.1 with
  | .ok (.complete record) => record
  | _ => res.2.record

/-- From `r`, the input was read up to some place, and its last bytes were added to the record,
which is now `record`. -/
def Takes (r r' : RecordReader) (record : Bytes) : Prop :=
  ∃ skip n, skip + n ≤ r.input.length ∧ r'.input = r.input.drop (skip + n) ∧
    record = r.record ++ (r.input.drop skip).take n

/-- What a turn takes, whichever way it ends. -/
def TurnTakes (r : RecordReader) (t : Turn RecordReader ReadResult) : Prop :=
  t.Post (fun r' => Takes r r' r'.record) fun res => Takes r res.2 (accumulated res)

/-- Finishing a fragment takes the bytes of its body. -/
theorem takeBody_takes (r : RecordReader) : r.TurnTakes r.takeBody := by
  apply takeBody_rule
  · intro _
    exact ⟨0, r.input.length, by omega, by simp, by simp [accumulated]⟩
  · intro hle _
    exact ⟨0, r.remaining, by omega, by simp, by simp [accumulated]⟩
  · intro hle _
    exact ⟨0, r.remaining, by omega, by simp, by simp⟩

/-- A header in front of what is taken. -/
theorem Takes.of_header {r r' : RecordReader} {record : Bytes} {last : Bool}
    {remaining : Nat} {inFragment : Bool} (h4 : 4 ≤ r.input.length)
    (h : Takes { r with
      input := r.input.drop 4, isLast := last, remaining, inFragment } r' record) :
    Takes r r' record := by
  obtain ⟨skip, n, hle, hinput, hrecord⟩ := h
  simp only [List.length_drop, List.drop_drop] at hle hinput hrecord
  refine ⟨4 + skip, n, by omega, ?_, hrecord⟩
  rw [hinput, Nat.add_assoc]

/-- A turn takes the bytes of a header, or of a body, or nothing. -/
theorem iteration_takes (r : RecordReader) : r.TurnTakes (iteration r) := by
  apply iteration_rule
  · intro _
    exact takeBody_takes r
  · intro _ _
    exact ⟨0, 0, by omega, by simp, by simp [accumulated]⟩
  · intro _ h4 last length _
    exact ⟨4, 0, h4, by simp, by simp [accumulated]⟩
  · intro _ h4 last length _
    exact (takeBody_takes _).imp (fun _ h => h.of_header h4) fun _ h => h.of_header h4

/-- What an error of a turn says. The fragment was not opened, and its body is not empty: the
record so far is within the limit. -/
def Rejects (res : ReadResult) : Prop :=
  ∀ e, res.1 = .error e → ∃ size, e = .recordTooLarge size MAX_RECORD_SIZE ∧
    res.2.record.length < size ∧ res.2.inFragment = false

/-- The body of a fragment is never an error. -/
theorem takeBody_rejects (r : RecordReader) : r.takeBody.Post (fun _ => True) Rejects := by
  apply takeBody_rule
  · intro _ e he
    cases he
  · intro _ _ e he
    cases he
  · intro _ _
    trivial

/-- An error of a turn is that of a record that has become too large. -/
theorem iteration_rejects {r : RecordReader} (hr : r.Bounded) :
    (iteration r).Post (fun _ => True) Rejects := by
  apply iteration_rule
  · intro _
    exact takeBody_rejects r
  · intro _ _ e he
    cases he
  · intro hclosed _ last length hlarge e he
    have htotal := hr.total_le
    refine ⟨_, (Except.error.inj he).symm, ?_, hclosed⟩
    show r.record.length < r.record.length + length
    omega
  · intro _ _ last length _
    exact takeBody_rejects _

/-- A turn never adds to the input. -/
theorem Takes.length_le {r r' : RecordReader} {record : Bytes} (h : Takes r r' record) :
    r'.input.length ≤ r.input.length := by
  obtain ⟨skip, n, hle, hinput, hrecord⟩ := h
  rw [hinput, List.length_drop]
  omega

end RecordReader

/-! ### A reader under observation -/

/-- A fragment that was rejected for its length. -/
structure Rejection where
  /-- The bytes of the record's earlier fragments. -/
  earlier : List Nat
  /-- The first byte of the body. -/
  start : Nat
  length : Nat
deriving DecidableEq

/-- A reader, with where in the stream it stands and what it has seen of it. -/
structure Observed where
  reader : RecordReader
  /-- How many bytes the reader was given. -/
  fed : Nat
  /-- The first bytes of the headers read in this call. -/
  headers : List Nat
  /-- The bytes that `reader.record` holds. -/
  origin : List Nat
  /-- The bytes of the record that this call returns. -/
  completed : Option (List Nat)
  rejected : List Rejection
deriving DecidableEq

namespace Observed

/-- A new reader, at the start of the stream. -/
def new : Observed where
  reader := RecordReader.new
  fed := 0
  headers := []
  origin := []
  completed := none
  rejected := []

/-- The next byte of the input. -/
def position (o : Observed) : Nat := o.fed - o.reader.input.length

/-- The turn reads a header. -/
def AtHeader (r : RecordReader) : Prop := r.inFragment = false ∧ 4 ≤ r.input.length

instance (r : RecordReader) : Decidable (AtHeader r) := by
  unfold AtHeader
  infer_instance

/-- A turn that leaves `reader`, with `record` accumulated. What `record` has gained are the
last bytes before the input. -/
def advance (o : Observed) (reader : RecordReader) (record : Bytes) : Observed :=
  let gained := record.length - o.reader.record.length
  { o with
    reader := reader
    headers := if AtHeader o.reader then o.position :: o.headers else o.headers
    origin := o.origin ++ List.range' (o.fed - reader.input.length - gained) gained }

/-- A turn that leaves the loop. -/
def settle (o : Observed) (res : ReadResult) : Observed :=
  match res.1 with
  | .ok (.complete record) =>
      let o := o.advance res.2 record
      { o with origin := [], completed := some o.origin }
  | .error (.recordTooLarge size _) =>
      let o := o.advance res.2 res.2.record
      let rejection :=
        { earlier := o.origin, start := o.position, length := size - res.2.record.length }
      { o with rejected := rejection :: o.rejected }
  | _ => o.advance res.2 res.2.record

/-- One turn of the loop in `read`, observed. -/
def turn (o : Observed) : Turn Observed (Except RpcError RecordResult × Observed) :=
  match iteration o.reader with
  | .next reader => .next (o.advance reader reader.record)
  | .done res => .done (res.1, o.settle res)

/-- A turn that goes on, as it is observed. -/
theorem turn_of_next {o : Observed} {r : RecordReader} (h : iteration o.reader = .next r) :
    o.turn = .next (o.advance r r.record) := by
  rw [turn, h]

/-- A turn that ends the call, as it is observed. -/
theorem turn_of_done {o : Observed} {res : ReadResult} (h : iteration o.reader = .done res) :
    o.turn = .done (res.1, o.settle res) := by
  rw [turn, h]

/-- What is observed of a turn that goes on is what the reader did. -/
theorem turn_eq_next {o o' : Observed} (h : o.turn = .next o') :
    ∃ r, iteration o.reader = .next r ∧ o' = o.advance r r.record := by
  cases hi : iteration o.reader with
  | next r =>
      rw [turn_of_next hi] at h
      exact ⟨r, rfl, (Turn.next.inj h).symm⟩
  | done res =>
      rw [turn_of_done hi] at h
      cases h

/-- What is observed of the last turn is what the reader did. -/
theorem turn_eq_done {o : Observed} {out : Except RpcError RecordResult × Observed}
    (h : o.turn = .done out) :
    ∃ res, iteration o.reader = .done res ∧ out = (res.1, o.settle res) := by
  cases hi : iteration o.reader with
  | next r =>
      rw [turn_of_next hi] at h
      cases h
  | done res =>
      rw [turn_of_done hi] at h
      exact ⟨res, rfl, (Turn.done.inj h).symm⟩

/-- Turns that are observed end as those of the reader do. -/
theorem turn_decreases : Loop.Decreases turn (fun o => variant o.reader) := by
  intro o o' h
  obtain ⟨r, hr, rfl⟩ := turn_eq_next h
  exact iteration_decreases o.reader r hr

/-- The observation of a call starts with the new bytes in the input. -/
def feed (o : Observed) (data : Bytes) : Observed :=
  { o with
    reader := { o.reader with input := o.reader.input ++ data }
    fed := o.fed + data.length
    headers := []
    completed := none }

/-- A call of `read`, observed. -/
def read (o : Observed) (data : Bytes) : Except RpcError RecordResult × Observed :=
  Loop.run turn (fun o => variant o.reader) turn_decreases (o.feed data)

/-- The observer does not touch the reader. -/
theorem settle_reader (o : Observed) (res : ReadResult) : (o.settle res).reader = res.2 := by
  unfold settle
  split <;> rfl

/-- The observer sees what the reader does, and changes nothing. -/
theorem reader_read (o : Observed) (data : Bytes) :
    o.reader.read data = ((o.read data).1, (o.read data).2.reader) := by
  show Loop.run iteration variant iteration_decreases (o.feed data).reader = _
  apply Loop.run_simulates (f := Observed.reader) (g := fun out => (out.1, out.2.reader))
    turn_decreases iteration_decreases
  · intro s out h
    obtain ⟨res, hres, rfl⟩ := turn_eq_done h
    rw [hres, settle_reader]
  · intro s s' h
    obtain ⟨r, hr, rfl⟩ := turn_eq_next h
    exact hr

/-! ### The observer is right about the bytes -/

/-- The bytes at these positions of the stream. -/
def bytesAt (stream : Bytes) (positions : List Nat) : Bytes :=
  positions.map fun p => stream.getD p 0

/-- The bytes at places in a row are a part of the stream. -/
theorem bytesAt_range' {stream : Bytes} {start n : Nat} (h : start + n ≤ stream.length) :
    bytesAt stream (List.range' start n) = (stream.drop start).take n := by
  induction n generalizing start with
  | zero => rfl
  | succ n ih =>
      have hlt : start < stream.length := by omega
      have hrest : bytesAt stream (List.range' (start + 1) n) =
          (stream.drop (start + 1)).take n := ih (by omega)
      rw [bytesAt] at hrest ⊢
      rw [List.range'_succ, List.map_cons, hrest, List.drop_eq_getElem_cons hlt,
        List.take_succ_cons, List.getD_eq_getElem stream 0 hlt]

/-- What was observed of a reader that was given `stream`. -/
structure Traced (stream : Bytes) (o : Observed) : Prop where
  fed_eq : o.fed = stream.length
  input_eq : o.reader.input = stream.drop o.position
  record_eq : o.reader.record = bytesAt stream o.origin
  origin_lt : ∀ p ∈ o.origin, p < stream.length

/-- Nothing has been read of the empty stream. -/
theorem traced_new : Traced [] new where
  fed_eq := rfl
  input_eq := rfl
  record_eq := rfl
  origin_lt := by
    intro p hp
    cases hp

/-- The input is not longer than the stream. -/
theorem Traced.length_le {stream : Bytes} {o : Observed} (h : Traced stream o) :
    o.reader.input.length ≤ o.fed := by
  rw [h.input_eq, List.length_drop, h.fed_eq]
  omega

/-- New bytes are behind those that were read. -/
theorem Traced.feed {stream : Bytes} {o : Observed} (h : Traced stream o) (data : Bytes) :
    Traced (stream ++ data) (o.feed data) where
  fed_eq := by
    rw [List.length_append, ← h.fed_eq]
    rfl
  input_eq := by
    have hle := h.length_le
    have hfed := h.fed_eq
    have hpos : (o.feed data).position = o.position := by
      show o.fed + data.length - (o.reader.input ++ data).length = o.fed - o.reader.input.length
      rw [List.length_append]
      omega
    show o.reader.input ++ data = _
    rw [hpos, List.drop_append_of_le_length (by rw [position]; omega), ← h.input_eq]
  record_eq := by
    show o.reader.record = _
    rw [h.record_eq]
    apply List.map_congr_left
    intro p hp
    rw [List.getD_append _ _ _ _ (h.origin_lt p hp)]
  origin_lt := by
    intro p hp
    have hlt := h.origin_lt p hp
    rw [List.length_append]
    omega

/-- The positions follow the bytes over a turn. -/
theorem Traced.advance {stream : Bytes} {o : Observed} (h : Traced stream o)
    {reader : RecordReader} {record : Bytes} (ht : Takes o.reader reader record) :
    reader.input = stream.drop (o.advance reader record).position ∧
    record = bytesAt stream (o.advance reader record).origin ∧
    ∀ p ∈ (o.advance reader record).origin, p < stream.length := by
  obtain ⟨skip, n, hle, hinput, hrecord⟩ := ht
  have hlen := h.length_le
  have hfed := h.fed_eq
  -- A turn skips a header, or bytes of it, and adds `n` bytes to the record.
  have hgained : record.length - o.reader.record.length = n := by
    rw [hrecord, List.length_append, List.length_take, List.length_drop]
    omega
  have hleft : reader.input.length = o.reader.input.length - (skip + n) := by
    rw [hinput, List.length_drop]
  have hpos : (o.advance reader record).position = o.position + (skip + n) := by
    show o.fed - reader.input.length = o.fed - o.reader.input.length + (skip + n)
    omega
  have hstart : o.fed - reader.input.length - n = o.position + skip := by
    rw [position]
    omega
  have horigin : (o.advance reader record).origin =
      o.origin ++ List.range' (o.position + skip) n := by
    rw [← hstart, ← hgained]
    rfl
  have hin : o.position + skip + n ≤ stream.length := by
    rw [position]
    omega
  refine ⟨?_, ?_, ?_⟩
  · rw [hpos, hinput, h.input_eq, List.drop_drop]
  · rw [horigin, hrecord, h.record_eq, h.input_eq, List.drop_drop, ← bytesAt_range' hin]
    exact List.map_append.symm
  · rw [horigin]
    intro p hp
    rcases List.mem_append.mp hp with hold | hnew
    · -- The bytes of earlier turns keep their positions.
      exact h.origin_lt p hold
    · rw [List.mem_range'_1] at hnew
      omega

/-- What a call returns is what was observed: the reader's record, and the record returned. -/
def TracedResult (stream : Bytes) (out : Except RpcError RecordResult × Observed) : Prop :=
  Traced stream out.2 ∧
  ∀ record, out.1 = .ok (.complete record) →
    ∃ origin, out.2.completed = some origin ∧ record = bytesAt stream origin

/-- The last turn reads the bytes of the record that it returns. -/
theorem Traced.settle {stream : Bytes} {o : Observed} (h : Traced stream o) {res : ReadResult}
    (hres : iteration o.reader = .done res) : TracedResult stream (res.1, o.settle res) := by
  obtain ⟨hinput, hrecord, hlt⟩ := h.advance ((iteration_takes o.reader).done hres)
  have hreports := (iteration_spec o.reader).done hres
  obtain ⟨x, reader⟩ := res
  cases x with
  | ok result =>
      cases result with
      | complete record =>
          -- The record leaves the reader, and its positions leave with it.
          refine ⟨⟨h.fed_eq, hinput, ?_, fun p hp => nomatch hp⟩, fun record' hx => ?_⟩
          · show reader.record = []
            exact hreports.2.1
          · obtain rfl := RecordResult.complete.inj (Except.ok.inj hx)
            exact ⟨_, rfl, hrecord⟩
      | incomplete => exact ⟨⟨h.fed_eq, hinput, hrecord, hlt⟩, by simp⟩
  | error e =>
      cases e with
      | recordTooLarge size max => exact ⟨⟨h.fed_eq, hinput, hrecord, hlt⟩, by simp⟩
      | _ => exact ⟨⟨h.fed_eq, hinput, hrecord, hlt⟩, by simp⟩

/-- **Step.** A turn keeps the observation right. -/
theorem Traced.turn {stream : Bytes} {o : Observed} (h : Traced stream o) :
    o.turn.Post (Traced stream) (TracedResult stream) := by
  cases hi : iteration o.reader with
  | next r =>
      rw [turn_of_next hi]
      obtain ⟨hinput, hrecord, hlt⟩ := h.advance ((iteration_takes o.reader).next hi)
      exact ⟨h.fed_eq, hinput, hrecord, hlt⟩
  | done res =>
      rw [turn_of_done hi]
      exact h.settle hi

/-- The observer knows the bytes of a call. -/
theorem read_traced {stream : Bytes} {o : Observed} (h : Traced stream o) (data : Bytes) :
    TracedResult (stream ++ data) (o.read data) :=
  Loop.run_post turn_decreases (fun _ hs => hs.turn) (h.feed data)

/-- A call as a step. Every call can happen in every state. -/
def step (o : Observed) (data : Bytes) : Option Observed := some (o.read data).2

/-- **The observer.** Along a run the observed reader is the reader, and the positions are those
of the bytes that were given to it. -/
theorem run_traced {chunks : List Bytes} {o : Observed} (h : run step new chunks = some o) :
    o.reader = afterReads chunks ∧ Traced chunks.flatten o := by
  induction chunks using List.reverseRecOn generalizing o with
  | nil =>
      obtain rfl := Option.some.inj h
      exact ⟨rfl, traced_new⟩
  | append_singleton chunks data ih =>
      obtain ⟨s, hs, hlast⟩ := run_append.mp h
      obtain ⟨hreader, htraced⟩ := ih hs
      obtain rfl := Option.some.inj hlast
      rw [afterReads_append, List.flatten_append, List.flatten_singleton, ← hreader, reader_read]
      exact ⟨rfl, (read_traced htraced data).1⟩

/-! ### Clean calls -/

/-- The call reads no header from a body that was rejected before, and returns no bytes of a
record that was rejected before. -/
def Clean (o : Observed) (data : Bytes) : Prop :=
  ∀ rej ∈ o.rejected,
    (∀ p ∈ (o.read data).2.headers, p + 4 ≤ rej.start ∨ rej.start + rej.length ≤ p) ∧
    ∀ origin ∈ (o.read data).2.completed, ∀ p ∈ origin, p ∉ rej.earlier

/-- Nothing was rejected yet, or the call does not find enough bytes for a header. -/
def Quiet (o : Observed) (data : Bytes) : Prop :=
  o.rejected = [] ∨ o.reader.input.length + data.length < 4

/-- Until four bytes are there after a rejection, the reader is between two fragments, and the
rejected body is the next thing it reads. -/
structure AtRejected (o : Observed) : Prop where
  bounded : o.reader.Bounded
  length_le : o.reader.input.length ≤ o.fed
  next_eq : o.rejected = [] ∨
    o.reader.inFragment = false ∧ ∃ rej ∈ o.rejected, rej.start = o.position ∧ 0 < rej.length

/-- A new reader has rejected nothing. -/
theorem atRejected_new : AtRejected new where
  bounded := bounded_new
  length_le := Nat.le_refl 0
  next_eq := .inl rfl

/-- New bytes do not move the place of the next byte. -/
theorem position_feed {o : Observed} (h : o.reader.input.length ≤ o.fed) (data : Bytes) :
    (o.feed data).position = o.position := by
  show o.fed + data.length - (o.reader.input ++ data).length = o.fed - o.reader.input.length
  rw [List.length_append]
  omega

/-- Nothing was rejected so far. -/
structure Unrejected (o : Observed) : Prop where
  rejected_eq : o.rejected = []
  bounded : o.reader.Bounded
  length_le : o.reader.input.length ≤ o.fed

/-- The observation of a turn that leaves. -/
theorem Unrejected.settle {o : Observed} (h : Unrejected o) {res : ReadResult}
    (hres : iteration o.reader = .done res) : AtRejected (o.settle res) := by
  have hbounded := ((iteration_bounded h.bounded).done hres).1
  have hle := ((iteration_takes o.reader).done hres).length_le.trans h.length_le
  obtain ⟨x, reader⟩ := res
  cases x with
  | ok result =>
      cases result with
      | complete record => exact ⟨hbounded, hle, .inl h.rejected_eq⟩
      | incomplete => exact ⟨hbounded, hle, .inl h.rejected_eq⟩
  | error e =>
      obtain ⟨size, rfl, hsize, hclosed⟩ := (iteration_rejects h.bounded).done hres e rfl
      -- The rejected body starts where the reader stands now.
      exact ⟨hbounded, hle,
        .inr ⟨hclosed, _, List.mem_cons_self, rfl, Nat.sub_pos_of_lt hsize⟩⟩

/-- A turn goes on without an error, or rejects the record. -/
theorem Unrejected.turn {o : Observed} (h : Unrejected o) :
    o.turn.Post Unrejected fun out => AtRejected out.2 := by
  cases hi : iteration o.reader with
  | next r =>
      rw [turn_of_next hi]
      exact ⟨h.rejected_eq, (iteration_bounded h.bounded).next hi,
        ((iteration_takes o.reader).next hi).length_le.trans h.length_le⟩
  | done res =>
      rw [turn_of_done hi]
      exact h.settle hi

/-- A call when nothing was rejected before. -/
theorem read_atRejected {o : Observed} (h : AtRejected o) (hnone : o.rejected = [])
    (data : Bytes) : AtRejected (o.read data).2 := by
  have hle : (o.reader.input ++ data).length ≤ o.fed + data.length := by
    have := h.length_le
    rw [List.length_append]
    omega
  have hfeed : Unrejected (o.feed data) := ⟨hnone, h.bounded.feed data, hle⟩
  exact Loop.run_post turn_decreases (fun _ hs => Unrejected.turn hs) hfeed

/-- A call that does not find a header's bytes only keeps the new ones. -/
theorem read_of_short {o : Observed} (hin : o.reader.inFragment = false) {data : Bytes}
    (hlt : o.reader.input.length + data.length < 4) :
    o.read data = (.ok .incomplete, o.feed data) := by
  have hlt' : (o.feed data).reader.input.length < 4 := by
    show (o.reader.input ++ data).length < 4
    rwa [List.length_append]
  have hnot : ¬ AtHeader (o.feed data).reader := fun h => absurd h.2 (Nat.not_le.mpr hlt')
  have hin' : ¬ (o.feed data).reader.inFragment := by
    show ¬ o.reader.inFragment
    rw [hin]
    decide
  have hdone : iteration (o.feed data).reader = .done (.ok .incomplete, (o.feed data).reader) := by
    rw [iteration, if_neg hin', if_pos hlt']
  have hsettle : (o.feed data).settle (.ok .incomplete, (o.feed data).reader) = o.feed data := by
    show (o.feed data).advance (o.feed data).reader (o.feed data).reader.record = _
    simp [advance, if_neg hnot]
  rw [read, Loop.run_done turn_decreases (turn_of_done hdone), hsettle]

/-- The last turn has seen a header if it stood at one. -/
theorem settle_headers (o : Observed) (res : ReadResult) :
    (o.settle res).headers =
      if AtHeader o.reader then o.position :: o.headers else o.headers := by
  unfold settle
  split <;> rfl

/-- A call that starts at a header is seen to read it. -/
theorem position_mem_headers {o : Observed} {data : Bytes}
    (h : AtHeader (o.feed data).reader) :
    (o.feed data).position ∈ (o.read data).2.headers := by
  have hrun := Loop.run_induct turn_decreases (s := o.feed data)
    -- The headers that were seen are kept, and so is the one of this turn.
    (P := fun s out => (∀ p ∈ s.headers, p ∈ out.2.headers) ∧
      (AtHeader s.reader → s.position ∈ out.2.headers)) ?_ ?_
  · exact hrun.2 h
  · intro s out hs
    obtain ⟨res, hres, rfl⟩ := turn_eq_done hs
    rw [settle_headers]
    by_cases hat : AtHeader s.reader
    · rw [if_pos hat]
      exact ⟨fun p hp => List.mem_cons_of_mem _ hp, fun _ => List.mem_cons_self⟩
    · rw [if_neg hat]
      exact ⟨fun p hp => hp, fun h => absurd h hat⟩
  · intro s s' out hs ih
    obtain ⟨r, hr, rfl⟩ := turn_eq_next hs
    by_cases hat : AtHeader s.reader
    · have hheaders : (s.advance r r.record).headers = s.position :: s.headers := if_pos hat
      rw [hheaders] at ih
      exact ⟨fun p hp => ih.1 p (List.mem_cons_of_mem _ hp), fun _ => ih.1 _ List.mem_cons_self⟩
    · have hheaders : (s.advance r r.record).headers = s.headers := if_neg hat
      rw [hheaders] at ih
      exact ⟨ih.1, fun h => absurd h hat⟩

/-- Before four bytes are there, a rejection does no harm. With them it does. -/
theorem clean_iff_quiet_of_atRejected {o : Observed} (h : AtRejected o) (data : Bytes) :
    Clean o data ↔ Quiet o data := by
  rcases h.next_eq with hnone | ⟨hin, rej, hmem, hstart, hpos⟩
  · refine ⟨fun _ => .inl hnone, fun _ rej hmem => ?_⟩
    rw [hnone] at hmem
    cases hmem
  · constructor
    · intro hclean
      by_contra hquiet
      have hlen : 4 ≤ o.reader.input.length + data.length :=
        Nat.not_lt.mp fun hlt => hquiet (.inr hlt)
      have hat : AtHeader (o.feed data).reader := by
        refine ⟨hin, ?_⟩
        show 4 ≤ (o.reader.input ++ data).length
        rwa [List.length_append]
      -- The header read first is the front of the rejected body.
      have hheader := (hclean rej hmem).1 _ (position_mem_headers hat)
      rw [position_feed h.length_le, ← hstart] at hheader
      omega
    · rintro (hnone | hlt)
      · rw [hnone] at hmem
        cases hmem
      · intro rej _
        rw [read_of_short hin hlt]
        exact ⟨by simp [feed], by simp [feed]⟩

/-- **Step.** A quiet read leaves a reader that has rejected nothing, or rejects there. -/
theorem step_atRejected {o o' : Observed} {data : Bytes} (h : AtRejected o) (hq : Quiet o data)
    (hs : step o data = some o') : AtRejected o' := by
  obtain rfl := Option.some.inj hs
  rcases h.next_eq with hnone | ⟨hin, rej, hmem, hstart, hpos⟩
  · exact read_atRejected h hnone data
  · rcases hq with hnone | hlt
    · exact read_atRejected h hnone data
    · rw [read_of_short hin hlt]
      have hle := h.length_le
      refine ⟨h.bounded.feed data, ?_, .inr ⟨hin, rej, hmem, ?_, hpos⟩⟩
      · show (o.reader.input ++ data).length ≤ o.fed + data.length
        rw [List.length_append]
        omega
      · rw [hstart]
        exact (position_feed hle data).symm

/-- **What a rejection leaves behind.** A run is clean exactly when no call after a rejection
finds the four bytes of a header. -/
theorem clean_iff_quiet (chunks : List Bytes) :
    Along step Clean new chunks ↔ Along step Quiet new chunks :=
  along_iff_along (fun _ _ _ h hq hs => step_atRejected h hq hs)
    (fun _ data h => clean_iff_quiet_of_atRejected h data) atRejected_new

instance (o : Observed) (data : Bytes) : Decidable (Clean o data) := by
  unfold Clean
  infer_instance

/-- A fragment of two bytes that is not the last one, and behind it a header that asks for more
than the limit. -/
def oversized : Bytes := [0x00, 0x00, 0x00, 0x02, 0xAA, 0xBB, 0x80, 0xA0, 0x00, 0x01]

/-- The body behind that header. It looks like a fragment. -/
def oversizedBody : Bytes := [0x80, 0x00, 0x00, 0x01, 0x05]

/-- The second record is read with the bytes that were kept of the first. -/
theorem oversized_not_clean :
    (new.read oversized).1 = .error (.recordTooLarge 10485763 MAX_RECORD_SIZE) ∧
    ((new.read oversized).2.read oversizedBody).1 = .ok (.complete [0xAA, 0xBB, 0x05]) ∧
    ¬ Along step Clean new [oversized, oversizedBody] := by
  refine ⟨by decide +kernel, by decide +kernel, fun h => ?_⟩
  have hbody : ¬ Clean (new.read oversized).2 oversizedBody := by decide +kernel
  exact hbody (h.2 _ rfl).1

end Observed

end NfsMount.OncRpc
