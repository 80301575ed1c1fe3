import NfsMount.Proofs.Message
import NfsMount.Proofs.WriteRecord

/-!
# `NfsMount.Proofs.Pipeline`: a message through all layers

A message is encoded, framed with `writeRecord`, cut into chunks, and read back by a new
`RecordReader`. `readChunks` is the caller's loop over the chunks. Every read but one needs
more bytes, and that one returns the record. No byte stays in the reader
(`delivers_writeRecord`).

`message_pipeline` adds the decoders. A record decodes to the message it was made of, with
nothing left of it, and is refused by the decoder of the other kind of message.
-/

set_option autoImplicit false

namespace NfsMount.OncRpc

open NfsMount.Lib NfsMount.XdrCodec

/-! ### A stream of one record -/

/-- A stream that ends with its first record has no record in a proper prefix. -/
theorem nextRecord_prefix {u v record : Bytes}
    (h : nextRecord [] (u ++ v) = some (.ok record, [])) :
    nextRecord [] u = none ∨ v = [] ∧ nextRecord [] u = some (.ok record, []) := by
  cases hu : nextRecord [] u with
  | none => exact .inl rfl
  | some found =>
      obtain ⟨x, rest⟩ := found
      rw [(nextRecord_append hu).2.2 v, Option.some.injEq, Prod.mk.injEq] at h
      obtain ⟨rfl, hrest⟩ := h
      obtain ⟨rfl, rfl⟩ := List.append_eq_nil_iff.mp hrest
      exact .inr ⟨rfl, rfl⟩

/-! ### The reader -/

namespace RecordReader

/-- The loop of a caller: what `read` returns for each chunk, and the reader behind them. -/
def readChunks : RecordReader → List Bytes → List (Except RpcError RecordResult) × RecordReader
  | r, [] => ([], r)
  | r, chunk :: chunks =>
      let first := r.read chunk
      let rest := readChunks first.2 chunks
      (first.1 :: rest.1, rest.2)

/-- Nothing is left in the reader. -/
structure Empty (r : RecordReader) : Prop where
  input : r.input = []
  record : r.record = []
  closed : r.inFragment = false

/-- All chunks are read without a record but one, which completes `record`, and nothing is
left in the reader. -/
def Delivers (r : RecordReader) (chunks : List Bytes) (record : Bytes) : Prop :=
  ∃ before after reader, r.readChunks chunks
      = (List.replicate before (.ok .incomplete) ++
          .ok (.complete record) :: List.replicate after (.ok .incomplete), reader) ∧
    Empty reader

/-- An empty reader stays as it is when there is nothing to read. -/
theorem readChunks_empty {r : RecordReader} (h : Empty r) {chunks : List Bytes}
    (hchunks : chunks.flatten = []) :
    r.readChunks chunks = (List.replicate chunks.length (.ok .incomplete), r) := by
  induction chunks with
  | nil => rfl
  | cons chunk chunks ih =>
      obtain ⟨rfl, hrest⟩ := List.append_eq_nil_iff.mp (List.flatten_cons ▸ hchunks)
      have hread : r.read [] = (.ok .incomplete, r) := by
        obtain ⟨input, record, remaining, inFragment, isLast⟩ := r
        obtain ⟨rfl, rfl, rfl⟩ := h
        exact Loop.run_done iteration_decreases rfl
      rw [readChunks, hread]
      dsimp only
      rw [ih hrest, List.length_cons, List.replicate_succ]

/-- A reader that stands inside a record gets it from the rest of the record's bytes. -/
theorem delivers_of_stands {r : RecordReader} {u record : Bytes} {chunks : List Bytes}
    (hr : Stands r u) (hu : nextRecord [] u = none)
    (h : nextRecord [] (u ++ chunks.flatten) = some (.ok record, [])) :
    Delivers r chunks record := by
  induction chunks generalizing r u with
  | nil =>
      rw [List.flatten_nil, List.append_nil, hu] at h
      simp at h
  | cons chunk chunks ih =>
      rw [List.flatten_cons, ← List.append_assoc] at h
      have hspec := read_spec hr chunk
      have hreports := r.read_reports chunk
      rcases hread : r.read chunk with ⟨e | (rec_ | _), r'⟩
      all_goals rw [hread] at hspec hreports
      · -- The stream holds no error.
        rcases nextRecord_prefix h with hnone | ⟨-, hsome⟩
        · simp [hnone] at hspec
        · simp [hsome] at hspec
      · -- This chunk completes the record, so the later ones are empty.
        obtain ⟨hnext, -⟩ := hspec
        rcases nextRecord_prefix h with hnone | ⟨hempty, hsome⟩
        · simp [hnone] at hnext
        · obtain ⟨rfl, hinput⟩ : record = rec_ ∧ [] = r'.input := by
            simpa [hsome] using hnext
          have hidle : Empty r' := ⟨hinput.symm, hreports.2.1, hreports.2.2⟩
          refine ⟨0, chunks.length, r', ?_, hidle⟩
          rw [readChunks, hread]
          dsimp only
          rw [readChunks_empty hidle hempty]
          rfl
      · obtain ⟨hnone, hstands⟩ := hspec
        obtain ⟨before, after, reader, hrun, hempty⟩ := ih hstands hnone h
        refine ⟨before + 1, after, reader, ?_, hempty⟩
        rw [readChunks, hread]
        dsimp only
        rw [hrun, List.replicate_succ]
        rfl

/-- A framed record is delivered by a new reader, however the frame is cut into chunks. -/
theorem delivers_writeRecord {data : Bytes} (h : data.length ≤ MAX_RECORD_SIZE)
    {chunks : List Bytes} (hchunks : chunks.flatten = writeRecord data) :
    Delivers new chunks data := by
  refine delivers_of_stands stands_new (nextRecord_of_short (by decide)) ?_
  rw [List.nil_append, hchunks, ← List.append_nil (writeRecord data)]
  exact nextRecord_writeRecord h []

end RecordReader

/-! ### The other decoder -/

/-- The second word of a message tells calls and replies apart. -/
theorem run_reply_of_call {call : RpcCall} {p : Bytes} (h : encode call = .ok p) :
    (decode : Decoder UInt8 XdrError RpcReply).run p
      = .err (.invalidEnum MSG_TYPE_CALL "MsgType (expected REPLY=1)") := by
  obtain ⟨p₁, q₁, hxid, h₁, rfl⟩ := Encoded.seq_cons_eq_ok.mp h
  obtain ⟨p₂, q₂, htype, -, rfl⟩ := Encoded.seq_cons_eq_ok.mp h₁
  show (decode >>= _ : Decoder UInt8 XdrError RpcReply).run _ = _
  rw [Decoder.run_bind_ok (run_encode (v := call.xid) trivial hxid _),
    Decoder.run_bind_ok (run_encode (v := MSG_TYPE_CALL) trivial htype _), if_pos (by decide)]
  rfl

/-- The second word of a message tells replies and calls apart. -/
theorem run_call_of_reply {reply : RpcReply} {p : Bytes} (h : encode reply = .ok p) :
    (decode : Decoder UInt8 XdrError RpcCall).run p
      = .err (.invalidEnum MSG_TYPE_REPLY "MsgType (expected CALL=0)") := by
  obtain ⟨p₁, q₁, hxid, h₁, rfl⟩ := Encoded.seq_cons_eq_ok.mp h
  obtain ⟨p₂, q₂, htype, -, rfl⟩ := Encoded.seq_cons_eq_ok.mp h₁
  show (decode >>= _ : Decoder UInt8 XdrError RpcCall).run _ = _
  rw [Decoder.run_bind_ok (run_encode (v := reply.xid) trivial hxid _),
    Decoder.run_bind_ok (run_encode (v := MSG_TYPE_REPLY) trivial htype _), if_pos (by decide)]
  rfl

/-- A call or a reply that encodes to at most `MAX_RECORD_SIZE` bytes comes out of the
pipeline as it went in, and never as a message of the other kind. -/
theorem message_pipeline :
    (∀ (call : RpcCall) (p : Bytes), encode call = .ok p → p.length ≤ MAX_RECORD_SIZE →
      ∀ chunks : List Bytes, chunks.flatten = writeRecord p →
        RecordReader.Delivers RecordReader.new chunks p ∧
        (decode : Decoder UInt8 XdrError RpcCall).run p = .ok (call, []) ∧
        ∃ e, (decode : Decoder UInt8 XdrError RpcReply).run p = .err e) ∧
    (∀ (reply : RpcReply) (p : Bytes), encode reply = .ok p → p.length ≤ MAX_RECORD_SIZE →
      ∀ chunks : List Bytes, chunks.flatten = writeRecord p →
        RecordReader.Delivers RecordReader.new chunks p ∧
        (decode : Decoder UInt8 XdrError RpcReply).run p = .ok (reply, []) ∧
        ∃ e, (decode : Decoder UInt8 XdrError RpcCall).run p = .err e) := by
  constructor
  · intro call p h hlen chunks hchunks
    exact ⟨RecordReader.delivers_writeRecord hlen hchunks, run_call_encode h,
      _, run_reply_of_call h⟩
  · intro reply p h hlen chunks hchunks
    exact ⟨RecordReader.delivers_writeRecord hlen hchunks, run_reply_encode h,
      _, run_call_of_reply h⟩

/-- A call with AUTH_SYS credentials and a body of 3 bytes. -/
def authSysCall : RpcCall where
  xid := 9
  program := 100003
  version := 4
  procedure := 1
  cred := .sys ⟨1, "pc", 1000, 100, [4, 27]⟩
  verf := .none
  body := ⟨[1, 2, 3]⟩

/-- What `authSysCall` encodes to: the header, the credentials, the verifier and the body. -/
def authSysBytes : Bytes :=
  [0, 0, 0, 9, 0, 0, 0, 0, 0, 0, 0, 2, 0, 1, 134, 163, 0, 0, 0, 4, 0, 0, 0, 1] ++
  [0, 0, 0, 1, 0, 0, 0, 32, 0, 0, 0, 1, 0, 0, 0, 2, 112, 99, 0, 0, 0, 0, 3, 232,
   0, 0, 0, 100, 0, 0, 0, 2, 0, 0, 0, 4, 0, 0, 0, 27] ++
  [0, 0, 0, 0, 0, 0, 0, 0] ++ [1, 2, 3]

/-- The AUTH_SYS call cut inside the header, inside the credentials and behind them, and an
AUTH_NONE reply cut inside the header and inside the body. -/
theorem message_pipeline_sample :
    (RecordReader.Delivers RecordReader.new
        [[128, 0], [0, 75] ++ authSysBytes.take 45, [], authSysBytes.drop 45] authSysBytes ∧
      (decode : Decoder UInt8 XdrError RpcCall).run authSysBytes = .ok (authSysCall, []) ∧
      ∃ e, (decode : Decoder UInt8 XdrError RpcReply).run authSysBytes = .err e) ∧
    (RecordReader.Delivers RecordReader.new
        [[128, 0],
          [0, 27, 0, 0, 0, 7, 0, 0, 0, 1, 0, 0, 0, 0, 0, 0, 0, 0, 0, 0, 0, 0, 0, 0, 0, 0, 1],
          [2], [], [3]]
        [0, 0, 0, 7, 0, 0, 0, 1, 0, 0, 0, 0, 0, 0, 0, 0, 0, 0, 0, 0, 0, 0, 0, 0, 1, 2, 3] ∧
      (decode : Decoder UInt8 XdrError RpcReply).run
          [0, 0, 0, 7, 0, 0, 0, 1, 0, 0, 0, 0, 0, 0, 0, 0, 0, 0, 0, 0, 0, 0, 0, 0, 1, 2, 3]
        = .ok (⟨7, .none, .success ⟨[1, 2, 3]⟩⟩, []) ∧
      ∃ e, (decode : Decoder UInt8 XdrError RpcCall).run
          [0, 0, 0, 7, 0, 0, 0, 1, 0, 0, 0, 0, 0, 0, 0, 0, 0, 0, 0, 0, 0, 0, 0, 0, 1, 2, 3]
        = .err e) :=
  ⟨message_pipeline.1 authSysCall _ (by decide) (by decide) _ (by decide),
    message_pipeline.2 ⟨7, .none, .success ⟨[1, 2, 3]⟩⟩ _ (by decide) (by decide) _ (by decide)⟩

end NfsMount.OncRpc
