import NfsMount.Proofs.Tcp

/-!
# `NfsMount.Proofs.Segmentation`: calls and the cutting of the stream

A peer sends complete records, and the socket delivers them in chunks of up to 8192 bytes,
then reports that there are no more. `SegmentationIndependent` says that the results of a
sequence of calls are the same for every cutting, and that no call drops bytes that a later
call waits for.

It holds when at most one of the calls reads the socket, as nobody misses what that call
drops. It holds when there is at most one record and the record fits, as then no bytes are
behind it. In every other case there are bytes behind what the first reading call finds. A
chunk that straddles the place is read whole and dropped in part (`exists_straddling_cut`),
so the condition is exact (`segmentation_independent_iff`).
-/

set_option autoImplicit false

namespace NfsMount.OncRpc

open NfsMount.Lib NfsMount.XdrCodec

namespace TcpTransport

/-! ### Sequences of calls -/

/-- The call reads the socket: its message has an encoding and is written. -/
def Invocation.sends (c : Invocation) : Bool :=
  c.written.isOk && ((encode c.args.cred).isOk && (encode c.args.verf).isOk)

/-- The results of the calls that return, in order. A call that waits for ever is the last
one. -/
def results (t : TcpTransport) : List Invocation → List SocketRead →
    List (Outcome RpcError RpcResponse)
  | [], _ => []
  | c :: cs, reads =>
      match t.call c reads with
      | (none, _) => []
      | (some ex, t) => ex.result :: results t cs ex.reads

/-- No call drops bytes when a later call reads the socket. -/
def Keeps (t : TcpTransport) : List Invocation → List SocketRead → Prop
  | [], _ => True
  | c :: cs, reads =>
      match t.call c reads with
      | (none, _) => True
      | (some ex, t) =>
          (ex.dropped = [] ∨ ∀ c' ∈ cs, ¬ c'.sends) ∧ Keeps t cs ex.reads

/-- What the socket reports behind the stream: end of file, or an error. -/
def tailReads (tail : List (Option IoError)) : List SocketRead :=
  tail.map fun
    | none => .ok []
    | some e => .error e

/-- A way to cut a stream into reads of a buffer of 8192 bytes. -/
structure IsCut (chunks : List Bytes) (stream : Bytes) : Prop where
  flatten : chunks.flatten = stream
  length_le : ∀ c ∈ chunks, 1 ≤ c.length ∧ c.length ≤ 8192

/-- The stream of these records. -/
def wireOf (records : List Record) : Bytes := (records.map Record.wire).flatten

/-- The calls return the same for every cutting of the records, and none of them drops bytes
of a later call. -/
structure SegmentationIndependent (t : TcpTransport) (calls : List Invocation)
    (records : List Record) (tail : List (Option IoError)) : Prop where
  same : ∀ cut cut', IsCut cut (wireOf records) → IsCut cut' (wireOf records) →
    results t calls (chunkReads cut ++ tailReads tail) =
      results t calls (chunkReads cut' ++ tailReads tail)
  keeps : ∀ cut, IsCut cut (wireOf records) →
    Keeps t calls (chunkReads cut ++ tailReads tail)

/-- No piece of a cut is empty. -/
theorem IsCut.ne_nil {chunks : List Bytes} {stream : Bytes} (h : IsCut chunks stream) :
    ∀ c ∈ chunks, c ≠ [] := by
  rintro c hc rfl
  exact absurd (h.length_le [] hc).1 (by decide)

/-! ### One call -/

/-- A message is encoded when its credentials are. -/
theorem prepare_isOk (t : TcpTransport) (c : CallArgs) :
    (t.prepare c).1.2.isOk = ((encode c.cred).isOk && (encode c.verf).isOk) := by
  show (Encoded.seq _).isOk = _
  rw [Encoded.seq_isOk]
  show ((encode c.cred).isOk && ((encode c.verf).isOk && true)) = _
  rw [Bool.and_true]

/-- A call that does not read the socket ends the same way whatever the socket holds. -/
theorem call_of_not_sends {c : Invocation} (h : ¬ c.sends) (t : TcpTransport) :
    ∃ res, ∀ reads, t.call c reads = (some ⟨res, [], reads⟩, t.fetchXid.2) := by
  have hok := prepare_isOk t c.args
  have ht : (t.prepare c.args).2 = t.fetchXid.2 := rfl
  rcases hprep : t.prepare c.args with ⟨⟨xid, e | msg⟩, t'⟩
  · rw [hprep] at ht
    obtain rfl : t' = t.fetchXid.2 := ht
    exact ⟨.err (.xdr e), fun reads => by simp only [call, hprep]⟩
  · rw [hprep] at ht hok
    obtain rfl : t' = t.fetchXid.2 := ht
    rcases hwritten : c.written with e | u
    · exact ⟨.err (.transport e), fun reads => by simp only [call, hprep, hwritten]⟩
    · refine absurd ?_ h
      rw [Invocation.sends, hwritten, ← hok]
      rfl

/-- A call that sends reads its reply with a new reader. -/
theorem call_of_sends {c : Invocation} (h : c.sends) (t : TcpTransport)
    (reads : List SocketRead) : t.call c reads = (exchange t.nextXid reads, t.fetchXid.2) := by
  have hok := prepare_isOk t c.args
  have hfst : (t.prepare c.args).1.1 = t.nextXid := rfl
  have ht : (t.prepare c.args).2 = t.fetchXid.2 := rfl
  rw [Invocation.sends, Bool.and_eq_true, ← hok] at h
  rcases hprep : t.prepare c.args with ⟨⟨xid, e | msg⟩, t'⟩
  · rw [hprep] at h
    exact absurd h.2 Bool.false_ne_true
  · rw [hprep] at ht hfst
    obtain rfl : t' = t.fetchXid.2 := ht
    obtain rfl : xid = t.nextXid := hfst
    rcases hwritten : c.written with e | u
    · rw [hwritten] at h
      exact absurd h.1 Bool.false_ne_true
    · simp only [call, hprep, hwritten]

/-- Reading the end of the stream ends the loop, and the reader keeps what it holds. -/
theorem receive_tail (r : RecordReader) (tail : List (Option IoError)) :
    receive r (tailReads tail) = match tail with
      | [] => none
      | none :: tail => some ((.error (.transport
          (.unexpectedEof "connection closed while reading reply")), r), tailReads tail)
      | some e :: tail => some ((.error (.transport e), r), tailReads tail) := by
  rcases tail with _ | ⟨_ | e, tail⟩ <;> rfl

/-- The result of an exchange does not depend on the cutting. -/
theorem exchange_result (xid : UInt32) {stream : Bytes} {cut cut' : List Bytes}
    (h : IsCut cut stream) (h' : IsCut cut' stream) (tail : List (Option IoError)) :
    (exchange xid (chunkReads cut ++ tailReads tail)).map Exchanged.result =
      (exchange xid (chunkReads cut' ++ tailReads tail)).map Exchanged.result := by
  -- What the reference finds in the whole stream decides the result, so the two cuttings are
  -- compared through it and never with one another.
  have hempty : nextRecord [] [] = none := nextRecord_of_short (by decide)
  have hflat : ([] ++ cut.flatten : Bytes) = stream := h.flatten
  have hflat' : ([] ++ cut'.flatten : Bytes) = stream := h'.flatten
  cases hnext : nextRecord [] stream with
  | none =>
      obtain ⟨r, -, hr⟩ := receive_chunks_none RecordReader.stands_new h.ne_nil
        (hflat ▸ hnext) (tailReads tail)
      obtain ⟨r', -, hr'⟩ := receive_chunks_none RecordReader.stands_new h'.ne_nil
        (hflat' ▸ hnext) (tailReads tail)
      rw [exchange, exchange, hr, hr', receive_tail, receive_tail]
      rcases tail with _ | ⟨_ | e, tail⟩ <;> rfl
  | some found =>
      obtain ⟨x, t⟩ := found
      obtain ⟨r, pre, post, -, -, hr⟩ := receive_chunks_some RecordReader.stands_new hempty
        h.ne_nil (hflat ▸ hnext) (tailReads tail)
      obtain ⟨r', pre', post', -, -, hr'⟩ := receive_chunks_some RecordReader.stands_new hempty
        h'.ne_nil (hflat' ▸ hnext) (tailReads tail)
      rw [exchange, exchange, hr, hr']
      rcases x with e | record <;> rfl

/-! ### When the results are the same -/

/-- Calls that send nothing read nothing. -/
theorem results_of_none_sends {calls : List Invocation} (h : ∀ c ∈ calls, ¬ c.sends)
    (t : TcpTransport) (reads reads' : List SocketRead) :
    results t calls reads = results t calls reads' := by
  induction calls generalizing t reads reads' with
  | nil => rfl
  | cons c cs ih =>
      obtain ⟨res, hres⟩ := call_of_not_sends (h c List.mem_cons_self) t
      rw [results, results, hres, hres]
      simp only [ih (fun x hx => h x (List.mem_cons_of_mem c hx)) _ reads reads']

/-- Of several calls, the first does not send and the others are as before, or it does. -/
private theorem countP_cons_le {c : Invocation} {cs : List Invocation}
    (h : (c :: cs).countP Invocation.sends ≤ 1) :
    (¬ c.sends ∧ cs.countP Invocation.sends ≤ 1) ∨ (c.sends ∧ ∀ x ∈ cs, ¬ x.sends) := by
  by_cases hc : c.sends
  · rw [List.countP_cons_of_pos hc] at h
    exact .inr ⟨hc, List.countP_eq_zero.mp (by omega)⟩
  · rw [List.countP_cons_of_neg hc] at h
    exact .inl ⟨hc, h⟩

/-- With one call that reads the socket, its result is the only one in question. -/
theorem results_of_one_sends {calls : List Invocation}
    (h : calls.countP Invocation.sends ≤ 1) (t : TcpTransport) {stream : Bytes}
    {cut cut' : List Bytes} (hcut : IsCut cut stream) (hcut' : IsCut cut' stream)
    (tail : List (Option IoError)) :
    results t calls (chunkReads cut ++ tailReads tail) =
      results t calls (chunkReads cut' ++ tailReads tail) := by
  induction calls generalizing t with
  | nil => rfl
  | cons c cs ih =>
      rcases countP_cons_le h with ⟨hc, hcs⟩ | ⟨hc, hcs⟩
      · obtain ⟨res, hres⟩ := call_of_not_sends hc t
        rw [results, results, hres, hres]
        simp only [ih hcs]
      · have hex := exchange_result t.nextXid hcut hcut' tail
        rw [results, results, call_of_sends hc, call_of_sends hc]
        rcases hx : exchange t.nextXid (chunkReads cut ++ tailReads tail) with _ | ex
        · rw [hx, Option.map_none, eq_comm, Option.map_eq_none_iff] at hex
          rw [hex]
        · rw [hx, Option.map_some, eq_comm, Option.map_eq_some_iff] at hex
          obtain ⟨ex', hex', hsame⟩ := hex
          rw [hex']
          simp only [hsame, results_of_none_sends hcs _ ex.reads ex'.reads]

/-- One call at most reads from the start of the stream. -/
theorem keeps_of_one_sends {calls : List Invocation}
    (h : calls.countP Invocation.sends ≤ 1) (t : TcpTransport) (reads : List SocketRead) :
    Keeps t calls reads := by
  induction calls generalizing t reads with
  | nil => trivial
  | cons c cs ih =>
      rcases countP_cons_le h with ⟨hc, hcs⟩ | ⟨hc, hcs⟩
      · obtain ⟨res, hres⟩ := call_of_not_sends hc t
        rw [Keeps, hres]
        exact ⟨.inl rfl, ih hcs _ _⟩
      · have hzero : cs.countP Invocation.sends = 0 := List.countP_eq_zero.mpr hcs
        -- Whatever this call drops, no later call reads the socket.
        rw [Keeps, call_of_sends hc]
        rcases exchange t.nextXid reads with _ | ex
        · trivial
        · exact ⟨.inr hcs, ih (by omega) _ _⟩

/-- Calls that find the end of the stream drop nothing. -/
theorem keeps_tail (t : TcpTransport) (calls : List Invocation)
    (tail : List (Option IoError)) : Keeps t calls (tailReads tail) := by
  induction calls generalizing t tail with
  | nil => trivial
  | cons c cs ih =>
      by_cases hc : c.sends
      · rw [Keeps, call_of_sends hc, exchange, receive_tail]
        rcases tail with _ | ⟨_ | e, tail⟩
        · trivial
        · exact ⟨.inl rfl, ih _ _⟩
        · exact ⟨.inl rfl, ih _ _⟩
      · obtain ⟨res, hres⟩ := call_of_not_sends hc t
        rw [Keeps, hres]
        exact ⟨.inl rfl, ih _ _⟩

/-- A call that finds one record that fits takes all its chunks. -/
theorem exchange_record (xid : UInt32) {rec : Record}
    (hfits : rec.payload.length ≤ MAX_RECORD_SIZE) {cut : List Bytes}
    (hcut : IsCut cut rec.wire) (tail : List SocketRead) :
    exchange xid (chunkReads cut ++ tail) = some ⟨checkReply xid rec.payload, [], tail⟩ := by
  have hnext : nextRecord [] ([] ++ cut.flatten) = some (.ok rec.payload, []) := by
    have hwire := rec.nextRecord_wire [] hfits
    rwa [List.append_nil, ← hcut.flatten] at hwire
  obtain ⟨r, pre, post, rfl, hnil, hr⟩ := receive_chunks_some RecordReader.stands_new
    (nextRecord_of_short (by decide)) hcut.ne_nil hnext tail
  obtain ⟨hinput, hpost⟩ := List.append_eq_nil_iff.mp hnil
  -- Chunks are not empty, so no bytes behind the record means no chunks.
  have hpost : post = [] := by
    cases post with
    | nil => rfl
    | cons c cs =>
        rw [List.flatten_cons, List.append_eq_nil_iff] at hpost
        exact absurd hpost.1 (hcut.ne_nil c (by simp))
  rw [exchange, hr, hpost]
  simp only [hinput]
  rfl

/-- With one record that fits, the first call that reads the socket takes it all. -/
theorem independent_of_one_record (t : TcpTransport) (calls : List Invocation) {rec : Record}
    (hfits : rec.payload.length ≤ MAX_RECORD_SIZE) {cut cut' : List Bytes}
    (hcut : IsCut cut rec.wire) (hcut' : IsCut cut' rec.wire) (tail : List (Option IoError)) :
    results t calls (chunkReads cut ++ tailReads tail) =
      results t calls (chunkReads cut' ++ tailReads tail) ∧
    Keeps t calls (chunkReads cut ++ tailReads tail) := by
  induction calls generalizing t with
  | nil => exact ⟨rfl, trivial⟩
  | cons c cs ih =>
      by_cases hc : c.sends
      · rw [results, results, Keeps, call_of_sends hc, call_of_sends hc,
          exchange_record _ hfits hcut, exchange_record _ hfits hcut']
        -- Both cuttings are used up, and the later calls only find the end of the stream.
        exact ⟨rfl, .inl rfl, keeps_tail _ _ _⟩
      · obtain ⟨res, hres⟩ := call_of_not_sends hc t
        rw [results, results, Keeps, hres, hres]
        refine ⟨?_, .inl rfl, (ih _).2⟩
        simp only [(ih t.fetchXid.2).1]

/-- An empty stream is cut into nothing. -/
theorem isCut_nil {cut : List Bytes} (h : IsCut cut []) : cut = [] := by
  cases cut with
  | nil => rfl
  | cons c cs =>
      have hflat := h.flatten
      rw [List.flatten_cons, List.append_eq_nil_iff] at hflat
      exact absurd hflat.1 (h.ne_nil c List.mem_cons_self)

/-! ### When they are not -/

/-- One byte at a time. -/
private theorem isCut_bytes (b : Bytes) : IsCut (b.map fun x => [x]) b where
  flatten := by
    induction b with
    | nil => rfl
    | cons x b ih => rw [List.map_cons, List.flatten_cons, ih, List.singleton_append]
  length_le c hc := by
    obtain ⟨x, -, rfl⟩ := List.mem_map.mp hc
    exact ⟨Nat.le_refl 1, (by decide : 1 ≤ 8192)⟩

/-- A stream can be cut so that no chunk ends behind `p`. The last byte of `p` and the first
byte behind it are one chunk. -/
theorem exists_straddling_cut {p t : Bytes} (hp : p ≠ []) (ht : t ≠ []) :
    ∃ cut, IsCut cut (p ++ t) ∧ ∀ pre post, cut = pre ++ post → post.flatten ≠ t := by
  obtain ⟨p', a, rfl⟩ := (List.eq_nil_or_concat' p).resolve_left hp
  obtain ⟨b, t', rfl⟩ := List.exists_cons_of_ne_nil ht
  have hfront := isCut_bytes p'
  have hback := isCut_bytes t'
  -- Single bytes, but for the one chunk of two that lies over the end of `p`.
  refine ⟨p'.map (fun x => [x]) ++ [a, b] :: t'.map (fun x => [x]), ⟨?_, ?_⟩, ?_⟩
  · rw [List.flatten_append, List.flatten_cons, hfront.flatten, hback.flatten]
    simp
  · intro c hc
    rcases List.mem_append.mp hc with hc | hc
    · exact hfront.length_le c hc
    · rcases List.mem_cons.mp hc with rfl | hc
      · exact ⟨by simp, by simp⟩
      · exact hback.length_le c hc
  · -- What is left is longer than `t` with the straddling chunk, and shorter without it.
    intro pre post hcut hflat
    have hlen : post.flatten.length = t'.length + 1 := by rw [hflat, List.length_cons]
    rcases List.append_eq_append_iff.mp hcut with ⟨as, -, hpost⟩ | ⟨bs, -, rfl⟩
    · rcases as with _ | ⟨c, as⟩
      · rw [List.nil_append] at hpost
        rw [← hpost, List.flatten_cons, hback.flatten, List.length_append] at hlen
        simp only [List.length_cons, List.length_nil] at hlen
        omega
      · have hrest : t'.map (fun x => [x]) = as ++ post := (List.cons_eq_cons.mp hpost).2
        have hshort := congrArg (fun l => l.flatten.length) hrest
        simp only [hback.flatten, List.flatten_append, List.length_append] at hshort
        omega
    · rw [List.flatten_append, List.flatten_cons, hback.flatten, List.length_append,
        List.length_append] at hlen
      simp only [List.length_cons, List.length_nil] at hlen
      omega

/-- A straddling chunk makes the first call that reads the socket drop bytes. -/
theorem not_keeps {calls : List Invocation} (h : ¬ calls.countP Invocation.sends ≤ 1)
    (t : TcpTransport) {reads : List SocketRead}
    (hdrop : ∀ xid, ∃ ex, exchange xid reads = some ex ∧ ex.dropped ≠ []) :
    ¬ Keeps t calls reads := by
  induction calls generalizing t with
  | nil => exact absurd (Nat.zero_le 1) h
  | cons c cs ih =>
      by_cases hc : c.sends
      · obtain ⟨ex, hex, hne⟩ := hdrop t.nextXid
        rw [Keeps, call_of_sends hc, hex]
        rintro ⟨hkeep, -⟩
        have hcs := List.countP_eq_zero.mpr (hkeep.resolve_left hne)
        rw [List.countP_cons_of_pos hc] at h
        omega
      · obtain ⟨res, hres⟩ := call_of_not_sends hc t
        rw [List.countP_cons_of_neg hc] at h
        rw [Keeps, hres]
        exact fun hkeep => ih h _ hkeep.2

/-- When bytes are behind what the reference finds first, some cutting makes calls drop
bytes. -/
theorem not_independent {calls : List Invocation} (h : ¬ calls.countP Invocation.sends ≤ 1)
    (t : TcpTransport) {records : List Record} {x : Except RpcError Bytes} {s : Bytes}
    (hnext : nextRecord [] (wireOf records) = some (x, s)) (hs : s ≠ [])
    (tail : List (Option IoError)) : ¬ SegmentationIndependent t calls records tail := by
  intro hind
  obtain ⟨h4, hsuffix, -⟩ := nextRecord_append hnext
  obtain ⟨p, hp⟩ := hsuffix.trans (List.drop_suffix 4 _)
  -- A header at least stands before what is left, so there is a last byte to straddle from.
  have hpne : p ≠ [] := by
    rintro rfl
    have hle := hsuffix.length_le
    rw [List.length_drop, ← hp, List.nil_append] at hle
    rw [← hp, List.nil_append] at h4
    omega
  obtain ⟨cut, hcut, hstraddle⟩ := exists_straddling_cut hpne hs
  rw [hp] at hcut
  refine not_keeps h t (fun xid => ?_) (hind.keeps cut hcut)
  have hflat : nextRecord [] ([] ++ cut.flatten) = some (x, s) := by
    rw [List.nil_append, hcut.flatten, hnext]
  obtain ⟨r, pre, post, hsplit, hrest, hr⟩ := receive_chunks_some RecordReader.stands_new
    (nextRecord_of_short (by decide)) hcut.ne_nil hflat (tailReads tail)
  -- With nothing in the reader, a chunk would end exactly where the first find ends.
  have hdropped : r.input ≠ [] := by
    intro hnil
    rw [hnil, List.nil_append] at hrest
    exact hstraddle pre post hsplit hrest
  rw [exchange, hr]
  rcases x with e | record
  · exact ⟨_, rfl, hdropped⟩
  · exact ⟨_, rfl, hdropped⟩

/-- **Segmentation independence, and its exact condition.** The calls return the same for
every cutting of the stream and drop no bytes of a later call exactly when at most one call
reads the socket, or the stream is at most one record and the record fits. -/
theorem segmentation_independent_iff (t : TcpTransport) (calls : List Invocation)
    (records : List Record) (tail : List (Option IoError)) :
    SegmentationIndependent t calls records tail ↔
      calls.countP Invocation.sends ≤ 1 ∨
      (records.length ≤ 1 ∧ ∀ rec ∈ records, rec.payload.length ≤ MAX_RECORD_SIZE) := by
  constructor
  · intro hind
    by_contra hcond
    obtain ⟨hcalls, hrecords⟩ := not_or.mp hcond
    rcases records with _ | ⟨rec, records⟩
    · exact hrecords ⟨Nat.zero_le 1, by simp⟩
    · have hwire : wireOf (rec :: records) = rec.wire ++ wireOf records := rfl
      by_cases hfits : rec.payload.length ≤ MAX_RECORD_SIZE
      · rcases records with _ | ⟨rec', records⟩
        · exact hrecords ⟨Nat.le_refl 1, by simpa using hfits⟩
        -- The first record fits, and the second one stands behind it.
        · refine not_independent hcalls t (hwire ▸ rec.nextRecord_wire _ hfits) ?_ tail hind
          exact fun hnil => rec'.wire_ne_nil (List.append_eq_nil_iff.mp hnil).1
      -- The first record is refused at a header, and its own body stands behind that.
      · obtain ⟨e, s, hnext, hs⟩ :=
          rec.nextRecord_wire_large (wireOf records) (Nat.not_le.mp hfits)
        exact not_independent hcalls t (hwire ▸ hnext) hs tail hind
  · rintro (hcalls | ⟨hlen, hfits⟩)
    · exact ⟨fun cut cut' hcut hcut' => results_of_one_sends hcalls t hcut hcut' tail,
        fun cut _ => keeps_of_one_sends hcalls t _⟩
    · rcases records with _ | ⟨rec, _ | ⟨rec', records⟩⟩
      · refine ⟨fun cut cut' hcut hcut' => ?_, fun cut hcut => ?_⟩
        · rw [isCut_nil hcut, isCut_nil hcut']
        · rw [isCut_nil hcut]
          exact keeps_tail t calls tail
      · have hwire : wireOf [rec] = rec.wire := by simp [wireOf]
        have hrec := hfits rec List.mem_cons_self
        refine ⟨fun cut cut' hcut hcut' => ?_, fun cut hcut => ?_⟩
        · rw [hwire] at hcut hcut'
          exact (independent_of_one_record t calls hrec hcut hcut' tail).1
        · rw [hwire] at hcut
          exact (independent_of_one_record t calls hrec hcut hcut tail).2
      · simp at hlen

/-- A NULL call that is written. -/
def nullCall : Invocation where
  args := { program := 0, version := 0, procedure := 0, args := [], cred := .none, verf := .none }
  written := .ok ()

/-- The record of a successful reply without a result. -/
def nullReply (xid : UInt8) : Record where
  fragments :=
    [[0, 0, 0, xid, 0, 0, 0, 1, 0, 0, 0, 0, 0, 0, 0, 0, 0, 0, 0, 0, 0, 0, 0, 0]]
  nonempty := by simp
  length_lt := by simp

/-- Two calls and the two replies to them. In two reads both calls succeed. In one read the
second reply is dropped, and the second call finds the end of the stream. -/
theorem two_replies_in_one_read :
    ¬ ∀ (t : TcpTransport) (calls : List Invocation) (records : List Record)
      (tail : List (Option IoError)), SegmentationIndependent t calls records tail := by
  intro h
  have hind := h new [nullCall, nullCall] [nullReply 1, nullReply 2] [none]
  have hsame := hind.same [(nullReply 1).wire, (nullReply 2).wire]
    [(nullReply 1).wire ++ (nullReply 2).wire] ⟨by decide, by decide⟩ ⟨by decide, by decide⟩
  exact absurd hsame (by decide)

end TcpTransport

end NfsMount.OncRpc
