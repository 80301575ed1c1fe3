import NfsMount.Lib.Run
import NfsMount.Proofs.Message
import NfsMount.Proofs.Tcp

/-!
# `NfsMount.Proofs.Connection`: which reply a call returns

The runs of one connection. A call enters by drawing its xid and encoding its message, and
then waits for the stream. Under the lock it writes its record, and the server answers the
record with one reply that carries the call's xid. The socket hands the server's bytes out
in order, in reads of any length, and any read may report an error or the end of the stream.

Every exchange makes a new record reader, so it relies on the stream standing at the start
of the answer to its own call. An exchange that reads its answer to the last byte leaves the
stream there for the next one, and that is the invariant of `replies_not_confused`. A reply
that is too large is an error before its last byte, and the call returns without the rest of
it. The next call reads on from there: in `forged_reply_is_returned` it returns a reply that
the server never made.
-/

set_option autoImplicit false

namespace NfsMount.OncRpc

open NfsMount.Lib NfsMount.XdrCodec

namespace TcpTransport

/-! ### What the reads of an exchange deliver -/

/-- The bytes that the reads deliver. -/
def delivered (reads : List SocketRead) : Bytes :=
  reads.flatMap fun
    | .ok chunk => chunk
    | .error _ => []

/-- Some read is an error or the end of the stream. -/
def ended (reads : List SocketRead) : Bool :=
  reads.any fun
    | .ok chunk => chunk.isEmpty
    | .error _ => true

/-- The bytes of a read come first. -/
theorem delivered_cons_ok (chunk : Bytes) (reads : List SocketRead) :
    delivered (.ok chunk :: reads) = chunk ++ delivered reads := List.flatMap_cons

/-- One read delivers its bytes. -/
theorem delivered_singleton (chunk : Bytes) : delivered [.ok chunk] = chunk :=
  List.append_nil chunk

/-- A read of some bytes does not end the connection. -/
theorem ended_cons_ok {chunk : Bytes} (h : chunk ≠ []) (reads : List SocketRead) :
    ended (.ok chunk :: reads) = ended reads := by
  have hempty : chunk.isEmpty = false := List.isEmpty_eq_false_iff.mpr h
  simp only [ended, List.any_cons, hempty, Bool.false_or]

/-- A loop that makes all the reads ends with an error of the socket, or with what the
reference finds in the bytes. -/
theorem receive_cases {reads : List SocketRead} {r r' : RecordReader} {u : Bytes}
    {x : Except RpcError Bytes} (hr : r.Stands u) (hu : nextRecord [] u = none)
    (h : receive r reads = some ((x, r'), [])) :
    (ended reads = true ∧ ∃ e, x = .error e) ∨
      nextRecord [] (u ++ delivered reads) = some (x, r'.input) := by
  -- `u` is what the loop has read so far. The reference finds nothing in it.
  induction reads generalizing r u with
  | nil => exact nomatch h
  | cons read reads ih =>
      cases read with
      | error e =>
          obtain ⟨hx, -⟩ := Prod.mk.inj (Option.some.inj h)
          exact .inl ⟨rfl, _, (Prod.mk.inj hx).1.symm⟩
      | ok chunk =>
          by_cases hchunk : chunk = []
          · subst hchunk
            obtain ⟨hx, -⟩ := Prod.mk.inj (Option.some.inj h)
            exact .inl ⟨rfl, _, (Prod.mk.inj hx).1.symm⟩
          rw [delivered_cons_ok, ended_cons_ok hchunk, ← List.append_assoc]
          cases hnow : nextRecord [] (u ++ chunk) with
          | none =>
              obtain ⟨r₁, hr₁, hstep⟩ := receive_chunk_none hr hchunk hnow reads
              exact ih hr₁ hnow (hstep ▸ h)
          | some found =>
              obtain ⟨y, t⟩ := found
              obtain ⟨r₁, rfl, hstep⟩ := receive_chunk_some hr hchunk hnow reads
              rw [hstep, Option.some.injEq, Prod.mk.injEq, Prod.mk.injEq] at h
              obtain ⟨⟨rfl, rfl⟩, rfl⟩ := h
              right
              rw [delivered, List.flatMap_nil, List.append_nil]
              exact hnow

/-- What an exchange returns: an error that ended the stream, or what `call` makes of the
record or the error that the reference finds. -/
theorem exchange_cases {xid : UInt32} {reads : List SocketRead}
    {result : Outcome RpcError RpcResponse} {dropped : Bytes}
    (h : exchange xid reads = some ⟨result, dropped, []⟩) :
    (ended reads = true ∧ ∃ e, result = .err e) ∨
      ∃ x, nextRecord [] (delivered reads) = some (x, dropped) ∧
        ∀ record, x = .ok record → result = checkReply xid record := by
  have hcases : ∀ {x : Except RpcError Bytes} {r : RecordReader},
      receive RecordReader.new reads = some ((x, r), []) →
      (ended reads = true ∧ ∃ e, x = .error e) ∨
        nextRecord [] (delivered reads) = some (x, r.input) := fun hrec =>
    receive_cases RecordReader.stands_new (nextRecord_of_short (by decide)) hrec
  rw [exchange] at h
  rcases hrec : receive RecordReader.new reads with _ | ⟨⟨e | record, r⟩, rest⟩
  · rw [hrec] at h
    simp at h
  · rw [hrec, Option.some.injEq, Exchanged.mk.injEq] at h
    obtain ⟨rfl, rfl, rfl⟩ := h
    rcases hcases hrec with ⟨hended, -⟩ | hnext
    · exact .inl ⟨hended, e, rfl⟩
    · -- The reader refused the record, which ends the call but not the stream.
      exact .inr ⟨.error e, hnext, fun record hx => nomatch hx⟩
  · rw [hrec, Option.some.injEq, Exchanged.mk.injEq] at h
    obtain ⟨rfl, rfl, rfl⟩ := h
    rcases hcases hrec with ⟨-, e, he⟩ | hnext
    · simp at he
    · refine .inr ⟨.ok record, hnext, fun record' hx => ?_⟩
      obtain rfl := Except.ok.inj hx
      rfl

end TcpTransport

open TcpTransport

/-! ### Runs of a connection -/

/-- A call that has its xid and its message, and waits for the stream. -/
structure Waiting where
  xid : UInt32
  message : Bytes

/-- What the server answers to a call: a reply, and the record it comes in. -/
structure Answer where
  reply : RpcReply
  record : Record
  encodes : encode reply = .ok record.payload

/-- A call that has returned. -/
structure Finished where
  /-- The answer to the call, if the server made exactly one. -/
  answer : Option Answer
  /-- The bytes before the answer that no earlier call had read. -/
  stale : Bytes
  /-- The bytes that the call read. -/
  read : Bytes
  result : Outcome RpcError RpcResponse

/-- The callers that wait for the socket, what it still holds, and the calls that are done. -/
structure Connection where
  transport : TcpTransport
  waiting : List Waiting
  /-- The bytes of the server that no call has read. -/
  pending : Bytes
  /-- Whether a write failed, or a read reported an error or the end of the stream. -/
  failed : Bool
  finished : List Finished

/-- What can happen on a connection. -/
inductive ConnectionEvent where
  /-- A call draws its xid and encodes its message. -/
  | enter (args : CallArgs)
  /-- The `i`-th waiting call writes its record and makes these reads. -/
  | exchange (i : Nat) (answer : Answer) (reads : List SocketRead)
  /-- The same for a message whose length does not fit the header. The server takes it for
  some other records, and `arrived` is what it answers to them. -/
  | misframed (i : Nat) (arrived : Bytes) (reads : List SocketRead)
  /-- The `i`-th waiting call fails to write its record. -/
  | writeFails (i : Nat) (e : IoError) (arrived : Bytes)

namespace Connection

/-- A new connection: nobody waits, and the socket holds nothing. -/
def new : Connection where
  transport := TcpTransport.new
  waiting := []
  pending := []
  failed := false
  finished := []

/-- The `i`-th waiting call makes its reads and returns. The server has sent `arrived`. -/
def finish (c : Connection) (i : Nat) (w : Waiting) (answer : Option Answer) (arrived : Bytes)
    (reads : List SocketRead) : Option Connection :=
  -- The reads may stop anywhere in what the server has sent, and deliver it in order.
  if delivered reads <+: c.pending ++ arrived then
    match TcpTransport.exchange w.xid reads with
    | some ⟨result, _, []⟩ => some { c with
        waiting := c.waiting.eraseIdx i
        pending := (c.pending ++ arrived).drop (delivered reads).length
        failed := c.failed || ended reads
        finished := c.finished ++ [⟨answer, c.pending, delivered reads, result⟩] }
    | _ => none
  else
    none

/-- The connection after an event, if it can happen. -/
def step (c : Connection) : ConnectionEvent → Option Connection
  | .enter args =>
      match c.transport.prepare args with
      | ((_, .error e), transport) => some { c with
          transport, finished := c.finished ++ [⟨none, c.pending, [], .err (.xdr e)⟩] }
      | ((xid, .ok message), transport) => some { c with
          transport, waiting := c.waiting ++ [⟨xid, message⟩] }
  | .exchange i answer reads =>
      match c.waiting[i]? with
      | none => none
      | some w =>
          if w.message.length < 2 ^ 31 ∧ answer.reply.xid = w.xid then
            c.finish i w (some answer) answer.record.wire reads
          else
            none
  | .misframed i arrived reads =>
      match c.waiting[i]? with
      | none => none
      | some w =>
          if w.message.length < 2 ^ 31 then none else c.finish i w none arrived reads
  | .writeFails i e arrived =>
      match c.waiting[i]? with
      | none => none
      | some _ => some { c with
          waiting := c.waiting.eraseIdx i
          pending := c.pending ++ arrived
          failed := true
          finished := c.finished ++ [⟨none, c.pending, [], .err (.transport e)⟩] }

/-- A call that is done has read a part of what the socket held, and dropped or left the rest. -/
theorem finish_eq_some {c c' : Connection} {i : Nat} {w : Waiting} {answer : Option Answer}
    {arrived : Bytes} {reads : List SocketRead} :
    c.finish i w answer arrived reads = some c' ↔
      ∃ rest result dropped, c.pending ++ arrived = delivered reads ++ rest ∧
        TcpTransport.exchange w.xid reads = some ⟨result, dropped, []⟩ ∧
        c' = { c with
          waiting := c.waiting.eraseIdx i
          pending := rest
          failed := c.failed || ended reads
          finished := c.finished ++ [⟨answer, c.pending, delivered reads, result⟩] } := by
  rw [finish]
  constructor
  · intro h
    by_cases hprefix : delivered reads <+: c.pending ++ arrived
    · rw [if_pos hprefix] at h
      obtain ⟨rest, hrest⟩ := hprefix
      -- The call is done if it took all of the reads it was given.
      rcases hex : TcpTransport.exchange w.xid reads with _ | ⟨result, dropped, _ | ⟨read, left⟩⟩
      · rw [hex] at h
        simp at h
      · rw [hex, ← hrest, List.drop_left] at h
        exact ⟨rest, result, dropped, hrest.symm, rfl, (Option.some.inj h).symm⟩
      · rw [hex] at h
        simp at h
    · rw [if_neg hprefix] at h
      simp at h
  · rintro ⟨rest, result, dropped, hrest, hex, rfl⟩
    rw [if_pos ⟨rest, hrest.symm⟩, hex, hrest, List.drop_left]

/-- An exchange that can happen. -/
theorem step_exchange {c : Connection} {i : Nat} {w : Waiting} {answer : Answer}
    {reads : List SocketRead} {rest dropped : Bytes} {result : Outcome RpcError RpcResponse}
    (hw : c.waiting[i]? = some w) (hlen : w.message.length < 2 ^ 31)
    (hxid : answer.reply.xid = w.xid)
    (hbytes : c.pending ++ answer.record.wire = delivered reads ++ rest)
    (hex : TcpTransport.exchange w.xid reads = some ⟨result, dropped, []⟩) :
    step c (.exchange i answer reads) = some { c with
      waiting := c.waiting.eraseIdx i
      pending := rest
      failed := c.failed || ended reads
      finished := c.finished ++ [⟨some answer, c.pending, delivered reads, result⟩] } := by
  simp only [step, hw]
  rw [if_pos ⟨hlen, hxid⟩]
  exact finish_eq_some.mpr ⟨rest, result, dropped, hbytes, hex, rfl⟩

/-! ### The condition, and the invariant -/

/-- No answer is larger than the reader accepts, no message is longer than a header can say,
and a socket that has failed delivers nothing more. -/
def Fits (c : Connection) : ConnectionEvent → Prop
  | .exchange _ answer reads =>
      answer.record.payload.length ≤ MAX_RECORD_SIZE ∧ (c.failed = true → delivered reads = [])
  | .misframed .. => False
  | .enter _ | .writeFails .. => True

end Connection

/-- If the call succeeded, it returned the reply that the server made for it, and the bytes
it read are the record of that reply, from the first to the last. -/
def Finished.ReturnsOwn (f : Finished) : Prop :=
  ∀ response, f.result = .ok response → ∃ answer, f.answer = some answer ∧
    response.xid = answer.reply.xid ∧ response.verf = answer.reply.verf ∧
    response.status = answer.reply.status ∧ f.stale = [] ∧ f.read = answer.record.wire

namespace Connection

/-- Between two exchanges the stream stands at the end of an answer, unless it has failed. -/
structure Inv (c : Connection) : Prop where
  aligned : c.failed = false → c.pending = []
  own : ∀ f ∈ c.finished, f.ReturnsOwn

/-- A new connection has the invariant. -/
theorem inv_new : Inv new := ⟨fun _ => rfl, fun _ hf => nomatch hf⟩

/-- A call that did not succeed keeps the invariant's second half. -/
private theorem own_concat_err {c : Connection} (hc : Inv c) {f : Finished} {e : RpcError}
    (hf : f.result = .err e) : ∀ g ∈ c.finished ++ [f], g.ReturnsOwn := by
  intro g hg
  rcases List.mem_append.mp hg with hg | hg
  · exact hc.own g hg
  · obtain rfl := List.mem_singleton.mp hg
    intro response hresponse
    rw [hf] at hresponse
    simp at hresponse

/-- A reply that decodes to itself passes the check of its own call. -/
theorem checkReply_answer (answer : Answer) :
    checkReply answer.reply.xid answer.record.payload = .ok
      { xid := answer.reply.xid, verf := answer.reply.verf, status := answer.reply.status } := by
  simp only [checkReply, run_reply_encode answer.encodes, ne_eq, not_true_eq_false, if_false]

/-- An exchange whose answer fits. -/
theorem inv_finish {c c' : Connection} {i : Nat} {w : Waiting} {answer : Answer}
    {reads : List SocketRead} (hc : Inv c) (hxid : answer.reply.xid = w.xid)
    (hlen : answer.record.payload.length ≤ MAX_RECORD_SIZE)
    (hfailed : c.failed = true → delivered reads = [])
    (h : c.finish i w (some answer) answer.record.wire reads = some c') : Inv c' := by
  obtain ⟨rest, result, dropped, hbytes, hex, rfl⟩ := finish_eq_some.mp h
  rcases exchange_cases hex with ⟨hended, e, rfl⟩ | ⟨x, hnext, hresult⟩
  · refine ⟨fun hfalse => ?_, own_concat_err hc rfl⟩
    simp only [hended, Bool.or_true, Bool.true_eq_false] at hfalse
  · cases hf : c.failed with
    | true =>
        -- A failed socket delivers nothing, so the reference cannot have found anything.
        rw [hfailed hf, nextRecord_of_short (by decide)] at hnext
        simp at hnext
    | false =>
        -- The stream stands at the start of the answer, so the reference finds it there, and
        -- it finds it at its last byte.
        have hpending := hc.aligned hf
        rw [hpending, List.nil_append] at hbytes
        have hwhole := (nextRecord_append hnext).2.2 rest
        have hwire := answer.record.nextRecord_wire [] hlen
        rw [List.append_nil, hbytes, hwhole, Option.some.injEq, Prod.mk.injEq,
          List.append_eq_nil_iff] at hwire
        obtain ⟨rfl, rfl, rfl⟩ := hwire
        rw [List.append_nil] at hbytes
        refine ⟨fun _ => rfl, fun f hmem => ?_⟩
        rcases List.mem_append.mp hmem with hmem | hmem
        · exact hc.own f hmem
        · obtain rfl := List.mem_singleton.mp hmem
          intro response hok
          rw [hresult _ rfl, ← hxid, checkReply_answer] at hok
          obtain rfl := Outcome.ok.inj hok
          exact ⟨answer, rfl, rfl, rfl, rfl, hpending, hbytes.symm⟩

/-- **Step.** Under the condition an event keeps the invariant. -/
theorem inv_step {c c' : Connection} {e : ConnectionEvent} (hc : Inv c) (hfits : Fits c e)
    (h : step c e = some c') : Inv c' := by
  cases e with
  | enter args =>
      rw [step] at h
      -- A call that is not encoded ends at once, and touches no socket.
      rcases hprep : c.transport.prepare args with ⟨⟨xid, e | message⟩, transport⟩
      · rw [hprep] at h
        obtain rfl := Option.some.inj h
        exact ⟨hc.aligned, own_concat_err hc rfl⟩
      · rw [hprep] at h
        obtain rfl := Option.some.inj h
        exact ⟨hc.aligned, hc.own⟩
  | exchange i answer reads =>
      rw [step] at h
      cases hw : c.waiting[i]? with
      | none =>
          rw [hw] at h
          simp at h
      | some w =>
          rw [hw] at h
          -- The server answers the message it got, under the id that it carries.
          by_cases hguard : w.message.length < 2 ^ 31 ∧ answer.reply.xid = w.xid
          · exact inv_finish hc hguard.2 hfits.1 hfits.2 ((if_pos hguard).symm.trans h)
          · exact nomatch (if_neg hguard).symm.trans h
  | misframed i arrived reads => exact hfits.elim
  | writeFails i e arrived =>
      rw [step] at h
      cases hw : c.waiting[i]? with
      | none =>
          rw [hw] at h
          simp at h
      | some w =>
          rw [hw] at h
          obtain rfl := Option.some.inj h
          exact ⟨by simp, own_concat_err hc rfl⟩

/-- **No reply confusion.** While the answers and the messages fit, and a failed socket
delivers nothing more, every call that succeeds returns the reply to that call, read off the
bytes of that reply. -/
theorem replies_not_confused (es : List ConnectionEvent) {c : Connection}
    (hfits : Along step Fits new es) (h : run step new es = some c) :
    ∀ f ∈ c.finished, f.ReturnsOwn :=
  (run_invariant_along (fun _ _ _ hc hfits h => inv_step hc hfits h) inv_new hfits h).own

/-! ### Two runs -/

/-- What a successful reply is encoded to, up to its result. -/
def replyHead (xid : UInt32) : Bytes :=
  beBytes 4 xid.toNat ++ beBytes 4 1 ++ beBytes 4 0 ++ beBytes 4 0 ++ beBytes 4 0 ++ beBytes 4 0

/-- A successful reply, sent as one fragment. -/
def successAnswer (xid : UInt32) (body : Bytes) (h : 24 + body.length < 2 ^ 31) : Answer where
  reply := { xid, verf := .none, status := .success ⟨body⟩ }
  record :=
    { fragments := [replyHead xid ++ body]
      nonempty := List.cons_ne_nil _ _
      length_lt := fun f hf => by
        obtain rfl := List.mem_singleton.mp hf
        rw [List.length_append]
        exact h }
  encodes := by
    simp [Record.payload, replyHead, encode, Encoded.seq, MSG_TYPE_REPLY, MSG_ACCEPTED,
      AUTH_NONE, ACCEPT_SUCCESS]

/-- The bytes of a successful answer: the header of its record, that of the reply, and the body. -/
theorem successAnswer_wire (xid : UInt32) (body : Bytes) (h : 24 + body.length < 2 ^ 31) :
    (successAnswer xid body h).record.wire =
      fragmentHeader true (24 + body.length) ++ replyHead xid ++ body := by
  show fragmentHeader true (replyHead xid ++ body).length ++ (replyHead xid ++ body) ++ [] = _
  rw [List.length_append, List.append_nil, List.append_assoc]
  rfl

/-- The arguments of a NULL call. -/
def nullArgs : CallArgs where
  program := 0
  version := 0
  procedure := 0
  args := []
  cred := .none
  verf := .none

/-- The reply to the second call. -/
def genuine : Answer := successAnswer 2 [] (by decide)

/-- Two calls, of which the second one gets the stream first. Its reply comes in two reads. -/
def swappedRun : List ConnectionEvent :=
  [.enter nullArgs, .enter nullArgs,
   .exchange 1 genuine [.ok (genuine.record.wire.take 7), .ok (genuine.record.wire.drop 7)],
   .exchange 0 (successAnswer 1 [7] (by decide))
     [.ok (successAnswer 1 [7] (by decide)).record.wire]]

/-- Two callers whose requests were sent in the other order. -/
theorem replies_not_confused_swapped :
    ∃ c, run step new swappedRun = some c ∧ c.finished.length = 2 ∧
      ∀ f ∈ c.finished, f.ReturnsOwn := by
  refine ⟨_, rfl, rfl, replies_not_confused swappedRun ?_ rfl⟩
  refine ⟨trivial, fun c₁ h₁ => ?_⟩
  obtain rfl := Option.some.inj h₁
  refine ⟨trivial, fun c₂ h₂ => ?_⟩
  obtain rfl := Option.some.inj h₂
  refine ⟨⟨by decide, fun hf => absurd hf (by decide)⟩, fun c₃ h₃ => ?_⟩
  obtain rfl := Option.some.inj h₃
  exact ⟨⟨by decide, fun hf => absurd hf (by decide)⟩, fun _ _ => trivial⟩

/-- A reply with the xid of the second call, which the server does not send. -/
def forged : Answer := successAnswer 2 [1, 1, 1, 1] (by decide)

/-- The reply to the first call: too large, and the result starts with the forged record. -/
def oversized : Answer :=
  successAnswer 1 (forged.record.wire ++ List.replicate MAX_RECORD_SIZE 0) (by
    rw [List.length_append, List.length_replicate]
    decide)

/-- The large answer holds the frame of another one. -/
theorem oversized_wire :
    oversized.record.wire = fragmentHeader true (24 + (32 + MAX_RECORD_SIZE)) ++ replyHead 1 ++
      (forged.record.wire ++ List.replicate MAX_RECORD_SIZE 0) := by
  have hlength : (forged.record.wire ++ List.replicate MAX_RECORD_SIZE 0).length =
      32 + MAX_RECORD_SIZE := by
    rw [List.length_append, List.length_replicate]
    rfl
  rw [oversized, successAnswer_wire, hlength]

/-- The two calls enter. The first one stops at the header of its reply, and the second one
reads what follows. -/
def forgedRun : List ConnectionEvent :=
  [.enter nullArgs, .enter nullArgs] ++
  [.exchange 0 oversized
    [.ok (fragmentHeader true (24 + (32 + MAX_RECORD_SIZE)) ++ replyHead 1)],
   .exchange 0 genuine [.ok forged.record.wire]]

/-- The first call reads the header, and fails with the rest of the record on the socket. -/
theorem exchange_oversized :
    TcpTransport.exchange 1
      [.ok (fragmentHeader true (24 + (32 + MAX_RECORD_SIZE)) ++ replyHead 1)] =
    some ⟨.err (.recordTooLarge (24 + (32 + MAX_RECORD_SIZE)) MAX_RECORD_SIZE), replyHead 1, []⟩ :=
  rfl

/-- The second call takes the forged frame for its answer. -/
theorem exchange_forged :
    TcpTransport.exchange 2 [.ok forged.record.wire] =
      some ⟨.ok ⟨2, .none, .success ⟨[1, 1, 1, 1]⟩⟩, [], []⟩ := rfl

/-- The second call returns a result that lies inside the reply to the first. -/
theorem forged_reply_is_returned :
    ∃ c f response answer, run step new forgedRun = some c ∧ f ∈ c.finished ∧
      f.result = .ok response ∧ f.answer = some answer ∧
      response.status = .success ⟨[1, 1, 1, 1]⟩ ∧ answer.reply.status = .success ⟨[]⟩ := by
  have henter : ∃ m₁ m₂ : Bytes, m₁.length < 2 ^ 31 ∧ m₂.length < 2 ^ 31 ∧
      run step new [.enter nullArgs, .enter nullArgs] =
        some ⟨⟨3⟩, [⟨1, m₁⟩, ⟨2, m₂⟩], [], false, []⟩ := ⟨_, _, by decide, by decide, rfl⟩
  -- The messages are kept as variables, so the long answer is not computed with them.
  obtain ⟨m₁, m₂, hm₁, hm₂, hentered⟩ := henter
  have hfirst := step_exchange (c := ⟨⟨3⟩, [⟨1, m₁⟩, ⟨2, m₂⟩], [], false, []⟩) (i := 0) rfl hm₁
    (show oversized.reply.xid = 1 from rfl) (oversized_wire.trans
      (congrArg (· ++ _) (delivered_singleton _).symm)) exchange_oversized
  have hsecond := fun finished : List Finished => step_exchange (i := 0) (w := ⟨2, m₂⟩)
    (c := ⟨⟨3⟩, [⟨2, m₂⟩], forged.record.wire ++ List.replicate MAX_RECORD_SIZE 0, false,
      finished⟩)
    rfl hm₂ (show genuine.reply.xid = 2 from rfl) ((List.append_assoc _ _ _).trans
      (congrArg (· ++ _) (delivered_singleton _).symm)) exchange_forged
  rw [forgedRun]
  exact ⟨_, _, _, genuine, run_append.mpr ⟨_, hentered, run_cons_eq_some.mpr ⟨_, hfirst,
    run_cons_eq_some.mpr ⟨_, hsecond _, rfl⟩⟩⟩, List.mem_concat_self, rfl, rfl, rfl, rfl⟩

end Connection

end NfsMount.OncRpc
