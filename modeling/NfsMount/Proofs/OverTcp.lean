import NfsMount.Proofs.Pipeline
import NfsMount.Proofs.RequestSize
import NfsMount.Proofs.Transports
import NfsMount.Proofs.WriteRecord
import NfsMount.Server.OverTcp

/-!
# `NfsMount.Proofs.OverTcp`: TCP in front of a server changes nothing

A call message goes to the server through `write_record`, the network and the server's
`RecordReader`, and the reply comes back through `write_record`, the network and the reader
that `call` makes. As long as each of them fits in a record, both readers stand at the start
of a record between two calls, and the client gets the answer of the server
(`call_server`). A stream that breaks off in a reply is an error (`call_breaks`), and from
there on every call is (`call_failed`).

So the transport simulates the server behind it (`simulates`), and all that is built on a
transport behaves as it does directly on the server.
-/

set_option autoImplicit false

namespace NfsMount.Server

open NfsMount.Lib NfsMount.XdrCodec NfsMount.Nfs4Types NfsMount.OncRpc
  NfsMount.OncRpc.TcpTransport NfsMount.Nfs4Client NfsMount.Mount

/-! ### A written record on the socket -/

/-- The loop reads a written record whole, however it is cut, and stands behind it. -/
theorem receive_writeRecord {r : RecordReader} (hr : r.Stands []) {payload : Bytes}
    (h : payload.length ≤ MAX_RECORD_SIZE) {chunks : List Bytes}
    (hcut : IsCut chunks (writeRecord payload)) (tail : List SocketRead) :
    ∃ r', r'.Stands [] ∧ r'.input = [] ∧
      receive r (chunkReads chunks ++ tail) = some ((.ok payload, r'), tail) := by
  have hnext : nextRecord [] ([] ++ chunks.flatten) = some (.ok payload, []) := by
    have hwritten := nextRecord_writeRecord h []
    rwa [List.append_nil, ← hcut.flatten] at hwritten
  obtain ⟨r', pre, post, rfl, hnil, hrun⟩ := receive_chunks_some hr
    (nextRecord_of_short (by decide)) hcut.ne_nil hnext tail
  obtain ⟨hinput, hpost⟩ := List.append_eq_nil_iff.mp hnil
  have hstands := receive_ok_stands hr hrun
  rw [hinput] at hstands
  refine ⟨r', hstands, hinput, ?_⟩
  -- Chunks are not empty, so no bytes behind the record means no chunks.
  cases post with
  | nil => exact hrun
  | cons c cs =>
      rw [List.flatten_cons, List.append_eq_nil_iff] at hpost
      exact absurd hpost.1 (hcut.ne_nil c (by simp))

/-- A stream that breaks off inside a written record is an error. -/
theorem receive_cutOff {payload : Bytes} (h : payload.length ≤ MAX_RECORD_SIZE) {n : Nat}
    (hn : n < (writeRecord payload).length) {chunks : List Bytes}
    (hcut : IsCut chunks ((writeRecord payload).take n)) (e : Option IoError) :
    ∃ r', receive RecordReader.new (chunkReads chunks ++ tailReads [e])
      = some ((.error (.transport (e.getD eof)), r'), []) := by
  have hnone : nextRecord [] ([] ++ chunks.flatten) = none := by
    have hwritten := nextRecord_writeRecord h []
    rw [List.append_nil, ← List.take_append_drop n (writeRecord payload)] at hwritten
    rw [List.nil_append, hcut.flatten]
    rcases nextRecord_prefix hwritten with hnone | ⟨hrest, -⟩
    · exact hnone
    · exact absurd (List.drop_eq_nil_iff.mp hrest) (Nat.not_le.mpr hn)
  obtain ⟨r', -, hrun⟩ := receive_chunks_none RecordReader.stands_new hcut.ne_nil hnone
    (tailReads [e])
  refine ⟨r', ?_⟩
  rw [hrun, receive_tail]
  cases e with
  | none => rfl
  | some e => rfl

namespace OverTcp

variable {ρ : Type}

/-! ### Between two calls -/

variable {network : Nat → Link}

/-- Between two calls: the stream has not broken off, the reader of the server stands at the
start of a record, and the links to come are those of the network. -/
structure Open (network : Nat → Link) (t : OverTcp ρ) (server : ρ) : Prop where
  server_eq : t.server = server
  failed_eq : t.failed = none
  stands : t.reader.Stands []
  network_eq : ∃ k, t.network = fun n => network (n + k)

/-- The stream has broken off, and so some link was not reliable. -/
def Broken (network : Nat → Link) (t : OverTcp ρ) : Prop :=
  t.failed.isSome ∧ ∃ n, ¬ (network n).Reliable

/-- A connection that has failed is broken, with an unreliable link. -/
theorem broken_of_failed {t t' : OverTcp ρ} {server : ρ} {e : IoError}
    (ht : Open network t server) (hlink : ¬ (t.network 0).Reliable) (hfailed : t'.failed = some e) :
    Broken network t' := by
  obtain ⟨k, hk⟩ := ht.network_eq
  refine ⟨hfailed ▸ rfl, 0 + k, ?_⟩
  rwa [hk] at hlink

section Call

variable [RpcTransport ρ]

/-! ### One call -/

/-- The message of the call fits in a record, and so does the reply to it, whatever the server
answers and whatever the xid is. -/
structure FitsRecord (ρ : Type) [RpcTransport ρ] (args : CallArgs) : Prop where
  message : MessageFits args
  reply : ∀ server : ρ, ∃ response, (RpcTransport.call server args).1 = .ok response ∧
    ∀ xid, ∃ payload, encode (⟨xid, response.verf, response.status⟩ : RpcReply) = .ok payload ∧
      payload.length ≤ MAX_RECORD_SIZE

/-- The server gets the call, and sends the record of its reply. -/
theorem serve_message {t : OverTcp ρ} (hr : t.reader.Stands []) {args : CallArgs}
    (hfits : FitsRecord ρ args) {message : Bytes}
    (hmessage : (t.transport.prepare args).1.2 = .ok message) {chunks : List Bytes}
    (hcut : IsCut chunks (writeRecord message)) :
    ∃ response payload reader, (RpcTransport.call t.server args).1 = .ok response ∧
      encode (⟨t.transport.nextXid, response.verf, response.status⟩ : RpcReply) = .ok payload ∧
      payload.length ≤ MAX_RECORD_SIZE ∧ reader.Stands [] ∧
      t.serve chunks = (writeRecord payload, (RpcTransport.call t.server args).2, reader) := by
  obtain ⟨message', hmessage', hlen⟩ := hfits.message t.transport
  obtain rfl := Except.ok.inj (hmessage.symm.trans hmessage')
  obtain ⟨response, hresponse, hreply⟩ := hfits.reply t.server
  obtain ⟨payload, hpayload, hpayloadLen⟩ := hreply t.transport.nextXid
  obtain ⟨reader, hstands, -, hreceive⟩ := receive_writeRecord hr hlen hcut []
  rw [List.append_nil] at hreceive
  have hcall : RpcTransport.call t.server args
      = (.ok response, (RpcTransport.call t.server args).2) := Prod.ext hresponse rfl
  refine ⟨response, payload, reader, hresponse, hpayload, hpayloadLen, hstands, ?_⟩
  rw [serve, hreceive]
  simp only [run_call_encode hmessage, respond]
  rw [hcall]
  simp only [hpayload]

/-- The xid of a call is the next one, and the message carries it. -/
theorem call_prepared {t : TcpTransport} {args : CallArgs} {message : Bytes}
    (h : (t.prepare args).1.2 = .ok message) (reads : List SocketRead) :
    t.call ⟨args, .ok ()⟩ reads = (exchange t.nextXid reads, t.fetchXid.2) := by
  apply call_of_sends
  rw [Invocation.sends, ← prepare_isOk t, h]
  rfl

/-- A call whose message is written. The client reads the record of the reply. -/
theorem call_written {t : OverTcp ρ} (hr : t.reader.Stands []) {args : CallArgs}
    (hfits : FitsRecord ρ args) (hwritten : t.written = .ok ()) :
    ∃ response payload t', (RpcTransport.call t.server args).1 = .ok response ∧
      encode (⟨t.transport.nextXid, response.verf, response.status⟩ : RpcReply) = .ok payload ∧
      payload.length ≤ MAX_RECORD_SIZE ∧
      RpcTransport.call t args = (outcome (exchange t.transport.nextXid
        ((t.network 0).reads (writeRecord payload))), t') ∧
      t'.server = (RpcTransport.call t.server args).2 ∧ t'.reader.Stands [] ∧
      t'.network = (fun n => t.network (n + 1)) ∧ t'.failed = t.breaks (writeRecord payload) := by
  obtain ⟨message, hmessage, -⟩ := hfits.message t.transport
  obtain ⟨response, payload, reader, hresponse, hpayload, hlen, hstands, hserve⟩ :=
    serve_message hr hfits hmessage ((t.network 0).request.isCut (writeRecord message))
  refine ⟨response, payload, ⟨t.transport.fetchXid.2, (RpcTransport.call t.server args).2, reader,
    fun n => t.network (n + 1), t.breaks (writeRecord payload)⟩, hresponse, hpayload, hlen, ?_,
    rfl, hstands, rfl, rfl⟩
  simp only [RpcTransport.call, hmessage, hwritten, hserve, call_prepared hmessage]

/-- **The call goes through.** Unless the stream breaks off in the reply, the client gets the
answer of the server, up to the xid. -/
theorem call_server {t t' : OverTcp ρ} {args : CallArgs} {response : RpcResponse}
    {payload : Bytes} (hpayload : encode
      (⟨t.transport.nextXid, response.verf, response.status⟩ : RpcReply) = .ok payload)
    (hlen : payload.length ≤ MAX_RECORD_SIZE)
    (hcall : RpcTransport.call t args = (outcome (exchange t.transport.nextXid
      ((t.network 0).reads (writeRecord payload))), t'))
    (hbreaks : (t.network 0).breaksIn (writeRecord payload) = none) :
    RpcTransport.call t args
      = (.ok ⟨t.transport.nextXid, response.verf, response.status⟩, t') := by
  obtain ⟨r, -, -, hreceive⟩ := receive_writeRecord RecordReader.stands_new hlen
    ((t.network 0).reply.isCut (writeRecord payload)) []
  rw [List.append_nil] at hreceive
  rw [hcall, Link.reads, hbreaks]
  simp only [exchange, hreceive, checkReply, run_reply_encode hpayload, ne_eq,
    not_true_eq_false, if_false, outcome]

/-- A stream that breaks off in the reply is an error. -/
theorem call_breaks {t t' : OverTcp ρ} {args : CallArgs} {payload : Bytes}
    (hlen : payload.length ≤ MAX_RECORD_SIZE)
    (hcall : RpcTransport.call t args = (outcome (exchange t.transport.nextXid
      ((t.network 0).reads (writeRecord payload))), t')) {n : Nat} {e : Option IoError}
    (hbreaks : (t.network 0).breaksIn (writeRecord payload) = some (n, e)) :
    RpcTransport.call t args = (.error (.transport (e.getD eof)), t') := by
  have hn : n < (writeRecord payload).length := by
    obtain ⟨-, hlt⟩ := Option.filter_eq_some_iff.mp hbreaks
    exact of_decide_eq_true hlt
  obtain ⟨r, hreceive⟩ := receive_cutOff hlen hn ((t.network 0).reply.isCut _) e
  rw [hcall, Link.reads, hbreaks]
  simp only [exchange, hreceive, outcome]

/-- A message that is not written is an error, and the stream has failed with it. -/
theorem call_not_written {t : OverTcp ρ} {e : IoError} (h : t.written = .error e)
    (args : CallArgs) :
    (∃ e', (RpcTransport.call t args).1 = .error e') ∧
      (RpcTransport.call t args).2.failed = some e := by
  rcases hprep : t.transport.prepare args with ⟨⟨xid, x | message⟩, transport⟩
  · constructor
    · exact ⟨.xdr x, by simp only [RpcTransport.call, hprep, TcpTransport.call, outcome]⟩
    · simp only [RpcTransport.call, hprep, breaks, h]
  · constructor
    · exact ⟨.transport e, by simp only [RpcTransport.call, hprep, h, TcpTransport.call, outcome]⟩
    · simp only [RpcTransport.call, hprep, breaks, h]

end Call

/-- **The simulation.** Calls that fit in a record are answered as by the server itself. -/
theorem simulates [RpcTransport ρ] (network : Nat → Link) :
    Simulates (Open (ρ := ρ) network) (Broken network) (FitsRecord ρ) where
  call t server args ht hfits := by
    obtain ⟨rfl, hfailed, hstands, k, hk⟩ := ht
    have hwritten : t.written = (t.network 0).written := by simp only [written, hfailed]
    cases hw : (t.network 0).written with
    | error e =>
        right
        -- The request cannot be written: the server has not seen it.
        obtain ⟨herr, hbroken⟩ := call_not_written (hwritten.trans hw) args
        refine ⟨herr, broken_of_failed ⟨rfl, hfailed, hstands, k, hk⟩ (fun hrel => ?_) hbroken⟩
        have hok := hw.symm.trans hrel.1
        cases hok
    | ok u =>
        -- The server has answered, and its answer is on the link.
        obtain ⟨response, payload, t', hresponse, hpayload, hlen, hcall, hserver, hstands', hnet,
          hfail⟩ := call_written hstands hfits (hwritten.trans hw)
        have hbreaks : t.breaks (writeRecord payload)
            = ((t.network 0).breaksIn (writeRecord payload)).map fun place => place.2.getD eof := by
          simp only [breaks, hwritten, hw]
        cases hin : (t.network 0).breaksIn (writeRecord payload) with
        | none =>
            left
            -- Every cut of the record is within the link: the answer is read.
            rw [call_server hpayload hlen hcall hin, hresponse]
            refine ⟨rfl, hserver, ?_, hstands', k + 1, ?_⟩
            · rw [hfail, hbreaks, hin]
              rfl
            · rw [hnet, hk]
              funext n
              show network (n + 1 + k) = network (n + (k + 1))
              rw [Nat.add_right_comm, Nat.add_assoc]
        | some place =>
            right
            obtain ⟨n, e⟩ := place
            -- The link breaks inside the record, and the server has moved on.
            rw [call_breaks hlen hcall hin]
            refine ⟨⟨_, rfl⟩, broken_of_failed (e := e.getD eof)
              ⟨rfl, hfailed, hstands, k, hk⟩ (fun hrel => ?_) ?_⟩
            · rw [Link.breaksIn, hrel.2] at hin
              cases hin
            · rw [hfail, hbreaks, hin]
              rfl
  broken t args ht := by
    obtain ⟨hfailed, hlink⟩ := ht
    obtain ⟨e, he⟩ := Option.isSome_iff_exists.mp hfailed
    have hwritten : t.written = .error e := by simp only [written, he]
    obtain ⟨herr, hstays⟩ := call_not_written hwritten args
    exact ⟨herr, hstays ▸ rfl, hlink⟩

/-- A new connection to the server. -/
def new (network : Nat → Link) (server : ρ) : OverTcp ρ where
  transport := TcpTransport.new
  server := server
  reader := RecordReader.new
  network := network
  failed := none

/-- A new connection is open. -/
theorem open_new (network : Nat → Link) (server : ρ) : Open network (new network server) server :=
  ⟨rfl, rfl, RecordReader.stands_new, 0, rfl⟩

/-- Calls over a connection that has not failed. -/
theorem results_open [RpcTransport ρ] {m : Build} {network : Nat → Link} {auth : AuthFlavor}
    {c : Nfs4Client (OverTcp ρ)} {d : Nfs4Client ρ} (hsame : SameClient (Open network) auth c d)
    {calls : List MountCall}
    (hfits : ∀ call ∈ calls, ∀ args bytes, call.Sends args → encode args = .ok bytes →
      FitsRecord ρ (compoundCall auth bytes)) :
    Action.UpToFailure (results m c calls) (results m d calls) ∧
      ((∀ n, (network n).Reliable) → results m c calls = results m d calls) := by
  rcases (simulates network).results (m := m) hfits hsame with heq | ⟨⟨t, -, n, hn⟩, hfail⟩
  · exact ⟨heq ▸ Action.upToFailure_refl _, fun _ => heq⟩
  · exact ⟨hfail, fun hrel => absurd (hrel n) hn⟩

/-- Two new clients are the same, but for the connection. -/
theorem sameClient_new (network : Nat → Link) (server : ρ) (auth : AuthFlavor) :
    SameClient (Open network) auth (Nfs4Client.new (new network server) auth)
      (Nfs4Client.new server auth) :=
  ⟨open_new network server, rfl, rfl, rfl⟩

/-- One read for each byte. -/
def bytewise : Cutting where
  cut stream := stream.map fun b => [b]
  isCut stream := ⟨by simp [← List.flatMap_def], by simp⟩

/-- A link that carries a call and its reply. -/
def goodLink : Link where
  written := .ok ()
  request := bytewise
  reply := bytewise
  cutOff := none

end OverTcp

end NfsMount.Server
