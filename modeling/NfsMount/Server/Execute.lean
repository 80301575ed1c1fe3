import NfsMount.Nfs4Client.Client
import NfsMount.Proofs.Compound
import NfsMount.Proofs.Request

/-!
# `NfsMount.Server.Execute`: a server behind a transport

A `CompoundServer` says what a server does with one operation. `execute` runs the operations
of a compound in order and stops at the first one that fails, and `serve` makes the reply,
whose status is that of the last operation that was executed.

`Served` is the transport that delivers requests to such a server, and replies back. The
server reads the request from the bytes of the call and answers in bytes. What goes over
`Served` arrives (`serve_wellFormed`, `call_served`), so a compound of the client returns what
the server did (`run_compound_served`).
-/

set_option autoImplicit false

namespace NfsMount.Server

open NfsMount.Lib NfsMount.XdrCodec NfsMount.Nfs4Types NfsMount.OncRpc
  NfsMount.Nfs4Client

/-- The status of the result of an operation. -/
def status : NfsResOp4 → NfsStat4
  | .putRootFh s | .putFh s | .lookup s | .destroySession s | .reclaimComplete s => s
  | .getFh r => r.status
  | .getAttr r => r.status
  | .setAttr r => r.status
  | .open r => r.status
  | .close r => r.status
  | .read r => r.status
  | .write r => r.status
  | .readDir r => r.status
  | .remove r => r.status
  | .rename r => r.status
  | .exchangeId r => r.status
  | .createSession r => r.status
  | .sequence r => r.status

/-- A server with the state `S`. Its results can be written to the wire. -/
class CompoundServer (S : Type) where
  /-- The start of a compound. -/
  start : S → S
  /-- One operation. -/
  perform : S → NfsArgOp4 → NfsResOp4 × S
  perform_wellFormed : ∀ s op, wellFormed (perform s op).1

variable {S : Type} [CompoundServer S]

open CompoundServer

/-- The operations in order, up to the first one that fails. -/
def execute : S → List NfsArgOp4 → List NfsResOp4 × S
  | s, [] => ([], s)
  | s, op :: ops =>
      let done := perform s op
      if status done.1 = .ok then
        let rest := execute done.2 ops
        (done.1 :: rest.1, rest.2)
      else ([done.1], done.2)

/-- The status of the last operation that was executed. -/
def lastStatus (results : List NfsResOp4) : NfsStat4 :=
  match results.getLast? with
  | none => .ok
  | some r => status r

/-- A whole compound. -/
def serve (s : S) (args : Compound4args) : Compound4res × S :=
  let (results, s) := execute (start s) args.argarray
  ({ status := lastStatus results, tag := args.tag, resarray := results }, s)

/-- The transport to a server. -/
structure Served (S : Type) where
  state : S

instance : RpcTransport (Served S) where
  call t c :=
    let respond (status : AcceptStatus) : Except RpcError RpcResponse :=
      .ok { xid := 0, verf := .none, status }
    match (decode : Decoder UInt8 XdrError Compound4args).run c.args with
    | .ok (args, []) =>
        let (res, s) := serve t.state args
        match (encode res : Encoded UInt8 XdrError) with
        | .ok bytes => (respond (.success ⟨bytes⟩), ⟨s⟩)
        | .error _ => (respond .systemError, ⟨s⟩)
    | _ => (respond .garbageArgs, t)

/-- An operation that succeeds is followed by the others. -/
theorem execute_cons_ok {s : S} {op : NfsArgOp4} {ops : List NfsArgOp4}
    (h : status (perform s op).1 = .ok) :
    execute s (op :: ops)
      = ((perform s op).1 :: (execute (perform s op).2 ops).1,
        (execute (perform s op).2 ops).2) := by
  rw [execute]
  simp only [if_pos h]

/-- An operation that fails is the last one. -/
theorem execute_cons_err {s : S} {op : NfsArgOp4} {ops : List NfsArgOp4}
    (h : status (perform s op).1 ≠ .ok) :
    execute s (op :: ops) = ([(perform s op).1], (perform s op).2) := by
  rw [execute]
  simp only [if_neg h]

/-- What was not empty has a result. -/
theorem execute_ne_nil (s : S) {ops : List NfsArgOp4} (h : ops ≠ []) : (execute s ops).1 ≠ [] := by
  obtain ⟨op, ops, rfl⟩ := List.exists_cons_of_ne_nil h
  by_cases hok : status (perform s op).1 = .ok
  · rw [execute_cons_ok hok]
    exact List.cons_ne_nil _ _
  · rw [execute_cons_err hok]
    exact List.cons_ne_nil _ _

/-! ### What goes over the transport arrives -/

/-- The results are well formed, and are no more than the operations. -/
theorem execute_wellFormed (s : S) (ops : List NfsArgOp4) :
    (execute s ops).1.length ≤ ops.length ∧ ∀ r ∈ (execute s ops).1, wellFormed r := by
  induction ops generalizing s with
  | nil => simp [execute]
  | cons op ops ih =>
      have hr := perform_wellFormed s op
      obtain ⟨hlen, hall⟩ := ih (perform s op).2
      rw [execute]
      split
      · exact ⟨Nat.succ_le_succ hlen, List.forall_mem_cons.mpr ⟨hr, hall⟩⟩
      · exact ⟨Nat.succ_le_succ (Nat.zero_le _), by simpa using hr⟩

/-- The reply to a request that can be read can be written. -/
theorem serve_wellFormed (s : S) {args : Compound4args} (h : wellFormed args) :
    wellFormed (serve s args).1 := by
  obtain ⟨htag, -, hlen, -⟩ := h
  obtain ⟨hle, hall⟩ := execute_wellFormed (start s) args.argarray
  exact ⟨trivial, htag, Nat.lt_of_le_of_lt hle hlen, hall⟩

/-- The server reads the request that was sent, and its reply is in the response. -/
theorem call_served (s : S) {args : Compound4args} {c : CallArgs}
    (h : (encode args : Encoded UInt8 XdrError) = .ok c.args) :
    ∃ response data, RpcTransport.call (Served.mk s) c
        = (.ok response, ⟨(serve s args).2⟩) ∧
      response.status = .success data ∧
      (decode : Decoder UInt8 XdrError Compound4res).run data.bytes
        = .ok ((serve s args).1, []) := by
  have hread : (decode : Decoder UInt8 XdrError Compound4args).run c.args = .ok (args, []) := by
    have := read_request h []
    rwa [List.append_nil] at this
  obtain ⟨bytes, henc, hdec⟩ :=
    compound_decode_encode (serve s args).1 (serve_wellFormed s (aligned args c.args h).1)
  refine ⟨{ xid := 0, verf := .none, status := .success ⟨bytes⟩ }, ⟨bytes⟩, ?_, rfl, ?_⟩
  · simp only [RpcTransport.call, hread, henc]
  · have := hdec []
    rwa [List.append_nil] at this

/-- A compound of a client of the server returns the server's reply. -/
theorem run_compound_served (c : Nfs4Client (Served S)) {args : Compound4args} {bytes : Bytes}
    (h : encode args = .ok bytes) :
    (Nfs4Client.compound args).run c
      = (.ok (serve c.transport.state args).1,
          { c with transport := ⟨(serve c.transport.state args).2⟩ }) := by
  obtain ⟨response, data, hcall, hstatus, hdec⟩ :=
    call_served c.transport.state (c := compoundCall c.auth bytes) h
  simp only [Action.run, Nfs4Client.compound, h]
  rw [show RpcTransport.call c.transport _ = _ from hcall]
  simp only [readResponse, hstatus, hdec]

end NfsMount.Server
