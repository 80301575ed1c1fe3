import NfsMount.Proofs.Lifecycle
import NfsMount.Proofs.OverTcp

/-!
# `NfsMount.Proofs.MountOverTcp`: a whole mount over TCP

A record has at most `MAX_RECORD_SIZE` bytes. The replies of a `MountServer` to the requests of a
mount stay below that when its two answers of open size do (`Answers`): the results of the
other operations have a few bytes, and a resolution whose request fits in a record asks for
fewer bytes than it sends.

`OverTcp.tcp_refines_server` is about any server whose messages fit in records.
`lifecycle_over_tcp` puts the layers together, from `connect` and `resolve_path` through the
sessions, COMPOUND, XDR, RPC messages and records down to the reads of a socket, and the same way
up in the server.
-/

set_option autoImplicit false

namespace NfsMount.Server

open NfsMount.Lib NfsMount.XdrCodec NfsMount.Nfs4Types NfsMount.OncRpc NfsMount.Nfs4Client
  NfsMount.Mount CompoundServer

/-! ### Results -/

/-- A result without a body. -/
theorem sized_statusResult (op : UInt32) (status : NfsStat4) :
    (Encoded.seq [encode op, encode status] : Encoded UInt8 XdrError).Sized 8 :=
  (sized_u32 op).pair (sized_status status)

/-- A failure is its status. -/
theorem atMost_failed {β : Type} [XdrEncode β] (status : NfsStat4) :
    (encode (⟨status, none⟩ : OpResult β) : Encoded UInt8 XdrError).AtMost 4 :=
  ((sized_status status).pair ⟨[], rfl, rfl⟩).atMost

/-- A success is its status and its body. -/
theorem atMost_done {β : Type} [XdrEncode β] {ok : β} {n : Nat}
    (h : (encode ok : Encoded UInt8 XdrError).AtMost n) :
    (encode (⟨.ok, some ok⟩ : OpResult β) : Encoded UInt8 XdrError).AtMost (4 + n) :=
  (sized_status .ok).atMost.cons h.last

/-- The body of a SEQUENCE has 36 bytes. -/
theorem sized_sequenceBody (ok : Sequence4resok) :
    (encode ok : Encoded UInt8 XdrError).Sized 36 :=
  (sized_fixed _).cons <| (sized_u32 _).cons <| (sized_u32 _).cons <| (sized_u32 _).cons <|
    (sized_u32 _).pair (sized_u32 _)

/-- The result of an operation, with its number in front. -/
theorem atMost_result {op : UInt32} {e : Encoded UInt8 XdrError} {n : Nat} (h : e.AtMost n) :
    (Encoded.seq [encode op, e]).AtMost (4 + n) := by
  exact (sized_u32 op).atMost.cons h.last

/-! ### The answers of a server -/

section Answers

variable {Node : Type} {e : Export Node}

/-- The two answers whose size is up to the server fit in records. -/
structure Answers (e : Export Node) (limit : Nat) : Prop where
  identity : ∀ id seq, (encode { e.identity with eirClientid := id, eirSequenceid := seq } :
    Encoded UInt8 XdrError).AtMost limit
  granted : ∀ sid seq, (encode (⟨sid, seq, 0, e.fore, e.back⟩ : CreateSession4resok) :
    Encoded UInt8 XdrError).AtMost limit

/-- The operations of the requests of a mount, with a bound on the results. -/
def resultBound (limit : Nat) : NfsArgOp4 → Option Nat
  | .exchangeId _ | .createSession _ => some (limit + 8)
  | .destroySession _ | .reclaimComplete _ | .putRootFh | .lookup _ => some 8
  | .sequence _ => some 44
  | .getFh => some 143
  | _ => none

/-- A refusal is an operation number and a status. -/
theorem atMost_refuse {status : NfsStat4} {op : NfsArgOp4} :
    (encode (MountServer.refuse status op) : Encoded UInt8 XdrError).AtMost 8 := by
  cases op with
  | putRootFh | putFh | lookup | destroySession | reclaimComplete =>
      exact (sized_statusResult _ status).atMost
  | _ => exact atMost_result (atMost_failed status)

/-- What the files answer is within the bound, and a refusal is too. -/
theorem atMost_onFiles (s : MountServer e) {op : NfsArgOp4} {n : Nat} (hn : 8 ≤ n)
    (h : ∀ files : FileServer e.tree,
      (encode (files.perform op).1 : Encoded UInt8 XdrError).AtMost n) :
    (encode (s.onFiles op).1 : Encoded UInt8 XdrError).AtMost n := by
  rw [MountServer.onFiles]
  split
  · exact atMost_refuse.mono hn
  · exact h s.files

/-- LOOKUP answers with a status. -/
theorem atMost_lookup (files : FileServer e.tree) (a : Lookup4args) :
    (encode (files.perform (.lookup a)).1 : Encoded UInt8 XdrError).AtMost 8 := by
  simp only [FileServer.perform]
  split
  · exact (sized_statusResult _ _).atMost
  · split <;> exact (sized_statusResult _ _).atMost

/-- GETFH answers with a filehandle of 128 bytes at most. -/
theorem atMost_getFh (files : FileServer e.tree) :
    (encode (files.perform .getFh).1 : Encoded UInt8 XdrError).AtMost 143 := by
  simp only [FileServer.perform]
  split
  · exact (atMost_result (atMost_failed _)).mono (by decide)
  · rename_i n _
    have hlen := e.tree.length_handle_le n
    have hbytes : (encodeOpaqueBytes (e.tree.handle n).bytes).AtMost 135 :=
      (atMost_opaqueBytes (by omega)).mono (by omega)
    have hhandle : (encode (e.tree.handle n) : Encoded UInt8 XdrError).AtMost 135 := hbytes
    exact atMost_result (atMost_done hhandle)

/-- Every operation of a mount is answered within its bound. -/
theorem perform_atMost {limit : Nat} (h : Answers e limit) (s : MountServer e) {op : NfsArgOp4}
    {n : Nat} (hn : resultBound limit op = some n) :
    (encode (perform s op).1 : Encoded UInt8 XdrError).AtMost n := by
  cases op with
  | exchangeId a =>
      obtain rfl := Option.some.inj hn
      exact (atMost_result (atMost_done (h.identity _ _))).mono (by omega)
  | createSession a =>
      obtain rfl := Option.some.inj hn
      show (encode (s.createSession a).1 : Encoded UInt8 XdrError).AtMost _
      rw [MountServer.createSession]
      split
      · exact (atMost_result (atMost_failed _)).mono (by omega)
      · dsimp only
        split
        · exact (atMost_result (atMost_done (h.granted _ _))).mono (by omega)
        · exact (atMost_result (atMost_failed _)).mono (by omega)
  | destroySession a =>
      obtain rfl := Option.some.inj hn
      show (encode (s.destroySession a).1 : Encoded UInt8 XdrError).AtMost _
      rw [MountServer.destroySession]
      split <;> exact (sized_statusResult _ _).atMost
  | reclaimComplete a =>
      obtain rfl := Option.some.inj hn
      show (encode s.reclaimComplete.1 : Encoded UInt8 XdrError).AtMost _
      rw [MountServer.reclaimComplete]
      split
      · exact (sized_statusResult _ _).atMost
      · dsimp only
        split <;> exact (sized_statusResult _ _).atMost
  | sequence a =>
      obtain rfl := Option.some.inj hn
      -- Every refusal is a tag and a status, whatever the status is.
      have hfailed : ∀ status, (encode (NfsResOp4.sequence ⟨status, none⟩) :
          Encoded UInt8 XdrError).AtMost 44 := fun status =>
        (atMost_result (atMost_failed status)).mono (by decide)
      show (encode (s.sequence a).1 : Encoded UInt8 XdrError).AtMost _
      rw [MountServer.sequence]
      split
      · exact hfailed _
      · split
        · exact hfailed _
        · split
          · exact hfailed _
          · split
            · -- The one branch with a body: the request is the next one of its slot.
              exact atMost_result (atMost_done (sized_sequenceBody _).atMost)
            · split <;> exact hfailed _
  | putRootFh =>
      obtain rfl := Option.some.inj hn
      exact atMost_onFiles s (Nat.le_refl 8) fun _ => (sized_statusResult _ _).atMost
  | lookup a =>
      obtain rfl := Option.some.inj hn
      exact atMost_onFiles s (Nat.le_refl 8) fun files => atMost_lookup files a
  | getFh =>
      obtain rfl := Option.some.inj hn
      exact atMost_onFiles s (by decide) fun files => atMost_getFh files
  -- The other operations have no bound, and no request of the mount has them.
  | _ => cases hn

end Answers

/-! ### Replies and requests -/

section Messages

variable {S : Type} [CompoundServer S]

/-- The results of a compound. Those behind one that fails are missing, so they have at most
the size of the results of all operations. -/
theorem execute_atMost {bound : NfsArgOp4 → Nat} {ops : List NfsArgOp4}
    (h : ∀ op ∈ ops, ∀ s : S, (encode (perform s op).1 : Encoded UInt8 XdrError).AtMost (bound op))
    (s : S) :
    (Encoded.seq ((execute s ops).1.map encode) : Encoded UInt8 XdrError).AtMost
      (ops.map bound).sum := by
  induction ops generalizing s with
  | nil => exact Encoded.atMost_nil _ _
  | cons op ops ih =>
      have hop := h op List.mem_cons_self s
      rw [List.map_cons, List.sum_cons]
      by_cases hok : status (perform s op).1 = .ok
      · rw [execute_cons_ok hok, List.map_cons]
        exact hop.cons (ih (fun op' hop' => h op' (List.mem_cons_of_mem op hop')) _)
      · -- There is no result behind one that failed.
        rw [execute_cons_err hok, List.map_singleton, Encoded.seq_singleton]
        exact hop.mono (Nat.le_add_right _ _)

/-- The reply to a request: a status, the tag, and the results. -/
theorem serve_atMost {bound : NfsArgOp4 → Nat} {args : Compound4args} (hwf : wellFormed args)
    (h : ∀ op ∈ args.argarray, ∀ s : S,
      (encode (perform s op).1 : Encoded UInt8 XdrError).AtMost (bound op)) (s : S) :
    (encode (serve s args).1 : Encoded UInt8 XdrError).AtMost
      ((stringBytes args.tag).length + 15 + (args.argarray.map bound).sum) := by
  obtain ⟨htag, -, hlen, -⟩ := hwf
  have hresults : (encode (execute (start s) args.argarray).1 : Encoded UInt8 XdrError).AtMost
      (4 + (args.argarray.map bound).sum) := by
    have hcount := Nat.lt_of_le_of_lt (execute_wellFormed (start s) args.argarray).1 hlen
    exact atMost_list hcount (execute_atMost h (start s))
  have htag' : (encode args.tag : Encoded UInt8 XdrError).AtMost
      ((stringBytes args.tag).length + 7) := atMost_opaqueBytes htag
  have hall := (sized_status (lastStatus (execute (start s) args.argarray).1)).atMost.cons
    (htag'.cons hresults.last)
  exact hall.mono (by omega)

/-- A call of which both messages fit in records. In front of a reply stand 24 bytes. -/
theorem fitsRecord_served {auth : AuthFlavor} {args : Compound4args} {bytes : Bytes}
    (henc : encode args = .ok bytes) (hmessage : MessageFits (compoundCall auth bytes))
    {n : Nat} (hn : n + 24 ≤ MAX_RECORD_SIZE)
    (h : ∀ s : S, (encode (serve s args).1 : Encoded UInt8 XdrError).AtMost n) :
    OverTcp.FitsRecord (Served S) (compoundCall auth bytes) where
  message := hmessage
  reply := by
    rintro ⟨s⟩
    have hread : (decode : Decoder UInt8 XdrError Compound4args).run bytes = .ok (args, []) := by
      have := read_request henc []
      rwa [List.append_nil] at this
    obtain ⟨data, hdata, hlen⟩ := h s
    refine ⟨⟨0, .none, .success ⟨data⟩⟩, ?_, fun xid => ?_⟩
    · simp only [RpcTransport.call, compoundCall, hread, hdata]
    · -- The server sends no verifier, so that the header is six words.
      have hstatus := (sized_u32 ACCEPT_SUCCESS).pair (Encoded.sized_ok data)
      have hverf := (sized_u32 AUTH_NONE).pair (sized_u32 0)
      obtain ⟨payload, hpayload, hsize⟩ := (sized_u32 xid).cons <|
        (sized_u32 MSG_TYPE_REPLY).cons <| (sized_u32 MSG_ACCEPTED).cons <| hverf.pair hstatus
      exact ⟨payload, hpayload, by omega⟩

end Messages

/-! ### The calls of a mount -/

section Mount

variable {Node : Type} {e : Export Node}

/-- The size of the results of these operations, or less. -/
def resultsBound (limit : Nat) (ops : List NfsArgOp4) : Nat :=
  (ops.map fun op => (resultBound limit op).getD 0).sum

/-- The bounds of two lists of operations add up. -/
theorem resultsBound_append (limit : Nat) (ops ops' : List NfsArgOp4) :
    resultsBound limit (ops ++ ops') = resultsBound limit ops + resultsBound limit ops' := by
  rw [resultsBound, List.map_append, List.sum_append]
  rfl

/-- A lookup has 8 bytes. -/
theorem resultsBound_lookups (limit : Nat) (components : List String) :
    resultsBound limit (lookups components) = components.length * 8 := by
  induction components with
  | nil => rfl
  | cons name names ih =>
      rw [List.length_cons, Nat.succ_mul, Nat.add_comm, ← ih]
      rfl

/-- A request whose results leave room for the header is answered within a record, when it
fits in one itself. -/
theorem fitsRecord_answers {limit : Nat} (h : Answers e limit) {args : Compound4args}
    {bytes : Bytes} (henc : encode args = .ok bytes) {auth : AuthFlavor}
    (hmessage : MessageFits (compoundCall auth bytes))
    (htag : (stringBytes args.tag).length ≤ 16)
    (hops : args.argarray.all fun op => (resultBound limit op).isSome) {n : Nat}
    (hn : resultsBound limit args.argarray = n) (hmax : n + 55 ≤ MAX_RECORD_SIZE) :
    OverTcp.FitsRecord (Served (MountServer e)) (compoundCall auth bytes) := by
  refine fitsRecord_served henc hmessage (n := n + 31) (by omega) fun s => ?_
  refine (serve_atMost (aligned args bytes henc).1 (fun op hop s => ?_) s).mono (k :=
    (stringBytes args.tag).length + 15 + resultsBound limit args.argarray) (by omega)
  obtain ⟨k, hk⟩ := Option.isSome_iff_exists.mp (List.all_eq_true.mp hops op hop)
  rw [hk]
  exact perform_atMost h s hk

/-- What a mount sends is answered within a record, when it fits in one itself. -/
theorem fitsRecord_sends (h : Answers e (MAX_RECORD_SIZE - 128)) {call : MountCall}
    {args : Compound4args} {bytes : Bytes} (hsends : call.Sends args)
    (henc : encode args = .ok bytes) {auth : AuthFlavor}
    (hmessage : MessageFits (compoundCall auth bytes)) :
    OverTcp.FitsRecord (Served (MountServer e)) (compoundCall auth bytes) := by
  cases hsends with
  | exchangeId owner =>
      have htag : (stringBytes "exchange_id").length ≤ 16 := by decide +kernel
      exact fitsRecord_answers h henc hmessage htag rfl (n := MAX_RECORD_SIZE - 120) rfl (by decide)
  | createSession owner clientId sequenceId =>
      have htag : (stringBytes "create_session").length ≤ 16 := by decide +kernel
      exact fitsRecord_answers h henc hmessage htag rfl (n := MAX_RECORD_SIZE - 120) rfl (by decide)
  | reclaimComplete owner sessionId slot =>
      have htag : (stringBytes "reclaim_complete").length ≤ 16 := by decide +kernel
      exact fitsRecord_answers h henc hmessage htag rfl (n := 52) rfl (by decide)
  | destroySession sessionId =>
      have htag : (stringBytes "destroy_session").length ≤ 16 := by decide +kernel
      exact fitsRecord_answers h henc hmessage htag rfl (n := 8) rfl (by decide)
  | resolve path sessionId slot =>
      -- The request has nine bytes for a component, and its reply eight.
      have hsent := (atLeast_resolveArgs sessionId slot path bytes henc).trans (le_message hmessage)
      rw [resolveArgs_eq] at henc
      have htag : (stringBytes "resolve_path").length ≤ 16 := by decide +kernel
      have hops : (lookups (toNfsComponents path) ++ [NfsArgOp4.getFh]).all
          fun op => (resultBound (MAX_RECORD_SIZE - 128) op).isSome := by
        simp [lookups, resultBound]
      have hn : resultsBound (MAX_RECORD_SIZE - 128) (lookups (toNfsComponents path) ++ [.getFh])
          = (toNfsComponents path).length * 8 + 143 := by
        rw [resultsBound_append, resultsBound_lookups]
        rfl
      refine fitsRecord_answers h henc hmessage htag hops
        (n := 44 + (8 + ((toNfsComponents path).length * 8 + 143))) (hn ▸ rfl) ?_
      rw [show MAX_RECORD_SIZE = 10485760 from rfl] at hsent ⊢
      omega

end Mount

/-- The answers of the sample server fit. -/
theorem answers_sampleExport : Answers sampleExport (MAX_RECORD_SIZE - 128) where
  identity id seq := by
    have hempty : (encode (⟨[]⟩ : Opaque) : Encoded UInt8 XdrError).Sized 4 := ⟨_, rfl, by decide⟩
    have howner : (encode (⟨0, ⟨[]⟩⟩ : ServerOwner4) : Encoded UInt8 XdrError).Sized 12 :=
      ⟨_, rfl, by decide⟩
    have himpl : (encode ([] : List NfsImplId4) : Encoded UInt8 XdrError).Sized 4 :=
      ⟨_, rfl, by decide⟩
    have hall := (sized_clientId id).cons <| (sized_u32 seq).cons <| (sized_u32 0).cons <|
      (sized_u32 0).cons <| howner.cons <| hempty.pair himpl
    exact hall.atMost.mono (by decide)
  granted sid seq := by
    have hfore : (encode sampleExport.fore : Encoded UInt8 XdrError).Sized 28 := ⟨_, rfl, by decide⟩
    have hback : (encode sampleExport.back : Encoded UInt8 XdrError).Sized 28 := ⟨_, rfl, by decide⟩
    have hall := (sized_fixed sid).cons <| (sized_u32 seq).cons <| (sized_u32 0).cons <|
      hfore.pair hback
    exact hall.atMost.mono (by decide)

/-- The messages of the sample calls fit. -/
theorem messageFits_remount : ∀ call ∈ remount, ∀ args bytes, call.Sends args →
    encode args = .ok bytes → MessageFits (compoundCall .none bytes) := by
  have hsize : ∀ call ∈ remount, requestSize call + 8 + 32 ≤ MAX_RECORD_SIZE := by decide +kernel
  intro call hcall args bytes hsends henc
  exact messageFits_sends ((sized_u32 AUTH_NONE).pair (sized_u32 0)).atMost (hsize call hcall)
    hsends henc

/-- A network that breaks off in the middle of the fourth reply. -/
def breaking (n : Nat) : Link :=
  if n = 3 then { OverTcp.goodLink with cutOff := some (50, none) } else OverTcp.goodLink

/-- The first three calls get their answers from the server, and the fourth reply breaks off. -/
example : (results .checked (.new (OverTcp.new breaking (Served.mk (MountServer.new sampleFiles)))
    .none) remount).take 2 = [.ok none, .err (.nfs (.rpc (.transport eof)))] := by
  decide +kernel

end NfsMount.Server
