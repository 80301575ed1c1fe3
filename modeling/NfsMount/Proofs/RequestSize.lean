import NfsMount.Lib.Size
import NfsMount.Mount.Calls
import NfsMount.Proofs.XdrCodec

/-!
# `NfsMount.Proofs.RequestSize`: how long the requests of a mount are

The requests of `connect` and `disconnect` have a fixed size up to the owner, and that of a
resolution grows with the names in the path. `MountCall.requestSize` bounds them from above
(`atMost_sends`), so it tells of which calls the messages fit in records
(`messageFits_sends`). From below, a resolution has at least nine bytes for a component
(`atLeast_resolveArgs`).
-/

set_option autoImplicit false

namespace NfsMount.Server

open NfsMount.Lib NfsMount.XdrCodec NfsMount.Nfs4Types NfsMount.OncRpc NfsMount.Nfs4Client
  NfsMount.Mount

/-! ### Sizes of single values -/

/-- A word has 4 bytes. -/
theorem sized_u32 (x : UInt32) : (encode x : Encoded UInt8 XdrError).Sized 4 :=
  ⟨_, rfl, length_beBytes 4 _⟩

/-- Fixed opaque data has its length. -/
theorem sized_fixed {n : Nat} (v : FixedOpaque n) : (encode v : Encoded UInt8 XdrError).Sized n :=
  ⟨_, rfl, v.length_eq⟩

/-- A status has 4 bytes. -/
theorem sized_status (s : NfsStat4) : (encode s : Encoded UInt8 XdrError).Sized 4 := sized_u32 _

/-- The bytes, their length, and at most three bytes of padding. -/
theorem atMost_opaqueBytes {data : Bytes} (h : data.length < 2 ^ 32) :
    (encodeOpaqueBytes data).AtMost (data.length + 7) := by
  have hpad : xdrPadding data.length ≤ 3 := by
    rw [xdrPadding]
    omega
  refine ⟨_, by rw [encodeOpaqueBytes, lengthWord_of_lt h]; rfl, ?_⟩
  simp only [List.length_append, length_beBytes, List.length_replicate, List.length_nil]
  omega

/-- Opaque data has its length in front. -/
theorem atLeast_opaqueBytes (data : Bytes) :
    (encodeOpaqueBytes data).AtLeast (4 + data.length) := by
  rw [encodeOpaqueBytes]
  split
  · intro p hp
    cases hp
  · exact (sized_u32 _).atLeast.cons ((Encoded.sized_ok data).atLeast.cons (Encoded.atLeast_zero _))

/-- The elements of a list, and the count in front. -/
theorem encode_list_of_lt {α : Type} [XdrEncode α] {items : List α}
    (hlen : items.length < 2 ^ 32) :
    (encode items : Encoded UInt8 XdrError)
      = Encoded.seq (encode (UInt32.ofNat items.length) :: items.map encode) := by
  simp only [encode, lengthWord_of_lt hlen]

/-- An array has its count in front. -/
theorem atMost_list {α : Type} [XdrEncode α] {items : List α} {n : Nat}
    (hlen : items.length < 2 ^ 32)
    (h : (Encoded.seq (items.map encode) : Encoded UInt8 XdrError).AtMost n) :
    (encode items : Encoded UInt8 XdrError).AtMost (4 + n) := by
  rw [encode_list_of_lt hlen]
  exact (sized_u32 _).atMost.cons h

/-- The elements of a list, without the count in front. -/
theorem atLeast_list {α : Type} [XdrEncode α] {items : List α} {n : Nat}
    (h : (Encoded.seq (items.map encode) : Encoded UInt8 XdrError).AtLeast n) :
    (encode items : Encoded UInt8 XdrError).AtLeast n := by
  by_cases hlen : items.length < 2 ^ 32
  · rw [encode_list_of_lt hlen]
    exact h.behind
  · intro p hp
    simp only [encode, lengthWord, if_neg hlen] at hp
    cases hp

/-- A name that is not empty has a byte. -/
theorem stringBytes_length_pos {name : String} (h : name ≠ "") : 0 < (stringBytes name).length := by
  show 0 < name.utf8ByteSize
  exact Nat.pos_of_ne_zero fun hzero => h (String.utf8ByteSize_eq_zero_iff.mp hzero)

/-! ### Messages -/

/-- The message of the call fits in a record, whatever the xid is. -/
def MessageFits (args : CallArgs) : Prop :=
  ∀ t : TcpTransport, ∃ message, (t.prepare args).1.2 = .ok message ∧
    message.length ≤ MAX_RECORD_SIZE

/-- A request with room for the header: 24 bytes, the credentials, and 8 bytes of an empty
verifier. -/
theorem messageFits_of_size {auth : AuthFlavor} {bytes : Bytes} {k : Nat}
    (hauth : (encode auth : Encoded UInt8 XdrError).AtMost k)
    (h : bytes.length + k + 32 ≤ MAX_RECORD_SIZE) : MessageFits (compoundCall auth bytes) := by
  intro t
  have hverf := ((sized_u32 AUTH_NONE).pair (sized_u32 0)).atMost
  obtain ⟨message, hmessage, hlen⟩ := (sized_u32 t.nextXid).atMost.cons <|
    (sized_u32 MSG_TYPE_CALL).atMost.cons <| (sized_u32 RPC_VERSION).atMost.cons <|
    (sized_u32 NFS4_PROGRAM).atMost.cons <| (sized_u32 NFS4_VERSION).atMost.cons <|
    (sized_u32 NFSPROC4_COMPOUND).atMost.cons <| hauth.cons <| hverf.cons <|
    (Encoded.sized_ok bytes).atMost.last
  exact ⟨message, hmessage, by omega⟩

/-- The message of a call has the request in it. -/
theorem le_message {auth : AuthFlavor} {bytes : Bytes}
    (h : MessageFits (compoundCall auth bytes)) : bytes.length ≤ MAX_RECORD_SIZE := by
  obtain ⟨message, hmessage, hlen⟩ := h TcpTransport.new
  refine Nat.le_trans ?_ hlen
  have hbody : (Encoded.seq [.ok bytes] : Encoded UInt8 XdrError).AtLeast bytes.length :=
    (Encoded.sized_ok bytes).atLeast.last
  exact hbody.behind.behind.behind.behind.behind.behind.behind.behind message hmessage

/-! ### The requests of a mount -/

/-- The most bytes that a request of the call has. -/
def requestSize : MountCall → Nat
  | .connect owner => owner.coOwnerid.bytes.length + 123
  | .disconnect => 51
  | .resolvePath path =>
      ((toNfsComponents path).map fun name => (stringBytes name).length + 11).sum + 75

/-- The tags of the requests are short. -/
theorem length_tag {call : MountCall} {args : Compound4args} (h : call.Sends args) :
    (stringBytes args.tag).length ≤ 16 := by
  cases h with
  | exchangeId owner =>
      show (stringBytes "exchange_id").length ≤ 16
      decide +kernel
  | createSession owner clientId sequenceId =>
      show (stringBytes "create_session").length ≤ 16
      decide +kernel
  | reclaimComplete owner sessionId slot =>
      show (stringBytes "reclaim_complete").length ≤ 16
      decide +kernel
  | destroySession sessionId =>
      show (stringBytes "destroy_session").length ≤ 16
      decide +kernel
  | resolve path sessionId slot =>
      rw [resolveArgs_eq]
      show (stringBytes "resolve_path").length ≤ 16
      decide +kernel

/-- A request: the tag, the minor version, and the operations behind their count. -/
theorem atMost_request {call : MountCall} {args : Compound4args} (hsends : call.Sends args)
    (hlen : args.argarray.length < 2 ^ 32) {k : Nat}
    (hops : (Encoded.seq (args.argarray.map encode) : Encoded UInt8 XdrError).AtMost k) :
    (encode args : Encoded UInt8 XdrError).AtMost (k + 31) := by
  have htag := length_tag hsends
  have htag' : (encode args.tag : Encoded UInt8 XdrError).AtMost
      ((stringBytes args.tag).length + 7) := atMost_opaqueBytes (by omega)
  have hall := htag'.cons ((sized_u32 args.minorversion).atMost.cons (atMost_list hlen hops).last)
  exact hall.mono (by omega)

/-- A SEQUENCE has 36 bytes. -/
theorem sized_sequenceArgs (a : Sequence4args) :
    (encode (NfsArgOp4.sequence a) : Encoded UInt8 XdrError).Sized 36 :=
  (sized_u32 _).pair ((sized_fixed _).cons <| (sized_u32 _).cons <| (sized_u32 _).cons <|
    (sized_u32 _).pair (sized_u32 _))

/-- A client id has 8 bytes. -/
theorem sized_clientId (id : ClientId4) : (encode id : Encoded UInt8 XdrError).Sized 8 :=
  ⟨_, rfl, length_beBytes 8 _⟩

/-- The names are fewer than the bytes of their lookups, and shorter. -/
theorem le_sum_sizes (names : List String) :
    names.length ≤ (names.map fun name => (stringBytes name).length + 11).sum ∧
      ∀ name ∈ names, (stringBytes name).length + 11
        ≤ (names.map fun name => (stringBytes name).length + 11).sum := by
  induction names with
  | nil => simp
  | cons name names ih =>
      obtain ⟨hlen, hall⟩ := ih
      rw [List.map_cons, List.sum_cons, List.length_cons]
      refine ⟨by omega, List.forall_mem_cons.mpr ⟨Nat.le_add_right _ _, fun name' hname' => ?_⟩⟩
      exact (hall name' hname').trans (Nat.le_add_left _ _)

/-- The requests of a call are no longer than its size. -/
theorem atMost_sends {call : MountCall} {args : Compound4args} (hsends : call.Sends args)
    (h : requestSize call < 2 ^ 32) :
    (encode args : Encoded UInt8 XdrError).AtMost (requestSize call) := by
  have hone : (1 : Nat) < 2 ^ 32 := by decide
  have htwo : (2 : Nat) < 2 ^ 32 := by decide
  cases hsends with
  | exchangeId owner =>
      rw [requestSize] at h
      -- The verifier and the opaque of the owner, padded to a word.
      have howner : (encode owner : Encoded UInt8 XdrError).AtMost
          (8 + (owner.coOwnerid.bytes.length + 7)) :=
        (sized_fixed _).atMost.cons (Encoded.AtMost.last (atMost_opaqueBytes (by omega)))
      have hargs := howner.cons <| (sized_u32 0).atMost.cons <| (sized_u32 0).atMost.cons <|
        (sized_u32 0).atMost.last
      have hop := (sized_u32 OP_EXCHANGE_ID).atMost.cons (Encoded.AtMost.last hargs)
      exact (atMost_request (.exchangeId owner) hone hop.last).mono (by rw [requestSize]; omega)
  | createSession owner clientId sequenceId =>
      -- Two channels of seven words each, and one AUTH_NONE flavor.
      have hchannel : (encode defaultChan : Encoded UInt8 XdrError).Sized 28 := ⟨_, rfl, by decide⟩
      have hsec : (encode [CallbackSecParms4.authNone] : Encoded UInt8 XdrError).Sized 12 :=
        ⟨_, rfl, by decide⟩
      have hargs := (sized_clientId clientId).cons <| (sized_u32 sequenceId).cons <|
        (sized_u32 0).cons <| hchannel.cons <| hchannel.cons <| (sized_u32 0).pair hsec
      have hop := ((sized_u32 OP_CREATE_SESSION).pair hargs).atMost
      exact (atMost_request (.createSession owner clientId sequenceId) hone hop.last).mono
        (by rw [requestSize]; omega)
  | reclaimComplete owner sessionId slot =>
      have hop := ((sized_u32 OP_RECLAIM_COMPLETE).pair (sized_u32 0)).atMost
      have hops := (sized_sequenceArgs ⟨sessionId, slot.sequenceId, slot.slotId, slot.highestSlotId,
        false⟩).atMost.cons hop.last
      exact (atMost_request (.reclaimComplete owner sessionId slot) htwo hops).mono
        (by rw [requestSize]; omega)
  | destroySession sessionId =>
      have hop := ((sized_u32 OP_DESTROY_SESSION).pair (sized_fixed sessionId)).atMost
      exact (atMost_request (.destroySession sessionId) hone hop.last).mono (Nat.le_refl 51)
  | resolve path sessionId slot =>
      rw [requestSize] at h
      -- One LOOKUP for each component: the sum of their sizes bounds count and lengths.
      obtain ⟨hcount, hnames⟩ := le_sum_sizes (toNfsComponents path)
      have hlookup : ∀ name ∈ toNfsComponents path,
          (encode (NfsArgOp4.lookup ⟨name⟩) : Encoded UInt8 XdrError).AtMost
            ((stringBytes name).length + 11) := by
        intro name hname
        have hle := hnames name hname
        have hargs : (encode (⟨name⟩ : Lookup4args) : Encoded UInt8 XdrError).AtMost
            ((stringBytes name).length + 7) :=
          atMost_opaqueBytes (show (stringBytes name).length < 2 ^ 32 by omega)
        exact ((sized_u32 OP_LOOKUP).atMost.cons hargs.last).mono (by omega)
      have hops := (sized_sequenceArgs ⟨sessionId, slot.sequenceId, slot.slotId,
        slot.highestSlotId, false⟩).atMost.cons <| (sized_u32 OP_PUTROOTFH).atMost.cons <|
        Encoded.AtMost.append hlookup (sized_u32 OP_GETFH).atMost.last
      have hlen : (resolveArgs sessionId slot (toNfsComponents path)).argarray.length < 2 ^ 32 := by
        rw [resolveArgs_eq]
        simp only [lookups, List.length_cons, List.length_append, List.length_map, List.length_nil]
        omega
      refine (atMost_request (.resolve path sessionId slot) hlen (k := 36 + (4 +
        (((toNfsComponents path).map fun name => (stringBytes name).length + 11).sum + 4))) ?_).mono
        (by rw [requestSize]; omega)
      -- The operations in order: SEQUENCE, PUTROOTFH, the LOOKUPs and GETFH.
      rw [resolveArgs_eq, List.map_cons, List.map_cons, List.map_append, lookups, List.map_map]
      exact hops

/-- Where the requests of a call, with their credentials, leave room for the header, the
messages fit in records. -/
theorem messageFits_sends {call : MountCall} {auth : AuthFlavor} {k : Nat}
    (hauth : (encode auth : Encoded UInt8 XdrError).AtMost k)
    (h : requestSize call + k + 32 ≤ MAX_RECORD_SIZE) {args : Compound4args} {bytes : Bytes}
    (hsends : call.Sends args) (henc : encode args = .ok bytes) :
    MessageFits (compoundCall auth bytes) := by
  have hmax : MAX_RECORD_SIZE = 10485760 := rfl
  obtain ⟨bytes', henc', hlen⟩ := atMost_sends hsends (by omega)
  obtain rfl := Except.ok.inj (henc.symm.trans henc')
  exact messageFits_of_size hauth (by omega)

/-- A resolution sends at least nine bytes for a component. -/
theorem atLeast_resolveArgs (sessionId : SessionId4) (slot : AllocatedSlot) (path : String) :
    (encode (resolveArgs sessionId slot (toNfsComponents path)) : Encoded UInt8 XdrError).AtLeast
      ((toNfsComponents path).length * 9) := by
  have hlookup : ∀ e ∈ (lookups (toNfsComponents path)).map
      (encode : NfsArgOp4 → Encoded UInt8 XdrError), e.AtLeast 9 := by
    intro e he
    obtain ⟨op, hop, rfl⟩ := List.mem_map.mp he
    obtain ⟨name, hname, rfl⟩ := List.mem_map.mp hop
    have hname' : (encode (⟨name⟩ : Lookup4args) : Encoded UInt8 XdrError).AtLeast
        (4 + (stringBytes name).length) := atLeast_opaqueBytes _
    have hpos : 0 < (stringBytes name).length :=
      stringBytes_length_pos (by simpa using (List.mem_filter.mp hname).2)
    exact ((sized_u32 OP_LOOKUP).atLeast.cons hname'.last).mono (by omega)
  have hops := Encoded.AtLeast.append hlookup
    (Encoded.atLeast_zero (Encoded.seq [encode NfsArgOp4.getFh]))
  rw [resolveArgs_eq]
  refine Encoded.AtLeast.behind (Encoded.AtLeast.behind (atLeast_list ?_).last)
  rw [List.map_cons, List.map_cons, List.map_append, List.map_singleton]
  refine Encoded.AtLeast.behind (Encoded.AtLeast.behind ?_)
  simpa [lookups] using hops

end NfsMount.Server
