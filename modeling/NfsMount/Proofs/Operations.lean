import NfsMount.Lib.Run
import NfsMount.Proofs.Resolve

/-!
# `NfsMount.Proofs.Operations`: how many operations a resolution sends

The server grants a session with a limit on the operations of a compound. The client stores
the number of slots and not this limit, and `resolve_path` makes one compound of any path.

`Recorded` is a transport with a record of the calls on it. `sent_resolvePath` says what a
resolution adds to the record in any state of the client. `resolve_path_within_limit_iff`
is about a session from its `connect` on: whatever was granted, the compound has three
operations more than the path has components.
-/

set_option autoImplicit false

namespace NfsMount.Mount

open NfsMount.Lib NfsMount.XdrCodec NfsMount.Nfs4Types NfsMount.OncRpc NfsMount.Nfs4Client
  NfsMount.Server

/-! ### The record of the calls -/

/-- A transport, and the calls that were made on it. -/
structure Recorded (τ : Type) where
  inner : τ
  sent : List CallArgs

instance {τ : Type} [RpcTransport τ] : RpcTransport (Recorded τ) where
  call t c :=
    let (outcome, inner) := RpcTransport.call t.inner c
    (outcome, { inner, sent := t.sent ++ [c] })

/-- The number of operations of the compound that a server reads from a call. -/
def operations (c : CallArgs) : Option Nat :=
  match (decode : Decoder UInt8 XdrError Compound4args).run c.args with
  | .ok (args, _) => some args.argarray.length
  | _ => none

/-- No compound has more operations than the server granted. -/
def WithinLimit (granted : ChannelAttrs4) (calls : List CallArgs) : Prop :=
  ∀ call ∈ calls, ∀ n, operations call = some n → n ≤ granted.caMaxoperations.toNat

section Sent

variable {τ : Type} [RpcTransport τ] {c : Nfs4Client (Recorded τ)} {session : SessionManager}
  {i : Nat}

/-- The request of a call has the operations that were encoded. -/
theorem operations_compoundCall {auth : AuthFlavor} {args : Compound4args} {bytes : Bytes}
    (h : encode args = .ok bytes) :
    operations (compoundCall auth bytes) = some args.argarray.length := by
  have hread := read_request h []
  rw [List.append_nil] at hread
  simp only [operations, compoundCall, hread]

/-- A compound is one call, if it can be encoded. -/
theorem sent_compound {args : Compound4args} {bytes : Bytes} (h : encode args = .ok bytes) :
    ((Nfs4Client.compound args).run c).2.transport.sent
      = c.transport.sent ++ [compoundCall c.auth bytes] := by
  simp only [Action.run, Nfs4Client.compound, h]
  rfl

/-- With a free slot, a path that fits is sent as one compound with an operation for each
component and three more. -/
theorem sent_resolvePath (m : Build) {path : String} (hsession : c.session = some session)
    (hfree : session.slots.inUse.findIdx? (!·) = some i) (hfits : Fits (toNfsComponents path)) :
    ∃ call, ((resolvePath m path).run c).2.transport.sent = c.transport.sent ++ [call] ∧
      operations call = some ((toNfsComponents path).length + 3) := by
  obtain ⟨slot, -, -, hrun⟩ := run_resolvePath_free m path hsession hfree
  obtain ⟨bytes, henc⟩ := encode_of_fits session.sessionId slot hfits
  obtain ⟨o, t', hcompound⟩ := run_attempt_compound
    (withSlots c session (session.slots.take i) c.transport)
    (resolveArgs session.sessionId slot (toNfsComponents path))
  have hsent : t'.sent = c.transport.sent ++ [compoundCall c.auth bytes] := by
    have hstate : ((Nfs4Client.compound
        (resolveArgs session.sessionId slot (toNfsComponents path))).run
          (withSlots c session (session.slots.take i) c.transport)).2
        = withSlots c session (session.slots.take i) t' :=
      (Action.run_attempt_snd _ _).symm.trans (congrArg Prod.snd hcompound)
    have hadded := sent_compound (c := withSlots c session (session.slots.take i) c.transport) henc
    rw [hstate] at hadded
    exact hadded
  refine ⟨compoundCall c.auth bytes, ?_, ?_⟩
  · rw [hrun o t' hcompound]
    split <;> exact hsent
  · rw [operations_compoundCall henc, resolveArgs_eq]
    simp [lookups]

/-- A path that does not fit is not sent. -/
theorem sent_resolvePath_unfit (m : Build) {path : String} (hsession : c.session = some session)
    (hfree : session.slots.inUse.findIdx? (!·) = some i)
    (hfits : ¬ Fits (toNfsComponents path)) :
    ((resolvePath m path).run c).2.transport.sent = c.transport.sent := by
  obtain ⟨slot, -, -, hrun⟩ := run_resolvePath_free m path hsession hfree
  obtain ⟨e, hcompound⟩ := run_compound_unfit
    (withSlots c session (session.slots.take i) c.transport) session.sessionId slot hfits
  rw [hrun _ _ (Action.run_attempt_err hcompound)]
  split <;> rfl

end Sent

/-! ### A session from its connect on -/

section Session

variable {τ : Type} [RpcTransport τ] {m : Build} {c c' : Nfs4Client τ} {i : Nat}

/-- The client has a session, and its first free slot is `i`. -/
def Ready (i : Nat) (c : Nfs4Client τ) : Prop :=
  ∃ session, c.session = some session ∧ session.slots.inUse.findIdx? (!·) = some i

/-- The client after a resolution that does not panic. -/
def resolveStep (m : Build) (c : Nfs4Client τ) (path : String) : Option (Nfs4Client τ) :=
  match (resolvePath m path).run c with
  | (.panic, _) => none
  | (_, c') => some c'

/-- The slot of a resolution is free again after it. -/
theorem ready_resolveStep {path : String} (hc : Ready i c) (h : resolveStep m c path = some c') :
    Ready i c' := by
  obtain ⟨session, hsession, hfree⟩ := hc
  obtain ⟨slot, -, -, hrun⟩ := run_resolvePath_free m path hsession hfree
  obtain ⟨o, t', hcompound⟩ := run_attempt_compound
    (withSlots c session (session.slots.take i) c.transport)
    (resolveArgs session.sessionId slot (toNfsComponents path))
  have hdone := hrun o t' hcompound
  cases hnext : m.addU32 slot.sequenceId 1 with
  | none =>
      simp only [hnext] at hdone
      -- The release overflows, and the run ends in the panic.
      simp [resolveStep, hdone] at h
  | some next =>
      simp only [hnext] at hdone
      have hin : ((session.slots.take i).free i next).inUse = session.slots.inUse :=
        inUse_free_take (SlotTable.findIdx?_eq_some hfree).2.1 next
      have hc' : c' = withSlots c session ((session.slots.take i).free i next) t' := by
        rw [resolveStep, hdone] at h
        split at h
        · simp at h
        · rename_i heq
          rw [← Option.some.inj h]
          exact (congrArg Prod.snd heq).symm
      rw [hc']
      exact ⟨_, rfl, hin ▸ hfree⟩

/-- After a connect the server has granted a session, and its first slot is free. -/
theorem ready_connect {owner : ClientOwner4}
    (h : (Nfs4Client.connect m owner).run c = (.ok (), c')) :
    (∃ ex cs t, Created c.auth c.transport owner ex cs t) ∧ Ready 0 c' := by
  rcases run_connect_cases m c owner with
    ⟨ex, cs, t, hcreated, hrun⟩ | ⟨-, t', hrun⟩ | ⟨-, -, e, t', hrun⟩
  · by_cases hn : granted cs = 0
    · rw [hrun, run_reclaimComplete_zero m c ex cs t hn] at h
      cases m <;> simp at h
    · rcases run_reclaimComplete_cases m c ex cs t hn with ⟨res, t', -, hdone⟩ | ⟨-, e, t', hdone⟩
      · rw [hrun, hdone] at h
        obtain ⟨-, rfl⟩ := Prod.mk.inj h
        refine ⟨⟨ex, cs, t, hcreated⟩, _, rfl, ?_⟩
        -- A reply to step 3, and the first of at least one slot is given back.
        obtain ⟨k, hk⟩ : ∃ k, (granted cs).toNat = k + 1 :=
          ⟨(granted cs).toNat - 1, by
            have := mt UInt32.toNat_inj.mp hn
            simp at this
            omega⟩
        simp [SlotTable.free, SlotTable.take, SlotTable.new, hk, List.replicate_succ,
          List.findIdx?_cons]
      · rw [hrun, hdone] at h
        simp at h
  · rw [hrun] at h
    simp at h
  · rw [hrun] at h
    simp at h

end Session

/-- A resolution sends one compound, with an operation for each component of the path and three
more, whatever the server granted. So it is within the limit that the server granted exactly
when these are no more. The session is the one that a connect made, after any resolutions
that did not panic. A path that XDR cannot carry is not sent. -/
theorem resolve_path_within_limit_iff {τ : Type} [RpcTransport τ] {m : Build}
    {c c₁ c₂ : Nfs4Client (Recorded τ)} {owner : ClientOwner4} {earlier : List String}
    (hconnect : (Nfs4Client.connect m owner).run c = (.ok (), c₁))
    (hearlier : run (resolveStep m) c₁ earlier = some c₂) :
    ∃ ex cs t, Created c.auth c.transport owner ex cs t ∧
      ∀ path, ∃ calls,
        ((resolvePath m path).run c₂).2.transport.sent = c₂.transport.sent ++ calls ∧
        (Fits (toNfsComponents path) →
          calls.map operations = [some ((toNfsComponents path).length + 3)]) ∧
        (¬ Fits (toNfsComponents path) → calls = []) ∧
        (WithinLimit cs.csrForeChanAttrs calls ↔ (Fits (toNfsComponents path) →
          (toNfsComponents path).length + 3 ≤ cs.csrForeChanAttrs.caMaxoperations.toNat)) := by
  obtain ⟨⟨ex, cs, t, hcreated⟩, hready⟩ := ready_connect hconnect
  obtain ⟨session, hsession, hfree⟩ :=
    run_invariant (fun _ _ _ hc h => ready_resolveStep hc h) hready hearlier
  refine ⟨ex, cs, t, hcreated, fun path => ?_⟩
  by_cases hfits : Fits (toNfsComponents path)
  · obtain ⟨call, hsent, hops⟩ := sent_resolvePath m hsession hfree hfits
    refine ⟨[call], hsent, fun _ => by simp [hops], fun h => absurd hfits h, ?_⟩
    simp [WithinLimit, hops, hfits]
  · refine ⟨[], ?_, fun h => absurd h hfits, fun _ => rfl, ?_⟩
    · rw [List.append_nil]
      exact sent_resolvePath_unfit m hsession hfree hfits
    · simp [WithinLimit, hfits]

/-- A session of one slot, and of compounds with at most three operations. -/
def tight : ChannelAttrs4 := { defaultChan with caMaxrequests := 1, caMaxoperations := 3 }

/-- A reply with a session whose requests may have few operations. -/
def tightReply : Compound4res where
  status := .ok
  tag := ""
  resarray := [.createSession ⟨.ok, some
    { csrSessionid := FixedOpaque.ofBytes 16 [9], csrSequence := 1, csrFlags := 0
      csrForeChanAttrs := tight, csrBackChanAttrs := defaultChan }⟩]

/-- A client whose server makes such a session. -/
def tightClient : Nfs4Client (Recorded Script) :=
  Nfs4Client.new
    ⟨⟨[answer exchangeReply, answer tightReply, answer ⟨.ok, "", []⟩]⟩, []⟩ .none

/-- The client after its connect. -/
def connected : Nfs4Client (Recorded Script) :=
  ((Nfs4Client.connect .release sampleOwner).run tightClient).2

/-- A path of one component, on a session whose compounds have at most three operations. -/
theorem resolve_path_exceeds_limit :
    ((Nfs4Client.connect .release sampleOwner).run tightClient).1 = .ok () ∧
    ∃ call, ((resolvePath .release "\\docs").run connected).2.transport.sent
        = connected.transport.sent ++ [call] ∧
      operations call = some 4 ∧ ¬ WithinLimit tight [call] := by
  have hok : ((Nfs4Client.connect .release sampleOwner).run tightClient).1 = .ok () := by
    decide +kernel
  have hcomponents : toNfsComponents "\\docs" = ["docs"] := by decide +kernel
  have hfits : Fits (toNfsComponents "\\docs") := by
    rw [hcomponents]
    exact ⟨by decide, by decide +kernel⟩
  have hconnect : (Nfs4Client.connect .release sampleOwner).run tightClient = (.ok (), connected) :=
    Prod.ext hok rfl
  obtain ⟨session, hsession, hfree⟩ := (ready_connect hconnect).2
  obtain ⟨call, hsent, hops⟩ := sent_resolvePath .release hsession hfree hfits
  rw [hcomponents] at hops
  refine ⟨hok, call, hsent, hops, fun h => ?_⟩
  exact absurd (h call List.mem_cons_self 4 hops) (by decide)

/-- Requests to the server that takes few operations. -/
theorem resolve_path_within_limit_iff_tight :
    ∃ ex cs t, Created tightClient.auth tightClient.transport sampleOwner ex cs t ∧
      ∀ path, ∃ calls,
        ((resolvePath .release path).run connected).2.transport.sent
          = connected.transport.sent ++ calls ∧
        (Fits (toNfsComponents path) →
          calls.map operations = [some ((toNfsComponents path).length + 3)]) ∧
        (¬ Fits (toNfsComponents path) → calls = []) ∧
        (WithinLimit cs.csrForeChanAttrs calls ↔ (Fits (toNfsComponents path) →
          (toNfsComponents path).length + 3 ≤ cs.csrForeChanAttrs.caMaxoperations.toNat)) := by
  have hconnect : (Nfs4Client.connect .release sampleOwner).run tightClient = (.ok (), connected) :=
    Prod.ext (by decide +kernel) rfl
  have hearlier : run (resolveStep .release) connected [] = some connected := rfl
  exact resolve_path_within_limit_iff hconnect hearlier

end NfsMount.Mount
