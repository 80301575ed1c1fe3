import NfsMount.Mount.Calls

/-!
# `NfsMount.Proofs.Transports`: a client on one transport and on another

The client code is the same for every transport, and it looks at a response through
`readResponse` alone: neither at the xid nor at the verifier. So a transport that answers as
another one does, up to these two, can take its place.

`Simulates` is what that means for one call of the transport, with room for a transport that
breaks. `Simulates.refines_perform` carries it to the calls on the client, by the rules for
actions. `Simulates.results` is about a sequence of calls.
-/

set_option autoImplicit false

namespace NfsMount.Mount

open NfsMount.Lib NfsMount.XdrCodec NfsMount.Nfs4Types NfsMount.OncRpc NfsMount.Nfs4Client

section Steps

variable {τ ρ : Type}

/-- The two clients differ in their transports, and these are related. -/
structure SameClient (T : τ → ρ → Prop) (auth : AuthFlavor) (c : Nfs4Client τ)
    (d : Nfs4Client ρ) : Prop where
  transport : T c.transport d.transport
  left : c.auth = auth
  right : d.auth = auth
  session : c.session = d.session

/-- The transport of the client is broken. -/
def OnBroken (Broken : τ → Prop) (c : Nfs4Client τ) : Prop := Broken c.transport

variable {T : τ → ρ → Prop} {Broken : τ → Prop} {auth : AuthFlavor} {m : Build}

/-! ### Steps that do not touch the transport -/

/-- A step on the slots is the same on both. -/
theorem refines_onSlots {α : Type} (f : SlotTable → Option α × SlotTable) :
    Action.Refines (SameClient T auth) (OnBroken Broken) (Nfs4Client.onSlots f)
      (Nfs4Client.onSlots f) := by
  intro c d hR
  left
  simp only [Action.run, Nfs4Client.onSlots, hR.session]
  split
  · exact ⟨rfl, hR⟩
  · split
    · exact ⟨rfl, hR.transport, hR.left, hR.right, rfl⟩
    · exact ⟨rfl, hR.transport, hR.left, hR.right, rfl⟩

/-- A step on the slots keeps a broken transport. -/
theorem keeps_onSlots {α : Type} (f : SlotTable → Option α × SlotTable) :
    Action.Keeps (OnBroken Broken) (Nfs4Client.onSlots f) := by
  intro c hc
  simp only [Action.run, Nfs4Client.onSlots]
  split
  · exact hc
  · split
    · exact hc
    · exact hc

/-- The session is set alike. -/
theorem refines_setSession (session : Option SessionManager) :
    Action.Refines (ε := NfsError) (SameClient T auth) (OnBroken Broken)
      (Action.modify fun c => { c with session }) (Action.modify fun d => { d with session }) :=
  Action.refines_modify fun _ _ hR => ⟨hR.transport, hR.left, hR.right, rfl⟩

/-- What a resolution does behind a compound that failed: it releases its slot. -/
theorem fails_release (slotId : SlotId4) (e : NfsError) :
    Action.Fails (OnBroken Broken) (do
      Action.mapError MountError.nfs (Nfs4Client.releaseSlot (τ := τ) m slotId)
      let res ← Action.lift (propagate (.error e : Except NfsError Compound4res))
      Action.lift (resolvedHandle res)) :=
  Action.Fails.behind ((keeps_onSlots _).mapError _) fun _ =>
    (Action.fails_lift_err _ _).bind _

end Steps

variable {τ ρ : Type} [RpcTransport τ] [RpcTransport ρ] {T : τ → ρ → Prop}
  {Broken : τ → Prop} {P : CallArgs → Prop} {auth : AuthFlavor} {m : Build}

/-- Calls with `P` on related transports get answers that read the same, and leave related
transports, unless the first one breaks. A broken transport stays so, and each call on it is
an error. -/
structure Simulates (T : τ → ρ → Prop) (Broken : τ → Prop) (P : CallArgs → Prop) : Prop where
  call : ∀ t r args, T t r → P args →
    (readResponse (RpcTransport.call t args).1 = readResponse (RpcTransport.call r args).1 ∧
      T (RpcTransport.call t args).2 (RpcTransport.call r args).2) ∨
    ((∃ e, (RpcTransport.call t args).1 = .error e) ∧ Broken (RpcTransport.call t args).2)
  broken : ∀ t args, Broken t →
    (∃ e, (RpcTransport.call t args).1 = .error e) ∧ Broken (RpcTransport.call t args).2

/-! ### Compounds -/

/-- A compound does on one transport what it does on the other. -/
theorem Simulates.refines_compound (h : Simulates T Broken P) {args : Compound4args}
    (hP : ∀ bytes, encode args = .ok bytes → P (compoundCall auth bytes)) :
    Action.Refines (SameClient T auth) (OnBroken Broken) (Nfs4Client.compound args)
      (Nfs4Client.compound args) := by
  intro c d hR
  cases henc : (encode args : Encoded UInt8 XdrError) with
  | error e =>
      left
      simp only [Action.run, Nfs4Client.compound, henc]
      exact ⟨trivial, hR⟩
  | ok bytes =>
      simp only [Action.RefinesAt, Action.run, Nfs4Client.compound, henc, hR.left, hR.right]
      rcases h.call c.transport d.transport _ hR.transport (hP bytes henc) with
        ⟨heq, hT⟩ | ⟨⟨e, he⟩, hbroken⟩
      · exact .inl ⟨heq, hT, rfl, rfl, hR.session⟩
      · right
        rw [he]
        exact ⟨Action.noValue_err _, hbroken⟩

/-- On a broken transport a compound is an error. -/
theorem Simulates.fails_compound (h : Simulates T Broken P) (args : Compound4args) :
    Action.Fails (OnBroken Broken) (Nfs4Client.compound args : Action (Nfs4Client τ) _ _) := by
  intro c hc
  cases henc : (encode args : Encoded UInt8 XdrError) with
  | error e =>
      simp only [Action.run, Nfs4Client.compound, henc]
      exact ⟨Action.noValue_err _, hc⟩
  | ok bytes =>
      obtain ⟨⟨e, he⟩, hbroken⟩ := h.broken c.transport (compoundCall c.auth bytes) hc
      simp only [Action.run, Nfs4Client.compound, henc]
      rw [he]
      exact ⟨Action.noValue_err _, hbroken⟩

/-! ### The calls on the client -/

/-- So does a connect. -/
theorem Simulates.refines_connect (h : Simulates T Broken P) {owner : ClientOwner4}
    (hP : ∀ args bytes, (MountCall.connect owner).Sends args → encode args = .ok bytes →
      P (compoundCall auth bytes)) :
    Action.Refines (SameClient T auth) (OnBroken Broken) (Nfs4Client.connect m owner)
      (Nfs4Client.connect m owner) := by
  have hcompound : ∀ {args}, (MountCall.connect owner).Sends args →
      Action.Refines (SameClient T auth) (OnBroken Broken) (Nfs4Client.compound args)
        (Nfs4Client.compound args) :=
    fun hargs => h.refines_compound fun bytes henc => hP _ bytes hargs henc
  refine ((hcompound (.exchangeId owner)).bind fun res => Action.refines_lift _ _ _).bind
    fun resok => ?_
  refine ((hcompound (.createSession owner _ _)).bind fun res => Action.refines_lift _ _ _).bind
    fun csresok => ?_
  refine (refines_setSession _).bind fun _ => ?_
  refine (refines_onSlots _).bind fun alloc => ?_
  cases alloc with
  | none => exact Action.refines_lift _ _ _
  | some slot =>
      refine (hcompound (.reclaimComplete owner _ _)).bind fun res => ?_
      exact (refines_onSlots _).bind fun _ => Action.refines_lift _ _ _

/-- So does a disconnect. -/
theorem Simulates.refines_disconnect (h : Simulates T Broken P)
    (hP : ∀ args bytes, MountCall.disconnect.Sends args → encode args = .ok bytes →
      P (compoundCall auth bytes)) :
    Action.Refines (SameClient T auth) (OnBroken Broken) Nfs4Client.disconnect
      Nfs4Client.disconnect := by
  refine Action.refines_get fun c d hR => ?_
  rw [hR.session]
  cases d.session with
  | none => exact Action.refines_lift _ _ _ c d hR
  | some session =>
      refine Action.Refines.bind (h.refines_compound fun bytes henc =>
        hP _ bytes (.destroySession session.sessionId) henc) (fun res => ?_) c d hR
      exact (refines_setSession none).bind fun _ => Action.refines_lift _ _ _

/-- So does a resolution. -/
theorem Simulates.refines_resolvePath (h : Simulates T Broken P) {path : String}
    (hP : ∀ args bytes, (MountCall.resolvePath path).Sends args → encode args = .ok bytes →
      P (compoundCall auth bytes)) :
    Action.Refines (SameClient T auth) (OnBroken Broken) (resolvePath m path)
      (resolvePath m path) := by
  refine Action.refines_get fun c d hR => ?_
  rw [hR.session]
  cases d.session with
  | none => exact Action.refines_lift _ _ _ c d hR
  | some session =>
      refine Action.Refines.bind ((refines_onSlots _).mapError _) (fun alloc => ?_) c d hR
      cases alloc with
      | none => exact Action.refines_lift _ _ _
      | some slot =>
          refine Action.Refines.attempt_bind (h.refines_compound fun bytes henc =>
            hP _ bytes (.resolve path session.sessionId slot) henc) (fun res => ?_) fun e => ?_
          · exact ((refines_onSlots _).mapError _).bind fun _ =>
              (Action.refines_lift _ _ _).bind fun _ => Action.refines_lift _ _ _
          · exact fails_release slot.slotId e

/-- So does every call. -/
theorem Simulates.refines_perform (h : Simulates T Broken P) {call : MountCall}
    (hP : ∀ args bytes, call.Sends args → encode args = .ok bytes →
      P (compoundCall auth bytes)) :
    Action.Refines (SameClient T auth) (OnBroken Broken) (call.perform m) (call.perform m) := by
  cases call with
  | connect owner =>
      exact ((h.refines_connect hP).mapError _).bind fun _ => Action.refines_lift _ _ (.ok none)
  | disconnect =>
      exact ((h.refines_disconnect hP).mapError _).bind fun _ =>
        Action.refines_lift _ _ (.ok none)
  | resolvePath path =>
      exact (h.refines_resolvePath hP).bind fun fh => Action.refines_lift _ _ (.ok (some fh))

/-- On a broken transport no call returns a value. -/
theorem Simulates.fails_perform (h : Simulates T Broken P) (call : MountCall) :
    Action.Fails (OnBroken Broken) (call.perform m : Action (Nfs4Client τ) _ _) := by
  have hget : ∀ {β : Type} {f : Nfs4Client τ → Action (Nfs4Client τ) MountError β},
      (∀ c, Action.Fails (OnBroken Broken) (f c)) →
      Action.Fails (OnBroken Broken) (Action.get >>= f) :=
    fun hf => Action.Fails.behind (fun _ hs => hs) hf
  cases call with
  | connect owner =>
      refine Action.Fails.bind (Action.Fails.mapError ?_ _) _
      exact ((h.fails_compound _).bind _).bind _
  | disconnect =>
      refine Action.Fails.bind (Action.Fails.mapError ?_ _) _
      refine Action.Fails.behind (fun _ hs => hs) fun c => ?_
      cases c.session with
      | none => exact Action.fails_lift_err _ _
      | some session => exact (h.fails_compound _).bind _
  | resolvePath path =>
      refine Action.Fails.bind (hget fun c => ?_) _
      cases c.session with
      | none => exact Action.fails_lift_err _ _
      | some session =>
          refine Action.Fails.behind ((keeps_onSlots _).mapError _) fun alloc => ?_
          cases alloc with
          | none => exact Action.fails_lift_err _ _
          | some slot =>
              exact (h.fails_compound _).attempt_bind fun e => fails_release slot.slotId e

/-- **Run.** A sequence of calls returns the same on both transports, or it does so up to a
call on which the first transport breaks, and no call returns a value from there on. -/
theorem Simulates.results (h : Simulates T Broken P) {calls : List MountCall}
    (hP : ∀ call ∈ calls, ∀ args bytes, call.Sends args → encode args = .ok bytes →
      P (compoundCall auth bytes)) {c : Nfs4Client τ} {d : Nfs4Client ρ}
    (hR : SameClient T auth c d) :
    Mount.results m c calls = Mount.results m d calls ∨
      (∃ t, Broken t) ∧ Action.UpToFailure (Mount.results m c calls) (Mount.results m d calls) := by
  rcases Action.Refines.play (fun call hcall => h.refines_perform (m := m) (hP call hcall))
    (fun call _ => h.fails_perform call) hR with hall | ⟨⟨c', hc'⟩, hfail⟩
  · exact .inl hall
  · exact .inr ⟨⟨_, hc'⟩, hfail⟩

end NfsMount.Mount
