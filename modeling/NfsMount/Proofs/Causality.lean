import NfsMount.Lib.Cost
import NfsMount.Lib.Fork
import NfsMount.Mount.Sharing
import NfsMount.Proofs.Transports

/-!
# `NfsMount.Proofs.Causality`: what a call sends depends on the answers so far

A client makes the same calls on two transports. As long as these give the same answers it sends
the same requests, and so it does once more at the first answer that is different (`Parts`).
From there on the two runs have nothing to do with each other.

For a party this means that its next request does not depend on the answer to it
(`Party.taken_concat`): it can be sent first and answered then. And a call takes three turns or
fewer (`costs_perform`).
-/

set_option autoImplicit false

namespace NfsMount.Mount

open NfsMount.Lib NfsMount.XdrCodec NfsMount.Nfs4Types NfsMount.OncRpc NfsMount.Nfs4Client

section Steps

variable {τ ρ : Type} {T K : τ → ρ → Prop} {auth : AuthFlavor}

/-- The transports of the two clients parted. -/
def Parted (K : τ → ρ → Prop) (c : Nfs4Client τ) (d : Nfs4Client ρ) : Prop :=
  K c.transport d.transport

/-- A step on the slots sends nothing. -/
theorem forks_onSlots {α : Type} (f : SlotTable → Option α × SlotTable) :
    Action.Forks (SameClient T auth) (Parted K) (Nfs4Client.onSlots f) (Nfs4Client.onSlots f) where
  run c d hR := by
    left
    simp only [Action.run, Nfs4Client.onSlots, hR.session]
    split
    · exact ⟨rfl, hR⟩
    · split
      · exact ⟨rfl, hR.transport, hR.left, hR.right, rfl⟩
      · exact ⟨rfl, hR.transport, hR.left, hR.right, rfl⟩
  left d := @keeps_onSlots τ (fun t => K t d.transport) α f
  right c := @keeps_onSlots ρ (fun t => K c.transport t) α f

/-- Storing a session sends nothing. -/
theorem forks_setSession (session : Option SessionManager) :
    Action.Forks (ε := NfsError) (SameClient T auth) (Parted K)
      (Action.modify fun c => { c with session }) (Action.modify fun d => { d with session }) :=
  Action.forks_modify (fun _ _ hR => ⟨hR.transport, hR.left, hR.right, rfl⟩) (fun _ _ h => h)
    fun _ _ h => h

/-- A call that depends on the session of the client. -/
theorem forks_session {ε α : Type} {f : Nfs4Client τ → Action (Nfs4Client τ) ε α}
    {g : Nfs4Client ρ → Action (Nfs4Client ρ) ε α}
    (h : ∀ c d, c.session = d.session → Action.Forks (SameClient T auth) (Parted K) (f c) (g d)) :
    Action.Forks (SameClient T auth) (Parted K) (Action.get >>= f) (Action.get >>= g) :=
  Action.forks_get (fun c d hR => h c d hR.session)
    -- The session of the other client does not matter to a run that parted from it.
    (fun c d => (h c { d with session := c.session } rfl).left { d with session := c.session })
    fun d c => (h { c with session := d.session } d rfl).right { c with session := d.session }

/-- The turns that a client has taken. -/
def turnCount (c : Nfs4Client (Wire τ)) : Nat := c.transport.turns.length

/-- A step on the slots is no turn. -/
theorem costs_onSlots {α : Type} (f : SlotTable → Option α × SlotTable) :
    Action.Costs turnCount 0 (Nfs4Client.onSlots (τ := Wire τ) f) := fun c =>
  @keeps_onSlots (Wire τ) (fun w => w.turns.length ≤ c.transport.turns.length) α f c
    (Nat.le_refl c.transport.turns.length)

end Steps

variable {τ ρ : Type} [RpcTransport τ] [RpcTransport ρ] {T K : τ → ρ → Prop} {auth : AuthFlavor}
  {m : Build}

/-- The transports give answers that read the same and stay related, or they part. -/
structure Parts (T K : τ → ρ → Prop) : Prop where
  call : ∀ t r args, T t r →
    (readResponse (RpcTransport.call t args).1 = readResponse (RpcTransport.call r args).1 ∧
      T (RpcTransport.call t args).2 (RpcTransport.call r args).2) ∨
    K (RpcTransport.call t args).2 (RpcTransport.call r args).2
  left : ∀ t r args, K t r → K (RpcTransport.call t args).2 r
  right : ∀ t r args, K t r → K t (RpcTransport.call r args).2

/-- A compound is the one place where two clients can part: the answer may differ. -/
theorem Parts.forks_compound (h : Parts T K) (args : Compound4args) :
    Action.Forks (SameClient T auth) (Parted K) (Nfs4Client.compound args)
      (Nfs4Client.compound args) where
  run c d hR := by
    cases henc : (encode args : Encoded UInt8 XdrError) with
    | error e =>
        left
        simp only [Action.run, Nfs4Client.compound, henc]
        exact ⟨trivial, hR⟩
    | ok bytes =>
        -- The same bytes are sent on both, as neither has parted yet.
        simp only [Action.run, Nfs4Client.compound, henc, hR.left, hR.right]
        rcases h.call c.transport d.transport (compoundCall auth bytes) hR.transport with
          ⟨heq, hT⟩ | hK
        · exact .inl ⟨heq, hT, rfl, rfl, hR.session⟩
        · exact .inr hK
  left d c hc := by
    cases henc : (encode args : Encoded UInt8 XdrError) with
    | error e =>
        simp only [Action.run, Nfs4Client.compound, henc]
        exact hc
    | ok bytes =>
        simp only [Action.run, Nfs4Client.compound, henc]
        exact h.left c.transport d.transport _ hc
  right c d hd := by
    cases henc : (encode args : Encoded UInt8 XdrError) with
    | error e =>
        simp only [Action.run, Nfs4Client.compound, henc]
        exact hd
    | ok bytes =>
        simp only [Action.run, Nfs4Client.compound, henc]
        exact h.right c.transport d.transport _ hd

/-- A connect parts at one of its compounds. -/
theorem Parts.forks_connect (h : Parts T K) (owner : ClientOwner4) :
    Action.Forks (SameClient T auth) (Parted K) (Nfs4Client.connect m owner)
      (Nfs4Client.connect m owner) := by
  refine ((h.forks_compound _).bind fun res => Action.forks_lift _ _ _).bind fun resok => ?_
  refine ((h.forks_compound _).bind fun res => Action.forks_lift _ _ _).bind fun csresok => ?_
  refine (forks_setSession _).bind fun _ => ?_
  refine (forks_onSlots _).bind fun alloc => ?_
  cases alloc with
  | none => exact Action.forks_lift _ _ _
  | some slot =>
      refine (h.forks_compound _).bind fun res => ?_
      exact (forks_onSlots _).bind fun _ => Action.forks_lift _ _ _

/-- A disconnect parts at its compound. -/
theorem Parts.forks_disconnect (h : Parts T K) :
    Action.Forks (SameClient T auth) (Parted K) Nfs4Client.disconnect Nfs4Client.disconnect := by
  refine forks_session fun c d hsession => ?_
  rw [hsession]
  cases d.session with
  | none => exact Action.forks_lift _ _ _
  | some session =>
      refine (h.forks_compound _).bind fun res => ?_
      exact (forks_setSession none).bind fun _ => Action.forks_lift _ _ _

/-- A resolution parts at its compound. -/
theorem Parts.forks_resolvePath (h : Parts T K) (path : String) :
    Action.Forks (SameClient T auth) (Parted K) (resolvePath m path) (resolvePath m path) := by
  refine forks_session fun c d hsession => ?_
  rw [hsession]
  cases d.session with
  | none => exact Action.forks_lift _ _ _
  | some session =>
      refine ((forks_onSlots _).mapError _).bind fun alloc => ?_
      cases alloc with
      | none => exact Action.forks_lift _ _ _
      | some slot =>
          refine (h.forks_compound _).attempt.bind fun res => ?_
          exact ((forks_onSlots _).mapError _).bind fun _ =>
            (Action.forks_lift _ _ _).bind fun _ => Action.forks_lift _ _ _

/-- A call parts at one of its compounds. -/
theorem Parts.forks_perform (h : Parts T K) (call : MountCall) :
    Action.Forks (SameClient T auth) (Parted K) (call.perform m) (call.perform m) := by
  cases call with
  | connect owner =>
      exact ((h.forks_connect owner).mapError _).bind fun _ => Action.forks_lift _ _ (.ok none)
  | disconnect =>
      exact (h.forks_disconnect.mapError _).bind fun _ => Action.forks_lift _ _ (.ok none)
  | resolvePath path =>
      exact (h.forks_resolvePath path).bind fun fh => Action.forks_lift _ _ (.ok (some fh))

/-! ### The answers of turns -/

/-- Behind its turns a replay is closed. -/
theorem call_closed (w : Wire Replay) {c : CallArgs} (h : w.inner.turns = []) :
    RpcTransport.call w c = (Replay.closed, ⟨w.inner, w.turns ++ [⟨c, Replay.closed⟩]⟩) := by
  obtain ⟨⟨rest⟩, turns⟩ := w
  obtain rfl : rest = [] := h
  rfl

/-- A replay answers the call of its next turn, and is closed behind any other. -/
theorem call_turn {c : CallArgs} {w : Wire Replay} {turn : Turn} {rest : List Turn}
    (h : w.inner.turns = turn :: rest) :
    RpcTransport.call w c
      = if turn.call = c then (turn.answer, ⟨⟨rest⟩, w.turns ++ [turn]⟩)
        else (Replay.closed, ⟨⟨[]⟩, w.turns ++ [⟨c, Replay.closed⟩]⟩) := by
  obtain ⟨⟨rest'⟩, turns⟩ := w
  obtain rfl : rest' = turn :: rest := h
  obtain ⟨call, answer⟩ := turn
  by_cases hc : call = c
  · subst hc
    simp [RpcTransport.call]
  · simp [RpcTransport.call, hc]

/-- Neither of two lists starts with the other one. -/
def Incomparable (turns turns' : List Turn) : Prop := ¬ turns <+: turns' ∧ ¬ turns' <+: turns

/-- Turns that have parted stay parted. -/
theorem Incomparable.concat {turns turns' : List Turn} (h : Incomparable turns turns')
    (turn : Turn) : Incomparable (turns ++ [turn]) turns' := by
  refine ⟨fun hfirst => h.1 ((List.prefix_append _ _).trans hfirst), fun hfirst => ?_⟩
  rcases List.prefix_concat_iff.mp hfirst with heq | hshort
  · exact h.1 (heq ▸ List.prefix_append _ _)
  · exact h.2 hshort

/-- The client sent something else than the next request. -/
theorem incomparable_of_call_ne {turns rest : List Turn} {turn turn' : Turn}
    (h : turn.call ≠ turn'.call) : Incomparable (turns ++ [turn']) (turns ++ turn :: rest) := by
  constructor
  · intro hfirst
    rw [List.prefix_append_right_inj] at hfirst
    obtain ⟨rfl, -⟩ := List.cons_prefix_cons.mp hfirst
    exact h rfl
  · intro hfirst
    rw [List.prefix_append_right_inj] at hfirst
    obtain ⟨rfl, -⟩ := List.cons_prefix_cons.mp hfirst
    exact h rfl

variable {turns : List Turn} {turn : Turn}

/-- The one transport has the answers of `turns`, and the other one that of `turn` behind them.
Or the client left these turns, and gets no more answers. -/
structure InStep (turns : List Turn) (turn : Turn) (w w' : Wire Replay) : Prop where
  turns_eq : w.turns = w'.turns
  rest : (w.turns ++ w.inner.turns = turns ∧ w'.inner.turns = w.inner.turns ++ [turn]) ∨
    (w.inner.turns = [] ∧ w'.inner.turns = [] ∧ Incomparable w.turns turns)

/-- Behind `turns` the client sent the same request on both. -/
def PartedBehind (turns : List Turn) (turn : Turn) (w w' : Wire Replay) : Prop :=
  ∃ c, turns ++ [⟨c, Replay.closed⟩] <+: w.turns ∧
    turns ++ [⟨c, if turn.call = c then turn.answer else Replay.closed⟩] <+: w'.turns

/-- A call is one turn more. -/
theorem turns_call {τ : Type} [RpcTransport τ] (w : Wire τ) (c : CallArgs) :
    ∃ answer, (RpcTransport.call w c).2.turns = w.turns ++ [⟨c, answer⟩] := ⟨_, rfl⟩

/-- A replay of turns, and one of a turn more, part behind them. -/
theorem parts_replay (turns : List Turn) (turn : Turn) :
    Parts (InStep turns turn) (PartedBehind turns turn) where
  call w w' c h := by
    obtain ⟨hturns, ⟨hall, hnext⟩ | ⟨hclosed, hclosed', hleft⟩⟩ := h
    · cases hrest : w.inner.turns with
      | nil =>
          -- The last answer of `turns` was given.
          right
          rw [hrest] at hall hnext
          rw [List.append_nil] at hall
          rw [call_closed w hrest, call_turn hnext]
          refine ⟨c, by rw [hall], ?_⟩
          rw [← hall, hturns]
          by_cases hc : turn.call = c
          · subst hc
            rw [if_pos rfl, if_pos rfl]
          · rw [if_neg hc, if_neg hc]
      | cons next rest =>
          left
          rw [hrest] at hall hnext
          rw [call_turn hrest, call_turn hnext]
          by_cases hc : next.call = c
          · rw [if_pos hc, if_pos hc]
            refine ⟨rfl, by rw [hturns], .inl ⟨?_, rfl⟩⟩
            rw [List.append_assoc]
            exact hall
          · rw [if_neg hc, if_neg hc]
            refine ⟨rfl, by rw [hturns], .inr ⟨rfl, rfl, ?_⟩⟩
            rw [← hall]
            exact incomparable_of_call_ne hc
    · -- The client left its turns before.
      left
      rw [call_closed w hclosed, call_closed w' hclosed']
      exact ⟨rfl, by rw [hturns], .inr ⟨hclosed, hclosed', hleft.concat _⟩⟩
  left w w' c h := by
    obtain ⟨c', hw, hw'⟩ := h
    obtain ⟨answer, hcall⟩ := turns_call w c
    refine ⟨c', ?_, hw'⟩
    rw [hcall]
    exact hw.trans (List.prefix_append _ _)
  right w w' c h := by
    obtain ⟨c', hw, hw'⟩ := h
    obtain ⟨answer, hcall⟩ := turns_call w' c
    refine ⟨c', hw, ?_⟩
    rw [hcall]
    exact hw'.trans (List.prefix_append _ _)

/-- **The next request does not depend on its answer.** -/
theorem Party.taken_concat (p : Party) (hturns : turns <+: p.taken turns)
    (hrequest : p.request turns = some turn.call) :
    turns ++ [turn] <+: p.taken (turns ++ [turn]) := by
  have hstart : SameClient (InStep turns turn) p.auth (p.client turns)
      (p.client (turns ++ [turn])) :=
    ⟨⟨rfl, .inl ⟨List.nil_append _, rfl⟩⟩, rfl, rfl, rfl⟩
  obtain ⟨next, hnext, hcall⟩ := Option.map_eq_some_iff.mp hrequest
  rcases Action.Forks.after
      (fun call _ => (parts_replay turns turn).forks_perform (m := p.build) call) hstart with
    hsame | ⟨c, hw, hw'⟩
  · -- The request behind `turns` was sent, so the two did not end in step.
    exfalso
    rcases hsame.transport.rest with ⟨hall, -⟩ | ⟨-, -, hleft⟩
    · have hlen := congrArg List.length hall
      rw [List.length_append] at hlen
      have hlt := (List.getElem?_eq_some_iff.mp hnext).1
      have : (p.taken turns).length ≤ turns.length := Nat.le.intro hlen
      omega
    · exact hleft.2 hturns
  · obtain ⟨rest, hrest⟩ := hw
    have hnext' : (p.taken turns)[turns.length]? = some ⟨c, Replay.closed⟩ := by
      rw [show p.taken turns = _ from hrest.symm]
      simp
    obtain rfl := Option.some.inj (hnext.symm.trans hnext')
    obtain rfl : c = turn.call := hcall
    rw [if_pos rfl] at hw'
    exact hw'

/-! ### How many turns a call takes -/

/-- A compound is one turn at most. -/
theorem costs_compound (args : Compound4args) :
    Action.Costs turnCount 1 (Nfs4Client.compound (τ := Wire τ) args) := by
  intro c
  cases henc : (encode args : Encoded UInt8 XdrError) with
  | error e =>
      simp only [Action.run, Nfs4Client.compound, henc]
      exact Nat.le_succ _
  | ok bytes =>
      simp only [Action.run, Nfs4Client.compound, henc]
      show (c.transport.turns ++ [_]).length ≤ c.transport.turns.length + 1
      rw [List.length_append, List.length_singleton]

/-- A connect is three turns at most. -/
theorem costs_connect (owner : ClientOwner4) :
    Action.Costs turnCount 3 (Nfs4Client.connect (τ := Wire τ) m owner) := by
  refine Action.Costs.bind (n := 1) (k := 2)
    ((costs_compound _).bind fun res => Action.costs_lift _ _) fun resok => ?_
  refine Action.Costs.bind (n := 1) (k := 1)
    ((costs_compound _).bind fun res => Action.costs_lift _ _) fun csresok => ?_
  refine Action.Costs.bind (n := 0) (k := 1) (Action.costs_modify fun c => Nat.le_refl _)
    fun _ => ?_
  refine Action.Costs.bind (n := 0) (k := 1) (costs_onSlots _) fun alloc => ?_
  cases alloc with
  | none => exact (Action.costs_lift _ _).mono (by decide)
  | some slot =>
      refine Action.Costs.bind (n := 1) (k := 0) (costs_compound _) fun res => ?_
      exact (costs_onSlots _).bind fun _ => Action.costs_lift _ _

/-- A disconnect is one turn at most. -/
theorem costs_disconnect : Action.Costs turnCount 1 (Nfs4Client.disconnect (τ := Wire τ)) := by
  refine Action.costs_get fun c => ?_
  cases c.session with
  | none => exact (Action.costs_lift _ _).mono (by decide)
  | some session =>
      refine Action.Costs.bind (n := 1) (k := 0) (costs_compound _) fun res => ?_
      exact Action.Costs.bind (n := 0) (k := 0) (Action.costs_modify fun c => Nat.le_refl _)
        fun _ => Action.costs_lift _ _

/-- A resolution is one turn at most. -/
theorem costs_resolvePath (path : String) :
    Action.Costs turnCount 1 (resolvePath (τ := Wire τ) m path) := by
  refine Action.costs_get fun c => ?_
  cases c.session with
  | none => exact (Action.costs_lift _ _).mono (by decide)
  | some session =>
      refine Action.Costs.bind (n := 0) (k := 1) ((costs_onSlots _).mapError _) fun alloc => ?_
      cases alloc with
      | none => exact (Action.costs_lift _ _).mono (by decide)
      | some slot =>
          refine Action.Costs.bind (n := 1) (k := 0) (costs_compound _).attempt fun res => ?_
          exact Action.Costs.bind (n := 0) (k := 0) ((costs_onSlots _).mapError _) fun _ =>
            (Action.costs_lift _ _).bind fun _ => Action.costs_lift _ _

/-- A call takes three turns or fewer. -/
theorem costs_perform (call : MountCall) :
    Action.Costs turnCount 3 (call.perform (τ := Wire τ) m) := by
  cases call with
  | connect owner =>
      exact ((costs_connect owner).mapError _).bind fun _ => Action.costs_lift _ (.ok none)
  | disconnect =>
      exact ((costs_disconnect.mapError _).bind fun _ =>
        Action.costs_lift _ (.ok none)).mono (by decide)
  | resolvePath path =>
      exact ((costs_resolvePath path).bind fun fh =>
        Action.costs_lift _ (.ok (some fh))).mono (by decide)

/-- A party takes three turns for a call at most. -/
theorem Party.length_taken_le (p : Party) (turns : List Turn) :
    (p.taken turns).length ≤ 3 * p.calls.length := by
  have hcost := Action.Costs.after (costs_perform (τ := Replay) (m := p.build)) (p.client turns)
    p.calls
  exact hcost.trans (Nat.le_of_eq (Nat.zero_add _))

end NfsMount.Mount
