import NfsMount.Lib.Run
import NfsMount.Proofs.Connect
import NfsMount.Server.Sessions

/-!
# `NfsMount.Proofs.Sessions`: which sessions a client leaves behind

A client connects and disconnects, in any order, to a server that answers as its oracles
choose. `NoOrphan` is that every session that is live at the server is the one the client
holds. A call can break it in two ways, and `KeepsTrack` excludes just these: a connect that
is granted a session while the client holds one, and a disconnect that the server answers
with an error.

One lemma for each call says what it does to the client's session and to the live sessions,
and `runs_leave_no_orphan` follows for runs of any length.
-/

set_option autoImplicit false

namespace NfsMount.Nfs4Client

open NfsMount.Lib NfsMount.XdrCodec NfsMount.Nfs4Types NfsMount.Server

/-- A client of a server that keeps sessions. -/
abbrev SessionClient := Nfs4Client (Served SessionServer)

/-- The sessions that are live at the server. -/
def live (c : SessionClient) : List SessionId4 := c.transport.state.live

/-- The result that the server will give `op` in the compound after `n` more. -/
def nextAnswer (c : SessionClient) (n : Nat) (op : NfsArgOp4) : NfsResOp4 :=
  (c.transport.state.later n).answer op

/-- The id of the session that the client holds. -/
def heldId (c : SessionClient) : Option SessionId4 := c.session.map (·.sessionId)

/-- The calls that make and end sessions. -/
inductive SessionCall where
  | connect (clientOwner : ClientOwner4)
  | disconnect
deriving DecidableEq

/-- A call, whatever it returns. -/
def callStep (m : Build) (c : SessionClient) : SessionCall → Option SessionClient
  | .connect clientOwner => some ((Nfs4Client.connect m clientOwner).run c).2
  | .disconnect => some (Nfs4Client.disconnect.run c).2

/-- Every live session is the one that the client holds. -/
def NoOrphan (c : SessionClient) : Prop := ∀ sid ∈ live c, heldId c = some sid

/-- The operation of the first request of a connect. -/
def exchangeOp (clientOwner : ClientOwner4) : NfsArgOp4 :=
  .exchangeId
    { eiaClientowner := clientOwner, eiaFlags := 0, eiaStateProtect := .spNone
      eiaClientImplId := [] }

/-- The operation of the second request. -/
def createOp (clientId : ClientId4) (sequenceId : SequenceId4) : NfsArgOp4 :=
  .createSession
    { csaClientid := clientId, csaSequence := sequenceId, csaFlags := 0
      csaForeChanAttrs := defaultChan, csaBackChanAttrs := defaultChan, csaCbProgram := 0
      csaSecParms := [.authNone] }

/-- The server will grant the session `cs` to a connect, whose first request encodes. -/
def Grants (c : SessionClient) (clientOwner : ClientOwner4) (cs : CreateSession4resok) : Prop :=
  wellFormed clientOwner ∧ ∃ ex,
    nextAnswer c 0 (exchangeOp clientOwner) = .exchangeId ⟨.ok, some ex⟩ ∧
    nextAnswer c 1 (createOp ex.eirClientid ex.eirSequenceid) = .createSession ⟨.ok, some cs⟩

/-- A connect is granted a session only when the client holds none, and a disconnect is
answered `Ok`. -/
def KeepsTrack (c : SessionClient) : SessionCall → Prop
  | .connect clientOwner => heldId c = none ∨ ∀ cs, ¬ Grants c clientOwner cs
  | .disconnect => ∀ sid, heldId c = some sid →
      nextAnswer c 0 (.destroySession ⟨sid⟩) = .destroySession .ok

open Nfs4Client

/-! ### One compound -/

/-- The client after a compound that left the sessions `sids` live. -/
def advance (c : SessionClient) (sids : List SessionId4) : SessionClient where
  transport := ⟨{
    live := sids
    now := c.transport.state.later 0
    later := fun n => c.transport.state.later (n + 1) }⟩
  auth := c.auth
  session := c.session

/-- A compound of one operation. -/
theorem run_single (c : SessionClient) {tag : String} {op : NfsArgOp4}
    (h : wellFormed (⟨tag, 1, [op]⟩ : Compound4args)) :
    (compound ⟨tag, 1, [op]⟩).run c
      = (.ok ⟨status (nextAnswer c 0 op), tag, [nextAnswer c 0 op]⟩,
          advance c (SessionServer.effect (live c) op (nextAnswer c 0 op))) := by
  obtain ⟨bytes, henc, -⟩ := isCodec.yields _ h
  have hserve : serve c.transport.state ⟨tag, 1, [op]⟩
      = (⟨status (nextAnswer c 0 op), tag, [nextAnswer c 0 op]⟩,
          (advance c (SessionServer.effect (live c) op (nextAnswer c 0 op))).transport.state) := by
    -- Whether the operation fails or not, it is the last one.
    simp only [serve, execute, CompoundServer.perform, CompoundServer.start, ite_self]
    rfl
  rw [run_compound_served c henc, hserve]
  rfl

/-- The operations that neither create nor destroy a session leave the live ones alone. -/
theorem live_execute {s : SessionServer} {ops : List NfsArgOp4}
    (h : ∀ op ∈ ops, ∀ sids r, SessionServer.effect sids op r = sids) :
    (execute s ops).2.live = s.live := by
  induction ops generalizing s with
  | nil => rfl
  | cons op ops ih =>
      have hop : (CompoundServer.perform s op).2.live = s.live :=
        h op List.mem_cons_self s.live _
      rw [execute]
      split
      · exact (ih fun op' hmem => h op' (List.mem_cons_of_mem op hmem)).trans hop
      · exact hop

/-- The client holds `sid`, and the live sessions are `sids`. -/
def Standing (sid : Option SessionId4) (sids : List SessionId4) (c : SessionClient) : Prop :=
  heldId c = sid ∧ live c = sids

variable {sid : Option SessionId4} {sids : List SessionId4}

/-- A step on the slots leaves the server's sessions. -/
theorem standing_onSlots {α : Type} (f : SlotTable → Option α × SlotTable) :
    Action.Keeps (Standing sid sids) (onSlots f : Action SessionClient NfsError α) := by
  rintro ⟨t, auth, session⟩ hc
  cases session with
  | none => exact hc
  | some session =>
      simp only [Action.run, onSlots]
      rcases f session.slots with ⟨_ | a, slots⟩
      · exact hc
      · exact hc

/-- A request that has no effect on sessions leaves them. -/
theorem standing_compound {args : Compound4args}
    (h : ∀ op ∈ args.argarray, ∀ sids r, SessionServer.effect sids op r = sids) :
    Action.Keeps (Standing sid sids) (compound args : Action SessionClient _ _) := by
  rintro c ⟨hheld, hlive⟩
  cases henc : (encode args : Encoded UInt8 XdrError) with
  | error e =>
      simp only [Action.run, compound, henc]
      exact ⟨hheld, hlive⟩
  | ok bytes =>
      rw [run_compound_served c henc]
      exact ⟨hheld, (live_execute h).trans hlive⟩

/-- Step 3 of a connect uses the session and its slots, and keeps both where they are. -/
theorem standing_reclaimComplete (m : Build) (sessionId : SessionId4) :
    Action.Keeps (Standing sid sids) (reclaimComplete m sessionId) := by
  refine Action.Keeps.bind (standing_onSlots _) fun slot? => ?_
  cases slot? with
  | none => exact Action.keeps_lift _ _
  | some slot =>
      refine Action.Keeps.bind (standing_compound ?_) fun res =>
        Action.Keeps.bind (standing_onSlots _) fun _ => Action.keeps_lift _ _
      intro op hop sids r
      simp [reclaimArgs, CompoundBuilder.build, CompoundBuilder.reclaimComplete,
        CompoundBuilder.sequence, CompoundBuilder.push, CompoundBuilder.withTag,
        CompoundBuilder.new] at hop
      rcases hop with rfl | rfl <;> rfl

/-! ### One call -/

/-- The client takes an EXCHANGE_ID that is the only result. -/
theorem exchangeResult_single {r : NfsResOp4} {tag : String} {ex : ExchangeId4resok} :
    exchangeResult ⟨status r, tag, [r]⟩ = .ok ex ↔ r = .exchangeId ⟨.ok, some ex⟩ := by
  rw [exchangeResult_eq_ok, List.head?_cons, Option.some.injEq]
  exact and_iff_right_of_imp fun h => h ▸ rfl

/-- The client takes a CREATE_SESSION that is the only result. -/
theorem createResult_single {r : NfsResOp4} {tag : String} {cs : CreateSession4resok} :
    createResult ⟨status r, tag, [r]⟩ = .ok cs ↔ r = .createSession ⟨.ok, some cs⟩ := by
  rw [createResult_eq_ok, List.head?_cons, Option.some.injEq]
  exact and_iff_right_of_imp fun h => h ▸ rfl

/-- A CREATE_SESSION without a session in its result makes none live. -/
theorem effect_createOp {clientId : ClientId4} {sequenceId : SequenceId4} {r : NfsResOp4}
    (h : ∀ cs, r ≠ .createSession ⟨.ok, some cs⟩) (sids : List SessionId4) :
    SessionServer.effect sids (createOp clientId sequenceId) r = sids := by
  cases r with
  | createSession r =>
      obtain ⟨status, resok⟩ := r
      cases resok with
      | none => cases status <;> rfl
      | some cs =>
          cases status with
          | ok => exact absurd rfl (h cs)
          | _ => rfl
  | _ => rfl

/-- A request of one operation is well formed when that is. -/
theorem wellFormed_single {tag : String} {op : NfsArgOp4}
    (htag : (stringBytes tag).length < 2 ^ 32) (hop : wellFormed op) :
    wellFormed (⟨tag, 1, [op]⟩ : Compound4args) :=
  ⟨htag, trivial, Nat.one_lt_two_pow (by decide), by simpa using hop⟩

/-- The request of EXCHANGE_ID is well formed when the owner is. -/
theorem wellFormed_exchangeArgs {owner : ClientOwner4} (h : wellFormed owner) :
    wellFormed (⟨"exchange_id", 1, [exchangeOp owner]⟩ : Compound4args) :=
  wellFormed_single (by decide) ⟨h, trivial, trivial, Nat.two_pow_pos 32, by simp⟩

/-- The request of CREATE_SESSION is well formed. -/
theorem wellFormed_createArgs (clientId : ClientId4) (sequenceId : SequenceId4) :
    wellFormed (⟨"create_session", 1, [createOp clientId sequenceId]⟩ : Compound4args) :=
  wellFormed_single (by decide) (by simp [wellFormed, createOp, defaultChan])

/-- The request of DESTROY_SESSION is well formed. -/
theorem wellFormed_destroyArgs (sessionId : SessionId4) :
    wellFormed (⟨"destroy_session", 1, [.destroySession ⟨sessionId⟩]⟩ : Compound4args) :=
  wellFormed_single (by decide) trivial

/-- EXCHANGE_ID gets the answer of the server. -/
theorem run_exchangeId_served {c : SessionClient} {owner : ClientOwner4} (h : wellFormed owner) :
    (exchangeId owner).run c
      = (exchangeResult ⟨status (nextAnswer c 0 (exchangeOp owner)), "exchange_id",
          [nextAnswer c 0 (exchangeOp owner)]⟩, advance c (live c)) :=
  Action.run_bind_ok (run_single c (wellFormed_exchangeArgs h))

/-- CREATE_SESSION gets the answer of the server. -/
theorem run_createSession_served (c : SessionClient) (clientId : ClientId4)
    (sequenceId : SequenceId4) :
    (createSession clientId sequenceId).run c
      = (createResult ⟨status (nextAnswer c 0 (createOp clientId sequenceId)), "create_session",
          [nextAnswer c 0 (createOp clientId sequenceId)]⟩,
        advance c (SessionServer.effect (live c) (createOp clientId sequenceId)
          (nextAnswer c 0 (createOp clientId sequenceId)))) :=
  Action.run_bind_ok (run_single c (wellFormed_createArgs clientId sequenceId))

/-- The first two steps of a connect, on a server that answers step 1 with `ex`. -/
theorem connect_effect_of_exchange (m : Build) {c : SessionClient} {owner : ClientOwner4}
    {ex : ExchangeId4resok} (hwf : wellFormed owner)
    (hex : nextAnswer c 0 (exchangeOp owner) = .exchangeId ⟨.ok, some ex⟩) :
    (∃ cs, Grants c owner cs ∧ Standing (some cs.csrSessionid) (cs.csrSessionid :: live c)
      ((connect m owner).run c).2) ∨
    (∀ cs, ¬ Grants c owner cs) ∧
      Standing (heldId c) (live c) ((connect m owner).run c).2 := by
  have hrun₁ : (exchangeId owner).run c = (.ok ex, advance c (live c)) := by
    rw [run_exchangeId_served hwf, exchangeResult_single.mpr hex]
  have hrun₂ := run_createSession_served (advance c (live c)) ex.eirClientid ex.eirSequenceid
  -- The answer to step 2 is the second one of the server.
  rw [show nextAnswer (advance c (live c)) 0 = nextAnswer c 1 from rfl] at hrun₂
  by_cases hcs : ∃ cs, nextAnswer c 1 (createOp ex.eirClientid ex.eirSequenceid)
      = .createSession ⟨.ok, some cs⟩
  · obtain ⟨cs, hcs⟩ := hcs
    refine .inl ⟨cs, ⟨hwf, ex, hex, hcs⟩, ?_⟩
    rw [createResult_single.mpr hcs, hcs] at hrun₂
    rw [connect, Action.run_bind_ok hrun₁, Action.run_bind_ok hrun₂,
      Action.run_bind_ok (Action.run_modify _ _)]
    exact standing_reclaimComplete m _ _ ⟨rfl, rfl⟩
  · have hne : ∀ cs, nextAnswer c 1 (createOp ex.eirClientid ex.eirSequenceid)
        ≠ .createSession ⟨.ok, some cs⟩ := fun cs h => hcs ⟨cs, h⟩
    refine .inr ⟨?_, ?_⟩
    · rintro cs ⟨-, ex', hex', hcs'⟩
      obtain rfl : ex' = ex := by simpa [hex'] using hex
      exact hne cs hcs'
    · rw [effect_createOp hne] at hrun₂
      rw [connect, Action.run_bind_ok hrun₁]
      cases hres : createResult ⟨status (nextAnswer c 1
          (createOp ex.eirClientid ex.eirSequenceid)), "create_session",
          [nextAnswer c 1 (createOp ex.eirClientid ex.eirSequenceid)]⟩ with
      | ok cs => exact absurd (createResult_single.mp hres) (hne cs)
      | err e =>
          rw [hres] at hrun₂
          rw [Action.run_bind_err hrun₂]
          exact ⟨rfl, rfl⟩
      | panic =>
          rw [hres] at hrun₂
          rw [Action.run_bind_panic hrun₂]
          exact ⟨rfl, rfl⟩

/-- A connect that is granted a session holds it, and one that is not changes nothing. -/
theorem connect_effect (m : Build) (c : SessionClient) (owner : ClientOwner4) :
    (∃ cs, Grants c owner cs ∧ Standing (some cs.csrSessionid) (cs.csrSessionid :: live c)
      ((connect m owner).run c).2) ∨
    (∀ cs, ¬ Grants c owner cs) ∧
      Standing (heldId c) (live c) ((connect m owner).run c).2 := by
  by_cases hwf : wellFormed owner
  · by_cases hex : ∃ ex, nextAnswer c 0 (exchangeOp owner) = .exchangeId ⟨.ok, some ex⟩
    · obtain ⟨ex, hex⟩ := hex
      exact connect_effect_of_exchange m hwf hex
    · refine .inr ⟨?_, ?_⟩
      · rintro cs ⟨-, ex, h, -⟩
        exact hex ⟨ex, h⟩
      · have hrun := run_exchangeId_served hwf (c := c)
        -- EXCHANGE_ID gives no client id, and CREATE_SESSION is not sent.
        cases hres : exchangeResult ⟨status (nextAnswer c 0 (exchangeOp owner)), "exchange_id",
            [nextAnswer c 0 (exchangeOp owner)]⟩ with
        | ok ex => exact absurd ⟨ex, exchangeResult_single.mp hres⟩ hex
        | err e =>
            rw [hres] at hrun
            rw [connect, Action.run_bind_err hrun]
            exact ⟨rfl, rfl⟩
        | panic =>
            rw [hres] at hrun
            rw [connect, Action.run_bind_panic hrun]
            exact ⟨rfl, rfl⟩
  · -- The request does not encode, so nothing is sent.
    refine .inr ⟨fun cs h => hwf h.1, ?_⟩
    cases henc : (encode (exchangeArgs owner) : Encoded UInt8 XdrError) with
    | ok bytes =>
        have hop := (aligned _ _ henc).1.2.2.2 (exchangeOp owner) List.mem_cons_self
        exact absurd hop.1 hwf
    | error e =>
        have hrun : (exchangeId owner).run c = (.err (.xdr e), c) := by
          refine Action.run_bind_err ?_
          simp only [Action.run, compound, henc]
        rw [connect, Action.run_bind_err hrun]
        exact ⟨rfl, rfl⟩

/-- A disconnect forgets the session it held, whatever the server answers. -/
theorem disconnect_effect {c : SessionClient} {sid : SessionId4} (h : heldId c = some sid) :
    Standing none (SessionServer.effect (live c) (.destroySession ⟨sid⟩)
      (nextAnswer c 0 (.destroySession ⟨sid⟩))) (disconnect.run c).2 := by
  obtain ⟨session, hsession, rfl⟩ := Option.map_eq_some_iff.mp h
  rw [disconnect, Action.run_bind_ok (Action.run_get c)]
  simp only [hsession]
  have hrun : (compound (destroyArgs session.sessionId)).run c = _ :=
    run_single c (wellFormed_destroyArgs session.sessionId)
  rw [Action.run_bind_ok hrun, Action.run_bind_ok (Action.run_modify _ _)]
  exact ⟨rfl, rfl⟩

/-- A disconnect without a session does nothing. -/
theorem disconnect_none {c : SessionClient} (h : heldId c = none) : (disconnect.run c).2 = c := by
  rw [disconnect, Action.run_bind_ok (Action.run_get c)]
  simp only [Option.map_eq_none_iff.mp h, Action.run_lift]

/-! ### Runs -/

/-- **Step.** A call that keeps track leaves no orphan. -/
theorem noOrphan_step {m : Build} {c c' : SessionClient} {call : SessionCall}
    (h : NoOrphan c) (hcall : KeepsTrack c call) (hstep : callStep m c call = some c') :
    NoOrphan c' := by
  cases call with
  | connect owner =>
      obtain rfl := Option.some.inj hstep
      rcases connect_effect m c owner with ⟨cs, hgrants, hheld, hlive⟩ | ⟨-, hheld, hlive⟩
      · -- The client held nothing, so nothing was live before.
        have hnone : heldId c = none := hcall.resolve_right fun hno => hno cs hgrants
        have hempty : live c = [] := by
          refine List.eq_nil_iff_forall_not_mem.mpr fun sid hsid => ?_
          simpa [hnone] using h sid hsid
        intro sid hsid
        rw [hlive, hempty, List.mem_singleton] at hsid
        rw [hheld, hsid]
      · intro sid hsid
        rw [hlive] at hsid
        rw [hheld, h sid hsid]
  | disconnect =>
      obtain rfl := Option.some.inj hstep
      cases hheld : heldId c with
      | none =>
          rw [disconnect_none hheld]
          exact h
      | some sid =>
          obtain ⟨-, hlive⟩ := disconnect_effect hheld
          rw [hcall sid hheld] at hlive
          -- The session that ended was the only live one.
          intro sid' hsid'
          rw [hlive] at hsid'
          obtain ⟨hmem, hne⟩ := List.mem_filter.mp hsid'
          rw [h sid' hmem, Option.some.injEq] at hheld
          simp [hheld] at hne

/-- A run of connects and disconnects leaves no session behind, when each connect that is
granted a session is made without one and each disconnect is answered `Ok`. -/
theorem runs_leave_no_orphan {m : Build} {c c' : SessionClient} {calls : List SessionCall}
    (h : NoOrphan c) (hcalls : Along (callStep m) KeepsTrack c calls)
    (hrun : run (callStep m) c calls = some c') : NoOrphan c' :=
  run_invariant_along (fun _ _ _ => noOrphan_step) h hcalls hrun

/-- An oracle that grants sessions with the id `sid` and 2 slots, and gives all other
operations the status `s`. -/
def sampleOracle (sid : UInt8) (s : NfsStat4) : Oracle where
  answer
    | .exchangeId _ => .exchangeId ⟨.ok, some
        { eirClientid := ⟨5⟩, eirSequenceid := 1, eirFlags := 0, eirStateProtect := .spNone
          eirServerOwner := ⟨0, ⟨[]⟩⟩, eirServerScope := ⟨[]⟩, eirServerImplId := [] }⟩
    | .createSession _ => .createSession ⟨.ok, some
        { csrSessionid := FixedOpaque.ofBytes 16 [sid], csrSequence := 1, csrFlags := 0
          csrForeChanAttrs := { defaultChan with caMaxrequests := 2 }
          csrBackChanAttrs := defaultChan }⟩
    | .destroySession _ => .destroySession s
    | _ => .reclaimComplete s
  wellFormed_answer op := by
    cases op <;> simp [wellFormed, NfsStat4.isOk, defaultChan]

/-- A client without a session, of a server without sessions that uses these oracles. -/
def sampleClient (later : Nat → Oracle) : SessionClient :=
  Nfs4Client.new ⟨{ live := [], now := later 0, later }⟩ .none

/-- A client that connects again behind a disconnect. -/
theorem runs_leave_no_orphan_reconnect :
    ∃ c', run (callStep .checked) (sampleClient fun _ => sampleOracle 9 .ok)
        [.connect sampleOwner, .disconnect, .connect sampleOwner] = some c' ∧ NoOrphan c' := by
  have hrun : run (callStep .checked) (sampleClient fun _ => sampleOracle 9 .ok)
      [.connect sampleOwner, .disconnect, .connect sampleOwner] = some _ := rfl
  refine ⟨_, rfl, runs_leave_no_orphan (fun sid hsid => ?_) ?_ hrun⟩
  · simp [live, sampleClient, Nfs4Client.new] at hsid
  · refine ⟨.inl rfl, fun c₁ h₁ => ⟨fun sid h => ?_, fun c₂ h₂ => ⟨.inl ?_, fun _ _ => trivial⟩⟩⟩
    · obtain rfl := Option.some.inj h₁
      have h9 : heldId ((connect .checked sampleOwner).run
          (sampleClient fun _ => sampleOracle 9 .ok)).2 = some (FixedOpaque.ofBytes 16 [9]) := by
        decide +kernel
      obtain rfl := Option.some.inj (h9.symm.trans h)
      decide +kernel
    · obtain rfl := Option.some.inj h₁
      obtain rfl := Option.some.inj h₂
      decide +kernel

/-- A live session that is not the one the client holds is an orphan. -/
theorem not_noOrphan {c : SessionClient} {sid : SessionId4} {held : Option SessionId4}
    {sids : List SessionId4} (hlive : live c = sids) (hheld : heldId c = held)
    (hmem : sid ∈ sids) (hne : held ≠ some sid) : ¬ NoOrphan c := by
  intro h
  rw [← hlive] at hmem
  exact hne (hheld.symm.trans (h sid hmem))

/-- The two ways to leave a session behind: a second connect, and a disconnect that the server
refuses. -/
theorem runs_leave_orphan :
    (∃ c', run (callStep .checked) (sampleClient fun n => sampleOracle (UInt8.ofNat n) .ok)
        [.connect sampleOwner, .connect sampleOwner] = some c' ∧
      live c' = [FixedOpaque.ofBytes 16 [4], FixedOpaque.ofBytes 16 [1]] ∧
      heldId c' = some (FixedOpaque.ofBytes 16 [4]) ∧ ¬ NoOrphan c') ∧
    ∃ c', run (callStep .checked) (sampleClient fun _ => sampleOracle 9 .perm)
        [.connect sampleOwner, .disconnect] = some c' ∧
      live c' = [FixedOpaque.ofBytes 16 [9]] ∧ heldId c' = none ∧ ¬ NoOrphan c' := by
  have h1 : (run (callStep .checked) (sampleClient fun n => sampleOracle (UInt8.ofNat n) .ok)
      [.connect sampleOwner, .connect sampleOwner]).map (fun c => (live c, heldId c))
      = some ([FixedOpaque.ofBytes 16 [4], FixedOpaque.ofBytes 16 [1]],
          some (FixedOpaque.ofBytes 16 [4])) := by decide +kernel
  have h2 : (run (callStep .checked) (sampleClient fun _ => sampleOracle 9 .perm)
      [.connect sampleOwner, .disconnect]).map (fun c => (live c, heldId c))
      = some ([FixedOpaque.ofBytes 16 [9]], none) := by decide +kernel
  obtain ⟨c₁, hrun₁, hc₁⟩ := Option.map_eq_some_iff.mp h1
  obtain ⟨c₂, hrun₂, hc₂⟩ := Option.map_eq_some_iff.mp h2
  obtain ⟨hlive₁, hheld₁⟩ := Prod.mk.inj hc₁
  obtain ⟨hlive₂, hheld₂⟩ := Prod.mk.inj hc₂
  refine ⟨⟨c₁, hrun₁, hlive₁, hheld₁, ?_⟩, ⟨c₂, hrun₂, hlive₂, hheld₂, ?_⟩⟩
  · exact not_noOrphan hlive₁ hheld₁ (List.mem_cons_of_mem _ List.mem_cons_self) (by decide)
  · exact not_noOrphan hlive₂ hheld₂ List.mem_cons_self (by decide)

end NfsMount.Nfs4Client
