import NfsMount.Nfs4Client.Client
import NfsMount.Proofs.Compound
import NfsMount.Proofs.Request

/-!
# `NfsMount.Proofs.Connect`: how a connect and a disconnect end

What the transport does is described by `Replies`: it answers a request with a reply that
decodes. `Exchanges` and `Creates` are the answers with which the first two steps of
`connect` succeed. One lemma for each step says how it ends on which answers, and the two
main results are about whole calls, on any transport and in any state of the client:

* `connect_ne_panic_iff`: a connect panics exactly on an `Ok` reply without results, and in
  a checked build on a session without slots. A disconnect never panics.
* `connect_err_keeps_session_iff`: a connect that fails leaves the session as it was, unless
  the server created a session and the third step failed.
-/

set_option autoImplicit false

namespace NfsMount.Nfs4Client

open NfsMount.Lib NfsMount.XdrCodec NfsMount.Nfs4Types NfsMount.OncRpc

section Transport

variable {τ : Type} [RpcTransport τ] {auth : AuthFlavor} {t t' : τ}

/-- The request `args` encodes, and the transport answers it with the reply `res`. -/
def Replies (auth : AuthFlavor) (t : τ) (args : Compound4args) (res : Compound4res) (t' : τ) :
    Prop :=
  ∃ bytes response data rest, encode args = .ok bytes ∧
    RpcTransport.call t (compoundCall auth bytes) = (.ok response, t') ∧
    response.status = .success data ∧
    (decode : Decoder UInt8 XdrError Compound4res).run data.bytes = .ok (res, rest)

/-- The answer that step 1 of a connect goes on with. -/
def Exchanges (auth : AuthFlavor) (t : τ) (owner : ClientOwner4) (ex : ExchangeId4resok)
    (t' : τ) : Prop :=
  ∃ res, Replies auth t (exchangeArgs owner) res t' ∧ res.status = .ok ∧
    res.resarray.head? = some (.exchangeId ⟨.ok, some ex⟩)

/-- The answer that step 2 of a connect goes on with. -/
def Creates (auth : AuthFlavor) (t : τ) (ex : ExchangeId4resok) (cs : CreateSession4resok)
    (t' : τ) : Prop :=
  ∃ res, Replies auth t (createArgs ex.eirClientid ex.eirSequenceid) res t' ∧
    res.status = .ok ∧ res.resarray.head? = some (.createSession ⟨.ok, some cs⟩)

/-- The server creates a session: the first two steps of a connect succeed. -/
def Created (auth : AuthFlavor) (t : τ) (owner : ClientOwner4) (ex : ExchangeId4resok)
    (cs : CreateSession4resok) (t' : τ) : Prop :=
  ∃ t₁, Exchanges auth t owner ex t₁ ∧ Creates auth t₁ ex cs t'

/-- The `Ok` reply without results, on which `&res.resarray[0]` panics. -/
def EmptyOk (res : Compound4res) : Prop := res.status = .ok ∧ res.resarray = []

/-- One of the first two steps of a connect gets an `Ok` reply without results. -/
def MeetsEmptyOk (auth : AuthFlavor) (t : τ) (owner : ClientOwner4) : Prop :=
  (∃ res t', Replies auth t (exchangeArgs owner) res t' ∧ EmptyOk res) ∨
  ∃ ex t₁, Exchanges auth t owner ex t₁ ∧
    ∃ res t', Replies auth t₁ (createArgs ex.eirClientid ex.eirSequenceid) res t' ∧ EmptyOk res

/-! ### Replies -/

/-- Only the status `Ok` is one of success. -/
theorem isOk_iff {s : NfsStat4} : s.isOk = true ↔ s = .ok := by
  rw [NfsStat4.isOk, decide_eq_true_eq]

/-- A status is checked by `is_ok`. -/
theorem checkStatus_eq_ok {res : Compound4res} : checkStatus res = .ok () ↔ res.status = .ok := by
  rw [checkStatus, ← isOk_iff]
  by_cases h : res.status.isOk
  · rw [if_pos h]
    exact iff_of_true rfl h
  · rw [if_neg h]
    exact iff_of_false (by simp) h

/-- Checking a status is no panic. -/
theorem checkStatus_ne_panic (res : Compound4res) : checkStatus res ≠ .panic := by
  rw [checkStatus]
  split <;> simp [pure]

/-- A body is there exactly when the result is `Ok`. -/
theorem resokOf_eq_ok {β : Type} {expected : String} {r : OpResult β} {ok : β} :
    resokOf expected r = .ok ok ↔ r = ⟨.ok, some ok⟩ := by
  obtain ⟨status, resok⟩ := r
  rw [resokOf, OpResult.mk.injEq, ← isOk_iff]
  by_cases h : status.isOk
  · cases resok <;> simp [h]
  · simp [h]

/-- Taking a body is no panic. -/
theorem resokOf_ne_panic {β : Type} (expected : String) (r : OpResult β) :
    resokOf expected r ≠ .panic := by
  rw [resokOf]
  split
  · cases r.resok <;> simp
  · simp

/-- A step succeeds when the status is `Ok` and the first result is the one that it expects. -/
theorem firstBody_eq_ok {β : Type} {pick : NfsResOp4 → Option (OpResult β)}
    {expected expectedBody : String} {res : Compound4res} {ok : β} :
    firstBody pick expected expectedBody res = .ok ok ↔
      res.status = .ok ∧ ∃ r, res.resarray.head? = some r ∧ pick r = some ⟨.ok, some ok⟩ := by
  rw [firstBody, Outcome.bind_eq_ok]
  constructor
  · rintro ⟨⟨⟩, hstatus, h⟩
    refine ⟨checkStatus_eq_ok.mp hstatus, ?_⟩
    obtain ⟨r, hr, h⟩ := Outcome.bind_eq_ok.mp h
    refine ⟨r, ?_, ?_⟩
    · cases hres : res.resarray <;> simp_all [firstResult]
    · cases hpick : pick r with
      | none => simp [hpick] at h
      | some x =>
          simp only [hpick] at h
          rw [resokOf_eq_ok.mp h]
  · rintro ⟨hstatus, r, hr, hpick⟩
    refine ⟨(), checkStatus_eq_ok.mpr hstatus, Outcome.bind_eq_ok.mpr ⟨r, ?_, ?_⟩⟩
    · cases hres : res.resarray <;> simp_all [firstResult]
    · simp only [hpick]
      exact resokOf_eq_ok.mpr rfl

/-- `resarray[0]` panics on a reply that is `Ok` and has no results. -/
theorem firstBody_eq_panic {β : Type} {pick : NfsResOp4 → Option (OpResult β)}
    {expected expectedBody : String} {res : Compound4res} :
    firstBody pick expected expectedBody res = .panic ↔ EmptyOk res := by
  rw [firstBody, Outcome.bind_eq_panic, EmptyOk, ← checkStatus_eq_ok]
  constructor
  · rintro (h | ⟨⟨⟩, hstatus, h⟩)
    · exact absurd h (checkStatus_ne_panic res)
    · refine ⟨hstatus, ?_⟩
      -- The only panic behind the status check is the index.
      rcases Outcome.bind_eq_panic.mp h with h | ⟨r, -, h⟩
      · cases hres : res.resarray <;> simp_all [firstResult]
      · cases hpick : pick r with
        | none => simp [hpick] at h
        | some x =>
            simp only [hpick] at h
            exact absurd h (resokOf_ne_panic _ _)
  · rintro ⟨hstatus, hres⟩
    exact .inr ⟨(), hstatus, Outcome.bind_eq_panic.mpr (.inl (by rw [firstResult, hres]))⟩

/-- The result of EXCHANGE_ID that the client takes. -/
theorem exchangeResult_eq_ok {res : Compound4res} {ex : ExchangeId4resok} :
    exchangeResult res = .ok ex ↔
      res.status = .ok ∧ res.resarray.head? = some (.exchangeId ⟨.ok, some ex⟩) := by
  rw [exchangeResult, firstBody_eq_ok]
  refine and_congr_right fun _ => ⟨?_, fun h => ⟨_, h, rfl⟩⟩
  rintro ⟨r, hr, hpick⟩
  cases r <;> simp at hpick
  rw [hr, hpick]

/-- The result of CREATE_SESSION that the client takes. -/
theorem createResult_eq_ok {res : Compound4res} {cs : CreateSession4resok} :
    createResult res = .ok cs ↔
      res.status = .ok ∧ res.resarray.head? = some (.createSession ⟨.ok, some cs⟩) := by
  rw [createResult, firstBody_eq_ok]
  refine and_congr_right fun _ => ⟨?_, fun h => ⟨_, h, rfl⟩⟩
  rintro ⟨r, hr, hpick⟩
  cases r <;> simp at hpick
  rw [hr, hpick]

/-- A transport gives one answer to a request. -/
theorem Replies.unique {args : Compound4args} {res res' : Compound4res} {t₁ t₂ : τ}
    (h : Replies auth t args res t₁) (h' : Replies auth t args res' t₂) :
    res = res' ∧ t₁ = t₂ := by
  obtain ⟨bytes, response, data, rest, henc, hcall, hdata, hdec⟩ := h
  obtain ⟨bytes', response', data', rest', henc', hcall', hdata', hdec'⟩ := h'
  obtain rfl := Except.ok.inj (henc.symm.trans henc')
  obtain ⟨rfl, rfl⟩ : response = response' ∧ t₁ = t₂ := by simpa [hcall] using hcall'
  obtain rfl := AcceptStatus.success.inj (hdata.symm.trans hdata')
  rw [hdec, Outcome.ok.injEq, Prod.mk.injEq] at hdec'
  exact ⟨hdec'.1, rfl⟩

/-- EXCHANGE_ID has one outcome. -/
theorem Exchanges.unique {owner : ClientOwner4} {ex ex' : ExchangeId4resok} {t₁ t₂ : τ}
    (h : Exchanges auth t owner ex t₁) (h' : Exchanges auth t owner ex' t₂) :
    ex = ex' ∧ t₁ = t₂ := by
  obtain ⟨res, hrep, -, hhead⟩ := h
  obtain ⟨res', hrep', -, hhead'⟩ := h'
  obtain ⟨rfl, ht⟩ := hrep.unique hrep'
  refine ⟨?_, ht⟩
  simpa using hhead.symm.trans hhead'

/-- CREATE_SESSION has one outcome. -/
theorem Creates.unique {ex : ExchangeId4resok} {cs cs' : CreateSession4resok} {t₁ t₂ : τ}
    (h : Creates auth t ex cs t₁) (h' : Creates auth t ex cs' t₂) : cs = cs' ∧ t₁ = t₂ := by
  obtain ⟨res, hrep, -, hhead⟩ := h
  obtain ⟨res', hrep', -, hhead'⟩ := h'
  obtain ⟨rfl, ht⟩ := hrep.unique hrep'
  refine ⟨?_, ht⟩
  simpa using hhead.symm.trans hhead'

/-- The first two steps have one outcome. -/
theorem Created.unique {owner : ClientOwner4} {ex ex' : ExchangeId4resok}
    {cs cs' : CreateSession4resok} {t₁ t₂ : τ} (h : Created auth t owner ex cs t₁)
    (h' : Created auth t owner ex' cs' t₂) : ex = ex' ∧ cs = cs' ∧ t₁ = t₂ := by
  obtain ⟨u, hex, hcs⟩ := h
  obtain ⟨u', hex', hcs'⟩ := h'
  obtain ⟨rfl, rfl⟩ := hex.unique hex'
  exact ⟨rfl, hcs.unique hcs'⟩

/-- A reply with a result is no reply without results. -/
theorem Replies.not_emptyOk {args : Compound4args} {res : Compound4res} {r : NfsResOp4}
    {t₁ : τ} (h : Replies auth t args res t₁) (hhead : res.resarray.head? = some r) :
    ¬ ∃ res' t', Replies auth t args res' t' ∧ EmptyOk res' := by
  rintro ⟨res', t₂, hrep, hempty⟩
  obtain rfl := (h.unique hrep).1
  simp [hempty.2] at hhead

/-- When the first two steps succeed, neither met an empty reply. -/
theorem Created.not_meetsEmptyOk {owner : ClientOwner4} {ex : ExchangeId4resok}
    {cs : CreateSession4resok} (h : Created auth t owner ex cs t') :
    ¬ MeetsEmptyOk auth t owner := by
  obtain ⟨t₁, hex, res₂, hrep₂, -, hhead₂⟩ := h
  rintro (hempty | ⟨ex', t₂, hex', hempty⟩)
  · obtain ⟨res₁, hrep₁, -, hhead₁⟩ := hex
    exact hrep₁.not_emptyOk hhead₁ hempty
  · obtain ⟨rfl, rfl⟩ := hex.unique hex'
    exact hrep₂.not_emptyOk hhead₂ hempty

/-! ### One request -/

variable {c : Nfs4Client τ}

open Nfs4Client

/-- The answers that `compound` returns a reply for. -/
theorem readResponse_eq_ok {answer : Except RpcError RpcResponse} {res : Compound4res} :
    readResponse answer = .ok res ↔
      ∃ response data rest, answer = .ok response ∧ response.status = .success data ∧
        (decode : Decoder UInt8 XdrError Compound4res).run data.bytes = .ok (res, rest) := by
  cases answer with
  | error e => simp [readResponse]
  | ok response =>
      obtain ⟨xid, verf, status⟩ := response
      cases status with
      | success data =>
          cases hdec : (decode : Decoder UInt8 XdrError Compound4res).run data.bytes with
          | ok x => simp [readResponse, hdec, ← and_assoc, Prod.ext_iff]
          | err e => simp [readResponse, hdec]
          | panic => simp [readResponse, hdec]
      | _ => simp [readResponse]

/-- Reading a response is no panic. -/
theorem readResponse_ne_panic (answer : Except RpcError RpcResponse) :
    readResponse answer ≠ .panic := by
  cases answer with
  | error e => simp [readResponse]
  | ok response =>
      obtain ⟨xid, verf, status⟩ := response
      cases status with
      | success data =>
          cases hdec : (decode : Decoder UInt8 XdrError Compound4res).run data.bytes with
          | ok x => simp [readResponse, hdec]
          | err e => simp [readResponse, hdec]
          | panic => exact absurd hdec (isCodec.noPanic data.bytes)
      | _ => simp [readResponse]

/-- A compound returns the reply, if there is one, and an error otherwise. It changes the
transport only. -/
theorem run_compound_cases (c : Nfs4Client τ) (args : Compound4args) :
    (∃ res t', Replies c.auth c.transport args res t' ∧
      (compound args).run c = (.ok res, { c with transport := t' })) ∨
    (∀ res t', ¬ Replies c.auth c.transport args res t') ∧
      ∃ e t', (compound args).run c = (.err e, { c with transport := t' }) := by
  cases henc : (encode args : Encoded UInt8 XdrError) with
  | error e =>
      refine .inr ⟨fun res t' h => ?_, .xdr e, c.transport, ?_⟩
      · -- Nothing is sent, so there is no reply.
        obtain ⟨bytes, -, -, -, hbytes, -⟩ := h
        simp [henc] at hbytes
      · simp only [Action.run, compound, henc]
  | ok bytes =>
      rcases hcall : RpcTransport.call c.transport (compoundCall c.auth bytes) with ⟨answer, t'⟩
      have hrun : (compound args).run c = (readResponse answer, { c with transport := t' }) := by
        simp only [Action.run, compound, henc, hcall]
      cases hread : readResponse answer with
      | ok res =>
          obtain ⟨response, data, rest, rfl, hdata, hdec⟩ := readResponse_eq_ok.mp hread
          exact .inl ⟨res, t', ⟨bytes, response, data, rest, henc, hcall, hdata, hdec⟩,
            by rw [hrun, hread]⟩
      | err e =>
          refine .inr ⟨?_, e, t', by rw [hrun, hread]⟩
          -- A reply would be this answer, and it was not one.
          rintro res t₂ ⟨bytes', response, data, rest, hbytes, hcall', hdata, hdec⟩
          obtain rfl := Except.ok.inj (henc.symm.trans hbytes)
          obtain ⟨rfl, -⟩ : answer = .ok response ∧ t' = t₂ := by simpa [hcall] using hcall'
          rw [readResponse_eq_ok.mpr ⟨response, data, rest, rfl, hdata, hdec⟩] at hread
          simp at hread
      | panic => exact absurd hread (readResponse_ne_panic answer)

/-! ### The first two steps -/

/-- A request, and what is made of the reply: it succeeds on the replies with `P`, panics on
an `Ok` reply without results, and is an error otherwise. -/
theorem run_request_cases {β : Type} (c : Nfs4Client τ) (args : Compound4args)
    {f : Compound4res → Outcome NfsError β} {P : Compound4res → β → Prop}
    (hok : ∀ res b, f res = .ok b ↔ P res b) (hpanic : ∀ res, f res = .panic ↔ EmptyOk res) :
    (∃ b t', (∃ res, Replies c.auth c.transport args res t' ∧ P res b) ∧
      (compound args >>= fun res => Action.lift (f res)).run c
        = (.ok b, { c with transport := t' })) ∨
    (∃ res t', Replies c.auth c.transport args res t' ∧ EmptyOk res ∧
      (compound args >>= fun res => Action.lift (f res)).run c
        = (.panic, { c with transport := t' })) ∨
    (∀ b t', ¬ ∃ res, Replies c.auth c.transport args res t' ∧ P res b) ∧
      (∀ res t', Replies c.auth c.transport args res t' → ¬ EmptyOk res) ∧
      ∃ e t', (compound args >>= fun res => Action.lift (f res)).run c
        = (.err e, { c with transport := t' }) := by
  rcases run_compound_cases c args with ⟨res, t', hrep, hrun⟩ | ⟨hnone, e, t', hrun⟩
  · cases hres : f res with
    | ok b =>
        refine .inl ⟨b, t', ⟨res, hrep, (hok res b).mp hres⟩, ?_⟩
        rw [Action.run_bind_ok hrun, hres, Action.run_lift]
    | panic =>
        refine .inr (.inl ⟨res, t', hrep, (hpanic res).mp hres, ?_⟩)
        rw [Action.run_bind_ok hrun, hres, Action.run_lift]
    | err e =>
        -- There is one reply, and it is an error.
        refine .inr (.inr ⟨?_, ?_, e, t', ?_⟩)
        · rintro b t₂ ⟨res₂, hrep₂, hP⟩
          obtain rfl := (hrep.unique hrep₂).1
          simp [(hok res b).mpr hP] at hres
        · intro res₂ t₂ hrep₂ hempty
          obtain rfl := (hrep.unique hrep₂).1
          simp [(hpanic res).mpr hempty] at hres
        · rw [Action.run_bind_ok hrun, hres, Action.run_lift]
  · refine .inr (.inr ⟨?_, fun res t₂ h => absurd h (hnone res t₂), e, t',
      Action.run_bind_err hrun⟩)
    rintro b t₂ ⟨res, hrep, -⟩
    exact hnone res t₂ hrep

/-- EXCHANGE_ID gives its result, or an error, or panics on an empty reply. -/
theorem run_exchangeId_cases (c : Nfs4Client τ) (owner : ClientOwner4) :
    (∃ ex t', Exchanges c.auth c.transport owner ex t' ∧
      (exchangeId owner).run c = (.ok ex, { c with transport := t' })) ∨
    (∃ res t', Replies c.auth c.transport (exchangeArgs owner) res t' ∧ EmptyOk res ∧
      (exchangeId owner).run c = (.panic, { c with transport := t' })) ∨
    (∀ ex t', ¬ Exchanges c.auth c.transport owner ex t') ∧
      (∀ res t', Replies c.auth c.transport (exchangeArgs owner) res t' → ¬ EmptyOk res) ∧
      ∃ e t', (exchangeId owner).run c = (.err e, { c with transport := t' }) :=
  run_request_cases c (exchangeArgs owner) (fun _ _ => exchangeResult_eq_ok)
    fun _ => firstBody_eq_panic

/-- CREATE_SESSION gives its result, or an error, or panics on an empty reply. -/
theorem run_createSession_cases (c : Nfs4Client τ) (ex : ExchangeId4resok) :
    (∃ cs t', Creates c.auth c.transport ex cs t' ∧
      (createSession ex.eirClientid ex.eirSequenceid).run c
        = (.ok cs, { c with transport := t' })) ∨
    (∃ res t', Replies c.auth c.transport (createArgs ex.eirClientid ex.eirSequenceid) res t' ∧
      EmptyOk res ∧ (createSession ex.eirClientid ex.eirSequenceid).run c
        = (.panic, { c with transport := t' })) ∨
    (∀ cs t', ¬ Creates c.auth c.transport ex cs t') ∧
      (∀ res t', Replies c.auth c.transport (createArgs ex.eirClientid ex.eirSequenceid) res t' →
        ¬ EmptyOk res) ∧
      ∃ e t', (createSession ex.eirClientid ex.eirSequenceid).run c
        = (.err e, { c with transport := t' }) :=
  run_request_cases c (createArgs ex.eirClientid ex.eirSequenceid)
    (fun _ _ => createResult_eq_ok) fun _ => firstBody_eq_panic

end Transport

/-! ### The slots of a new session -/

/-- The first slot of a new session with `n` slots. -/
def firstSlot (n : UInt32) : AllocatedSlot where
  slotId := 0
  sequenceId := 1
  highestSlotId := n - 1

namespace SlotTable

/-- A new session with slots gives its first one. -/
theorem tryAllocSlot_new (m : Build) {n : UInt32} (hn : n ≠ 0) :
    (new n).tryAllocSlot m = some (some (firstSlot n), (new n).take 0) := by
  have hpos : 0 < n.toNat := by
    rw [Nat.pos_iff_ne_zero]
    exact fun h => hn (UInt32.toNat_inj.mp h)
  have hfind : (new n).inUse.findIdx? (!·) = some 0 := by
    obtain ⟨k, hk⟩ : ∃ k, n.toNat = k + 1 := ⟨n.toNat - 1, by omega⟩
    simp [new, hk, List.replicate_succ, List.findIdx?_cons]
  obtain ⟨slot, halloc, hid, hseq, hhighest⟩ := tryAllocSlot_of_some (m := m) hfind
  rw [sequenceIds_new hpos, Option.some.injEq] at hseq
  have hle : (1 : UInt32) ≤ n := by
    rw [UInt32.le_iff_toNat_le]
    exact hpos
  have hslot : slot = firstSlot n := by
    obtain ⟨slotId, sequenceId, highestSlotId⟩ := slot
    rw [firstSlot, AllocatedSlot.mk.injEq]
    refine ⟨UInt32.toNat_inj.mp hid, hseq.symm, UInt32.toNat_inj.mp ?_⟩
    rw [UInt32.toNat_sub_of_le _ _ hle]
    simpa [new] using hhighest
  rw [halloc, hslot]

/-- The release of the first slot of a new session. -/
theorem releaseSlot_firstSlot (m : Build) {n : UInt32} (hn : n ≠ 0) :
    ((new n).take 0).releaseSlot m (firstSlot n).slotId
      = (some (), ((new n).take 0).free 0 2) := by
  have hpos : 0 < n.toNat := by
    rw [Nat.pos_iff_ne_zero]
    exact fun h => hn (UInt32.toNat_inj.mp h)
  have hlt : (firstSlot n).slotId.toNat < ((new n).take 0).inUse.length := by
    simpa [firstSlot, take, new] using hpos
  have hseq : ((new n).take 0).sequenceIds[0]? = some 1 := sequenceIds_new hpos
  rw [releaseSlot_of_lt hlt hseq]
  cases m <;> rfl

end SlotTable

/-- The request of RECLAIM_COMPLETE is well formed. -/
theorem wellFormed_reclaimArgs (sessionId : SessionId4) (slot : AllocatedSlot) :
    wellFormed (reclaimArgs sessionId slot) := by
  refine ⟨?_, trivial, ?_, ?_⟩
  · show (stringBytes "reclaim_complete").length < 2 ^ 32
    decide +kernel
  · show 2 < 2 ^ 32
    decide
  · simp [wellFormed, reclaimArgs, CompoundBuilder.sequence, CompoundBuilder.reclaimComplete,
      CompoundBuilder.push, CompoundBuilder.build, CompoundBuilder.withTag, CompoundBuilder.new]

/-! ### A whole connect -/

section Connect

variable {τ : Type} [RpcTransport τ]

open Nfs4Client

/-- The client with the session that the server created, and the slots `slots`. -/
def stored (c : Nfs4Client τ) (ex : ExchangeId4resok) (cs : CreateSession4resok) (t : τ)
    (slots : SlotTable) : Nfs4Client τ where
  transport := t
  auth := c.auth
  session := some
    { sessionId := cs.csrSessionid, clientId := ex.eirClientid, leaseTime := 90, slots }

/-- The number of slots the server grants. -/
abbrev granted (cs : CreateSession4resok) : UInt32 := cs.csrForeChanAttrs.caMaxrequests

/-- A connect panics or fails before the session is stored, or it goes on to step 3. -/
theorem run_connect_cases (m : Build) (c : Nfs4Client τ) (owner : ClientOwner4) :
    (∃ ex cs t, Created c.auth c.transport owner ex cs t ∧
      (connect m owner).run c = (reclaimComplete m cs.csrSessionid).run
        (stored c ex cs t (SlotTable.new (granted cs)))) ∨
    (MeetsEmptyOk c.auth c.transport owner ∧
      ∃ t', (connect m owner).run c = (.panic, { c with transport := t' })) ∨
    (∀ ex cs t, ¬ Created c.auth c.transport owner ex cs t) ∧
      ¬ MeetsEmptyOk c.auth c.transport owner ∧
      ∃ e t', (connect m owner).run c = (.err e, { c with transport := t' }) := by
  rcases run_exchangeId_cases c owner with
    ⟨ex, t₁, hex, hrun₁⟩ | ⟨res, t', hrep, hempty, hrun₁⟩ | ⟨hno, hne, e, t', hrun₁⟩
  · rcases run_createSession_cases { c with transport := t₁ } ex with
      ⟨cs, t₂, hcs, hrun₂⟩ | ⟨res, t', hrep, hempty, hrun₂⟩ | ⟨hno, hne, e, t', hrun₂⟩
    · refine .inl ⟨ex, cs, t₂, ⟨t₁, hex, hcs⟩, ?_⟩
      rw [connect, Action.run_bind_ok hrun₁, Action.run_bind_ok hrun₂,
        Action.run_bind_ok (Action.run_modify _ _)]
      rfl
    · refine .inr (.inl ⟨.inr ⟨ex, t₁, hex, res, t', hrep, hempty⟩, t', ?_⟩)
      rw [connect, Action.run_bind_ok hrun₁, Action.run_bind_panic hrun₂]
    · refine .inr (.inr ⟨?_, ?_, e, t', ?_⟩)
      · rintro ex' cs t ⟨t₂, hex', hcs⟩
        obtain ⟨rfl, rfl⟩ := hex.unique hex'
        exact hno cs t hcs
      · rintro (⟨res, t₂, hrep, hempty⟩ | ⟨ex', t₂, hex', res, t₃, hrep, hempty⟩)
        · -- EXCHANGE_ID had a result, so the reply without one is not its reply.
          obtain ⟨res₁, hrep₁, -, hhead⟩ := hex
          exact hrep₁.not_emptyOk hhead ⟨res, t₂, hrep, hempty⟩
        · obtain ⟨rfl, rfl⟩ := hex.unique hex'
          exact hne res t₃ hrep hempty
      · rw [connect, Action.run_bind_ok hrun₁, Action.run_bind_err hrun₂]
  · refine .inr (.inl ⟨.inl ⟨res, t', hrep, hempty⟩, t', ?_⟩)
    rw [connect, Action.run_bind_panic hrun₁]
  · refine .inr (.inr ⟨?_, ?_, e, t', ?_⟩)
    · rintro ex cs t ⟨t₁, hex, -⟩
      exact hno ex t₁ hex
    · rintro (⟨res, t₁, hrep, hempty⟩ | ⟨ex, t₁, hex, -⟩)
      · exact hne res t₁ hrep hempty
      · exact hno ex t₁ hex
    · rw [connect, Action.run_bind_err hrun₁]

/-- Step 3 on a session with slots. With a reply, the slot is released and the status decides.
Without one, the slot stays taken. -/
theorem run_reclaimComplete_cases (m : Build) (c : Nfs4Client τ) (ex : ExchangeId4resok)
    (cs : CreateSession4resok) (t : τ) (hn : granted cs ≠ 0) :
    (∃ res t', Replies c.auth t (reclaimArgs cs.csrSessionid (firstSlot (granted cs))) res t' ∧
      (reclaimComplete m cs.csrSessionid).run (stored c ex cs t (SlotTable.new (granted cs)))
        = (checkStatus res,
            stored c ex cs t' (((SlotTable.new (granted cs)).take 0).free 0 2))) ∨
    (∀ res t',
      ¬ Replies c.auth t (reclaimArgs cs.csrSessionid (firstSlot (granted cs))) res t') ∧
      ∃ e t', (reclaimComplete m cs.csrSessionid).run
          (stored c ex cs t (SlotTable.new (granted cs)))
        = (.err e, stored c ex cs t' ((SlotTable.new (granted cs)).take 0)) := by
  have halloc : (tryAllocSlot m).run (stored c ex cs t (SlotTable.new (granted cs)))
      = (.ok (some (firstSlot (granted cs))),
          stored c ex cs t ((SlotTable.new (granted cs)).take 0)) := by
    simp only [Action.run, tryAllocSlot, onSlots, stored, SlotTable.tryAllocSlot_new m hn]
  rcases run_compound_cases (stored c ex cs t ((SlotTable.new (granted cs)).take 0))
      (reclaimArgs cs.csrSessionid (firstSlot (granted cs))) with
    ⟨res, t', hrep, hrun⟩ | ⟨hnone, e, t', hrun⟩
  · refine .inl ⟨res, t', hrep, ?_⟩
    have hrelease : (releaseSlot m (firstSlot (granted cs)).slotId).run
        (stored c ex cs t' ((SlotTable.new (granted cs)).take 0))
          = (.ok (), stored c ex cs t' (((SlotTable.new (granted cs)).take 0).free 0 2)) := by
      simp only [Action.run, releaseSlot, onSlots, stored, SlotTable.releaseSlot_firstSlot m hn]
    rw [reclaimComplete, Action.run_bind_ok halloc]
    dsimp only
    rw [Action.run_bind_ok hrun]
    exact Action.run_bind_ok hrelease
  · refine .inr ⟨hnone, e, t', ?_⟩
    rw [reclaimComplete, Action.run_bind_ok halloc]
    dsimp only
    -- The `?` on the compound returns before the slot is released.
    rw [Action.run_bind_err hrun]
    rfl

/-- Step 3 on a session without slots: computing the highest slot id underflows in a checked
build, and in a release build there is no slot. -/
theorem run_reclaimComplete_zero (m : Build) (c : Nfs4Client τ) (ex : ExchangeId4resok)
    (cs : CreateSession4resok) (t : τ) (hn : granted cs = 0) :
    (reclaimComplete m cs.csrSessionid).run (stored c ex cs t (SlotTable.new (granted cs)))
      = (match m with
          | .checked => .panic
          | .release => .err .noSession,
        stored c ex cs t (SlotTable.new (granted cs))) := by
  rw [hn]
  cases m <;> rfl

/-! ### Panics -/

/-- A connect panics exactly on an `Ok` reply without results, and in a checked build on a
session without slots. -/
theorem connect_eq_panic_iff (m : Build) (c : Nfs4Client τ) (owner : ClientOwner4) :
    ((connect m owner).run c).1 = .panic ↔
      MeetsEmptyOk c.auth c.transport owner ∨
      m = .checked ∧ ∃ ex cs t, Created c.auth c.transport owner ex cs t ∧ granted cs = 0 := by
  rcases run_connect_cases m c owner with
    ⟨ex, cs, t, hcreated, hrun⟩ | ⟨hempty, t', hrun⟩ | ⟨hno, hne, e, t', hrun⟩
  · rw [hrun]
    by_cases hn : granted cs = 0
    · rw [run_reclaimComplete_zero m c ex cs t hn]
      cases m with
      | checked => exact iff_of_true rfl (.inr ⟨rfl, ex, cs, t, hcreated, hn⟩)
      | release => simp [hcreated.not_meetsEmptyOk]
    · -- With slots, neither the allocation nor the release of the first one can panic.
      have hne : ((reclaimComplete m cs.csrSessionid).run
          (stored c ex cs t (SlotTable.new (granted cs)))).1 ≠ .panic := by
        rcases run_reclaimComplete_cases m c ex cs t hn with
          ⟨res, t', -, hrun⟩ | ⟨-, e, t', hrun⟩
        · rw [hrun]
          exact checkStatus_ne_panic res
        · rw [hrun]
          simp
      refine iff_of_false hne ?_
      rintro (h | ⟨-, ex', cs', t', hcreated', h⟩)
      · exact hcreated.not_meetsEmptyOk h
      · obtain ⟨-, rfl, -⟩ := hcreated.unique hcreated'
        exact hn h
  · rw [hrun]
    exact iff_of_true rfl (.inl hempty)
  · rw [hrun]
    refine iff_of_false (by simp) ?_
    rintro (h | ⟨-, ex, cs, t, hcreated, -⟩)
    · exact hne h
    · exact hno ex cs t hcreated

/-- A disconnect never panics. -/
theorem disconnect_ne_panic (c : Nfs4Client τ) :
    ((disconnect : Action _ _ _).run c).1 ≠ .panic := by
  cases hc : c.session with
  | none =>
      rw [disconnect, Action.run_bind_ok (Action.run_get c)]
      simp [hc]
  | some session =>
      rw [disconnect, Action.run_bind_ok (Action.run_get c)]
      simp only [hc]
      rcases run_compound_cases c (destroyArgs session.sessionId) with
        ⟨res, t', -, hrun⟩ | ⟨-, e, t', hrun⟩
      · rw [Action.run_bind_ok hrun, Action.run_bind_ok (Action.run_modify _ _)]
        exact checkStatus_ne_panic res
      · rw [Action.run_bind_err hrun]
        simp

/-- Neither a connect nor a disconnect panics, on any transport and in any state of the
client, exactly when no `Ok` reply to the first two requests is without results and, in a
checked build, the server grants a session at least one slot. -/
theorem connect_disconnect_ne_panic_iff (m : Build) (c : Nfs4Client τ) (owner : ClientOwner4) :
    (((connect m owner).run c).1 ≠ .panic ∧ ((disconnect : Action _ _ _).run c).1 ≠ .panic) ↔
      ¬ MeetsEmptyOk c.auth c.transport owner ∧
      (m = .checked →
        ∀ ex cs t, Created c.auth c.transport owner ex cs t → granted cs ≠ 0) := by
  rw [and_iff_left (disconnect_ne_panic c), ne_eq, connect_eq_panic_iff, not_or]
  refine and_congr_right fun _ => ?_
  constructor
  · exact fun h hm ex cs t hcreated hn => h ⟨hm, ex, cs, t, hcreated, hn⟩
  · rintro h ⟨hm, ex, cs, t, hcreated, hn⟩
    exact h hm ex cs t hcreated hn

/-! ### The session after a failed connect -/

/-- The session is what it was: the same ids, and no slot of it is newly in use. -/
def SessionKept : Option SessionManager → Option SessionManager → Prop
  | none, none => True
  | some before, some after =>
      after.sessionId = before.sessionId ∧ after.clientId = before.clientId ∧
        ∀ i : Nat, after.slots.inUse[i]? = some true → before.slots.inUse[i]? = some true
  | _, _ => False

/-- A session that stays is kept. -/
theorem SessionKept.refl (o : Option SessionManager) : SessionKept o o := by
  cases o with
  | none => trivial
  | some s => exact ⟨rfl, rfl, fun _ h => h⟩

/-- The client holds a session with the ids of the one that the server created, and every
slot in `busy` is in use. -/
def Holds (c : Nfs4Client τ) (ex : ExchangeId4resok) (cs : CreateSession4resok)
    (busy : Nat → Prop) : Prop :=
  ∃ s, c.session = some s ∧ s.sessionId = cs.csrSessionid ∧ s.clientId = ex.eirClientid ∧
    ∀ i, busy i → s.slots.inUse[i]? = some true

/-- Storing a session keeps the client's when it is the same one, with these slots in use. -/
theorem sessionKept_stored {τ : Type} {c : Nfs4Client τ} {ex : ExchangeId4resok}
    {cs : CreateSession4resok} {t : τ} {slots : SlotTable} :
    SessionKept c.session (stored c ex cs t slots).session ↔
      Holds c ex cs fun i => slots.inUse[i]? = some true := by
  rw [Holds]
  cases c.session with
  | none => simp [SessionKept, stored]
  | some s =>
      simp only [SessionKept, stored, Option.some.injEq, exists_eq_left']
      rw [eq_comm (a := cs.csrSessionid), eq_comm (a := ex.eirClientid)]

/-- Only which slots are busy matters. -/
theorem Holds.congr {τ : Type} {c : Nfs4Client τ} {ex : ExchangeId4resok}
    {cs : CreateSession4resok} {busy busy' : Nat → Prop} (hbusy : ∀ i, busy i ↔ busy' i) :
    Holds c ex cs busy ↔ Holds c ex cs busy' := by
  rw [show busy = busy' from funext fun i => propext (hbusy i)]

/-- An error that leaves these slots in the new session. -/
theorem err_keeps_iff_holds {τ : Type} {c : Nfs4Client τ} {ex : ExchangeId4resok}
    {cs : CreateSession4resok} {t : τ} {slots : SlotTable} {busy : Nat → Prop} (e : NfsError)
    (hbusy : ∀ i, slots.inUse[i]? = some true ↔ busy i) :
    (∀ e' c', ((.err e : Outcome NfsError Unit), stored c ex cs t slots) = (.err e', c') →
      SessionKept c.session c'.session) ↔ Holds c ex cs busy := by
  rw [← Holds.congr hbusy, ← sessionKept_stored]
  constructor
  · exact fun h => h _ _ rfl
  · rintro h e' c' ⟨⟩
    exact h

/-- A session with slots has one. -/
theorem length_new_pos {n : UInt32} (hn : n ≠ 0) : 0 < (SlotTable.new n).inUse.length := by
  rw [SlotTable.new, List.length_replicate, Nat.pos_iff_ne_zero]
  exact fun h => hn (UInt32.toNat_inj.mp h)

/-- No slot of a new session is in use, also after the release of the first one. -/
theorem not_busy_new (n : UInt32) (i : Nat) :
    (SlotTable.new n).inUse[i]? ≠ some true ∧
      (n ≠ 0 → (((SlotTable.new n).take 0).free 0 2).inUse[i]? ≠ some true) := by
  have hnew : (SlotTable.new n).inUse[i]? ≠ some true := by
    rw [ne_eq, SlotTable.inUse_new]
    simp
  refine ⟨hnew, fun hn => ?_⟩
  have hpos := length_new_pos hn
  have hpos' : 0 < ((SlotTable.new n).take 0).inUse.length := by
    rw [SlotTable.take, List.length_set]
    exact hpos
  rw [SlotTable.inUse_free hpos', SlotTable.inUse_take hpos]
  split
  · simp
  · exact hnew

/-- The slot that step 3 takes is the only one in use until it is released. -/
theorem busy_taken {n : UInt32} (hn : n ≠ 0) (i : Nat) :
    ((SlotTable.new n).take 0).inUse[i]? = some true ↔ i = 0 := by
  have hpos := length_new_pos hn
  rw [SlotTable.inUse_take hpos]
  by_cases hi : 0 = i
  · rw [if_pos hi]
    exact iff_of_true rfl hi.symm
  · rw [if_neg hi]
    exact iff_of_false (not_busy_new n i).1 fun h => hi h.symm

/-- The answer of the server to step 3 of a connect. -/
def Reclaims (auth : AuthFlavor) (t : τ) (cs : CreateSession4resok) (res : Compound4res) : Prop :=
  granted cs ≠ 0 ∧
    ∃ t', Replies auth t (reclaimArgs cs.csrSessionid (firstSlot (granted cs))) res t'

/-- After the server created a session, a connect fails without harm exactly when step 3
panics or succeeds, or the client held that session before, with the slot that step 3 leaves
taken when there is no reply. -/
theorem reclaim_err_keeps_session_iff (m : Build) (c : Nfs4Client τ) (ex : ExchangeId4resok)
    (cs : CreateSession4resok) (t : τ) :
    (∀ e c', (reclaimComplete m cs.csrSessionid).run
        (stored c ex cs t (SlotTable.new (granted cs))) = (.err e, c') →
      SessionKept c.session c'.session) ↔
      m = .checked ∧ granted cs = 0 ∨ (∃ res, Reclaims c.auth t cs res ∧ res.status = .ok) ∨
      Holds c ex cs fun i => i = 0 ∧ granted cs ≠ 0 ∧ ∀ res, ¬ Reclaims c.auth t cs res := by
  by_cases hn : granted cs = 0
  · rw [run_reclaimComplete_zero m c ex cs t hn]
    have hno : ∀ res, ¬ Reclaims c.auth t cs res := fun res h => h.1 hn
    cases m with
    | checked => simp [hn]
    | release =>
        rw [or_iff_right (by simp), or_iff_right fun h => hno _ h.choose_spec.1]
        exact err_keeps_iff_holds _ fun i =>
          iff_of_false (not_busy_new _ i).1 fun hi => hi.2.1 hn
  · rw [or_iff_right fun h => hn h.2]
    rcases run_reclaimComplete_cases m c ex cs t hn with
      ⟨res, t', hrep, hrun⟩ | ⟨hnone, e, t', hrun⟩
    · -- There is a reply, so the slot was released, and the status decides.
      have hreclaims : Reclaims c.auth t cs res := ⟨hn, t', hrep⟩
      rw [hrun]
      by_cases hok : res.status = .ok
      · rw [checkStatus_eq_ok.mpr hok]
        exact iff_of_true (by simp) (.inl ⟨res, hreclaims, hok⟩)
      · have hnok : ¬ ∃ res', Reclaims c.auth t cs res' ∧ res'.status = .ok := by
          rintro ⟨res', ⟨-, t₂, hrep'⟩, hok'⟩
          obtain rfl := (hrep.unique hrep').1
          exact hok hok'
        rw [or_iff_right hnok, checkStatus, if_neg fun h => hok (isOk_iff.mp h)]
        exact err_keeps_iff_holds _ fun i =>
          iff_of_false ((not_busy_new _ i).2 hn) fun hi => hi.2.2 res hreclaims
    · -- There is no reply, so the slot is still taken.
      have hno : ∀ res, ¬ Reclaims c.auth t cs res := by
        rintro res ⟨-, t₂, hrep⟩
        exact hnone res t₂ hrep
      rw [hrun, or_iff_right fun h => hno _ h.choose_spec.1]
      refine err_keeps_iff_holds _ fun i => ?_
      rw [busy_taken hn i]
      exact (and_iff_left ⟨hn, hno⟩).symm

/-- A connect that fails leaves the session as it was, exactly when the server created no
session in it, or step 3 then panics or succeeds, or the client held that very session
before, with the slot that step 3 leaves taken when there is no reply. -/
theorem connect_err_keeps_session_iff (m : Build) (c : Nfs4Client τ) (owner : ClientOwner4) :
    (∀ e c', (connect m owner).run c = (.err e, c') → SessionKept c.session c'.session) ↔
      ∀ ex cs t, Created c.auth c.transport owner ex cs t →
        m = .checked ∧ granted cs = 0 ∨
        (∃ res, Reclaims c.auth t cs res ∧ res.status = .ok) ∨
        Holds c ex cs fun i => i = 0 ∧ granted cs ≠ 0 ∧ ∀ res, ¬ Reclaims c.auth t cs res := by
  rcases run_connect_cases m c owner with
    ⟨ex, cs, t, hcreated, hrun⟩ | ⟨hempty, t', hrun⟩ | ⟨hno, -, e, t', hrun⟩
  · rw [hrun, reclaim_err_keeps_session_iff m c ex cs t]
    constructor
    · intro h ex' cs' t₂ hcreated'
      obtain ⟨rfl, rfl, rfl⟩ := hcreated.unique hcreated'
      exact h
    · exact fun h => h ex cs t hcreated
  · rw [hrun]
    refine iff_of_true (by simp) fun ex cs t hcreated => ?_
    exact absurd hempty hcreated.not_meetsEmptyOk
  · rw [hrun]
    refine iff_of_true ?_ fun ex cs t hcreated => absurd hcreated (hno ex cs t)
    rintro e' c' ⟨⟩
    exact SessionKept.refl _

end Connect

/-! ### Scripted transports -/

/-- A transport that gives the outcomes of a list, one a call, and is then closed. -/
structure Script where
  outcomes : List (Except RpcError RpcResponse)

instance : RpcTransport Script where
  call t _ :=
    match t.outcomes with
    | [] => (.error (.transport (.unexpectedEof "closed")), t)
    | outcome :: outcomes => (outcome, ⟨outcomes⟩)

/-- The outcome of a call that a server answers with the reply `res`. -/
def answer (res : Compound4res) : Except RpcError RpcResponse :=
  match (encode res : Encoded UInt8 XdrError) with
  | .ok bytes => .ok { xid := 1, verf := .none, status := .success ⟨bytes⟩ }
  | .error e => .error (.xdr e)

/-- A client that is not connected, on a script of replies. -/
def scripted (replies : List Compound4res) : Nfs4Client Script :=
  Nfs4Client.new ⟨replies.map answer⟩ .none

/-- The owner of the sample connections. -/
def sampleOwner : ClientOwner4 where
  coVerifier := FixedOpaque.ofBytes 8 [1]
  coOwnerid := ⟨[7]⟩

/-- An EXCHANGE_ID reply with the client id 5. -/
def exchangeReply : Compound4res where
  status := .ok
  tag := ""
  resarray := [.exchangeId ⟨.ok, some
    { eirClientid := ⟨5⟩, eirSequenceid := 1, eirFlags := 0, eirStateProtect := .spNone
      eirServerOwner := ⟨0, ⟨[]⟩⟩, eirServerScope := ⟨[]⟩, eirServerImplId := [] }⟩]

/-- A CREATE_SESSION reply that grants a session with `slots` slots and the id `sid`. -/
def createReply (sid : UInt8) (slots : UInt32) : Compound4res where
  status := .ok
  tag := ""
  resarray := [.createSession ⟨.ok, some
    { csrSessionid := FixedOpaque.ofBytes 16 [sid], csrSequence := 1, csrFlags := 0
      csrForeChanAttrs := { defaultChan with caMaxrequests := slots }
      csrBackChanAttrs := defaultChan }⟩]

/-- The two panics: an `Ok` reply without results, and a session without slots. -/
theorem connect_panics :
    ((Nfs4Client.connect .checked sampleOwner).run (scripted [⟨.ok, "", []⟩])).1 = .panic ∧
    ((Nfs4Client.connect .checked sampleOwner).run
      (scripted [exchangeReply, createReply 9 0])).1 = .panic := by
  constructor <;> rfl

/-- The transport fails in step 3: the connect is an error, and the client that had no session
has one, whose first slot is taken for good. -/
theorem connect_err_leaves_session :
    ∃ e c', (Nfs4Client.connect .checked sampleOwner).run
        (scripted [exchangeReply, createReply 9 2]) = (.err e, c') ∧
      ¬ SessionKept (scripted [exchangeReply, createReply 9 2]).session c'.session ∧
      c'.session.map (·.slots.inUse) = some [true, false] :=
  ⟨_, _, rfl, by simp [SessionKept, scripted, Nfs4Client.new], rfl⟩

end NfsMount.Nfs4Client
