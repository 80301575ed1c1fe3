import NfsMount.Proofs.Resolve

/-!
# `NfsMount.Proofs.ResolveReply`: what a resolution looks at in a reply

The request of a path with `n` components has `n + 3` operations, and a server that answers it
returns `n + 3` results. `Answers` is that reply. The client looks at less: the status of the
whole reply, and the last result (`Carries`).

`resolve_path_ok_iff` is about any transport, any client and any path. A resolution returns a
filehandle exactly when the reply carries it, whatever the other results are.
-/

set_option autoImplicit false

namespace NfsMount.Mount

open NfsMount.Lib NfsMount.XdrCodec NfsMount.Nfs4Types NfsMount.OncRpc NfsMount.Nfs4Client

/-- The status of the reply is `Ok`, and its last result is a GETFH that returns `fh`. -/
def Carries (res : Compound4res) (fh : NfsFh4) : Prop :=
  res.status = .ok ∧ res.resarray.getLast? = some (.getFh ⟨.ok, some fh⟩)

/-- The reply answers the request of a resolution one by one, all with the status `Ok`. -/
def Answers (sessionId : SessionId4) (slot : AllocatedSlot) (components : List String)
    (res : Compound4res) (fh : NfsFh4) : Prop :=
  ∃ seq : Sequence4resok, seq.srSessionid = sessionId ∧ seq.srSequenceid = slot.sequenceId ∧
    seq.srSlotid = slot.slotId ∧
    res.resarray = .sequence ⟨.ok, some seq⟩ :: .putRootFh .ok ::
      (components.map (fun _ => .lookup .ok) ++ [.getFh ⟨.ok, some fh⟩])

/-- The client takes the filehandle of the last result. -/
theorem resolvedHandle_eq_ok_iff {res : Compound4res} {fh : NfsFh4} :
    resolvedHandle res = .ok fh ↔ Carries res fh := by
  rw [Carries, ← isOk_iff, resolvedHandle]
  by_cases hstatus : res.status.isOk
  · simp only [hstatus, Bool.not_true, Bool.false_eq_true, if_false, true_and]
    cases hlast : res.resarray.getLast? with
    | none => simp
    | some result =>
        cases result with
        | getFh r =>
            obtain ⟨status, resok⟩ := r
            by_cases hok : status.isOk
            · obtain rfl := isOk_iff.mp hok
              cases resok <;> simp [NfsStat4.isOk]
            · have hne : status ≠ .ok := mt isOk_iff.mpr hok
              simp [hok, hne]
        | _ => simp
  · simp [hstatus]

section Transport

variable {τ : Type} [RpcTransport τ] {c : Nfs4Client τ} {session : SessionManager}
  {m : Build} {path : String} {fh : NfsFh4}

/-- A resolution that returns a filehandle has taken a slot of the session. -/
theorem slot_of_resolvePath_ok (h : ((resolvePath m path).run c).1 = .ok fh) :
    ∃ session slot slots, c.session = some session ∧
      session.slots.tryAllocSlot m = some (some slot, slots) := by
  -- Without a session or without a free slot nothing is sent.
  cases hsession : c.session with
  | none => simp [run_resolvePath_none m path hsession] at h
  | some session =>
      cases halloc : session.slots.tryAllocSlot m with
      | none => simp [run_resolvePath_panic path hsession halloc] at h
      | some alloc =>
          obtain ⟨_ | slot, slots⟩ := alloc
          · simp [run_resolvePath_full path hsession halloc] at h
          · exact ⟨session, slot, slots, rfl, halloc⟩

/-- A resolution that has a slot, by the reply of the transport. -/
theorem resolvePath_slot_ok_iff {slot : AllocatedSlot} {slots : SlotTable}
    (hsession : c.session = some session)
    (halloc : session.slots.tryAllocSlot m = some (some slot, slots)) :
    ((resolvePath m path).run c).1 = .ok fh ↔
      (slots.releaseSlot m slot.slotId).1.isSome ∧ ∃ res t',
        Replies c.auth c.transport (resolveArgs session.sessionId slot (toNfsComponents path))
          res t' ∧ Carries res fh := by
  rcases run_compound_cases (withSlots c session slots c.transport)
      (resolveArgs session.sessionId slot (toNfsComponents path))
    with ⟨res, t', hreplies, hcompound⟩ | ⟨hnone, e, t', hcompound⟩
  · rw [run_resolvePath_slot hsession halloc (Action.run_attempt_ok hcompound)]
    rcases slots.releaseSlot m slot.slotId with ⟨_ | ⟨⟩, slots'⟩
    · simp
    · show resolvedHandle res = .ok fh ↔ _
      rw [resolvedHandle_eq_ok_iff]
      refine ⟨fun hcarries => ⟨rfl, res, t', hreplies, hcarries⟩, ?_⟩
      rintro ⟨-, res', t'', hreplies', hcarries⟩
      rwa [(hreplies.unique hreplies').1]
  · rw [run_resolvePath_slot hsession halloc (Action.run_attempt_err hcompound)]
    refine iff_of_false ?_ fun ⟨_, res, t'', hreplies, _⟩ => hnone res t'' hreplies
    rcases slots.releaseSlot m slot.slotId with ⟨_ | ⟨⟩, slots'⟩
    · simp
    · show ¬ Outcome.err (MountError.nfs e) = Outcome.ok fh
      simp

/-- **Path resolution looks at the last result.** On any transport, a resolution returns the
filehandle `fh` exactly when the client has a session, a slot is free and can be released, and
the reply to the request has the status `Ok` and ends with a GETFH that returns `fh`. The
other results of the reply do not matter. -/
theorem resolve_path_ok_iff (m : Build) (path : String) (c : Nfs4Client τ) (fh : NfsFh4) :
    ((resolvePath m path).run c).1 = .ok fh ↔
      ∃ session slot slots, c.session = some session ∧
        session.slots.tryAllocSlot m = some (some slot, slots) ∧
        (slots.releaseSlot m slot.slotId).1.isSome ∧ ∃ res t',
          Replies c.auth c.transport (resolveArgs session.sessionId slot (toNfsComponents path))
            res t' ∧ Carries res fh := by
  constructor
  · intro h
    obtain ⟨session, slot, slots, hsession, halloc⟩ := slot_of_resolvePath_ok h
    exact ⟨session, slot, slots, hsession, halloc,
      (resolvePath_slot_ok_iff hsession halloc).mp h⟩
  · rintro ⟨session, slot, slots, hsession, halloc, hreply⟩
    exact (resolvePath_slot_ok_iff hsession halloc).mpr hreply

end Transport

/-- A client with a session of one slot, on a script of replies. -/
def scriptedSession (replies : List Compound4res) : Nfs4Client Script where
  transport := ⟨replies.map answer⟩
  auth := .none
  session := some
    { sessionId := FixedOpaque.ofBytes 16 [9], clientId := ⟨5⟩, leaseTime := 90
      slots := SlotTable.new 1 }

/-- Two replies that do not answer their request: a GETFH alone, and the results for another
session with a LOOKUP that failed. -/
theorem resolve_path_trusts :
    (∀ results ∈ ([[.getFh ⟨.ok, some ⟨[7]⟩⟩],
        [.sequence ⟨.ok, some ⟨FixedOpaque.ofBytes 16 [8], 5, 3, 0, 0, 0⟩⟩, .putRootFh .ok,
          .lookup .noent, .getFh ⟨.ok, some ⟨[7]⟩⟩]] : List (List NfsResOp4)),
      ((resolvePath .checked "docs").run (scriptedSession [⟨.ok, "", results⟩])).1
          = .ok ⟨[7]⟩ ∧
        ∀ slot, ¬ Answers (FixedOpaque.ofBytes 16 [9]) slot (toNfsComponents "docs")
          ⟨.ok, "", results⟩ ⟨[7]⟩) ∧
    toNfsComponents "docs" = ["docs"] := by
  have hcomponents : toNfsComponents "docs" = ["docs"] := by decide +kernel
  refine ⟨?_, hcomponents⟩
  rw [hcomponents, List.forall_mem_cons, List.forall_mem_singleton]
  refine ⟨⟨by decide +kernel, ?_⟩, by decide +kernel, ?_⟩
  · rintro slot ⟨seq, -, -, -, hresults⟩
    simp at hresults
  · rintro slot ⟨seq, -, -, -, hresults⟩
    simp at hresults

end NfsMount.Mount
