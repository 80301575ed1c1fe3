import NfsMount.Proofs.Auth

/-!
# `NfsMount.Proofs.AuthLength`: the length word of an auth and where the decoder stops

The body of an auth is opaque data: a length word, that many bytes, and padding to a whole
word. `announcedEnd` is where the auth ends by its length word. The decoder goes by other
rules. It skips the body of most flavors without the padding, and it reads the fields of an
AUTH_SYS body without looking at the length.

`Announced` is the rule for opaque data, and `LengthTells` says of which buffers the decoder
keeps it. In a reply, what stands behind the auth is the accept status, and in a call the
verifier and the body (`replyHeader`, `callCred`, `callVerf`).
-/

set_option autoImplicit false

namespace NfsMount.OncRpc

open NfsMount.Lib NfsMount.XdrCodec

/-! ### One auth -/

/-- The end of the auth at the front of the buffer, by its length word: the two words, and the
body up to a whole word. -/
def announcedEnd (b : Bytes) : Nat := 8 + (wordAt b 4 + 3) / 4 * 4

/-- The fields of an AUTH_SYS body end within the length of the body. -/
def FieldsFit (b : Bytes) : Prop :=
  wordAt b 0 = 1 → ∃ n, authSysSpan (b.drop 8) = some n ∧ n ≤ wordAt b 4

/-- A decoder that reads an auth at `i` goes on where the auth is announced to end, and the
fields that it has read fit the length word. -/
def AnnouncedAt {α : Type} (d : Decoder UInt8 XdrError α) (b : Bytes) (i : Nat) : Prop :=
  ∀ r, Decoder.EndsAt d b r →
    b.length = r.length + (i + announcedEnd (b.drop i)) ∧ FieldsFit (b.drop i)

/-- The rule for one auth. -/
def Announced (b : Bytes) : Prop :=
  AnnouncedAt (decode : Decoder UInt8 XdrError AuthFlavor) b 0

/-- A body that is skipped is as long as whole words, and the fields of an AUTH_SYS body take
as many bytes as its length word says. -/
def LengthTells (b : Bytes) : Prop :=
  (wordAt b 0 ≠ 1 → 8 + wordAt b 4 ≤ b.length → 4 ∣ wordAt b 4) ∧
  (wordAt b 0 = 1 → ∀ n, authSysSpan (b.drop 8) = some n → n = wordAt b 4)

/-- The fields of an AUTH_SYS body take whole words. -/
theorem dvd_authSysSpan {b : Bytes} {n : Nat} (h : authSysSpan b = some n) : 4 ∣ n := by
  obtain ⟨-, -, rfl⟩ := authSysSpan_eq_some.mp h
  have hname := dvd_add_xdrPadding (wordAt (b.drop 4) 0)
  rw [opaqueSpan]
  omega

/-- An auth is within its buffer. -/
theorem authSpan_le {b : Bytes} {n : Nat} (h : authSpan b = some n) : n ≤ b.length := by
  rw [authSpan] at h
  split at h
  · obtain ⟨m, hm, rfl⟩ := Option.map_eq_some_iff.mp h
    obtain ⟨-, hle, rfl⟩ := authSysSpan_eq_some.mp hm
    rw [List.length_drop] at hle
    omega
  · rw [Option.ite_none_right_eq_some, Option.some.injEq] at h
    omega

/-- The auth at the front of the buffer, by the number of bytes that the decoder takes. -/
theorem lengthTells_iff {b : Bytes} :
    LengthTells b ↔ ∀ n, authSpan b = some n → n = announcedEnd b ∧ FieldsFit b := by
  rw [LengthTells, announcedEnd]
  by_cases hsys : wordAt b 0 = 1
  · simp only [hsys, ne_eq, not_true_eq_false, false_imp_iff, true_and, true_imp_iff, authSpan,
      if_true, FieldsFit, Option.map_eq_some_iff]
    constructor
    · rintro h _ ⟨n, hn, rfl⟩
      have hdvd := dvd_authSysSpan hn
      have heq := h n hn
      exact ⟨by omega, n, hn, by omega⟩
    · intro h n hn
      obtain ⟨hend, n', hn', hle⟩ := h _ ⟨n, hn, rfl⟩
      obtain rfl := Option.some.inj (hn.symm.trans hn')
      -- The fields end with a whole word, so they cannot end in the padding.
      have hdvd := dvd_authSysSpan hn
      omega
  · simp only [hsys, ne_eq, not_false_eq_true, true_imp_iff, false_imp_iff, and_true, authSpan,
      if_false, FieldsFit, Option.ite_none_right_eq_some, Option.some.injEq]
    constructor
    · rintro h _ ⟨hle, rfl⟩
      have hdvd := h hle
      omega
    · intro h hle
      have hend := h _ ⟨hle, rfl⟩
      omega

/-- A decoder that stops where the auth at `i` ends. -/
theorem announcedAt_iff {α : Type} {d : Decoder UInt8 XdrError α} {b : Bytes} {i : Nat}
    {P : Prop} (hi : P → i ≤ b.length)
    (hd : ∀ r, Decoder.EndsAt d b r ↔ P ∧ ∃ n, authSpan (b.drop i) = some n ∧ r = b.drop (i + n)) :
    AnnouncedAt d b i ↔ (P → LengthTells (b.drop i)) := by
  simp only [AnnouncedAt, hd, lengthTells_iff]
  constructor
  · intro h hP n hn
    have hle := authSpan_le hn
    obtain ⟨hend, hfit⟩ := h _ ⟨hP, n, hn, rfl⟩
    rw [List.length_drop] at hle hend
    have := hi hP
    exact ⟨by omega, hfit⟩
  · rintro h r ⟨hP, n, hn, rfl⟩
    have hle := authSpan_le hn
    obtain ⟨rfl, hfit⟩ := h hP n hn
    have := hi hP
    rw [List.length_drop] at hle ⊢
    exact ⟨by omega, hfit⟩

/-- What the decoder announces is what the words tell. -/
theorem announced_iff (b : Bytes) : Announced b ↔ LengthTells b := by
  rw [Announced, announcedAt_iff (P := True) (fun _ => Nat.zero_le _), List.drop_zero,
    true_imp_iff]
  intro r
  rw [endsAt_auth, List.drop_zero, true_and]
  simp only [Nat.zero_add]

/-! ### Replies -/

/-- The decoder of a reply, up to the accept status. -/
def replyHeader : Decoder UInt8 XdrError (UInt32 × AuthFlavor) := do
  let xid ← decode
  let msgType : UInt32 ← decode
  if msgType ≠ MSG_TYPE_REPLY then
    Decoder.fail (.invalidEnum msgType "MsgType (expected REPLY=1)")
  else
    let replyStat : UInt32 ← decode
    if replyStat ≠ MSG_ACCEPTED then
      Decoder.fail (.invalidEnum replyStat "ReplyStat (expected ACCEPTED=0)")
    else
      let verf ← decode
      pure (xid, verf)

/-- The status is read where the header ends. -/
theorem decode_reply_eq :
    (decode : Decoder UInt8 XdrError RpcReply) = (do
      let (xid, verf) ← replyHeader
      let status ← decode
      pure { xid, verf, status }) := by
  rw [replyHeader, bind_assoc]
  refine bind_congr fun xid => ?_
  rw [bind_assoc]
  refine bind_congr fun msgType => ?_
  by_cases htype : msgType = MSG_TYPE_REPLY
  · simp only [htype, ne_eq, not_true_eq_false, if_false, bind_assoc]
    refine bind_congr fun replyStat => ?_
    by_cases hstat : replyStat = MSG_ACCEPTED
    · simp only [hstat, not_true_eq_false, if_false, bind_assoc, pure_bind]
    · simp only [if_pos hstat]
      rfl
  · simp only [if_pos htype]
    rfl

/-- A header that the decoder of a reply goes on from to the verifier. -/
def AcceptsReply (b : Bytes) : Prop := 12 ≤ b.length ∧ wordAt b 4 = 1 ∧ wordAt b 8 = 0

/-- The header of a reply ends behind its verifier. -/
theorem endsAt_replyHeader {b r : Bytes} :
    Decoder.EndsAt replyHeader b r ↔
      AcceptsReply b ∧ ∃ n, authSpan (b.drop 12) = some n ∧ r = b.drop (12 + n) := by
  rw [replyHeader, endsAt_word_bind, endsAt_word_bind, Decoder.endsAt_ite_fail,
    endsAt_word_bind, Decoder.endsAt_ite_fail, bind_pure_comp, Decoder.endsAt_map, endsAt_auth,
    AcceptsReply]
  simp only [List.drop_drop, List.length_drop, wordAt_drop, word_eq_iff, Nat.add_zero]
  constructor
  · rintro ⟨_, _, htype, _, hstat, h⟩
    exact ⟨⟨by omega, htype, hstat⟩, h⟩
  · rintro ⟨⟨hlen, htype, hstat⟩, h⟩
    exact ⟨by omega, by omega, htype, by omega, hstat, h⟩

/-! ### Calls -/

/-- The decoder of a call, up to the verifier. -/
def callCred : Decoder UInt8 XdrError (UInt32 × UInt32 × UInt32 × UInt32 × AuthFlavor) := do
  let xid ← decode
  let msgType : UInt32 ← decode
  if msgType ≠ MSG_TYPE_CALL then
    Decoder.fail (.invalidEnum msgType "MsgType (expected CALL=0)")
  else
    let rpcVers : UInt32 ← decode
    if rpcVers ≠ RPC_VERSION then
      Decoder.fail (.invalidEnum rpcVers "RpcVersion (expected 2)")
    else
      let program ← decode
      let version ← decode
      let procedure ← decode
      let cred ← decode
      pure (xid, program, version, procedure, cred)

/-- The decoder of a call, up to the body. -/
def callVerf :
    Decoder UInt8 XdrError ((UInt32 × UInt32 × UInt32 × UInt32 × AuthFlavor) × AuthFlavor) := do
  let header ← callCred
  let verf ← decode
  pure (header, verf)

/-- The verifier is read where the credential ends, and the body where the verifier ends. -/
theorem decode_call_eq :
    (decode : Decoder UInt8 XdrError RpcCall) = (do
      let ((xid, program, version, procedure, cred), verf) ← callVerf
      let body ← decodeRest
      pure { xid, program, version, procedure, cred, verf, body }) := by
  rw [callVerf, callCred, bind_assoc, bind_assoc]
  refine bind_congr fun xid => ?_
  rw [bind_assoc]
  refine bind_congr fun msgType => ?_
  by_cases htype : msgType = MSG_TYPE_CALL
  · simp only [htype, ne_eq, not_true_eq_false, if_false, bind_assoc]
    refine bind_congr fun rpcVers => ?_
    by_cases hvers : rpcVers = RPC_VERSION
    · simp only [hvers, not_true_eq_false, if_false, bind_assoc, pure_bind]
    · simp only [if_pos hvers]
      rfl
  · simp only [if_pos htype]
    rfl

/-- A header that the decoder of a call goes on from to the credential. -/
def AcceptsCall (b : Bytes) : Prop := 24 ≤ b.length ∧ wordAt b 4 = 0 ∧ wordAt b 8 = 2

/-- The credentials of a call end behind their span. -/
theorem endsAt_callCred {b r : Bytes} :
    Decoder.EndsAt callCred b r ↔
      AcceptsCall b ∧ ∃ n, authSpan (b.drop 24) = some n ∧ r = b.drop (24 + n) := by
  rw [callCred, endsAt_word_bind, endsAt_word_bind, Decoder.endsAt_ite_fail,
    endsAt_word_bind, Decoder.endsAt_ite_fail, endsAt_word_bind, endsAt_word_bind,
    endsAt_word_bind, bind_pure_comp, Decoder.endsAt_map, endsAt_auth, AcceptsCall]
  simp only [List.drop_drop, List.length_drop, wordAt_drop, word_eq_iff, Nat.add_zero]
  constructor
  · rintro ⟨_, _, htype, _, hvers, _, _, _, h⟩
    exact ⟨⟨by omega, htype, hvers⟩, h⟩
  · rintro ⟨⟨hlen, htype, hvers⟩, h⟩
    exact ⟨by omega, by omega, htype, by omega, hvers, by omega, by omega, by omega, h⟩

/-- The verifier of a call is behind its credentials. -/
theorem endsAt_callVerf {b r : Bytes} :
    Decoder.EndsAt callVerf b r ↔
      AcceptsCall b ∧ ∃ n, authSpan (b.drop 24) = some n ∧
        ∃ k, authSpan (b.drop (24 + n)) = some k ∧ r = b.drop (24 + n + k) := by
  have hverf : ∀ (header : UInt32 × UInt32 × UInt32 × UInt32 × AuthFlavor) (s r : Bytes),
      Decoder.EndsAt (do
        let verf : AuthFlavor ← decode
        pure (header, verf)) s r ↔
        ∃ k, authSpan s = some k ∧ r = s.drop k := by
    intro header s r
    rw [bind_pure_comp, Decoder.endsAt_map, endsAt_auth]
  rw [callVerf, Decoder.endsAt_bind_of_forall hverf]
  simp only [endsAt_callCred]
  constructor
  · rintro ⟨_, ⟨hcall, n, hn, rfl⟩, k, hk, rfl⟩
    exact ⟨hcall, n, hn, k, hk, by rw [List.drop_drop]⟩
  · rintro ⟨hcall, n, hn, k, hk, rfl⟩
    exact ⟨_, ⟨hcall, n, hn, rfl⟩, k, hk, by rw [List.drop_drop]⟩

/-- The verifier and the body of a call are read where the length words announce them. -/
def CallAnnounced (b : Bytes) : Prop :=
  AnnouncedAt callCred b 24 ∧ AnnouncedAt callVerf b (24 + announcedEnd (b.drop 24))

/-- Both auths of a call must tell their lengths, where they are reached. -/
theorem callAnnounced_iff (b : Bytes) :
    CallAnnounced b ↔
      (AcceptsCall b → LengthTells (b.drop 24) ∧
        ∀ n, authSpan (b.drop 24) = some n → LengthTells (b.drop (24 + n))) := by
  have hcred := announcedAt_iff (P := AcceptsCall b) (fun h => h.1) fun r => endsAt_callCred
  rw [CallAnnounced, hcred, imp_and]
  refine and_congr_right fun hends => ?_
  -- The credential ends where it is announced to end, so the verifier is read there.
  rw [announcedAt_iff (P := AcceptsCall b ∧
      authSpan (b.drop 24) = some (announcedEnd (b.drop 24))) ?_ fun r => ?_, and_imp]
  · refine forall_congr' fun hcall => ?_
    have hn := lengthTells_iff.mp (hends hcall)
    exact ⟨fun h n hspan => by rw [(hn n hspan).1]; exact h ((hn n hspan).1 ▸ hspan),
      fun h hspan => h _ hspan⟩
  · rintro ⟨hcall, hspan⟩
    have hle := authSpan_le hspan
    have h24 := hcall.1
    rw [List.length_drop] at hle
    omega
  · rw [endsAt_callVerf, and_assoc]
    refine and_congr_right fun hcall => ?_
    constructor
    · rintro ⟨n, hn, h⟩
      obtain ⟨rfl, -⟩ := lengthTells_iff.mp (hends hcall) n hn
      exact ⟨hn, h⟩
    · rintro ⟨hn, h⟩
      exact ⟨_, hn, h⟩

/-! ### Every buffer -/

/-- **The length word.** An auth ends where its length word announces, with an AUTH_SYS body
that fits it, exactly when a body that is skipped is as long as whole words, and the fields of
an AUTH_SYS body take as many bytes as its length word says. The accept status of a reply, and
the verifier and the body of a call, are read where the length words announce them exactly when
the auths before them are such. -/
theorem auth_length_iff (b : Bytes) :
    (Announced b ↔ LengthTells b) ∧
    (AnnouncedAt replyHeader b 12 ↔ (AcceptsReply b → LengthTells (b.drop 12))) ∧
    (CallAnnounced b ↔
      (AcceptsCall b → LengthTells (b.drop 24) ∧
        ∀ n, authSpan (b.drop 24) = some n → LengthTells (b.drop (24 + n)))) :=
  ⟨announced_iff b, announcedAt_iff (fun h => h.1) fun _ => endsAt_replyHeader,
    callAnnounced_iff b⟩

/-- An AUTH_NONE auth with one byte of body ends before its padding, in a reply as well. An
AUTH_SYS auth with the length 0 is accepted, and takes its 20 bytes of fields. -/
theorem auth_length_ignored :
    ¬ Announced [0, 0, 0, 0, 0, 0, 0, 1, 7, 0, 0, 0] ∧
    ¬ Announced ([0, 0, 0, 1, 0, 0, 0, 0] ++ List.replicate 20 0) ∧
    ¬ AnnouncedAt replyHeader
      [0, 0, 0, 9, 0, 0, 0, 1, 0, 0, 0, 0, 0, 0, 0, 0, 0, 0, 0, 1, 7, 0, 0, 0, 0, 0, 0, 5] 12 := by
  refine ⟨fun h => ?_, fun h => ?_, fun h => ?_⟩
  · exact absurd (h [0, 0, 0] ⟨.none, rfl⟩).1 (by decide)
  · exact absurd (h [] ⟨.sys ⟨0, "", 0, 0, []⟩, rfl⟩).1 (by decide)
  · exact absurd (h [0, 0, 0, 0, 0, 0, 5] ⟨(9, .none), rfl⟩).1 (by decide)

end NfsMount.OncRpc
