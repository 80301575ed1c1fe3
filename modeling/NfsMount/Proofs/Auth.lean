import NfsMount.OncRpc.Message
import NfsMount.Proofs.XdrCodec

/-!
# `NfsMount.Proofs.Auth`: where an auth ends, and when decoding one panics

The length words of a buffer fix how many bytes an auth takes. `authSpan` reads that number
off the words, and `endsAt_auth` says the decoder stops there or returns no value.

Of the three arms of the decoder, AUTH_SYS reads fields that check the buffer, and an
unknown flavor is compared with what is left before it is skipped. AUTH_NONE is skipped
unchecked. `NoneOverrun` is an AUTH_NONE auth whose length word announces more bytes than
there are, and `rpc_decoders_panic_iff` says the decoders of this crate panic where one of
their auths is such and nowhere else.
-/

set_option autoImplicit false

namespace NfsMount.OncRpc

open NfsMount.Lib NfsMount.XdrCodec IsCodec

/-! ### AUTH_SYS -/

instance : XdrWf AuthSys where
  wellFormed v :=
    wellFormed v.stamp ∧ wellFormed v.machineName ∧ wellFormed v.uid ∧ wellFormed v.gid ∧
    wellFormed v.gids

/-- An AUTH_SYS body is a record. -/
theorem isCodec_authSys :
    IsCodec (wellFormed (α := AuthSys)) encodeAuthSys decodeAuthSys :=
  record <|
    field AuthSys.stamp isCodec fun stamp =>
    field AuthSys.machineName isCodec fun machineName =>
    field AuthSys.uid isCodec fun uid =>
    field AuthSys.gid isCodec fun gid =>
    last AuthSys.gids isCodec fun v gids => by cases v; simp [and_assoc]

/-- The bytes of the body of an AUTH_SYS auth: the stamp, the name, two words, the count and
that many words. `none` when they are not all there, or the name is not UTF-8. -/
def authSysSpan (b : Bytes) : Option Nat :=
  let name := opaqueSpan (b.drop 4)
  let gids := 4 * wordAt b (12 + name)
  match fromUtf8 ((b.drop 8).take (wordAt b 4)) with
  | .error _ => none
  | .ok _ => if 16 + name + gids ≤ b.length then some (16 + name + gids) else none

/-- The bytes of the auth at the front of the buffer. -/
def authSpan (b : Bytes) : Option Nat :=
  if wordAt b 0 = 1 then (authSysSpan (b.drop 8)).map (8 + ·)
  else if 8 + wordAt b 4 ≤ b.length then some (8 + wordAt b 4)
  else none

/-- The span of an AUTH_SYS body, where the buffer holds all of one. -/
theorem authSysSpan_eq_some {b : Bytes} {n : Nat} :
    authSysSpan b = some n ↔
      (∃ s, stringBytes s = (b.drop 8).take (wordAt b 4)) ∧
      16 + opaqueSpan (b.drop 4) + 4 * wordAt b (12 + opaqueSpan (b.drop 4)) ≤ b.length ∧
      n = 16 + opaqueSpan (b.drop 4) + 4 * wordAt b (12 + opaqueSpan (b.drop 4)) := by
  rw [authSysSpan]
  cases hutf : fromUtf8 ((b.drop 8).take (wordAt b 4)) with
  | error e =>
      refine iff_of_false (by simp) ?_
      rintro ⟨⟨s, hs⟩, -⟩
      rw [fromUtf8_eq_ok_iff.mpr hs] at hutf
      simp at hutf
  | ok s =>
      have hs := fromUtf8_eq_ok_iff.mp hutf
      simp only [Option.ite_none_right_eq_some, Option.some.injEq]
      exact ⟨fun ⟨hle, hn⟩ => ⟨⟨s, hs⟩, hle, hn.symm⟩, fun ⟨_, hle, hn⟩ => ⟨hle, hn.symm⟩⟩

/-- The fields after the name: two words, a count and that many words. -/
private theorem endsAt_authIds (stamp : UInt32) (machineName : String) (s r : Bytes) :
    Decoder.EndsAt (do
      let uid ← decode
      let gid ← decode
      let gids ← decode
      pure ({ stamp, machineName, uid, gid, gids } : AuthSys)) s r ↔
      12 + 4 * wordAt s 8 ≤ s.length ∧ r = s.drop (12 + 4 * wordAt s 8) := by
  rw [endsAt_word_bind, endsAt_word_bind, bind_pure_comp, Decoder.endsAt_map, endsAt_words]
  simp only [List.drop_drop, List.length_drop, wordAt_drop, Nat.add_zero, Nat.reduceAdd]
  rw [← Nat.add_assoc]
  exact ⟨fun ⟨_, _, h, hr⟩ => ⟨by omega, hr⟩, fun ⟨h, hr⟩ => ⟨by omega, by omega, by omega, hr⟩⟩

/-- An AUTH_SYS body ends behind its span. -/
theorem endsAt_authSys {b r : Bytes} :
    Decoder.EndsAt decodeAuthSys b r ↔ ∃ n, authSysSpan b = some n ∧ r = b.drop n := by
  rw [decodeAuthSys, endsAt_word_bind, Decoder.endsAt_bind_of_forall (endsAt_authIds _)]
  simp only [authSysSpan_eq_some, endsAt_string, List.drop_drop, List.length_drop, wordAt_drop,
    Nat.add_zero, Nat.reduceAdd]
  -- The group count stands behind the stamp, the name and the two ids.
  have hcount : 4 + opaqueSpan (b.drop 4) + 8 = 12 + opaqueSpan (b.drop 4) := by omega
  constructor
  · rintro ⟨_, s, ⟨hle, rfl, hname⟩, h, rfl⟩
    rw [wordAt_drop, hcount, List.length_drop] at h
    rw [wordAt_drop, hcount, List.drop_drop]
    exact ⟨_, ⟨hname, by omega, rfl⟩, by congr 1; omega⟩
  · rintro ⟨n, ⟨hname, hle, rfl⟩, rfl⟩
    refine ⟨by omega, _, ⟨by omega, rfl, hname⟩, ?_⟩
    rw [wordAt_drop, hcount, List.length_drop, List.drop_drop]
    exact ⟨by omega, by congr 1; omega⟩

/-! ### Every flavor -/

/-- Skipping the body of an AUTH_NONE auth panics when the body is not all there. -/
theorem run_decodeAuthBody_none (bodyLen : Nat) (s : Bytes) :
    (decodeAuthBody AUTH_NONE bodyLen).run s =
      if bodyLen ≤ s.length then .ok (.none, s.drop bodyLen) else .panic := by
  rw [decodeAuthBody, if_pos rfl]
  by_cases hpos : 0 < bodyLen
  · rw [if_pos hpos, Decoder.run_bind]
    by_cases hle : bodyLen ≤ s.length
    · rw [Decoder.run_advance_of_le hle, if_pos hle]
      rfl
    · rw [Decoder.run_advance_of_lt (Nat.not_le.mp hle), if_neg hle]
      rfl
  · have hzero : bodyLen = 0 := by omega
    rw [if_neg hpos, hzero, if_pos (Nat.zero_le _)]
    rfl

/-- Skipping the body of an unknown flavor checks the buffer first. -/
theorem run_decodeAuthBody_unknown {flavor : UInt32} (hnone : flavor ≠ AUTH_NONE)
    (hsys : flavor ≠ AUTH_SYS) (bodyLen : Nat) (s : Bytes) :
    (decodeAuthBody flavor bodyLen).run s =
      if bodyLen ≤ s.length then .ok (.none, s.drop bodyLen)
      else .err (.bufferTooShort bodyLen s.length) := by
  rw [decodeAuthBody, if_neg hnone, if_neg hsys,
    Decoder.run_bind_ok (Decoder.run_remaining _)]
  by_cases hle : bodyLen ≤ s.length
  · rw [if_neg (Nat.not_lt.mpr hle), if_pos hle,
      Decoder.run_bind_ok (Decoder.run_advance_of_le hle), Decoder.run_pure]
  · rw [if_pos (Nat.not_le.mp hle), if_neg hle, Decoder.run_fail]

/-- The flavor and the length are the first two words. -/
theorem run_auth_of_le {b : Bytes} (h : 8 ≤ b.length) :
    (decode : Decoder UInt8 XdrError AuthFlavor).run b =
      (decodeAuthBody (UInt32.ofNat (wordAt b 0)) (wordAt b 4)).run (b.drop 8) := by
  have h4 : 4 ≤ (b.drop 4).length := by rw [List.length_drop]; omega
  show (decode >>= _ : Decoder UInt8 XdrError AuthFlavor).run b = _
  rw [Decoder.run_bind_ok (run_decodeWord_eq_ok.mpr ⟨by omega, rfl, rfl⟩),
    Decoder.run_bind_ok (run_decodeWord_eq_ok.mpr ⟨h4, rfl, rfl⟩), toNat_wordAt, wordAt_drop,
    List.drop_drop]

/-- Without them there is an error. -/
theorem run_auth_of_lt {b : Bytes} (h : b.length < 8) :
    ∃ e, (decode : Decoder UInt8 XdrError AuthFlavor).run b = .err e := by
  show ∃ e, (decode >>= _ : Decoder UInt8 XdrError AuthFlavor).run b = .err e
  by_cases h4 : b.length < 4
  · obtain ⟨e, he⟩ := takes_word.short b h4
    exact ⟨e, Decoder.run_bind_err he⟩
  · have hlt : (b.drop 4).length < 4 := by rw [List.length_drop]; omega
    obtain ⟨e, he⟩ := takes_word.short _ hlt
    refine ⟨e, ?_⟩
    rw [Decoder.run_bind_ok (run_decodeWord_eq_ok.mpr ⟨by omega, rfl, rfl⟩),
      Decoder.run_bind_err he]

/-- A word that was read is a constant when their numbers are equal. -/
theorem word_eq_iff (b : Bytes) (i : Nat) (c : UInt32) :
    UInt32.ofNat (wordAt b i) = c ↔ wordAt b i = c.toNat :=
  toNat_ofNat_eq_iff (wordAt_lt b i)

/-- Stopping after a number of bytes that must be there. -/
private theorem endsAt_of_run_ite {d : Decoder UInt8 XdrError AuthFlavor} {n : Nat}
    {s r : Bytes} {o : Outcome XdrError (AuthFlavor × Bytes)}
    (hd : d.run s = if n ≤ s.length then .ok (.none, s.drop n) else o) (ho : ∀ x, o ≠ .ok x) :
    Decoder.EndsAt d s r ↔ n ≤ s.length ∧ r = s.drop n := by
  rw [Decoder.EndsAt, hd]
  by_cases hle : n ≤ s.length
  · simp [hle, eq_comm]
  · simp [hle, ho]

/-- Outside AUTH_SYS the body ends where its length word says. -/
theorem endsAt_authBody_of_ne {flavor : UInt32} (hsys : flavor ≠ AUTH_SYS) (bodyLen : Nat)
    {s r : Bytes} :
    Decoder.EndsAt (decodeAuthBody flavor bodyLen) s r ↔
      bodyLen ≤ s.length ∧ r = s.drop bodyLen := by
  by_cases hnone : flavor = AUTH_NONE
  · subst hnone
    exact endsAt_of_run_ite (run_decodeAuthBody_none bodyLen s) (by simp)
  · exact endsAt_of_run_ite (run_decodeAuthBody_unknown hnone hsys bodyLen s)
      (by simp)

/-- The AUTH_SYS arm does not look at the length. -/
theorem endsAt_authBody_sys (bodyLen : Nat) {s r : Bytes} :
    Decoder.EndsAt (decodeAuthBody AUTH_SYS bodyLen) s r ↔
      ∃ n, authSysSpan s = some n ∧ r = s.drop n := by
  rw [decodeAuthBody, if_neg (by decide), if_pos rfl, Decoder.endsAt_map, endsAt_authSys]

/-- The decoder stops where the length words say the auth ends. -/
theorem endsAt_auth {b r : Bytes} :
    Decoder.EndsAt (decode : Decoder UInt8 XdrError AuthFlavor) b r ↔
      ∃ n, authSpan b = some n ∧ r = b.drop n := by
  have hsys : UInt32.ofNat (wordAt b 0) = AUTH_SYS ↔ wordAt b 0 = 1 := word_eq_iff b 0 AUTH_SYS
  show Decoder.EndsAt (decode >>= _) b r ↔ _
  rw [endsAt_word_bind, endsAt_word_bind, toNat_wordAt, wordAt_drop, List.drop_drop,
    List.length_drop, authSpan]
  -- Only AUTH_SYS ends elsewhere than its length word says.
  by_cases hflavor : wordAt b 0 = 1
  · rw [hsys.mpr hflavor, endsAt_authBody_sys]
    simp only [if_pos hflavor, Option.map_eq_some_iff]
    constructor
    · rintro ⟨_, _, n, hn, rfl⟩
      exact ⟨8 + n, ⟨n, hn, rfl⟩, by rw [List.drop_drop]⟩
    · rintro ⟨_, ⟨n, hn, rfl⟩, rfl⟩
      obtain ⟨-, hle, -⟩ := authSysSpan_eq_some.mp hn
      rw [List.length_drop] at hle
      exact ⟨by omega, by omega, n, hn, by rw [List.drop_drop]⟩
  · rw [endsAt_authBody_of_ne (fun h => hflavor (hsys.mp h)), List.length_drop, List.drop_drop,
      Nat.add_zero]
    simp only [if_neg hflavor, Option.ite_none_right_eq_some, Option.some.injEq]
    constructor
    · rintro ⟨_, _, hle, rfl⟩
      exact ⟨_, ⟨by omega, rfl⟩, rfl⟩
    · rintro ⟨_, ⟨hle, rfl⟩, rfl⟩
      exact ⟨by omega, by omega, by omega, rfl⟩

/-! ### Panics -/

/-- An AUTH_NONE auth whose body is longer than what is left of the buffer. -/
def NoneOverrun (b : Bytes) : Prop :=
  8 ≤ b.length ∧ wordAt b 0 = 0 ∧ b.length < 8 + wordAt b 4

/-- An auth panics when it is AUTH_NONE with a length past the end. -/
theorem run_auth_eq_panic {b : Bytes} :
    (decode : Decoder UInt8 XdrError AuthFlavor).run b = .panic ↔ NoneOverrun b := by
  have hflavor : UInt32.ofNat (wordAt b 0) = AUTH_NONE ↔ wordAt b 0 = 0 :=
    word_eq_iff b 0 AUTH_NONE
  by_cases h8 : b.length < 8
  · obtain ⟨e, he⟩ := run_auth_of_lt h8
    rw [he]
    exact iff_of_false (by simp) fun h => absurd h.1 (Nat.not_le.mpr h8)
  · rw [run_auth_of_le (Nat.not_lt.mp h8), NoneOverrun, ← hflavor]
    by_cases hnone : UInt32.ofNat (wordAt b 0) = AUTH_NONE
    · rw [hnone, run_decodeAuthBody_none, List.length_drop]
      by_cases hle : wordAt b 4 ≤ b.length - 8
      · rw [if_pos hle]
        exact iff_of_false (by simp) fun h => by omega
      · rw [if_neg hle]
        exact iff_of_true rfl ⟨by omega, rfl, by omega⟩
    -- The other two arms compare the lengths with what is left before they move the cursor.
    · refine iff_of_false ?_ fun h => hnone h.2.1
      by_cases hsys : UInt32.ofNat (wordAt b 0) = AUTH_SYS
      · rw [decodeAuthBody, if_neg hnone, if_pos hsys]
        exact isCodec_authSys.noPanic.map _ _
      · rw [run_decodeAuthBody_unknown hnone hsys]
        split <;> simp

/-- What is taken as it is cannot panic. -/
theorem noPanic_decodeRest : Decoder.NoPanic decodeRest := by
  intro b h
  rw [decodeRest, Decoder.run_bind_ok (Decoder.run_remaining b),
    Decoder.run_bind_ok (Decoder.run_splitTo_of_le (Nat.le_refl _))] at h
  simp at h

/-- Decoding an accept status never panics: its words check the buffer, and the result of a
successful call is what is left. -/
theorem noPanic_acceptStatus :
    Decoder.NoPanic (decode : Decoder UInt8 XdrError AcceptStatus) := by
  have hmismatch : Decoder.NoPanic (do
      let low ← decode
      let high ← decode
      pure (AcceptStatus.programMismatch low high) : Decoder UInt8 XdrError AcceptStatus) :=
    isCodec.noPanic.bind isCodec.reads fun low _ _ =>
      isCodec.noPanic.bind isCodec.reads fun high _ _ => Decoder.noPanic_pure _
  intro b h
  obtain ⟨-, h⟩ := run_word_bind_eq_panic.mp h
  revert h
  split
  · exact noPanic_decodeRest.map _ _
  split
  · exact Decoder.noPanic_pure _ _
  split
  · exact hmismatch _
  split
  · exact Decoder.noPanic_pure _ _
  split
  · exact Decoder.noPanic_pure _ _
  split
  · exact Decoder.noPanic_pure _ _
  · exact Decoder.noPanic_fail _ _

/-- A reply whose header is accepted and whose verifier overruns the buffer. -/
def ReplyOverrun (b : Bytes) : Prop :=
  12 ≤ b.length ∧ wordAt b 4 = 1 ∧ wordAt b 8 = 0 ∧ NoneOverrun (b.drop 12)

/-- A call whose header is accepted and whose credential overruns the buffer, or ends before
a verifier that does. -/
def CallOverrun (b : Bytes) : Prop :=
  24 ≤ b.length ∧ wordAt b 4 = 0 ∧ wordAt b 8 = 2 ∧
    (NoneOverrun (b.drop 24) ∨
      ∃ n, authSpan (b.drop 24) = some n ∧ NoneOverrun (b.drop (24 + n)))

/-- A reply panics when its verifier does. -/
theorem run_reply_eq_panic {b : Bytes} :
    (decode : Decoder UInt8 XdrError RpcReply).run b = .panic ↔ ReplyOverrun b := by
  -- Behind the verifier nothing panics, so a panic is one of the verifier.
  have hstatus : ∀ (xid : UInt32) (verf : AuthFlavor), Decoder.NoPanic (do
      let status ← decode
      pure ({ xid, verf, status } : RpcReply) : Decoder UInt8 XdrError RpcReply) := by
    intro xid verf
    rw [bind_pure_comp]
    exact noPanic_acceptStatus.map _
  show (decode >>= _ : Decoder UInt8 XdrError RpcReply).run b = .panic ↔ _
  rw [run_word_bind_eq_panic, run_word_bind_eq_panic, Decoder.run_ite_fail_eq_panic,
    run_word_bind_eq_panic, Decoder.run_ite_fail_eq_panic,
    Decoder.run_bind_eq_panic_of_forall (hstatus _), run_auth_eq_panic, ReplyOverrun]
  simp only [List.drop_drop, List.length_drop, wordAt_drop, word_eq_iff, Nat.add_zero]
  constructor
  · rintro ⟨_, _, htype, _, hstat, h⟩
    exact ⟨by omega, htype, hstat, h⟩
  · rintro ⟨hlen, htype, hstat, h⟩
    exact ⟨by omega, by omega, htype, by omega, hstat, h⟩

/-- Two auths in a row panic in the first, or in the second where the first one ends. -/
theorem run_two_auths_eq_panic {α : Type} {f : AuthFlavor → AuthFlavor → Decoder UInt8 XdrError α}
    (hf : ∀ cred verf, Decoder.NoPanic (f cred verf)) {s : Bytes} :
    (do
      let cred ← decode
      let verf ← decode
      f cred verf : Decoder UInt8 XdrError α).run s = .panic ↔
      NoneOverrun s ∨ ∃ n, authSpan s = some n ∧ NoneOverrun (s.drop n) := by
  rw [Decoder.run_bind_eq_panic, run_auth_eq_panic]
  refine or_congr_right ?_
  constructor
  · rintro ⟨cred, t, hcred, h⟩
    obtain ⟨n, hn, rfl⟩ := endsAt_auth.mp ⟨cred, hcred⟩
    rw [Decoder.run_bind_eq_panic_of_forall (hf cred), run_auth_eq_panic] at h
    exact ⟨n, hn, h⟩
  · rintro ⟨n, hn, h⟩
    obtain ⟨cred, hcred⟩ := endsAt_auth.mpr ⟨n, hn, rfl⟩
    refine ⟨cred, _, hcred, ?_⟩
    rw [Decoder.run_bind_eq_panic_of_forall (hf cred), run_auth_eq_panic]
    exact h

/-- A call panics when its credentials do, or its verifier behind them. -/
theorem run_call_eq_panic {b : Bytes} :
    (decode : Decoder UInt8 XdrError RpcCall).run b = .panic ↔ CallOverrun b := by
  -- Behind the two auths nothing panics.
  have hbody : ∀ (xid program version procedure : UInt32) (cred verf : AuthFlavor),
      Decoder.NoPanic (do
        let body ← decodeRest
        pure ({ xid, program, version, procedure, cred, verf, body } : RpcCall)) := by
    intro xid program version procedure cred verf
    rw [bind_pure_comp]
    exact noPanic_decodeRest.map _
  show (decode >>= _ : Decoder UInt8 XdrError RpcCall).run b = .panic ↔ _
  rw [run_word_bind_eq_panic, run_word_bind_eq_panic, Decoder.run_ite_fail_eq_panic,
    run_word_bind_eq_panic, Decoder.run_ite_fail_eq_panic, run_word_bind_eq_panic,
    run_word_bind_eq_panic, run_word_bind_eq_panic, run_two_auths_eq_panic (hbody _ _ _ _),
    CallOverrun]
  simp only [List.drop_drop, List.length_drop, wordAt_drop, word_eq_iff, Nat.add_zero]
  constructor
  · rintro ⟨_, _, htype, _, hvers, _, _, _, h⟩
    exact ⟨by omega, htype, hvers, h⟩
  · rintro ⟨hlen, htype, hvers, h⟩
    exact ⟨by omega, by omega, htype, by omega, hvers, by omega, by omega, by omega, h⟩

/-- The decoders of the crate panic on exactly these buffers: an auth on one whose AUTH_NONE
body overruns it, a reply or a call on one where such an auth follows an accepted header, and
an accept status on none. -/
theorem rpc_decoders_panic_iff (b : Bytes) :
    ((decode : Decoder UInt8 XdrError AuthFlavor).run b ≠ .panic ↔ ¬ NoneOverrun b) ∧
    ((decode : Decoder UInt8 XdrError RpcCall).run b ≠ .panic ↔ ¬ CallOverrun b) ∧
    (decode : Decoder UInt8 XdrError AcceptStatus).run b ≠ .panic ∧
    ((decode : Decoder UInt8 XdrError RpcReply).run b ≠ .panic ↔ ¬ ReplyOverrun b) :=
  ⟨not_congr run_auth_eq_panic, not_congr run_call_eq_panic, noPanic_acceptStatus b,
    not_congr run_reply_eq_panic⟩

/-- Eight bytes that announce one more byte of body panic the auth decoder. -/
theorem auth_none_overrun_panics :
    ¬ ∀ b : Bytes,
      (decode : Decoder UInt8 XdrError AuthFlavor).run b ≠ .panic ∧
      (decode : Decoder UInt8 XdrError RpcCall).run b ≠ .panic ∧
      (decode : Decoder UInt8 XdrError AcceptStatus).run b ≠ .panic ∧
      (decode : Decoder UInt8 XdrError RpcReply).run b ≠ .panic :=
  fun h => (h [0, 0, 0, 0, 0, 0, 0, 1]).1 (by decide)

end NfsMount.OncRpc
