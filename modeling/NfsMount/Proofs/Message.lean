import NfsMount.Proofs.Auth

/-!
# `NfsMount.Proofs.Message`: messages decode to themselves

What a call or a reply encodes to decodes to that call or reply. The encoders check the
lengths, so no condition on the message is needed besides that it has an encoding.

The decoder of an auth is no codec in the sense of `IsCodec`: it ignores the length word of
an AUTH_SYS body, and returns AUTH_NONE for a flavor it does not know. Its encoder writes
neither, and on what it writes the two agree (`run_auth_encode`).
-/

set_option autoImplicit false

namespace NfsMount.XdrCodec

open NfsMount.Lib

/-- What a lawful type encodes of a well-formed value decodes to the value. -/
theorem run_encode {α : Type} [XdrEncode α] [XdrDecode α] [XdrWf α] [LawfulXdr α] {v : α}
    (hv : wellFormed v) {p : Bytes} (h : encode v = .ok p) (r : Bytes) :
    (decode : Decoder UInt8 XdrError α).run (p ++ r) = .ok (v, r) := by
  obtain ⟨q, hq, hrun⟩ := isCodec.yields v hv
  obtain rfl := Except.ok.inj (h.symm.trans hq)
  exact hrun r

/-- What was encoded has a length that fits. -/
theorem length_lt_of_encode {data p : Bytes} (h : encodeOpaqueBytes data = .ok p) :
    data.length < 2 ^ 32 := by
  by_contra hlen
  rw [encodeOpaqueBytes, lengthWord, if_neg hlen] at h
  simp at h

end NfsMount.XdrCodec

namespace NfsMount.OncRpc

open NfsMount.Lib NfsMount.XdrCodec

/-- Only an AUTH_SYS body that fits the length words has an encoding. -/
theorem wellFormed_of_encodeAuthSys {sys : AuthSys} {body : Bytes}
    (h : encodeAuthSys sys = .ok body) : wellFormed sys := by
  obtain ⟨_, _, -, h₁, -⟩ := Encoded.seq_cons_eq_ok.mp h
  obtain ⟨_, _, hname, h₂, -⟩ := Encoded.seq_cons_eq_ok.mp h₁
  obtain ⟨_, _, -, h₃, -⟩ := Encoded.seq_cons_eq_ok.mp h₂
  obtain ⟨_, _, -, h₄, -⟩ := Encoded.seq_cons_eq_ok.mp h₃
  -- Of the five fields, only the name and the group list can fail to encode.
  obtain ⟨_, _, hgids, -, -⟩ := Encoded.seq_cons_eq_ok.mp h₄
  refine ⟨trivial, length_lt_of_encode hname, trivial, trivial, ?_, fun _ _ => trivial⟩
  by_contra hlen
  simp only [encode, lengthWord, if_neg hlen] at hgids
  simp at hgids

/-- A word that was encoded is read back, and the decoder goes on behind it. -/
private theorem run_word_encode {α : Type} {w : UInt32} {p : Bytes} (h : encode w = .ok p)
    (f : UInt32 → Decoder UInt8 XdrError α) (r : Bytes) :
    (decode >>= f).run (p ++ r) = (f w).run r :=
  Decoder.run_bind_ok (run_encode (v := w) trivial h r)

/-- An auth decodes to itself, in front of anything. -/
theorem run_auth_encode {auth : AuthFlavor} {p : Bytes} (h : encode auth = .ok p) (r : Bytes) :
    (decode : Decoder UInt8 XdrError AuthFlavor).run (p ++ r) = .ok (auth, r) := by
  show (decode >>= _ : Decoder UInt8 XdrError AuthFlavor).run (p ++ r) = _
  cases auth with
  | none =>
      obtain ⟨p₁, q₁, hflavor, h₁, rfl⟩ := Encoded.seq_cons_eq_ok.mp h
      rw [Encoded.seq_singleton] at h₁
      rw [List.append_assoc, run_word_encode hflavor, run_word_encode h₁,
        run_decodeAuthBody_none]
      exact if_pos (Nat.zero_le _)
  | sys sys =>
      cases hbody : encodeAuthSys sys with
      | error e =>
          simp only [encode, hbody] at h
          simp at h
      | ok body =>
          simp only [encode, hbody] at h
          obtain ⟨p₁, q₁, hflavor, h₁, rfl⟩ := Encoded.seq_cons_eq_ok.mp h
          obtain ⟨p₂, q₂, hlen, h₂, rfl⟩ := Encoded.seq_cons_eq_ok.mp h₁
          obtain rfl := Except.ok.inj ((Encoded.seq_singleton _).symm.trans h₂)
          obtain ⟨body', hbody', hrun⟩ :=
            isCodec_authSys.yields sys (wellFormed_of_encodeAuthSys hbody)
          -- The length word is read and not used. The fields say where the body ends.
          obtain rfl := Except.ok.inj (hbody.symm.trans hbody')
          rw [List.append_assoc, run_word_encode hflavor, List.append_assoc,
            run_word_encode hlen, decodeAuthBody, if_neg (by decide), if_pos rfl,
            ← bind_pure_comp, Decoder.run_bind_ok (hrun r), Decoder.run_pure]

/-- The rest of the buffer is taken. -/
theorem run_decodeRest (b : Bytes) : decodeRest.run b = .ok (⟨b⟩, []) := by
  rw [decodeRest, Decoder.run_bind_ok (Decoder.run_remaining b),
    Decoder.run_bind_ok (Decoder.run_splitTo_of_le (Nat.le_refl _)), Decoder.run_pure,
    List.take_length, List.drop_length]

/-- An accept status decodes to itself at the end of the buffer. -/
theorem run_acceptStatus_encode {status : AcceptStatus} {p : Bytes}
    (h : encode status = .ok p) :
    (decode : Decoder UInt8 XdrError AcceptStatus).run p = .ok (status, []) := by
  show (decode >>= _ : Decoder UInt8 XdrError AcceptStatus).run p = _
  -- Four of the six are a word with nothing behind it.
  have hword : ∀ {w : UInt32} {v : AcceptStatus}
      {f : UInt32 → Decoder UInt8 XdrError AcceptStatus},
      encode w = .ok p → f w = pure v → (decode >>= f).run p = .ok (v, []) := by
    intro w v f hw hf
    have hrun := run_word_encode hw f []
    rwa [List.append_nil, hf] at hrun
  cases status with
  | success body =>
      obtain ⟨p₁, q₁, hstat, h₁, rfl⟩ := Encoded.seq_cons_eq_ok.mp h
      obtain rfl := Except.ok.inj ((Encoded.seq_singleton _).symm.trans h₁)
      rw [run_word_encode hstat, if_pos rfl, ← bind_pure_comp,
        Decoder.run_bind_ok (run_decodeRest _), Decoder.run_pure]
  | programMismatch low high =>
      obtain ⟨p₁, q₁, hstat, h₁, rfl⟩ := Encoded.seq_cons_eq_ok.mp h
      obtain ⟨p₂, q₂, hlow, h₂, rfl⟩ := Encoded.seq_cons_eq_ok.mp h₁
      rw [Encoded.seq_singleton] at h₂
      rw [run_word_encode hstat, if_neg (by decide), if_neg (by decide), if_pos rfl,
        run_word_encode hlow, ← List.append_nil q₂, run_word_encode h₂, Decoder.run_pure]
  | programUnavailable => exact hword h rfl
  | procedureUnavailable => exact hword h rfl
  | garbageArgs => exact hword h rfl
  | systemError => exact hword h rfl

/-- A reply decodes to itself. -/
theorem run_reply_encode {reply : RpcReply} {p : Bytes} (h : encode reply = .ok p) :
    (decode : Decoder UInt8 XdrError RpcReply).run p = .ok (reply, []) := by
  obtain ⟨p₁, q₁, hxid, h₁, rfl⟩ := Encoded.seq_cons_eq_ok.mp h
  obtain ⟨p₂, q₂, htype, h₂, rfl⟩ := Encoded.seq_cons_eq_ok.mp h₁
  obtain ⟨p₃, q₃, hstat, h₃, rfl⟩ := Encoded.seq_cons_eq_ok.mp h₂
  obtain ⟨p₄, q₄, hverf, h₄, rfl⟩ := Encoded.seq_cons_eq_ok.mp h₃
  rw [Encoded.seq_singleton] at h₄
  show (decode >>= _ : Decoder UInt8 XdrError RpcReply).run _ = _
  rw [run_word_encode hxid, run_word_encode htype, if_neg (by decide), run_word_encode hstat,
    if_neg (by decide), Decoder.run_bind_ok (run_auth_encode hverf q₄),
    Decoder.run_bind_ok (run_acceptStatus_encode h₄), Decoder.run_pure]

/-- A call decodes to itself. -/
theorem run_call_encode {call : RpcCall} {p : Bytes} (h : encode call = .ok p) :
    (decode : Decoder UInt8 XdrError RpcCall).run p = .ok (call, []) := by
  obtain ⟨p₁, q₁, hxid, h₁, rfl⟩ := Encoded.seq_cons_eq_ok.mp h
  obtain ⟨p₂, q₂, htype, h₂, rfl⟩ := Encoded.seq_cons_eq_ok.mp h₁
  obtain ⟨p₃, q₃, hvers, h₃, rfl⟩ := Encoded.seq_cons_eq_ok.mp h₂
  obtain ⟨p₄, q₄, hprog, h₄, rfl⟩ := Encoded.seq_cons_eq_ok.mp h₃
  obtain ⟨p₅, q₅, hversion, h₅, rfl⟩ := Encoded.seq_cons_eq_ok.mp h₄
  obtain ⟨p₆, q₆, hproc, h₆, rfl⟩ := Encoded.seq_cons_eq_ok.mp h₅
  obtain ⟨p₇, q₇, hcred, h₇, rfl⟩ := Encoded.seq_cons_eq_ok.mp h₆
  obtain ⟨p₈, q₈, hverf, h₈, rfl⟩ := Encoded.seq_cons_eq_ok.mp h₇
  obtain rfl := Except.ok.inj ((Encoded.seq_singleton _).symm.trans h₈)
  show (decode >>= _ : Decoder UInt8 XdrError RpcCall).run _ = _
  rw [run_word_encode hxid, run_word_encode htype, if_neg (by decide), run_word_encode hvers,
    if_neg (by decide), run_word_encode hprog, run_word_encode hversion, run_word_encode hproc,
    Decoder.run_bind_ok (run_auth_encode hcred _), Decoder.run_bind_ok (run_auth_encode hverf _),
    Decoder.run_bind_ok (run_decodeRest _), Decoder.run_pure]

end NfsMount.OncRpc
