import NfsMount.Nfs4Types.Compound
import NfsMount.Proofs.Nfs4Types

/-!
# `NfsMount.Proofs.Compound`: the COMPOUND reply is a codec

`NfsResOp4` is a union over the operation number: `opnum` is the number a result is written
with, and `encodeBody` is what follows it. The decoder picks the arm by the number, so each
arm is the codec of its result type (`isCodec_arm`), and the numbers are distinct.

The two main results are about whole replies:

* `compound_decode_encode`: what a well-formed reply encodes to decodes to that reply, in front of
  anything;
* `compound_decode_exact`: an accepted reply took `k` bytes that determine it. It encodes to `k`
  bytes, and fewer than these `k` bytes are an error.
-/

set_option autoImplicit false

namespace NfsMount.Nfs4Types

open NfsMount.Lib NfsMount.XdrCodec IsCodec

namespace NfsResOp4

/-- The operation number a result is written with. -/
def opnum : NfsResOp4 → UInt32
  | .putRootFh _ => OP_PUTROOTFH
  | .putFh _ => OP_PUTFH
  | .lookup _ => OP_LOOKUP
  | .getFh _ => OP_GETFH
  | .getAttr _ => OP_GETATTR
  | .setAttr _ => OP_SETATTR
  | .open _ => OP_OPEN
  | .close _ => OP_CLOSE
  | .read _ => OP_READ
  | .write _ => OP_WRITE
  | .readDir _ => OP_READDIR
  | .remove _ => OP_REMOVE
  | .rename _ => OP_RENAME
  | .exchangeId _ => OP_EXCHANGE_ID
  | .createSession _ => OP_CREATE_SESSION
  | .destroySession _ => OP_DESTROY_SESSION
  | .sequence _ => OP_SEQUENCE
  | .reclaimComplete _ => OP_RECLAIM_COMPLETE

/-- What follows the operation number. -/
def encodeBody : NfsResOp4 → Encoded UInt8 XdrError
  | .putRootFh s | .putFh s | .lookup s | .destroySession s | .reclaimComplete s => encode s
  | .getFh r => encode r
  | .getAttr r => encode r
  | .setAttr r => encode r
  | .open r => encode r
  | .close r => encode r
  | .read r => encode r
  | .write r => encode r
  | .readDir r => encode r
  | .remove r => encode r
  | .rename r => encode r
  | .exchangeId r => encode r
  | .createSession r => encode r
  | .sequence r => encode r

/-- A result is its operation number and its body. -/
theorem encode_eq (v : NfsResOp4) : encode v = Encoded.seq [encode v.opnum, v.encodeBody] := by
  cases v <;> rfl

end NfsResOp4

instance : XdrWf NfsResOp4 where
  wellFormed
    | .putRootFh s | .putFh s | .lookup s | .destroySession s | .reclaimComplete s =>
        wellFormed s
    | .getFh r => wellFormed r
    | .getAttr r => wellFormed r
    | .setAttr r => wellFormed r
    | .open r => wellFormed r
    | .close r => wellFormed r
    | .read r => wellFormed r
    | .write r => wellFormed r
    | .readDir r => wellFormed r
    | .remove r => wellFormed r
    | .rename r => wellFormed r
    | .exchangeId r => wellFormed r
    | .createSession r => wellFormed r
    | .sequence r => wellFormed r

/-- One arm of the decoder. The results with number `op` are those that `ctor` builds, and
they are encoded as their argument is. `d` is the rest of the arms. -/
private theorem isCodec_arm {α : Type} [XdrEncode α] [XdrDecode α] [XdrWf α] [LawfulXdr α]
    {t op : UInt32} {d : Decoder UInt8 XdrError NfsResOp4} (ctor : α → NfsResOp4)
    (hctor : ∀ r, (ctor r).opnum = op ∧ (wellFormed (ctor r) ↔ wellFormed r) ∧
      (ctor r).encodeBody = encode r)
    (hop : ∀ v : NfsResOp4, v.opnum = op → ∃ r, ctor r = v)
    (hd : t ≠ op →
      IsCodec (fun v : NfsResOp4 => v.opnum = t ∧ wellFormed v) NfsResOp4.encodeBody d) :
    IsCodec (fun v : NfsResOp4 => v.opnum = t ∧ wellFormed v) NfsResOp4.encodeBody
      (if t = op then ctor <$> decode else d) :=
  isCodec.arm ctor hctor hop hd

instance : LawfulXdr NfsResOp4 where
  isCodec := by
    have hunion : IsCodec (fun v : NfsResOp4 => True ∧ wellFormed v)
        (fun v => Encoded.seq [encode v.opnum, v.encodeBody])
        (decode : Decoder UInt8 XdrError NfsResOp4) := by
      refine (isCodec (α := UInt32)).bind fun opnum _ => ?_
      refine
        isCodec_arm .putRootFh (fun _ => ⟨rfl, Iff.rfl, rfl⟩) ?_ fun h0 =>
        isCodec_arm .putFh (fun _ => ⟨rfl, Iff.rfl, rfl⟩) ?_ fun h1 =>
        isCodec_arm .lookup (fun _ => ⟨rfl, Iff.rfl, rfl⟩) ?_ fun h2 =>
        isCodec_arm .getFh (fun _ => ⟨rfl, Iff.rfl, rfl⟩) ?_ fun h3 =>
        isCodec_arm .getAttr (fun _ => ⟨rfl, Iff.rfl, rfl⟩) ?_ fun h4 =>
        isCodec_arm .setAttr (fun _ => ⟨rfl, Iff.rfl, rfl⟩) ?_ fun h5 =>
        isCodec_arm .open (fun _ => ⟨rfl, Iff.rfl, rfl⟩) ?_ fun h6 =>
        isCodec_arm .close (fun _ => ⟨rfl, Iff.rfl, rfl⟩) ?_ fun h7 =>
        isCodec_arm .read (fun _ => ⟨rfl, Iff.rfl, rfl⟩) ?_ fun h8 =>
        isCodec_arm .write (fun _ => ⟨rfl, Iff.rfl, rfl⟩) ?_ fun h9 =>
        isCodec_arm .readDir (fun _ => ⟨rfl, Iff.rfl, rfl⟩) ?_ fun h10 =>
        isCodec_arm .remove (fun _ => ⟨rfl, Iff.rfl, rfl⟩) ?_ fun h11 =>
        isCodec_arm .rename (fun _ => ⟨rfl, Iff.rfl, rfl⟩) ?_ fun h12 =>
        isCodec_arm .exchangeId (fun _ => ⟨rfl, Iff.rfl, rfl⟩) ?_ fun h13 =>
        isCodec_arm .createSession (fun _ => ⟨rfl, Iff.rfl, rfl⟩) ?_ fun h14 =>
        isCodec_arm .destroySession (fun _ => ⟨rfl, Iff.rfl, rfl⟩) ?_ fun h15 =>
        isCodec_arm .sequence (fun _ => ⟨rfl, Iff.rfl, rfl⟩) ?_ fun h16 =>
        isCodec_arm .reclaimComplete (fun _ => ⟨rfl, Iff.rfl, rfl⟩) ?_ fun h17 =>
        IsCodec.fail _ fun v hv => ?_
      case refine_19 =>
        -- No operation has the number that was read.
        have hne : opnum ≠ v.opnum := by cases v <;> assumption
        exact hne hv.1.symm
      all_goals
        intro v hv
        cases v <;> first
          | exact ⟨_, rfl⟩
          | exact absurd hv (by dsimp only [NfsResOp4.opnum]; decide)
    exact hunion.congr (fun _ => (iff_of_eq (true_and _)).symm) fun v _ => v.encode_eq

instance : XdrWf Compound4res where
  wellFormed v := wellFormed v.status ∧ wellFormed v.tag ∧ wellFormed v.resarray

instance : LawfulXdr Compound4res where
  isCodec := record <|
    field Compound4res.status isCodec fun status =>
    field Compound4res.tag isCodec fun tag =>
    last Compound4res.resarray isCodec fun v resarray => by cases v; simp [and_assoc]

/-! ### Whole replies -/

/-- Decode undoes encode. A well-formed reply has an encoding, and in front of any bytes the
decoder returns the reply and leaves exactly those bytes. -/
theorem compound_decode_encode (v : Compound4res) (h : wellFormed v) :
    ∃ w, encode v = .ok w ∧
      ∀ rest : Bytes, (decode : Decoder UInt8 XdrError Compound4res).run (w ++ rest)
        = .ok (v, rest) :=
  isCodec.yields v h

/-- A reply with a session result, a failed lookup, a filehandle and a directory entry. -/
def sampleReply : Compound4res where
  status := .noent
  tag := "ls"
  resarray :=
    [.sequence ⟨.ok, some ⟨FixedOpaque.ofBytes 16 [1, 2], 1, 0, 3, 3, 0⟩⟩,
     .getFh ⟨.ok, some ⟨[7, 7, 7]⟩⟩,
     .readDir ⟨.ok, some ⟨FixedOpaque.ofBytes 8 [], ⟨[⟨3, "a", ⟨⟨[2]⟩, [0, 0, 0, 1]⟩⟩], true⟩⟩⟩,
     .lookup .noent]

/-- The bytes of `sampleReply`: the status, the tag and the count, then the four results. -/
def sampleBytes : Bytes :=
  [0, 0, 0, 2, 0, 0, 0, 2, 108, 115, 0, 0, 0, 0, 0, 4] ++
  [0, 0, 0, 53, 0, 0, 0, 0, 1, 2, 0, 0, 0, 0, 0, 0, 0, 0, 0, 0, 0, 0, 0, 0,
   0, 0, 0, 1, 0, 0, 0, 0, 0, 0, 0, 3, 0, 0, 0, 3, 0, 0, 0, 0] ++
  [0, 0, 0, 10, 0, 0, 0, 0, 0, 0, 0, 3, 7, 7, 7, 0] ++
  [0, 0, 0, 26, 0, 0, 0, 0, 0, 0, 0, 0, 0, 0, 0, 0, 0, 0, 0, 1, 0, 0, 0, 0, 0, 0, 0, 3,
   0, 0, 0, 1, 97, 0, 0, 0, 0, 0, 0, 1, 0, 0, 0, 2, 0, 0, 0, 4, 0, 0, 0, 1,
   0, 0, 0, 0, 0, 0, 0, 1] ++
  [0, 0, 0, 15, 0, 0, 0, 2]

/-- The sample reply is well formed. -/
theorem wellFormed_sampleReply : wellFormed sampleReply := by
  simp [wellFormed, sampleReply, NfsStat4.isOk]
  decide

/-- The sample bytes decode to the sample reply, in front of anything. -/
theorem run_sampleBytes (rest : Bytes) :
    (decode : Decoder UInt8 XdrError Compound4res).run (sampleBytes ++ rest)
      = .ok (sampleReply, rest) := by
  obtain ⟨w, hencode, hdecode⟩ := isCodec.yields sampleReply wellFormed_sampleReply
  have hbytes : encode sampleReply = .ok sampleBytes := by decide
  obtain rfl : sampleBytes = w := Except.ok.inj (hbytes.symm.trans hencode)
  exact hdecode rest

/-- The sample reply comes back. -/
theorem compound_decode_encode_sample :
    ∃ w, encode sampleReply = .ok w ∧
      ∀ rest : Bytes, (decode : Decoder UInt8 XdrError Compound4res).run (w ++ rest)
        = .ok (sampleReply, rest) :=
  compound_decode_encode sampleReply wellFormed_sampleReply

/-- Decoding is exact. An accepted reply took a prefix `p` of the buffer. It encodes to as
many bytes as `p` has, and these decode to it. Any buffer that starts with `p` decodes to
the same reply and has the same bytes read, and a buffer that stops inside `p` is an
error. -/
theorem compound_decode_exact {b rest : Bytes} {v : Compound4res}
    (h : (decode : Decoder UInt8 XdrError Compound4res).run b = .ok (v, rest)) :
    ∃ p, b = p ++ rest ∧
      (∃ w, encode v = .ok w ∧ w.length = p.length ∧
        (decode : Decoder UInt8 XdrError Compound4res).run w = .ok (v, [])) ∧
      (∀ r, (decode : Decoder UInt8 XdrError Compound4res).run (p ++ r) = .ok (v, r)) ∧
      ∀ q, q <+: p → q ≠ p →
        ∃ e, (decode : Decoder UInt8 XdrError Compound4res).run q = .err e := by
  obtain ⟨p, hp, -, hexact⟩ := isCodec.exact h
  exact ⟨p, hp, hexact⟩

/-- The bytes of the sample, with another byte behind them. -/
theorem compound_decode_exact_sample :
    ∃ p, sampleBytes ++ [7] = p ++ [7] ∧
      (∃ w, encode sampleReply = .ok w ∧ w.length = p.length ∧
        (decode : Decoder UInt8 XdrError Compound4res).run w = .ok (sampleReply, [])) ∧
      (∀ r, (decode : Decoder UInt8 XdrError Compound4res).run (p ++ r)
        = .ok (sampleReply, r)) ∧
      ∀ q, q <+: p → q ≠ p →
        ∃ e, (decode : Decoder UInt8 XdrError Compound4res).run q = .err e :=
  compound_decode_exact (run_sampleBytes [7])

end NfsMount.Nfs4Types
