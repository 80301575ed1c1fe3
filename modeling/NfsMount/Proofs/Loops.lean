import Mathlib.Algebra.BigOperators.Group.List.Basic
import NfsMount.Lib.Logged
import NfsMount.Proofs.Compound

/-!
# `NfsMount.Proofs.Loops`: the loops of the reply decoder

The log of each decoder is built as the decoder is. The types that hold no array have none
(`quietXdr`). The loops are those of the arrays (the results, the words of a bitmap, the RDMA
limits of a channel, the implementation ids), and the one over the entries of a directory,
which has no count. An element of each takes a word at least: its own value, its operation
number, a length, or the word that says whether an entry follows.

* `turns_eq_loopTurns`: the turns of an accepted reply are the elements of its arrays;
* `compound_decode_total`: on any bytes the decoder ends, with few turns.

`decodeOpaqueBytesIn` is the decoder of opaque data with the arithmetic of a build.
-/

set_option autoImplicit false

namespace NfsMount.XdrCodec

open NfsMount.Lib

/-! ### The arithmetic -/

/-- `xdr_padding`, on a `usize` of 64 bits. -/
def xdrPaddingIn (m : Build) (len : UInt64) : Option UInt64 := do
  let missing ← m.subU64 4 (len % 4)
  some (missing % 4)

/-- `None` of the arithmetic is a panic. -/
def arith {α : Type} (x : Option α) : Decoder UInt8 XdrError α := fun b =>
  match x with
  | some a => .ok (a, b)
  | none => .panic

/-- `decode_opaque_bytes`, with its arithmetic on a `usize` of 64 bits. -/
def decodeOpaqueBytesIn (m : Build) : Decoder UInt8 XdrError Bytes := do
  let word : UInt32 ← decode
  let len := word.toUInt64
  let padding ← arith (xdrPaddingIn m len)
  let padded ← arith (m.addU64 len padding)
  let available ← Decoder.remaining
  if available < padded.toNat then
    Decoder.fail (.bufferTooShort padded.toNat available)
  else
    let data ← Decoder.splitTo len.toNat
    let pad ← arith (xdrPaddingIn m len)
    if 0 < pad then
      Decoder.advance pad.toNat
    pure data

/-- The padding is computed in range, in both builds. -/
theorem xdrPaddingIn_eq (m : Build) (len : UInt64) :
    ∃ pad, xdrPaddingIn m len = some pad ∧ pad.toNat = xdrPadding len.toNat := by
  have hmod : (len % 4).toNat = len.toNat % 4 := UInt64.toNat_mod len 4
  have hle : len % 4 ≤ 4 := by
    rw [UInt64.le_iff_toNat_le, hmod]
    exact Nat.le_of_lt (Nat.mod_lt _ (by decide))
  refine ⟨(4 - len % 4) % 4, ?_, ?_⟩
  · rw [xdrPaddingIn, Build.subU64_of_le m hle]
    rfl
  · rw [UInt64.toNat_mod, UInt64.toNat_sub_of_le _ _ hle, hmod]
    rfl

/-- The arithmetic of opaque data stays in range, in both builds. -/
theorem decodeOpaqueBytesIn_eq (m : Build) : decodeOpaqueBytesIn m = decodeOpaqueBytes := by
  refine bind_congr fun word => ?_
  obtain ⟨pad, hpad, hnat⟩ := xdrPaddingIn_eq m word.toUInt64
  have hword : word.toUInt64.toNat = word.toNat := UInt32.toNat_toUInt64 word
  rw [hword] at hnat
  -- A length word has 32 bits, and the padding is below 4.
  have hlt : word.toUInt64.toNat + pad.toNat < 2 ^ 64 := by
    have hword32 := word.toNat_lt
    rw [hword, hnat, xdrPadding]
    omega
  have hpadded : (word.toUInt64 + pad).toNat = word.toNat + xdrPadding word.toNat := by
    rw [UInt64.toNat_add, Nat.mod_eq_of_lt hlt, hword, hnat]
  have hpos : 0 < pad ↔ 0 < xdrPadding word.toNat := by
    rw [UInt64.lt_iff_toNat_lt, hnat]
    rfl
  have hsome : ∀ {α β : Type} (a : α) (f : α → Decoder UInt8 XdrError β),
      arith (some a) >>= f = f a := fun _ _ => rfl
  simp only [hpad, hsome, Build.addU64_of_lt m hlt, hpadded, hword, hnat, hpos]

/-! ### The logs of the XDR types -/

section

variable {α : Type} [XdrEncode α] [XdrDecode α] [XdrWf α] [LawfulXdr α]

/-- A type without loops. -/
def quietXdr : Logged 4 0 (decode : Decoder UInt8 XdrError α) :=
  .quiet fun h => by
    obtain ⟨p, rfl, -⟩ := isCodec.reads _ _ _ h
    rw [List.length_append]
    omega

end

/-- An element that is a word. -/
def loggedWord : Logged 4 4 (decode : Decoder UInt8 XdrError UInt32) :=
  .quiet fun h => by
    obtain ⟨hle, -, rfl⟩ := run_decodeWord_eq_ok.mp h
    rw [List.length_drop]
    omega

/-- A `bool` has no loops. -/
def loggedBool : Logged 4 4 (decode : Decoder UInt8 XdrError Bool) :=
  loggedWord.bind (l := 0) fun _ => .ite _ (.pure _) (.ite _ (.pure _) (.fail _))

/-- A string takes a word at least, its length. -/
theorem run_string_takes {b r : Bytes} {s : String}
    (h : (decode : Decoder UInt8 XdrError String).run b = .ok (s, r)) :
    4 + r.length ≤ b.length := by
  obtain ⟨hle, rfl, -⟩ := endsAt_string.mp ⟨s, h⟩
  rw [List.length_drop]
  rw [opaqueSpan] at hle ⊢
  omega

/-- A string has no loops. -/
def loggedString : Logged 4 4 (decode : Decoder UInt8 XdrError String) :=
  .quiet run_string_takes

/-- An array: `Vec::with_capacity(len)`, and the loop over the elements. -/
def loggedList {α : Type} [XdrDecode α] (x : Logged 4 4 (decode : Decoder UInt8 XdrError α)) :
    Logged 4 0 (decode : Decoder UInt8 XdrError (List α)) :=
  quietXdr.bind fun (len : UInt32) => (x.times len.toNat).enter len.toNat

end NfsMount.XdrCodec

namespace NfsMount.Nfs4Types

open NfsMount.Lib NfsMount.XdrCodec Logged

/-! ### The logs of the results -/

/-- The words of a bitmap. -/
def loggedBitmap4 : Logged 4 0 (decode : Decoder UInt8 XdrError Bitmap4) :=
  (loggedList loggedWord).map Bitmap4.mk

/-- The words of the bitmap of the attributes. -/
def loggedFattr4 : Logged 4 0 (decode : Decoder UInt8 XdrError Fattr4) :=
  loggedBitmap4.bind fun _ => quietXdr.bind fun (_ : Opaque) => .pure _

/-- The result of an operation, by the log of its body. -/
def loggedOpResult {β : Type} [XdrDecode β] (x : Logged 4 0 (decode : Decoder UInt8 XdrError β)) :
    Logged 4 0 (decode : Decoder UInt8 XdrError (OpResult β)) :=
  quietXdr.bind fun (_ : NfsStat4) => .ite _ (x.bind fun _ => .pure _) (.pure _)

/-- The attributes of a GETATTR. -/
def loggedGetAttr4resok : Logged 4 0 (decode : Decoder UInt8 XdrError GetAttr4resok) :=
  loggedFattr4.map GetAttr4resok.mk

/-- The attributes that a SETATTR has set. -/
def loggedSetAttr4resok : Logged 4 0 (decode : Decoder UInt8 XdrError SetAttr4resok) :=
  loggedBitmap4.map SetAttr4resok.mk

/-- An implementation id, which takes a word at least. -/
def loggedImplId4 : Logged 4 4 (decode : Decoder UInt8 XdrError NfsImplId4) :=
  loggedString.bind fun _ => quietXdr.bind fun (_ : String) => quietXdr.bind fun (_ : NfsTime4) =>
    .pure _

/-- The RDMA limits of a channel. -/
def loggedChannelAttrs4 : Logged 4 0 (decode : Decoder UInt8 XdrError ChannelAttrs4) :=
  quietXdr.bind fun (_ : UInt32) => quietXdr.bind fun (_ : UInt32) =>
  quietXdr.bind fun (_ : UInt32) => quietXdr.bind fun (_ : UInt32) =>
  quietXdr.bind fun (_ : UInt32) => quietXdr.bind fun (_ : UInt32) =>
  (loggedList loggedWord).bind fun _ => .pure _

/-- The implementation ids of the server. -/
def loggedExchangeId4resok : Logged 4 0 (decode : Decoder UInt8 XdrError ExchangeId4resok) :=
  quietXdr.bind fun (_ : ClientId4) => quietXdr.bind fun (_ : UInt32) =>
  quietXdr.bind fun (_ : UInt32) => quietXdr.bind fun (_ : StateProtect4r) =>
  quietXdr.bind fun (_ : ServerOwner4) => quietXdr.bind fun (_ : Opaque) =>
  (loggedList loggedImplId4).bind fun _ => .pure _

/-- The two channels of a session. -/
def loggedCreateSession4resok :
    Logged 4 0 (decode : Decoder UInt8 XdrError CreateSession4resok) :=
  quietXdr.bind fun (_ : SessionId4) => quietXdr.bind fun (_ : UInt32) =>
  quietXdr.bind fun (_ : UInt32) => loggedChannelAttrs4.bind fun _ =>
  loggedChannelAttrs4.bind fun _ => .pure _

/-- The attributes that an OPEN has set. -/
def loggedOpen4resok : Logged 4 0 (decode : Decoder UInt8 XdrError Open4resok) :=
  quietXdr.bind fun (_ : StateId4) => quietXdr.bind fun (_ : ChangeInfo4) =>
  quietXdr.bind fun (_ : UInt32) => loggedBitmap4.bind fun _ =>
  quietXdr.bind fun (_ : OpenDelegation4) => .pure _

/-- A turn of the loop over the entries of a directory. -/
def loggedEntry : Logged 4 4 decodeEntry :=
  loggedBool.bind fun _ => .ite _ (.pure _) <|
    quietXdr.bind fun (_ : UInt64) => quietXdr.bind fun (_ : String) =>
    loggedFattr4.bind fun _ => .pure _

/-- The entries of a directory. -/
def loggedReadDir4resok : Logged 4 0 (decode : Decoder UInt8 XdrError ReadDir4resok) :=
  quietXdr.bind fun (_ : Verifier4) => loggedEntry.loop.bind fun _ =>
  quietXdr.bind fun (_ : Bool) => .pure _

/-- The arms of the union over the operation numbers. -/
def loggedResOp4 : Logged 4 4 (decode : Decoder UInt8 XdrError NfsResOp4) :=
  loggedWord.bind (l := 0) fun _ =>
    -- The arms stand in the order of the source.
    .ite _ (quietXdr.map _) <| .ite _ (quietXdr.map _) <| .ite _ (quietXdr.map _) <|
    .ite _ ((loggedOpResult quietXdr).map _) <|
    .ite _ ((loggedOpResult loggedGetAttr4resok).map _) <|
    .ite _ ((loggedOpResult loggedSetAttr4resok).map _) <|
    .ite _ ((loggedOpResult loggedOpen4resok).map _) <|
    .ite _ ((loggedOpResult quietXdr).map _) <|
    .ite _ ((loggedOpResult quietXdr).map _) <|
    .ite _ ((loggedOpResult quietXdr).map _) <|
    .ite _ ((loggedOpResult loggedReadDir4resok).map _) <|
    .ite _ ((loggedOpResult quietXdr).map _) <|
    .ite _ ((loggedOpResult quietXdr).map _) <|
    .ite _ ((loggedOpResult loggedExchangeId4resok).map _) <|
    .ite _ ((loggedOpResult loggedCreateSession4resok).map _) <|
    .ite _ (quietXdr.map _) <| .ite _ ((loggedOpResult quietXdr).map _) <|
    .ite _ (quietXdr.map _) <| .fail _

/-- The results of a reply. -/
def loggedCompound4res : Logged 4 0 (decode : Decoder UInt8 XdrError Compound4res) :=
  quietXdr.bind fun (_ : NfsStat4) => quietXdr.bind fun (_ : String) =>
  (loggedList loggedResOp4).bind fun _ => .pure _

/-! ### The turns of a reply -/

section

variable {α β : Type} {w l n : Nat} {f : α → Nat}

/-- A word has no turns of its own. -/
theorem turnsTo_word : loggedWord.TurnsTo n fun _ => n := turnsTo_of_log_nil fun _ => rfl

/-- A field without arrays, and then the others. -/
theorem turnsTo_field [XdrEncode α] [XdrDecode α] [XdrWf α] [LawfulXdr α]
    {g : α → Decoder UInt8 XdrError β} {y : ∀ a, Logged 4 l (g a)} {h : β → Nat}
    (hy : ∀ a, (y a).TurnsTo n h) : (quietXdr.bind y).TurnsTo n h :=
  TurnsTo.bind (turnsTo_of_log_nil fun _ => rfl) hy

/-- An array has a turn for each element, and the turns of the elements. -/
theorem turnsTo_list [XdrDecode α] {x : Logged 4 4 (decode : Decoder UInt8 XdrError α)}
    (hx : x.TurnsTo 0 f) :
    (loggedList x).TurnsTo n fun as => n + (as.map fun a => f a + 1).sum :=
  turnsTo_field fun (len : UInt32) => ((hx.times len.toNat).add (n := n)).enter

/-- An array whose elements have no arrays of their own. -/
theorem turnsTo_flat [XdrDecode α] {x : Logged 4 4 (decode : Decoder UInt8 XdrError α)}
    (hx : x.TurnsTo 0 fun _ => 0) : (loggedList x).TurnsTo n fun as => n + as.length := by
  intro b as r h
  simpa using turnsTo_list (n := n) hx h

end

/-- The turns of an operation's result, by those of its body. -/
def OpResult.loopTurns {β : Type} (f : β → Nat) (r : OpResult β) : Nat :=
  r.resok.elim 0 f

/-- An entry has the words of its bitmap, and the link behind the last entry has a turn too. -/
def DirList4.loopTurns (v : DirList4) : Nat :=
  (v.entries.map fun entry => entry.attrs.attrmask.words.length + 1).sum + 1

/-- How many elements the arrays of a result have. -/
def NfsResOp4.loopTurns : NfsResOp4 → Nat
  | .getAttr r => r.loopTurns fun v => v.objAttributes.attrmask.words.length
  | .setAttr r => r.loopTurns fun v => v.attrsset.words.length
  | .open r => r.loopTurns fun v => v.attrset.words.length
  | .readDir r => r.loopTurns fun v => v.reply.loopTurns
  | .exchangeId r => r.loopTurns fun v => v.eirServerImplId.length
  | .createSession r => r.loopTurns fun v =>
      v.csrForeChanAttrs.caRdmaIrd.length + v.csrBackChanAttrs.caRdmaIrd.length
  | _ => 0

/-- How many elements the arrays of a reply have, those of its results among them. -/
def Compound4res.loopTurns (v : Compound4res) : Nat :=
  (v.resarray.map fun result => result.loopTurns + 1).sum

section

variable {n : Nat}

/-- A turn for each word. -/
theorem turnsTo_bitmap4 : loggedBitmap4.TurnsTo n fun v => n + v.words.length :=
  TurnsTo.map (turnsTo_flat turnsTo_word)

/-- A turn for each word of the bitmap. -/
theorem turnsTo_fattr4 : loggedFattr4.TurnsTo n fun v => n + v.attrmask.words.length :=
  turnsTo_bitmap4.bind fun _ => turnsTo_field fun (_ : Opaque) => turnsTo_pure rfl

/-- The turns of the body, if there is one. -/
theorem turnsTo_opResult {β : Type} [XdrDecode β] {f : β → Nat}
    {x : Logged 4 0 (decode : Decoder UInt8 XdrError β)}
    (hx : x.TurnsTo 0 fun v => 0 + f v) : (loggedOpResult x).TurnsTo 0 (OpResult.loopTurns f) :=
  turnsTo_field fun (_ : NfsStat4) =>
    .ite (fun _ => hx.bind fun _ => turnsTo_pure (Nat.zero_add _)) fun _ => turnsTo_pure rfl

/-- The result of an operation without arrays. -/
theorem turnsTo_plainResult {β : Type} [XdrEncode β] [XdrDecode β] [XdrWf β] [LawfulXdr β] :
    (loggedOpResult (quietXdr (α := β))).TurnsTo n fun _ => n :=
  turnsTo_field fun (_ : NfsStat4) =>
    .ite (fun _ => turnsTo_field fun _ => turnsTo_pure rfl) fun _ => turnsTo_pure rfl

/-- An implementation id has no turns of its own. -/
theorem turnsTo_implId4 : loggedImplId4.TurnsTo n fun _ => n :=
  TurnsTo.bind (turnsTo_of_log_nil fun _ => rfl) fun _ => turnsTo_field fun (_ : String) =>
    turnsTo_field fun (_ : NfsTime4) => turnsTo_pure rfl

/-- A turn for each RDMA limit. -/
theorem turnsTo_channelAttrs4 : loggedChannelAttrs4.TurnsTo n fun v => n + v.caRdmaIrd.length :=
  turnsTo_field fun (_ : UInt32) => turnsTo_field fun (_ : UInt32) =>
  turnsTo_field fun (_ : UInt32) => turnsTo_field fun (_ : UInt32) =>
  turnsTo_field fun (_ : UInt32) => turnsTo_field fun (_ : UInt32) =>
  (turnsTo_flat turnsTo_word).bind fun _ => turnsTo_pure rfl

/-- A turn for each implementation id. -/
theorem turnsTo_exchangeId4resok :
    loggedExchangeId4resok.TurnsTo n fun v => n + v.eirServerImplId.length :=
  turnsTo_field fun (_ : ClientId4) => turnsTo_field fun (_ : UInt32) =>
  turnsTo_field fun (_ : UInt32) => turnsTo_field fun (_ : StateProtect4r) =>
  turnsTo_field fun (_ : ServerOwner4) => turnsTo_field fun (_ : Opaque) =>
  (turnsTo_flat turnsTo_implId4).bind fun _ => turnsTo_pure rfl

/-- The turns of both channels. -/
theorem turnsTo_createSession4resok : loggedCreateSession4resok.TurnsTo n fun v =>
    n + (v.csrForeChanAttrs.caRdmaIrd.length + v.csrBackChanAttrs.caRdmaIrd.length) :=
  turnsTo_field fun (_ : SessionId4) => turnsTo_field fun (_ : UInt32) =>
  turnsTo_field fun (_ : UInt32) => turnsTo_channelAttrs4.bind fun _ =>
  turnsTo_channelAttrs4.bind fun _ => turnsTo_pure (Nat.add_assoc _ _ _)

/-- A turn for each word of the bitmap. -/
theorem turnsTo_open4resok : loggedOpen4resok.TurnsTo n fun v => n + v.attrset.words.length :=
  turnsTo_field fun (_ : StateId4) => turnsTo_field fun (_ : ChangeInfo4) =>
  turnsTo_field fun (_ : UInt32) => turnsTo_bitmap4.bind fun _ =>
  turnsTo_field fun (_ : OpenDelegation4) => turnsTo_pure rfl

/-- The turns of the entry that a link has. -/
theorem turnsTo_entry : loggedEntry.TurnsTo 0 fun
    | none => 0
    | some entry => 0 + entry.attrs.attrmask.words.length :=
  TurnsTo.bind (f := fun _ => 0)
    (TurnsTo.bind turnsTo_word fun _ => .ite (fun _ => turnsTo_pure rfl) fun _ =>
      .ite (fun _ => turnsTo_pure rfl) fun _ => turnsTo_fail)
    fun _ => .ite (fun _ => turnsTo_pure rfl) fun _ =>
      turnsTo_field fun (_ : UInt64) => turnsTo_field fun (_ : String) =>
        turnsTo_fattr4.bind fun _ => turnsTo_pure rfl

/-- A turn for each link, with the last one, and the turns of the entries. -/
theorem turnsTo_readDir4resok : loggedReadDir4resok.TurnsTo n fun v => n + v.reply.loopTurns :=
  turnsTo_field fun (_ : Verifier4) => (turnsTo_entry.loop.add (n := n)).bind fun _ =>
  turnsTo_field fun (_ : Bool) => turnsTo_pure (by simp [DirList4.loopTurns])

/-- The arms of the union, one by one. -/
theorem turnsTo_resOp4 : loggedResOp4.TurnsTo 0 NfsResOp4.loopTurns :=
  turnsTo_word.bind fun _ =>
    .ite (fun _ => .map fun _ _ _ _ => rfl) fun _ =>
    .ite (fun _ => .map fun _ _ _ _ => rfl) fun _ =>
    .ite (fun _ => .map fun _ _ _ _ => rfl) fun _ =>
    .ite (fun _ => .map turnsTo_plainResult) fun _ =>
    .ite (fun _ => .map (turnsTo_opResult (TurnsTo.map turnsTo_fattr4))) fun _ =>
    .ite (fun _ => .map (turnsTo_opResult (TurnsTo.map turnsTo_bitmap4))) fun _ =>
    .ite (fun _ => .map (turnsTo_opResult turnsTo_open4resok)) fun _ =>
    .ite (fun _ => .map turnsTo_plainResult) fun _ =>
    .ite (fun _ => .map turnsTo_plainResult) fun _ =>
    .ite (fun _ => .map turnsTo_plainResult) fun _ =>
    .ite (fun _ => .map (turnsTo_opResult turnsTo_readDir4resok)) fun _ =>
    .ite (fun _ => .map turnsTo_plainResult) fun _ =>
    .ite (fun _ => .map turnsTo_plainResult) fun _ =>
    .ite (fun _ => .map (turnsTo_opResult turnsTo_exchangeId4resok)) fun _ =>
    .ite (fun _ => .map (turnsTo_opResult turnsTo_createSession4resok)) fun _ =>
    .ite (fun _ => .map fun _ _ _ _ => rfl) fun _ =>
    .ite (fun _ => .map turnsTo_plainResult) fun _ =>
    .ite (fun _ => .map fun _ _ _ _ => rfl) fun _ => turnsTo_fail

/-- **The log is that of the value.** When a reply is decoded, the loops have taken one turn for
each element of its arrays and each link of its directories, and no others. -/
theorem turns_eq_loopTurns {b rest : Bytes} {v : Compound4res}
    (h : (decode : Decoder UInt8 XdrError Compound4res).run b = .ok (v, rest)) :
    turns (loggedCompound4res.log b) = v.loopTurns := by
  have hturns : loggedCompound4res.TurnsTo 0 Compound4res.loopTurns :=
    turnsTo_field fun (_ : NfsStat4) => turnsTo_field fun (_ : String) =>
    (turnsTo_list turnsTo_resOp4).bind fun _ => turnsTo_pure (Nat.zero_add _)
  exact (Nat.zero_add _).symm.trans (hturns h)

/-- A turn for each result at least. -/
theorem length_le_turns {b rest : Bytes} {v : Compound4res}
    (h : (decode : Decoder UInt8 XdrError Compound4res).run b = .ok (v, rest)) :
    v.resarray.length ≤ turns (loggedCompound4res.log b) := by
  rw [turns_eq_loopTurns h, Compound4res.loopTurns]
  have hsum := List.length_le_sum_of_one_le (v.resarray.map fun result => result.loopTurns + 1)
    (by simp)
  rwa [List.length_map] at hsum

end

/-- **Decoding a reply ends.** On any bytes the decoder returns a value or an error. It does
not panic, and its arithmetic stays in range in both builds. Every turn of its loops that does
not fail takes a word at least, and there are at most `n / 4` of them on `n` bytes, whatever
the counts in the bytes say. -/
theorem compound_decode_total (b : Bytes) :
    ((∃ res rest, (decode : Decoder UInt8 XdrError Compound4res).run b = .ok (res, rest)) ∨
      ∃ e, (decode : Decoder UInt8 XdrError Compound4res).run b = .err e) ∧
    (∀ m, decodeOpaqueBytesIn m = decodeOpaqueBytes) ∧
    (∀ used, .turn used ∈ loggedCompound4res.log b → 4 ≤ used) ∧
    turns (loggedCompound4res.log b) ≤ b.length / 4 := by
  refine ⟨?_, decodeOpaqueBytesIn_eq, fun used h => loggedCompound4res.turn_ge h,
    loggedCompound4res.turns_le_div (by decide) b⟩
  cases hrun : (decode : Decoder UInt8 XdrError Compound4res).run b with
  | ok x => exact .inl ⟨x.1, x.2, rfl⟩
  | err e => exact .inr ⟨e, rfl⟩
  | panic => exact absurd hrun (isCodec.noPanic b)

end NfsMount.Nfs4Types
