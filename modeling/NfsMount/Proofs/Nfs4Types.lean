import NfsMount.Nfs4Types.Ops
import NfsMount.Proofs.XdrCodec

/-!
# `NfsMount.Proofs.Nfs4Types`: the result types are codecs

One `XdrWf` and one `LawfulXdr` instance for each type an operation result is made of. A
record's instance follows its decoder: one `field` for each field that is read, and `last`
where the record is built.

Besides the lengths, two things make a value ill-formed: a filehandle of more than 128
bytes, which its encoder writes and its decoder refuses, and a result whose body is present
without the status `Ok` or missing with it.
-/

set_option autoImplicit false

namespace NfsMount.Nfs4Types

open NfsMount.Lib NfsMount.XdrCodec IsCodec

/-! ### Enums and unions -/

/-- A derived enum whose variants have distinct discriminants. -/
theorem isCodec_unitEnum {α : Type} (typeName : String) {variants : List α}
    {discriminant : α → UInt32} (hall : ∀ v, v ∈ variants)
    (hinj : ∀ v ∈ variants, ∀ w ∈ variants, discriminant v = discriminant w → v = w) :
    IsCodec (fun _ : α => True) (encodeUnitEnum discriminant)
      (decodeUnitEnum typeName variants discriminant) := by
  have htag : IsCodec (fun _ : α => True ∧ True) (fun v => encode (discriminant v))
      (decodeUnitEnum typeName variants discriminant) := by
    refine (isCodec (α := UInt32)).tagged fun word _ => ?_
    cases hfind : variants.find? (fun v => discriminant v == word) with
    | some v =>
        have hv : discriminant v = word := by simpa using List.find?_some hfind
        refine IsCodec.pure v fun w => ?_
        rw [and_true, ← hv]
        exact ⟨fun h => hinj w (hall w) v (hall v) h, fun h => h ▸ rfl⟩
    | none =>
        refine IsCodec.fail _ fun w hw => ?_
        have := List.find?_eq_none.mp hfind w (hall w)
        exact this (by simpa using hw.1)
  exact htag.congr (fun _ => (iff_of_eq (and_true _)).symm) fun _ _ => rfl

namespace NfsStat4

/-- The list has every status. -/
theorem mem_variants (s : NfsStat4) : s ∈ variants := by
  cases s <;> decide

/-- Two names of a status have two numbers. -/
theorem discriminant_inj :
    ∀ s ∈ variants, ∀ t ∈ variants, s.discriminant = t.discriminant → s = t := by
  decide +kernel

end NfsStat4

instance : XdrWf NfsStat4 where
  wellFormed _ := True

instance : LawfulXdr NfsStat4 where
  isCodec := isCodec_unitEnum "NfsStat4" NfsStat4.mem_variants NfsStat4.discriminant_inj

/-- A union with the one void arm 0 is a codec of its one value. -/
theorem isCodec_zeroArm {α : Type} (typeName : String) {v : α} (hv : ∀ w, w = v) :
    IsCodec (fun _ : α => True) encodeZeroArm (decodeZeroArm typeName v) := by
  have htag : IsCodec (fun _ : α => True ∧ True) (fun _ => encode (0 : UInt32))
      (decodeZeroArm typeName v) := by
    refine (isCodec (α := UInt32)).tagged fun disc _ => ?_
    by_cases h : disc = 0
    · rw [if_pos h]
      exact IsCodec.pure v fun w => iff_of_true ⟨h.symm, trivial⟩ (hv w)
    · rw [if_neg h]
      exact IsCodec.fail _ fun w hw => h hw.1.symm
  exact htag.congr (fun _ => (iff_of_eq (and_true _)).symm) fun _ _ => rfl

instance : XdrWf StateProtect4r where
  wellFormed _ := True

instance : LawfulXdr StateProtect4r where
  isCodec := isCodec_zeroArm "StateProtect4r" fun .spNone => rfl

instance : XdrWf OpenDelegation4 where
  wellFormed _ := True

instance : LawfulXdr OpenDelegation4 where
  isCodec := isCodec_zeroArm "OpenDelegation4" fun .none => rfl

/-! ### `base.rs` and `bitmap.rs` -/

instance : XdrWf NfsFh4 where
  wellFormed fh := fh.bytes.length ≤ 128

instance : LawfulXdr NfsFh4 where
  isCodec := by
    have htag : IsCodec (fun fh : NfsFh4 => wellFormed (Opaque.mk fh.bytes) ∧ wellFormed fh)
        (fun fh => encode (Opaque.mk fh.bytes)) (decode : Decoder UInt8 XdrError NfsFh4) := by
      refine (isCodec (α := Opaque)).tagged fun opq _ => ?_
      by_cases h : 128 < opq.bytes.length
      · rw [if_pos h]
        refine IsCodec.fail _ fun fh => ?_
        rintro ⟨rfl, hfh⟩
        exact absurd hfh (Nat.not_le.mpr h)
      · rw [if_neg h]
        refine IsCodec.pure _ fun fh => ?_
        constructor
        · rintro ⟨rfl, -⟩
          rfl
        · rintro rfl
          exact ⟨rfl, Nat.not_lt.mp h⟩
    -- The bound of 128 bytes implies the bound of the length word.
    refine htag.congr (fun fh => ⟨fun h => ⟨?_, h⟩, fun h => h.2⟩) fun _ _ => rfl
    show fh.bytes.length < 2 ^ 32
    have : fh.bytes.length ≤ 128 := h
    omega

instance : XdrWf ClientId4 where
  wellFormed c := wellFormed c.id

instance : LawfulXdr ClientId4 where
  isCodec := isCodec.wrap ClientId4.mk ClientId4.id (fun _ => rfl) fun _ => rfl

instance {n : Nat} : XdrWf (FixedOpaque n) where
  wellFormed _ := True

/-- Bytes of the right length are kept. -/
theorem FixedOpaque.bytes_ofBytes {n : Nat} {bs : Bytes} (h : bs.length = n) :
    (FixedOpaque.ofBytes n bs).bytes = bs := by
  show (bs ++ List.replicate n 0).take n = bs
  rw [← h, List.take_left]

instance {n : Nat} : LawfulXdr (FixedOpaque n) where
  isCodec := by
    refine (isCodec_readFixed n).map (FixedOpaque.ofBytes n) (fun v => iff_of_true trivial ?_)
      fun bs hbs => ?_
    · refine ⟨v.bytes, v.length_eq, ?_⟩
      rw [FixedOpaque.mk.injEq, FixedOpaque.bytes_ofBytes v.length_eq]
    · show Except.ok (FixedOpaque.ofBytes n bs).bytes = _
      rw [FixedOpaque.bytes_ofBytes hbs]

instance : XdrWf StateId4 where
  wellFormed v := wellFormed v.seqid ∧ wellFormed v.other

instance : LawfulXdr StateId4 where
  isCodec := record <|
    field StateId4.seqid isCodec fun seqid =>
    last StateId4.other isCodec fun v other => by cases v; simp

instance : XdrWf NfsTime4 where
  wellFormed v := wellFormed v.seconds ∧ wellFormed v.nseconds

instance : LawfulXdr NfsTime4 where
  isCodec := record <|
    field NfsTime4.seconds isCodec fun seconds =>
    last NfsTime4.nseconds isCodec fun v nseconds => by cases v; simp

instance : XdrWf ChangeInfo4 where
  wellFormed v := wellFormed v.atomic ∧ wellFormed v.before ∧ wellFormed v.after

instance : LawfulXdr ChangeInfo4 where
  isCodec := record <|
    field ChangeInfo4.atomic isCodec fun atomic =>
    field ChangeInfo4.before isCodec fun before =>
    last ChangeInfo4.after isCodec fun v after => by cases v; simp [and_assoc]

instance : XdrWf Bitmap4 where
  wellFormed v := wellFormed v.words

instance : LawfulXdr Bitmap4 where
  isCodec := isCodec.wrap Bitmap4.mk Bitmap4.words (fun _ => rfl) fun _ => rfl

instance : XdrWf Fattr4 where
  wellFormed v := wellFormed v.attrmask ∧ wellFormed (Opaque.mk v.attrVals)

instance : LawfulXdr Fattr4 where
  isCodec := record <|
    field Fattr4.attrmask isCodec fun attrmask =>
    last (fun v : Fattr4 => Opaque.mk v.attrVals) isCodec fun v attrVals => by
      cases v
      cases attrVals
      simp

/-! ### The result of an operation -/

instance {β : Type} [XdrWf β] : XdrWf (OpResult β) where
  wellFormed r := (r.resok.isSome ↔ r.status.isOk) ∧ ∀ ok ∈ r.resok, wellFormed ok

instance {β : Type} [XdrEncode β] [XdrDecode β] [XdrWf β] [LawfulXdr β] :
    LawfulXdr (OpResult β) where
  isCodec := by
    have hstatus : IsCodec (fun r : OpResult β => True ∧ wellFormed r)
        (fun r => Encoded.seq [encode r.status,
          match r.resok with
          | some ok => encode ok
          | none => .ok []])
        (decode : Decoder UInt8 XdrError (OpResult β)) := by
      refine (isCodec (α := NfsStat4)).bind fun status _ => ?_
      by_cases hok : status.isOk
      · -- The status is `Ok`, so the body follows.
        rw [if_pos hok, bind_pure_comp]
        refine (isCodec (α := β)).map (fun ok => OpResult.mk status (some ok)) (fun r => ?_) ?_
        · constructor
          · rintro ⟨rfl, hsome, hbody⟩
            obtain ⟨ok, hr⟩ := Option.isSome_iff_exists.mp (hsome.mpr hok)
            exact ⟨ok, hbody ok hr, by rw [← hr]⟩
          · rintro ⟨ok, hwf, rfl⟩
            refine ⟨rfl, iff_of_true rfl hok, fun x hx => ?_⟩
            obtain rfl := Option.some.inj hx
            exact hwf
        · exact fun ok _ => rfl
      -- Without the status `Ok` nothing follows, and the body must be missing.
      · rw [if_neg hok]
        refine (IsCodec.single (OpResult.mk status none)).congr (fun r => ?_) fun r hr => ?_
        · constructor
          · rintro ⟨rfl, hsome, -⟩
            have hnone : r.resok = none :=
              Option.not_isSome_iff_eq_none.mp fun h => hok (hsome.mp h)
            rw [← hnone]
          · rintro rfl
            exact ⟨rfl, iff_of_false Bool.false_ne_true hok, by simp⟩
        · rw [hr]
    exact hstatus.congr (fun _ => (iff_of_eq (true_and _)).symm) fun _ _ => rfl

/-! ### `ops/filehandle.rs` -/

instance : XdrWf GetAttr4resok where
  wellFormed v := wellFormed v.objAttributes

instance : LawfulXdr GetAttr4resok where
  isCodec := isCodec.wrap GetAttr4resok.mk GetAttr4resok.objAttributes (fun _ => rfl) fun _ => rfl

instance : XdrWf SetAttr4resok where
  wellFormed v := wellFormed v.attrsset

instance : LawfulXdr SetAttr4resok where
  isCodec := isCodec.wrap SetAttr4resok.mk SetAttr4resok.attrsset (fun _ => rfl) fun _ => rfl

/-! ### `ops/session.rs` -/

instance : XdrWf NfsImplId4 where
  wellFormed v := wellFormed v.niiDomain ∧ wellFormed v.niiName ∧ wellFormed v.niiDate

instance : LawfulXdr NfsImplId4 where
  isCodec := record <|
    field NfsImplId4.niiDomain isCodec fun niiDomain =>
    field NfsImplId4.niiName isCodec fun niiName =>
    last NfsImplId4.niiDate isCodec fun v niiDate => by cases v; simp [and_assoc]

instance : XdrWf ServerOwner4 where
  wellFormed v := wellFormed v.soMinorId ∧ wellFormed v.soMajorId

instance : LawfulXdr ServerOwner4 where
  isCodec := record <|
    field ServerOwner4.soMinorId isCodec fun soMinorId =>
    last ServerOwner4.soMajorId isCodec fun v soMajorId => by cases v; simp

instance : XdrWf ChannelAttrs4 where
  wellFormed v :=
    wellFormed v.caHeaderpadsize ∧ wellFormed v.caMaxrequestsize ∧
    wellFormed v.caMaxresponsesize ∧ wellFormed v.caMaxresponsesizeCached ∧
    wellFormed v.caMaxoperations ∧ wellFormed v.caMaxrequests ∧ wellFormed v.caRdmaIrd

instance : LawfulXdr ChannelAttrs4 where
  isCodec := record <|
    field ChannelAttrs4.caHeaderpadsize isCodec fun caHeaderpadsize =>
    field ChannelAttrs4.caMaxrequestsize isCodec fun caMaxrequestsize =>
    field ChannelAttrs4.caMaxresponsesize isCodec fun caMaxresponsesize =>
    field ChannelAttrs4.caMaxresponsesizeCached isCodec fun caMaxresponsesizeCached =>
    field ChannelAttrs4.caMaxoperations isCodec fun caMaxoperations =>
    field ChannelAttrs4.caMaxrequests isCodec fun caMaxrequests =>
    last ChannelAttrs4.caRdmaIrd isCodec fun v caRdmaIrd => by cases v; simp [and_assoc]

instance : XdrWf ExchangeId4resok where
  wellFormed v :=
    wellFormed v.eirClientid ∧ wellFormed v.eirSequenceid ∧ wellFormed v.eirFlags ∧
    wellFormed v.eirStateProtect ∧ wellFormed v.eirServerOwner ∧
    wellFormed v.eirServerScope ∧ wellFormed v.eirServerImplId

instance : LawfulXdr ExchangeId4resok where
  isCodec := record <|
    field ExchangeId4resok.eirClientid isCodec fun eirClientid =>
    field ExchangeId4resok.eirSequenceid isCodec fun eirSequenceid =>
    field ExchangeId4resok.eirFlags isCodec fun eirFlags =>
    field ExchangeId4resok.eirStateProtect isCodec fun eirStateProtect =>
    field ExchangeId4resok.eirServerOwner isCodec fun eirServerOwner =>
    field ExchangeId4resok.eirServerScope isCodec fun eirServerScope =>
    last ExchangeId4resok.eirServerImplId isCodec fun v eirServerImplId => by
      cases v; simp [and_assoc]

instance : XdrWf CreateSession4resok where
  wellFormed v :=
    wellFormed v.csrSessionid ∧ wellFormed v.csrSequence ∧ wellFormed v.csrFlags ∧
    wellFormed v.csrForeChanAttrs ∧ wellFormed v.csrBackChanAttrs

instance : LawfulXdr CreateSession4resok where
  isCodec := record <|
    field CreateSession4resok.csrSessionid isCodec fun csrSessionid =>
    field CreateSession4resok.csrSequence isCodec fun csrSequence =>
    field CreateSession4resok.csrFlags isCodec fun csrFlags =>
    field CreateSession4resok.csrForeChanAttrs isCodec fun csrForeChanAttrs =>
    last CreateSession4resok.csrBackChanAttrs isCodec fun v csrBackChanAttrs => by
      cases v; simp [and_assoc]

instance : XdrWf Sequence4resok where
  wellFormed v :=
    wellFormed v.srSessionid ∧ wellFormed v.srSequenceid ∧ wellFormed v.srSlotid ∧
    wellFormed v.srHighestSlotid ∧ wellFormed v.srTargetHighestSlotid ∧
    wellFormed v.srStatusFlags

instance : LawfulXdr Sequence4resok where
  isCodec := record <|
    field Sequence4resok.srSessionid isCodec fun srSessionid =>
    field Sequence4resok.srSequenceid isCodec fun srSequenceid =>
    field Sequence4resok.srSlotid isCodec fun srSlotid =>
    field Sequence4resok.srHighestSlotid isCodec fun srHighestSlotid =>
    field Sequence4resok.srTargetHighestSlotid isCodec fun srTargetHighestSlotid =>
    last Sequence4resok.srStatusFlags isCodec fun v srStatusFlags => by cases v; simp [and_assoc]

/-! ### `ops/data.rs` -/

instance : XdrWf Open4resok where
  wellFormed v :=
    wellFormed v.stateid ∧ wellFormed v.cinfo ∧ wellFormed v.rflags ∧
    wellFormed v.attrset ∧ wellFormed v.delegation

instance : LawfulXdr Open4resok where
  isCodec := record <|
    field Open4resok.stateid isCodec fun stateid =>
    field Open4resok.cinfo isCodec fun cinfo =>
    field Open4resok.rflags isCodec fun rflags =>
    field Open4resok.attrset isCodec fun attrset =>
    last Open4resok.delegation isCodec fun v delegation => by cases v; simp [and_assoc]

instance : XdrWf Close4resok where
  wellFormed v := wellFormed v.openStateid

instance : LawfulXdr Close4resok where
  isCodec := isCodec.wrap Close4resok.mk Close4resok.openStateid (fun _ => rfl) fun _ => rfl

instance : XdrWf Read4resok where
  wellFormed v := wellFormed v.eof ∧ wellFormed v.data

instance : LawfulXdr Read4resok where
  isCodec := record <|
    field Read4resok.eof isCodec fun eof =>
    last Read4resok.data isCodec fun v data => by cases v; simp

instance : XdrWf Write4resok where
  wellFormed v := wellFormed v.count ∧ wellFormed v.committed ∧ wellFormed v.writeverf

instance : LawfulXdr Write4resok where
  isCodec := record <|
    field Write4resok.count isCodec fun count =>
    field Write4resok.committed isCodec fun committed =>
    last Write4resok.writeverf isCodec fun v writeverf => by cases v; simp [and_assoc]

instance : XdrWf Remove4resok where
  wellFormed v := wellFormed v.cinfo

instance : LawfulXdr Remove4resok where
  isCodec := isCodec.wrap Remove4resok.mk Remove4resok.cinfo (fun _ => rfl) fun _ => rfl

instance : XdrWf Rename4resok where
  wellFormed v := wellFormed v.sourceCinfo ∧ wellFormed v.targetCinfo

instance : LawfulXdr Rename4resok where
  isCodec := record <|
    field Rename4resok.sourceCinfo isCodec fun sourceCinfo =>
    last Rename4resok.targetCinfo isCodec fun v targetCinfo => by cases v; simp

/-! The entry chain of a directory listing has no count, so any number of entries is
well-formed. -/

instance : XdrWf Entry4 where
  wellFormed v := wellFormed v.cookie ∧ wellFormed v.name ∧ wellFormed v.attrs

/-- The three fields of an entry. -/
private theorem isCodec_entryFields :
    IsCodec (wellFormed (α := Entry4))
      (fun entry => Encoded.seq [encode entry.cookie, encode entry.name, encode entry.attrs])
      (do
        let cookie ← decode
        let name ← decode
        let attrs ← decode
        pure { cookie, name, attrs }) :=
  record <|
    field Entry4.cookie isCodec fun cookie =>
    field Entry4.name isCodec fun name =>
    last Entry4.attrs isCodec fun v attrs => by cases v; simp [and_assoc]

/-- What follows the word that says whether there is an entry. -/
private def encodeFields : Option Entry4 → Encoded UInt8 XdrError
  | some entry => Encoded.seq [encode entry.cookie, encode entry.name, encode entry.attrs]
  | none => .ok []

/-- One link of the chain. -/
theorem isCodec_entry :
    IsCodec (fun o : Option Entry4 => ∀ entry ∈ o, wellFormed entry) encodeEntry decodeEntry := by
  have hlink : IsCodec (fun o : Option Entry4 => True ∧ ∀ entry ∈ o, wellFormed entry)
      (fun o => Encoded.seq [encode o.isSome, encodeFields o]) decodeEntry := by
    refine (isCodec (α := Bool)).bind fun hasEntry _ => ?_
    cases hasEntry with
    | false =>
        -- The word 0 ends the chain.
        refine (IsCodec.single none).congr (fun o => ?_) fun o ho => ?_
        · constructor
          · exact fun h => Option.not_isSome_iff_eq_none.mp (by simp [h.1])
          · rintro rfl
            exact ⟨rfl, by simp⟩
        · rw [ho]
          rfl
    | true =>
        -- The word 1 is followed by the fields of the entry, and by its successors.
        have hsome : IsCodec (fun o : Option Entry4 => o.isSome = true ∧ ∀ e ∈ o, wellFormed e)
            encodeFields
            (some <$> do
              let cookie ← decode
              let name ← decode
              let attrs ← decode
              pure { cookie, name, attrs }) := by
          refine isCodec_entryFields.map some (fun o => ?_) fun entry _ => rfl
          cases o with
          | none => simp
          | some entry => simp
        rw [if_neg (by decide)]
        simpa only [map_bind, map_pure] using hsome
  refine hlink.congr (fun _ => (iff_of_eq (true_and _)).symm) fun o _ => ?_
  cases o with
  | none => exact ((Encoded.seq_pair_seq _ []).trans (Encoded.seq_singleton _)).symm
  | some entry => exact (Encoded.seq_pair_seq _ _).symm

/-- A link takes at least the word that says whether an entry follows. -/
theorem progress_decodeEntry : Decoder.Progress decodeEntry := by
  refine isCodec_entry.reads.progress fun o k ⟨_, hk⟩ => ?_
  have hword : ∀ b : Bool, Encoded.Sized (encode b : Encoded UInt8 XdrError) 4 :=
    fun b => ⟨_, rfl, length_beBytes 4 _⟩
  have h4 : 4 ≤ k := by
    cases o with
    | none =>
        have hseq : Encoded.Sized (Encoded.seq [encode false]) k := by
          rw [Encoded.seq_singleton]
          exact hk
        exact (hword false).le_of_cons hseq
    | some entry => exact (hword true).le_of_cons hk
  exact Nat.lt_of_lt_of_le (by decide) h4

instance : XdrWf DirList4 where
  wellFormed v := ∀ entry ∈ v.entries, wellFormed entry

instance : XdrWf ReadDir4resok where
  wellFormed v := wellFormed v.cookieverf ∧ wellFormed v.reply

instance : LawfulXdr ReadDir4resok where
  isCodec := by
    -- The chain is the loop over links, and the word without an entry ends it.
    have hchain := isCodec_entry.loop (by simp) progress_decodeEntry
    have hrec := record <|
      field ReadDir4resok.cookieverf isCodec fun cookieverf =>
      field (fun v : ReadDir4resok => v.reply.entries) hchain fun entries =>
      last (fun v : ReadDir4resok => v.reply.eof) (isCodec (α := Bool))
        (f := fun eof => ⟨cookieverf, ⟨entries, eof⟩⟩) fun v eof => by
          obtain ⟨w, ⟨es, e⟩⟩ := v
          simp [and_assoc]
    exact hrec.congr (fun v => by simp [wellFormed]) fun _ _ => rfl

end NfsMount.Nfs4Types
