import NfsMount.Proofs.Nfs4Types
import NfsMount.Server.Request

/-!
# `NfsMount.Proofs.Request`: the COMPOUND request is a prefix code

For each type a request is made of: it is a codec (`LawfulXdr`), and what encodes is well
formed and fills whole words (`AlignedXdr`). An instance of either follows the encoder field
by field.

`NfsArgOp4` is a union over the operation number. Its numbers are distinct and its arms are
codecs, so a server reads back every request that encodes (`read_request`). From this,
`request_prefix_free`: no request's encoding starts with that of another one.
-/

set_option autoImplicit false

namespace NfsMount.Nfs4Types

open NfsMount.Lib NfsMount.XdrCodec NfsMount.Server IsCodec

/-! ### Base types -/

/-- Fixed opaque data of whole words. -/
theorem aligned_fixedOpaque {n : Nat} (hn : 4 ∣ n) (v : FixedOpaque n) :
    Encoded.Aligned 4 (wellFormed v) (encode v) :=
  Encoded.aligned_ok (by rwa [v.length_eq])

instance : AlignedXdr Verifier4 where
  aligned := aligned_fixedOpaque (by decide)

instance : AlignedXdr SessionId4 where
  aligned := aligned_fixedOpaque (by decide)

instance : AlignedXdr StateIdOther where
  aligned := aligned_fixedOpaque (by decide)

instance : AlignedXdr ClientId4 where
  aligned v := aligned v.id

instance : AlignedXdr StateId4 where
  aligned v := (aligned v.seqid).cons <| (aligned v.other).last

instance : AlignedXdr NfsTime4 where
  aligned v := (aligned v.seconds).cons <| (aligned v.nseconds).last

instance : AlignedXdr Bitmap4 where
  aligned v := aligned v.words

instance : AlignedXdr Fattr4 where
  aligned v := (aligned v.attrmask).cons <| (aligned (Opaque.mk v.attrVals)).last

instance : AlignedXdr NfsImplId4 where
  aligned v := (aligned v.niiDomain).cons <| (aligned v.niiName).cons <| (aligned v.niiDate).last

instance : AlignedXdr ChannelAttrs4 where
  aligned v :=
    (aligned v.caHeaderpadsize).cons <| (aligned v.caMaxrequestsize).cons <|
    (aligned v.caMaxresponsesize).cons <| (aligned v.caMaxresponsesizeCached).cons <|
    (aligned v.caMaxoperations).cons <| (aligned v.caMaxrequests).cons <|
    (aligned v.caRdmaIrd).last

/-! ### `ops/filehandle.rs` -/

/-- A filehandle of any length the length word can hold. -/
instance : XdrWf PutFh4args where
  wellFormed v := wellFormed (Opaque.mk v.object.bytes)

/-- A PUTFH is read as its filehandle. -/
theorem isCodec_readPutFh :
    IsCodec (wellFormed (α := PutFh4args)) encode readPutFh :=
  (isCodec (α := Opaque)).wrap (fun o => PutFh4args.mk ⟨o.bytes⟩)
    (fun v => Opaque.mk v.object.bytes) (fun _ => rfl) fun _ => rfl

instance : AlignedXdr PutFh4args where
  aligned v := aligned (Opaque.mk v.object.bytes)

instance : XdrWf Lookup4args where
  wellFormed v := wellFormed v.objname

instance : LawfulXdr Lookup4args where
  isCodec := isCodec.wrap Lookup4args.mk Lookup4args.objname (fun _ => rfl) fun _ => rfl

instance : AlignedXdr Lookup4args where
  aligned v := aligned v.objname

instance : XdrWf GetAttr4args where
  wellFormed v := wellFormed v.attrRequest

instance : LawfulXdr GetAttr4args where
  isCodec := isCodec.wrap GetAttr4args.mk GetAttr4args.attrRequest (fun _ => rfl) fun _ => rfl

instance : AlignedXdr GetAttr4args where
  aligned v := aligned v.attrRequest

instance : XdrWf SetAttr4args where
  wellFormed v := wellFormed v.saStateid ∧ wellFormed v.saFattr

instance : LawfulXdr SetAttr4args where
  isCodec := record <|
    field SetAttr4args.saStateid isCodec fun saStateid =>
    last SetAttr4args.saFattr isCodec fun v saFattr => by cases v; simp

instance : AlignedXdr SetAttr4args where
  aligned v := (aligned v.saStateid).cons <| (aligned v.saFattr).last

/-! ### `ops/session.rs` -/

instance : XdrWf ClientOwner4 where
  wellFormed v := wellFormed v.coVerifier ∧ wellFormed v.coOwnerid

instance : LawfulXdr ClientOwner4 where
  isCodec := record <|
    field ClientOwner4.coVerifier isCodec fun coVerifier =>
    last ClientOwner4.coOwnerid isCodec fun v coOwnerid => by cases v; simp

instance : AlignedXdr ClientOwner4 where
  aligned v := (aligned v.coVerifier).cons <| (aligned v.coOwnerid).last

instance : XdrWf StateProtect4a where
  wellFormed _ := True

instance : LawfulXdr StateProtect4a where
  isCodec := isCodec_zeroArm "StateProtect4a" fun .spNone => rfl

instance : AlignedXdr StateProtect4a where
  aligned _ := aligned (0 : UInt32)

instance : XdrWf CallbackSecParms4 where
  wellFormed _ := True

/-- The decoder skips the word behind the flavor, so it reads back what was written there,
whatever that is. -/
theorem isCodec_skipWord :
    IsCodec (fun _ : CallbackSecParms4 => True) (fun _ => encode (0 : UInt32))
      (do
        let _bodyLen : UInt32 ← decode
        pure .authNone) where
  yields v _ := by
    obtain ⟨p, hp, hd⟩ := (isCodec (α := UInt32)).yields 0 trivial
    refine ⟨p, hp, fun r => ?_⟩
    rw [Decoder.run_bind_ok (hd r), Decoder.run_pure]
  reads := by
    refine (isCodec (α := UInt32)).reads.bind fun _ n hn => Decoder.reads_pure ⟨trivial, ?_⟩
    -- All words have the same length.
    obtain ⟨-, p, hp, rfl⟩ := hn
    obtain rfl := Except.ok.inj hp
    exact ⟨_, rfl, by rw [length_beBytes, length_beBytes]⟩
  noPanic := isCodec.noPanic.bind isCodec.reads fun _ _ _ => Decoder.noPanic_pure _

instance : LawfulXdr CallbackSecParms4 where
  isCodec := by
    have hflavor : IsCodec (fun _ : CallbackSecParms4 => True ∧ True)
        (fun _ => Encoded.seq [encode (0 : UInt32), encode (0 : UInt32)])
        (decode : Decoder UInt8 XdrError CallbackSecParms4) := by
      refine (isCodec (α := UInt32)).bind fun flavor _ => ?_
      by_cases h : flavor = 0
      · rw [if_pos h]
        exact isCodec_skipWord.congr (fun _ => iff_of_true ⟨h.symm, trivial⟩ trivial)
          fun _ _ => rfl
      · rw [if_neg h]
        exact IsCodec.fail _ fun _ hv => h hv.1.symm
    exact hflavor.congr (fun _ => (iff_of_eq (and_true _)).symm) fun .authNone _ => rfl

instance : AlignedXdr CallbackSecParms4 where
  aligned
    | .authNone => ((aligned (0 : UInt32)).cons <| (aligned (0 : UInt32)).last).imp fun _ => trivial

instance : XdrWf ExchangeId4args where
  wellFormed v :=
    wellFormed v.eiaClientowner ∧ wellFormed v.eiaFlags ∧ wellFormed v.eiaStateProtect ∧
    wellFormed v.eiaClientImplId

instance : LawfulXdr ExchangeId4args where
  isCodec := record <|
    field ExchangeId4args.eiaClientowner isCodec fun eiaClientowner =>
    field ExchangeId4args.eiaFlags isCodec fun eiaFlags =>
    field ExchangeId4args.eiaStateProtect isCodec fun eiaStateProtect =>
    last ExchangeId4args.eiaClientImplId isCodec fun v eiaClientImplId => by
      cases v; simp [and_assoc]

instance : AlignedXdr ExchangeId4args where
  aligned v :=
    (aligned v.eiaClientowner).cons <| (aligned v.eiaFlags).cons <|
    (aligned v.eiaStateProtect).cons <| (aligned v.eiaClientImplId).last

instance : XdrWf CreateSession4args where
  wellFormed v :=
    wellFormed v.csaClientid ∧ wellFormed v.csaSequence ∧ wellFormed v.csaFlags ∧
    wellFormed v.csaForeChanAttrs ∧ wellFormed v.csaBackChanAttrs ∧
    wellFormed v.csaCbProgram ∧ wellFormed v.csaSecParms

instance : LawfulXdr CreateSession4args where
  isCodec := record <|
    field CreateSession4args.csaClientid isCodec fun csaClientid =>
    field CreateSession4args.csaSequence isCodec fun csaSequence =>
    field CreateSession4args.csaFlags isCodec fun csaFlags =>
    field CreateSession4args.csaForeChanAttrs isCodec fun csaForeChanAttrs =>
    field CreateSession4args.csaBackChanAttrs isCodec fun csaBackChanAttrs =>
    field CreateSession4args.csaCbProgram isCodec fun csaCbProgram =>
    last CreateSession4args.csaSecParms isCodec fun v csaSecParms => by
      cases v; simp [and_assoc]

instance : AlignedXdr CreateSession4args where
  aligned v :=
    (aligned v.csaClientid).cons <| (aligned v.csaSequence).cons <|
    (aligned v.csaFlags).cons <| (aligned v.csaForeChanAttrs).cons <|
    (aligned v.csaBackChanAttrs).cons <| (aligned v.csaCbProgram).cons <|
    (aligned v.csaSecParms).last

instance : XdrWf DestroySession4args where
  wellFormed v := wellFormed v.dsaSessionid

instance : LawfulXdr DestroySession4args where
  isCodec := isCodec.wrap DestroySession4args.mk DestroySession4args.dsaSessionid
    (fun _ => rfl) fun _ => rfl

instance : AlignedXdr DestroySession4args where
  aligned v := aligned v.dsaSessionid

instance : XdrWf Sequence4args where
  wellFormed v :=
    wellFormed v.saSessionid ∧ wellFormed v.saSequenceid ∧ wellFormed v.saSlotid ∧
    wellFormed v.saHighestSlotid ∧ wellFormed v.saCachethis

instance : LawfulXdr Sequence4args where
  isCodec := record <|
    field Sequence4args.saSessionid isCodec fun saSessionid =>
    field Sequence4args.saSequenceid isCodec fun saSequenceid =>
    field Sequence4args.saSlotid isCodec fun saSlotid =>
    field Sequence4args.saHighestSlotid isCodec fun saHighestSlotid =>
    last Sequence4args.saCachethis isCodec fun v saCachethis => by cases v; simp [and_assoc]

instance : AlignedXdr Sequence4args where
  aligned v :=
    (aligned v.saSessionid).cons <| (aligned v.saSequenceid).cons <|
    (aligned v.saSlotid).cons <| (aligned v.saHighestSlotid).cons <|
    (aligned v.saCachethis).last

instance : XdrWf ReclaimComplete4args where
  wellFormed v := wellFormed v.rcaOneFs

instance : LawfulXdr ReclaimComplete4args where
  isCodec := isCodec.wrap ReclaimComplete4args.mk ReclaimComplete4args.rcaOneFs
    (fun _ => rfl) fun _ => rfl

instance : AlignedXdr ReclaimComplete4args where
  aligned v := aligned v.rcaOneFs

/-! ### `ops/data.rs` -/

instance : XdrWf OpenOwner4 where
  wellFormed v := wellFormed v.clientid ∧ wellFormed v.owner

instance : LawfulXdr OpenOwner4 where
  isCodec := record <|
    field OpenOwner4.clientid isCodec fun clientid =>
    last OpenOwner4.owner isCodec fun v owner => by cases v; simp

instance : AlignedXdr OpenOwner4 where
  aligned v := (aligned v.clientid).cons <| (aligned v.owner).last

instance : XdrWf OpenFlag4 where
  wellFormed
    | .noCreate => True
    | .createUnchecked attrs => wellFormed attrs

namespace OpenFlag4

/-- The discriminant an open flag is written with. -/
def disc : OpenFlag4 → UInt32
  | .noCreate => 0
  | .createUnchecked _ => 1

/-- What follows the discriminant of the creation mode. -/
def encodeAttrs : OpenFlag4 → Encoded UInt8 XdrError
  | .noCreate => .ok []
  | .createUnchecked attrs => encode attrs

/-- What follows the discriminant of the open flag. -/
def encodeHow : OpenFlag4 → Encoded UInt8 XdrError
  | .noCreate => .ok []
  | .createUnchecked attrs => Encoded.seq [encode UNCHECKED4, encode attrs]

/-- How a file is opened is a word, and what that needs. -/
theorem encode_eq (v : OpenFlag4) : encode v = Encoded.seq [encode v.disc, v.encodeHow] := by
  cases v with
  | noCreate => rfl
  | createUnchecked attrs => exact (Encoded.seq_pair_seq _ _).symm

/-- The arm of a creation, which has a mode of its own. -/
theorem isCodec_create :
    IsCodec (fun v : OpenFlag4 => v.disc = 1 ∧ wellFormed v) encodeHow
      (do
        let how : UInt32 ← decode
        if how = 0 then .createUnchecked <$> decode
        else Decoder.fail (.invalidEnum how "createhow4")) := by
  have hmode : IsCodec (fun v : OpenFlag4 => True ∧ v.disc = 1 ∧ wellFormed v)
      (fun v => Encoded.seq [encode UNCHECKED4, v.encodeAttrs])
      (do
        let how : UInt32 ← decode
        if how = 0 then .createUnchecked <$> decode
        else Decoder.fail (.invalidEnum how "createhow4")) := by
    refine (isCodec (α := UInt32)).bind fun how _ => ?_
    by_cases h : how = 0
    · subst h
      rw [if_pos rfl]
      refine (isCodec (α := Fattr4)).map OpenFlag4.createUnchecked (fun v => ?_) fun _ _ => rfl
      cases v with
      | noCreate => simp [disc]
      | createUnchecked attrs => simp [disc, UNCHECKED4, wellFormed]
    · rw [if_neg h]
      exact IsCodec.fail _ fun v hv => h hv.1.symm
  refine hmode.congr (fun _ => (iff_of_eq (true_and _)).symm) fun v hv => ?_
  cases v with
  | noCreate => simp [disc] at hv
  | createUnchecked attrs => rfl

end OpenFlag4

instance : LawfulXdr OpenFlag4 where
  isCodec := by
    have hunion : IsCodec (fun v : OpenFlag4 => True ∧ wellFormed v)
        (fun v => Encoded.seq [encode v.disc, v.encodeHow])
        (decode : Decoder UInt8 XdrError OpenFlag4) := by
      refine (isCodec (α := UInt32)).bind fun disc _ => ?_
      refine unitArm OpenFlag4.noCreate ⟨rfl, trivial, rfl⟩ (fun v hv => ?_) fun h0 => ?_
      · cases v with
        | noCreate => rfl
        | createUnchecked attrs => simp [OpenFlag4.disc] at hv
      · by_cases h1 : disc = 1
        · subst h1
          rw [if_pos rfl]
          exact OpenFlag4.isCodec_create
        · rw [if_neg h1]
          refine IsCodec.fail _ fun v hv => ?_
          cases v with
          | noCreate => exact h0 hv.1.symm
          | createUnchecked attrs => exact h1 hv.1.symm
    exact hunion.congr (fun _ => (iff_of_eq (true_and _)).symm) fun v _ => v.encode_eq

instance : AlignedXdr OpenFlag4 where
  aligned
    | .noCreate => aligned (0 : UInt32)
    | .createUnchecked attrs =>
        (aligned (1 : UInt32)).tag <| (aligned UNCHECKED4).tag <| (aligned attrs).last

instance : XdrWf OpenClaim4 where
  wellFormed
    | .claimNull name => wellFormed name
    | .claimFh => True

namespace OpenClaim4

/-- The discriminant a claim is written with. -/
def disc : OpenClaim4 → UInt32
  | .claimNull _ => CLAIM_NULL
  | .claimFh => CLAIM_FH

/-- What follows the discriminant. -/
def encodeBody : OpenClaim4 → Encoded UInt8 XdrError
  | .claimNull name => encode name
  | .claimFh => .ok []

/-- A claim is a word, and what that needs. -/
theorem encode_eq (v : OpenClaim4) : encode v = Encoded.seq [encode v.disc, v.encodeBody] := by
  cases v <;> rfl

end OpenClaim4

instance : LawfulXdr OpenClaim4 where
  isCodec := by
    have hunion : IsCodec (fun v : OpenClaim4 => True ∧ wellFormed v)
        (fun v => Encoded.seq [encode v.disc, v.encodeBody])
        (decode : Decoder UInt8 XdrError OpenClaim4) := by
      refine (isCodec (α := UInt32)).bind fun disc _ => ?_
      refine
        isCodec.arm OpenClaim4.claimNull (fun _ => ⟨rfl, Iff.rfl, rfl⟩) (fun v hv => ?_) fun h0 =>
        unitArm OpenClaim4.claimFh ⟨rfl, trivial, rfl⟩ (fun v hv => ?_) fun h4 =>
        IsCodec.fail _ fun v hv => ?_
      · cases v with
        | claimNull name => exact ⟨name, rfl⟩
        | claimFh => exact absurd hv (by decide)
      · cases v with
        | claimNull name => exact absurd hv (by dsimp only [OpenClaim4.disc]; decide)
        | claimFh => rfl
      · cases v with
        | claimNull name => exact h0 hv.1.symm
        | claimFh => exact h4 hv.1.symm
    exact hunion.congr (fun _ => (iff_of_eq (true_and _)).symm) fun v _ => v.encode_eq

instance : AlignedXdr OpenClaim4 where
  aligned
    | .claimNull name => (aligned CLAIM_NULL).tag <| (aligned name).last
    | .claimFh => aligned CLAIM_FH

instance : XdrWf Open4args where
  wellFormed v :=
    wellFormed v.seqid ∧ wellFormed v.shareAccess ∧ wellFormed v.shareDeny ∧
    wellFormed v.owner ∧ wellFormed v.openhow ∧ wellFormed v.claim

instance : LawfulXdr Open4args where
  isCodec := record <|
    field Open4args.seqid isCodec fun seqid =>
    field Open4args.shareAccess isCodec fun shareAccess =>
    field Open4args.shareDeny isCodec fun shareDeny =>
    field Open4args.owner isCodec fun owner =>
    field Open4args.openhow isCodec fun openhow =>
    last Open4args.claim isCodec fun v claim => by cases v; simp [and_assoc]

instance : AlignedXdr Open4args where
  aligned v :=
    (aligned v.seqid).cons <| (aligned v.shareAccess).cons <| (aligned v.shareDeny).cons <|
    (aligned v.owner).cons <| (aligned v.openhow).cons <| (aligned v.claim).last

instance : XdrWf Close4args where
  wellFormed v := wellFormed v.seqid ∧ wellFormed v.openStateid

instance : LawfulXdr Close4args where
  isCodec := record <|
    field Close4args.seqid isCodec fun seqid =>
    last Close4args.openStateid isCodec fun v openStateid => by cases v; simp

instance : AlignedXdr Close4args where
  aligned v := (aligned v.seqid).cons <| (aligned v.openStateid).last

instance : XdrWf Read4args where
  wellFormed v := wellFormed v.stateid ∧ wellFormed v.offset ∧ wellFormed v.count

instance : LawfulXdr Read4args where
  isCodec := record <|
    field Read4args.stateid isCodec fun stateid =>
    field Read4args.offset isCodec fun offset =>
    last Read4args.count isCodec fun v count => by cases v; simp [and_assoc]

instance : AlignedXdr Read4args where
  aligned v := (aligned v.stateid).cons <| (aligned v.offset).cons <| (aligned v.count).last

instance : XdrWf Write4args where
  wellFormed v :=
    wellFormed v.stateid ∧ wellFormed v.offset ∧ wellFormed v.stable ∧ wellFormed v.data

instance : LawfulXdr Write4args where
  isCodec := record <|
    field Write4args.stateid isCodec fun stateid =>
    field Write4args.offset isCodec fun offset =>
    field Write4args.stable isCodec fun stable =>
    last Write4args.data isCodec fun v data => by cases v; simp [and_assoc]

instance : AlignedXdr Write4args where
  aligned v :=
    (aligned v.stateid).cons <| (aligned v.offset).cons <| (aligned v.stable).cons <|
    (aligned v.data).last

instance : XdrWf ReadDir4args where
  wellFormed v :=
    wellFormed v.cookie ∧ wellFormed v.cookieverf ∧ wellFormed v.dircount ∧
    wellFormed v.maxcount ∧ wellFormed v.attrRequest

instance : LawfulXdr ReadDir4args where
  isCodec := record <|
    field ReadDir4args.cookie isCodec fun cookie =>
    field ReadDir4args.cookieverf isCodec fun cookieverf =>
    field ReadDir4args.dircount isCodec fun dircount =>
    field ReadDir4args.maxcount isCodec fun maxcount =>
    last ReadDir4args.attrRequest isCodec fun v attrRequest => by cases v; simp [and_assoc]

instance : AlignedXdr ReadDir4args where
  aligned v :=
    (aligned v.cookie).cons <| (aligned v.cookieverf).cons <| (aligned v.dircount).cons <|
    (aligned v.maxcount).cons <| (aligned v.attrRequest).last

instance : XdrWf Remove4args where
  wellFormed v := wellFormed v.target

instance : LawfulXdr Remove4args where
  isCodec := isCodec.wrap Remove4args.mk Remove4args.target (fun _ => rfl) fun _ => rfl

instance : AlignedXdr Remove4args where
  aligned v := aligned v.target

instance : XdrWf Rename4args where
  wellFormed v := wellFormed v.oldname ∧ wellFormed v.newname

instance : LawfulXdr Rename4args where
  isCodec := record <|
    field Rename4args.oldname isCodec fun oldname =>
    last Rename4args.newname isCodec fun v newname => by cases v; simp

instance : AlignedXdr Rename4args where
  aligned v := (aligned v.oldname).cons <| (aligned v.newname).last

/-! ### The union over the operation number -/

namespace NfsArgOp4

/-- The operation number an operation is written with. -/
def opnum : NfsArgOp4 → UInt32
  | .putRootFh => OP_PUTROOTFH
  | .putFh _ => OP_PUTFH
  | .lookup _ => OP_LOOKUP
  | .getFh => OP_GETFH
  | .getAttr _ => OP_GETATTR
  | .setAttr _ => OP_SETATTR
  | .open _ => OP_OPEN
  | .close _ => OP_CLOSE
  | .read _ => OP_READ
  | .write _ => OP_WRITE
  | .readDir _ => OP_READDIR
  | .remove _ => OP_REMOVE
  | .rename _ => OP_RENAME
  | .exchangeId _ => OP_EXCHANGE_ID
  | .createSession _ => OP_CREATE_SESSION
  | .destroySession _ => OP_DESTROY_SESSION
  | .sequence _ => OP_SEQUENCE
  | .reclaimComplete _ => OP_RECLAIM_COMPLETE

/-- What follows the operation number. -/
def encodeArgs : NfsArgOp4 → Encoded UInt8 XdrError
  | .putRootFh | .getFh => .ok []
  | .putFh a => encode a
  | .lookup a => encode a
  | .getAttr a => encode a
  | .setAttr a => encode a
  | .open a => encode a
  | .close a => encode a
  | .read a => encode a
  | .write a => encode a
  | .readDir a => encode a
  | .remove a => encode a
  | .rename a => encode a
  | .exchangeId a => encode a
  | .createSession a => encode a
  | .destroySession a => encode a
  | .sequence a => encode a
  | .reclaimComplete a => encode a

/-- An operation is its number and its arguments. -/
theorem encode_eq (v : NfsArgOp4) : encode v = Encoded.seq [encode v.opnum, v.encodeArgs] := by
  cases v <;> rfl

end NfsArgOp4

instance : XdrWf NfsArgOp4 where
  wellFormed
    | .putRootFh | .getFh => True
    | .putFh a => wellFormed a
    | .lookup a => wellFormed a
    | .getAttr a => wellFormed a
    | .setAttr a => wellFormed a
    | .open a => wellFormed a
    | .close a => wellFormed a
    | .read a => wellFormed a
    | .write a => wellFormed a
    | .readDir a => wellFormed a
    | .remove a => wellFormed a
    | .rename a => wellFormed a
    | .exchangeId a => wellFormed a
    | .createSession a => wellFormed a
    | .destroySession a => wellFormed a
    | .sequence a => wellFormed a
    | .reclaimComplete a => wellFormed a

instance : LawfulXdr NfsArgOp4 where
  isCodec := by
    have hunion : IsCodec (fun v : NfsArgOp4 => True ∧ wellFormed v)
        (fun v => Encoded.seq [encode v.opnum, v.encodeArgs])
        (decode : Decoder UInt8 XdrError NfsArgOp4) := by
      refine (isCodec (α := UInt32)).bind fun opnum _ => ?_
      refine
        unitArm NfsArgOp4.putRootFh ⟨rfl, trivial, rfl⟩ ?_ fun h0 =>
        isCodec_readPutFh.arm NfsArgOp4.putFh (fun _ => ⟨rfl, Iff.rfl, rfl⟩) ?_ fun h1 =>
        isCodec.arm NfsArgOp4.lookup (fun _ => ⟨rfl, Iff.rfl, rfl⟩) ?_ fun h2 =>
        unitArm NfsArgOp4.getFh ⟨rfl, trivial, rfl⟩ ?_ fun h3 =>
        isCodec.arm NfsArgOp4.getAttr (fun _ => ⟨rfl, Iff.rfl, rfl⟩) ?_ fun h4 =>
        isCodec.arm NfsArgOp4.setAttr (fun _ => ⟨rfl, Iff.rfl, rfl⟩) ?_ fun h5 =>
        isCodec.arm NfsArgOp4.open (fun _ => ⟨rfl, Iff.rfl, rfl⟩) ?_ fun h6 =>
        isCodec.arm NfsArgOp4.close (fun _ => ⟨rfl, Iff.rfl, rfl⟩) ?_ fun h7 =>
        isCodec.arm NfsArgOp4.read (fun _ => ⟨rfl, Iff.rfl, rfl⟩) ?_ fun h8 =>
        isCodec.arm NfsArgOp4.write (fun _ => ⟨rfl, Iff.rfl, rfl⟩) ?_ fun h9 =>
        isCodec.arm NfsArgOp4.readDir (fun _ => ⟨rfl, Iff.rfl, rfl⟩) ?_ fun h10 =>
        isCodec.arm NfsArgOp4.remove (fun _ => ⟨rfl, Iff.rfl, rfl⟩) ?_ fun h11 =>
        isCodec.arm NfsArgOp4.rename (fun _ => ⟨rfl, Iff.rfl, rfl⟩) ?_ fun h12 =>
        isCodec.arm NfsArgOp4.exchangeId (fun _ => ⟨rfl, Iff.rfl, rfl⟩) ?_ fun h13 =>
        isCodec.arm NfsArgOp4.createSession (fun _ => ⟨rfl, Iff.rfl, rfl⟩) ?_ fun h14 =>
        isCodec.arm NfsArgOp4.destroySession (fun _ => ⟨rfl, Iff.rfl, rfl⟩) ?_ fun h15 =>
        isCodec.arm NfsArgOp4.sequence (fun _ => ⟨rfl, Iff.rfl, rfl⟩) ?_ fun h16 =>
        isCodec.arm NfsArgOp4.reclaimComplete (fun _ => ⟨rfl, Iff.rfl, rfl⟩) ?_ fun h17 =>
        IsCodec.fail _ fun v hv => ?_
      case refine_19 =>
        -- No operation has the number that was read.
        have hne : opnum ≠ v.opnum := by cases v <;> assumption
        exact hne hv.1.symm
      all_goals
        intro v hv
        cases v <;>
          first
            | rfl
            | exact ⟨_, rfl⟩
            | exact absurd hv (by dsimp only [NfsArgOp4.opnum]; decide)
    exact hunion.congr (fun _ => (iff_of_eq (true_and _)).symm) fun v _ => v.encode_eq

instance : AlignedXdr NfsArgOp4 where
  aligned
    | .putRootFh => aligned OP_PUTROOTFH
    | .getFh => aligned OP_GETFH
    | .putFh a => (aligned OP_PUTFH).tag (aligned a).last
    | .lookup a => (aligned OP_LOOKUP).tag (aligned a).last
    | .getAttr a => (aligned OP_GETATTR).tag (aligned a).last
    | .setAttr a => (aligned OP_SETATTR).tag (aligned a).last
    | .open a => (aligned OP_OPEN).tag (aligned a).last
    | .close a => (aligned OP_CLOSE).tag (aligned a).last
    | .read a => (aligned OP_READ).tag (aligned a).last
    | .write a => (aligned OP_WRITE).tag (aligned a).last
    | .readDir a => (aligned OP_READDIR).tag (aligned a).last
    | .remove a => (aligned OP_REMOVE).tag (aligned a).last
    | .rename a => (aligned OP_RENAME).tag (aligned a).last
    | .exchangeId a => (aligned OP_EXCHANGE_ID).tag (aligned a).last
    | .createSession a => (aligned OP_CREATE_SESSION).tag (aligned a).last
    | .destroySession a => (aligned OP_DESTROY_SESSION).tag (aligned a).last
    | .sequence a => (aligned OP_SEQUENCE).tag (aligned a).last
    | .reclaimComplete a => (aligned OP_RECLAIM_COMPLETE).tag (aligned a).last

instance : XdrWf Compound4args where
  wellFormed v := wellFormed v.tag ∧ wellFormed v.minorversion ∧ wellFormed v.argarray

instance : LawfulXdr Compound4args where
  isCodec := record <|
    field Compound4args.tag isCodec fun tag =>
    field Compound4args.minorversion isCodec fun minorversion =>
    last Compound4args.argarray isCodec fun v argarray => by cases v; simp [and_assoc]

instance : AlignedXdr Compound4args where
  aligned v := (aligned v.tag).cons <| (aligned v.minorversion).cons <| (aligned v.argarray).last

/-! ### Whole requests -/

/-- A server reads back every request that encodes, and nothing behind it. -/
theorem read_request {a : Compound4args} {p : Bytes} (h : encode a = .ok p) (rest : Bytes) :
    (decode : Decoder UInt8 XdrError Compound4args).run (p ++ rest) = .ok (a, rest) := by
  obtain ⟨p', hp', hd⟩ := isCodec.yields a (aligned a p h).1
  obtain rfl := Except.ok.inj (h.symm.trans hp')
  exact hd rest

/-- Requests are a prefix code of whole words. An encoding that is a prefix of another one is
the encoding of the same request. -/
theorem request_prefix_free {a b : Compound4args} {p q : Bytes} (ha : encode a = .ok p)
    (hb : encode b = .ok q) : (p <+: q → a = b) ∧ 4 ∣ p.length :=
  ⟨isCodec.prefixFree (aligned a p ha).1 (aligned b q hb).1 ha hb, (aligned a p ha).2⟩

/-- PUTROOTFH alone, and PUTROOTFH and GETFH. The count of the operations tells them apart
before the operations do. -/
theorem request_prefix_free_getfh :
    (([0, 0, 0, 0, 0, 0, 0, 1, 0, 0, 0, 1, 0, 0, 0, 24] : Bytes)
        <+: [0, 0, 0, 0, 0, 0, 0, 1, 0, 0, 0, 2, 0, 0, 0, 24, 0, 0, 0, 10] →
      (⟨"", 1, [.putRootFh]⟩ : Compound4args) = ⟨"", 1, [.putRootFh, .getFh]⟩) ∧
      4 ∣ ([0, 0, 0, 0, 0, 0, 0, 1, 0, 0, 0, 1, 0, 0, 0, 24] : Bytes).length :=
  request_prefix_free (by decide) (by decide)

end NfsMount.Nfs4Types
