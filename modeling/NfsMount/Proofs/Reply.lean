import NfsMount.Proofs.Compound
import NfsMount.Rfc8881.Reply
import NfsMount.Server.Execute

/-!
# `NfsMount.Proofs.Reply`: the client against conforming replies

The encoders of the client write the wire format of the RFC (`LawfulWire`), type by type. So
the decoder of the client, which undoes them, reads what a conforming server sends, up to two
differences: the numbers of the status codes, and the result of a SETATTR that failed.

`conforming_reply_decodes_iff` says exactly which conforming replies are decoded.
-/

set_option autoImplicit false

namespace NfsMount.Rfc8881

open NfsMount.Lib NfsMount.XdrCodec NfsMount.Nfs4Types

/-! ### The wire formats -/

/-- The client writes well-formed values as the RFC has them. -/
class LawfulWire (α : Type) [XdrEncode α] [XdrWf α] [Wire α] : Prop where
  encode_eq_wire : ∀ v : α, wellFormed v → encode v = .ok (wire v)

export LawfulWire (encode_eq_wire)

/-- Behind `p`, what the encoders write completes `r`. -/
def Completes (p : Bytes) (es : List (Encoded UInt8 XdrError)) (r : Bytes) : Prop :=
  ∃ q, Encoded.seq es = .ok q ∧ r = p ++ q

/-- No fields are complete with no bytes. -/
theorem completes_nil (r : Bytes) : Completes r [] r :=
  ⟨[], rfl, (List.append_nil r).symm⟩

/-- One field more. -/
theorem Completes.cons {e : Encoded UInt8 XdrError} {es : List (Encoded UInt8 XdrError)}
    {p q r : Bytes} (he : e = .ok q) (hes : Completes (p ++ q) es r) : Completes p (e :: es) r := by
  obtain ⟨s, hs, rfl⟩ := hes
  exact ⟨q ++ s, Encoded.seq_cons_ok he hs, List.append_assoc p q s⟩

/-- The first field of a record, and the others. -/
theorem seq_eq_wire {e : Encoded UInt8 XdrError} {es : List (Encoded UInt8 XdrError)}
    {p r : Bytes} (he : e = .ok p) (hes : Completes p es r) : Encoded.seq (e :: es) = .ok r := by
  obtain ⟨q, hq, rfl⟩ := hes
  exact Encoded.seq_cons_ok he hq

instance : LawfulWire UInt32 where
  encode_eq_wire _ _ := rfl

instance : LawfulWire UInt64 where
  encode_eq_wire _ _ := rfl

instance : LawfulWire Int64 where
  encode_eq_wire _ _ := rfl

instance : LawfulWire Bool where
  encode_eq_wire _ _ := rfl

/-- Opaque data that fits is written as the RFC has it on the wire. -/
theorem encode_opaqueBytes_eq {b : Bytes} (h : b.length < 2 ^ 32) :
    encodeOpaqueBytes b = .ok (wireOpaque b) := by
  simp only [encodeOpaqueBytes, lengthWord, if_pos h]
  exact seq_eq_wire rfl <| .cons rfl <| .cons rfl <| completes_nil _

instance : LawfulWire Opaque where
  encode_eq_wire _ h := encode_opaqueBytes_eq h

instance : LawfulWire String where
  encode_eq_wire _ h := encode_opaqueBytes_eq h

instance {n : Nat} : LawfulWire (FixedOpaque n) where
  encode_eq_wire _ _ := rfl

/-- The elements of a list, one after the other. -/
theorem seq_map_wire {α : Type} {enc : α → Encoded UInt8 XdrError} {w : α → Bytes} {l : List α}
    (h : ∀ a ∈ l, enc a = .ok (w a)) : Encoded.seq (l.map enc) = .ok (l.flatMap w) := by
  induction l with
  | nil => rfl
  | cons a l ih =>
      obtain ⟨ha, hl⟩ := List.forall_mem_cons.mp h
      rw [List.map_cons, List.flatMap_cons]
      exact Encoded.seq_cons_ok ha (ih hl)

instance {α : Type} [XdrEncode α] [XdrWf α] [Wire α] [LawfulWire α] : LawfulWire (List α) where
  encode_eq_wire l h := by
    obtain ⟨hlen, hall⟩ := h
    simp only [XdrEncode.encode, lengthWord, if_pos hlen]
    exact Encoded.seq_cons_ok rfl (seq_map_wire fun a ha => encode_eq_wire a (hall a ha))

/-! ### Types of the protocol -/

instance : LawfulWire NfsFh4 where
  encode_eq_wire fh h := by
    have hle : fh.bytes.length ≤ 128 := h
    exact encode_opaqueBytes_eq (Nat.lt_of_le_of_lt hle (by decide))

instance : LawfulWire ClientId4 where
  encode_eq_wire c h := encode_eq_wire c.id h

instance : LawfulWire StateId4 where
  encode_eq_wire v h :=
    seq_eq_wire (encode_eq_wire v.seqid h.1) <| .cons (encode_eq_wire v.other h.2) <|
    completes_nil _

instance : LawfulWire NfsTime4 where
  encode_eq_wire v h :=
    seq_eq_wire (encode_eq_wire v.seconds h.1) <| .cons (encode_eq_wire v.nseconds h.2) <|
    completes_nil _

instance : LawfulWire ChangeInfo4 where
  encode_eq_wire v h :=
    seq_eq_wire (encode_eq_wire v.atomic h.1) <| .cons (encode_eq_wire v.before h.2.1) <|
    .cons (encode_eq_wire v.after h.2.2) <| completes_nil _

instance : LawfulWire Bitmap4 where
  encode_eq_wire v h := encode_eq_wire v.words h

instance : LawfulWire Fattr4 where
  encode_eq_wire v h :=
    seq_eq_wire (encode_eq_wire v.attrmask h.1) <| .cons (encode_opaqueBytes_eq h.2) <|
    completes_nil _

instance : LawfulWire GetAttr4resok where
  encode_eq_wire v h := encode_eq_wire v.objAttributes h

instance : LawfulWire SetAttr4resok where
  encode_eq_wire v h := encode_eq_wire v.attrsset h

instance : LawfulWire OpenDelegation4 where
  encode_eq_wire
    | .none, _ => rfl

instance : LawfulWire Open4resok where
  encode_eq_wire v h :=
    seq_eq_wire (encode_eq_wire v.stateid h.1) <| .cons (encode_eq_wire v.cinfo h.2.1) <|
    .cons (encode_eq_wire v.rflags h.2.2.1) <| .cons (encode_eq_wire v.attrset h.2.2.2.1) <|
    .cons (encode_eq_wire v.delegation h.2.2.2.2) <| completes_nil _

instance : LawfulWire Close4resok where
  encode_eq_wire v h := encode_eq_wire v.openStateid h

instance : LawfulWire Read4resok where
  encode_eq_wire v h :=
    seq_eq_wire (encode_eq_wire v.eof h.1) <| .cons (encode_eq_wire v.data h.2) <|
    completes_nil _

instance : LawfulWire Write4resok where
  encode_eq_wire v h :=
    seq_eq_wire (encode_eq_wire v.count h.1) <| .cons (encode_eq_wire v.committed h.2.1) <|
    .cons (encode_eq_wire v.writeverf h.2.2) <| completes_nil _

/-- One link of the chain of entries. -/
theorem encode_entry_eq {entry : Entry4} (h : wellFormed entry) :
    encodeEntry (some entry) = .ok (wire true ++ wire entry) := by
  have hfields : Encoded.seq [encode entry.cookie, encode entry.name, encode entry.attrs]
      = .ok (wire entry) :=
    seq_eq_wire (encode_eq_wire entry.cookie h.1) <| .cons (encode_eq_wire entry.name h.2.1) <|
    .cons (encode_eq_wire entry.attrs h.2.2) <| completes_nil _
  exact Encoded.seq_cons_ok rfl hfields

instance : LawfulWire ReadDir4resok where
  encode_eq_wire v h := by
    have hchain : Encoded.seq (v.reply.entries.map (fun entry => encodeEntry (some entry))
        ++ [encodeEntry none]) =
        .ok (v.reply.entries.flatMap (fun entry => wire true ++ wire entry) ++ wire false) :=
      Encoded.seq_append_eq_ok.mpr ⟨_, _,
        seq_map_wire fun entry hentry => encode_entry_eq (h.2 entry hentry), rfl, rfl⟩
    have hrec := seq_eq_wire (encode_eq_wire v.cookieverf h.1) <| .cons hchain <|
      .cons (encode_eq_wire v.reply.eof trivial) <| completes_nil _
    refine Eq.trans hrec (congrArg Except.ok ?_)
    simp only [wire, List.append_assoc]

instance : LawfulWire Remove4resok where
  encode_eq_wire v h := encode_eq_wire v.cinfo h

instance : LawfulWire Rename4resok where
  encode_eq_wire v h :=
    seq_eq_wire (encode_eq_wire v.sourceCinfo h.1) <| .cons (encode_eq_wire v.targetCinfo h.2) <|
    completes_nil _

instance : LawfulWire StateProtect4r where
  encode_eq_wire
    | .spNone, _ => rfl

instance : LawfulWire ServerOwner4 where
  encode_eq_wire v h :=
    seq_eq_wire (encode_eq_wire v.soMinorId h.1) <| .cons (encode_eq_wire v.soMajorId h.2) <|
    completes_nil _

instance : LawfulWire NfsImplId4 where
  encode_eq_wire v h :=
    seq_eq_wire (encode_eq_wire v.niiDomain h.1) <| .cons (encode_eq_wire v.niiName h.2.1) <|
    .cons (encode_eq_wire v.niiDate h.2.2) <| completes_nil _

instance : LawfulWire ExchangeId4resok where
  encode_eq_wire v h := by
    obtain ⟨hclientid, hsequenceid, hflags, hprotect, howner, hscope, himpl⟩ := h
    exact
      seq_eq_wire (encode_eq_wire v.eirClientid hclientid) <|
      .cons (encode_eq_wire v.eirSequenceid hsequenceid) <|
      .cons (encode_eq_wire v.eirFlags hflags) <|
      .cons (encode_eq_wire v.eirStateProtect hprotect) <|
      .cons (encode_eq_wire v.eirServerOwner howner) <|
      .cons (encode_eq_wire v.eirServerScope hscope) <|
      .cons (encode_eq_wire v.eirServerImplId himpl) <| completes_nil _

instance : LawfulWire ChannelAttrs4 where
  encode_eq_wire v h := by
    obtain ⟨hpad, hrequest, hresponse, hcached, hoperations, hrequests, hird⟩ := h
    exact
      seq_eq_wire (encode_eq_wire v.caHeaderpadsize hpad) <|
      .cons (encode_eq_wire v.caMaxrequestsize hrequest) <|
      .cons (encode_eq_wire v.caMaxresponsesize hresponse) <|
      .cons (encode_eq_wire v.caMaxresponsesizeCached hcached) <|
      .cons (encode_eq_wire v.caMaxoperations hoperations) <|
      .cons (encode_eq_wire v.caMaxrequests hrequests) <|
      .cons (encode_eq_wire v.caRdmaIrd hird) <| completes_nil _

instance : LawfulWire CreateSession4resok where
  encode_eq_wire v h := by
    obtain ⟨hsessionid, hsequence, hflags, hfore, hback⟩ := h
    exact
      seq_eq_wire (encode_eq_wire v.csrSessionid hsessionid) <|
      .cons (encode_eq_wire v.csrSequence hsequence) <|
      .cons (encode_eq_wire v.csrFlags hflags) <|
      .cons (encode_eq_wire v.csrForeChanAttrs hfore) <|
      .cons (encode_eq_wire v.csrBackChanAttrs hback) <| completes_nil _

instance : LawfulWire Sequence4resok where
  encode_eq_wire _ _ :=
    seq_eq_wire rfl <| .cons rfl <| .cons rfl <| .cons rfl <| .cons rfl <| .cons rfl <|
    completes_nil _

/-! ### Status codes -/

/-- The status of the RFC that a variant of the client's enum is named after. -/
def named : NfsStat4 → Nfsstat4
  | .ok => .NFS4_OK
  | .perm => .NFS4ERR_PERM
  | .noent => .NFS4ERR_NOENT
  | .io => Nfsstat4.NFS4ERR_IO
  | .nxio => Nfsstat4.NFS4ERR_NXIO
  | .access => .NFS4ERR_ACCESS
  | .exist => .NFS4ERR_EXIST
  | .xdev => .NFS4ERR_XDEV
  | .notdir => .NFS4ERR_NOTDIR
  | .isdir => .NFS4ERR_ISDIR
  | .inval => .NFS4ERR_INVAL
  | .fbig => .NFS4ERR_FBIG
  | .nospc => .NFS4ERR_NOSPC
  | .rofs => .NFS4ERR_ROFS
  | .mlink => .NFS4ERR_MLINK
  | .nametoolong => .NFS4ERR_NAMETOOLONG
  | .notempty => .NFS4ERR_NOTEMPTY
  | .dquot => .NFS4ERR_DQUOT
  | .stale => .NFS4ERR_STALE
  | .badHandle => .NFS4ERR_BADHANDLE
  | .badCookie => .NFS4ERR_BAD_COOKIE
  | .notsupp => .NFS4ERR_NOTSUPP
  | .toosmall => .NFS4ERR_TOOSMALL
  | .serverfault => .NFS4ERR_SERVERFAULT
  | .badtype => .NFS4ERR_BADTYPE
  | .delay => .NFS4ERR_DELAY
  | .same => .NFS4ERR_SAME
  | .denied => .NFS4ERR_DENIED
  | .expired => .NFS4ERR_EXPIRED
  | .locked => .NFS4ERR_LOCKED
  | .grace => .NFS4ERR_GRACE
  | .fhExpired => .NFS4ERR_FHEXPIRED
  | .shareDenied => .NFS4ERR_SHARE_DENIED
  | .wrongSec => .NFS4ERR_WRONGSEC
  | .moved => .NFS4ERR_MOVED
  | .nofilehandle => .NFS4ERR_NOFILEHANDLE
  | .minorVersMismatch => .NFS4ERR_MINOR_VERS_MISMATCH
  | .staleClientId => .NFS4ERR_STALE_CLIENTID
  | .staleStateid => .NFS4ERR_STALE_STATEID
  | .oldStateid => .NFS4ERR_OLD_STATEID
  | .badStateid => .NFS4ERR_BAD_STATEID
  | .badSeqid => .NFS4ERR_BAD_SEQID
  | .symlink => .NFS4ERR_SYMLINK
  | .attrNotsupp => .NFS4ERR_ATTRNOTSUPP
  | .badOwner => .NFS4ERR_BADOWNER
  | .badName => .NFS4ERR_BADNAME
  | .opIllegal => .NFS4ERR_OP_ILLEGAL
  | .locksHeld => .NFS4ERR_LOCKS_HELD
  | .openmode => .NFS4ERR_OPENMODE
  | .badSession => .NFS4ERR_BADSESSION
  | .badSlot => .NFS4ERR_BADSLOT
  | .completeAlready => .NFS4ERR_COMPLETE_ALREADY
  | .connNotBoundToSession => .NFS4ERR_CONN_NOT_BOUND_TO_SESSION
  | .seqMisordered => .NFS4ERR_SEQ_MISORDERED
  | .sequencePos => .NFS4ERR_SEQUENCE_POS
  | .reqTooBig => .NFS4ERR_REQ_TOO_BIG
  | .repTooBig => .NFS4ERR_REP_TOO_BIG
  | .repTooBigToCache => .NFS4ERR_REP_TOO_BIG_TO_CACHE
  | .retryUncachedRep => .NFS4ERR_RETRY_UNCACHED_REP
  | .unsafeCompound => .NFS4ERR_UNSAFE_COMPOUND
  | .tooManyOps => .NFS4ERR_TOO_MANY_OPS
  | .opNotInSession => .NFS4ERR_OP_NOT_IN_SESSION
  | .seqFalseRetry => .NFS4ERR_SEQ_FALSE_RETRY
  | .badHighSlot => .NFS4ERR_BAD_HIGH_SLOT
  | .deadSession => .NFS4ERR_DEADSESSION

/-- The client has the status, with the number of the RFC. -/
def Numbered (s : Nfsstat4) : Prop := ∃ v : NfsStat4, named v = s ∧ v.discriminant = s.code

instance (s : Nfsstat4) : Decidable (Numbered s) :=
  decidable_of_iff (∃ v ∈ NfsStat4.variants, named v = s ∧ v.discriminant = s.code)
    ⟨fun ⟨v, _, h⟩ => ⟨v, h⟩, fun ⟨v, h⟩ => ⟨v, v.mem_variants, h⟩⟩

/-- The statuses that the client lacks, or has with another number. -/
def unnumbered : List Nfsstat4 :=
  [.NFS4ERR_CLID_INUSE, .NFS4ERR_NOT_SAME, .NFS4ERR_LOCK_RANGE, .NFS4ERR_RESTOREFH,
   .NFS4ERR_LEASE_MOVED, .NFS4ERR_NO_GRACE, .NFS4ERR_RECLAIM_BAD, .NFS4ERR_RECLAIM_CONFLICT,
   .NFS4ERR_BADXDR, .NFS4ERR_LOCKS_HELD, .NFS4ERR_OPENMODE, .NFS4ERR_BADOWNER, .NFS4ERR_BADCHAR,
   .NFS4ERR_BADNAME, .NFS4ERR_BAD_RANGE, .NFS4ERR_LOCK_NOTSUPP, .NFS4ERR_DEADLOCK,
   .NFS4ERR_FILE_OPEN, .NFS4ERR_ADMIN_REVOKED, .NFS4ERR_CB_PATH_DOWN, .NFS4ERR_BADIOMODE,
   .NFS4ERR_BADLAYOUT, .NFS4ERR_BAD_SESSION_DIGEST, .NFS4ERR_DELEG_ALREADY_WANTED,
   .NFS4ERR_BACK_CHAN_BUSY, .NFS4ERR_LAYOUTTRYLATER, .NFS4ERR_LAYOUTUNAVAILABLE,
   .NFS4ERR_NOMATCHING_LAYOUT, .NFS4ERR_RECALLCONFLICT, .NFS4ERR_UNKNOWN_LAYOUTTYPE,
   .NFS4ERR_HASH_ALG_UNSUPP, .NFS4ERR_CLIENTID_BUSY, .NFS4ERR_PNFS_IO_HOLE,
   .NFS4ERR_ENCR_ALG_UNSUPP, .NFS4ERR_PNFS_NO_LAYOUT, .NFS4ERR_NOT_ONLY_OP, .NFS4ERR_WRONG_CRED,
   .NFS4ERR_WRONG_TYPE, .NFS4ERR_DIRDELEG_UNAVAIL, .NFS4ERR_REJECT_DELEG, .NFS4ERR_RETURNCONFLICT,
   .NFS4ERR_DELEG_REVOKED]

/-- A status has the number of the RFC in the client unless it is one of the unnumbered. -/
theorem numbered_iff (s : Nfsstat4) : Numbered s ↔ s ∉ unnumbered := by
  cases s <;> decide +kernel

/-! ### Results -/

/-- What the client decodes a success to. -/
def Success.result : Success → NfsResOp4
  | putrootfh => .putRootFh .ok
  | putfh => .putFh .ok
  | lookup => .lookup .ok
  | destroySession => .destroySession .ok
  | reclaimComplete => .reclaimComplete .ok
  | getfh object => .getFh ⟨.ok, some object⟩
  | getattr body => .getAttr ⟨.ok, some body⟩
  | setattr body => .setAttr ⟨.ok, some body⟩
  | .open body => .open ⟨.ok, some body⟩
  | close body => .close ⟨.ok, some body⟩
  | read body => .read ⟨.ok, some body⟩
  | write body => .write ⟨.ok, some body⟩
  | readdir body => .readDir ⟨.ok, some body⟩
  | remove body => .remove ⟨.ok, some body⟩
  | rename body => .rename ⟨.ok, some body⟩
  | exchangeId body => .exchangeId ⟨.ok, some body⟩
  | createSession body => .createSession ⟨.ok, some body⟩
  | sequence body => .sequence ⟨.ok, some body⟩

/-- What the client decodes a failure to, when it reads the status as `s`. -/
def Failure.result (f : Failure) (s : NfsStat4) : NfsResOp4 :=
  match f.op with
  | .putrootfh => .putRootFh s
  | .putfh => .putFh s
  | .lookup => .lookup s
  | .destroySession => .destroySession s
  | .reclaimComplete => .reclaimComplete s
  | .getfh => .getFh ⟨s, none⟩
  | .getattr => .getAttr ⟨s, none⟩
  | .setattr => .setAttr ⟨s, none⟩
  | .open => .open ⟨s, none⟩
  | .close => .close ⟨s, none⟩
  | .read => .read ⟨s, none⟩
  | .write => .write ⟨s, none⟩
  | .readdir => .readDir ⟨s, none⟩
  | .remove => .remove ⟨s, none⟩
  | .rename => .rename ⟨s, none⟩
  | .exchangeId => .exchangeId ⟨s, none⟩
  | .createSession => .createSession ⟨s, none⟩
  | .sequence => .sequence ⟨s, none⟩

/-- A result with a body. -/
theorem encode_okResult {β : Type} [XdrEncode β] [XdrWf β] [Wire β] [LawfulWire β] {body : β}
    (h : wellFormed (⟨.ok, some body⟩ : OpResult β)) :
    encode (⟨.ok, some body⟩ : OpResult β) = .ok (wire Nfsstat4.NFS4_OK.code ++ wire body) :=
  seq_eq_wire rfl <| .cons (encode_eq_wire body (h.2 body rfl)) <| completes_nil _

/-- A result without a body. -/
theorem encode_errResult {β : Type} [XdrEncode β] (s : NfsStat4) :
    encode (⟨s, none⟩ : OpResult β) = .ok (wire s.discriminant) := by
  have hseq : Encoded.seq [encode s, .ok []] = .ok (wire s.discriminant ++ []) :=
    seq_eq_wire rfl <| .cons rfl <| completes_nil _
  rw [List.append_nil] at hseq
  exact hseq

/-- The result of an operation that succeeded encodes to what is on the wire. -/
theorem encode_success {r : Success} (h : wellFormed r.result) :
    encode r.result = .ok (wire r) := by
  cases r with
  | putrootfh => rfl
  | putfh => rfl
  | lookup => rfl
  | destroySession => rfl
  | reclaimComplete => rfl
  | _ => exact seq_eq_wire rfl <| .cons (encode_okResult h) <| completes_nil _

/-- The result of an operation that failed encodes to its number and the status. -/
theorem encode_failure (f : Failure) (s : NfsStat4) :
    encode (f.result s) = .ok (wire f.op.num ++ wire s.discriminant) := by
  obtain ⟨op, status, attrsset, hne⟩ := f
  cases op with
  | putrootfh => rfl
  | putfh => rfl
  | lookup => rfl
  | destroySession => rfl
  | reclaimComplete => rfl
  | _ => exact seq_eq_wire rfl <| .cons (encode_errResult s) <| completes_nil _

/-- The result of a failure is well formed. -/
theorem wellFormed_failure (f : Failure) {s : NfsStat4} (hs : s ≠ .ok) :
    wellFormed (f.result s) := by
  have hbody {β : Type} [XdrWf β] : wellFormed (⟨s, none⟩ : OpResult β) :=
    ⟨iff_of_false (by simp) (by simpa [NfsStat4.isOk] using hs), by simp⟩
  obtain ⟨op, status, attrsset, hne⟩ := f
  cases op with
  | putrootfh => trivial
  | putfh => trivial
  | lookup => trivial
  | destroySession => trivial
  | reclaimComplete => trivial
  | _ => exact hbody

/-- The status of the result of a failure is that failure's. -/
theorem status_failure (f : Failure) (s : NfsStat4) : Server.status (f.result s) = s := by
  obtain ⟨op, status, attrsset, hne⟩ := f
  cases op <;> rfl

/-! ### Replies -/

namespace Reply

/-- Counts fit their words, and filehandles have at most 128 bytes. -/
structure Valid (r : Reply) : Prop where
  tag : (stringBytes r.tag).length < 2 ^ 32
  results : r.succeeded.length + r.failed.toList.length < 2 ^ 32
  bodies : ∀ x ∈ r.succeeded, wellFormed x.result

/-- What the client decodes the reply to, when it reads the status as `s`. -/
def decoded (r : Reply) (s : NfsStat4) : Compound4res where
  status := s
  tag := r.tag
  resarray := r.succeeded.map Success.result ++ r.failed.toList.map fun f => f.result s

/-- What is behind the results as the client knows them. -/
def trailing (r : Reply) : Bytes := r.failed.toList.flatMap Failure.trailing

/-- The client decodes the reply, reads all of it, and reports the status by its name in the
RFC, for the reply and for the operation that failed. -/
def Decodes (r : Reply) : Prop :=
  ∃ v, (decode : Decoder UInt8 XdrError Compound4res).run (wire r) = .ok (v, []) ∧
    named v.status = r.status ∧
    ∀ f ∈ r.failed, ∃ last, v.resarray.getLast? = some last ∧ named (Server.status last) = f.status

/-- The client has the status of the reply with its number, and no SETATTR failed. -/
def Supported (r : Reply) : Prop := Numbered r.status ∧ ∀ f ∈ r.failed, f.op ≠ .setattr

variable {r : Reply} {s : NfsStat4}

/-- A status that is named after a failure is no success. -/
theorem ne_ok_of_failed (hs : named s = r.status) {f : Failure} (hf : f ∈ r.failed) : s ≠ .ok := by
  rintro rfl
  exact f.status_ne ((r.status_failed f hf).trans hs.symm)

/-- The decoded reply is well formed when the status is named right. -/
theorem wellFormed_decoded (hr : r.Valid) (hs : named s = r.status) : wellFormed (r.decoded s) := by
  refine ⟨trivial, hr.tag, ?_, ?_⟩
  · show (List.map _ _ ++ List.map _ _).length < 2 ^ 32
    rw [List.length_append, List.length_map, List.length_map]
    exact hr.results
  · intro x hx
    rcases List.mem_append.mp hx with hx | hx
    · obtain ⟨y, hy, rfl⟩ := List.mem_map.mp hx
      exact hr.bodies y hy
    · obtain ⟨f, hf, rfl⟩ := List.mem_map.mp hx
      exact wellFormed_failure f (ne_ok_of_failed hs (Option.mem_toList.mp hf))

/-- The reply is the encoding of what the client makes of it, and the trailing bytes. -/
theorem wire_eq (hr : r.Valid) (hcode : s.discriminant = r.status.code) :
    ∃ w, encode (r.decoded s) = .ok w ∧ wire r = w ++ r.trailing := by
  have hsucceeded : Encoded.seq ((r.succeeded.map Success.result).map encode)
      = .ok (r.succeeded.flatMap wire) := by
    rw [List.map_map]
    exact seq_map_wire fun x hx => encode_success (hr.bodies x hx)
  -- At most one operation failed, so all that the client does not know is at the end.
  have hfailed : ∃ q, Encoded.seq ((r.failed.toList.map fun f => f.result s).map encode) = .ok q ∧
      r.failed.toList.flatMap wire = q ++ r.trailing := by
    cases hf : r.failed with
    | none => exact ⟨[], rfl, by simp [trailing, hf]⟩
    | some f =>
        refine ⟨_, (Encoded.seq_singleton _).trans (encode_failure f s), ?_⟩
        have hstatus : f.status = r.status := r.status_failed f hf
        simp [trailing, hf, wire, hcode, hstatus]
  obtain ⟨q, hq, htrail⟩ := hfailed
  have hlength : (r.decoded s).resarray.length
      = r.succeeded.length + r.failed.toList.length := by
    show (List.map _ _ ++ List.map _ _).length = _
    rw [List.length_append, List.length_map, List.length_map]
  have hlist : encode (r.decoded s).resarray
      = .ok (wire (UInt32.ofNat (r.succeeded.length + r.failed.toList.length)) ++
          (r.succeeded.flatMap wire ++ q)) := by
    simp only [XdrEncode.encode, lengthWord, hlength, if_pos hr.results]
    refine Encoded.seq_cons_ok rfl ?_
    show Encoded.seq (List.map _ (List.map _ _ ++ List.map _ _)) = _
    rw [List.map_append]
    exact Encoded.seq_append_eq_ok.mpr ⟨_, _, hsucceeded, hq, rfl⟩
  refine ⟨_, seq_eq_wire rfl <| .cons (encode_eq_wire r.tag hr.tag) <| .cons hlist <|
    completes_nil _, ?_⟩
  simp only [wire, decoded, hcode, List.append_assoc] at htrail ⊢
  rw [htrail]

/-- With the number of the status, the client reads all but the trailing bytes. -/
theorem run_decode (hr : r.Valid) (hs : named s = r.status)
    (hcode : s.discriminant = r.status.code) :
    (decode : Decoder UInt8 XdrError Compound4res).run (wire r)
      = .ok (r.decoded s, r.trailing) := by
  obtain ⟨w, hw, hwire⟩ := wire_eq hr hcode
  obtain ⟨w', hw', hdec⟩ := compound_decode_encode (r.decoded s) (wellFormed_decoded hr hs)
  obtain rfl := Except.ok.inj (hw.symm.trans hw')
  rw [hwire]
  exact hdec r.trailing

/-- A status word that is read as `s` is the number of `s`. -/
theorem discriminant_of_run {code : UInt32} {rest b : Bytes} {s : NfsStat4}
    (h : (decode : Decoder UInt8 XdrError NfsStat4).run (wire code ++ rest) = .ok (s, b)) :
    s.discriminant = code := by
  obtain ⟨p, hp, hd⟩ := (isCodec (α := UInt32)).yields code trivial
  obtain rfl := Except.ok.inj hp
  have hunfold : (decodeUnitEnum "NfsStat4" NfsStat4.variants NfsStat4.discriminant).run
      (wire code ++ rest) = .ok (s, b) := h
  rw [decodeUnitEnum] at hunfold
  obtain ⟨word, b', hword, h'⟩ := Decoder.run_bind_eq_ok.mp hunfold
  obtain ⟨rfl, -⟩ : code = word ∧ rest = b' := by
    rw [show (wire code : Bytes) = beBytes 4 code.toNat from rfl, hd rest] at hword
    simpa using hword
  cases hfind : NfsStat4.variants.find? (fun v => v.discriminant == code) with
  | none => simp [hfind, Decoder.run_fail] at h'
  | some v =>
      simp only [hfind, Decoder.run_pure, Outcome.ok.injEq, Prod.mk.injEq] at h'
      rw [← h'.1]
      simpa using List.find?_some hfind

/-- Whatever the client decodes the reply to, its status has the number that was sent. -/
theorem discriminant_of_decode {v : Compound4res} {b : Bytes}
    (h : (decode : Decoder UInt8 XdrError Compound4res).run (wire r) = .ok (v, b)) :
    v.status.discriminant = r.status.code := by
  obtain ⟨status, b₁, hstatus, h₁⟩ := Decoder.run_bind_eq_ok.mp h
  obtain ⟨tag, b₂, -, h₂⟩ := Decoder.run_bind_eq_ok.mp h₁
  obtain ⟨resarray, b₃, -, h₃⟩ := Decoder.run_bind_eq_ok.mp h₂
  rw [Decoder.run_pure, Outcome.ok.injEq, Prod.mk.injEq] at h₃
  rw [← h₃.1]
  -- The status word comes first.
  have hwire : (wire r : Bytes) = wire r.status.code ++ (wire r.tag ++ (wire (UInt32.ofNat
      (r.succeeded.length + r.failed.toList.length)) ++
        (r.succeeded.flatMap wire ++ r.failed.toList.flatMap wire))) := by
    simp only [wire, List.append_assoc]
  rw [hwire] at hstatus
  exact discriminant_of_run hstatus

/-- Nothing is behind the results exactly when no SETATTR failed. -/
theorem trailing_eq_nil_iff : r.trailing = [] ↔ ∀ f ∈ r.failed, f.op ≠ .setattr := by
  cases hf : r.failed with
  | none => simp [trailing, hf]
  | some f =>
      by_cases hop : f.op = .setattr
      · -- A bitmap has at least the word of its count.
        have hne : wire f.attrsset ≠ [] := by
          intro h
          have hlen := congrArg List.length h
          simp [wire] at hlen
        simp [trailing, hf, Failure.trailing, hop, hne]
      · simp [trailing, hf, Failure.trailing, hop]

end Reply

/-- Conforming replies. The client decodes a conforming reply, reads all of it and reports the
right status exactly when it has the status with the number of the RFC and no SETATTR failed.
It then decodes every result to what was sent. -/
theorem conforming_reply_decodes_iff (r : Reply) (hr : r.Valid) :
    (r.Decodes ↔ r.Supported) ∧
    (r.Supported → ∃ s, named s = r.status ∧
      (decode : Decoder UInt8 XdrError Compound4res).run (wire r) = .ok (r.decoded s, [])) := by
  have hexact : r.Supported → ∃ s, named s = r.status ∧
      (decode : Decoder UInt8 XdrError Compound4res).run (wire r) = .ok (r.decoded s, []) := by
    rintro ⟨⟨s, hs, hcode⟩, hop⟩
    exact ⟨s, hs, Reply.trailing_eq_nil_iff.mpr hop ▸ Reply.run_decode hr hs hcode⟩
  refine ⟨⟨?_, ?_⟩, hexact⟩
  · rintro ⟨v, hv, hstatus, -⟩
    have hcode := Reply.discriminant_of_decode hv
    refine ⟨⟨v.status, hstatus, hcode⟩, Reply.trailing_eq_nil_iff.mp ?_⟩
    rw [Reply.run_decode hr hstatus hcode, Outcome.ok.injEq, Prod.mk.injEq] at hv
    exact hv.2
  · intro hsupported
    obtain ⟨s, hs, hrun⟩ := hexact hsupported
    refine ⟨r.decoded s, hrun, hs, fun f hf => ⟨f.result s, ?_, ?_⟩⟩
    · have hf : r.failed = some f := hf
      simp [Reply.decoded, hf]
    · rw [status_failure, hs, r.status_failed f hf]

/-- The reply to a compound whose first operation fails. -/
def failedReply (op : Op) (status : Nfsstat4) (h : status ≠ .NFS4_OK) : Reply where
  status := status
  tag := ""
  succeeded := []
  failed := some { op, status, attrsset := ⟨[]⟩, status_ne := h }
  status_failed f hf := by
    obtain rfl := Option.some.inj hf
    rfl
  status_succeeded h := by simp at h

/-- The status 10017, which the client lacks. -/
def clidInUse : Reply := failedReply .exchangeId .NFS4ERR_CLID_INUSE (by decide)

/-- The status 10036, which the client has under another name. -/
def badXdr : Reply := failedReply .lookup .NFS4ERR_BADXDR (by decide)

/-- A SETATTR that failed, with the attributes that were set behind the status. -/
def setattrPerm : Reply := failedReply .setattr .NFS4ERR_PERM (by decide)

/-- A status that the client lacks, one that it has under another name, and a SETATTR that
failed. -/
theorem conforming_reply_not_decoded :
    ((decode : Decoder UInt8 XdrError Compound4res).run (wire clidInUse)
        = .err (.invalidEnum 10017 "NfsStat4") ∧ ¬ clidInUse.Decodes) ∧
    ((decode : Decoder UInt8 XdrError Compound4res).run (wire badXdr)
        = .ok (⟨.badOwner, "", [.lookup .badOwner]⟩, []) ∧ ¬ badXdr.Decodes) ∧
    ((decode : Decoder UInt8 XdrError Compound4res).run (wire setattrPerm)
        = .ok (⟨.perm, "", [.setAttr ⟨.perm, none⟩]⟩, [0, 0, 0, 0]) ∧
      ¬ setattrPerm.Decodes) := by
  have hclid : (decode : Decoder UInt8 XdrError Compound4res).run (wire clidInUse)
      = .err (.invalidEnum 10017 "NfsStat4") := by decide +kernel
  have hxdr : (decode : Decoder UInt8 XdrError Compound4res).run (wire badXdr)
      = .ok (⟨.badOwner, "", [.lookup .badOwner]⟩, []) := by decide +kernel
  have hperm : (decode : Decoder UInt8 XdrError Compound4res).run (wire setattrPerm)
      = .ok (⟨.perm, "", [.setAttr ⟨.perm, none⟩]⟩, [0, 0, 0, 0]) := by decide +kernel
  refine ⟨⟨hclid, ?_⟩, ⟨hxdr, ?_⟩, ⟨hperm, ?_⟩⟩
  · rintro ⟨v, hv, -⟩
    rw [hclid] at hv
    simp at hv
  · rintro ⟨v, hv, hstatus, -⟩
    rw [hxdr, Outcome.ok.injEq, Prod.mk.injEq] at hv
    rw [← hv.1] at hstatus
    exact absurd hstatus (by decide)
  · rintro ⟨v, hv, -⟩
    rw [hperm, Outcome.ok.injEq, Prod.mk.injEq] at hv
    simp at hv

/-- A LOOKUP that found nothing, behind two operations that succeeded. -/
def noent : Reply where
  status := .NFS4ERR_NOENT
  tag := "resolve_path"
  succeeded := [.sequence ⟨FixedOpaque.ofBytes 16 [9], 1, 0, 7, 7, 0⟩, .putrootfh]
  failed := some
    { op := .lookup, status := .NFS4ERR_NOENT, attrsset := ⟨[]⟩, status_ne := by decide }
  status_failed f hf := by
    obtain rfl := Option.some.inj hf
    rfl
  status_succeeded h := by simp at h

/-- A LOOKUP that found nothing is decoded, with its status. -/
theorem conforming_reply_decodes_noent : noent.Decodes ∧
    ∃ s, named s = .NFS4ERR_NOENT ∧
      (decode : Decoder UInt8 XdrError Compound4res).run (wire noent)
        = .ok (noent.decoded s, []) := by
  have hvalid : noent.Valid := by
    refine ⟨by decide +kernel, by decide, ?_⟩
    simp [noent, Success.result, wellFormed, NfsStat4.isOk]
  have hsupported : noent.Supported := by
    refine ⟨by decide, fun f hf => ?_⟩
    obtain rfl := Option.some.inj hf
    decide
  have h := conforming_reply_decodes_iff noent hvalid
  exact ⟨h.1.mpr hsupported, h.2 hsupported⟩

end NfsMount.Rfc8881
