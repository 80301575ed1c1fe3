import NfsMount.Nfs4Client.Client
import NfsMount.Proofs.Request
import NfsMount.Rfc8881.CreateSession

/-!
# `NfsMount.Proofs.CreateSession`: CREATE_SESSION against its grammar

The client writes a length word behind the flavor of each of the security parameters. The
grammar has none. So a strict parser reads what the client wrote with one word left for each
of them, and reads exactly what was written only when there are none
(`create_session_strict_iff`).
-/

set_option autoImplicit false

namespace NfsMount.Nfs4Types

open NfsMount.Lib NfsMount.XdrCodec NfsMount.Rfc8881 NfsMount.Lib.Parser

/-! ### Fields -/

/-- A word is read as its number. -/
theorem follows_word (x : UInt32) : Follows (encode x : Encoded UInt8 XdrError) word x.toNat := by
  intro b hb rest
  obtain rfl := Except.ok.inj hb
  have hrun := run_take (beBytes 4 x.toNat) rest
  rw [length_beBytes] at hrun
  rw [word, map_eq_pure_bind, run_bind_some hrun, ofBE_beBytes x.toNat_lt]
  rfl

/-- A hyper is read as its number. -/
theorem follows_hyper (x : UInt64) :
    Follows (encode x : Encoded UInt8 XdrError) hyper x.toNat := by
  intro b hb rest
  obtain rfl := Except.ok.inj hb
  have hrun := run_take (beBytes 8 x.toNat) rest
  rw [length_beBytes] at hrun
  rw [hyper, map_eq_pure_bind, run_bind_some hrun, ofBE_beBytes x.toNat_lt]
  rfl

/-- The parts of a list that encodes: its count, and its elements. -/
theorem encode_list_eq_ok {α : Type} [XdrEncode α] {l : List α} {b : Bytes}
    (h : encode l = .ok b) :
    l.length < 2 ^ 32 ∧
      Encoded.seq (encode (UInt32.ofNat l.length) :: l.map encode) = .ok b := by
  by_cases hlt : l.length < 2 ^ 32
  · refine ⟨hlt, ?_⟩
    rw [← h]
    simp only [XdrEncode.encode, lengthWord, if_pos hlt]
  · simp only [XdrEncode.encode, lengthWord, if_neg hlt] at h
    simp at h

/-- An array that is not too long, when its elements leave `extra`. -/
theorem leaves_array {α β : Type} [XdrEncode α] {l : List α} {max : Nat}
    {elem : Parser UInt8 β} {vs : List β} {extra : Bytes}
    (hle : l.length < 2 ^ 32 → l.length ≤ max)
    (h : Leaves (Encoded.seq (l.map encode)) (times l.length elem) vs extra) :
    Leaves (encode l : Encoded UInt8 XdrError) (array max elem) vs extra := by
  intro b hb rest
  obtain ⟨hlt, hseq⟩ := encode_list_eq_ok hb
  have hcount : (UInt32.ofNat l.length).toNat = l.length := UInt32.toNat_ofNat_of_lt' hlt
  refine (follows_word (UInt32.ofNat l.length)).cons ?_ b hseq rest
  rw [hcount, if_pos (hle hlt)]
  exact h

/-- An array that is too long. -/
theorem refuses_array {α β : Type} [XdrEncode α] {l : List α} {max : Nat}
    {elem : Parser UInt8 β} (hlt : max < l.length) :
    Refuses (encode l : Encoded UInt8 XdrError) (array max elem) := by
  intro b hb rest
  obtain ⟨hlen, hseq⟩ := encode_list_eq_ok hb
  have hcount : (UInt32.ofNat l.length).toNat = l.length := UInt32.toNat_ofNat_of_lt' hlen
  refine Refuses.later (follows_word (UInt32.ofNat l.length)) ?_ b hseq rest
  rw [hcount, if_neg (Nat.not_le_of_lt hlt)]
  intro b _ rest
  rfl

/-! ### Channel attributes -/

/-- What the grammar reads of channel attributes. -/
def ChannelAttrs4.spec (v : ChannelAttrs4) : ChannelAttrs where
  headerpadsize := v.caHeaderpadsize.toNat
  maxrequestsize := v.caMaxrequestsize.toNat
  maxresponsesize := v.caMaxresponsesize.toNat
  maxresponsesizeCached := v.caMaxresponsesizeCached.toNat
  maxoperations := v.caMaxoperations.toNat
  maxrequests := v.caMaxrequests.toNat
  rdmaIrd := v.caRdmaIrd.map UInt32.toNat

/-- A channel with at most one RDMA limit is read as it is. -/
theorem follows_channelAttrs {v : ChannelAttrs4} (h : v.caRdmaIrd.length ≤ 1) :
    Follows (encode v : Encoded UInt8 XdrError) channelAttrs v.spec :=
  (follows_word v.caHeaderpadsize).cons <| (follows_word v.caMaxrequestsize).cons <|
  (follows_word v.caMaxresponsesize).cons <| (follows_word v.caMaxresponsesizeCached).cons <|
  (follows_word v.caMaxoperations).cons <| (follows_word v.caMaxrequests).cons <|
  (leaves_array (fun _ => h) (follows_times follows_word)).last _

/-- A channel with more of them is refused. -/
theorem refuses_channelAttrs {v : ChannelAttrs4} (h : 1 < v.caRdmaIrd.length) :
    Refuses (encode v : Encoded UInt8 XdrError) channelAttrs :=
  .later (follows_word v.caHeaderpadsize) <| .later (follows_word v.caMaxrequestsize) <|
  .later (follows_word v.caMaxresponsesize) <| .later (follows_word v.caMaxresponsesizeCached) <|
  .later (follows_word v.caMaxoperations) <| .later (follows_word v.caMaxrequests) <|
  .cons (refuses_array h)

/-! ### Security parameters -/

/-- Words of zeros one after the other. -/
theorem seq_replicate_zeros (n k : Nat) :
    (Encoded.seq (List.replicate n (.ok (List.replicate k 0))) : Encoded UInt8 XdrError)
      = .ok (List.replicate (n * k) 0) := by
  induction n with
  | zero => simp [Encoded.seq]
  | succ n ih =>
      rw [List.replicate_succ, Encoded.seq_cons_ok rfl ih, List.replicate_append_replicate]
      congr 2
      rw [Nat.add_comm, ← Nat.succ_mul]

/-- The void arm: a flavor, and nothing behind it. -/
theorem follows_authNone (arms : Nat → Parser UInt8 Unit) :
    Follows (encode (0 : UInt32) : Encoded UInt8 XdrError) (callbackSecParms arms) 0 := by
  intro b hb rest
  rw [callbackSecParms, run_bind_some (follows_word 0 b hb rest)]
  rfl

/-- Behind the flavors that the grammar reads, one word is left for each of the parameters. -/
theorem leaves_secParms (arms : Nat → Parser UInt8 Unit) (l : List CallbackSecParms4) :
    Leaves (Encoded.seq (l.map encode) : Encoded UInt8 XdrError)
      (times l.length (callbackSecParms arms)) (List.replicate l.length 0)
      (List.replicate (l.length * 4) 0) := by
  -- Each of them is written as two words of zeros, and read as one.
  have hwritten : (Encoded.seq (l.map encode) : Encoded UInt8 XdrError)
      = .ok (List.replicate (l.length * 8) 0) := by
    rw [← seq_replicate_zeros, List.map_eq_replicate_iff.mpr]
    rintro ⟨⟩ -
    rfl
  have hread : Follows (Encoded.seq (List.replicate l.length (encode (0 : UInt32))) :
      Encoded UInt8 XdrError) (times l.length (callbackSecParms arms))
        (List.replicate l.length 0) := by
    have := follows_times (l := List.replicate l.length ()) fun _ => follows_authNone arms
    simpa using this
  intro b hb rest
  obtain rfl := Except.ok.inj (hwritten.symm.trans hb)
  have hsplit : List.replicate (l.length * 8) (0 : UInt8)
      = List.replicate (l.length * 4) 0 ++ List.replicate (l.length * 4) 0 := by
    rw [List.replicate_append_replicate]
    congr 1
    omega
  rw [hsplit, List.append_assoc]
  exact hread _ (seq_replicate_zeros l.length 4) _

/-! ### The arguments -/

/-- What the grammar reads of the arguments. -/
def CreateSession4args.spec (v : CreateSession4args) : CreateSession where
  clientid := v.csaClientid.id.toNat
  sequence := v.csaSequence.toNat
  flags := v.csaFlags.toNat
  foreChanAttrs := v.csaForeChanAttrs.spec
  backChanAttrs := v.csaBackChanAttrs.spec
  cbProgram := v.csaCbProgram.toNat
  secParms := List.replicate v.csaSecParms.length 0

/-- The arguments that the grammar can express as the client writes them. -/
def CreateSession4args.Conforms (v : CreateSession4args) : Prop :=
  v.csaSecParms = [] ∧ v.csaForeChanAttrs.caRdmaIrd.length ≤ 1 ∧
    v.csaBackChanAttrs.caRdmaIrd.length ≤ 1

section Arguments

variable (arms : Nat → Parser UInt8 Unit) {v : CreateSession4args}

/-- The arguments are read, and what AUTH_NONE writes too much is left. -/
theorem leaves_createSession (hfore : v.csaForeChanAttrs.caRdmaIrd.length ≤ 1)
    (hback : v.csaBackChanAttrs.caRdmaIrd.length ≤ 1) :
    Leaves (encode v : Encoded UInt8 XdrError) (createSession arms) v.spec
      (List.replicate (v.csaSecParms.length * 4) 0) :=
  (follows_hyper v.csaClientid.id).cons <| (follows_word v.csaSequence).cons <|
  (follows_word v.csaFlags).cons <| (follows_channelAttrs hfore).cons <|
  (follows_channelAttrs hback).cons <| (follows_word v.csaCbProgram).cons <|
  (leaves_array (fun hlt => Nat.le_sub_one_of_lt hlt) (leaves_secParms arms v.csaSecParms)).last _

/-- A fore channel with more RDMA limits is refused. -/
theorem refuses_fore (hfore : 1 < v.csaForeChanAttrs.caRdmaIrd.length) :
    Refuses (encode v : Encoded UInt8 XdrError) (createSession arms) :=
  .later (follows_hyper v.csaClientid.id) <| .later (follows_word v.csaSequence) <|
  .later (follows_word v.csaFlags) <| .cons (refuses_channelAttrs hfore)

/-- A back channel with more RDMA limits is refused. -/
theorem refuses_back (hfore : v.csaForeChanAttrs.caRdmaIrd.length ≤ 1)
    (hback : 1 < v.csaBackChanAttrs.caRdmaIrd.length) :
    Refuses (encode v : Encoded UInt8 XdrError) (createSession arms) :=
  .later (follows_hyper v.csaClientid.id) <| .later (follows_word v.csaSequence) <|
  .later (follows_word v.csaFlags) <| .later (follows_channelAttrs hfore) <|
  .cons (refuses_channelAttrs hback)

/-- The parser reads exactly the arguments when they conform, and never otherwise. -/
theorem createSession_consumes_iff {body : Bytes} (h : encode v = .ok body) (back : Bytes) :
    (∃ w, (createSession arms).run (body ++ back) = some (w, back)) ↔ v.Conforms := by
  by_cases hfore : v.csaForeChanAttrs.caRdmaIrd.length ≤ 1
  · by_cases hback : v.csaBackChanAttrs.caRdmaIrd.length ≤ 1
    · rw [leaves_createSession arms hfore hback body h back]
      constructor
      · rintro ⟨w, hw⟩
        have hlen := congrArg List.length (Prod.mk.inj (Option.some.inj hw)).2
        rw [List.length_append, List.length_replicate] at hlen
        exact ⟨List.eq_nil_of_length_eq_zero (by omega), hfore, hback⟩
      · rintro ⟨hnil, -, -⟩
        exact ⟨v.spec, by rw [hnil]; rfl⟩
    · rw [refuses_back arms hfore (Nat.lt_of_not_le hback) body h back]
      exact iff_of_false (by simp) fun hc => hback hc.2.2
  · rw [refuses_fore arms (Nat.lt_of_not_le hfore) body h back]
    exact iff_of_false (by simp) fun hc => hfore hc.2.1

end Arguments

/-! ### Whole requests -/

/-- The parts of a request at one of its operations. -/
theorem encode_request_split {a : Compound4args} {bytes : Bytes} {pre post : List NfsArgOp4}
    {op : NfsArgOp4} (h : encode a = .ok bytes) (ha : a.argarray = pre ++ op :: post) :
    ∃ front body back, bytes = front ++ (body ++ back) ∧
      Encoded.seq (encode a.tag :: encode a.minorversion ::
        encode (UInt32.ofNat a.argarray.length) :: pre.map encode) = .ok front ∧
      encode op = .ok body ∧ Encoded.seq (post.map encode) = .ok back := by
  obtain ⟨btag, q₁, htag, hq₁, rfl⟩ := Encoded.seq_cons_eq_ok.mp h
  obtain ⟨bminor, q₂, hminor, hq₂, rfl⟩ := Encoded.seq_cons_eq_ok.mp hq₁
  rw [Encoded.seq_singleton] at hq₂
  obtain ⟨-, hseq⟩ := encode_list_eq_ok hq₂
  obtain ⟨bcount, q₃, hcount, hq₃, rfl⟩ := Encoded.seq_cons_eq_ok.mp hseq
  rw [ha, List.map_append, List.map_cons, Encoded.seq_append_eq_ok] at hq₃
  obtain ⟨bpre, q₄, hpre, hq₄, rfl⟩ := hq₃
  obtain ⟨body, back, hbody, hback, rfl⟩ := Encoded.seq_cons_eq_ok.mp hq₄
  refine ⟨btag ++ (bminor ++ (bcount ++ bpre)), body, back, ?_, ?_, hbody, hback⟩
  · simp only [List.append_assoc]
  · exact Encoded.seq_cons_ok htag <| Encoded.seq_cons_ok hminor <|
      Encoded.seq_cons_ok hcount hpre

/-- CREATE_SESSION on the wire. At any position of any request, a strict parser of the
arguments consumes exactly what was written for them when there are no security parameters
and neither channel has more than one RDMA entry, and on no other arguments. -/
theorem create_session_strict_iff (arms : Nat → Parser UInt8 Unit) {a : Compound4args}
    {bytes : Bytes} {pre post : List NfsArgOp4} {v : CreateSession4args}
    (h : encode a = .ok bytes) (ha : a.argarray = pre ++ .createSession v :: post) :
    ∃ front opnum body back, bytes = front ++ (opnum ++ (body ++ back)) ∧
      Encoded.seq (encode a.tag :: encode a.minorversion ::
        encode (UInt32.ofNat a.argarray.length) :: pre.map encode) = .ok front ∧
      encode OP_CREATE_SESSION = .ok opnum ∧ encode v = .ok body ∧
      Encoded.seq (post.map encode) = .ok back ∧
      ((∃ w, (createSession arms).run (body ++ back) = some (w, back)) ↔ v.Conforms) := by
  obtain ⟨front, b, back, rfl, hfront, hb, hback⟩ := encode_request_split h ha
  obtain ⟨opnum, body', hopnum, hbody', rfl⟩ := Encoded.seq_cons_eq_ok.mp hb
  rw [Encoded.seq_singleton] at hbody'
  exact ⟨front, opnum, body', back, by simp only [List.append_assoc], hfront, hopnum, hbody',
    hback, createSession_consumes_iff arms hbody' back⟩

/-- What a connect sends to create a session. -/
def sampleCreate : CreateSession4args where
  csaClientid := ⟨5⟩
  csaSequence := 1
  csaFlags := 0
  csaForeChanAttrs := Nfs4Client.defaultChan
  csaBackChanAttrs := Nfs4Client.defaultChan
  csaCbProgram := 0
  csaSecParms := [.authNone]

/-- A word is left of the request of a connect, where nothing should be. -/
theorem create_session_trailing_word :
    (Nfs4Client.createArgs ⟨5⟩ 1).argarray = [.createSession sampleCreate] ∧
    ∃ body, encode sampleCreate = .ok body ∧
      (createSession fun _ => Parser.refuse).run body = some (sampleCreate.spec, [0, 0, 0, 0]) :=
  ⟨rfl, _, rfl, by decide +kernel⟩

/-- A request without security parameters, between two other operations. -/
def bareRequest : Compound4args where
  tag := "bare"
  minorversion := 1
  argarray := [.putRootFh, .createSession { sampleCreate with csaSecParms := [] }, .getFh]

/-- A request without security parameters, in front of a GETFH. -/
theorem create_session_strict_bare :
    ∃ bytes front opnum body back, encode bareRequest = .ok bytes ∧
      bytes = front ++ (opnum ++ (body ++ back)) ∧
      Encoded.seq ([NfsArgOp4.getFh].map encode) = .ok back ∧
      ∃ w, (createSession fun _ => Parser.refuse).run (body ++ back) = some (w, back) := by
  obtain ⟨bytes, h⟩ : ∃ bytes, encode bareRequest = .ok bytes := ⟨_, rfl⟩
  obtain ⟨front, opnum, body, back, hbytes, -, -, -, hback, hiff⟩ :=
    create_session_strict_iff (fun _ => Parser.refuse) h
      (show bareRequest.argarray = [.putRootFh] ++ .createSession _ :: [.getFh] from rfl)
  exact ⟨bytes, front, opnum, body, back, h, hbytes, hback,
    hiff.mpr ⟨rfl, Nat.zero_le 1, Nat.zero_le 1⟩⟩

end NfsMount.Nfs4Types
