import Mathlib.Data.Nat.Bitwise
import NfsMount.Lib.Framing
import NfsMount.OncRpc.Record

/-!
# `NfsMount.Proofs.Record`: reassembly is the reference parse

`nextRecord` is the reference: it reads headers and bodies off a stream that is all there.
`recordFraming` makes it a framing, whose `parse` is the list of records of a stream up to
the first error.

The reader has five fields, and its state says where in the stream it stands.
`RecordReader.ahead` says what the reference finds from that place on, and the invariant
`Stands r u` is that this is what it finds on `u`, the bytes since the last record. One turn
of the loop that goes on does not change `ahead`, and a turn that leaves returns what `ahead`
says, so `read` follows the framing (`follows`). The result about chunks is then the general
one about readers that follow a framing.
-/

set_option autoImplicit false

namespace NfsMount.OncRpc

open NfsMount.Lib NfsMount.XdrCodec

/-! ### The reference -/

/-- The first record of the stream `b`, `acc` being the fragments of the record before it.
Bit 31 of a header is the last-fragment mark, and its low 31 bits are the length. -/
def nextRecord (acc b : Bytes) : Option (Except RpcError Bytes × Bytes) :=
  if b.length < 4 then
    none
  else
    let length := wordAt b 0 % 2 ^ 31
    if MAX_RECORD_SIZE < acc.length + length then
      some (.error (.recordTooLarge (acc.length + length) MAX_RECORD_SIZE), b.drop 4)
    else if b.length < 4 + length then
      none
    else
      let acc' := acc ++ (b.drop 4).take length
      let rest := b.drop (4 + length)
      if 2 ^ 31 ≤ wordAt b 0 then some (.ok acc', rest) else nextRecord acc' rest
termination_by b.length
decreasing_by
  rw [List.length_drop]
  omega

/-- A body of `length` bytes, and what follows it. -/
def nextBody (acc : Bytes) (length : Nat) (last : Prop) [Decidable last] (b : Bytes) :
    Option (Except RpcError Bytes × Bytes) :=
  if b.length < length then none
  else if last then some (.ok (acc ++ b.take length), b.drop length)
  else nextRecord (acc ++ b.take length) (b.drop length)

variable {acc b : Bytes}

/-- Without a whole header there is no record. -/
theorem nextRecord_of_short (h : b.length < 4) : nextRecord acc b = none := by
  rw [nextRecord, if_pos h]

/-- A header that takes the record over the limit is an error. -/
theorem nextRecord_of_large (h4 : 4 ≤ b.length)
    (h : MAX_RECORD_SIZE < acc.length + wordAt b 0 % 2 ^ 31) :
    nextRecord acc b = some (.error (.recordTooLarge (acc.length + wordAt b 0 % 2 ^ 31)
      MAX_RECORD_SIZE), b.drop 4) := by
  rw [nextRecord, if_neg (Nat.not_lt.mpr h4)]
  exact if_pos h

/-- A header within the limit goes on with the body. -/
theorem nextRecord_of_body (h4 : 4 ≤ b.length)
    (h : acc.length + wordAt b 0 % 2 ^ 31 ≤ MAX_RECORD_SIZE) :
    nextRecord acc b =
      nextBody acc (wordAt b 0 % 2 ^ 31) (2 ^ 31 ≤ wordAt b 0) (b.drop 4) := by
  rw [nextRecord, if_neg (Nat.not_lt.mpr h4), nextBody]
  simp only [if_neg (Nat.not_lt.mpr h), List.length_drop, List.drop_drop]
  have hlen : b.length < 4 + wordAt b 0 % 2 ^ 31 ↔ b.length - 4 < wordAt b 0 % 2 ^ 31 := by
    omega
  simp only [hlen]

/-- The header is the same with more bytes behind it. -/
theorem wordAt_append {b : Bytes} (h4 : 4 ≤ b.length) (c : Bytes) :
    wordAt (b ++ c) 0 = wordAt b 0 := by
  rw [wordAt, wordAt, List.drop_zero, List.drop_zero, List.take_append_of_le_length h4]

/-- A body that is all there is found whatever follows it. `hrec` is the claim about the
record's later fragments. -/
private theorem nextBody_append {length : Nat} {last : Prop} [Decidable last]
    {x : Except RpcError Bytes} {r : Bytes}
    (hrec : ∀ r', nextRecord (acc ++ b.take length) (b.drop length) = some (x, r') →
      r' <:+ b.drop length ∧
      ∀ c, nextRecord (acc ++ b.take length) (b.drop length ++ c) = some (x, r' ++ c))
    (h : nextBody acc length last b = some (x, r)) :
    r <:+ b ∧ ∀ c, nextBody acc length last (b ++ c) = some (x, r ++ c) := by
  by_cases hlt : b.length < length
  · rw [nextBody, if_pos hlt] at h
    simp at h
  · have hle : length ≤ b.length := Nat.not_lt.mp hlt
    have hge : ∀ c : Bytes, ¬ (b ++ c).length < length := fun c => by
      rw [List.length_append]
      omega
    rw [nextBody, if_neg hlt] at h
    simp only [nextBody, if_neg (hge _), List.take_append_of_le_length hle,
      List.drop_append_of_le_length hle]
    by_cases hlast : last
    · rw [if_pos hlast, Option.some.injEq, Prod.mk.injEq] at h
      obtain ⟨rfl, rfl⟩ := h
      simp only [if_pos hlast]
      exact ⟨List.drop_suffix length b, fun _ => trivial⟩
    · rw [if_neg hlast] at h
      -- The body is whole, and the record goes on in the next fragment.
      obtain ⟨hsuffix, happ⟩ := hrec r h
      simp only [if_neg hlast]
      exact ⟨hsuffix.trans (List.drop_suffix length b), happ⟩

/-- The reference takes at least a header, and does not look past what it returns. -/
theorem nextRecord_append {x : Except RpcError Bytes} {r : Bytes}
    (h : nextRecord acc b = some (x, r)) :
    4 ≤ b.length ∧ r <:+ b.drop 4 ∧ ∀ c, nextRecord acc (b ++ c) = some (x, r ++ c) := by
  -- The induction is on the length of the stream, as every fragment takes its header off it.
  induction hn : b.length using Nat.strongRecOn generalizing acc b r with
  | ind n ih =>
      subst hn
      by_cases h4 : b.length < 4
      · rw [nextRecord_of_short h4] at h
        simp at h
      have h4 : 4 ≤ b.length := Nat.not_lt.mp h4
      have h4' : ∀ c : Bytes, 4 ≤ (b ++ c).length := fun c => by
        rw [List.length_append]
        omega
      by_cases hlarge : MAX_RECORD_SIZE < acc.length + wordAt b 0 % 2 ^ 31
      · rw [nextRecord_of_large h4 hlarge, Option.some.injEq, Prod.mk.injEq] at h
        obtain ⟨rfl, rfl⟩ := h
        refine ⟨h4, List.suffix_rfl, fun c => ?_⟩
        rw [nextRecord_of_large (h4' c) (by rwa [wordAt_append h4]), wordAt_append h4,
          List.drop_append_of_le_length h4]
      · have hsmall := Nat.not_lt.mp hlarge
        rw [nextRecord_of_body h4 hsmall] at h
        -- The later fragments are read from a stream that is at least a header shorter.
        obtain ⟨hsuffix, happ⟩ := nextBody_append (fun r' hr' => by
          obtain ⟨-, hs, hc⟩ := ih _ (by simp only [List.length_drop]; omega) hr' rfl
          exact ⟨hs.trans (List.drop_suffix 4 _), hc⟩) h
        refine ⟨h4, hsuffix, fun c => ?_⟩
        rw [nextRecord_of_body (h4' c) (by rwa [wordAt_append h4]),
          List.drop_append_of_le_length h4]
        simp only [wordAt_append h4]
        exact happ c

/-- When the reference finds nothing in a stream it finds nothing in a prefix of it. -/
theorem nextRecord_prefix_none {c : Bytes} (h : nextRecord acc (b ++ c) = none) :
    nextRecord acc b = none := by
  cases hb : nextRecord acc b with
  | none => rfl
  | some found =>
      obtain ⟨x, r⟩ := found
      rw [(nextRecord_append hb).2.2 c] at h
      simp at h

/-- Records in a stream. -/
def recordFraming : Framing UInt8 RpcError Bytes where
  next := nextRecord []
  shrinks h := by
    obtain ⟨h4, hsuffix, -⟩ := nextRecord_append h
    have hle := hsuffix.length_le
    rw [List.length_drop] at hle
    omega
  stable c h := (nextRecord_append h).2.2 c

/-! ### The header bits -/

/-- Masking with the last-fragment bit leaves it when it is set. -/
theorem lastFragment_ne_zero_iff (header : UInt32) :
    header &&& LAST_FRAGMENT ≠ 0 ↔ 2 ^ 31 ≤ header.toNat := by
  have hlt : header.toNat < 2 ^ 32 := header.toNat_lt
  -- `LAST_FRAGMENT` is a power of two, so the mask leaves one bit of the header.
  have hbit : (header &&& LAST_FRAGMENT).toNat = (header.toNat.testBit 31).toNat * 2 ^ 31 := by
    rw [UInt32.toNat_and]
    exact Nat.and_two_pow header.toNat 31
  rw [Ne, ← UInt32.toNat_inj, hbit, Nat.testBit_eq_decide_div_mod_eq]
  by_cases h : header.toNat / 2 ^ 31 % 2 = 1
  · simp only [h, decide_true, Bool.toNat_true]
    exact iff_of_true (by decide) (by omega)
  · simp only [h, decide_false, Bool.toNat_false]
    exact iff_of_false (by decide) (by omega)

/-- Masking it out leaves the low 31 bits. -/
theorem toNat_and_not_lastFragment (header : UInt32) :
    (header &&& ~~~LAST_FRAGMENT).toNat = header.toNat % 2 ^ 31 := by
  rw [UInt32.toNat_and]
  exact Nat.and_two_pow_sub_one_eq_mod header.toNat 31

namespace RecordReader

/-- What the reference finds from the reader's place in the stream on, `c` being the bytes
that are still to come. -/
def ahead (r : RecordReader) (c : Bytes) : Option (Except RpcError Bytes × Bytes) :=
  if r.inFragment then nextBody r.record r.remaining r.isLast (r.input ++ c)
  else nextRecord r.record (r.input ++ c)

/-- What a turn that leaves says about the stream: the reader needs more bytes and stands
where it stood, or it returns what the reference finds and has the rest as its input. After
a record it stands at the start of the next one. -/
def Reports (r : RecordReader) : ReadResult → Prop
  | (.ok .incomplete, r') => r.ahead [] = none ∧ ∀ c, r'.ahead c = r.ahead c
  | (.ok (.complete rec), r') =>
      r.ahead [] = some (.ok rec, r'.input) ∧ r'.record = [] ∧ r'.inFragment = false
  | (.error e, r') => r.ahead [] = some (.error e, r'.input)

/-- Two readers that stand in the same place. -/
theorem Reports.of_ahead_eq {r s : RecordReader} (h : ∀ c, r.ahead c = s.ahead c)
    {res : ReadResult} (hres : s.Reports res) : r.Reports res := by
  obtain ⟨x, r'⟩ := res
  rcases x with e | (rec | _)
  · exact (h []).trans hres
  · exact ⟨(h []).trans hres.1, hres.2⟩
  · exact ⟨(h []).trans hres.1, fun c => (hres.2 c).trans (h c).symm⟩

/-- The bytes of a body may come in two parts. -/
private theorem nextBody_split {acc input c : Bytes} {length : Nat} {last : Prop}
    [Decidable last] (h : input.length ≤ length) :
    nextBody (acc ++ input) (length - input.length) last c =
      nextBody acc length last (input ++ c) := by
  have htake : (input ++ c).take length = input ++ c.take (length - input.length) := by
    rw [List.take_append, List.take_of_length_le h]
  have hdrop : (input ++ c).drop length = c.drop (length - input.length) := by
    rw [List.drop_append, List.drop_of_length_le h, List.nil_append]
  have hlen : (input ++ c).length < length ↔ c.length < length - input.length := by
    rw [List.length_append]
    omega
  simp only [nextBody, htake, hdrop, hlen, List.append_assoc]

/-- What a turn says: a turn that goes on stays in place, and one that leaves reports. -/
def Advances (r : RecordReader) (t : Turn RecordReader ReadResult) : Prop :=
  t.Post (fun r' => ∀ c, r.ahead c = r'.ahead c) r.Reports

/-- A turn of a reader that stands at the same place. -/
theorem Advances.of_ahead_eq {r s : RecordReader} (h : ∀ c, r.ahead c = s.ahead c)
    {t : Turn RecordReader ReadResult} (ht : s.Advances t) : r.Advances t :=
  ht.imp (fun _ hs c => (h c).trans (hs c)) fun _ hres => hres.of_ahead_eq h

/-- Taking the body of an open fragment. -/
theorem takeBody_spec {r : RecordReader} (hin : r.inFragment) : r.Advances r.takeBody := by
  have hahead : ∀ c, r.ahead c = nextBody r.record r.remaining r.isLast (r.input ++ c) :=
    fun c => if_pos hin
  have hge : r.remaining ≤ r.input.length → ∀ c, ¬ (r.input ++ c).length < r.remaining := by
    intro hle c
    rw [List.length_append]
    omega
  apply takeBody_rule
  · intro hlt
    constructor
    · rw [hahead, List.append_nil, nextBody, if_pos hlt]
    -- The part of the body that is there moves from the input to the record.
    · intro c
      rw [hahead, ← nextBody_split (Nat.le_of_lt hlt)]
      simp only [ahead, if_pos hin, List.nil_append]
  · intro hle hlast
    refine ⟨?_, rfl, rfl⟩
    rw [hahead, nextBody, if_neg (hge hle []), if_pos hlast, List.append_nil]
  · intro hle hlast c
    -- The fragment ends here and is not the last, so the reference goes on as the reader does.
    rw [hahead, nextBody, if_neg (hge hle c), if_neg hlast, List.take_append_of_le_length hle,
      List.drop_append_of_le_length hle]
    rfl

/-- Reading a header, in the reference's words. -/
theorem iteration_of_header {r : RecordReader} (hin : ¬ r.inFragment)
    (h4 : 4 ≤ r.input.length) :
    iteration r =
      let length := wordAt r.input 0 % 2 ^ 31
      let r := { r with input := r.input.drop 4, isLast := 2 ^ 31 ≤ wordAt r.input 0 }
      if MAX_RECORD_SIZE < r.record.length + length then
        .done (.error (.recordTooLarge (r.record.length + length) MAX_RECORD_SIZE), r)
      else
        takeBody { r with remaining := length, inFragment := true } := by
  have hnat : (UInt32.ofNat (wordAt r.input 0)).toNat = wordAt r.input 0 :=
    UInt32.toNat_ofNat_of_lt' (wordAt_lt _ _)
  rw [iteration, if_neg hin, if_neg (Nat.not_lt.mpr h4)]
  simp only [lastFragment_ne_zero_iff, toNat_and_not_lastFragment, hnat]

/-- A turn of the loop. -/
theorem iteration_spec (r : RecordReader) : r.Advances (iteration r) := by
  by_cases hin : r.inFragment
  · rw [iteration, if_pos hin]
    exact takeBody_spec hin
  have hahead : ∀ c, r.ahead c = nextRecord r.record (r.input ++ c) := fun c => if_neg hin
  by_cases h4 : r.input.length < 4
  · rw [iteration, if_neg hin, if_pos h4]
    show r.ahead [] = none ∧ ∀ c, r.ahead c = r.ahead c
    exact ⟨by rw [hahead, List.append_nil, nextRecord_of_short h4], fun c => rfl⟩
  have h4 := Nat.not_lt.mp h4
  have h4' : ∀ c : Bytes, 4 ≤ (r.input ++ c).length := fun c => by
    rw [List.length_append]
    omega
  rw [iteration_of_header hin h4]
  by_cases hlarge : MAX_RECORD_SIZE < r.record.length + wordAt r.input 0 % 2 ^ 31
  · simp only [if_pos hlarge]
    show r.ahead [] = _
    rw [hahead, List.append_nil, nextRecord_of_large h4 hlarge]
  · simp only [if_neg hlarge]
    -- The rest of the turn takes the body of the fragment that was opened.
    refine Advances.of_ahead_eq ?_ (takeBody_spec rfl)
    intro c
    have hsmall : r.record.length + wordAt (r.input ++ c) 0 % 2 ^ 31 ≤ MAX_RECORD_SIZE := by
      rw [wordAt_append h4]
      exact Nat.not_lt.mp hlarge
    rw [hahead, nextRecord_of_body (h4' c) hsmall, List.drop_append_of_le_length h4]
    simp only [wordAt_append h4, ahead, if_true, decide_eq_true_eq]

/-- A call of `read` reports on the stream with the new bytes. -/
theorem read_reports (r : RecordReader) (data : Bytes) :
    Reports { r with input := r.input ++ data } (r.read data) :=
  Loop.run_induct iteration_decreases (fun s _ h => (iteration_spec s).done h)
    (fun s _ _ h hres => hres.of_ahead_eq ((iteration_spec s).next h)) _

/-! ### Following the framing -/

/-- The reader stands behind the bytes `u` of the current record. -/
def Stands (r : RecordReader) (u : Bytes) : Prop := ∀ c, r.ahead c = nextRecord [] (u ++ c)

/-- A new reader stands at the start. -/
theorem stands_new : Stands new [] := fun _ => rfl

/-- New bytes are ahead, behind the others. -/
theorem ahead_feed (r : RecordReader) (data c : Bytes) :
    ahead { r with input := r.input ++ data } c = r.ahead (data ++ c) := by
  simp only [ahead, List.append_assoc]

/-- At the start of a record only the input matters. -/
theorem stands_input {r : RecordReader} (hrec : r.record = []) (hin : r.inFragment = false) :
    Stands r r.input := fun c => by
  rw [ahead, hin, hrec]
  rfl

/-- A call of `read` finds what the reference finds. It returns nothing when the reference
needs more bytes, and then the reader stands behind all of them. It returns the record the
reference finds, and then the reader stands behind the record. An error is the reference's
too. -/
theorem read_spec {r : RecordReader} {u : Bytes} (hr : Stands r u) (data : Bytes) :
    match r.read data with
    | (.ok .incomplete, r') => nextRecord [] (u ++ data) = none ∧ Stands r' (u ++ data)
    | (.ok (.complete rec), r') =>
        nextRecord [] (u ++ data) = some (.ok rec, r'.input) ∧ Stands r' r'.input
    | (.error e, r') => nextRecord [] (u ++ data) = some (.error e, r'.input) := by
  have hreports := r.read_reports data
  have hnow : ahead { r with input := r.input ++ data } [] = nextRecord [] (u ++ data) := by
    rw [ahead_feed, hr, List.append_nil]
  rcases hread : r.read data with ⟨x, r'⟩
  rw [hread] at hreports
  rcases x with e | (rec | _)
  · exact hnow.symm.trans hreports
  · obtain ⟨hrec, hempty, hclosed⟩ := hreports
    exact ⟨hnow.symm.trans hrec, stands_input hempty hclosed⟩
  · obtain ⟨hnone, hahead⟩ := hreports
    refine ⟨hnow.symm.trans hnone, fun c => ?_⟩
    rw [hahead, ahead_feed, hr, List.append_assoc]

/-- The frame of a read result, as readers of a framing return it. -/
def frame? : RecordResult → Option Bytes
  | .complete rec => some rec
  | .incomplete => none

/-- A call that returns a record uses up a header, or closes the fragment that was open. -/
theorem variant_read {r r' : RecordReader} {data rec : Bytes}
    (h : r.read data = (.ok (.complete rec), r')) : variant r' < variant r + data.length := by
  have hrun := Loop.run_induct iteration_decreases
    -- A turn that goes on makes the variant smaller, and so does the turn that returns a record.
    (P := fun s res => ∀ rec, res.1 = .ok (.complete rec) → variant res.2 < variant s)
    (fun s _ hs => (iteration_variant s).done hs)
    (fun s s' _ hs hres rec hrec => (hres rec hrec).trans (iteration_decreases s s' hs))
    { r with input := r.input ++ data }
  have hlt := hrun rec (congrArg Prod.fst h)
  have hr' : variant (Loop.run iteration variant iteration_decreases
      { r with input := r.input ++ data }).2 = variant r' := congrArg (variant ·.2) h
  rw [hr'] at hlt
  simp only [variant, List.length_append] at hlt ⊢
  omega

/-- The reader as a reader of a framing. -/
def reader : Reader UInt8 RpcError Bytes RecordReader where
  read r d := ((r.read d).1.map frame?, (r.read d).2)
  size := variant
  size_lt {r d rec r'} h := by
    obtain ⟨hrec, rfl⟩ := Prod.mk.inj h
    rcases hread : r.read d with ⟨e | (x | _), r''⟩
    · rw [hread] at hrec
      cases hrec
    · exact variant_read hread
    · rw [hread] at hrec
      cases hrec

/-- The reader follows the reference. -/
theorem follows : reader.Follows recordFraming Stands where
  none {r u d r'} hr h := by
    obtain ⟨hres, rfl⟩ := Prod.mk.inj h
    have hspec := read_spec hr d
    rcases hread : r.read d with ⟨e | (x | _), r''⟩
    · rw [hread] at hres
      cases hres
    · rw [hread] at hres
      cases hres
    · rw [hread] at hspec
      exact hspec
  frame {r u d rec r'} hr h := by
    obtain ⟨hres, rfl⟩ := Prod.mk.inj h
    have hspec := read_spec hr d
    rcases hread : r.read d with ⟨e | (x | _), r''⟩
    · rw [hread] at hres
      cases hres
    · rw [hread] at hres hspec
      obtain rfl : x = rec := Option.some.inj (Except.ok.inj hres)
      exact ⟨r''.input, hspec⟩
    · rw [hread] at hres
      cases hres
  error {r u d e r'} hr h := by
    obtain ⟨hres, rfl⟩ := Prod.mk.inj h
    have hspec := read_spec hr d
    rcases hread : r.read d with ⟨e' | (x | _), r''⟩
    · rw [hread] at hres hspec
      obtain rfl : e' = e := Except.error.inj hres
      exact ⟨r''.input, hspec⟩
    · rw [hread] at hres
      cases hres
    · rw [hread] at hres
      cases hres

end RecordReader

/-! ### Records on the wire -/

/-- A record as a peer sends it, in fragments of any lengths a header can hold. -/
structure Record where
  fragments : List Bytes
  nonempty : fragments ≠ []
  length_lt : ∀ f ∈ fragments, f.length < 2 ^ 31

/-- A header, with the last-fragment mark or without it. -/
def fragmentHeader (last : Bool) (length : Nat) : Bytes :=
  beBytes 4 (length + last.toNat * 2 ^ 31)

/-- The fragments of a record, the last one marked. -/
def wireFragments : List Bytes → Bytes
  | [] => []
  | f :: fs => fragmentHeader fs.isEmpty f.length ++ f ++ wireFragments fs

namespace Record

/-- The bytes of the record on the wire. -/
def wire (rec : Record) : Bytes := wireFragments rec.fragments

/-- What the record carries. -/
def payload (rec : Record) : Bytes := rec.fragments.flatten

end Record

/-- The header of a fragment says its length and whether it is the last one. -/
theorem wordAt_fragmentHeader {length : Nat} (h : length < 2 ^ 31) (last : Bool) (c : Bytes) :
    wordAt (fragmentHeader last length ++ c) 0 = length + last.toNat * 2 ^ 31 := by
  have hlast : last.toNat ≤ 1 := Bool.toNat_le last
  rw [wordAt, fragmentHeader, List.drop_zero, List.take_left' (length_beBytes 4 _)]
  exact ofBE_beBytes (by omega)

/-- The reference on a fragment that was sent: an error when the record gets too large, and
else the record or its next fragment. -/
theorem nextRecord_fragment {f : Bytes} (hf : f.length < 2 ^ 31) (last : Bool)
    (acc rest : Bytes) :
    nextRecord acc (fragmentHeader last f.length ++ f ++ rest) =
      if MAX_RECORD_SIZE < acc.length + f.length then
        some (.error (.recordTooLarge (acc.length + f.length) MAX_RECORD_SIZE), f ++ rest)
      else if last then some (.ok (acc ++ f), rest)
      else nextRecord (acc ++ f) rest := by
  have hheader : (fragmentHeader last f.length).length = 4 := length_beBytes 4 _
  have hlast : last.toNat ≤ 1 := Bool.toNat_le last
  have hword := wordAt_fragmentHeader hf last (f ++ rest)
  have hlength : wordAt (fragmentHeader last f.length ++ (f ++ rest)) 0 % 2 ^ 31 = f.length := by
    rw [hword]
    omega
  have h4 : 4 ≤ (fragmentHeader last f.length ++ (f ++ rest)).length := by
    rw [List.length_append]
    omega
  -- The length stays below bit 31, so the bit is the mark.
  have hmark : 2 ^ 31 ≤ f.length + last.toNat * 2 ^ 31 ↔ last = true := by
    cases last with
    | false => simp; omega
    | true => simp
  rw [List.append_assoc]
  by_cases hlarge : MAX_RECORD_SIZE < acc.length + f.length
  · rw [nextRecord_of_large h4 (by rwa [hlength]), hlength, if_pos hlarge,
      List.drop_left' hheader]
  · have hge : ¬ (f ++ rest).length < f.length := by
      rw [List.length_append]
      omega
    rw [nextRecord_of_body h4 (by rw [hlength]; omega), if_neg hlarge, List.drop_left' hheader,
      hlength, nextBody, if_neg hge, List.take_left, List.drop_left]
    simp only [hword, hmark]

/-- A record that fits is found whole, and what follows it is left. -/
private theorem nextRecord_wireFragments {fs : List Bytes} (hne : fs ≠ [])
    (hlt : ∀ f ∈ fs, f.length < 2 ^ 31) (rest : Bytes) (acc : Bytes)
    (hfits : acc.length + fs.flatten.length ≤ MAX_RECORD_SIZE) :
    nextRecord acc (wireFragments fs ++ rest) = some (.ok (acc ++ fs.flatten), rest) := by
  -- The induction is on the fragments, with those already read in `acc`.
  induction fs generalizing acc with
  | nil => exact absurd rfl hne
  | cons f fs ih =>
      have hf := hlt f List.mem_cons_self
      rw [List.flatten_cons, List.length_append] at hfits
      rw [wireFragments, List.append_assoc (fragmentHeader _ f.length ++ f),
        nextRecord_fragment hf, if_neg (by omega)]
      cases fs with
      | nil =>
          rw [List.isEmpty_nil, if_pos rfl]
          simp [wireFragments]
      | cons g fs =>
          rw [List.isEmpty_cons, if_neg Bool.false_ne_true,
            ih (List.cons_ne_nil g fs) (fun x hx => hlt x (List.mem_cons_of_mem f hx)),
            List.append_assoc, List.flatten_cons (l := f)]
          rw [List.length_append]
          omega

/-- A record that does not fit is an error before its last byte. -/
private theorem nextRecord_wireFragments_large {fs : List Bytes}
    (hlt : ∀ f ∈ fs, f.length < 2 ^ 31) (rest : Bytes) (acc : Bytes)
    (hacc : acc.length ≤ MAX_RECORD_SIZE)
    (hlarge : MAX_RECORD_SIZE < acc.length + fs.flatten.length) :
    ∃ e t, nextRecord acc (wireFragments fs ++ rest) = some (.error e, t) ∧ t ≠ [] := by
  -- As long as `acc` fits, some fragment must cross the limit.
  induction fs generalizing acc with
  | nil =>
      rw [List.flatten_nil, List.length_nil] at hlarge
      omega
  | cons f fs ih =>
      have hf := hlt f List.mem_cons_self
      rw [List.flatten_cons, List.length_append] at hlarge
      rw [wireFragments, List.append_assoc (fragmentHeader _ f.length ++ f),
        nextRecord_fragment hf]
      by_cases hhere : MAX_RECORD_SIZE < acc.length + f.length
      · -- The reference stops at this header, and the body behind it is not empty.
        rw [if_pos hhere]
        refine ⟨_, _, rfl, fun hnil => ?_⟩
        rw [(List.append_eq_nil_iff.mp hnil).1, List.length_nil] at hhere
        omega
      · rw [if_neg hhere]
        cases fs with
        | nil =>
            rw [List.flatten_nil, List.length_nil] at hlarge
            omega
        | cons g fs =>
            rw [List.isEmpty_cons, if_neg Bool.false_ne_true]
            refine ih (fun x hx => hlt x (List.mem_cons_of_mem f hx)) (acc ++ f) ?_ ?_
            · rw [List.length_append]
              omega
            · rw [List.length_append]
              omega

namespace Record

/-- A record has a header at least. -/
theorem wire_ne_nil (rec : Record) : rec.wire ≠ [] := by
  intro hnil
  obtain ⟨f, fs, hfs⟩ := List.exists_cons_of_ne_nil rec.nonempty
  have hlen := congrArg List.length hnil
  rw [wire, hfs, wireFragments, List.length_append, List.length_append, fragmentHeader,
    length_beBytes, List.length_nil] at hlen
  omega

/-- A record within the limit is the next one, and the rest stays. -/
theorem nextRecord_wire (rec : Record) (rest : Bytes)
    (h : rec.payload.length ≤ MAX_RECORD_SIZE) :
    nextRecord [] (rec.wire ++ rest) = some (.ok rec.payload, rest) :=
  nextRecord_wireFragments rec.nonempty rec.length_lt rest []
    (by rwa [List.length_nil, Nat.zero_add])

/-- A record over the limit is an error, with a part of it left. -/
theorem nextRecord_wire_large (rec : Record) (rest : Bytes)
    (h : MAX_RECORD_SIZE < rec.payload.length) :
    ∃ e t, nextRecord [] (rec.wire ++ rest) = some (.error e, t) ∧ t ≠ [] :=
  nextRecord_wireFragments_large rec.length_lt rest [] (Nat.zero_le _)
    (by rwa [List.length_nil, Nat.zero_add])

end Record

/-- **Reassembly is the reference parse.** A fresh reader, given a stream in any slices and
read out after each of them, returns exactly the records of the stream, up to the first
error. -/
theorem feed_new_eq_parse (slices : List Bytes) :
    RecordReader.reader.feed RecordReader.new slices = recordFraming.parse slices.flatten :=
  RecordReader.follows.feed_eq_parse RecordReader.stands_new
    (nextRecord_of_short (by decide)) slices

end NfsMount.OncRpc
