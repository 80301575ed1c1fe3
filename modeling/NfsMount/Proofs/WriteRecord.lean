import NfsMount.Proofs.Record

/-!
# `NfsMount.Proofs.WriteRecord`: what the reader makes of written records

`writeRecord` keeps the low 32 bits of a length and sets bit 31 on them, so its header holds
the low 31 bits of the length. `RecordReader` takes that many bytes for the payload, if they
are within its limit, and goes on behind them.

A payload within the limit comes back as it was sent. A payload above the limit is refused
when the low 31 bits of its length are above the limit, and else the reader returns the front
of it as a record (`nextRecord_writeRecord_append`). `writeRecord_faithful_iff` is the result
about a list of payloads, by induction on the list.
-/

set_option autoImplicit false

namespace NfsMount.OncRpc

open NfsMount.Lib NfsMount.XdrCodec

/-! ### One record -/

/-- The header that `writeRecord` makes: the mark, and the low 31 bits of the length. -/
theorem writeRecord_header (n : Nat) :
    (LAST_FRAGMENT ||| UInt32.ofNat n).toNat = 2 ^ 31 + n % 2 ^ 31 := by
  have hlow : n % 2 ^ 31 < 2 ^ 31 := Nat.mod_lt n (by decide)
  have hor : 2 ^ 31 ||| n % 2 ^ 31 = 2 ^ 31 + n % 2 ^ 31 :=
    (Nat.two_pow_add_eq_or_of_lt hlow 1).symm
  rw [UInt32.toNat_or, UInt32.toNat_ofNat']
  show 2 ^ 31 ||| n % 2 ^ 32 = _
  -- Bit 31 of the length is lost in the mark, if it is set.
  by_cases hbit : n % 2 ^ 32 < 2 ^ 31
  · have hmod : n % 2 ^ 32 = n % 2 ^ 31 := by omega
    rw [hmod, hor]
  · have hmod : n % 2 ^ 32 = 2 ^ 31 + n % 2 ^ 31 := by omega
    rw [hmod, ← hor, ← Nat.or_assoc, Nat.or_self]

/-- The reference on a written record. It is refused, or the payload is cut off at the low 31
bits of its length. -/
theorem nextRecord_writeRecord_append (p rest : Bytes) :
    nextRecord [] (writeRecord p ++ rest) =
      if MAX_RECORD_SIZE < p.length % 2 ^ 31 then
        some (.error (.recordTooLarge (p.length % 2 ^ 31) MAX_RECORD_SIZE), p ++ rest)
      else
        some (.ok (p.take (p.length % 2 ^ 31)), p.drop (p.length % 2 ^ 31) ++ rest) := by
  have hle : p.length % 2 ^ 31 ≤ p.length := Nat.mod_le _ _
  have hlow : p.length % 2 ^ 31 < 2 ^ 31 := Nat.mod_lt _ (by decide)
  have hheader : (beBytes 4 (2 ^ 31 + p.length % 2 ^ 31)).length = 4 := length_beBytes 4 _
  have hstream : writeRecord p ++ rest = beBytes 4 (2 ^ 31 + p.length % 2 ^ 31) ++ (p ++ rest) := by
    rw [writeRecord, writeRecord_header, List.append_assoc]
  have hword : wordAt (writeRecord p ++ rest) 0 = 2 ^ 31 + p.length % 2 ^ 31 := by
    rw [hstream, wordAt, List.drop_zero, List.take_left' hheader]
    exact ofBE_beBytes (by omega)
  -- The flag of the header is bit 31, and the reader takes the bits below it.
  have hlength : wordAt (writeRecord p ++ rest) 0 % 2 ^ 31 = p.length % 2 ^ 31 := by
    rw [hword]
    omega
  have h4 : 4 ≤ (writeRecord p ++ rest).length := by
    rw [hstream, List.length_append]
    omega
  have hbody : (writeRecord p ++ rest).drop 4 = p ++ rest := by
    rw [hstream, List.drop_left' hheader]
  by_cases hlarge : MAX_RECORD_SIZE < p.length % 2 ^ 31
  · have hover : MAX_RECORD_SIZE
        < ([] : Bytes).length + wordAt (writeRecord p ++ rest) 0 % 2 ^ 31 := by
      rw [hlength, List.length_nil]
      omega
    -- Refused on the header alone: the payload stays in front of the rest.
    rw [nextRecord_of_large h4 hover, if_pos hlarge, hlength, hbody, List.length_nil,
      Nat.zero_add]
  · have hwithin : ([] : Bytes).length + wordAt (writeRecord p ++ rest) 0 % 2 ^ 31
        ≤ MAX_RECORD_SIZE := by
      rw [hlength, List.length_nil]
      omega
    have hmark : 2 ^ 31 ≤ wordAt (writeRecord p ++ rest) 0 := by
      rw [hword]
      omega
    have hthere : ¬ (p ++ rest).length < p.length % 2 ^ 31 := by
      rw [List.length_append]
      omega
    -- The last fragment: what is cut off of the payload is the start of the next record.
    rw [nextRecord_of_body h4 hwithin, if_neg hlarge, hlength, hbody, nextBody, if_neg hthere,
      if_pos hmark, List.nil_append, List.take_append_of_le_length hle,
      List.drop_append_of_le_length hle]

/-- A payload within the limit is read back whole. -/
theorem nextRecord_writeRecord {p : Bytes} (h : p.length ≤ MAX_RECORD_SIZE) (rest : Bytes) :
    nextRecord [] (writeRecord p ++ rest) = some (.ok p, rest) := by
  have hmod : p.length % 2 ^ 31 = p.length :=
    Nat.mod_eq_of_lt (Nat.lt_of_le_of_lt h (by decide))
  rw [nextRecord_writeRecord_append, hmod, if_neg (Nat.not_lt.mpr h), List.take_length,
    List.drop_length, List.nil_append]

/-! ### A list of records -/

/-- The stream of the written records. -/
def written (payloads : List Bytes) : Bytes := (payloads.map writeRecord).flatten

/-- What was received is the front of what was sent, and all of it when there is no error. -/
def Faithful (sent : List Bytes) (received : List Bytes × Option RpcError) : Prop :=
  received.1 <+: sent ∧ (received.2 = none → received.1 = sent)

/-- The first payload above the limit, if there is one, is above the limit in the low 31 bits
of its length too. -/
def FirstLargeRefused (payloads : List Bytes) : Prop :=
  ∀ p, payloads.find? (fun p => MAX_RECORD_SIZE < p.length) = some p →
    MAX_RECORD_SIZE < p.length % 2 ^ 31

/-- The first record is faithful when it comes first. -/
theorem faithful_consFrame_iff {p : Bytes} {sent : List Bytes}
    {received : List Bytes × Option RpcError} :
    Faithful (p :: sent) (consFrame p received) ↔ Faithful sent received := by
  simp only [Faithful, consFrame, List.prefix_cons_inj, List.cons.injEq, true_and]

/-- The reference parse is faithful for the payloads whose first large one it refuses. -/
theorem parse_written_faithful_iff (payloads : List Bytes) :
    Faithful payloads (recordFraming.parse (written payloads)) ↔ FirstLargeRefused payloads := by
  induction payloads with
  | nil =>
      have hnone : recordFraming.next (written []) = none := nextRecord_of_short (by decide)
      rw [Framing.parse_of_none hnone]
      exact iff_of_true ⟨List.prefix_rfl, fun _ => rfl⟩ fun p hp => by simp at hp
  | cons p ps ih =>
      by_cases hfits : p.length ≤ MAX_RECORD_SIZE
      · -- What is left behind the payload is the stream of the others.
        have hnext : recordFraming.next (written (p :: ps)) = _ :=
          nextRecord_writeRecord hfits (written ps)
        rw [Framing.parse_of_ok hnext, faithful_consFrame_iff, ih, FirstLargeRefused,
          FirstLargeRefused, List.find?_cons_of_neg (by simpa using hfits)]
      · have hnext : recordFraming.next (written (p :: ps)) = _ :=
          nextRecord_writeRecord_append p (written ps)
        have hfind : (p :: ps).find? (fun p => MAX_RECORD_SIZE < p.length) = some p :=
          List.find?_cons_of_pos (by simpa using hfits)
        by_cases hlarge : MAX_RECORD_SIZE < p.length % 2 ^ 31
        · rw [if_pos hlarge] at hnext
          rw [Framing.parse_of_error hnext]
          refine iff_of_true ⟨List.nil_prefix, fun h => by simp at h⟩ fun q hq => ?_
          obtain rfl := Option.some.inj (hfind.symm.trans hq)
          exact hlarge
        · rw [if_neg hlarge] at hnext
          rw [Framing.parse_of_ok hnext]
          refine iff_of_false ?_ fun h => hlarge (h p hfind)
          -- The record is shorter than the payload.
          rintro ⟨hfront, -⟩
          have hcut : p.take (p.length % 2 ^ 31) = p := (List.cons_prefix_cons.mp hfront).1
          have hlen := congrArg List.length hcut
          rw [List.length_take] at hlen
          omega

/-- **Framing.** Write any payloads and feed the stream to a new reader. What the reader
returns, up to its first error, is the front of the payloads, and it returns an error unless
it returns all of them, exactly when the first payload above `MAX_RECORD_SIZE`, if there is
one, has a length whose low 31 bits are above it. -/
theorem writeRecord_faithful_iff (payloads : List Bytes) :
    Faithful payloads (RecordReader.reader.feed RecordReader.new [written payloads]) ↔
      FirstLargeRefused payloads := by
  rw [feed_new_eq_parse, List.flatten_singleton]
  exact parse_written_faithful_iff payloads

/-- A payload of `2 ^ 31` bytes comes back as an empty record. -/
theorem writeRecord_not_faithful :
    ¬ Faithful [List.replicate (2 ^ 31) 0]
      (RecordReader.reader.feed RecordReader.new [written [List.replicate (2 ^ 31) 0]]) := by
  rw [feed_new_eq_parse, List.flatten_singleton, parse_written_faithful_iff]
  intro h
  have hlen : (List.replicate (2 ^ 31) (0 : UInt8)).length = 2 ^ 31 := List.length_replicate
  have hlarge := h _ (List.find?_cons_of_pos (by rw [hlen]; decide))
  rw [hlen] at hlarge
  exact absurd hlarge (by decide)

end NfsMount.OncRpc
