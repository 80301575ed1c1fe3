import NfsMount.Proofs.FetchPlan

/-!
# `NfsMount.Proofs.ReadAhead`: a file that is read from front to end

A `Reader` uses the buffer as it is made to be used. A read that is not served is fetched as
planned, and then it is read again.

What read-ahead is for is to send few requests. The first two reads of a file are fetched one by
one. From the third read on a fetch brings as many reads as fit into the buffer, up to four, and
the reads behind it are served from there (`streaming_reads_fetch`).
-/

set_option autoImplicit false

namespace NfsMount.Mount

open NfsMount.Lib NfsMount.XdrCodec ReadAheadBuf

/-- A program that reads, with what it has received and how often it has fetched. -/
structure Reader where
  buf : ReadAheadBuf
  fetches : Nat
  /-- What the reads have returned. -/
  received : Bytes

/-- The offsets of `n` reads of a file, one behind the other. -/
def readOffsets (start : Nat) (len : UInt64) (n : Nat) : List UInt64 :=
  (List.range n).map fun i => UInt64.ofNat (start + i * len.toNat)

/-- How many bytes a fetch brings when reads in a row are detected. -/
def aheadLen (maxSize len : UInt64) : Nat := min maxSize.toNat (4 * len.toNat)

/-- How many reads are served by it. -/
def readsAhead (maxSize len : UInt64) : Nat := aheadLen maxSize len / len.toNat

namespace Reader

/-- The program has read nothing. -/
def new (maxSize : UInt64) : Reader where
  buf := ReadAheadBuf.new maxSize
  fetches := 0
  received := []

/-- A read of `file`. `none` is a panic, or a read that the fetch does not serve. -/
def read (m : Build) (file : Bytes) (len : UInt64) (r : Reader) (offset : UInt64) :
    Option Reader := do
  let (served, b) ← r.buf.tryRead m offset len
  match served with
  | some data => some ⟨b, r.fetches, r.received ++ data⟩
  | none =>
      let (fetchOffset, fetchLen) ← b.fetchPlan m offset len
      let b := b.fill fetchOffset (extent file fetchOffset.toNat fetchLen.toNat)
      let (served, b) ← b.tryRead m offset len
      let data ← served
      some ⟨b, r.fetches + 1, r.received ++ data⟩

variable {m : Build} {file : Bytes} {maxSize len : UInt64} {r : Reader} {offset : UInt64}

/-! ### One read -/

/-- A read that the buffer serves. -/
theorem read_of_served (m : Build)
    (hfits : r.buf.bufOffset.toNat + r.buf.data.length < 2 ^ 64)
    (hrange : offset.toNat + len.toNat < 2 ^ 64) (hlo : r.buf.bufOffset.toNat ≤ offset.toNat)
    (hhi : offset.toNat + len.toNat ≤ r.buf.bufOffset.toNat + r.buf.data.length) :
    r.read m file len offset = some
      ⟨{ r.buf.countRead offset with lastReadEnd := offset + len }, r.fetches,
        r.received ++ extent r.buf.data (offset.toNat - r.buf.bufOffset.toNat) len.toNat⟩ := by
  obtain ⟨result, b', hread, -, -, hresult⟩ := tryRead_spec m hfits hrange
  rw [if_pos ⟨hlo, hhi⟩] at hresult
  have hb' := tryRead_effect hread
  rw [hresult] at hread hb'
  rw [read, hread, hb']
  rfl

/-- The buffer after a read that was fetched. The read is counted twice. -/
def fetched (b : ReadAheadBuf) (file : Bytes) (offset len : UInt64) : ReadAheadBuf where
  data := extent file offset.toNat (b.plannedLen offset len)
  bufOffset := offset
  maxSize := b.maxSize
  lastReadEnd := offset + len
  sequentialCount := ((b.countRead offset).countRead offset).sequentialCount

/-- A read that the buffer does not serve. The file and the plan have the whole request. -/
theorem read_of_missed (m : Build)
    (hfits : r.buf.bufOffset.toNat + r.buf.data.length < 2 ^ 64) (hfile : file.length < 2 ^ 64)
    (hmiss : ¬(r.buf.bufOffset.toNat ≤ offset.toNat ∧
      offset.toNat + len.toNat ≤ r.buf.bufOffset.toNat + r.buf.data.length))
    (hend : offset.toNat + len.toNat ≤ file.length) (hgrow : len.toNat * 4 < 2 ^ 64)
    (hplan : len.toNat ≤ r.buf.plannedLen offset len) :
    r.read m file len offset = some ⟨fetched r.buf file offset len, r.fetches + 1,
      r.received ++ extent file offset.toNat len.toNat⟩ := by
  have hrange : offset.toNat + len.toNat < 2 ^ 64 := by omega
  obtain ⟨result, b₁, hread, -, -, hresult⟩ := tryRead_spec m hfits hrange
  rw [if_neg hmiss] at hresult
  have hb₁ := tryRead_effect hread
  rw [hresult] at hread hb₁
  have hseq : 2 ≤ b₁.sequentialCount ↔ r.buf.Continues offset := by
    rw [hb₁]
    exact two_le_countRead_iff
  obtain ⟨n, hfetch, hn⟩ := fetchPlan_eq m hgrow (b := r.buf) (by rw [hb₁]; rfl) hseq
  obtain ⟨b₂, hread₂⟩ := (tryRead_filled_iff (b := b₁) m n.toNat n.toNat_lt hrange hend).mpr
    ⟨hn ▸ hplan, by omega⟩
  have hb₂ := tryRead_effect hread₂
  have hfinal : b₂ = fetched r.buf file offset len := by
    rw [hb₂, hb₁, fetched, ← hn]
    rfl
  rw [read, hread]
  simp only [Option.bind_eq_bind, Option.bind_some, hfetch, hread₂, hfinal]

/-! ### Reads in a row -/

/-- The buffer holds what the last fetch brought, `size` bytes or up to the end of the file. It
has served `k` reads of it, the last one up to `pos`. -/
structure Holds (file : Bytes) (maxSize len : UInt64) (pos size k : Nat) (r : Reader) : Prop where
  maxSize_eq : r.buf.maxSize = maxSize
  end_eq : r.buf.lastReadEnd = UInt64.ofNat pos
  offset_eq : r.buf.bufOffset.toNat + k * len.toNat = pos
  data_eq : r.buf.data = extent file r.buf.bufOffset.toNat size

variable {pos size k : Nat}

/-- The buffer holds what was fetched of the file. -/
theorem Holds.length_data (h : Holds file maxSize len pos size k r) :
    r.buf.data.length = min size (file.length - r.buf.bufOffset.toNat) := by
  rw [h.data_eq, extent, List.length_take, List.length_drop]

/-- The next read, when it is in what was fetched. -/
theorem Holds.read_served (m : Build) (h : Holds file maxSize len pos size k r)
    (hfile : file.length < 2 ^ 64) (hend : pos + len.toNat ≤ file.length)
    (hk : (k + 1) * len.toNat ≤ size) :
    ∃ r', r.read m file len (UInt64.ofNat pos) = some r' ∧
      Holds file maxSize len (pos + len.toNat) size (k + 1) r' ∧ r'.fetches = r.fetches ∧
      r'.received = r.received ++ extent file pos len.toNat ∧
      r'.buf.sequentialCount = saturatingAdd r.buf.sequentialCount 1 := by
  have hpos : (UInt64.ofNat pos).toNat = pos :=
    UInt64.toNat_ofNat_of_lt' (by show _ < 2 ^ 64; omega)
  have hlength := h.length_data
  have hoffset := h.offset_eq
  rw [Nat.succ_mul] at hk
  refine ⟨_, read_of_served m (by omega) (by omega) (by omega) (by omega), ?_, rfl, ?_, ?_⟩
  · refine ⟨h.maxSize_eq, ?_, ?_, h.data_eq⟩
    · show UInt64.ofNat pos + len = _
      rw [UInt64.ofNat_add, UInt64.ofNat_toNat]
    · show r.buf.bufOffset.toNat + (k + 1) * len.toNat = _
      rw [Nat.succ_mul]
      omega
  · show r.received ++ extent r.buf.data _ _ = _
    rw [h.data_eq, extent_extent _ (by omega), hpos, Nat.add_sub_of_le (by omega)]
  · exact if_pos h.end_eq.symm

/-- The next read, when it is not. -/
theorem Holds.read_missed (m : Build) (h : Holds file maxSize len pos size k r)
    (hfile : file.length < 2 ^ 64) (hend : pos + len.toNat ≤ file.length)
    (hk : size < (k + 1) * len.toNat) (hgrow : len.toNat * 4 < 2 ^ 64) (hmax : len ≤ maxSize)
    (hpositive : 0 < len.toNat) :
    ∃ r', r.read m file len (UInt64.ofNat pos) = some r' ∧
      Holds file maxSize len (pos + len.toNat)
        (if 1 ≤ r.buf.sequentialCount then aheadLen maxSize len else len.toNat) 1 r' ∧
      r'.fetches = r.fetches + 1 ∧ r'.received = r.received ++ extent file pos len.toNat ∧
      r'.buf.sequentialCount = saturatingAdd (saturatingAdd r.buf.sequentialCount 1) 1 := by
  have hpos : (UInt64.ofNat pos).toNat = pos :=
    UInt64.toNat_ofNat_of_lt' (by show _ < 2 ^ 64; omega)
  have hlength := h.length_data
  have hoffset := h.offset_eq
  have hmaxNat := UInt64.le_iff_toNat_le.mp hmax
  have hplanned : r.buf.plannedLen (UInt64.ofNat pos) len
      = if 1 ≤ r.buf.sequentialCount then aheadLen maxSize len else len.toNat := by
    -- The read starts where the last one ended, so only the count decides.
    have hcontinues : r.buf.Continues (UInt64.ofNat pos) ↔ 1 ≤ r.buf.sequentialCount :=
      ⟨fun h' => h'.2, fun h' => ⟨h.end_eq.symm, h'⟩⟩
    simp only [plannedLen, hcontinues, h.maxSize_eq, aheadLen]
  have hplan : len.toNat ≤ r.buf.plannedLen (UInt64.ofNat pos) len := by
    rw [hplanned, aheadLen]
    split <;> omega
  rw [Nat.succ_mul] at hk
  refine ⟨_, read_of_missed m (by omega) hfile (by omega) (by omega) hgrow hplan, ?_, rfl, ?_, ?_⟩
  · refine ⟨h.maxSize_eq, ?_, ?_, ?_⟩
    · show UInt64.ofNat pos + len = _
      rw [UInt64.ofNat_add, UInt64.ofNat_toNat]
    · show (UInt64.ofNat pos).toNat + 1 * len.toNat = _
      omega
    · show extent file _ _ = _
      rw [hplanned]
      rfl
  · -- The bytes returned are those of the file at the position of the read.
    rw [hpos]
  · show (if UInt64.ofNat pos = r.buf.lastReadEnd then _ else _) = _
    -- `try_read` counts the read when it misses, and again when the filled buffer serves it.
    rw [if_pos h.end_eq.symm]
    exact congrArg (saturatingAdd · 1) (if_pos h.end_eq.symm)

/-- After `n` reads from `start` on, the first two of which were fetched one by one. -/
structure Streaming (file : Bytes) (maxSize len : UInt64) (start n : Nat) (r : Reader) : Prop where
  received_eq : r.received = extent file start (n * len.toNat)
  detected : 2 ≤ r.buf.sequentialCount
  /-- The last fetch was the second one, or there were others behind it. -/
  held : n = 2 ∧ r.fetches = 2 ∧ Holds file maxSize len (start + n * len.toNat) len.toNat 1 r ∨
    ∃ q k, r.fetches = q + 3 ∧ n = 2 + q * readsAhead maxSize len + k ∧
      1 ≤ k ∧ k ≤ readsAhead maxSize len ∧
      Holds file maxSize len (start + n * len.toNat) (aheadLen maxSize len) k r

/-- The second read that continues another one makes a row. -/
theorem two_le_saturatingAdd {c : UInt32} (h : 1 ≤ c) : 2 ≤ saturatingAdd c 1 := by
  rw [UInt32.le_iff_toNat_le] at h ⊢
  rw [toNat_saturatingAdd]
  have hone : (1 : UInt32).toNat = 1 := rfl
  have htwo : (2 : UInt32).toNat = 2 := rfl
  omega

/-- A row has begun. -/
theorem one_le_of_two_le {c : UInt32} (h : 2 ≤ c) : 1 ≤ c := by
  rw [UInt32.le_iff_toNat_le] at h ⊢
  have hone : (1 : UInt32).toNat = 1 := rfl
  have htwo : (2 : UInt32).toNat = 2 := rfl
  omega

variable {start n : Nat}

/-- **Step.** -/
theorem streaming_read (m : Build) (h : Streaming file maxSize len start n r)
    (hfile : file.length < 2 ^ 64) (hend : start + (n + 1) * len.toNat ≤ file.length)
    (hgrow : len.toNat * 4 < 2 ^ 64) (hmax : len ≤ maxSize) (hpositive : 0 < len.toNat) :
    ∃ r', r.read m file len (UInt64.ofNat (start + n * len.toNat)) = some r' ∧
      Streaming file maxSize len start (n + 1) r' := by
  obtain ⟨hreceived, hdetected, hheld⟩ := h
  rw [Nat.succ_mul, ← Nat.add_assoc] at hend
  have hcount := one_le_of_two_le hdetected
  have hnext := one_le_of_two_le (two_le_saturatingAdd hcount)
  have hpos : start + n * len.toNat + len.toNat = start + (n + 1) * len.toNat := by
    rw [Nat.succ_mul, Nat.add_assoc]
  have hmaxNat := UInt64.le_iff_toNat_le.mp hmax
  have hone : 1 ≤ readsAhead maxSize len := by
    rw [readsAhead, Nat.one_le_div_iff hpositive, aheadLen]
    omega
  have hbytes : r.received ++ extent file (start + n * len.toNat) len.toNat
      = extent file start ((n + 1) * len.toNat) := by
    rw [hreceived, extent_append, Nat.succ_mul]
  rcases hheld with ⟨rfl, hfetches, hholds⟩ | ⟨q, k, hfetches, hn, hk, hle, hholds⟩
  · -- The second read was fetched alone.
    obtain ⟨r', hread, hholds', hfetches', hreceived', hcount'⟩ :=
      hholds.read_missed m hfile hend (by omega) hgrow hmax hpositive
    rw [if_pos hcount, hpos] at hholds'
    exact ⟨r', hread, hreceived'.trans hbytes, hcount' ▸ two_le_saturatingAdd hnext,
      .inr ⟨0, 1, by omega, by omega, Nat.le_refl 1, hone, hholds'⟩⟩
  · by_cases hlast : k = readsAhead maxSize len
    · -- The last of the reads that the fetch was for, and the next one misses.
      have hk' : aheadLen maxSize len < (k + 1) * len.toNat := by
        rw [hlast, readsAhead]
        exact Nat.lt_mul_of_div_lt (Nat.lt_succ_self _) hpositive
      obtain ⟨r', hread, hholds', hfetches', hreceived', hcount'⟩ :=
        hholds.read_missed m hfile hend hk' hgrow hmax hpositive
      rw [if_pos hcount, hpos] at hholds'
      have hn' : n + 1 = 2 + (q + 1) * readsAhead maxSize len + 1 := by
        rw [hn, hlast, Nat.succ_mul, Nat.add_assoc 2]
      exact ⟨r', hread, hreceived'.trans hbytes, hcount' ▸ two_le_saturatingAdd hnext,
        .inr ⟨q + 1, 1, by omega, hn', Nat.le_refl 1, hone, hholds'⟩⟩
    · -- One more read is inside the last fetch.
      have hlt : k + 1 ≤ readsAhead maxSize len := Nat.lt_of_le_of_ne hle hlast
      obtain ⟨r', hread, hholds', hfetches', hreceived', hcount'⟩ :=
        hholds.read_served m hfile hend ((Nat.le_div_iff_mul_le hpositive).mp hlt)
      rw [hpos] at hholds'
      exact ⟨r', hread, hreceived'.trans hbytes, hcount' ▸ two_le_saturatingAdd hcount,
        .inr ⟨q, k + 1, by omega, by omega, by omega, hlt, hholds'⟩⟩

/-- The first read of a file. It continues nothing. -/
theorem read_first (m : Build) (maxSize : UInt64) (hfile : file.length < 2 ^ 64)
    (hend : start + len.toNat ≤ file.length) (hgrow : len.toNat * 4 < 2 ^ 64)
    (hpositive : 0 < len.toNat) :
    ∃ r, (new maxSize).read m file len (UInt64.ofNat start) = some r ∧
      Holds file maxSize len (start + len.toNat) len.toNat 1 r ∧ r.fetches = 1 ∧
      r.received = extent file start len.toNat ∧ r.buf.sequentialCount = 0 := by
  have hstart : (UInt64.ofNat start).toNat = start :=
    UInt64.toNat_ofNat_of_lt' (by show _ < 2 ^ 64; omega)
  -- No read ends where the mark of a new buffer is, so no read continues one.
  have hne : UInt64.ofNat start ≠ (ReadAheadBuf.new maxSize).lastReadEnd := by
    intro heq
    have hnat := congrArg UInt64.toNat heq
    rw [hstart] at hnat
    have hmark : (ReadAheadBuf.new maxSize).lastReadEnd.toNat = 2 ^ 64 - 1 := rfl
    omega
  have hplanned : (ReadAheadBuf.new maxSize).plannedLen (UInt64.ofNat start) len = len.toNat :=
    if_neg fun h => hne h.1
  have hzero : (ReadAheadBuf.new maxSize).bufOffset.toNat = 0 := rfl
  have hempty : (ReadAheadBuf.new maxSize).data.length = 0 := rfl
  refine ⟨_, read_of_missed (r := new maxSize) m ?_ hfile ?_ (by omega) hgrow ?_, ?_, rfl, ?_, ?_⟩
  · rw [new, hzero, hempty]
    omega
  · rw [new, hzero, hempty]
    omega
  · rw [new, hplanned]
  · refine ⟨rfl, ?_, ?_, ?_⟩
    · show UInt64.ofNat start + len = _
      rw [UInt64.ofNat_add, UInt64.ofNat_toNat]
    · show (UInt64.ofNat start).toNat + 1 * len.toNat = _
      omega
    · show extent file _ _ = _
      rw [new, hplanned]
      rfl
  · rw [hstart]
    rfl
  · exact if_neg hne

/-- The second one. It is fetched alone, and counted twice. -/
theorem streaming_two (m : Build) (hfile : file.length < 2 ^ 64)
    (hend : start + 2 * len.toNat ≤ file.length) (hgrow : len.toNat * 4 < 2 ^ 64)
    (hmax : len ≤ maxSize) (hpositive : 0 < len.toNat) :
    ∃ r, run (read m file len) (new maxSize) (readOffsets start len 2) = some r ∧
      Streaming file maxSize len start 2 r := by
  obtain ⟨r₁, hread₁, hholds₁, hfetches₁, hreceived₁, hcount₁⟩ :=
    read_first m maxSize hfile (show start + len.toNat ≤ file.length by omega) hgrow hpositive
  obtain ⟨r₂, hread₂, hholds₂, hfetches₂, hreceived₂, hcount₂⟩ :=
    hholds₁.read_missed m hfile (by omega) (by omega) hgrow hmax hpositive
  rw [hcount₁, if_neg (by decide), Nat.add_assoc, ← Nat.two_mul] at hholds₂
  have hoffsets : readOffsets start len 2
      = [UInt64.ofNat start, UInt64.ofNat (start + len.toNat)] := by
    simp [readOffsets, List.range_succ]
  refine ⟨r₂, ?_, ?_, ?_, .inl ⟨rfl, ?_, hholds₂⟩⟩
  · rw [hoffsets]
    exact run_cons_eq_some.mpr ⟨r₁, hread₁, run_cons_eq_some.mpr ⟨r₂, hread₂, rfl⟩⟩
  · rw [hreceived₂, hreceived₁, extent_append, ← Nat.two_mul]
  · rw [hcount₂, hcount₁]
    decide
  · rw [hfetches₂, hfetches₁]

/-- The reads behind the second one. -/
theorem streaming_run (m : Build) (hfile : file.length < 2 ^ 64)
    (hgrow : len.toNat * 4 < 2 ^ 64) (hmax : len ≤ maxSize) (hpositive : 0 < len.toNat)
    (hn : 2 ≤ n) (hend : start + n * len.toNat ≤ file.length) :
    ∃ r, run (read m file len) (new maxSize) (readOffsets start len n) = some r ∧
      Streaming file maxSize len start n r := by
  induction n, hn using Nat.le_induction with
  | base => exact streaming_two m hfile hend hgrow hmax hpositive
  | succ n hn ih =>
      obtain ⟨r, hrun, hr⟩ := ih (by rw [Nat.succ_mul] at hend; omega)
      obtain ⟨r', hread, hr'⟩ := streaming_read m hr hfile hend hgrow hmax hpositive
      have hoffsets : readOffsets start len (n + 1)
          = readOffsets start len n ++ [UInt64.ofNat (start + n * len.toNat)] := by
        rw [readOffsets, List.range_succ, List.map_append]
        rfl
      refine ⟨r', ?_, hr'⟩
      rw [hoffsets]
      exact run_append.mpr ⟨r, hrun, run_cons_eq_some.mpr ⟨r', hread, rfl⟩⟩

/-- How many fetches a stream of reads has taken. -/
theorem Streaming.fetches_eq (h : Streaming file maxSize len start n r) :
    r.fetches = 2 + (n - 2 + (readsAhead maxSize len - 1)) / readsAhead maxSize len := by
  rcases h.held with ⟨rfl, hfetches, -⟩ | ⟨q, k, hfetches, hn, hk, hle, -⟩
  · rw [hfetches, Nat.sub_self, Nat.zero_add]
    rcases Nat.eq_zero_or_pos (readsAhead maxSize len) with hzero | hpos
    · rw [hzero]
    · rw [Nat.div_eq_of_lt (by omega)]
  · have hsum : n - 2 + (readsAhead maxSize len - 1)
        = (k - 1) + readsAhead maxSize len * (q + 1) := by
      rw [hn, Nat.mul_succ, Nat.mul_comm q]
      omega
    rw [hfetches, hsum, Nat.add_mul_div_left _ _ (by omega), Nat.div_eq_of_lt (by omega)]
    omega

end Reader

/-- **Streaming reads are fetched ahead.** A program reads a file from `start` on, in `n` reads of
`len` bytes. Each read is served, and together they return these bytes of the file. The first two
are fetched one by one, and the others take one fetch for each `readsAhead` of them. -/
theorem streaming_reads_fetch (m : Build) (maxSize len : UInt64) (file : Bytes) (start n : Nat)
    (hpositive : 0 < len) (hmax : len ≤ maxSize) (hgrow : len.toNat * 4 < 2 ^ 64)
    (hfile : file.length < 2 ^ 64) (hend : start + n * len.toNat ≤ file.length) :
    ∃ r, run (Reader.read m file len) (Reader.new maxSize) (readOffsets start len n) = some r ∧
      r.received = extent file start (n * len.toNat) ∧
      r.fetches = min n 2 + (n - 2 + (readsAhead maxSize len - 1)) / readsAhead maxSize len := by
  have hpos : 0 < len.toNat := UInt64.lt_iff_toNat_lt.mp hpositive
  have hfew : n < 2 → (n - 2 + (readsAhead maxSize len - 1)) / readsAhead maxSize len = 0 := by
    intro hn
    rcases Nat.eq_zero_or_pos (readsAhead maxSize len) with hzero | hahead
    · rw [hzero, Nat.div_zero]
    · exact Nat.div_eq_of_lt (by omega)
  rcases n with _ | _ | n
  · refine ⟨Reader.new maxSize, rfl, ?_, ?_⟩
    · simp [Reader.new, extent]
    · rw [hfew (by omega)]
      rfl
  · rw [Nat.one_mul] at hend
    -- One read: it continues nothing, and is fetched alone.
    obtain ⟨r, hread, -, hfetches, hreceived, -⟩ :=
      Reader.read_first m maxSize hfile hend hgrow hpos
    have hoffsets : readOffsets start len 1 = [UInt64.ofNat start] := by
      simp [readOffsets, List.range_succ]
    refine ⟨r, ?_, ?_, ?_⟩
    · rw [hoffsets]
      exact run_cons_eq_some.mpr ⟨r, hread, rfl⟩
    · rw [hreceived, Nat.one_mul]
    · rw [hfetches, hfew (by omega)]
      rfl
  · -- From the second read on, the invariant of the stream counts the fetches.
    obtain ⟨r, hrun, hr⟩ := Reader.streaming_run m hfile hgrow hmax hpos (by omega) hend
    refine ⟨r, hrun, hr.received_eq, ?_⟩
    rw [hr.fetches_eq, Nat.min_eq_right (by omega)]

/-- Reads of 2 bytes with a buffer of 7 bytes, which holds 3 of them. -/
theorem streaming_reads_fetch_three :
    ∃ r, run (Reader.read .checked (List.replicate 20 7) 2) (Reader.new 7) (readOffsets 1 2 9)
        = some r ∧
      r.received = extent (List.replicate 20 7) 1 (9 * (2 : UInt64).toNat) ∧
      r.fetches = min 9 2 + (9 - 2 + (readsAhead 7 2 - 1)) / readsAhead 7 2 :=
  streaming_reads_fetch .checked 7 2 (List.replicate 20 7) 1 9 (by decide) (by decide) (by decide)
    (by decide) (by decide)

end NfsMount.Mount
