import NfsMount.Proofs.BufferArith

/-!
# `NfsMount.Proofs.FetchPlan`: whether a planned fetch serves its read

A read that is not served is fetched as `fetchPlan` says and read again. `fetchCycle` is that
sequence of calls, over a file.

After sequential reads the plan is four times the request, capped at the size of the buffer.
The cap may be below the request, and then the read is not served however often it is
fetched. `fetch_completes_iff` says when the cycle completes, from every state that calls of
any kind can lead to.
-/

set_option autoImplicit false

namespace NfsMount.Mount

open NfsMount.Lib NfsMount.XdrCodec

namespace ReadAheadBuf

variable {m : Build} {b b' : ReadAheadBuf} {offset len : UInt64} {file : Bytes}

/-- A read, the fetch that is planned for it, and the read again. -/
def fetchCycle (m : Build) (b : ReadAheadBuf) (file : Bytes) (offset len : UInt64) :
    Option (Option Bytes) := do
  let (_, b) ← b.tryRead m offset len
  let (fetchOffset, fetchLen) ← b.fetchPlan m offset len
  -- The fetch is cut at the end of the file.
  let b := b.fill fetchOffset (extent file fetchOffset.toNat fetchLen.toNat)
  let (result, _) ← b.tryRead m offset len
  some result

/-- The next read is the third in a row or a later one. -/
def Continues (b : ReadAheadBuf) (offset : UInt64) : Prop :=
  offset = b.lastReadEnd ∧ 1 ≤ b.sequentialCount

instance (b : ReadAheadBuf) (offset : UInt64) : Decidable (b.Continues offset) :=
  inferInstanceAs (Decidable (_ ∧ _))

/-- How many bytes are fetched. -/
def plannedLen (b : ReadAheadBuf) (offset len : UInt64) : Nat :=
  if b.Continues offset then min b.maxSize.toNat (4 * len.toNat) else len.toNat

/-- In a checked build the buffer ends below `2 ^ 64`. The cap is not below the request, when
it applies. The fetched bytes end below `2 ^ 64`. -/
def PlanSuffices (m : Build) (b : ReadAheadBuf) (file : Bytes) (offset len : UInt64) : Prop :=
  (m = .checked → b.bufOffset.toNat + b.data.length < 2 ^ 64) ∧
  (b.Continues offset → len ≤ b.maxSize) ∧
  offset.toNat + min (b.plannedLen offset len) (file.length - offset.toNat) < 2 ^ 64

/-- A read turns the detection on when it continues two others. -/
theorem two_le_countRead_iff :
    2 ≤ (b.countRead offset).sequentialCount ↔ b.Continues offset := by
  rw [Continues, countRead]
  by_cases heq : offset = b.lastReadEnd
  · have hone : (1 : UInt32).toNat = 1 := rfl
    have htwo : (2 : UInt32).toNat = 2 := rfl
    simp only [if_pos heq, UInt32.le_iff_toNat_le, toNat_saturatingAdd, hone, htwo]
    exact ⟨fun h => ⟨heq, by omega⟩, fun h => by omega⟩
  · simp only [if_neg heq]
    exact iff_of_false (by decide) fun h => heq h.1

/-- A read of a buffer that ends out of range, when the read does not. -/
theorem tryRead_of_end_wraps (m : Build) (hdata : b.data.length < 2 ^ 64)
    (hrange : offset.toNat + len.toNat < 2 ^ 64)
    (hover : 2 ^ 64 ≤ b.bufOffset.toNat + b.data.length) :
    b.tryRead m offset len =
      match m with
      | .checked => none
      | .release => some (none, b.countRead offset) := by
  have hlen : (UInt64.ofNat b.data.length).toNat = b.data.length :=
    UInt64.toNat_ofNat_of_lt' hdata
  cases m with
  | checked =>
      have hend : Build.addU64 .checked b.bufOffset (UInt64.ofNat b.data.length) = none :=
        Build.addU64_eq_none_iff.mpr ⟨rfl, by rwa [hlen]⟩
      simp only [tryRead, countRead, hend, Option.bind_eq_bind, Option.bind_none]
  | release =>
      by_cases hle : b.bufOffset ≤ offset
      · have hleNat := UInt64.le_iff_toNat_le.mp hle
        have hoffset := b.bufOffset.toNat_lt
        -- The end wraps to a place below the start of the buffer.
        have hmiss : ¬ offset + len ≤ b.bufOffset + UInt64.ofNat b.data.length := by
          rw [UInt64.le_iff_toNat_le, UInt64.toNat_add, UInt64.toNat_add, hlen]
          omega
        rw [run_tryRead_release hle, if_neg hmiss]
      · show (if b.bufOffset ≤ offset then _ else _) = _
        rw [if_neg hle]

/-- The first read of a cycle, with what the plan depends on. -/
theorem tryRead_cases (m : Build) (hb : b.IsVec) (hrange : offset.toNat + len.toNat < 2 ^ 64) :
    (m = .checked ∧ 2 ^ 64 ≤ b.bufOffset.toNat + b.data.length ∧ b.tryRead m offset len = none) ∨
    (m = .checked → b.bufOffset.toNat + b.data.length < 2 ^ 64) ∧
      ∃ result b', b.tryRead m offset len = some (result, b') ∧ b'.maxSize = b.maxSize ∧
        (2 ≤ b'.sequentialCount ↔ b.Continues offset) := by
  have hvec : b.data.length < 2 ^ 64 := Nat.lt_trans hb (by decide)
  have hsome : ∀ result b', b.tryRead m offset len = some (result, b') →
      ∃ result b', b.tryRead m offset len = some (result, b') ∧ b'.maxSize = b.maxSize ∧
        (2 ≤ b'.sequentialCount ↔ b.Continues offset) := by
    intro result b' h
    refine ⟨result, b', h, ?_⟩
    rw [tryRead_effect h]
    exact ⟨rfl, two_le_countRead_iff⟩
  by_cases hover : 2 ^ 64 ≤ b.bufOffset.toNat + b.data.length
  · have hwraps := tryRead_of_end_wraps m hvec hrange hover
    cases m with
    | checked => exact .inl ⟨rfl, hover, hwraps⟩
    | release => exact .inr ⟨by simp, hsome _ _ hwraps⟩
  · obtain ⟨result, b', h, -⟩ := tryRead_spec m (Nat.not_le.mp hover) hrange
    exact .inr ⟨fun _ => Nat.not_le.mp hover, hsome _ _ h⟩

/-- The smaller of two 64-bit numbers. -/
theorem toNat_min (x y : UInt64) : (min x y).toNat = min x.toNat y.toNat := by
  show (if x ≤ y then x else y).toNat = _
  by_cases hle : x ≤ y
  · rw [if_pos hle, Nat.min_eq_left (UInt64.le_iff_toNat_le.mp hle)]
  · have hlt : y.toNat < x.toNat := Nat.not_le.mp (mt UInt64.le_iff_toNat_le.mpr hle)
    rw [if_neg hle, Nat.min_eq_right (Nat.le_of_lt hlt)]

/-- The plan after a read. -/
theorem fetchPlan_eq (m : Build) (hlen : len.toNat * 4 < 2 ^ 64) (hmax : b'.maxSize = b.maxSize)
    (hseq : 2 ≤ b'.sequentialCount ↔ b.Continues offset) :
    ∃ n, b'.fetchPlan m offset len = some (offset, n) ∧ n.toNat = b.plannedLen offset len := by
  rw [fetchPlan, plannedLen]
  by_cases hcont : b.Continues offset
  · have hgrown : m.mulU64 len 4 = some (len * 4) := by
      have hne : m.mulU64 len 4 ≠ none := by
        rw [ne_eq, Build.mulU64_eq_none_iff, not_and, Nat.not_le]
        exact fun _ => hlen
      cases m with
      | checked => exact if_pos hlen
      | release => rfl
    have hnat : (len * 4).toNat = 4 * len.toNat := by
      rw [UInt64.toNat_mul]
      show len.toNat * 4 % 2 ^ 64 = _
      omega
    rw [if_pos (hseq.mpr hcont), if_pos hcont]
    refine ⟨min b'.maxSize (len * 4), by simp [hgrown], ?_⟩
    rw [hmax, toNat_min, hnat]
  · rw [if_neg (mt hseq.mp hcont), if_neg hcont]
    exact ⟨len, rfl, rfl⟩

/-- The second read of a cycle. It is served exactly when the fetch has the whole request. -/
theorem tryRead_filled_iff (m : Build) (n : Nat) (hn : n < 2 ^ 64)
    (hrange : offset.toNat + len.toNat < 2 ^ 64)
    (hfile : offset.toNat + len.toNat ≤ file.length) :
    (∃ b', (b.fill offset (extent file offset.toNat n)).tryRead m offset len
        = some (some (extent file offset.toNat len.toNat), b')) ↔
      len.toNat ≤ n ∧ offset.toNat + min n (file.length - offset.toNat) < 2 ^ 64 := by
  have hlength : (extent file offset.toNat n).length = min n (file.length - offset.toNat) := by
    rw [extent, List.length_take, List.length_drop]
  have hle : min n (file.length - offset.toNat) ≤ n := Nat.min_le_left _ _
  by_cases hend : offset.toNat + min n (file.length - offset.toNat) < 2 ^ 64
  · have hfits : (b.fill offset (extent file offset.toNat n)).bufOffset.toNat
        + (b.fill offset (extent file offset.toNat n)).data.length < 2 ^ 64 := by
      rw [fill, hlength]
      exact hend
    obtain ⟨result, b', hread, -, -, hresult⟩ := tryRead_spec m hfits hrange
    rw [hread]
    simp only [fill, hlength, Nat.le_refl, true_and, Nat.add_le_add_iff_left, Nat.sub_self]
      at hresult
    constructor
    · rintro ⟨b'', h⟩
      obtain ⟨rfl, -⟩ := Prod.mk.inj (Option.some.inj h)
      refine ⟨?_, hend⟩
      -- A fetch shorter than the request does not serve it.
      by_contra hlt
      rw [if_neg (by omega)] at hresult
      simp at hresult
    · rintro ⟨hlen, -⟩
      rw [if_pos (by omega), extent_extent _ (by omega), Nat.add_zero] at hresult
      exact ⟨b', by rw [hresult]⟩
  · -- The fetched bytes end out of range, and the read is a panic or a miss.
    refine iff_of_false ?_ fun h => hend h.2
    rintro ⟨b', h⟩
    rw [tryRead_of_end_wraps m (by rw [fill, hlength]; omega) hrange
      (by rw [fill, hlength]; exact Nat.not_lt.mp hend)] at h
    cases m <;> simp at h

end ReadAheadBuf

open ReadAheadBuf

/-- **The cycle.** From every state of a buffer, a read that was fetched as planned is served
with the bytes of the file exactly when the plan suffices. The file has the whole range. -/
theorem fetch_completes_iff {m : Build} {maxSize : UInt64} {ops : List ReadOp}
    {b : ReadAheadBuf} (h : run (ReadOp.step m) (ReadAheadBuf.new maxSize) ops = some b)
    (file : Bytes) {offset len : UInt64} (hlen : len.toNat * 4 < 2 ^ 64)
    (hrange : offset.toNat + len.toNat < 2 ^ 64)
    (hfile : offset.toNat + len.toNat ≤ file.length) :
    b.fetchCycle m file offset len = some (some (extent file offset.toNat len.toNat)) ↔
      b.PlanSuffices m file offset len := by
  have hb : b.IsVec := run_invariant (fun _ _ _ hb h => isVec_step hb h) (isVec_new maxSize) h
  rcases tryRead_cases m hb hrange with ⟨rfl, hover, hread⟩ | ⟨hend, result, b₁, hread, hmax, hseq⟩
  · refine iff_of_false ?_ fun hplan => Nat.not_le.mpr (hplan.1 rfl) hover
    rw [fetchCycle, hread]
    simp
  · obtain ⟨n, hplan, hn⟩ := fetchPlan_eq m hlen hmax hseq
    have hcycle : b.fetchCycle m file offset len =
        ((b₁.fill offset (extent file offset.toNat n.toNat)).tryRead m offset len).map
          Prod.fst := by
      rw [fetchCycle, hread, Option.map_eq_bind]
      simp only [Option.bind_eq_bind, Option.bind_some, hplan]
      rfl
    have hfetched : len.toNat ≤ b.plannedLen offset len ↔
        (b.Continues offset → len ≤ b.maxSize) := by
      rw [plannedLen, UInt64.le_iff_toNat_le]
      -- Four times the request covers it, so only the cap can be too low.
      by_cases hcont : b.Continues offset
      · rw [if_pos hcont]
        exact ⟨fun h _ => by omega, fun h => by have := h hcont; omega⟩
      · rw [if_neg hcont]
        exact iff_of_true (Nat.le_refl _) fun h => absurd h hcont
    have hfilled := tryRead_filled_iff (b := b₁) m n.toNat n.toNat_lt hrange hfile
    rw [hn] at hfilled
    rw [hcycle, Option.map_eq_some_iff, PlanSuffices, ← hfetched, and_iff_right hend, ← hfilled]
    constructor
    · rintro ⟨⟨r, b'⟩, hread', rfl⟩
      exact ⟨b', by rw [← hn]; exact hread'⟩
    · rintro ⟨b', hread'⟩
      exact ⟨_, by rw [hn]; exact hread', rfl⟩

/-- A buffer of 4 bytes, after two reads in a row, and a third one of 5 bytes. The plan is 4
bytes, and the read is not served. -/
theorem fetch_not_completes :
    ∃ b, (∀ m, run (ReadOp.step m) (ReadAheadBuf.new 4)
        [.fill 0 ⟨[5, 6, 7], by decide⟩, .tryRead 0 1, .tryRead 1 1] = some b) ∧
      ∀ m, b.fetchCycle m [5, 6, 7, 8, 9, 10, 11] 2 5 = some none := by
  refine ⟨⟨[5, 6, 7], 0, 4, 2, 1⟩, ?_, ?_⟩
  · intro m
    cases m <;> rfl
  · intro m
    cases m <;> rfl

/-- The same reads with a buffer that is large enough. The fetch reads ahead. -/
theorem fetch_completes_sequential :
    (ReadAheadBuf.mk [5, 6, 7] 0 6 2 1).fetchCycle .checked [5, 6, 7, 8, 9, 10, 11, 12] 2 5
      = some (some [7, 8, 9, 10, 11]) := by
  have hrun : run (ReadOp.step .checked) (ReadAheadBuf.new 6)
      [.fill 0 ⟨[5, 6, 7], by decide⟩, .tryRead 0 1, .tryRead 1 1]
        = some ⟨[5, 6, 7], 0, 6, 2, 1⟩ := rfl
  exact (fetch_completes_iff hrun [5, 6, 7, 8, 9, 10, 11, 12] (by decide) (by decide)
    (by decide)).mpr ⟨by decide, by decide, by decide⟩

end NfsMount.Mount
