import NfsMount.Proofs.BufferArith

/-!
# `NfsMount.Proofs.Sequential`: what the detection of sequential reads depends on

`Detector` is the detection as it is meant: it sees the reads, and not whether they are
served. The buffer counts a read that starts where the last *served* read ended, so a read
that was not served breaks the row.

`matches_iff_tracks` says in which runs the buffer and the detector stay together: each read comes
behind one whose end the buffer knows (as it was served, `tracks_of_endKnown`), or continues
neither that one nor the last one that was served. Two such histories with the same reads give the
same answers, however they were filled (`detection_of_reads`).
-/

set_option autoImplicit false

namespace NfsMount.Mount

open NfsMount.Lib NfsMount.XdrCodec

/-- A read of an application: the offset and the length. -/
abbrev ReadRequest := UInt64 × UInt64

/-- The reads of a history. -/
def reads (ops : List ReadOp) : List ReadRequest :=
  ops.filterMap fun op =>
    match op with
    | .tryRead offset len => some (offset, len)
    | _ => none

/-- The end of the last read, and how many reads in a row continued the one before. -/
structure Detector where
  lastEnd : UInt64
  count : UInt32

namespace Detector

/-- Before the first read, as in a new buffer. -/
def new : Detector where
  lastEnd := 0xFFFFFFFFFFFFFFFF
  count := 0

/-- The detector after a read. -/
def read (d : Detector) (request : ReadRequest) : Detector where
  lastEnd := request.1 + request.2
  count := if request.1 = d.lastEnd then saturatingAdd d.count 1 else 0

/-- The detector does not see the other calls. -/
def see (d : Detector) : ReadOp → Detector
  | .tryRead offset len => d.read (offset, len)
  | _ => d

/-- Only the reads are seen. -/
theorem foldl_see (ops : List ReadOp) (d : Detector) :
    ops.foldl see d = (reads ops).foldl read d := by
  rw [reads, List.foldl_filterMap]
  congr 1
  funext d op
  cases op <;> rfl

/-- Two continuations in a row. -/
theorem count_of_three (d : Detector) (offset len₁ len₂ len₃ : UInt64) :
    2 ≤ (((d.read (offset, len₁)).read (offset + len₁, len₂)).read
      (offset + len₁ + len₂, len₃)).count := by
  simp only [read, if_true]
  generalize (if offset = d.lastEnd then saturatingAdd d.count 1 else 0) = c
  have hone : (1 : UInt32).toNat = 1 := rfl
  have htwo : (2 : UInt32).toNat = 2 := rfl
  rw [UInt32.le_iff_toNat_le, toNat_saturatingAdd, toNat_saturatingAdd, hone, htwo]
  omega

end Detector

namespace ReadAheadBuf

variable {m : Build} {b b' : ReadAheadBuf}

/-- The buffer holds the whole range. -/
def Serves (b : ReadAheadBuf) (offset len : UInt64) : Prop :=
  b.bufOffset.toNat ≤ offset.toNat ∧
  offset.toNat + len.toNat ≤ b.bufOffset.toNat + b.data.length ∧
  b.bufOffset.toNat + b.data.length < 2 ^ 64

/-- A read whose end the buffer knows afterwards: it is served, or it ends where the last served
one did. -/
def EndKnown (b : ReadAheadBuf) : ReadOp → Prop
  | .tryRead offset len => b.Serves offset len ∨ offset + len = b.lastReadEnd
  | _ => True

/-- The buffer, with the detector beside it. -/
abbrev detecting (m : Build) :=
  alongside (ReadOp.step m) Detector.see

/-- A read that the buffer judges as the detector does. It does so when it knows where the read
before ended, and also when it does not and the read continues neither that one nor the last one
that was served. -/
def Tracks : ReadAheadBuf × Detector → ReadOp → Prop
  | (b, d), .tryRead offset _ =>
      b.lastReadEnd = d.lastEnd ∨ offset ≠ b.lastReadEnd ∧ offset ≠ d.lastEnd
  | _, _ => True

instance : (p : ReadAheadBuf × Detector) → (op : ReadOp) → Decidable (Tracks p op)
  | (b, d), .tryRead offset _ =>
      inferInstanceAs
        (Decidable (b.lastReadEnd = d.lastEnd ∨ offset ≠ b.lastReadEnd ∧ offset ≠ d.lastEnd))
  | _, .fill _ _ | _, .fetchPlan _ _ | _, .invalidate => isTrue trivial

/-- The buffer has detected what the detector has. -/
def Matches (p : ReadAheadBuf × Detector) : Prop :=
  p.1.sequentialCount = p.2.count

/-- The count of a row that goes on is positive. -/
theorem saturatingAdd_one_ne_zero (c : UInt32) : saturatingAdd c 1 ≠ 0 := by
  intro h
  have hnat := toNat_saturatingAdd c 1
  have hone : (1 : UInt32).toNat = 1 := rfl
  have hzero : (0 : UInt32).toNat = 0 := rfl
  rw [h, hone, hzero] at hnat
  omega

/-- The buffer goes on to match the detector exactly when it tracks the read. -/
theorem matches_step_iff {d : Detector} {op : ReadOp} (hb : Matches (b, d))
    (h : op.step m b = some b') : Matches (b', d.see op) ↔ Tracks (b, d) op := by
  cases op with
  | tryRead offset len =>
      obtain ⟨⟨result, b''⟩, hread, rfl⟩ := Option.map_eq_some_iff.mp h
      have hcount : b''.sequentialCount
          = if offset = b.lastReadEnd then saturatingAdd d.count 1 else 0 := by
        rw [tryRead_effect hread, ← show b.sequentialCount = d.count from hb]
        rfl
      have hne := saturatingAdd_one_ne_zero d.count
      show b''.sequentialCount = (if offset = d.lastEnd then saturatingAdd d.count 1 else 0) ↔
        b.lastReadEnd = d.lastEnd ∨ offset ≠ b.lastReadEnd ∧ offset ≠ d.lastEnd
      rw [hcount]
      -- The two tests of the offset agree, or one of the counts is zero and the other is not.
      by_cases hserved : offset = b.lastReadEnd
      · by_cases hlast : offset = d.lastEnd
        · simp [← hserved, ← hlast]
        · simp [← hserved, hlast, hne]
      · by_cases hlast : offset = d.lastEnd
        · simp [hserved, ← hlast, hne.symm, Ne.symm hserved]
        · simp [hserved, hlast]
  | fill offset data =>
      obtain rfl := Option.some.inj h
      exact iff_of_true hb trivial
  | fetchPlan offset requestedLen =>
      obtain ⟨plan, -, rfl⟩ := Option.map_eq_some_iff.mp h
      exact iff_of_true hb trivial
  | invalidate =>
      obtain rfl := Option.some.inj h
      exact iff_of_true hb trivial

/-- In a run the buffer matches the detector behind each call exactly when it tracks each read. -/
theorem matches_iff_tracks {d : Detector} {ops : List ReadOp} (hb : Matches (b, d))
    (h : run (ReadOp.step m) b ops = some b') :
    Along (detecting m) (fun p op => ∀ p', detecting m p op = some p' → Matches p') (b, d) ops ↔
      Along (detecting m) Tracks (b, d) ops := by
  induction ops generalizing b d with
  | nil => exact Iff.rfl
  | cons op ops ih =>
      obtain ⟨b₁, hstep, hrun⟩ := run_cons_eq_some.mp h
      have hboth : detecting m (b, d) op = some (b₁, d.see op) := by
        rw [detecting, alongside, hstep, Option.map_some]
      have hiff := matches_step_iff hb hstep
      rw [along_cons_of_eq_some hboth, along_cons_of_eq_some hboth, ← hiff]
      constructor
      · rintro ⟨hmatch, hrest⟩
        exact ⟨hmatch _ hboth, (ih (hmatch _ hboth) hrun).mp hrest⟩
      · rintro ⟨hmatch, hrest⟩
        refine ⟨fun p' hp' => ?_, (ih hmatch hrun).mpr hrest⟩
        exact Option.some.inj (hboth.symm.trans hp') ▸ hmatch

/-- Behind a read whose end it knows, the buffer and the detector remember the same end. -/
theorem lastEnd_step {d : Detector} {op : ReadOp} (hend : b.lastReadEnd = d.lastEnd)
    (hop : b.EndKnown op) (h : op.step m b = some b') : b'.lastReadEnd = (d.see op).lastEnd := by
  cases op with
  | tryRead offset len =>
      obtain ⟨⟨result, b''⟩, hread, rfl⟩ := Option.map_eq_some_iff.mp h
      have hknown : (if result.isSome then offset + len else b.lastReadEnd) = offset + len := by
        rcases hop with ⟨hlo, hhi, hfits⟩ | hsame
        · have hrange : offset.toNat + len.toNat < 2 ^ 64 := by omega
          obtain ⟨result', b₁, hread', -, -, hserved⟩ := tryRead_spec m hfits hrange
          rw [if_pos ⟨hlo, hhi⟩] at hserved
          obtain ⟨rfl, -⟩ := Prod.mk.inj (Option.some.inj (hread.symm.trans hread'))
          -- Served, so that the source updates `last_read_end`.
          rw [hserved]
          rfl
        · -- Missed, but the end of the read is the one remembered already.
          rw [hsame, ite_self]
      show b''.lastReadEnd = offset + len
      rw [tryRead_effect hread, hknown]
  | fill offset data =>
      obtain rfl := Option.some.inj h
      exact hend
  | fetchPlan offset requestedLen =>
      obtain ⟨plan, -, rfl⟩ := Option.map_eq_some_iff.mp h
      exact hend
  | invalidate =>
      obtain rfl := Option.some.inj h
      exact hend

/-- Reads whose ends the buffer knows are tracked. -/
theorem tracks_of_endKnown {d : Detector} {ops : List ReadOp} (hend : b.lastReadEnd = d.lastEnd)
    (hops : Along (ReadOp.step m) EndKnown b ops) : Along (detecting m) Tracks (b, d) ops := by
  induction ops generalizing b d with
  | nil => trivial
  | cons op ops ih =>
      refine ⟨?_, ?_⟩
      · cases op with
        | tryRead offset len => exact .inl hend
        | fill offset data => trivial
        | fetchPlan offset requestedLen => trivial
        | invalidate => trivial
      · intro p' hp'
        obtain ⟨b₁, hstep, rfl⟩ := Option.map_eq_some_iff.mp hp'
        exact ih (lastEnd_step hend hops.1 hstep) (hops.2 b₁ hstep)

/-- No call changes the size. -/
theorem maxSize_step {op : ReadOp} (h : op.step m b = some b') : b'.maxSize = b.maxSize := by
  cases op with
  | tryRead offset len =>
      obtain ⟨⟨result, b''⟩, hread, rfl⟩ := Option.map_eq_some_iff.mp h
      rw [tryRead_effect hread]
      rfl
  | fill offset data =>
      obtain rfl := Option.some.inj h
      rfl
  | fetchPlan offset requestedLen =>
      obtain ⟨plan, -, rfl⟩ := Option.map_eq_some_iff.mp h
      rfl
  | invalidate =>
      obtain rfl := Option.some.inj h
      rfl

/-- Along tracked reads, the state of the detection is a function of the reads. -/
theorem detected_run {maxSize : UInt64} {ops : List ReadOp}
    (h : run (ReadOp.step m) (new maxSize) ops = some b)
    (hops : Along (detecting m) Tracks (new maxSize, Detector.new) ops) :
    b.sequentialCount = ((reads ops).foldl Detector.read Detector.new).count ∧
      b.maxSize = maxSize := by
  have hstep : ∀ p op p', Matches p → Tracks p op → detecting m p op = some p' → Matches p' := by
    rintro ⟨b, d⟩ op p' hb hop hp'
    obtain ⟨b₁, hb₁, rfl⟩ := Option.map_eq_some_iff.mp hp'
    exact (matches_step_iff hb hb₁).mpr hop
  have hmatch : Matches (b, ops.foldl Detector.see Detector.new) :=
    run_invariant_along hstep (show Matches (new maxSize, Detector.new) from rfl) hops
      (run_alongside h)
  have hkeep : ∀ (b : ReadAheadBuf) op b', b.maxSize = maxSize → ReadOp.step m b op = some b' →
      b'.maxSize = maxSize := fun _ _ _ hb h => (maxSize_step h).trans hb
  have hmax : b.maxSize = maxSize := run_invariant hkeep rfl h
  rw [← Detector.foldl_see]
  exact ⟨hmatch, hmax⟩

end ReadAheadBuf

open ReadAheadBuf

/-- **Detection is a function of the reads.** Take two histories of a buffer with the same
reads, in which each read comes behind one whose end the buffer knows, or continues neither that
one nor the last one that was served. They detect the same and plan the same, however they were
filled and invalidated. And three reads in a row are detected. -/
theorem detection_of_reads {m : Build} {maxSize : UInt64} {ops₁ ops₂ : List ReadOp}
    {b₁ b₂ : ReadAheadBuf} (h₁ : run (ReadOp.step m) (ReadAheadBuf.new maxSize) ops₁ = some b₁)
    (h₂ : run (ReadOp.step m) (ReadAheadBuf.new maxSize) ops₂ = some b₂)
    (htracks₁ : Along (detecting m) Tracks (ReadAheadBuf.new maxSize, Detector.new) ops₁)
    (htracks₂ : Along (detecting m) Tracks (ReadAheadBuf.new maxSize, Detector.new) ops₂)
    (hreads : reads ops₁ = reads ops₂) :
    b₁.isSequential = b₂.isSequential ∧
    (∀ offset len, b₁.fetchPlan m offset len = b₂.fetchPlan m offset len) ∧
    ∀ earlier offset len₁ len₂ len₃,
      reads ops₁ = earlier ++
        [(offset, len₁), (offset + len₁, len₂), (offset + len₁ + len₂, len₃)] →
      b₁.isSequential = true := by
  obtain ⟨hcount₁, hmax₁⟩ := detected_run h₁ htracks₁
  obtain ⟨hcount₂, hmax₂⟩ := detected_run h₂ htracks₂
  have hcount : b₁.sequentialCount = b₂.sequentialCount := by rw [hcount₁, hcount₂, hreads]
  refine ⟨?_, ?_, ?_⟩
  · rw [isSequential, isSequential, hcount]
  · intro offset len
    rw [fetchPlan, fetchPlan, hcount, hmax₁, hmax₂]
  · intro earlier offset len₁ len₂ len₃ hthree
    rw [isSequential, hcount₁, hthree, List.foldl_append]
    exact decide_eq_true (Detector.count_of_three _ offset len₁ len₂ len₃)

/-- Three reads in a row, of a buffer that is never filled. -/
def unfilled : List ReadOp := [.tryRead 0 1, .tryRead 1 1, .tryRead 2 1]

/-- The same reads, of a buffer that was filled with all of their bytes before. -/
def filledOnce : List ReadOp :=
  [.fill 0 ⟨[5, 6, 7], by decide⟩, .tryRead 0 1, .tryRead 1 1, .tryRead 2 1]

/-- Without the fills, three reads in a row are not detected. -/
theorem detection_depends_on_fill :
    reads unfilled = reads filledOnce ∧
    ∃ b₁ b₂, run (ReadOp.step .checked) (ReadAheadBuf.new 4096) unfilled = some b₁ ∧
      run (ReadOp.step .checked) (ReadAheadBuf.new 4096) filledOnce = some b₂ ∧
      b₁.isSequential = false ∧ b₂.isSequential = true ∧
      b₁.fetchPlan .checked 3 1 = some (3, 1) ∧ b₂.fetchPlan .checked 3 1 = some (3, 4) :=
  ⟨rfl, _, _, rfl, rfl, rfl, rfl, rfl, rfl⟩

/-- Reads of a buffer that misses the first one, and nothing continues that. -/
def missedFirst : List ReadOp :=
  [.tryRead 9 4, .fill 0 ⟨[5, 6, 7], by decide⟩, .tryRead 0 1, .tryRead 1 1, .tryRead 2 1]

/-- The same reads, all of them served. -/
def servedEach : List ReadOp :=
  [.fill 9 ⟨[1, 2, 3, 4], by decide⟩, .tryRead 9 4, .invalidate,
   .fill 0 ⟨[5], by decide⟩, .tryRead 0 1, .fill 1 ⟨[6, 7], by decide⟩, .tryRead 1 1,
   .tryRead 2 1]

/-- The first read is missed in one of the histories, and is served in the other. -/
theorem detection_of_reads_missedFirst :
    ∃ b₁ b₂, run (ReadOp.step .checked) (ReadAheadBuf.new 4096) missedFirst = some b₁ ∧
      run (ReadOp.step .checked) (ReadAheadBuf.new 4096) servedEach = some b₂ ∧
      b₁.isSequential = b₂.isSequential ∧ b₁.isSequential = true := by
  have h₁ : run (ReadOp.step .checked) (ReadAheadBuf.new 4096) missedFirst = some _ := rfl
  have h₂ : run (ReadOp.step .checked) (ReadAheadBuf.new 4096) servedEach = some _ := rfl
  have h := detection_of_reads h₁ h₂ (by decide) (by decide) rfl
  exact ⟨_, _, h₁, h₂, h.1, h.2.2 [(9, 4)] 0 1 1 1 rfl⟩

end NfsMount.Mount
