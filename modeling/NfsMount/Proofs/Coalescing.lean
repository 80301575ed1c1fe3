import Mathlib.Data.List.Chain
import Mathlib.Data.List.Forall2
import NfsMount.Proofs.WriteBuf

/-!
# `NfsMount.Proofs.Coalescing`: which writes go into which flush

Every flush is made of writes that were made one after the other and lie one behind the other
in the file (`Tiles`), and each write goes into one flush, in order (`flushes_partition_writes`).
So no byte is sent twice or left out, and nothing is put together that does not belong
together.

What coalescing is for is to send few flushes. A program that writes a file from front to end
starts a new flush only when the data would not fit, so any two neighbours have more than
`max_size` bytes together (`streaming_writes_coalesce`).
-/

set_option autoImplicit false

namespace NfsMount.Mount

open NfsMount.Lib NfsMount.XdrCodec

/-! ### Writes that lie one behind the other -/

/-- The data is these writes, one behind the other from `start` on. -/
inductive Tiles (start : Nat) : List FlushData → Bytes → Prop
  | nil : Tiles start [] []
  | snoc {ws : List FlushData} {data : Bytes} (w : FlushData) (h : Tiles start ws data)
      (hw : w.offset.toNat = start + data.length) : Tiles start (ws ++ [w]) (data ++ w.data)

/-- What a flush is made of. -/
structure Covers (f : FlushData) (ws : List FlushData) : Prop where
  ne_nil : ws ≠ []
  tiles : Tiles f.offset.toNat ws f.data

/-- The last of the writes ends where the data does. -/
theorem Tiles.of_concat {start : Nat} {ws : List FlushData} {w : FlushData} {bytes : Bytes}
    (h : Tiles start (ws ++ [w]) bytes) :
    ∃ data, bytes = data ++ w.data ∧ Tiles start ws data ∧
      w.offset.toNat = start + data.length := by
  generalize hall : ws ++ [w] = all at h
  cases h with
  | nil => simp at hall
  | snoc w' h hw =>
      obtain ⟨rfl, hlast⟩ := List.append_inj' hall rfl
      obtain rfl := List.cons.inj hlast |>.1
      exact ⟨_, rfl, h, hw⟩

/-- The data is as long as the writes together. -/
theorem Tiles.sum_lengths {start : Nat} {ws : List FlushData} {bytes : Bytes}
    (h : Tiles start ws bytes) : (ws.map (·.data.length)).sum = bytes.length := by
  induction h with
  | nil => rfl
  | snoc w h hw ih =>
      rw [List.map_append, List.sum_append, ih, List.map_singleton, List.sum_singleton,
        List.length_append]

/-- A write of its own. -/
theorem covers_self (w : FlushData) : Covers w [w] where
  ne_nil := List.cons_ne_nil _ _
  tiles := Tiles.snoc w .nil rfl

/-- The writes among the calls. -/
def WriteCall.written : WriteCall → List FlushData
  | .write offset data => [⟨offset, data⟩]
  | .flush => []

namespace WriteBuf

variable {b : WriteBuf} {offset : UInt64} {data : Bytes}

/-- What a write does to what the buffer holds. -/
inductive Writes (b : WriteBuf) (offset : UInt64) (data : Bytes) (b' : WriteBuf) :
    Option FlushData → Prop
  | begins (hclean : b.dirty = false) (hpending : b'.pending = ⟨offset, data⟩) :
      Writes b offset data b' none
  /-- The buffered data goes out. If the write lies behind it, the two together are too large. -/
  | flushes (hdirty : b.dirty = true) (hpending : b'.pending = ⟨offset, data⟩)
      (hfull : offset.toNat = b.bufOffset.toNat + b.data.length →
        b.maxSize.toNat < b.data.length + data.length) :
      Writes b offset data b' (some b.pending)
  | joins (hdirty : b.dirty = true) (hpending : b'.pending = ⟨b.bufOffset, b.data ++ data⟩)
      (hnext : offset.toNat = b.bufOffset.toNat + b.data.length) :
      Writes b offset data b' none

/-- **Step.** -/
theorem write_writes (m : Build) (hb : b.Inv) (hrange : offset.toNat + data.length < 2 ^ 64) :
    ∃ flush b', b.write m offset data = some (flush, b') ∧ b'.Inv ∧ b'.dirty = true ∧
      b'.maxSize = b.maxSize ∧ Writes b offset data b' flush := by
  cases hdirty : b.dirty with
  | false =>
      have hempty := hb.clean hdirty
      refine ⟨none, { b with data := b.data ++ data, bufOffset := offset, dirty := true },
        by simp [write, hdirty], ⟨?_, by simp⟩, rfl, rfl, .begins hdirty ?_⟩
      · rwa [hempty, List.nil_append]
      · rw [pending, hempty, List.nil_append]
  | true =>
      obtain ⟨full, hfull, hnext, hroom⟩ := mustFlush_spec m hb hrange
      cases full with
      | true =>
          refine ⟨some b.pending, { b with data := data, bufOffset := offset, dirty := true },
            by simp [write, hdirty, hfull, takeFlush, pending], ⟨hrange, by simp⟩, rfl, rfl,
            .flushes hdirty rfl (hroom rfl)⟩
      | false =>
          have hoffset := hnext rfl
          refine ⟨none, { b with data := b.data ++ data, dirty := true },
            by simp [write, hdirty, hfull], ⟨?_, by simp⟩, rfl, rfl, .joins hdirty rfl hoffset⟩
          show b.bufOffset.toNat + (b.data ++ data).length < 2 ^ 64
          rw [List.length_append]
          omega

end WriteBuf

namespace Writeback

variable {m : Build} {w w' : Writeback} {call : WriteCall}

/-- The writes so far: those of each flush that was returned, and those in the buffer. -/
structure Partitioned (w : Writeback) (writes : List FlushData) : Prop where
  inv : w.buf.Inv
  groups : ∃ groups current, writes = groups.flatten ++ current ∧
    List.Forall₂ Covers w.flushed groups ∧
    (w.buf.dirty = false → current = []) ∧ (w.buf.dirty = true → Covers w.buf.pending current)

/-- **Step.** Every call adds its write to those that are partitioned. -/
theorem partitioned_step (m : Build) {writes : List FlushData} (hw : Partitioned w writes)
    (hrange : call.InRange) :
    ∃ w', step m w call = some w' ∧ Partitioned w' (writes ++ call.written) := by
  obtain ⟨hinv, groups, current, rfl, hflushed, hclean, hdirty⟩ := hw
  cases call with
  | write offset data =>
      obtain ⟨flush, b', hwrite, hinv', hdirty', -, hmoves⟩ :=
        WriteBuf.write_writes m hinv hrange
      refine ⟨⟨b', w.flushed ++ flush.toList⟩, by rw [step, hwrite], hinv', ?_⟩
      cases hmoves with
      -- The buffer was clean, and the write begins a group.
      | begins hb hpending =>
          refine ⟨groups, [⟨offset, data⟩], ?_, ?_, by simp [hdirty'], fun _ => ?_⟩
          · rw [hclean hb, List.append_nil]
            rfl
          · simpa using hflushed
          · rw [hpending]
            exact covers_self _
      -- The group that was buffered is closed, and the write begins the next.
      | flushes hb hpending hfull =>
          refine ⟨groups ++ [current], [⟨offset, data⟩], ?_, ?_, by simp [hdirty'], fun _ => ?_⟩
          · rw [List.flatten_concat]
            rfl
          · exact List.rel_append hflushed (.cons (hdirty hb) .nil)
          · rw [hpending]
            exact covers_self _
      -- The write goes to the end of the group.
      | joins hb hpending hnext =>
          refine ⟨groups, current ++ [⟨offset, data⟩], (List.append_assoc _ _ _), ?_,
            by simp [hdirty'], fun _ => ?_⟩
          · simpa using hflushed
          · rw [hpending]
            exact ⟨by simp, (hdirty hb).tiles.snoc _ hnext⟩
  | flush =>
      obtain ⟨hinv', hclean', -⟩ := WriteBuf.flush_spec hinv []
      refine ⟨⟨w.buf.flush.2, w.flushed ++ w.buf.flush.1.toList⟩, rfl, hinv', ?_⟩
      cases hb : w.buf.dirty with
      | false =>
          -- Nothing is buffered, and `flush` does nothing.
          have hflush : w.buf.flush = (none, w.buf) := by simp [WriteBuf.flush, hb]
          refine ⟨groups, current, List.append_nil _, ?_, fun _ => hclean hb, ?_⟩
          · simpa [hflush] using hflushed
          · simp [hflush, hb]
      | true =>
          -- The last group is closed, and none is begun.
          have hflush : w.buf.flush.1 = some w.buf.pending := by
            simp [WriteBuf.flush, hb, WriteBuf.takeFlush, WriteBuf.pending]
          refine ⟨groups ++ [current], [], ?_, ?_, fun _ => rfl, by simp [hclean']⟩
          · rw [List.flatten_concat, List.append_nil]
            exact List.append_nil _
          · rw [hflush]
            exact List.rel_append hflushed (.cons (hdirty hb) .nil)

end Writeback

/-- **Flushes partition the writes.** After any calls whose writes end below `2 ^ 64`, each flush
that was returned, and what a last one returns, is made of writes that lie one behind the
other, and these are all the writes in their order. -/
theorem flushes_partition_writes (m : Build) (maxSize : UInt64) (calls : List WriteCall)
    (hcalls : ∀ call ∈ calls, call.InRange) :
    ∃ w groups, run (Writeback.step m) (Writeback.new maxSize) calls = some w ∧
      groups.flatten = calls.flatMap WriteCall.written ∧
      List.Forall₂ Covers (w.flushed ++ w.buf.flush.1.toList) groups := by
  have hnew : Writeback.Partitioned (Writeback.new maxSize) [] :=
    ⟨WriteBuf.inv_new maxSize, [], [], rfl, .nil, fun _ => rfl, fun h => by cases h⟩
  have hstep : ∀ (w : Writeback) (writes : List FlushData) (call : WriteCall),
      Writeback.Partitioned w writes → call.InRange →
        ∃ w', Writeback.step m w call = some w' ∧
          Writeback.Partitioned w' ((fun writes call => writes ++ call.written) writes call) :=
    fun w writes call hw hrange => Writeback.partitioned_step m hw hrange
  obtain ⟨w, hrun, hw⟩ := run_refines hstep hnew hcalls
  -- A last flush empties the buffer.
  obtain ⟨w', hlast, -, groups, current, hwrites, hflushed, hclean, -⟩ :=
    Writeback.partitioned_step m hw (show WriteCall.flush.InRange from trivial)
  obtain rfl : w' = ⟨w.buf.flush.2, w.flushed ++ w.buf.flush.1.toList⟩ :=
    (Option.some.inj hlast).symm
  refine ⟨w, groups, hrun, ?_, hflushed⟩
  have hempty := hclean (WriteBuf.flush_spec hw.inv []).2.1
  rw [hempty, List.append_nil, List.foldl_append_eq_append, List.nil_append] at hwrites
  rw [← hwrites, List.flatMap_def]
  exact List.append_nil _

/-- Writes that join, one that does not, and one behind a flush. -/
theorem flushes_partition_writes_overlapping :
    ∃ w groups, run (Writeback.step .checked) (Writeback.new 4)
        [.write 1 [1, 2], .write 3 [3], .write 2 [9], .flush, .write 5 [7]] = some w ∧
      groups.flatten = [⟨1, [1, 2]⟩, ⟨3, [3]⟩, ⟨2, [9]⟩, ⟨5, [7]⟩] ∧
      List.Forall₂ Covers (w.flushed ++ w.buf.flush.1.toList) groups :=
  flushes_partition_writes .checked 4
    [.write 1 [1, 2], .write 3 [3], .write 2 [9], .flush, .write 5 [7]]
    (by simp [WriteCall.InRange])

/-! ### A file written from front to end -/

/-- Two neighbours have `c` together, so `n` of them have `c` for each two. -/
theorem mul_le_sum_of_isChain {c : Nat} {l : List Nat} (h : l.IsChain fun a b => c ≤ a + b) :
    l.length / 2 * c ≤ l.sum := by
  induction l using List.twoStepInduction with
  | nil => simp
  | singleton a => simp
  | cons_cons a b l ih _ =>
      obtain ⟨hab, htail⟩ := List.isChain_cons_cons.mp h
      have hrest := ih htail.tail
      have hlen : (a :: b :: l).length / 2 = l.length / 2 + 1 := by
        rw [List.length_cons, List.length_cons]
        omega
      rw [hlen, Nat.succ_mul, List.sum_cons, List.sum_cons]
      omega

/-- A chain with one element more. -/
theorem isChain_concat {α : Type} {R : α → α → Prop} {x : α} {l : List α} (h : l.IsChain R)
    (hlast : ∀ y ∈ l.getLast?, R y x) : (l ++ [x]).IsChain R := by
  refine List.isChain_append.mpr ⟨h, List.isChain_singleton x, fun y hy z hz => ?_⟩
  obtain rfl := Option.some.inj hz
  exact hlast y hy

/-- Writes of these pieces, one behind the other from `offset` on. -/
def streamFrom (offset : Nat) : List Bytes → List WriteCall
  | [] => []
  | data :: rest => .write (UInt64.ofNat offset) data :: streamFrom (offset + data.length) rest

namespace Writeback

/-- The flushes, and what is in the buffer. -/
def parts (w : Writeback) : List FlushData := w.flushed ++ [w.buf.pending]

/-- Two neighbours that do not fit into one flush. -/
def Full (maxSize : UInt64) (f g : FlushData) : Prop :=
  maxSize.toNat < f.data.length + g.data.length

/-- In the middle of a file that is written from front to end. The part from `start` on is
written, and it lies in the flushes and in the buffer. -/
structure Streaming (maxSize : UInt64) (start : Nat) (w : Writeback) (written : Bytes) :
    Prop where
  inv : w.buf.Inv
  maxSize_eq : w.buf.maxSize = maxSize
  dirty : w.buf.dirty = true
  tiles : Tiles start w.parts written
  chain : w.parts.IsChain (Full maxSize)

/-- The first piece only fills the buffer. -/
theorem streaming_begin (m : Build) (maxSize : UInt64) {offset : Nat} {data : Bytes}
    (hrange : offset + data.length < 2 ^ 64) :
    ∃ w, step m (new maxSize) (.write (UInt64.ofNat offset) data) = some w ∧
      Streaming maxSize offset w data := by
  have hoffset : (UInt64.ofNat offset).toNat = offset :=
    UInt64.toNat_ofNat_of_lt' (by show _ < 2 ^ 64; omega)
  obtain ⟨flush, b', hwrite, hinv, hdirty, hmax, hmoves⟩ :=
    WriteBuf.write_writes m (WriteBuf.inv_new maxSize)
      (show (UInt64.ofNat offset).toNat + data.length < 2 ^ 64 by omega)
  refine ⟨⟨b', flush.toList⟩, by rw [step, new, hwrite]; rfl, ?_⟩
  cases hmoves with
  | begins _ hpending =>
      have hparts : parts ⟨b', Option.toList none⟩ = [⟨UInt64.ofNat offset, data⟩] := by
        rw [parts, hpending]
        rfl
      refine ⟨hinv, hmax, hdirty, ?_, by rw [hparts]; exact List.isChain_singleton _⟩
      rw [hparts]
      exact Tiles.snoc _ .nil hoffset
  | flushes hb => simp [WriteBuf.new] at hb
  | joins hb => simp [WriteBuf.new] at hb

/-- **Step.** The next piece joins the buffered data, or that goes out. -/
theorem streaming_step (m : Build) {maxSize : UInt64} {start : Nat} {w : Writeback}
    {written : Bytes} (hw : Streaming maxSize start w written) {data : Bytes}
    (hrange : start + written.length + data.length < 2 ^ 64) :
    ∃ w', step m w (.write (UInt64.ofNat (start + written.length)) data) = some w' ∧
      Streaming maxSize start w' (written ++ data) := by
  have hoffset : (UInt64.ofNat (start + written.length)).toNat = start + written.length :=
    UInt64.toNat_ofNat_of_lt' (by show _ < 2 ^ 64; omega)
  obtain ⟨hinv, rfl, hdirty, htiles, hchain⟩ := hw
  obtain ⟨before, rfl, hbefore, hstart⟩ := htiles.of_concat
  -- The buffered data ends where the stream is.
  have hend : start + (before ++ w.buf.pending.data).length
      = w.buf.bufOffset.toNat + w.buf.data.length := by
    have hstart : w.buf.bufOffset.toNat = start + before.length := hstart
    rw [List.length_append, hstart, Nat.add_assoc]
    rfl
  obtain ⟨flush, b', hwrite, hinv', hdirty', hmax, hmoves⟩ :=
    WriteBuf.write_writes m hinv
      (show (UInt64.ofNat _).toNat + data.length < 2 ^ 64 by rw [hoffset]; exact hrange)
  refine ⟨⟨b', w.flushed ++ flush.toList⟩, by rw [step, hwrite], ?_⟩
  cases hmoves with
  | begins hclean => simp [hdirty] at hclean
  | flushes _ hpending hfull =>
      have hparts : parts ⟨b', w.flushed ++ (some w.buf.pending).toList⟩ = w.parts ++ [_] :=
        congrArg (fun last => w.parts ++ [last]) hpending
      refine ⟨hinv', hmax, hdirty', by rw [hparts]; exact htiles.snoc _ hoffset, ?_⟩
      rw [hparts]
      refine isChain_concat hchain fun y hy => ?_
      rw [parts, List.getLast?_concat] at hy
      obtain rfl := Option.some.inj hy
      -- The write was the next one, so that only its length can have forced the flush.
      exact hfull (hoffset.trans hend)
  | joins _ hpending hnext =>
      have hparts : parts ⟨b', w.flushed ++ Option.toList none⟩ = w.flushed ++ [_] :=
        congrArg₂ (fun flushed last => flushed ++ [last]) (List.append_nil _) hpending
      obtain ⟨hflushed, -, hlast⟩ := List.isChain_append.mp hchain
      refine ⟨hinv', hmax, hdirty', ?_, ?_⟩
      · rw [hparts, List.append_assoc]
        exact hbefore.snoc _ hstart
      · rw [hparts]
        -- The last buffer has only grown, and with the one before it is still too long.
        refine isChain_concat hflushed fun y hy => (hlast y hy _ rfl).trans_le ?_
        show _ ≤ y.data.length + (w.buf.data ++ data).length
        rw [List.length_append, ← Nat.add_assoc]
        exact Nat.le_add_right _ _

/-- The rest of the file. -/
theorem streaming_run (m : Build) {maxSize : UInt64} {start : Nat} {w : Writeback}
    {written : Bytes} (hw : Streaming maxSize start w written) {pieces : List Bytes}
    (hrange : start + written.length + pieces.flatten.length < 2 ^ 64) :
    ∃ w', run (step m) w (streamFrom (start + written.length) pieces) = some w' ∧
      Streaming maxSize start w' (written ++ pieces.flatten) := by
  induction pieces generalizing w written with
  | nil => exact ⟨w, rfl, by rwa [List.flatten_nil, List.append_nil]⟩
  | cons data rest ih =>
      rw [List.flatten_cons, List.length_append, ← Nat.add_assoc] at hrange
      have hdata : start + written.length + data.length < 2 ^ 64 := by omega
      obtain ⟨w', hstep, hw'⟩ := streaming_step m hw hdata
      have hlength : start + (written ++ data).length = start + written.length + data.length := by
        rw [List.length_append, Nat.add_assoc]
      obtain ⟨w'', hrun, hw''⟩ := ih hw' (by omega)
      rw [hlength] at hrun
      refine ⟨w'', run_cons_eq_some.mpr ⟨w', hstep, hrun⟩, ?_⟩
      rwa [List.flatten_cons, ← List.append_assoc]

/-- What the server gets from the calls and a last flush. -/
def sent (w : Writeback) : List FlushData := w.flushed ++ w.buf.flush.1.toList

end Writeback

/-- **Streaming writes coalesce.** A program writes a file from front to end, in pieces of any
lengths, and then flushes. The server gets the file in writes that lie one behind the other, and
each two neighbours of them have more than `max_size` bytes together, so that they are few. -/
theorem streaming_writes_coalesce (m : Build) (maxSize : UInt64) (offset : Nat)
    (pieces : List Bytes) (hrange : offset + pieces.flatten.length < 2 ^ 64) :
    ∃ w, run (Writeback.step m) (Writeback.new maxSize) (streamFrom offset pieces) = some w ∧
      Tiles offset w.sent pieces.flatten ∧
      w.sent.IsChain (fun f g => maxSize.toNat < f.data.length + g.data.length) ∧
      w.sent.length / 2 * (maxSize.toNat + 1) ≤ pieces.flatten.length := by
  cases pieces with
  | nil =>
      refine ⟨Writeback.new maxSize, rfl, .nil, .nil, ?_⟩
      simp [Writeback.sent, Writeback.new, WriteBuf.new, WriteBuf.flush]
  | cons data rest =>
      rw [List.flatten_cons, List.length_append, ← Nat.add_assoc] at hrange
      obtain ⟨w, hstep, hw⟩ := Writeback.streaming_begin m maxSize
        (show offset + data.length < 2 ^ 64 by omega)
      obtain ⟨w', hrun, hw'⟩ := Writeback.streaming_run m hw hrange
      -- The last flush sends what the stream has left in the buffer.
      have hlast : w'.buf.flush.1 = some w'.buf.pending := by
        simp [WriteBuf.flush, hw'.dirty, WriteBuf.takeFlush, WriteBuf.pending]
      have hsent : w'.sent = w'.parts := by rw [Writeback.sent, Writeback.parts, hlast]; rfl
      refine ⟨w', run_cons_eq_some.mpr ⟨w, hstep, hrun⟩, ?_⟩
      rw [hsent]
      refine ⟨hw'.tiles, hw'.chain, ?_⟩
      calc w'.parts.length / 2 * (maxSize.toNat + 1)
          = (w'.parts.map (·.data.length)).length / 2 * (maxSize.toNat + 1) := by
            rw [List.length_map]
        _ ≤ (w'.parts.map (·.data.length)).sum :=
            mul_le_sum_of_isChain ((List.isChain_map _).mpr hw'.chain)
        _ = (data :: rest).flatten.length := hw'.tiles.sum_lengths

/-- A file of nine bytes, in four pieces, with four bytes in a flush. -/
theorem streaming_writes_coalesce_pieces :
    ∃ w, run (Writeback.step .checked) (Writeback.new 4)
        (streamFrom 10 [[1, 2, 3], [4, 5], [6], [7, 8, 9]]) = some w ∧
      Tiles 10 w.sent [1, 2, 3, 4, 5, 6, 7, 8, 9] ∧
      w.sent.IsChain (fun f g => (4 : UInt64).toNat < f.data.length + g.data.length) ∧
      w.sent.length / 2 * ((4 : UInt64).toNat + 1) ≤ 9 :=
  streaming_writes_coalesce .checked 4 10 [[1, 2, 3], [4, 5], [6], [7, 8, 9]] (by decide)

end NfsMount.Mount
