import NfsMount.Lib.Decoder

/-!
# `NfsMount.Lib.Size`: bounds on the size of an encoding

`AtMost e n` says that the encoder `e` succeeds with at most `n` symbols, and `AtLeast e n` that
it does not succeed with fewer. A sequence is as long as its parts together, so both are put
together part by part.
-/

set_option autoImplicit false

namespace NfsMount.Lib

namespace Encoded

variable {σ ε α : Type} {e : Encoded σ ε} {es : List (Encoded σ ε)} {k n : Nat}

/-- The encoder succeeds with at most `n` symbols. -/
def AtMost (e : Encoded σ ε) (n : Nat) : Prop := ∃ p, e = .ok p ∧ p.length ≤ n

/-- What the encoder makes has at least `n` symbols. -/
def AtLeast (e : Encoded σ ε) (n : Nat) : Prop := ∀ p, e = .ok p → n ≤ p.length

/-- A known size is an upper bound. -/
theorem Sized.atMost (h : Sized e n) : AtMost e n := by
  obtain ⟨p, hp, rfl⟩ := h
  exact ⟨p, hp, Nat.le_refl _⟩

/-- A known size is a lower bound. -/
theorem Sized.atLeast (h : Sized e n) : AtLeast e n := by
  obtain ⟨p, hp, rfl⟩ := h
  intro q hq
  obtain rfl := Except.ok.inj (hp.symm.trans hq)
  exact Nat.le_refl _

/-- What is written has its length. -/
theorem sized_ok (p : List σ) : Sized (.ok p : Encoded σ ε) p.length := ⟨p, rfl, rfl⟩

/-- A larger bound. -/
theorem AtMost.mono (h : AtMost e k) (hle : k ≤ n) : AtMost e n := by
  obtain ⟨p, hp, hlen⟩ := h
  exact ⟨p, hp, hlen.trans hle⟩

/-- A smaller bound. -/
theorem AtLeast.mono (h : AtLeast e n) (hle : k ≤ n) : AtLeast e k :=
  fun p hp => hle.trans (h p hp)

/-! ### Sequences -/

/-- No fields have no bytes. -/
theorem atMost_nil (σ ε : Type) : AtMost (seq ([] : List (Encoded σ ε))) 0 :=
  ⟨[], rfl, Nat.le_refl 0⟩

/-- Upper bounds of fields add up. -/
theorem AtMost.cons (he : AtMost e k) (hes : AtMost (seq es) n) :
    AtMost (seq (e :: es)) (k + n) := by
  obtain ⟨p, hp, hk⟩ := he
  obtain ⟨q, hq, hn⟩ := hes
  refine ⟨p ++ q, seq_cons_ok hp hq, ?_⟩
  rw [List.length_append]
  exact Nat.add_le_add hk hn

/-- The bound of the last field. -/
theorem AtMost.last (h : AtMost e n) : AtMost (seq [e]) n := by
  rw [seq_singleton]
  exact h

/-- Lower bounds of fields add up. -/
theorem AtLeast.cons (he : AtLeast e k) (hes : AtLeast (seq es) n) :
    AtLeast (seq (e :: es)) (k + n) := by
  intro r hr
  obtain ⟨p, q, hp, hq, rfl⟩ := seq_cons_eq_ok.mp hr
  rw [List.length_append]
  exact Nat.add_le_add (he p hp) (hes q hq)

/-- The bound of the last field. -/
theorem AtLeast.last (h : AtLeast e n) : AtLeast (seq [e]) n := by
  rw [seq_singleton]
  exact h

/-- Nothing is shorter than nothing. -/
theorem atLeast_zero (e : Encoded σ ε) : AtLeast e 0 := fun _ _ => Nat.zero_le _

/-- A part in front can only add to the size. -/
theorem AtLeast.behind (hes : AtLeast (seq es) n) : AtLeast (seq (e :: es)) n :=
  ((atLeast_zero e).cons hes).mono (Nat.le_add_left n 0)

/-- Parts with bounds of their own, and what is behind them. -/
theorem AtMost.append {enc : α → Encoded σ ε} {bound : α → Nat} {as : List α}
    {fs : List (Encoded σ ε)} (has : ∀ a ∈ as, AtMost (enc a) (bound a))
    (hfs : AtMost (seq fs) n) :
    AtMost (seq (as.map enc ++ fs)) ((as.map bound).sum + n) := by
  induction as with
  | nil =>
      rw [List.map_nil, List.map_nil, List.sum_nil, Nat.zero_add]
      exact hfs
  | cons a as ih =>
      rw [List.map_cons, List.map_cons, List.sum_cons, Nat.add_assoc]
      exact (has a List.mem_cons_self).cons (ih fun a' ha' => has a' (List.mem_cons_of_mem a ha'))

/-- Parts with a common bound, and what is behind them. -/
theorem AtLeast.append {fs : List (Encoded σ ε)} (hes : ∀ e ∈ es, AtLeast e k)
    (hfs : AtLeast (seq fs) n) : AtLeast (seq (es ++ fs)) (es.length * k + n) := by
  induction es with
  | nil =>
      rw [List.length_nil, Nat.zero_mul, Nat.zero_add]
      exact hfs
  | cons e es ih =>
      have hcons := (hes e List.mem_cons_self).cons
        (ih fun e' he' => hes e' (List.mem_cons_of_mem e he'))
      refine hcons.mono (Nat.le_of_eq ?_)
      rw [List.length_cons, Nat.succ_mul, Nat.add_right_comm, Nat.add_comm]

end Encoded

end NfsMount.Lib
