import NfsMount.Lib.Decoder

/-!
# `NfsMount.Lib.Aligned`: encodings of whole words, and prefix codes

`Encoded.Aligned k P e` says what the success of an encoder means: a fact `P` about the
value that was encoded, and a length that is a multiple of `k`. It is proved field by field,
as the encoder is written: `cons` and `last` for a record, `all` for the elements of a list.

A codec is a prefix code. No encoding of a well-formed value is a proper prefix of another
one, and no two values have the same encoding (`IsCodec.prefixFree`).
-/

set_option autoImplicit false

namespace NfsMount.Lib

namespace Encoded

variable {σ ε α : Type} {k : Nat} {P Q : Prop} {e : Encoded σ ε} {es : List (Encoded σ ε)}

/-- When the encoder succeeds, `P` holds and it wrote a multiple of `k` symbols. -/
def Aligned (k : Nat) (P : Prop) (e : Encoded σ ε) : Prop :=
  ∀ p, e = .ok p → P ∧ k ∣ p.length

/-- A weaker condition. -/
theorem Aligned.imp (h : Aligned k P e) (hPQ : P → Q) : Aligned k Q e :=
  fun p hp => ⟨hPQ (h p hp).1, (h p hp).2⟩

/-- A number of whole units is aligned. -/
theorem aligned_ok {p : List σ} (hp : k ∣ p.length) :
    Aligned k True (.ok p : Encoded σ ε) := by
  intro q hq
  obtain rfl := Except.ok.inj hq
  exact ⟨trivial, hp⟩

/-- What is not encoded has no length. -/
theorem aligned_error {x : ε} : Aligned k P (.error x : Encoded σ ε) := by
  intro p hp
  simp at hp

/-- Aligned fields, one behind the other. -/
theorem Aligned.cons (he : Aligned k P e) (hes : Aligned k Q (seq es)) :
    Aligned k (P ∧ Q) (seq (e :: es)) := by
  intro r hr
  obtain ⟨p, q, hp, hq, rfl⟩ := seq_cons_eq_ok.mp hr
  obtain ⟨hP, hpk⟩ := he p hp
  obtain ⟨hQ, hqk⟩ := hes q hq
  refine ⟨⟨hP, hQ⟩, ?_⟩
  rw [List.length_append]
  exact Nat.dvd_add hpk hqk

/-- The last field. -/
theorem Aligned.last (he : Aligned k P e) : Aligned k P (seq [e]) := by
  rw [seq_singleton]
  exact he

/-- A tag in front, which says nothing about the value. -/
theorem Aligned.tag (he : Aligned k True e) (hes : Aligned k Q (seq es)) :
    Aligned k Q (seq (e :: es)) :=
  (he.cons hes).imp And.right

/-- The elements of a list, one after the other. -/
theorem Aligned.all {P : α → Prop} {enc : α → Encoded σ ε} {l : List α}
    (h : ∀ a, Aligned k (P a) (enc a)) : Aligned k (∀ a ∈ l, P a) (seq (l.map enc)) := by
  induction l with
  | nil => exact (aligned_ok (Nat.dvd_zero k)).imp fun _ => by simp
  | cons a l ih =>
      rw [List.map_cons]
      exact ((h a).cons ih).imp fun hal => List.forall_mem_cons.mpr hal

end Encoded

namespace IsCodec

variable {σ ε α : Type} {wf : α → Prop} {enc : α → Encoded σ ε} {dec : Decoder σ ε α}

/-- Two encodings that start the same are encodings of one value, and end in one place. -/
theorem unambiguous (h : IsCodec wf enc dec) {a b : α} {p q r s : List σ} (ha : wf a)
    (hb : wf b) (hp : enc a = .ok p) (hq : enc b = .ok q) (hpq : p ++ r = q ++ s) :
    a = b ∧ r = s := by
  obtain ⟨p', hp', hdp⟩ := h.yields a ha
  obtain ⟨q', hq', hdq⟩ := h.yields b hb
  obtain rfl := Except.ok.inj (hp.symm.trans hp')
  obtain rfl := Except.ok.inj (hq.symm.trans hq')
  -- The decoder reads one input and returns both values.
  have hboth : (Outcome.ok (a, r) : Outcome ε (α × List σ)) = .ok (b, s) := by
    rw [← hdp r, ← hdq s, hpq]
  rwa [Outcome.ok.injEq, Prod.mk.injEq] at hboth

/-- No encoding is the start of another one. -/
theorem prefixFree (h : IsCodec wf enc dec) {a b : α} {p q : List σ} (ha : wf a) (hb : wf b)
    (hp : enc a = .ok p) (hq : enc b = .ok q) (hpq : p <+: q) : a = b := by
  obtain ⟨r, hr⟩ := hpq
  rw [← List.append_nil q] at hr
  exact (h.unambiguous ha hb hp hq hr).1

end IsCodec

end NfsMount.Lib
