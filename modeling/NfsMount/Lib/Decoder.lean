import NfsMount.Lib.Outcome

/-!
# `NfsMount.Lib.Decoder`: encoders, decoders and when they are inverse

A decoder reads values off the front of a list of symbols. It is a state monad over the
unread symbols, on top of `Outcome`. An encoder produces the symbols it appends, or an
error. Nothing here fixes the symbols, the errors or the values.

`IsCodec wf enc dec` is the statement a wire format needs of one type. It has three parts:

* `yields`: on the encoding of a well-formed value, followed by anything, the decoder
  returns that value and leaves what followed;
* `reads`: whatever the decoder returns is well formed, it read a prefix `p` of its input,
  it returns the same value on `p` followed by anything else, and the encoding of the value
  has the length of `p`;
* `noPanic`: the decoder never panics.

`reads` is about arbitrary input, not about encoder output. `IsCodec.exact` draws the
consequences: the value re-encodes to as many symbols as were read, and no proper prefix
of these symbols is accepted.

The combinators below build a codec out of codecs of the parts: `bind` for a value whose
first part decides how the rest is read, `tagged` for one that its first part determines,
`map` for a change of representation, `record` for a record read field by field, `times`
for a known number of values, and `loop` for values up to an end marker.
-/

set_option autoImplicit false

namespace NfsMount.Lib

/-- A decoder over the symbols `σ`: it takes the unread symbols and returns a value with
the symbols it left unread. -/
abbrev Decoder (σ ε : Type) := StateT (List σ) (Outcome ε)

/-- What an encoder appends to the output, or why it fails. -/
abbrev Encoded (σ ε : Type) := Except ε (List σ)

namespace Encoded

variable {σ ε : Type}

/-- Encoders one after the other. The first error stops the sequence. -/
def seq : List (Encoded σ ε) → Encoded σ ε
  | [] => .ok []
  | .error x :: _ => .error x
  | .ok p :: es =>
      match seq es with
      | .error x => .error x
      | .ok q => .ok (p ++ q)

/-- The encoder succeeds with `k` symbols. -/
def Sized (e : Encoded σ ε) (k : Nat) : Prop := ∃ p, e = .ok p ∧ p.length = k

/-- A field in front of fields that encode. -/
theorem seq_cons_ok {e : Encoded σ ε} {es : List (Encoded σ ε)} {p q : List σ}
    (he : e = .ok p) (hes : seq es = .ok q) : seq (e :: es) = .ok (p ++ q) := by
  subst he
  simp only [seq, hes]

/-- The parts of a sequence that succeeds. -/
theorem seq_cons_eq_ok {e : Encoded σ ε} {es : List (Encoded σ ε)} {r : List σ} :
    seq (e :: es) = .ok r ↔ ∃ p q, e = .ok p ∧ seq es = .ok q ∧ r = p ++ q := by
  constructor
  · intro h
    cases e with
    | error x => exact nomatch h
    | ok p =>
        cases hes : seq es with
        | error x => simp only [seq, hes, reduceCtorEq] at h
        | ok q =>
            simp only [seq, hes, Except.ok.injEq] at h
            exact ⟨p, q, rfl, rfl, h.symm⟩
  · rintro ⟨p, q, hp, hq, rfl⟩
    exact seq_cons_ok hp hq

/-- Two lists of fields encode one behind the other. -/
theorem seq_append_eq_ok {es fs : List (Encoded σ ε)} {r : List σ} :
    seq (es ++ fs) = .ok r ↔ ∃ p q, seq es = .ok p ∧ seq fs = .ok q ∧ r = p ++ q := by
  induction es generalizing r with
  | nil =>
      constructor
      · exact fun h => ⟨[], r, rfl, h, rfl⟩
      · rintro ⟨p, q, hp, hq, rfl⟩
        obtain rfl := Except.ok.inj hp
        exact hq
  | cons e es ih =>
      rw [List.cons_append, seq_cons_eq_ok]
      constructor
      · rintro ⟨p, s, hp, hs, rfl⟩
        obtain ⟨p', q, hp', hq, rfl⟩ := ih.mp hs
        exact ⟨p ++ p', q, seq_cons_ok hp hp', hq, (List.append_assoc _ _ _).symm⟩
      · rintro ⟨p, q, hp, hq, rfl⟩
        obtain ⟨p₁, p₂, hp₁, hp₂, rfl⟩ := seq_cons_eq_ok.mp hp
        exact ⟨p₁, p₂ ++ q, hp₁, ih.mpr ⟨p₂, q, hp₂, hq, rfl⟩, List.append_assoc _ _ _⟩

/-- A sequence nested at the end of a sequence is part of it. -/
theorem seq_pair_seq (e : Encoded σ ε) (es : List (Encoded σ ε)) :
    seq [e, seq es] = seq (e :: es) := by
  cases e with
  | error x => rfl
  | ok p =>
      cases hes : seq es with
      | error x => simp only [seq, hes]
      | ok q => simp only [seq, hes, List.append_nil]

/-- A sequence succeeds when all its parts do. -/
theorem seq_isOk (es : List (Encoded σ ε)) : (seq es).isOk = es.all (·.isOk) := by
  induction es with
  | nil => rfl
  | cons e es ih =>
      rw [List.all_cons, ← ih]
      cases e with
      | error x => rfl
      | ok p =>
          cases hes : seq es with
          | error x => simp only [seq, hes]; rfl
          | ok q => simp only [seq, hes]; rfl

/-- A list of one field is that field. -/
theorem seq_singleton (e : Encoded σ ε) : seq [e] = e := by
  cases e with
  | error x => rfl
  | ok p => simp only [seq, List.append_nil]

/-- The sizes of fields add up. -/
theorem Sized.cons {e : Encoded σ ε} {es : List (Encoded σ ε)} {k n : Nat}
    (he : Sized e k) (hes : Sized (seq es) n) : Sized (seq (e :: es)) (k + n) := by
  obtain ⟨p, hp, rfl⟩ := he
  obtain ⟨q, hq, rfl⟩ := hes
  exact ⟨p ++ q, seq_cons_ok hp hq, List.length_append⟩

/-- A sequence is at least as long as its first part. -/
theorem Sized.le_of_cons {e : Encoded σ ε} {es : List (Encoded σ ε)} {k n : Nat}
    (he : Sized e k) (h : Sized (seq (e :: es)) n) : k ≤ n := by
  obtain ⟨p, rfl, rfl⟩ := he
  obtain ⟨r, hr, rfl⟩ := h
  obtain ⟨p', q, hp, -, rfl⟩ := seq_cons_eq_ok.mp hr
  obtain rfl := Except.ok.inj hp
  rw [List.length_append]
  exact Nat.le_add_right _ _

/-- The sizes of two fields add up. -/
theorem Sized.pair {e e' : Encoded σ ε} {k n : Nat} (he : Sized e k) (he' : Sized e' n) :
    Sized (seq [e, e']) (k + n) :=
  he.cons ((seq_singleton e').symm ▸ he')

end Encoded

namespace Decoder

variable {σ ε α β : Type}

/-! ### Primitive decoders -/

/-- Stop with an error. -/
def fail (e : ε) : Decoder σ ε α := fun _ => .err e

/-- The number of unread symbols. -/
def remaining : Decoder σ ε Nat := fun b => .ok (b.length, b)

/-- Take exactly `n` symbols. Asking for more than there are panics. -/
def splitTo (n : Nat) : Decoder σ ε (List σ) := fun b =>
  if n ≤ b.length then .ok (b.take n, b.drop n) else .panic

/-- Skip exactly `n` symbols. Asking for more than there are panics. -/
def advance (n : Nat) : Decoder σ ε Unit := fun b =>
  if n ≤ b.length then .ok ((), b.drop n) else .panic

/-- A failure is an error on every input. -/
theorem run_fail (e : ε) (b : List σ) : (fail e : Decoder σ ε α).run b = .err e := rfl

/-- What is left is counted and not taken. -/
theorem run_remaining (b : List σ) :
    (remaining : Decoder σ ε Nat).run b = .ok (b.length, b) := rfl

/-- `split_to` within the buffer. -/
theorem run_splitTo_of_le {n : Nat} {b : List σ} (h : n ≤ b.length) :
    (splitTo n : Decoder σ ε (List σ)).run b = .ok (b.take n, b.drop n) := if_pos h

/-- `advance` within the buffer. -/
theorem run_advance_of_le {n : Nat} {b : List σ} (h : n ≤ b.length) :
    (advance n : Decoder σ ε Unit).run b = .ok ((), b.drop n) := if_pos h

/-- `advance` past the end of the buffer is a panic. -/
theorem run_advance_of_lt {n : Nat} {b : List σ} (h : b.length < n) :
    (advance n : Decoder σ ε Unit).run b = .panic := if_neg (Nat.not_le.mpr h)

/-- A value takes nothing. -/
theorem run_pure (a : α) (b : List σ) : (pure a : Decoder σ ε α).run b = .ok (a, b) := rfl

/-- One decoder, and then another on what it left. -/
theorem run_bind (d : Decoder σ ε α) (f : α → Decoder σ ε β) (b : List σ) :
    (d >>= f).run b = d.run b >>= fun p => (f p.1).run p.2 := rfl

/-- Bind on a first decoder that returns a value. -/
theorem run_bind_ok {d : Decoder σ ε α} {f : α → Decoder σ ε β} {b r : List σ} {a : α}
    (h : d.run b = .ok (a, r)) : (d >>= f).run b = (f a).run r := by
  rw [run_bind, h, Outcome.ok_bind]

/-- Bind on a first decoder that fails. -/
theorem run_bind_err {d : Decoder σ ε α} {f : α → Decoder σ ε β} {b : List σ} {e : ε}
    (h : d.run b = .err e) : (d >>= f).run b = .err e := by
  rw [run_bind, h, Outcome.err_bind]

/-- A sequence returns a value when both parts do. -/
theorem run_bind_eq_ok {d : Decoder σ ε α} {f : α → Decoder σ ε β} {b r : List σ} {v : β} :
    (d >>= f).run b = .ok (v, r) ↔
      ∃ a s, d.run b = .ok (a, s) ∧ (f a).run s = .ok (v, r) := by
  rw [run_bind, Outcome.bind_eq_ok]
  exact ⟨fun ⟨p, h1, h2⟩ => ⟨p.1, p.2, h1, h2⟩, fun ⟨a, s, h1, h2⟩ => ⟨(a, s), h1, h2⟩⟩

/-- A sequence panics when the first part does, or the second on what it left. -/
theorem run_bind_eq_panic {d : Decoder σ ε α} {f : α → Decoder σ ε β} {b : List σ} :
    (d >>= f).run b = .panic ↔
      d.run b = .panic ∨ ∃ a s, d.run b = .ok (a, s) ∧ (f a).run s = .panic := by
  rw [run_bind, Outcome.bind_eq_panic]
  exact or_congr_right
    ⟨fun ⟨p, h1, h2⟩ => ⟨p.1, p.2, h1, h2⟩, fun ⟨a, s, h1, h2⟩ => ⟨(a, s), h1, h2⟩⟩

/-- When the rest does not panic, a sequence panics with its first decoder. -/
theorem run_bind_eq_panic_of_forall {d : Decoder σ ε α} {f : α → Decoder σ ε β} {b : List σ}
    (hf : ∀ a s, (f a).run s ≠ .panic) : (d >>= f).run b = .panic ↔ d.run b = .panic := by
  rw [run_bind_eq_panic]
  constructor
  · rintro (h | ⟨a, s, -, hs⟩)
    · exact h
    · exact absurd hs (hf a s)
  · exact .inl

/-- A check before `d`. -/
theorem run_ite_fail_eq_panic {p : Prop} [Decidable p] {d : Decoder σ ε α} {e : ε}
    {b : List σ} : (if ¬ p then fail e else d).run b = .panic ↔ p ∧ d.run b = .panic := by
  by_cases hp : p
  · rw [if_neg (not_not_intro hp)]
    exact ⟨fun h => ⟨hp, h⟩, fun h => h.2⟩
  · rw [if_pos hp, run_fail]
    exact iff_of_false (by simp) fun h => hp h.1

/-! ### Where a decoder stops -/

/-- The decoder returns some value on `b` and leaves `r` unread. -/
def EndsAt (d : Decoder σ ε α) (b r : List σ) : Prop := ∃ v, d.run b = .ok (v, r)

/-- A sequence ends where its second part does. -/
theorem endsAt_bind {d : Decoder σ ε α} {f : α → Decoder σ ε β} {b r : List σ} :
    EndsAt (d >>= f) b r ↔ ∃ a s, d.run b = .ok (a, s) ∧ EndsAt (f a) s r := by
  constructor
  · rintro ⟨v, hv⟩
    obtain ⟨a, s, ha, hs⟩ := run_bind_eq_ok.mp hv
    exact ⟨a, s, ha, v, hs⟩
  · rintro ⟨a, s, ha, v, hs⟩
    exact ⟨v, run_bind_eq_ok.mpr ⟨a, s, ha, hs⟩⟩

/-- A sequence whose second part stops in the same place on every value of the first. -/
theorem endsAt_bind_of_forall {d : Decoder σ ε α} {f : α → Decoder σ ε β}
    {P : List σ → List σ → Prop} (hf : ∀ a s r, EndsAt (f a) s r ↔ P s r) {b r : List σ} :
    EndsAt (d >>= f) b r ↔ ∃ s, EndsAt d b s ∧ P s r := by
  rw [endsAt_bind]
  constructor
  · rintro ⟨a, s, ha, hs⟩
    exact ⟨s, ⟨a, ha⟩, (hf a s r).mp hs⟩
  · rintro ⟨s, ⟨a, ha⟩, hs⟩
    exact ⟨a, s, ha, (hf a s r).mpr hs⟩

/-- A value ends where it starts. -/
theorem endsAt_pure {a : α} {b r : List σ} :
    EndsAt (pure a : Decoder σ ε α) b r ↔ r = b := by
  constructor
  · rintro ⟨v, hv⟩
    rw [run_pure, Outcome.ok.injEq, Prod.mk.injEq] at hv
    exact hv.2.symm
  · rintro rfl
    exact ⟨a, rfl⟩

/-- A decoder ends where it does under a function. -/
theorem endsAt_map {d : Decoder σ ε α} {f : α → β} {b r : List σ} :
    EndsAt (f <$> d) b r ↔ EndsAt d b r := by
  rw [← bind_pure_comp, endsAt_bind_of_forall (P := fun s r => r = s) fun a s r => endsAt_pure]
  constructor
  · rintro ⟨s, hs, rfl⟩
    exact hs
  · exact fun h => ⟨r, h, rfl⟩

/-- A check before `d`. -/
theorem endsAt_ite_fail {p : Prop} [Decidable p] {d : Decoder σ ε α} {e : ε} {b r : List σ} :
    EndsAt (if ¬ p then fail e else d) b r ↔ p ∧ EndsAt d b r := by
  by_cases hp : p
  · rw [if_neg (not_not_intro hp)]
    exact ⟨fun h => ⟨hp, h⟩, fun h => h.2⟩
  · rw [if_pos hp]
    refine iff_of_false ?_ fun h => hp h.1
    rintro ⟨v, hv⟩
    simp [run_fail] at hv

/-- The decoder takes exactly `n` symbols, of which it makes `f`, and fails when there are
fewer. -/
structure Takes (d : Decoder σ ε α) (n : Nat) (f : List σ → α) : Prop where
  long : ∀ p r, p.length = n → d.run (p ++ r) = .ok (f p, r)
  short : ∀ b, b.length < n → ∃ e, d.run b = .err e

/-- A decoder that takes `n` symbols returns a value exactly when they are there. -/
theorem Takes.run_eq_ok {d : Decoder σ ε α} {n : Nat} {f : List σ → α} (h : Takes d n f)
    {b r : List σ} {v : α} :
    d.run b = .ok (v, r) ↔ n ≤ b.length ∧ v = f (b.take n) ∧ r = b.drop n := by
  by_cases hb : b.length < n
  · obtain ⟨e, he⟩ := h.short b hb
    rw [he]
    exact iff_of_false (by simp) fun hn => absurd hn.1 (Nat.not_le.mpr hb)
  · have hlen : (b.take n).length = n := by rw [List.length_take]; omega
    have hrun := h.long (b.take n) (b.drop n) hlen
    rw [List.take_append_drop] at hrun
    rw [hrun, Outcome.ok.injEq, Prod.mk.injEq]
    exact ⟨fun ⟨hv, hr⟩ => ⟨Nat.not_lt.mp hb, hv.symm, hr.symm⟩,
      fun ⟨_, hv, hr⟩ => ⟨hv.symm, hr.symm⟩⟩

/-- A function of what is taken. -/
theorem Takes.map {d : Decoder σ ε α} {n : Nat} {f : List σ → α} (h : Takes d n f)
    (g : α → β) : Takes (g <$> d) n (fun p => g (f p)) where
  long p r hp := by
    rw [← bind_pure_comp, run_bind_ok (h.long p r hp), run_pure]
  short b hb := by
    obtain ⟨e, he⟩ := h.short b hb
    exact ⟨e, by rw [← bind_pure_comp, run_bind_err he]⟩

/-! ### What a decoder reads -/

/-- On the output of the encoder, followed by anything, the decoder returns `v` and leaves
what followed. -/
def Yields (e : Encoded σ ε) (d : Decoder σ ε α) (v : α) : Prop :=
  ∃ p, e = .ok p ∧ ∀ r, d.run (p ++ r) = .ok (v, r)

/-- Whatever the decoder returns, it read a prefix of its input, the value and the length
of the prefix are related by `Q`, and the same prefix gives the same value in front of
anything else. -/
def Reads (d : Decoder σ ε α) (Q : α → Nat → Prop) : Prop :=
  ∀ (b : List σ) (v : α) (r : List σ), d.run b = .ok (v, r) →
    ∃ p, b = p ++ r ∧ Q v p.length ∧ ∀ r', d.run (p ++ r') = .ok (v, r')

/-- The decoder never panics. -/
def NoPanic (d : Decoder σ ε α) : Prop := ∀ b : List σ, d.run b ≠ .panic

/-- A value that takes nothing. -/
theorem reads_pure {a : α} {Q : α → Nat → Prop} (h : Q a 0) :
    Reads (pure a : Decoder σ ε α) Q := by
  intro b v r hb
  rw [run_pure, Outcome.ok.injEq, Prod.mk.injEq] at hb
  obtain ⟨rfl, rfl⟩ := hb
  exact ⟨[], rfl, h, fun _ => rfl⟩

/-- A failure reads nothing. -/
theorem reads_fail {e : ε} {Q : α → Nat → Prop} : Reads (fail e : Decoder σ ε α) Q :=
  fun _ _ _ hb => nomatch hb

/-- The prefixes of the two decoders make up the prefix of their sequence. -/
theorem Reads.bind {d : Decoder σ ε α} {f : α → Decoder σ ε β} {Q : α → Nat → Prop}
    {R : β → Nat → Prop} (hd : Reads d Q)
    (hf : ∀ a k, Q a k → Reads (f a) fun v n => R v (k + n)) : Reads (d >>= f) R := by
  intro b v r hb
  obtain ⟨a, s, h1, h2⟩ := run_bind_eq_ok.mp hb
  obtain ⟨p, rfl, hQ, hp⟩ := hd _ _ _ h1
  obtain ⟨q, rfl, hR, hq⟩ := hf a p.length hQ _ _ _ h2
  refine ⟨p ++ q, (List.append_assoc p q r).symm, ?_, fun r' => ?_⟩
  · rw [List.length_append]
    exact hR
  · rw [List.append_assoc, run_bind_ok (hp (q ++ r')), hq]

/-- What is read has a weaker property too. -/
theorem Reads.mono {d : Decoder σ ε α} {Q R : α → Nat → Prop} (h : Reads d Q)
    (hQR : ∀ v k, Q v k → R v k) : Reads d R := by
  intro b v r hb
  obtain ⟨p, hp, hQ, hr⟩ := h _ _ _ hb
  exact ⟨p, hp, hQR _ _ hQ, hr⟩

/-- A value is no panic. -/
theorem noPanic_pure (a : α) : NoPanic (pure a : Decoder σ ε α) := fun _ h => nomatch h

/-- A failure is no panic. -/
theorem noPanic_fail (e : ε) : NoPanic (fail e : Decoder σ ε α) := fun _ h => nomatch h

/-- A sequence does not panic when the second decoder does not panic on any value the
first can return. -/
theorem NoPanic.bind {d : Decoder σ ε α} {f : α → Decoder σ ε β} {Q : α → Nat → Prop}
    (hd : NoPanic d) (hr : Reads d Q) (hf : ∀ a k, Q a k → NoPanic (f a)) :
    NoPanic (d >>= f) := by
  intro b hb
  rcases run_bind_eq_panic.mp hb with h | ⟨a, s, h, hs⟩
  · exact hd b h
  · obtain ⟨p, -, hQ, -⟩ := hr _ _ _ h
    exact hf a p.length hQ s hs

/-- A function of a value is no panic. -/
theorem NoPanic.map {d : Decoder σ ε α} (hd : NoPanic d) (f : α → β) : NoPanic (f <$> d) := by
  intro b hb
  rw [← bind_pure_comp, run_bind_eq_panic_of_forall fun a => noPanic_pure (f a)] at hb
  exact hd b hb

/-- A prefix-stable decoder that accepts `p` followed by `r`, leaving `r`, accepts no
proper prefix of `p`. -/
theorem Reads.not_ok_of_prefix {d : Decoder σ ε α} {Q : α → Nat → Prop} (h : Reads d Q)
    {p r q : List σ} {v : α} (hp : d.run (p ++ r) = .ok (v, r)) (hq : q <+: p)
    (hne : q ≠ p) (x : α × List σ) : d.run q ≠ .ok x := by
  obtain ⟨w, s⟩ := x
  intro hx
  obtain ⟨t, rfl⟩ := hq
  obtain ⟨u, rfl, -, hu⟩ := h _ _ _ hx
  -- What was accepted on `q` is accepted on the long input too, and leaves more than `r`.
  have hlong : d.run (u ++ (s ++ (t ++ r))) = .ok (w, s ++ (t ++ r)) := hu _
  rw [show u ++ (s ++ (t ++ r)) = u ++ s ++ t ++ r by simp only [List.append_assoc], hp,
    Outcome.ok.injEq, Prod.mk.injEq] at hlong
  have hlen := congrArg List.length hlong.2
  simp only [List.length_append] at hlen
  have ht : t = [] := List.eq_nil_of_length_eq_zero (by omega)
  exact hne (by rw [ht, List.append_nil])

end Decoder

/-! ### Codecs -/

open Encoded Decoder

variable {σ ε α β τ : Type}

/-- `enc` and `dec` are a wire format for the values satisfying `wf`. -/
structure IsCodec (wf : α → Prop) (enc : α → Encoded σ ε) (dec : Decoder σ ε α) : Prop where
  yields : ∀ v, wf v → Yields (enc v) dec v
  reads : Reads dec fun v k => wf v ∧ Sized (enc v) k
  noPanic : NoPanic dec

namespace IsCodec

/-- What an accepted input says. The decoder read a prefix `p`. The value encodes to as
many symbols as `p` has, and these decode to the value again. Any input that starts with
`p` decodes to the same value, and a proper prefix of `p` is an error. -/
theorem exact {wf : α → Prop} {enc : α → Encoded σ ε} {dec : Decoder σ ε α}
    (h : IsCodec wf enc dec) {b r : List σ} {v : α} (hb : dec.run b = .ok (v, r)) :
    ∃ p, b = p ++ r ∧ wf v ∧
      (∃ w, enc v = .ok w ∧ w.length = p.length ∧ dec.run w = .ok (v, [])) ∧
      (∀ r', dec.run (p ++ r') = .ok (v, r')) ∧
      ∀ q, q <+: p → q ≠ p → ∃ e, dec.run q = .err e := by
  obtain ⟨p, rfl, ⟨hwf, w, hw, hlen⟩, hp⟩ := h.reads _ _ _ hb
  -- The encoding may differ from what was read, in the padding, but not in its length.
  obtain ⟨w', hw', hdec⟩ := h.yields v hwf
  rw [hw, Except.ok.injEq] at hw'
  subst hw'
  refine ⟨p, rfl, hwf, ⟨w, hw, hlen, ?_⟩, hp, fun q hq hne => ?_⟩
  · have := hdec []
    rwa [List.append_nil] at this
  · cases hres : dec.run q with
    | ok x => exact absurd hres (h.reads.not_ok_of_prefix hb hq hne x)
    | err e => exact ⟨e, rfl⟩
    | panic => exact absurd hres (h.noPanic q)

/-- The same codec, with the well-formed values and the encoder described otherwise. -/
theorem congr {wf wf' : α → Prop} {enc enc' : α → Encoded σ ε} {dec : Decoder σ ε α}
    (h : IsCodec wf enc dec) (hwf : ∀ v, wf' v ↔ wf v)
    (henc : ∀ v, wf v → enc' v = enc v) : IsCodec wf' enc' dec where
  yields v hv := by
    rw [henc v ((hwf v).mp hv)]
    exact h.yields v ((hwf v).mp hv)
  reads := h.reads.mono fun v k ⟨hv, hk⟩ => ⟨(hwf v).mpr hv, henc v hv ▸ hk⟩
  noPanic := h.noPanic

/-- One value, no symbols. -/
theorem pure {wf : α → Prop} (a : α) (hwf : ∀ v, wf v ↔ v = a) :
    IsCodec wf (fun _ => (.ok [] : Encoded σ ε)) (Pure.pure a) where
  yields v hv := ⟨[], rfl, fun r => by rw [(hwf v).mp hv]; rfl⟩
  reads := reads_pure ⟨(hwf a).mpr rfl, [], rfl, rfl⟩
  noPanic := noPanic_pure a

/-- The one value `a`. -/
theorem single (a : α) :
    IsCodec (fun v => v = a) (fun _ => (.ok [] : Encoded σ ε)) (Pure.pure a) :=
  IsCodec.pure a fun _ => Iff.rfl

/-- No value. -/
theorem fail {wf : α → Prop} {enc : α → Encoded σ ε} (e : ε) (hwf : ∀ v, ¬ wf v) :
    IsCodec wf enc (Decoder.fail e) where
  yields v hv := absurd hv (hwf v)
  reads := reads_fail
  noPanic := noPanic_fail e

/-- A value in a fixed number of symbols. -/
theorem fixed {wf : α → Prop} {enc : α → Encoded σ ε} {dec : Decoder σ ε α} {n : Nat}
    {f : List σ → α} (h : Takes dec n f)
    (hf : ∀ p, p.length = n → wf (f p) ∧ Sized (enc (f p)) n)
    (henc : ∀ v, wf v → ∃ p, p.length = n ∧ enc v = .ok p ∧ f p = v) :
    IsCodec wf enc dec where
  yields v hv := by
    obtain ⟨p, hlen, hp, rfl⟩ := henc v hv
    exact ⟨p, hp, fun r => h.long p r hlen⟩
  reads := by
    intro b v r hb
    obtain ⟨hle, rfl, rfl⟩ := h.run_eq_ok.mp hb
    have hlen : (b.take n).length = n := by rw [List.length_take]; omega
    refine ⟨b.take n, (List.take_append_drop n b).symm, ?_, fun r' => h.long _ r' hlen⟩
    rw [hlen]
    exact hf _ hlen
  noPanic := by
    intro b hb
    by_cases hlt : b.length < n
    · obtain ⟨e, he⟩ := h.short b hlt
      rw [he] at hb
      simp at hb
    · rw [h.run_eq_ok.mpr ⟨Nat.not_lt.mp hlt, rfl, rfl⟩] at hb
      simp at hb

/-- A value whose first part `tag v` decides how the rest is read. -/
theorem bind {tag : α → τ} {wt : τ → Prop} {et : τ → Encoded σ ε} {dt : Decoder σ ε τ}
    {wf : α → Prop} {enc : α → Encoded σ ε} {k : τ → Decoder σ ε α}
    (ht : IsCodec wt et dt)
    (hk : ∀ t, wt t → IsCodec (fun v => tag v = t ∧ wf v) enc (k t)) :
    IsCodec (fun v => wt (tag v) ∧ wf v) (fun v => seq [et (tag v), enc v])
      (dt >>= fun t => k t) where
  yields v := by
    rintro ⟨hv, hw⟩
    obtain ⟨p, hp, hdp⟩ := ht.yields (tag v) hv
    obtain ⟨q, hq, hdq⟩ := (hk (tag v) hv).yields v ⟨rfl, hw⟩
    refine ⟨p ++ q, seq_cons_ok hp ((seq_singleton _).trans hq), fun r => ?_⟩
    rw [List.append_assoc, run_bind_ok (hdp (q ++ r)), hdq]
  reads := by
    refine ht.reads.bind fun t n ⟨hwt, hn⟩ => (hk t hwt).reads.mono ?_
    rintro v m ⟨⟨rfl, hw⟩, hm⟩
    exact ⟨⟨hwt, hw⟩, hn.pair hm⟩
  noPanic := ht.noPanic.bind ht.reads fun t _ ⟨hwt, _⟩ => (hk t hwt).noPanic

/-- A change of representation: the values are the images of the values of another codec,
and each is encoded as the value it is the image of. -/
theorem map {wf : α → Prop} {enc : α → Encoded σ ε} {dec : Decoder σ ε α} {wf' : β → Prop}
    {enc' : β → Encoded σ ε} (h : IsCodec wf enc dec) (f : α → β)
    (hwf : ∀ b, wf' b ↔ ∃ a, wf a ∧ f a = b) (henc : ∀ a, wf a → enc' (f a) = enc a) :
    IsCodec wf' enc' (f <$> dec) where
  yields b hb := by
    obtain ⟨a, ha, rfl⟩ := (hwf b).mp hb
    obtain ⟨p, hp, hd⟩ := h.yields a ha
    refine ⟨p, (henc a ha).trans hp, fun r => ?_⟩
    rw [← bind_pure_comp, run_bind_ok (hd r), run_pure]
  reads := by
    rw [← bind_pure_comp]
    refine h.reads.bind fun a n ⟨ha, hn⟩ => reads_pure ⟨(hwf _).mpr ⟨a, ha, rfl⟩, ?_⟩
    rw [henc a ha]
    exact hn
  noPanic := by
    rw [← bind_pure_comp]
    exact h.noPanic.bind h.reads fun a _ _ => noPanic_pure (f a)

/-- A wrapper: `f` wraps a value and `g` unwraps it. -/
theorem wrap {wf : α → Prop} {enc : α → Encoded σ ε} {dec : Decoder σ ε α}
    (h : IsCodec wf enc dec) (f : α → β) (g : β → α) (hfg : ∀ b, f (g b) = b)
    (hgf : ∀ a, g (f a) = a) :
    IsCodec (fun b => wf (g b)) (fun b => enc (g b)) (f <$> dec) :=
  h.map f
    (fun b => ⟨fun hb => ⟨g b, hb, hfg b⟩, fun ⟨a, ha, hab⟩ => by rwa [← hab, hgf]⟩)
    fun a _ => by rw [hgf]

/-- A value that is encoded as its tag, and that the tag determines. -/
theorem tagged {tag : α → τ} {wt : τ → Prop} {et : τ → Encoded σ ε} {dt : Decoder σ ε τ}
    {wf : α → Prop} {k : τ → Decoder σ ε α} (ht : IsCodec wt et dt)
    (hk : ∀ t, wt t → IsCodec (fun v => tag v = t ∧ wf v) (fun _ => .ok []) (k t)) :
    IsCodec (fun v => wt (tag v) ∧ wf v) (fun v => et (tag v)) (dt >>= fun t => k t) :=
  (ht.bind hk).congr (fun _ => Iff.rfl) fun v _ => by
    cases hv : et (tag v) with
    | error e => rfl
    | ok p => simp only [seq, List.append_nil]

/-! A union is read by its tag. `arm` and `unitArm` add the arm of the tag `op` in front of
the arms `d` of the other tags. -/

/-- One arm of a union: the codec of the constructor's argument, or the other arms. -/
theorem arm {tag : α → τ} {wf : α → Prop} {body : α → Encoded σ ε} [DecidableEq τ] {t op : τ}
    {wr : β → Prop} {er : β → Encoded σ ε} {dr : Decoder σ ε β} {d : Decoder σ ε α}
    (h : IsCodec wr er dr) (ctor : β → α)
    (hctor : ∀ r, tag (ctor r) = op ∧ (wf (ctor r) ↔ wr r) ∧ body (ctor r) = er r)
    (hop : ∀ v, tag v = op → ∃ r, ctor r = v)
    (hd : t ≠ op → IsCodec (fun v => tag v = t ∧ wf v) body d) :
    IsCodec (fun v => tag v = t ∧ wf v) body (if t = op then ctor <$> dr else d) := by
  by_cases ht : t = op
  · subst ht
    rw [if_pos rfl]
    refine h.map ctor (fun v => ?_) fun r _ => (hctor r).2.2
    constructor
    · rintro ⟨hv, hwf⟩
      obtain ⟨r, rfl⟩ := hop v hv
      exact ⟨r, (hctor r).2.1.mp hwf, rfl⟩
    · rintro ⟨r, hwf, rfl⟩
      exact ⟨(hctor r).1, (hctor r).2.1.mpr hwf⟩
  · rw [if_neg ht]
    exact hd ht

/-- An arm without a body. -/
theorem unitArm {tag : α → τ} {wf : α → Prop} {body : α → Encoded σ ε} [DecidableEq τ]
    {t op : τ} {d : Decoder σ ε α} (a : α) (ha : tag a = op ∧ wf a ∧ body a = .ok [])
    (hop : ∀ v, tag v = op → v = a)
    (hd : t ≠ op → IsCodec (fun v => tag v = t ∧ wf v) body d) :
    IsCodec (fun v => tag v = t ∧ wf v) body (if t = op then Pure.pure a else d) := by
  by_cases ht : t = op
  · subst ht
    rw [if_pos rfl]
    refine (IsCodec.single a).congr (fun v => ?_) ?_
    · constructor
      · exact fun hv => hop v hv.1
      · rintro rfl
        exact ⟨ha.1, ha.2.1⟩
    · rintro _ rfl
      exact ha.2.2
  · rw [if_neg ht]
    exact hd ht

/-! A record is read field by field. `field` reads one field and goes on to the rest, `last`
reads the last field and builds the record, and `record` closes the chain. The predicate `K`
collects what the fields read so far say about the record. -/

/-- A field of a record, and then the others, which know its value. -/
theorem field {τ : Type} (get : α → τ) {wt : τ → Prop} {et : τ → Encoded σ ε}
    {dt : Decoder σ ε τ} {K rest : α → Prop} {fields : α → List (Encoded σ ε)}
    {k : τ → Decoder σ ε α} (ht : IsCodec wt et dt)
    (hk : ∀ t, IsCodec (fun v => (K v ∧ get v = t) ∧ rest v) (fun v => seq (fields v)) (k t)) :
    IsCodec (fun v => K v ∧ wt (get v) ∧ rest v) (fun v => seq (et (get v) :: fields v))
      (dt >>= fun t => k t) := by
  have h : ∀ t, wt t → IsCodec (fun v => get v = t ∧ K v ∧ rest v)
      (fun v => seq (fields v)) (k t) := fun t _ =>
    (hk t).congr (fun v => by rw [and_assoc, and_left_comm]) fun _ _ => rfl
  exact (ht.bind h).congr (fun v => and_left_comm) fun v _ => (seq_pair_seq _ _).symm

/-- The last field of a record, which makes the value. -/
theorem last {τ : Type} (get : α → τ) {wt : τ → Prop} {et : τ → Encoded σ ε}
    {dt : Decoder σ ε τ} {K : α → Prop} {f : τ → α} (ht : IsCodec wt et dt)
    (hK : ∀ v t, (K v ∧ get v = t) ↔ v = f t) :
    IsCodec (fun v => K v ∧ wt (get v)) (fun v => seq [et (get v)])
      (dt >>= fun t => Pure.pure (f t)) := by
  have h : ∀ t, wt t → IsCodec (fun v => get v = t ∧ K v)
      (fun _ => (.ok [] : Encoded σ ε)) (Pure.pure (f t)) := fun t _ =>
    IsCodec.pure (f t) fun v => and_comm.trans (hK v t)
  exact (ht.tagged h).congr (fun v => and_comm) fun v _ => seq_singleton _

/-- A record, from its first field on. -/
theorem record {wf : α → Prop} {enc : α → Encoded σ ε} {dec : Decoder σ ε α}
    (h : IsCodec (fun v => True ∧ wf v) enc dec) : IsCodec wf enc dec :=
  h.congr (fun v => by rw [true_and]) fun _ _ => rfl

end IsCodec

/-! ### Repetition -/

namespace Decoder

/-- `d`, `n` times. -/
def times : Nat → Decoder σ ε α → Decoder σ ε (List α)
  | 0, _ => pure []
  | n + 1, d => do
      let a ← d
      let as ← times n d
      pure (a :: as)

/-- Every value that `d` returns leaves fewer symbols than there were. -/
def Progress (d : Decoder σ ε α) : Prop :=
  ∀ (b : List σ) (v : α) (r : List σ), d.run b = .ok (v, r) → r.length < b.length

/-- A decoder whose values all take something makes progress. -/
theorem Reads.progress {d : Decoder σ ε α} {Q : α → Nat → Prop} (h : Reads d Q)
    (hQ : ∀ v k, Q v k → 0 < k) : Progress d := by
  intro b v r hb
  obtain ⟨p, rfl, hv, -⟩ := h _ _ _ hb
  have := hQ v _ hv
  rw [List.length_append]
  omega

/-- `body` until it returns `none`, at most `n` times. Running out of steps counts as a
panic, so a decoder that does not panic does not run out. -/
def loopFrom (body : Decoder σ ε (Option α)) : Nat → Decoder σ ε (List α)
  | 0 => fun _ => .panic
  | n + 1 => do
      match ← body with
      | none => pure []
      | some a => do
          let as ← loopFrom body n
          pure (a :: as)

/-- Values up to an end marker: `body` until it returns `none`. The step bound is one more
than the number of unread symbols, which a body that makes progress never reaches. -/
def loop (body : Decoder σ ε (Option α)) : Decoder σ ε (List α) := fun b =>
  (loopFrom body (b.length + 1)).run b

variable {body : Decoder σ ε (Option α)}

/-- More steps than unread symbols are as good as any other such number. -/
theorem loopFrom_eq (hbody : Progress body) {n m : Nat} {b : List σ} (hn : b.length < n)
    (hm : b.length < m) : (loopFrom body n).run b = (loopFrom body m).run b := by
  -- Each turn uses a step of both bounds and at least one symbol.
  induction n generalizing m b with
  | zero => omega
  | succ n ih =>
      cases m with
      | zero => omega
      | succ m =>
          rw [loopFrom, loopFrom, run_bind, run_bind]
          cases hres : body.run b with
          | err e => rfl
          | panic => rfl
          | ok x =>
              obtain ⟨o, r⟩ := x
              cases o with
              | none => rfl
              | some a =>
                  have hlt := hbody b _ r hres
                  simp only [Outcome.ok_bind, run_bind]
                  rw [ih (m := m) (by omega) (by omega)]

/-- The loop ends at an end marker. -/
theorem run_loop_none {b r : List σ} (h : body.run b = .ok (none, r)) :
    (loop body).run b = .ok ([], r) := by
  show (loopFrom body (b.length + 1)).run b = _
  rw [loopFrom, run_bind_ok h, run_pure]

/-- The loop takes a value and goes on. -/
theorem run_loop_some (hbody : Progress body) {b r : List σ} {a : α}
    (h : body.run b = .ok (some a, r)) :
    (loop body).run b = (loop body >>= fun as => pure (a :: as)).run r := by
  have hlt := hbody b _ r h
  show (loopFrom body (b.length + 1)).run b = _
  rw [loopFrom, run_bind_ok h, run_bind, run_bind,
    loopFrom_eq hbody (m := r.length + 1) hlt (by omega)]
  rfl

/-- The loop panics where its body does. -/
theorem run_loop_panic {b : List σ} (h : body.run b = .panic) :
    (loop body).run b = .panic := by
  show (loopFrom body (b.length + 1)).run b = _
  rw [loopFrom, run_bind, h, Outcome.panic_bind]

/-- The loop fails where its body does. -/
theorem run_loop_err {b : List σ} {e : ε} (h : body.run b = .err e) :
    (loop body).run b = .err e := by
  show (loopFrom body (b.length + 1)).run b = _
  rw [loopFrom, run_bind_err h]

end Decoder

namespace IsCodec

/-- `n` values in a row. -/
theorem times {wf : α → Prop} {enc : α → Encoded σ ε} {dec : Decoder σ ε α}
    (h : IsCodec wf enc dec) (n : Nat) :
    IsCodec (fun l : List α => l.length = n ∧ ∀ a ∈ l, wf a) (fun l => seq (l.map enc))
      (Decoder.times n dec) := by
  induction n with
  | zero =>
      refine (IsCodec.single ([] : List α)).congr (fun l => ?_) ?_
      · constructor
        · exact fun hl => List.eq_nil_of_length_eq_zero hl.1
        · rintro rfl
          simp
      · rintro _ rfl
        rfl
  | succ n ih =>
      refine ⟨fun l hl => ?_, ?_, ?_⟩
      · obtain ⟨hlen, hall⟩ := hl
        cases l with
        | nil => simp at hlen
        | cons a l =>
            -- Head first: its bytes stand in front of those of the others.
            obtain ⟨p, hp, hdp⟩ := h.yields a (hall a List.mem_cons_self)
            obtain ⟨q, hq, hdq⟩ := ih.yields l
              ⟨by simpa using hlen, fun x hx => hall x (List.mem_cons_of_mem a hx)⟩
            refine ⟨p ++ q, seq_cons_ok hp hq, fun r => ?_⟩
            rw [Decoder.times, List.append_assoc, run_bind_ok (hdp (q ++ r)),
              run_bind_ok (hdq r), run_pure]
      · refine h.reads.bind fun a k ⟨ha, hk⟩ => ih.reads.bind fun l m ⟨hl, hm⟩ => ?_
        refine reads_pure ⟨⟨by simp [hl.1], ?_⟩, ?_⟩
        · intro x hx
          rcases List.mem_cons.mp hx with rfl | hx
          · exact ha
          · exact hl.2 x hx
        · rw [List.map_cons, Nat.add_zero]
          exact hk.cons hm
      · exact h.noPanic.bind h.reads fun a _ _ =>
          ih.noPanic.bind ih.reads fun l _ _ => noPanic_pure (a :: l)

section Loop

variable {wf : Option α → Prop} {enc : Option α → Encoded σ ε}
  {body : Decoder σ ε (Option α)}

/-- The values and the end marker that were encoded are read back. -/
theorem yields_loop (h : IsCodec wf enc body) (hnone : wf none) (hbody : Progress body)
    {l : List α} (hl : ∀ a ∈ l, wf (some a)) :
    Yields (seq (l.map (fun a => enc (some a)) ++ [enc none])) (Decoder.loop body) l := by
  induction l with
  | nil =>
      obtain ⟨p, hp, hd⟩ := h.yields none hnone
      exact ⟨p, (seq_singleton _).trans hp, fun r => run_loop_none (hd r)⟩
  | cons a l ih =>
      obtain ⟨p, hp, hd⟩ := h.yields (some a) (hl a List.mem_cons_self)
      obtain ⟨q, hq, hdq⟩ := ih fun x hx => hl x (List.mem_cons_of_mem a hx)
      refine ⟨p ++ q, seq_cons_ok hp hq, fun r => ?_⟩
      rw [List.append_assoc, run_loop_some hbody (hd (q ++ r)),
        run_bind_ok (hdq r), run_pure]

/-- What the loop has read are encodings of its values, and of an end marker. -/
theorem reads_loop (h : IsCodec wf enc body) (hbody : Progress body) :
    Reads (Decoder.loop body) fun (l : List α) k => (∀ a ∈ l, wf (some a)) ∧
      Sized (seq (l.map (fun a => enc (some a)) ++ [enc none])) k := by
  -- Each step reads at least one symbol, so the induction is on the unread symbols.
  intro b
  induction hn : b.length using Nat.strongRecOn generalizing b with
  | ind n ih =>
      intro v r hb
      cases hres : body.run b with
      | panic => rw [run_loop_panic hres] at hb; exact nomatch hb
      | err e => rw [run_loop_err hres] at hb; exact nomatch hb
      | ok x =>
          obtain ⟨o, s⟩ := x
          obtain ⟨p, hp, ⟨hwf, hk⟩, hd⟩ := h.reads _ _ _ hres
          cases o with
          | none =>
              rw [run_loop_none hres, Outcome.ok.injEq, Prod.mk.injEq] at hb
              obtain ⟨rfl, rfl⟩ := hb
              refine ⟨p, hp, ⟨by simp, ?_⟩, fun r' => run_loop_none (hd r')⟩
              rwa [List.map_nil, List.nil_append, seq_singleton]
          | some a =>
              rw [run_loop_some hbody hres, run_bind_eq_ok] at hb
              obtain ⟨l, s', hl, hv⟩ := hb
              rw [run_pure, Outcome.ok.injEq, Prod.mk.injEq] at hv
              obtain ⟨rfl, rfl⟩ := hv
              have hlt := hbody b _ s hres
              obtain ⟨q, rfl, ⟨hall, hm⟩, hq⟩ := ih s.length (by omega) s rfl _ _ hl
              subst hp
              refine ⟨p ++ q, (List.append_assoc p q s').symm, ⟨?_, ?_⟩, fun r' => ?_⟩
              · intro x hx
                rcases List.mem_cons.mp hx with rfl | hx
                · exact hwf
                · exact hall x hx
              · rw [List.map_cons, List.cons_append, List.length_append]
                exact hk.cons hm
              · rw [List.append_assoc, run_loop_some hbody (hd (q ++ r')),
                  run_bind_ok (hq r'), run_pure]

/-- The loop does not panic, as its body makes progress. -/
theorem noPanic_loop (h : IsCodec wf enc body) (hbody : Progress body) :
    NoPanic (Decoder.loop body) := by
  intro b
  induction hn : b.length using Nat.strongRecOn generalizing b with
  | ind n ih =>
      intro hb
      cases hres : body.run b with
      | panic => exact h.noPanic b hres
      | err e => rw [run_loop_err hres] at hb; exact nomatch hb
      | ok x =>
          obtain ⟨o, s⟩ := x
          cases o with
          | none => rw [run_loop_none hres] at hb; exact nomatch hb
          | some a =>
              have hlt := hbody b _ s hres
              rw [run_loop_some hbody hres, run_bind_eq_panic] at hb
              rcases hb with hb | ⟨l, t, -, ht⟩
              · exact ih s.length (by omega) s rfl hb
              · simp at ht

/-- Values up to an end marker. The codec of one step is a codec of optional values, and
`none` is the marker. -/
theorem loop (h : IsCodec wf enc body) (hnone : wf none) (hbody : Progress body) :
    IsCodec (fun l : List α => ∀ a ∈ l, wf (some a))
      (fun l => seq (l.map (fun a => enc (some a)) ++ [enc none]))
      (Decoder.loop body) where
  yields _ hl := yields_loop h hnone hbody hl
  reads := reads_loop h hbody
  noPanic := noPanic_loop h hbody

end Loop

end IsCodec

end NfsMount.Lib
