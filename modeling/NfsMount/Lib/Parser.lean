import NfsMount.Lib.BigEndian
import NfsMount.Lib.Decoder

/-!
# `NfsMount.Lib.Parser`: a grammar beside an encoder

A `Parser` is the grammar of a format: it reads a value from the start of the input, or
refuses the input. It is written without regard to any encoder.

`Leaves e p v extra` compares the two. Of what the encoder `e` writes, the parser `p` reads
the value `v` and leaves `extra` unread, in front of anything. `Follows` is the case where
nothing is left, and `Refuses` says that the parser refuses what was written. All three are
proved part by part, as the encoder is written.
-/

set_option autoImplicit false

namespace NfsMount.Lib

/-- A strict parser over the symbols `σ`. -/
abbrev Parser (σ : Type) := StateT (List σ) Option

namespace Parser

variable {σ ε α β : Type}

/-- The next `n` symbols. -/
def take (n : Nat) : Parser σ (List σ) := fun b =>
  if n ≤ b.length then some (b.take n, b.drop n) else none

/-- The input is refused. -/
def refuse : Parser σ α := fun _ => none

/-- The same parser `n` times. -/
def times : Nat → Parser σ α → Parser σ (List α)
  | 0, _ => pure []
  | n + 1, p => do
      let a ← p
      let as ← times n p
      pure (a :: as)

/-- The first bytes are taken. -/
theorem run_take (b rest : List σ) : (take b.length).run (b ++ rest) = some (b, rest) := by
  have hle : b.length ≤ (b ++ rest).length := by
    rw [List.length_append]
    exact Nat.le_add_right _ _
  show (if _ then _ else _) = _
  rw [if_pos hle, List.take_left', List.drop_left'] <;> rfl

/-- Behind a value the parser goes on. -/
theorem run_bind_some {p : Parser σ α} {f : α → Parser σ β} {b r : List σ} {a : α}
    (h : p.run b = some (a, r)) : (p >>= f).run b = (f a).run r := by
  show (p.run b).bind _ = _
  rw [h]
  rfl

/-- Behind a refusal it does not. -/
theorem run_bind_none {p : Parser σ α} {f : α → Parser σ β} {b : List σ} (h : p.run b = none) :
    (p >>= f).run b = none := by
  show (p.run b).bind _ = _
  rw [h]
  rfl

/-! ### Parsers and encoders -/

/-- Of what `e` writes, `p` reads `v` and leaves `extra`. -/
def Leaves (e : Encoded σ ε) (p : Parser σ α) (v : α) (extra : List σ) : Prop :=
  ∀ b, e = .ok b → ∀ rest, p.run (b ++ rest) = some (v, extra ++ rest)

/-- `p` reads `v` from exactly what `e` writes. -/
abbrev Follows (e : Encoded σ ε) (p : Parser σ α) (v : α) : Prop := Leaves e p v []

/-- `p` refuses what `e` writes. -/
def Refuses (e : Encoded σ ε) (p : Parser σ α) : Prop :=
  ∀ b, e = .ok b → ∀ rest, p.run (b ++ rest) = none

variable {e : Encoded σ ε} {es : List (Encoded σ ε)} {p : Parser σ α} {f : α → Parser σ β}
  {v : α} {w : β} {extra : List σ}

/-- No bytes, and no field. -/
theorem follows_pure (v : α) : Follows (Encoded.seq [] : Encoded σ ε) (pure v) v := by
  intro b hb rest
  obtain rfl := Except.ok.inj hb
  rfl

/-- The first part is read as it was written, and the others follow. -/
theorem Leaves.cons (he : Follows e p v) (hes : Leaves (Encoded.seq es) (f v) w extra) :
    Leaves (Encoded.seq (e :: es)) (p >>= f) w extra := by
  intro b hb rest
  obtain ⟨b₁, b₂, hb₁, hb₂, rfl⟩ := Encoded.seq_cons_eq_ok.mp hb
  have hrun := he b₁ hb₁ (b₂ ++ rest)
  rw [List.nil_append] at hrun
  rw [List.append_assoc, run_bind_some hrun]
  exact hes b₂ hb₂ rest

/-- The last part is read, and what it leaves is left. -/
theorem Leaves.last (g : α → β) (he : Leaves e p v extra) :
    Leaves (Encoded.seq [e]) (p >>= fun a => pure (g a)) (g v) extra := by
  intro b hb rest
  rw [Encoded.seq_singleton] at hb
  rw [run_bind_some (he b hb rest)]
  rfl

/-- The first part is refused. -/
theorem Refuses.cons (he : Refuses e p) : Refuses (Encoded.seq (e :: es)) (p >>= f) := by
  intro b hb rest
  obtain ⟨b₁, b₂, hb₁, -, rfl⟩ := Encoded.seq_cons_eq_ok.mp hb
  rw [List.append_assoc]
  exact run_bind_none (he b₁ hb₁ _)

/-- The first part is read, and one of the others is refused. -/
theorem Refuses.later (he : Follows e p v) (hes : Refuses (Encoded.seq es) (f v)) :
    Refuses (Encoded.seq (e :: es)) (p >>= f) := by
  intro b hb rest
  obtain ⟨b₁, b₂, hb₁, hb₂, rfl⟩ := Encoded.seq_cons_eq_ok.mp hb
  have hrun := he b₁ hb₁ (b₂ ++ rest)
  rw [List.nil_append] at hrun
  rw [List.append_assoc, run_bind_some hrun]
  exact hes b₂ hb₂ rest

/-- The elements of a list, one after the other. -/
theorem follows_times {γ : Type} {enc : γ → Encoded σ ε} {g : γ → α} {l : List γ}
    (h : ∀ a, Follows (enc a) p (g a)) :
    Follows (Encoded.seq (l.map enc)) (times l.length p) (l.map g) := by
  induction l with
  | nil => exact follows_pure []
  | cons a l ih =>
      refine (h a).cons ?_
      intro b hb rest
      rw [run_bind_some (ih b hb rest)]
      rfl

end Parser

end NfsMount.Lib
