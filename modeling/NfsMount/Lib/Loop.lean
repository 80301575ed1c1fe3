import Mathlib.Data.Option.Basic

/-!
# `NfsMount.Lib.Loop`: loops with a variant

`body` is one turn of a loop. It goes on with a new state or leaves with a result. `upTo`
runs a number of turns, and `run` runs the loop to its end, which a variant guarantees: a
number that every turn that goes on makes smaller.

`Turn.Post` is what holds after one turn, whichever way it ends. `run_post` is the rule for an
invariant: it carries `Post` from one turn to the loop.
-/

set_option autoImplicit false

namespace NfsMount.Lib

/-- The outcome of one turn of a loop. -/
inductive Turn (σ β : Type) where
  /-- Go on with this state. -/
  | next (s : σ)
  /-- Leave with this result. -/
  | done (b : β)

namespace Turn

variable {σ β : Type} {Q : σ → Prop} {R : β → Prop}

/-- `Q` holds of the state that the turn goes on with, or `R` of the result that it leaves
with. -/
def Post (Q : σ → Prop) (R : β → Prop) : Turn σ β → Prop
  | .next s => Q s
  | .done b => R b

/-- What holds of a turn that goes on. -/
theorem Post.next {t : Turn σ β} {s : σ} (h : t.Post Q R) (ht : t = .next s) : Q s := by
  rw [ht] at h
  exact h

/-- What holds of the last turn. -/
theorem Post.done {t : Turn σ β} {b : β} (h : t.Post Q R) (ht : t = .done b) : R b := by
  rw [ht] at h
  exact h

/-- Weaker conditions. -/
theorem Post.imp {t : Turn σ β} {Q' : σ → Prop} {R' : β → Prop} (h : t.Post Q R)
    (hnext : ∀ s, Q s → Q' s) (hdone : ∀ b, R b → R' b) : t.Post Q' R' := by
  cases t with
  | next s => exact hnext s h
  | done b => exact hdone b h

end Turn

namespace Loop

variable {σ β : Type}

/-- At most `n` turns. `none` when the loop has not left by then. -/
def upTo (body : σ → Turn σ β) : Nat → σ → Option β
  | 0, _ => none
  | n + 1, s =>
      match body s with
      | .next s' => upTo body n s'
      | .done b => some b

/-- Every turn that goes on makes the variant smaller. -/
def Decreases (body : σ → Turn σ β) (variant : σ → Nat) : Prop :=
  ∀ s s', body s = .next s' → variant s' < variant s

variable {body : σ → Turn σ β} {variant : σ → Nat}

/-- More turns than the variant are enough. -/
theorem upTo_isSome (h : Decreases body variant) {n : Nat} {s : σ} (hn : variant s < n) :
    (upTo body n s).isSome := by
  -- A turn that goes on uses one of the turns and makes the variant smaller.
  induction n generalizing s with
  | zero => omega
  | succ n ih =>
      cases hs : body s with
      | done b => simp only [upTo, hs, Option.isSome_some]
      | next s' =>
          have hlt := h s s' hs
          simp only [upTo, hs]
          exact ih (by omega)

/-- A result stays the result when more turns are allowed. -/
theorem upTo_mono {n m : Nat} {s : σ} {b : β} (hle : n ≤ m) (h : upTo body n s = some b) :
    upTo body m s = some b := by
  induction n generalizing m s with
  | zero => exact nomatch h
  | succ n ih =>
      cases m with
      | zero => omega
      | succ m =>
          cases hs : body s with
          | done c =>
              simp only [upTo, hs] at h ⊢
              exact h
          | next s' =>
              simp only [upTo, hs] at h ⊢
              exact ih (by omega) h

/-- The loop, run to its end. -/
def run (body : σ → Turn σ β) (variant : σ → Nat) (h : Decreases body variant) (s : σ) : β :=
  (upTo body (variant s + 1) s).get (upTo_isSome h (Nat.lt_succ_self _))

/-- A loop that ends at once. -/
theorem run_done (h : Decreases body variant) {s : σ} {b : β} (hs : body s = .done b) :
    run body variant h s = b := by
  apply Option.some.inj
  rw [run, Option.some_get, upTo, hs]

/-- A loop that goes on. -/
theorem run_next (h : Decreases body variant) {s s' : σ} (hs : body s = .next s') :
    run body variant h s = run body variant h s' := by
  have hlt := h s s' hs
  obtain ⟨b, hb⟩ := Option.isSome_iff_exists.mp (upTo_isSome h (Nat.lt_succ_self (variant s')))
  apply Option.some.inj
  rw [run, run, Option.some_get, Option.some_get, upTo, hs, hb]
  exact upTo_mono (by omega) hb

/-- What holds of the result of every leaving turn, and is passed back over every turn that
goes on, holds of the result of the loop. -/
theorem run_induct (h : Decreases body variant) {P : σ → β → Prop}
    (hdone : ∀ s b, body s = .done b → P s b)
    (hnext : ∀ s s' b, body s = .next s' → P s' b → P s b) (s : σ) :
    P s (run body variant h s) := by
  induction hn : variant s using Nat.strongRecOn generalizing s with
  | ind n ih =>
      cases hs : body s with
      | done b =>
          rw [run_done h hs]
          exact hdone s b hs
      | next s' =>
          have hlt := h s s' hs
          rw [run_next h hs]
          exact hnext s s' _ hs (ih _ (by omega) s' rfl)

/-- **Invariant.** What every turn keeps, or turns into `R` when it leaves, ends in `R`. -/
theorem run_post (h : Decreases body variant) {Inv : σ → Prop} {R : β → Prop}
    (hturn : ∀ s, Inv s → (body s).Post Inv R) {s : σ} (hs : Inv s) :
    R (run body variant h s) := by
  apply run_induct h (P := fun s b => Inv s → R b)
  · intro s b hb hs
    exact (hturn s hs).done hb
  · intro s s' b hnext ih hs
    exact ih ((hturn s hs).next hnext)
  · exact hs

/-- Any number that every turn that goes on makes smaller bounds the turns of the loop. -/
theorem upTo_eq_run (h : Decreases body variant) {bound : σ → Nat} (hbound : Decreases body bound)
    {n : Nat} {s : σ} (hn : bound s < n) : upTo body n s = some (run body variant h s) := by
  obtain ⟨b, hb⟩ := Option.isSome_iff_exists.mp (upTo_isSome hbound hn)
  have hrun : upTo body (variant s + 1) s = some (run body variant h s) :=
    (Option.some_get _).symm
  -- With enough turns for both, the two results are one.
  have hmax := upTo_mono (Nat.le_max_left n (variant s + 1)) hb
  rw [upTo_mono (Nat.le_max_right n (variant s + 1)) hrun] at hmax
  rw [hb, hmax]

/-- **Simulation.** A loop whose turns are the turns of another one, seen through `f` on the
states and `g` on the results, ends in the other one's result. -/
theorem run_simulates {τ γ : Type} {body' : τ → Turn τ γ} {variant' : τ → Nat} {f : σ → τ}
    {g : β → γ} (h : Decreases body variant) (h' : Decreases body' variant')
    (hdone : ∀ s b, body s = .done b → body' (f s) = .done (g b))
    (hnext : ∀ s s', body s = .next s' → body' (f s) = .next (f s')) (s : σ) :
    run body' variant' h' (f s) = g (run body variant h s) := by
  apply run_induct h (P := fun s b => run body' variant' h' (f s) = g b)
  · intro s b hs
    exact run_done h' (hdone s b hs)
  · intro s s' b hs ih
    rw [run_next h' (hnext s s' hs), ih]

end Loop

end NfsMount.Lib
