import NfsMount.Lib.Action

/-!
# `NfsMount.Lib.Cost`: what an action adds to a measure of the state

`Costs f n x` says that `x` raises the measure `f` by at most `n`, however it ends. There is one
rule for each way to build an action, and the costs of the parts add up.
-/

set_option autoImplicit false

namespace NfsMount.Lib

namespace Action

variable {σ ε ε' α β ι : Type}

/-- The measure rises by at most `n`. -/
def Costs (f : σ → Nat) (n : Nat) (x : Action σ ε α) : Prop := ∀ s, f (x.run s).2 ≤ f s + n

variable {f : σ → Nat} {n k : Nat} {x : Action σ ε α}

/-- A larger bound. -/
theorem Costs.mono (h : Costs f n x) (hnk : n ≤ k) : Costs f k x :=
  fun s => (h s).trans (Nat.add_le_add_left hnk (f s))

/-- An outcome costs nothing. -/
theorem costs_lift (f : σ → Nat) (o : Outcome ε α) : Costs f 0 (lift o) := fun _ => le_rfl

/-- A change that costs nothing. -/
theorem costs_modify {g : σ → σ} (h : ∀ s, f (g s) ≤ f s) :
    Costs f 0 (modify g : Action σ ε Unit) := h

/-- Reading the state costs nothing. -/
theorem costs_get {g : σ → Action σ ε α} (h : ∀ s, Costs f n (g s)) :
    Costs f n (Action.get >>= g) := by
  intro s
  rw [run_bind_ok (run_get s)]
  exact h s s

/-- The costs of two actions add up. -/
theorem Costs.bind {g : α → Action σ ε β} (hx : Costs f n x) (hg : ∀ a, Costs f k (g a)) :
    Costs f (n + k) (x >>= g) := by
  intro s
  have h := hx s
  rcases hrun : x.run s with ⟨o, s'⟩
  rw [hrun] at h
  have hfirst : f s' ≤ f s + n := h
  have hle : f s' ≤ f s + (n + k) := hfirst.trans (Nat.add_le_add_left (Nat.le_add_right n k) (f s))
  cases o with
  | ok a =>
      rw [run_bind_ok hrun]
      have hrest : f ((g a).run s').2 ≤ f s' + k := hg a s'
      omega
  | err e => rwa [run_bind_err hrun]
  | panic => rwa [run_bind_panic hrun]

/-- Mapping an error costs nothing. -/
theorem Costs.mapError (hx : Costs f n x) (g : ε → ε') : Costs f n (mapError g x) := by
  intro s
  rw [run_mapError_snd]
  exact hx s

/-- An attempt costs what the action does. -/
theorem Costs.attempt (hx : Costs f n x) :
    Costs f n (attempt x : Action σ ε' (Except ε α)) := by
  intro s
  rw [run_attempt_snd]
  exact hx s

/-- **A list of actions.** -/
theorem Costs.after {x : ι → Action σ ε α} (h : ∀ i, Costs f n (x i)) (s : σ) (is : List ι) :
    f (Action.after x s is) ≤ f s + n * is.length := by
  induction is generalizing s with
  | nil => exact Nat.le_add_right _ _
  | cons i is ih =>
      have hfirst := h i s
      have hrest := ih ((x i).run s).2
      rw [List.length_cons, Nat.mul_succ]
      show f (Action.after x ((x i).run s).2 is) ≤ _
      omega

end Action

end NfsMount.Lib
