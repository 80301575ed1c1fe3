import NfsMount.Lib.Action

/-!
# `NfsMount.Lib.Triple`: pre- and postconditions of actions

`Triple P x Q E` says what an action leaves behind that starts in a state with `P`: `Q` of the
value and the state when it returns a value, and `E` of the state when it ends in an error or a
panic. There is one rule for each way to build an action. `Triple.after` is the rule for actions
that are run one after the other, where the condition may count those before.
-/

set_option autoImplicit false

namespace NfsMount.Lib

namespace Action

variable {σ ε ε' α β : Type}

/-- What holds at the end: `Q` behind a value, and `E` behind an error or a panic. -/
def Ends (Q : α → σ → Prop) (E : σ → Prop) : Outcome ε α × σ → Prop
  | (.ok a, s) => Q a s
  | (.err _, s) => E s
  | (.panic, s) => E s

/-- What holds however an action ends. -/
theorem Ends.snd {Q : σ → Prop} {p : Outcome ε α × σ} (h : Ends (fun _ => Q) Q p) : Q p.2 := by
  obtain ⟨o, s⟩ := p
  cases o with
  | ok a => exact h
  | err e => exact h
  | panic => exact h

/-- The condition that an action leaves behind, when it starts with `P`. -/
def Triple (P : σ → Prop) (x : Action σ ε α) (Q : α → σ → Prop) (E : σ → Prop) : Prop :=
  ∀ s, P s → Ends Q E (x.run s)

variable {P P' : σ → Prop} {x : Action σ ε α} {Q Q' : α → σ → Prop} {R : β → σ → Prop}
  {E E' : σ → Prop}

/-- A stronger precondition, and weaker postconditions. -/
theorem Triple.conseq (h : Triple P x Q E) (hP : ∀ s, P' s → P s) (hQ : ∀ a s, Q a s → Q' a s)
    (hE : ∀ s, E s → E' s) : Triple P' x Q' E' := by
  intro s hs
  have hx := h s (hP s hs)
  rcases hrun : x.run s with ⟨o, s'⟩
  rw [hrun] at hx
  cases o with
  | ok a => exact hQ a s' hx
  | err e => exact hE s' hx
  | panic => exact hE s' hx

/-- An outcome leaves the state as it is. -/
theorem triple_lift {o : Outcome ε α} (h : ∀ s, P s → Ends Q E (o, s)) :
    Triple P (lift o) Q E := h

/-- An outcome alone keeps what holds. -/
theorem triple_lift_self (E : σ → Prop) (o : Outcome ε α) : Triple E (lift o) (fun _ => E) E := by
  intro s hs
  cases o with
  | ok a => exact hs
  | err e => exact hs
  | panic => exact hs

/-- A part of the precondition that is not about the state. -/
theorem triple_pure {φ : Prop} (h : φ → Triple P x Q E) : Triple (fun s => φ ∧ P s) x Q E :=
  fun s hs => h hs.1 s hs.2

/-- A condition with a witness, taken at each one. -/
theorem triple_exists {γ : Type} {P : γ → σ → Prop} (h : ∀ g, Triple (P g) x Q E) :
    Triple (fun s => ∃ g, P g s) x Q E := by
  rintro s ⟨g, hs⟩
  exact h g s hs

/-- A change of the state. -/
theorem triple_modify {f : σ → σ} {Q : Unit → σ → Prop} (h : ∀ s, P s → Q () (f s)) :
    Triple P (modify f : Action σ ε Unit) Q E := h

/-- What follows may depend on the state it starts in. -/
theorem triple_get {f : σ → Action σ ε α} (h : ∀ s, P s → Ends Q E ((f s).run s)) :
    Triple P (get >>= f) Q E := by
  intro s hs
  rw [run_bind_ok (run_get s)]
  exact h s hs

/-- The second action starts with what the first one leaves behind a value. -/
theorem Triple.bind {f : α → Action σ ε β} (hx : Triple P x Q E)
    (hf : ∀ a, Triple (Q a) (f a) R E) : Triple P (x >>= f) R E := by
  intro s hs
  have h := hx s hs
  rcases hrun : x.run s with ⟨o, s'⟩
  rw [hrun] at h
  cases o with
  | ok a =>
      rw [run_bind_ok hrun]
      exact hf a s' h
  | err e =>
      rw [run_bind_err hrun]
      exact h
  | panic =>
      rw [run_bind_panic hrun]
      exact h

/-- A mapped error ends where the error did. -/
theorem Triple.mapError (hx : Triple P x Q E) (g : ε → ε') : Triple P (mapError g x) Q E := by
  intro s hs
  have h := hx s hs
  rcases hrun : x.run s with ⟨o, s'⟩
  rw [hrun] at h
  cases o with
  | ok a =>
      rw [run_mapError_ok hrun]
      exact h
  | err e =>
      rw [run_mapError_err hrun]
      exact h
  | panic =>
      rw [run_mapError_panic hrun]
      exact h

/-- With its error as a value, an action leaves the same condition behind both. -/
theorem Triple.attempt (hx : Triple P x (fun _ => E) E) :
    Triple P (attempt x : Action σ ε' (Except ε α)) (fun _ => E) E := by
  intro s hs
  have h := hx s hs
  rcases hrun : x.run s with ⟨o, s'⟩
  rw [hrun] at h
  cases o with
  | ok a =>
      rw [run_attempt_ok hrun]
      exact h
  | err e =>
      rw [run_attempt_err hrun]
      exact h
  | panic =>
      rw [run_attempt_panic hrun]
      exact h

/-- One action after the other. The `k`-th condition is what holds when `k` actions were run. -/
theorem Triple.after {ι : Type} {P : Nat → σ → Prop} {x : ι → Action σ ε α} {is : List ι} {k : Nat}
    (h : ∀ i ∈ is, ∀ j < k + is.length,
      Triple (P j) (x i) (fun _ => P (j + 1)) (P (j + 1)))
    {s : σ} (hs : P k s) : P (k + is.length) (Action.after x s is) := by
  induction is generalizing k s with
  | nil => exact hs
  | cons i is ih =>
      have hlen : k + (i :: is).length = k + 1 + is.length := by rw [List.length_cons]; omega
      have hfirst := (h i List.mem_cons_self k (by omega) s hs).snd
      rw [hlen] at h ⊢
      exact ih (fun j hj n hn => h j (List.mem_cons_of_mem i hj) n hn) hfirst

end Action

end NfsMount.Lib
