import NfsMount.Lib.Action

/-!
# `NfsMount.Lib.Fork`: two runs of a program that may part

The same program runs on two states. As long as these are related by `R`, the runs go on alike.
Where the states first answer differently the runs part, and from there on they have nothing to
do with each other. `Forks R K x y` says that what held at that place, `K`, still holds at the
end, whatever the two do behind it.

The rules follow the way an action is put together. `Forks.after` is about a list of actions.
-/

set_option autoImplicit false

namespace NfsMount.Lib

namespace Action

variable {σ ρ ε ε' α β ι : Type}

/-- The two end alike in related states, or they parted. What holds of two runs that parted is
kept by either of them. -/
structure Forks (R K : σ → ρ → Prop) (x : Action σ ε α) (y : Action ρ ε α) : Prop where
  run : ∀ s r, R s r →
    ((x.run s).1 = (y.run r).1 ∧ R (x.run s).2 (y.run r).2) ∨ K (x.run s).2 (y.run r).2
  left : ∀ r, Keeps (fun s => K s r) x
  right : ∀ s, Keeps (fun r => K s r) y

variable {R K : σ → ρ → Prop} {x : Action σ ε α} {y : Action ρ ε α}

/-- An outcome is the same in related states. -/
theorem forks_lift (R K : σ → ρ → Prop) (o : Outcome ε α) : Forks R K (lift o) (lift o) where
  run _ _ hR := .inl ⟨rfl, hR⟩
  left _ := keeps_lift _ o
  right _ := keeps_lift _ o

/-- A change that keeps both relations. -/
theorem forks_modify {f : σ → σ} {g : ρ → ρ} (hR : ∀ s r, R s r → R (f s) (g r))
    (hf : ∀ s r, K s r → K (f s) r) (hg : ∀ s r, K s r → K s (g r)) :
    Forks R K (modify f : Action σ ε Unit) (modify g) where
  run s r h := .inl ⟨rfl, hR s r h⟩
  left r s h := hf s r h
  right s r h := hg s r h

/-- What the two do may depend on the states they start in. -/
theorem forks_get {f : σ → Action σ ε α} {g : ρ → Action ρ ε α}
    (h : ∀ s r, R s r → Forks R K (f s) (g r)) (hf : ∀ s r, Keeps (fun s => K s r) (f s))
    (hg : ∀ r s, Keeps (fun r => K s r) (g r)) :
    Forks R K (Action.get >>= f) (Action.get >>= g) where
  run s r hR := by
    rw [run_bind_ok (run_get s), run_bind_ok (run_get r)]
    exact (h s r hR).run s r hR
  left r s hs := by
    show K ((get >>= f).run s).2 r
    rw [run_bind_ok (run_get s)]
    exact hf s r s hs
  right s r hr := by
    show K s ((get >>= g).run r).2
    rw [run_bind_ok (run_get r)]
    exact hg r s r hr

/-- Two actions that fork, one behind the other. -/
theorem Forks.bind {f : α → Action σ ε β} {g : α → Action ρ ε β} (hx : Forks R K x y)
    (hf : ∀ a, Forks R K (f a) (g a)) : Forks R K (x >>= f) (y >>= g) where
  run s r hR := by
    rcases hx.run s r hR with ⟨heq, hR'⟩ | hK
    · rcases hrun : x.run s with ⟨o, s'⟩
      rcases hrun' : y.run r with ⟨o', r'⟩
      rw [hrun, hrun'] at heq hR'
      obtain rfl : o = o' := heq
      cases o with
      | ok a =>
          rw [run_bind_ok hrun, run_bind_ok hrun']
          exact (hf a).run s' r' hR'
      | err e =>
          rw [run_bind_err hrun, run_bind_err hrun']
          exact .inl ⟨rfl, hR'⟩
      | panic =>
          rw [run_bind_panic hrun, run_bind_panic hrun']
          exact .inl ⟨rfl, hR'⟩
    · -- One after the other, each of the two goes on to its end.
      right
      have hleft := keeps_behind (fun a => (hf a).left _) hK
      exact keeps_behind (fun a => (hf a).right _) hleft
  left r := (hx.left r).bind fun a => (hf a).left r
  right s := (hx.right s).bind fun a => (hf a).right s

/-- Mapping an error does not part anything. -/
theorem Forks.mapError (hx : Forks R K x y) (g : ε → ε') :
    Forks R K (mapError g x) (mapError g y) where
  run s r hR := by
    rw [run_mapError_snd, run_mapError_snd]
    rcases hx.run s r hR with ⟨heq, hR'⟩ | hK
    · exact .inl ⟨run_mapError_congr heq g, hR'⟩
    · exact .inr hK
  left r := (hx.left r).mapError g
  right s := (hx.right s).mapError g

/-- An attempt parts where the action does. -/
theorem Forks.attempt (hx : Forks R K x y) :
    Forks R K (attempt x : Action σ ε' (Except ε α)) (attempt y) where
  run s r hR := by
    rw [run_attempt_snd, run_attempt_snd]
    rcases hx.run s r hR with ⟨heq, hR'⟩ | hK
    · exact .inl ⟨run_attempt_congr heq, hR'⟩
    · exact .inr hK
  left r := (hx.left r).attempt
  right s := (hx.right s).attempt

/-- **A list of actions.** The states that are left are related, or the runs parted. -/
theorem Forks.after {x : ι → Action σ ε α} {y : ι → Action ρ ε α} {is : List ι}
    (h : ∀ i ∈ is, Forks R K (x i) (y i)) {s : σ} {r : ρ} (hR : R s r) :
    R (Action.after x s is) (Action.after y r is) ∨
      K (Action.after x s is) (Action.after y r is) := by
  induction is generalizing s r with
  | nil => exact .inl hR
  | cons i is ih =>
      have h' : ∀ j ∈ is, Forks R K (x j) (y j) := fun j hj => h j (List.mem_cons_of_mem i hj)
      rcases (h i List.mem_cons_self).run s r hR with ⟨-, hR'⟩ | hK
      · exact ih h' hR'
      · right
        have hleft := Keeps.after (fun j hj => (h' j hj).left _) hK
        exact Keeps.after (fun j hj => (h' j hj).right _) hleft

end Action

end NfsMount.Lib
