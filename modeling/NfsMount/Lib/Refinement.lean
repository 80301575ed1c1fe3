import NfsMount.Lib.Action

/-!
# `NfsMount.Lib.Refinement`: one action in place of another

Two actions on different states, which a relation `R` ties together. `Refines R B x y` says
that `x` does what `y` does, unless it fails: then it returns no value, and `B` holds of the
state it leaves. With a `B` that never holds the two end alike.

The rules follow the way an action is put together. A sequence refines a sequence when the
parts do, and when what comes behind a failure returns no value either (`Fails`). So a
refinement of one primitive carries over to every action that is built on it, and from there
to a list of actions that are run one after the other (`Refines.play`).
-/

set_option autoImplicit false

namespace NfsMount.Lib

namespace Action

variable {σ ρ ε ε' α β ι : Type}

/-- An error, or a panic. -/
def NoValue (o : Outcome ε α) : Prop := ∀ a, o ≠ .ok a

/-- An error is no value. -/
theorem noValue_err (e : ε) : NoValue (.err e : Outcome ε α) := by
  intro a h
  cases h

/-- A panic is no value. -/
theorem noValue_panic : NoValue (.panic : Outcome ε α) := by
  intro a h
  cases h

/-- What comes behind no value is not reached. -/
theorem noValue_bind {x : Action σ ε α} {s : σ} (h : NoValue (x.run s).1)
    (f : α → Action σ ε β) :
    NoValue ((x >>= f).run s).1 ∧ ((x >>= f).run s).2 = (x.run s).2 := by
  rcases hrun : x.run s with ⟨o, s'⟩
  rw [hrun] at h
  cases o with
  | ok a => exact absurd rfl (h a)
  | err e =>
      rw [run_bind_err hrun]
      exact ⟨noValue_err _, rfl⟩
  | panic =>
      rw [run_bind_panic hrun]
      exact ⟨noValue_panic, rfl⟩

/-- A mapped action has no value where the action has none. -/
theorem noValue_mapError {x : Action σ ε α} {s : σ} (h : NoValue (x.run s).1) (g : ε → ε') :
    NoValue ((mapError g x).run s).1 := by
  rcases hrun : x.run s with ⟨o, s'⟩
  rw [hrun] at h
  cases o with
  | ok a => exact absurd rfl (h a)
  | err e =>
      rw [run_mapError_err hrun]
      exact noValue_err _
  | panic =>
      rw [run_mapError_panic hrun]
      exact noValue_panic

/-- From a state with `B`, the action returns no value and leaves a state with `B`. -/
def Fails (B : σ → Prop) (x : Action σ ε α) : Prop :=
  ∀ s, B s → NoValue (x.run s).1 ∧ B (x.run s).2

/-- From these two states, `x` ends as `y` does and leaves related states, or it returns no
value and leaves a state with `B`. -/
def RefinesAt (R : σ → ρ → Prop) (B : σ → Prop) (x : Action σ ε α) (y : Action ρ ε α) (s : σ)
    (r : ρ) : Prop :=
  ((x.run s).1 = (y.run r).1 ∧ R (x.run s).2 (y.run r).2) ∨
    (NoValue (x.run s).1 ∧ B (x.run s).2)

/-- From all related states. -/
def Refines (R : σ → ρ → Prop) (B : σ → Prop) (x : Action σ ε α) (y : Action ρ ε α) : Prop :=
  ∀ s r, R s r → RefinesAt R B x y s r

section Rules

variable {R : σ → ρ → Prop} {B : σ → Prop} {x : Action σ ε α} {y : Action ρ ε α}

/-! ### What fails -/

/-- An error fails in any state. -/
theorem fails_lift_err (B : σ → Prop) (e : ε) : Fails B (lift (.err e) : Action σ ε α) :=
  fun _ hs => ⟨noValue_err e, hs⟩

/-- What fails first does not go on. -/
theorem Fails.bind (hx : Fails B x) (f : α → Action σ ε β) : Fails B (x >>= f) := by
  intro s hs
  obtain ⟨hno, hB⟩ := hx s hs
  obtain ⟨hno', hstate⟩ := noValue_bind hno f
  rw [hstate]
  exact ⟨hno', hB⟩

/-- What goes on in a state with `B`, and then fails. -/
theorem Fails.behind {f : α → Action σ ε β} (hx : Keeps B x) (hf : ∀ a, Fails B (f a)) :
    Fails B (x >>= f) := by
  intro s hs
  have hB := hx s hs
  rcases hrun : x.run s with ⟨o, s'⟩
  rw [hrun] at hB
  cases o with
  | ok a =>
      rw [run_bind_ok hrun]
      exact hf a s' hB
  | err e =>
      rw [run_bind_err hrun]
      exact ⟨noValue_err _, hB⟩
  | panic =>
      rw [run_bind_panic hrun]
      exact ⟨noValue_panic, hB⟩

/-- A mapped action fails where the action does. -/
theorem Fails.mapError (hx : Fails B x) (g : ε → ε') : Fails B (mapError g x) := by
  intro s hs
  obtain ⟨hno, hB⟩ := hx s hs
  rw [run_mapError_snd]
  exact ⟨noValue_mapError hno g, hB⟩

/-- A call that returns no value, with its error as a value. -/
theorem attempt_bind_behind {f : Except ε α → Action σ ε' β} {s : σ} (hno : NoValue (x.run s).1)
    (hB : B (x.run s).2) (hfail : ∀ e, Fails B (f (.error e))) :
    NoValue ((attempt x >>= f).run s).1 ∧ B ((attempt x >>= f).run s).2 := by
  rcases hrun : x.run s with ⟨o, s'⟩
  rw [hrun] at hno hB
  cases o with
  | ok a => exact absurd rfl (hno a)
  | err e =>
      rw [run_bind_ok (run_attempt_err hrun)]
      exact hfail e s' hB
  | panic =>
      rw [run_bind_panic (run_attempt_panic hrun)]
      exact ⟨noValue_panic, hB⟩

/-- In a state with `B`, a call that fails does so with its error as a value too. -/
theorem Fails.attempt_bind {f : Except ε α → Action σ ε' β} (hx : Fails B x)
    (hfail : ∀ e, Fails B (f (.error e))) : Fails B (attempt x >>= f) := by
  intro s hs
  obtain ⟨hno, hB⟩ := hx s hs
  exact attempt_bind_behind hno hB hfail

/-! ### What refines -/

/-- The same outcome, in related states. -/
theorem refines_lift (R : σ → ρ → Prop) (B : σ → Prop) (o : Outcome ε α) :
    Refines R B (lift o) (lift o) :=
  fun _ _ hR => .inl ⟨rfl, hR⟩

/-- Changes that keep the relation. -/
theorem refines_modify {f : σ → σ} {g : ρ → ρ} (h : ∀ s r, R s r → R (f s) (g r)) :
    Refines R B (modify f : Action σ ε Unit) (modify g) :=
  fun s r hR => .inl ⟨rfl, h s r hR⟩

/-- What the two do may depend on the states they start in. -/
theorem refines_get {f : σ → Action σ ε α} {g : ρ → Action ρ ε α}
    (h : ∀ s r, R s r → RefinesAt R B (f s) (g r) s r) :
    Refines R B (Action.get >>= f) (Action.get >>= g) := by
  intro s r hR
  rw [RefinesAt, run_bind_ok (run_get s), run_bind_ok (run_get r)]
  exact h s r hR

/-- Parts that refine, one behind the other. -/
theorem Refines.bind {f : α → Action σ ε β} {g : α → Action ρ ε β} (hx : Refines R B x y)
    (hf : ∀ a, Refines R B (f a) (g a)) : Refines R B (x >>= f) (y >>= g) := by
  intro s r hR
  rw [RefinesAt]
  rcases hx s r hR with ⟨heq, hR'⟩ | ⟨hno, hB⟩
  · rcases hrun : x.run s with ⟨o, s'⟩
    rcases hrun' : y.run r with ⟨o', r'⟩
    rw [hrun, hrun'] at heq hR'
    obtain rfl : o = o' := heq
    cases o with
    | ok a =>
        rw [run_bind_ok hrun, run_bind_ok hrun']
        exact hf a s' r' hR'
    | err e =>
        rw [run_bind_err hrun, run_bind_err hrun']
        exact .inl ⟨rfl, hR'⟩
    | panic =>
        rw [run_bind_panic hrun, run_bind_panic hrun']
        exact .inl ⟨rfl, hR'⟩
  · obtain ⟨hno', hstate⟩ := noValue_bind hno f
    rw [hstate]
    exact .inr ⟨hno', hB⟩

/-- A mapped action refines a mapped one. -/
theorem Refines.mapError (hx : Refines R B x y) (g : ε → ε') :
    Refines R B (mapError g x) (mapError g y) := by
  intro s r hR
  rw [RefinesAt, run_mapError_snd, run_mapError_snd]
  rcases hx s r hR with ⟨heq, hR'⟩ | ⟨hno, hB⟩
  · exact .inl ⟨run_mapError_congr heq g, hR'⟩
  · exact .inr ⟨noValue_mapError hno g, hB⟩

/-- A call whose error is kept as a value. Behind an error that `y` did not have, `x` must
return no value. -/
theorem Refines.attempt_bind {f : Except ε α → Action σ ε' β} {g : Except ε α → Action ρ ε' β}
    (hx : Refines R B x y) (hf : ∀ o, Refines R B (f o) (g o))
    (hfail : ∀ e, Fails B (f (.error e))) :
    Refines R B (attempt x >>= f) (attempt y >>= g) := by
  intro s r hR
  rw [RefinesAt]
  rcases hx s r hR with ⟨heq, hR'⟩ | ⟨hno, hB⟩
  · rcases hrun : x.run s with ⟨o, s'⟩
    rcases hrun' : y.run r with ⟨o', r'⟩
    rw [hrun, hrun'] at heq hR'
    obtain rfl : o = o' := heq
    cases o with
    | ok a =>
        rw [run_bind_ok (run_attempt_ok hrun), run_bind_ok (run_attempt_ok hrun')]
        exact hf _ s' r' hR'
    | err e =>
        rw [run_bind_ok (run_attempt_err hrun), run_bind_ok (run_attempt_err hrun')]
        exact hf _ s' r' hR'
    | panic =>
        rw [run_bind_panic (run_attempt_panic hrun), run_bind_panic (run_attempt_panic hrun')]
        exact .inl ⟨rfl, hR'⟩
  · exact .inr (attempt_bind_behind hno hB hfail)

end Rules

/-! ### One action after the other -/

/-- The outcomes `xs` are the outcomes `ys` up to some place, and no values behind it. -/
def UpToFailure (xs ys : List (Outcome ε α)) : Prop :=
  ∃ k, xs.take k = ys.take k ∧ ∀ o ∈ xs.drop k, NoValue o

/-- A list is the same as itself, with no failure. -/
theorem upToFailure_refl (xs : List (Outcome ε α)) : UpToFailure xs xs := by
  refine ⟨xs.length, rfl, ?_⟩
  rw [List.drop_length]
  exact List.forall_mem_nil _

/-- Where nothing succeeds any more, no action of a list does. -/
theorem fails_play {B : σ → Prop} {x : ι → Action σ ε α} {is : List ι}
    (hx : ∀ i ∈ is, Fails B (x i)) {s : σ} (hs : B s) :
    ∀ o ∈ play x s is, NoValue o := by
  induction is generalizing s with
  | nil => exact List.forall_mem_nil _
  | cons i is ih =>
      obtain ⟨hno, hB⟩ := hx i List.mem_cons_self s hs
      rw [play, List.forall_mem_cons]
      exact ⟨hno, ih (fun j hj => hx j (List.mem_cons_of_mem i hj)) hB⟩

/-- **A list of actions.** Each of them refines its counterpart. Then all end alike, or they end
alike up to one that fails and leaves a state with `B`, and no later one returns a value. -/
theorem Refines.play {R : σ → ρ → Prop} {B : σ → Prop} {x : ι → Action σ ε α}
    {y : ι → Action ρ ε α} {is : List ι} (h : ∀ i ∈ is, Refines R B (x i) (y i))
    (hfail : ∀ i ∈ is, Fails B (x i)) {s : σ} {r : ρ} (hR : R s r) :
    Action.play x s is = Action.play y r is ∨
      (∃ s', B s') ∧ UpToFailure (Action.play x s is) (Action.play y r is) := by
  induction is generalizing s r with
  | nil => exact .inl rfl
  | cons i is ih =>
      have hfail' : ∀ j ∈ is, Fails B (x j) := fun j hj => hfail j (List.mem_cons_of_mem i hj)
      rw [Action.play, Action.play]
      rcases h i List.mem_cons_self s r hR with ⟨heq, hR'⟩ | ⟨hno, hB⟩
      · rw [heq]
        rcases ih (fun j hj => h j (List.mem_cons_of_mem i hj)) hfail' hR' with
          hall | ⟨hB, k, htake, hdrop⟩
        · exact .inl (congrArg _ hall)
        · refine .inr ⟨hB, k + 1, ?_, ?_⟩
          · rw [List.take_succ_cons, List.take_succ_cons, htake]
          · rwa [List.drop_succ_cons]
      · -- From this action on nothing is returned.
        refine .inr ⟨⟨_, hB⟩, 0, rfl, ?_⟩
        rw [List.drop_zero, List.forall_mem_cons]
        exact ⟨hno, fails_play hfail' hB⟩

/-- If no failure left a state with `B`, then all end alike and leave related states. -/
theorem Refines.play_after {R : σ → ρ → Prop} {B : σ → Prop} {x : ι → Action σ ε α}
    {y : ι → Action ρ ε α} {is : List ι} (h : ∀ i ∈ is, Refines R B (x i) (y i))
    (hfail : ∀ i ∈ is, Fails B (x i)) {s : σ} {r : ρ} (hR : R s r) (hB : ¬ B (after x s is)) :
    Action.play x s is = Action.play y r is ∧ R (after x s is) (after y r is) := by
  induction is generalizing s r with
  | nil => exact ⟨rfl, hR⟩
  | cons i is ih =>
      have hfail' : ∀ j ∈ is, Fails B (x j) := fun j hj => hfail j (List.mem_cons_of_mem i hj)
      rcases h i List.mem_cons_self s r hR with ⟨heq, hR'⟩ | ⟨-, hB'⟩
      · obtain ⟨hplay, hlast⟩ := ih (fun j hj => h j (List.mem_cons_of_mem i hj)) hfail' hR' hB
        rw [Action.play, Action.play, heq, hplay]
        exact ⟨rfl, hlast⟩
      · have hkept : B (after x (x i s).2 is) :=
          Keeps.after (fun j hj s hs => (hfail' j hj s hs).2) hB'
        exact hB.elim hkept

end Action

end NfsMount.Lib
