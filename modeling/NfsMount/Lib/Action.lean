import NfsMount.Lib.Outcome

/-!
# `NfsMount.Lib.Action`: fallible calls on a state

An `Action σ ε α` runs on a state. It ends in an outcome and leaves a state, whatever the
outcome: an error or a panic does not undo what was done before it. This is what `&mut self`
methods do that return a `Result` and can panic.

`attempt` is the call whose result is kept instead of being propagated. The bind lemmas say
how a sequence ends, by how its first action ends. `Keeps` is the rule for what survives an
action whatever its outcome.
-/

set_option autoImplicit false

namespace NfsMount.Lib

/-- A call on a state of type `σ`. -/
def Action (σ ε α : Type) : Type := σ → Outcome ε α × σ

namespace Action

variable {σ ρ ε ε' α β : Type}

/-- The outcome on a state, and the state that is left. -/
def run (x : Action σ ε α) (s : σ) : Outcome ε α × σ := x s

instance : Monad (Action σ ε) where
  pure a := fun s => (.ok a, s)
  bind x f := fun s =>
    match x s with
    | (.ok a, s') => f a s'
    | (.err e, s') => (.err e, s')
    | (.panic, s') => (.panic, s')

/-- The outcome of something that does not touch the state. -/
def lift (o : Outcome ε α) : Action σ ε α := fun s => (o, s)

/-- The state. -/
def get : Action σ ε σ := fun s => (.ok s, s)

/-- A change of the state. -/
def modify (f : σ → σ) : Action σ ε Unit := fun s => (.ok (), f s)

/-- The result of a call, with its error as a value. -/
def attempt (x : Action σ ε α) : Action σ ε' (Except ε α) := fun s =>
  match x s with
  | (.ok a, s') => (.ok (.ok a), s')
  | (.err e, s') => (.ok (.error e), s')
  | (.panic, s') => (.panic, s')

/-- A call whose error is converted on the way out. -/
def mapError (g : ε → ε') (x : Action σ ε α) : Action σ ε' α := fun s =>
  match x s with
  | (.ok a, s') => (.ok a, s')
  | (.err e, s') => (.err (g e), s')
  | (.panic, s') => (.panic, s')

variable {x : Action σ ε α} {y : Action ρ ε α} {f : α → Action σ ε β} {s s' : σ} {r : ρ}

/-- A value leaves the state. -/
@[simp] theorem run_pure (a : α) (s : σ) : (pure a : Action σ ε α).run s = (.ok a, s) := rfl

/-- An outcome leaves the state. -/
@[simp] theorem run_lift (o : Outcome ε α) (s : σ) :
    (lift o : Action σ ε α).run s = (o, s) := rfl

/-- The state is read, and stays. -/
@[simp] theorem run_get (s : σ) : (get : Action σ ε σ).run s = (.ok s, s) := rfl

/-- The state is changed. -/
@[simp] theorem run_modify (g : σ → σ) (s : σ) :
    (modify g : Action σ ε Unit).run s = (.ok (), g s) := rfl

/-- Behind a value the action goes on. -/
theorem run_bind_ok {a : α} (h : x.run s = (.ok a, s')) : (x >>= f).run s = (f a).run s' := by
  show (match x s with | (.ok a, s') => f a s' | (.err e, s') => _ | (.panic, s') => _) = _
  rw [show x s = (.ok a, s') from h]
  rfl

/-- Behind an error it does not. -/
theorem run_bind_err {e : ε} (h : x.run s = (.err e, s')) :
    (x >>= f).run s = (.err e, s') := by
  show (match x s with | (.ok a, s') => f a s' | (.err e, s') => _ | (.panic, s') => _) = _
  rw [show x s = (.err e, s') from h]

/-- Behind a panic it does not. -/
theorem run_bind_panic (h : x.run s = (.panic, s')) : (x >>= f).run s = (.panic, s') := by
  show (match x s with | (.ok a, s') => f a s' | (.err e, s') => _ | (.panic, s') => _) = _
  rw [show x s = (.panic, s') from h]

/-- An attempt that succeeds. -/
theorem run_attempt_ok {a : α} (h : x.run s = (.ok a, s')) :
    (attempt x : Action σ ε' (Except ε α)).run s = (.ok (.ok a), s') := by
  show (match x s with | (.ok a, s') => _ | (.err e, s') => _ | (.panic, s') => _) = _
  rw [show x s = (.ok a, s') from h]

/-- An attempt that fails is a value, the error. -/
theorem run_attempt_err {e : ε} (h : x.run s = (.err e, s')) :
    (attempt x : Action σ ε' (Except ε α)).run s = (.ok (.error e), s') := by
  show (match x s with | (.ok a, s') => _ | (.err e, s') => _ | (.panic, s') => _) = _
  rw [show x s = (.err e, s') from h]

/-- An attempt does not catch a panic. -/
theorem run_attempt_panic (h : x.run s = (.panic, s')) :
    (attempt x : Action σ ε' (Except ε α)).run s = (.panic, s') := by
  show (match x s with | (.ok a, s') => _ | (.err e, s') => _ | (.panic, s') => _) = _
  rw [show x s = (.panic, s') from h]

/-- Catching the error of a call changes nothing about the state that it leaves. -/
theorem run_attempt_snd (x : Action σ ε α) (s : σ) :
    ((attempt x : Action σ ε' (Except ε α)).run s).2 = (x.run s).2 := by
  rcases hrun : x.run s with ⟨o, s'⟩
  cases o with
  | ok a => rw [run_attempt_ok hrun]
  | err e => rw [run_attempt_err hrun]
  | panic => rw [run_attempt_panic hrun]

/-- Attempts are the same where the actions are. -/
theorem run_attempt_congr (h : (x.run s).1 = (y.run r).1) :
    ((attempt x : Action σ ε' (Except ε α)).run s).1 = ((attempt y).run r).1 := by
  rcases hrun : x.run s with ⟨o, s'⟩
  rcases hrun' : y.run r with ⟨o', r'⟩
  rw [hrun, hrun'] at h
  obtain rfl : o = o' := h
  cases o with
  | ok a => rw [run_attempt_ok hrun, run_attempt_ok hrun']
  | err e => rw [run_attempt_err hrun, run_attempt_err hrun']
  | panic => rw [run_attempt_panic hrun, run_attempt_panic hrun']

/-- A value is not mapped. -/
theorem run_mapError_ok {g : ε → ε'} {a : α} (h : x.run s = (.ok a, s')) :
    (mapError g x).run s = (.ok a, s') := by
  show (match x s with | (.ok a, s') => _ | (.err e, s') => _ | (.panic, s') => _) = _
  rw [show x s = (.ok a, s') from h]

/-- An error is mapped. -/
theorem run_mapError_err {g : ε → ε'} {e : ε} (h : x.run s = (.err e, s')) :
    (mapError g x).run s = (.err (g e), s') := by
  show (match x s with | (.ok a, s') => _ | (.err e, s') => _ | (.panic, s') => _) = _
  rw [show x s = (.err e, s') from h]

/-- A panic is not mapped. -/
theorem run_mapError_panic {g : ε → ε'} (h : x.run s = (.panic, s')) :
    (mapError g x).run s = (.panic, s') := by
  show (match x s with | (.ok a, s') => _ | (.err e, s') => _ | (.panic, s') => _) = _
  rw [show x s = (.panic, s') from h]

/-- The conversion of an error changes nothing about the state. -/
theorem run_mapError_snd (g : ε → ε') (x : Action σ ε α) (s : σ) :
    ((mapError g x).run s).2 = (x.run s).2 := by
  rcases hrun : x.run s with ⟨o, s'⟩
  cases o with
  | ok a => rw [run_mapError_ok hrun]
  | err e => rw [run_mapError_err hrun]
  | panic => rw [run_mapError_panic hrun]

/-- Mapped actions are the same where the actions are. -/
theorem run_mapError_congr (h : (x.run s).1 = (y.run r).1) (g : ε → ε') :
    ((mapError g x).run s).1 = ((mapError g y).run r).1 := by
  rcases hrun : x.run s with ⟨o, s'⟩
  rcases hrun' : y.run r with ⟨o', r'⟩
  rw [hrun, hrun'] at h
  obtain rfl : o = o' := h
  cases o with
  | ok a => rw [run_mapError_ok hrun, run_mapError_ok hrun']
  | err e => rw [run_mapError_err hrun, run_mapError_err hrun']
  | panic => rw [run_mapError_panic hrun, run_mapError_panic hrun']

/-! ### Invariants -/

/-- However the action ends, `I` still holds of the state. -/
def Keeps (I : σ → Prop) (x : Action σ ε α) : Prop := ∀ s, I s → I (x.run s).2

/-- An outcome keeps everything. -/
theorem keeps_lift (I : σ → Prop) (o : Outcome ε α) : Keeps I (lift o : Action σ ε α) :=
  fun _ h => h

/-- What the second part of a sequence keeps, if the first part leaves it. -/
theorem keeps_behind {I : σ → Prop} (hf : ∀ a, Keeps I (f a)) (hs : I (x.run s).2) :
    I ((x >>= f).run s).2 := by
  rcases hrun : x.run s with ⟨o, s'⟩
  rw [hrun] at hs
  cases o with
  | ok a =>
      rw [run_bind_ok hrun]
      exact hf a s' hs
  | err e => rwa [run_bind_err hrun]
  | panic => rwa [run_bind_panic hrun]

/-- A sequence keeps what all its parts keep. -/
theorem Keeps.bind {I : σ → Prop} (hx : Keeps I x) (hf : ∀ a, Keeps I (f a)) :
    Keeps I (x >>= f) := by
  intro s hs
  exact keeps_behind hf (hx s hs)

/-- An attempt keeps what the action does. -/
theorem Keeps.attempt {I : σ → Prop} (hx : Keeps I x) :
    Keeps I (attempt x : Action σ ε' (Except ε α)) := by
  intro s hs
  rw [run_attempt_snd]
  exact hx s hs

/-- A mapped action keeps what the action does. -/
theorem Keeps.mapError {I : σ → Prop} (hx : Keeps I x) (g : ε → ε') :
    Keeps I (mapError g x) := by
  intro s hs
  rw [run_mapError_snd]
  exact hx s hs

/-! ### One action after the other -/

variable {ι : Type}

/-- How the actions end that are run for the inputs, one after the other and whatever the
outcomes. -/
def play (x : ι → Action σ ε α) : σ → List ι → List (Outcome ε α)
  | _, [] => []
  | s, i :: is => ((x i).run s).1 :: play x ((x i).run s).2 is

/-- The state that is left by the actions that are run for the inputs. -/
def after (x : ι → Action σ ε α) : σ → List ι → σ
  | s, [] => s
  | s, i :: is => after x ((x i).run s).2 is

/-- What every one of the actions keeps holds of the state that is left. -/
theorem Keeps.after {I : σ → Prop} {x : ι → Action σ ε α} {is : List ι}
    (h : ∀ i ∈ is, Keeps I (x i)) {s : σ} (hs : I s) : I (Action.after x s is) := by
  induction is generalizing s with
  | nil => exact hs
  | cons i is ih =>
      exact ih (fun j hj => h j (List.mem_cons_of_mem i hj)) (h i List.mem_cons_self s hs)

end Action

end NfsMount.Lib
