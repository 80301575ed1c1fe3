import Mathlib.Data.Option.Basic

/-!
# `NfsMount.Lib.Run`: runs of a partial step function

`step s e` is the state after the event `e`, or `none` when `e` cannot happen in `s`. `run`
plays a list of events. `Along P` says that `P` holds of every state and event of a run, in
the order in which they occur. The rules below carry an invariant from one step to a whole
run.
-/

set_option autoImplicit false

namespace NfsMount.Lib

variable {σ ε : Type}

/-- The state after a list of events, if each of them can happen. -/
def run (step : σ → ε → Option σ) : σ → List ε → Option σ
  | s, [] => some s
  | s, e :: es =>
      match step s e with
      | none => none
      | some s' => run step s' es

/-- `P` holds of every state and event of the run. -/
def Along (step : σ → ε → Option σ) (P : σ → ε → Prop) : σ → List ε → Prop
  | _, [] => True
  | s, e :: es => P s e ∧ ∀ s', step s e = some s' → Along step P s' es

variable {step : σ → ε → Option σ} {P : σ → ε → Prop} {Inv : σ → Prop}

/-- A run is a first step, and a run of the rest. -/
theorem run_cons_eq_some {s t : σ} {e : ε} {es : List ε} :
    run step s (e :: es) = some t ↔ ∃ s', step s e = some s' ∧ run step s' es = some t := by
  cases h : step s e with
  | none => simp [run, h]
  | some s' => simp [run, h]

/-- A condition along a run, when the first event can happen. -/
theorem along_cons_of_eq_some {s t : σ} {e : ε} {es : List ε} (h : step s e = some t) :
    Along step P s (e :: es) ↔ P s e ∧ Along step P t es := by
  refine and_congr_right fun _ => ⟨fun hes => hes t h, fun hes s' hs' => ?_⟩
  obtain rfl := Option.some.inj (h.symm.trans hs')
  exact hes

/-- A condition on the events alone. -/
theorem along_of_forall {Q : ε → Prop} {s : σ} {es : List ε} (h : ∀ e ∈ es, Q e) :
    Along step (fun _ e => Q e) s es := by
  induction es generalizing s with
  | nil => trivial
  | cons e es ih =>
      exact ⟨h e List.mem_cons_self, fun _ _ => ih fun e' he => h e' (List.mem_cons_of_mem e he)⟩

/-- Two conditions along a run. -/
theorem Along.and {Q : σ → ε → Prop} {s : σ} {es : List ε} (hP : Along step P s es)
    (hQ : Along step Q s es) : Along step (fun s e => P s e ∧ Q s e) s es := by
  induction es generalizing s with
  | nil => trivial
  | cons e es ih =>
      exact ⟨⟨hP.1, hQ.1⟩, fun s' h => ih (hP.2 s' h) (hQ.2 s' h)⟩

/-- A condition along a run is checked by playing the run. -/
instance decidableAlong [∀ s e, Decidable (P s e)] :
    (s : σ) → (es : List ε) → Decidable (Along step P s es)
  | _, [] => isTrue trivial
  | s, e :: es =>
      match h : step s e with
      | none => decidable_of_iff (P s e) (by simp [Along, h])
      | some t =>
          have := decidableAlong t es
          decidable_of_iff (P s e ∧ Along step P t es) (along_cons_of_eq_some h).symm

/-- A run of a concatenation is a run of the first part and a run of the second. -/
theorem run_append {s t : σ} {es fs : List ε} :
    run step s (es ++ fs) = some t ↔ ∃ s', run step s es = some s' ∧ run step s' fs = some t := by
  induction es generalizing s with
  | nil => simp [run]
  | cons e es ih =>
      simp only [List.cons_append, run_cons_eq_some, ih]
      constructor
      · rintro ⟨s', hs', u, hu, ht⟩
        exact ⟨u, ⟨s', hs', hu⟩, ht⟩
      · rintro ⟨u, ⟨s', hs', hu⟩, ht⟩
        exact ⟨s', hs', u, hu, ht⟩

/-- The first events of a run are a run. -/
theorem run_isSome_of_first {s : σ} {es fs : List ε} (hfirst : es <+: fs)
    (h : (run step s fs).isSome) : (run step s es).isSome := by
  obtain ⟨rest, rfl⟩ := hfirst
  obtain ⟨t, ht⟩ := Option.isSome_iff_exists.mp h
  obtain ⟨s', hs', -⟩ := run_append.mp ht
  exact Option.isSome_iff_exists.mpr ⟨s', hs'⟩

/-- The steps, with an observer beside them that sees the events alone. -/
def alongside {ρ : Type} (step : σ → ε → Option σ) (ref : ρ → ε → ρ) :
    σ × ρ → ε → Option (σ × ρ)
  | (s, r), e => (step s e).map fun s' => (s', ref r e)

/-- The observer does not disturb the run. -/
theorem run_alongside {ρ : Type} {ref : ρ → ε → ρ} {s t : σ} {r : ρ} {es : List ε}
    (h : run step s es = some t) :
    run (alongside step ref) (s, r) es = some (t, es.foldl ref r) := by
  induction es generalizing s r with
  | nil =>
      obtain rfl := Option.some.inj h
      rfl
  | cons e es ih =>
      obtain ⟨s', hs', ht⟩ := run_cons_eq_some.mp h
      refine run_cons_eq_some.mpr ⟨(s', ref r e), ?_, ih ht⟩
      rw [alongside, hs', Option.map_some]

/-- An invariant that is kept by the steps with `P` is kept by runs along `P`. -/
theorem run_invariant_along
    (hstep : ∀ s e s', Inv s → P s e → step s e = some s' → Inv s') {s t : σ} {es : List ε}
    (hs : Inv s) (hP : Along step P s es) (h : run step s es = some t) : Inv t := by
  induction es generalizing s with
  | nil =>
      obtain rfl := Option.some.inj h
      exact hs
  | cons e es ih =>
      obtain ⟨s', hs', ht⟩ := run_cons_eq_some.mp h
      exact ih (hstep s e s' hs hP.1 hs') (hP.2 s' hs') ht

/-- An invariant that every step keeps is kept by runs. -/
theorem run_invariant (hstep : ∀ s e s', Inv s → step s e = some s' → Inv s') {s t : σ}
    {es : List ε} (hs : Inv s) (h : run step s es = some t) : Inv t := by
  induction es generalizing s with
  | nil =>
      obtain rfl := Option.some.inj h
      exact hs
  | cons e es ih =>
      obtain ⟨s', hs', ht⟩ := run_cons_eq_some.mp h
      exact ih (hstep s e s' hs hs') ht

/-- **Simulation.** When the steps with `P` keep the relation `R` to a reference that advances
by `ref`, a run along `P` ends in relation to what the reference makes of its events. -/
theorem run_simulates_along {ρ : Type} {ref : ρ → ε → ρ} {R : σ → ρ → Prop}
    (hstep : ∀ s r e s', R s r → P s e → step s e = some s' → R s' (ref r e)) {s t : σ} {r : ρ}
    {es : List ε} (hs : R s r) (hP : Along step P s es) (h : run step s es = some t) :
    R t (es.foldl ref r) := by
  induction es generalizing s r with
  | nil =>
      obtain rfl := Option.some.inj h
      exact hs
  | cons e es ih =>
      obtain ⟨s', hs', ht⟩ := run_cons_eq_some.mp h
      exact ih (hstep s r e s' hs hP.1 hs') (hP.2 s' hs') ht

/-- Along a run from a state with the invariant, two conditions are the same when they are the
same in the states with the invariant. The steps that fail the conditions need not keep it, as
nothing is asked of a run behind them. -/
theorem along_iff_along {Q : σ → ε → Prop}
    (hstep : ∀ s e s', Inv s → Q s e → step s e = some s' → Inv s')
    (hPQ : ∀ s e, Inv s → (P s e ↔ Q s e)) {s : σ} {es : List ε} (hs : Inv s) :
    Along step P s es ↔ Along step Q s es := by
  induction es generalizing s with
  | nil => exact Iff.rfl
  | cons e es ih =>
      have hiff := hPQ s e hs
      constructor
      · intro h
        have hQ := hiff.mp h.1
        exact ⟨hQ, fun s' hs' => (ih (hstep s e s' hs hQ hs')).mp (h.2 s' hs')⟩
      · intro h
        exact ⟨hiff.mpr h.1, fun s' hs' => (ih (hstep s e s' hs h.1 hs')).mpr (h.2 s' hs')⟩

/-- **Refinement.** When every step with `P` can happen and keeps the relation `R` to a
reference that advances by `ref`, a run of such steps can happen and ends in relation to what
the reference makes of its events. -/
theorem run_refines {ρ : Type} {ref : ρ → ε → ρ} {R : σ → ρ → Prop} {P : ε → Prop}
    (hstep : ∀ s r e, R s r → P e → ∃ s', step s e = some s' ∧ R s' (ref r e)) {s : σ} {r : ρ}
    {es : List ε} (hs : R s r) (hP : ∀ e ∈ es, P e) :
    ∃ s', run step s es = some s' ∧ R s' (es.foldl ref r) := by
  -- The reference takes each event as the run does, so both start the rest in relation.
  induction es generalizing s r with
  | nil => exact ⟨s, rfl, hs⟩
  | cons e es ih =>
      obtain ⟨t, ht, hR⟩ := hstep s r e hs (hP e List.mem_cons_self)
      obtain ⟨s', hs', hR'⟩ := ih hR fun e' he' => hP e' (List.mem_cons_of_mem e he')
      exact ⟨s', run_cons_eq_some.mpr ⟨t, ht, hs'⟩, hR'⟩

end NfsMount.Lib
