import Mathlib.Data.List.Induction
import NfsMount.Lib.Run

/-!
# `NfsMount.Lib.Sharing`: parties that share a state

Each event of a run belongs to a party, and all parties act on one state. `partOf` is what a
party sees of the run: its own events, in their order. Nothing is said about the order in which
the parties take their turns.

`run_parties` is the rule for what holds of each party, of its own events and the shared state.
It asks for one step: the step keeps what holds of the party that takes it, and what holds
of each other party.
-/

set_option autoImplicit false

namespace NfsMount.Lib

variable {ι ε σ : Type} [DecidableEq ι]

/-- The events of the party `i`. -/
def partOf (i : ι) (events : List (ι × ε)) : List ε :=
  events.filterMap fun e => if e.1 = i then some e.2 else none

/-- An event of `i` is the last of its part. -/
theorem partOf_concat_self (i : ι) (events : List (ι × ε)) (e : ε) :
    partOf i (events ++ [(i, e)]) = partOf i events ++ [e] := by
  simp [partOf]

/-- An event of another is not in the part of `i`. -/
theorem partOf_concat_of_ne {i j : ι} (h : j ≠ i) (events : List (ι × ε)) (e : ε) :
    partOf i (events ++ [(j, e)]) = partOf i events := by
  simp [partOf, h]

/-- The events of a party up to some place are the first of all its events. -/
theorem partOf_first (i : ι) {events all : List (ι × ε)} (h : events <+: all) :
    partOf i events <+: partOf i all := by
  obtain ⟨rest, rfl⟩ := h
  rw [partOf, partOf, List.filterMap_append]
  exact List.prefix_append _ _

/-- **The rule for parties.** `Inv` may use all the events so far, and `Own` those of one
party. -/
theorem run_parties {step : σ → ε → Option σ} {all : List (ι × ε)}
    (Inv : List (ι × ε) → σ → Prop) (Own : ι → List ε → σ → Prop)
    (hstep : ∀ events i e s s', events ++ [(i, e)] <+: all → Inv events s →
      (∀ j, Own j (partOf j events) s) → step s e = some s' →
      Inv (events ++ [(i, e)]) s' ∧ Own i (partOf i events ++ [e]) s' ∧
        ∀ j ≠ i, Own j (partOf j events) s')
    {s t : σ} (hInv : Inv [] s) (hOwn : ∀ i, Own i [] s)
    (hrun : run (fun s e => step s e.2) s all = some t) :
    Inv all t ∧ ∀ i, Own i (partOf i all) t := by
  -- From the end: the events before the last one are a run too.
  suffices h : ∀ events, events <+: all → ∀ u, run (fun s e => step s e.2) s events = some u →
      Inv events u ∧ ∀ i, Own i (partOf i events) u from h all List.prefix_rfl t hrun
  intro events
  induction events using List.reverseRecOn with
  | nil =>
      intro _ u hu
      obtain rfl := Option.some.inj hu
      exact ⟨hInv, hOwn⟩
  | append_singleton events e ih =>
      intro hfirst u hu
      obtain ⟨i, e⟩ := e
      obtain ⟨u₀, hu₀, hlast⟩ := run_append.mp hu
      obtain ⟨u₁, hu₁, hnil⟩ := run_cons_eq_some.mp hlast
      obtain rfl := Option.some.inj hnil
      obtain ⟨hInv₀, hOwn₀⟩ := ih ((List.prefix_append _ _).trans hfirst) u₀ hu₀
      obtain ⟨hnew, hself, hothers⟩ := hstep events i e u₀ _ hfirst hInv₀ hOwn₀ hu₁
      refine ⟨hnew, fun j => ?_⟩
      by_cases hij : i = j
      · subst hij
        rw [partOf_concat_self]
        exact hself
      · rw [partOf_concat_of_ne hij]
        exact hothers j fun h => hij h.symm

end NfsMount.Lib
