import Mathlib.Data.List.Basic

/-!
# `NfsMount.Lib.FoldSet`: folds that see a list as a set

`f` acts on a state. When any two of its actions commute and doing one twice is doing it once,
a fold of `f` depends only on which elements the list has.
-/

set_option autoImplicit false

namespace NfsMount.Lib

variable {α β : Type}

/-- An action that sees neither the order nor the repetitions of what it does. -/
structure SetAction (f : β → α → β) : Prop where
  comm : ∀ b x y, f (f b x) y = f (f b y) x
  idem : ∀ b x, f (f b x) x = f b x

namespace SetAction

variable {f : β → α → β} (h : SetAction f)

include h

/-- An element that is yet to come may be done at once. -/
theorem foldl_of_mem {x : α} {l : List α} (hx : x ∈ l) (b : β) :
    l.foldl f (f b x) = l.foldl f b := by
  induction l generalizing b with
  | nil => cases hx
  | cons y l ih =>
      rw [List.foldl_cons, List.foldl_cons]
      by_cases hy : x = y
      · rw [hy, h.idem]
      · have hmem : x ∈ l := (List.mem_cons.mp hx).resolve_left hy
        rw [h.comm]
        exact ih hmem (f b y)

/-- So may a list of them. -/
theorem foldl_append_of_subset {l l' : List α} (hsub : ∀ x ∈ l, x ∈ l') (b : β) :
    (l ++ l').foldl f b = l'.foldl f b := by
  induction l generalizing b with
  | nil => rfl
  | cons x l ih =>
      rw [List.cons_append, List.foldl_cons,
        ih (fun y hy => hsub y (List.mem_cons_of_mem x hy)) (f b x)]
      exact h.foldl_of_mem (hsub x List.mem_cons_self) b

/-- Lists with the same elements have the same fold. -/
theorem foldl_congr {l l' : List α} (hiff : ∀ x, x ∈ l ↔ x ∈ l') (b : β) :
    l.foldl f b = l'.foldl f b := by
  -- Both are the fold of the two lists together, in either order.
  rw [← h.foldl_append_of_subset (fun x hx => (hiff x).mp hx) b,
    ← h.foldl_append_of_subset (fun x hx => (hiff x).mpr hx) b]
  have hperm : (l ++ l').Perm (l' ++ l) := List.perm_append_comm
  rw [hperm.foldl_eq' fun x _ y _ b => h.comm b x y]

end SetAction

end NfsMount.Lib
