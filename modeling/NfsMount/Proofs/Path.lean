import NfsMount.Mount.Path

/-!
# `NfsMount.Proofs.Path`: a path is the list of its components

`IsComponent` says what a component is: a string that is not empty and has no separator. The
components of any path are such strings, and a list of such strings is read back from the path
that is written with them. So writing and reading are inverse on the paths that were written.

The key lemma is `toNfsComponents_append`. Cutting at a separator cuts the list of components,
and the round trip is an induction with it over the list.
-/

set_option autoImplicit false

namespace NfsMount.Mount

/-- A component: not empty, and without either separator. -/
structure IsComponent (s : String) : Prop where
  ne_empty : s ≠ ""
  no_backslash : '\\' ∉ s.toList
  no_slash : '/' ∉ s.toList

/-- A character of a component. -/
theorem isSeparator_eq_false_iff {c : Char} : isSeparator c = false ↔ c ≠ '\\' ∧ c ≠ '/' := by
  simp [isSeparator]

/-- A component has no separator. -/
theorem IsComponent.isSeparator_eq_false {s : String} (h : IsComponent s) :
    ∀ c ∈ s.toList, isSeparator c = false := by
  intro c hc
  apply isSeparator_eq_false_iff.mpr
  constructor
  · rintro rfl
    exact h.no_backslash hc
  · rintro rfl
    exact h.no_slash hc

/-- The pieces between separators have none. -/
theorem forall_mem_splitOnP {α : Type} (p : α → Bool) (xs : List α) :
    ∀ piece ∈ xs.splitOnP p, ∀ x ∈ piece, p x = false := by
  induction xs with
  | nil => simp
  | cons x xs ih =>
      obtain ⟨first, rest, hsplit⟩ := List.exists_cons_of_ne_nil (List.splitOnP_ne_nil p xs)
      rw [hsplit] at ih
      rw [List.splitOnP_cons_eq_if_modifyHead, hsplit]
      cases hx : p x with
      | true => simpa using ih
      | false =>
          -- The character joins the first piece.
          simp only [Bool.false_eq_true, if_false, List.modifyHead_cons, List.forall_mem_cons]
          exact ⟨⟨hx, ih first List.mem_cons_self⟩,
            fun piece hpiece => ih piece (List.mem_cons_of_mem _ hpiece)⟩

/-- **Well-formedness.** The components of a path are components. -/
theorem isComponent_of_mem {path c : String} (h : c ∈ toNfsComponents path) : IsComponent c := by
  rw [toNfsComponents, List.mem_filter, List.mem_map] at h
  obtain ⟨⟨piece, hpiece, rfl⟩, hne⟩ := h
  have hsep := forall_mem_splitOnP isSeparator path.toList piece hpiece
  refine ⟨by simpa using hne, fun hmem => ?_, fun hmem => ?_⟩
  · rw [String.toList_ofList] at hmem
    exact absurd (hsep _ hmem) (by decide)
  · rw [String.toList_ofList] at hmem
    exact absurd (hsep _ hmem) (by decide)

/-- **Cutting.** A separator cuts the path, and with it the components. -/
theorem toNfsComponents_append (p q : String) {s : Char} (hs : isSeparator s) :
    toNfsComponents (p ++ String.singleton s ++ q) = toNfsComponents p ++ toNfsComponents q := by
  have hlist : (p ++ String.singleton s ++ q).toList = p.toList ++ s :: q.toList := by simp
  rw [toNfsComponents, hlist, List.splitOnP_append_cons _ _ hs, List.map_append,
    List.filter_append]
  rfl

/-- The root has no components. -/
theorem toNfsComponents_empty : toNfsComponents "" = [] := by decide +kernel

/-- A component is a path of one. -/
theorem toNfsComponents_of_isComponent {c : String} (h : IsComponent c) :
    toNfsComponents c = [c] := by
  have hne : c.toList ≠ [] := by simpa using h.ne_empty
  have hsingle := toNfsComponents_of_forall h.isSeparator_eq_false hne
  rwa [String.ofList_toList] at hsingle

/-- Components joined by slashes are read back. -/
theorem toNfsComponents_intercalate {cs : List String} (h : ∀ c ∈ cs, IsComponent c) :
    toNfsComponents ("/".intercalate cs) = cs := by
  induction cs with
  | nil => exact toNfsComponents_empty
  | cons c cs ih =>
      have hc := toNfsComponents_of_isComponent (h c List.mem_cons_self)
      have hcs := ih fun d hd => h d (List.mem_cons_of_mem c hd)
      cases cs with
      | nil => rw [String.intercalate_singleton, hc]
      | cons d cs =>
          rw [String.intercalate_cons_cons]
          have hcut := toNfsComponents_append c ("/".intercalate (d :: cs)) (s := '/') rfl
          rw [hc, hcs] at hcut
          exact hcut

/-- **Round trip.** A list of components is read back from the path written with it. -/
theorem toNfsComponents_toNfsPath {cs : List String} (h : ∀ c ∈ cs, IsComponent c) :
    toNfsComponents (toNfsPath cs) = cs := by
  cases cs with
  | nil => decide +kernel
  | cons c cs =>
      have hcut := toNfsComponents_append "" ("/".intercalate (c :: cs)) (s := '/') rfl
      rw [toNfsComponents_empty, toNfsComponents_intercalate h] at hcut
      exact hcut

/-- The last component, and those in front of it. -/
theorem splitParentName_of_ne_nil {p : String} (h : toNfsComponents p ≠ []) :
    splitParentName p = some ((toNfsComponents p).dropLast, (toNfsComponents p).getLast h) := by
  have hempty : ¬ (toNfsComponents p).isEmpty := by simpa using h
  simp only [splitParentName, dif_neg hempty, List.splitAt_eq, List.head_drop,
    List.getLast_eq_getElem, List.dropLast_eq_take]

/-- Only the root has no parent. -/
theorem splitParentName_eq_none_iff {p : String} :
    splitParentName p = none ↔ toNfsComponents p = [] := by
  constructor
  · intro hnone
    by_contra h
    rw [splitParentName_of_ne_nil h] at hnone
    cases hnone
  · intro h
    have hempty : (toNfsComponents p).isEmpty := by rw [h]; rfl
    simp only [splitParentName, dif_pos hempty]

/-- **Path translation is a canonical splitting.** Reading inverts writing on lists of
components. What is read are components, so writing after reading is idempotent. A separator
cuts the path and the components alike. The parent and the name are the components. -/
theorem path_translation_canonical :
    (∀ cs : List String, (∀ c ∈ cs, IsComponent c) → toNfsComponents (toNfsPath cs) = cs) ∧
    (∀ p, ∀ c ∈ toNfsComponents p, IsComponent c) ∧
    (∀ p, toNfsPath (toNfsComponents (toNfsPath (toNfsComponents p))) =
      toNfsPath (toNfsComponents p)) ∧
    (∀ p q s, s = '\\' ∨ s = '/' →
      toNfsComponents (p ++ String.singleton s ++ q) =
        toNfsComponents p ++ toNfsComponents q) ∧
    ∀ p, (splitParentName p = none ↔ toNfsComponents p = []) ∧
      (toNfsComponents p ≠ [] → ∃ parent name, splitParentName p = some (parent, name) ∧
        parent ++ [name] = toNfsComponents p) := by
  refine ⟨fun cs => toNfsComponents_toNfsPath, fun p c => isComponent_of_mem, fun p => ?_,
    fun p q s hs => ?_, fun p => ⟨splitParentName_eq_none_iff, fun h => ?_⟩⟩
  · rw [toNfsComponents_toNfsPath fun c => isComponent_of_mem]
  · apply toNfsComponents_append
    rcases hs with rfl | rfl
    · rfl
    · rfl
  · exact ⟨_, _, splitParentName_of_ne_nil h, List.dropLast_concat_getLast h⟩

end NfsMount.Mount
