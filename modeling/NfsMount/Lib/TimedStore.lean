import Mathlib.Data.List.Induction
import NfsMount.Lib.Clock
import NfsMount.Lib.HashMap

/-!
# `NfsMount.Lib.TimedStore`: a map whose entries age

The entries of the map have an age. An eviction at some time drops the entries that are `kept`
no longer. A reader takes an entry that is `fresh`.

The reference keeps nothing but the history: `lastPut k` is the last entry put at `k` that no
later invalidation covers. `Agrees` relates the two. The map has the last put at each key, or
it has nothing and that put is too old to be kept. As the clock does not go back, it stays too
old. So the map and the reference have the same fresh entries, when what is fresh is kept
(`lookup_fresh`). Evictions and the operations at other keys leave no trace in `lastPut`
(`lastPut_filter`).
-/

set_option autoImplicit false

namespace NfsMount.Lib

/-- What is done to a map of entries `ε` under keys `κ`. -/
inductive StoreOp (κ ε : Type) where
  | put (k : κ) (e : ε)
  | query (k : κ)
  | invalidate (k : κ)
  | invalidateAll
  | evict

namespace TimedStore

variable {κ ε : Type} [DecidableEq κ]

/-- The last put at `k`, after one more operation. -/
def remember (k : κ) (last : Option ε) : StoreOp κ ε → Option ε
  | .put k' e => if k = k' then some e else last
  | .query _ => last
  | .invalidate k' => if k = k' then none else last
  | .invalidateAll => none
  | .evict => last

/-- The last put at `k` that no later invalidation covers. -/
def lastPut (k : κ) (history : List (At (StoreOp κ ε))) : Option ε :=
  history.foldl (fun last e => remember k last e.op) none

/-- The last event decides, if it is about the key. -/
theorem lastPut_append (k : κ) (history : List (At (StoreOp κ ε))) (e : At (StoreOp κ ε)) :
    lastPut k (history ++ [e]) = remember k (lastPut k history) e.op := by
  rw [lastPut, List.foldl_append]
  rfl

section
variable {α : Type} {f : α → At (StoreOp κ ε)} {k : κ} {p : α → Bool}

/-- The operations without `p` leave the last put at `k` alone, so they may be dropped. -/
theorem lastPut_filter (hp : ∀ a, p a = false → ∀ last, remember k last (f a).op = last)
    (history : List α) : lastPut k ((history.filter p).map f) = lastPut k (history.map f) := by
  induction history using List.reverseRecOn with
  | nil => rfl
  | append_singleton history a ih =>
      rw [List.filter_append, List.filter_singleton]
      cases ha : p a with
      | true =>
          rw [cond_true, List.map_append, List.map_append, List.map_singleton, lastPut_append,
            lastPut_append, ih]
      | false =>
          rw [cond_false, List.append_nil, ih, List.map_append, List.map_singleton, lastPut_append,
            hp a ha]

/-- Histories that are the same up to such operations have the same last put. -/
theorem lastPut_congr (hp : ∀ a, p a = false → ∀ last, remember k last (f a).op = last)
    {history history' : List α} (h : history.filter p = history'.filter p) :
    lastPut k (history.map f) = lastPut k (history'.map f) := by
  rw [← lastPut_filter hp history, h, lastPut_filter hp history']

end

section
variable (inserted kept : ε → Nat)

/-- The map after an operation. -/
def apply (m : HashMap κ ε) (e : At (StoreOp κ ε)) : HashMap κ ε :=
  match e.op with
  | .put k entry => m.insert k entry
  | .query _ => m
  | .invalidate k => m.erase k
  | .invalidateAll => ∅
  | .evict => m.retain fun _ entry => e.now - inserted entry < kept entry

/-- A lookup finds the last put, or finds nothing and that one is not kept any more. -/
def AgreesAt (now : Nat) (found last : Option ε) : Prop :=
  found = last ∨ found = none ∧ ∃ e, last = some e ∧ kept e ≤ now - inserted e

/-- Every lookup agrees with the last put. -/
def Agrees (now : Nat) (m : HashMap κ ε) (last : κ → Option ε) : Prop :=
  ∀ k, AgreesAt inserted kept now (m.lookup k) (last k)

variable {inserted kept}

/-- An entry only gets older. -/
theorem Agrees.mono {now now' : Nat} {m : HashMap κ ε} {last : κ → Option ε}
    (h : Agrees inserted kept now m last) (hle : now ≤ now') :
    Agrees inserted kept now' m last := by
  intro k
  rcases h k with heq | ⟨hnone, e, he, hold⟩
  · exact .inl heq
  · exact .inr ⟨hnone, e, he, by omega⟩

/-- An eviction drops what is not kept, and nothing else. -/
theorem AgreesAt.filter_kept {now : Nat} {found last : Option ε}
    (h : AgreesAt inserted kept now found last) :
    AgreesAt inserted kept now (found.filter fun e => now - inserted e < kept e) last := by
  rcases h with heq | ⟨hnone, hlast⟩
  · cases hfound : found with
    | none => exact .inl (hfound.symm.trans heq)
    | some e =>
        rw [hfound] at heq
        by_cases hyoung : now - inserted e < kept e
        · rw [Option.filter_some, if_pos (decide_eq_true hyoung)]
          exact .inl heq
        · rw [Option.filter_some, if_neg (by simpa using hyoung)]
          exact .inr ⟨rfl, e, heq.symm, Nat.not_lt.mp hyoung⟩
  · rw [hnone]
    exact .inr ⟨rfl, hlast⟩

/-- **Step.** The map and the reference stay in agreement. -/
theorem Agrees.apply {m : HashMap κ ε} {last : κ → Option ε} {e : At (StoreOp κ ε)}
    (h : Agrees inserted kept e.now m last) :
    Agrees inserted kept e.now (apply inserted kept m e) (fun k => remember k (last k) e.op) := by
  intro k
  obtain ⟨now, op⟩ := e
  cases op with
  | put k' entry =>
      show AgreesAt inserted kept now ((m.insert k' entry).lookup k)
        (if k = k' then some entry else last k)
      rw [HashMap.lookup_insert_eq]
      by_cases hk : k = k'
      · rw [if_pos hk, if_pos hk]
        exact .inl rfl
      · rw [if_neg hk, if_neg hk]
        exact h k
  | query k' => exact h k
  | invalidate k' =>
      show AgreesAt inserted kept now ((m.erase k').lookup k) (if k = k' then none else last k)
      rw [HashMap.lookup_erase_eq]
      by_cases hk : k = k'
      · rw [if_pos hk, if_pos hk]
        exact .inl rfl
      · rw [if_neg hk, if_neg hk]
        exact h k
  | invalidateAll => exact .inl (AList.lookup_empty k)
  | evict =>
      show AgreesAt inserted kept now ((m.retain _).lookup k) (last k)
      rw [HashMap.lookup_retain]
      exact (h k).filter_kept

/-- **Run.** The map after a history agrees with what the reference remembers of it. -/
theorem agrees_foldl {history : List (At (StoreOp κ ε))} {now : Nat}
    (h : Clocked history now) :
    Agrees inserted kept now (history.foldl (TimedStore.apply inserted kept) ∅)
      (fun k => lastPut k history) := by
  induction history using List.reverseRecOn generalizing now with
  | nil => exact fun k => .inl (AList.lookup_empty k)
  | append_singleton history e ih =>
      obtain ⟨hclock, hle⟩ := h.append
      rw [List.foldl_append]
      simp only [lastPut_append]
      exact ((ih hclock).apply).mono hle

/-- When what is fresh is kept, the map and the reference have the same fresh entries. -/
theorem Agrees.filter_fresh {now : Nat} {m : HashMap κ ε} {last : κ → Option ε}
    (h : Agrees inserted kept now m last) {fresh : ε → Nat} (hle : ∀ e, fresh e ≤ kept e) (k : κ) :
    (m.lookup k).filter (fun e => now - inserted e < fresh e) =
      (last k).filter (fun e => now - inserted e < fresh e) := by
  rcases h k with heq | ⟨hnone, e, he, hold⟩
  · rw [heq]
  · -- Too old to be kept is too old to be fresh.
    have hstale : ¬ now - inserted e < fresh e := by
      have := hle e
      omega
    rw [hnone, he, Option.filter_some, if_neg (by simpa using hstale)]
    rfl

/-- **Freshness.** A fresh entry is in the map exactly when it is the last one put. -/
theorem lookup_fresh {history : List (At (StoreOp κ ε))} {now : Nat} (h : Clocked history now)
    {fresh : ε → Nat} (hle : ∀ e, fresh e ≤ kept e) (k : κ) (e : ε) :
    ((history.foldl (TimedStore.apply inserted kept) ∅).lookup k = some e ∧
      now - inserted e < fresh e) ↔
    (lastPut k history = some e ∧ now - inserted e < fresh e) := by
  have hagrees : Agrees inserted kept now
      (history.foldl (TimedStore.apply inserted kept) ∅) (fun k => lastPut k history) :=
    agrees_foldl h
  have hmem := congrArg (· = some e) (hagrees.filter_fresh hle k)
  simpa [Option.filter_eq_some_iff] using hmem

end

end TimedStore

end NfsMount.Lib
