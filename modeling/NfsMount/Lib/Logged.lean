import NfsMount.Lib.Decoder

/-!
# `NfsMount.Lib.Logged`: the loops of a decoder

`Logged w k d` is a log of what the loops of the decoder `d` do on each input: that an array
of so many elements is entered, and that a turn of a loop has not failed. It comes with the
accounting. Every turn takes `w` symbols that no other turn is charged for, and when `d`
returns a value it has taken `k` symbols besides. So a decoder whose turns all take something
ends, and its turns are few, whatever the counts in the input say (`turns_le_div`).

A log is built as the decoder is: `bind`, `map` and `ite` for the parts of a decoder without
loops of its own, `times` and `loop` for its loops, and `quiet` for a decoder that has none.

`TurnsTo` says how many turns a value that was returned has taken, and its rules give that for
each combinator: a turn for each element of an array.

`Fits` says that no array is entered with more elements than there are symbols left. The
`fits_` rules say for each combinator on which inputs that is so.
-/

set_option autoImplicit false

namespace NfsMount.Lib

/-- What a loop does. -/
inductive LoopEvent where
  /-- An array of `count` elements is entered, with `unread` symbols left. -/
  | enter (count unread : Nat)
  /-- A turn has not failed, and has taken `used` symbols. -/
  | turn (used : Nat)
deriving DecidableEq

/-- The number of turns in a log. -/
def turns (es : List LoopEvent) : Nat :=
  es.countP fun
    | .turn _ => true
    | .enter _ _ => false

/-- An empty log has no turns. -/
@[simp] theorem turns_nil : turns [] = 0 := rfl

/-- An array that is entered is no turn. -/
@[simp] theorem turns_enter (count unread : Nat) (es : List LoopEvent) :
    turns (.enter count unread :: es) = turns es := List.countP_cons_of_neg Bool.false_ne_true

/-- The turns of two logs add up. -/
@[simp] theorem turns_append (es es' : List LoopEvent) :
    turns (es ++ es') = turns es + turns es' := List.countP_append

/-- A turn is one. -/
@[simp] theorem turns_turn (used : Nat) : turns [.turn used] = 1 := rfl

variable {σ ε α β : Type} {w k : Nat}

/-- A log of the loops of `d`. -/
structure Logged (w k : Nat) (d : Decoder σ ε α) where
  log : List σ → List LoopEvent
  turn_ge : ∀ {b n}, .turn n ∈ log b → w ≤ n
  turns_le : ∀ b, w * turns (log b) ≤ b.length
  turns_ok : ∀ {b a r}, d.run b = .ok (a, r) → w * turns (log b) + k + r.length ≤ b.length

namespace Logged

variable {d e : Decoder σ ε α} {g : α → Decoder σ ε β}

/-- However the decoder ends, its turns are as few as the input allows. -/
theorem turns_le_div (x : Logged w k d) (hw : 0 < w) (b : List σ) :
    turns (x.log b) ≤ b.length / w := by
  rw [Nat.le_div_iff_mul_le hw, Nat.mul_comm]
  exact x.turns_le b

/-! ### Combinators -/

/-- A decoder without loops, which takes `k` symbols at least. -/
def quiet (h : ∀ {b a r}, d.run b = .ok (a, r) → k + r.length ≤ b.length) : Logged w k d where
  log _ := []
  turn_ge h := by simp at h
  turns_le b := by simp
  turns_ok hb := by simpa using h hb

/-- A value has no loops. -/
protected def pure (a : α) : Logged w 0 (pure a : Decoder σ ε α) :=
  quiet fun {b a' r} h => by
    rw [Decoder.run_pure, Outcome.ok.injEq, Prod.mk.injEq] at h
    rw [h.2, Nat.zero_add]

/-- A failure has no loops. -/
def fail (x : ε) : Logged w k (Decoder.fail x : Decoder σ ε α) :=
  quiet fun {b a r} h => by simp [Decoder.run_fail] at h

/-- What is logged behind a decoder that returns a value. -/
def logAfter (d : Decoder σ ε α) (b : List σ) (f : α → List σ → List LoopEvent) :
    List LoopEvent :=
  match d.run b with
  | .ok (a, r) => f a r
  | _ => []

/-- Behind a value the log goes on. -/
theorem logAfter_ok {b r : List σ} {a : α} {f : α → List σ → List LoopEvent}
    (h : d.run b = .ok (a, r)) : logAfter d b f = f a r := by
  simp only [logAfter, h]

/-- Behind anything else it does not. -/
theorem logAfter_of_forall {b : List σ} {f : α → List σ → List LoopEvent}
    (h : ∀ a r, d.run b ≠ .ok (a, r)) : logAfter d b f = [] := by
  cases hrun : d.run b with
  | ok x => exact absurd hrun (h x.1 x.2)
  | err e => simp only [logAfter, hrun]
  | panic => simp only [logAfter, hrun]

/-- What is in the log behind a decoder. -/
theorem mem_logAfter {b : List σ} {f : α → List σ → List LoopEvent} {event : LoopEvent} :
    event ∈ logAfter d b f ↔ ∃ a r, d.run b = .ok (a, r) ∧ event ∈ f a r := by
  cases hrun : d.run b with
  | ok x => simp [logAfter, hrun, Prod.ext_iff]
  | err e => simp [logAfter, hrun]
  | panic => simp [logAfter, hrun]

/-- One decoder, and then another. -/
def bind {l : Nat} (x : Logged w k d) (f : ∀ a, Logged w l (g a)) : Logged w k (d >>= g) where
  log b := x.log b ++ logAfter d b fun a r => (f a).log r
  turn_ge {b n} h := by
    rcases List.mem_append.mp h with h | h
    · exact x.turn_ge h
    · obtain ⟨a, r, -, hn⟩ := mem_logAfter.mp h
      exact (f a).turn_ge hn
  turns_le b := by
    rw [turns_append, Nat.mul_add]
    by_cases h : ∃ a r, d.run b = .ok (a, r)
    · obtain ⟨a, r, hrun⟩ := h
      -- The second decoder is charged for what the first has left.
      have hfirst := x.turns_ok hrun
      have hsecond := (f a).turns_le r
      rw [logAfter_ok hrun]
      omega
    · push Not at h
      have hfirst := x.turns_le b
      rwa [logAfter_of_forall h, turns_nil, Nat.mul_zero, Nat.add_zero]
  turns_ok {b v r} h := by
    obtain ⟨a, s, hrun, hs⟩ := Decoder.run_bind_eq_ok.mp h
    have hfirst := x.turns_ok hrun
    have hsecond := (f a).turns_ok hs
    rw [turns_append, Nat.mul_add, logAfter_ok hrun]
    omega

/-- A function of the value has no loops of its own. -/
def map (x : Logged w k d) (f : α → β) : Logged w k (f <$> d) where
  log := x.log
  turn_ge := x.turn_ge
  turns_le := x.turns_le
  turns_ok {b v r} h := by
    rw [← bind_pure_comp] at h
    obtain ⟨a, s, hrun, hs⟩ := Decoder.run_bind_eq_ok.mp h
    rw [Decoder.run_pure, Outcome.ok.injEq, Prod.mk.injEq] at hs
    obtain ⟨-, rfl⟩ := hs
    exact x.turns_ok hrun

/-- Two arms of a decoder. -/
def ite (c : Prop) [Decidable c] (x : Logged w k d) (y : Logged w k e) :
    Logged w k (if c then d else e) where
  log b := if c then x.log b else y.log b
  turn_ge {b n} h := by
    split at h
    · exact x.turn_ge h
    · exact y.turn_ge h
  turns_le b := by
    split
    · exact x.turns_le b
    · exact y.turns_le b
  turns_ok {b a r} h := by
    split at h
    · rw [if_pos ‹c›]
      exact x.turns_ok h
    · rw [if_neg ‹¬ c›]
      exact y.turns_ok h

/-- An array of `count` elements is entered. -/
def enter (count : Nat) (x : Logged w k d) : Logged w k d where
  log b := .enter count b.length :: x.log b
  turn_ge {b n} h := x.turn_ge (by simpa using h)
  turns_le b := by
    rw [turns_enter]
    exact x.turns_le b
  turns_ok h := by
    rw [turns_enter]
    exact x.turns_ok h

/-- A turn of a loop. It is charged the symbols that the decoder takes besides its own
loops. -/
def turn (x : Logged w w d) : Logged w 0 d where
  log b := x.log b ++ logAfter d b fun _ r => [.turn (b.length - r.length)]
  turn_ge {b n} h := by
    rcases List.mem_append.mp h with h | h
    · exact x.turn_ge h
    · obtain ⟨a, r, hrun, hn⟩ := mem_logAfter.mp h
      obtain rfl := LoopEvent.turn.inj (List.mem_singleton.mp hn)
      have hused := x.turns_ok hrun
      omega
  turns_le b := by
    rw [turns_append, Nat.mul_add]
    by_cases h : ∃ a r, d.run b = .ok (a, r)
    · obtain ⟨a, r, hrun⟩ := h
      -- What the decoder has taken besides its loops pays for this turn.
      have hused := x.turns_ok hrun
      rw [logAfter_ok hrun, turns_turn, Nat.mul_one]
      omega
    · push Not at h
      have hfirst := x.turns_le b
      rwa [logAfter_of_forall h, turns_nil, Nat.mul_zero, Nat.add_zero]
  turns_ok {b a r} h := by
    have hused := x.turns_ok h
    rw [turns_append, Nat.mul_add, logAfter_ok h, turns_turn, Nat.mul_one]
    omega

/-- `n` turns. -/
def times (x : Logged w w d) : (n : Nat) → Logged w 0 (Decoder.times n d)
  | 0 => .pure []
  | n + 1 => x.turn.bind fun a => (x.times n).bind fun as => .pure (a :: as)

/-- At most `n` turns, up to an end marker. -/
def loopFrom {body : Decoder σ ε (Option α)} (x : Logged w w body) :
    (n : Nat) → Logged w 0 (Decoder.loopFrom body n)
  | 0 => quiet fun h => nomatch h
  | n + 1 => x.turn.bind (l := 0) fun
      | none => .pure []
      | some a => (x.loopFrom n).bind fun as => .pure (a :: as)

/-- Turns up to an end marker. -/
def loop {body : Decoder σ ε (Option α)} (x : Logged w w body) :
    Logged w 0 (Decoder.loop body) where
  log b := (x.loopFrom (b.length + 1)).log b
  turn_ge h := (x.loopFrom _).turn_ge h
  turns_le b := (x.loopFrom _).turns_le b
  turns_ok h := (x.loopFrom _).turns_ok h

/-! ### The turns of a value -/

/-- When the decoder returns `a`, its turns and `n` earlier ones are `f a` together. -/
def TurnsTo (x : Logged w k d) (n : Nat) (f : α → Nat) : Prop :=
  ∀ ⦃b a r⦄, d.run b = .ok (a, r) → n + turns (x.log b) = f a

section

variable {x : Logged w k d} {n : Nat} {f : α → Nat}

/-- Where nothing is logged, the number stays as it is. -/
theorem turnsTo_of_log_nil (h : ∀ b, x.log b = []) : x.TurnsTo n fun _ => n := by
  intro b a r _
  rw [h b, turns_nil, Nat.add_zero]

/-- A value whose turns are those before it. -/
theorem turnsTo_pure {a : α} (h : n = f a) :
    (Logged.pure a : Logged w 0 (pure a : Decoder σ ε α)).TurnsTo n f := by
  rintro b v r hrun
  rw [Decoder.run_pure, Outcome.ok.injEq, Prod.mk.injEq] at hrun
  exact hrun.1 ▸ h

/-- A failure returns no value. -/
theorem turnsTo_fail {e : ε} : (fail e : Logged w k (Decoder.fail e : Decoder σ ε α)).TurnsTo n f :=
  fun _ _ _ h => by simp [Decoder.run_fail] at h

/-- Earlier turns are added. -/
theorem TurnsTo.add {m : Nat} (hx : x.TurnsTo m f) : x.TurnsTo (n + m) fun a => n + f a := by
  intro b a r hrun
  rw [Nat.add_assoc, hx hrun]

/-- The second decoder counts on from the first. -/
theorem TurnsTo.bind {l : Nat} {y : ∀ a, Logged w l (g a)} {h : β → Nat} (hx : x.TurnsTo n f)
    (hy : ∀ a, (y a).TurnsTo (f a) h) : (x.bind y).TurnsTo n h := by
  intro b v r hrun
  obtain ⟨a, s, hfirst, hsecond⟩ := Decoder.run_bind_eq_ok.mp hrun
  have hlog : (x.bind y).log b = x.log b ++ (y a).log s :=
    congrArg (x.log b ++ ·) (logAfter_ok hfirst)
  rw [hlog, turns_append, ← Nat.add_assoc, hx hfirst, hy a hsecond]

/-- The turns of a value that is a function of another. -/
theorem TurnsTo.map {h : β → Nat} {c : α → β} (hx : x.TurnsTo n fun a => h (c a)) :
    (x.map c).TurnsTo n h := by
  intro b v r hrun
  rw [← bind_pure_comp] at hrun
  obtain ⟨a, s, hfirst, hpure⟩ := Decoder.run_bind_eq_ok.mp hrun
  rw [Decoder.run_pure, Outcome.ok.injEq, Prod.mk.injEq] at hpure
  rw [← hpure.1]
  exact hx hfirst

/-- The turns of the arm that is taken. -/
theorem TurnsTo.ite {c : Prop} [Decidable c] {y : Logged w k e} (hx : c → x.TurnsTo n f)
    (hy : ¬ c → y.TurnsTo n f) : (ite c x y).TurnsTo n f := by
  intro b a r hrun
  by_cases hc : c
  · rw [if_pos hc] at hrun
    simpa only [Logged.ite, if_pos hc] using hx hc hrun
  · rw [if_neg hc] at hrun
    simpa only [Logged.ite, if_neg hc] using hy hc hrun

/-- An array that is entered is no turn. -/
theorem TurnsTo.enter {count : Nat} (hx : x.TurnsTo n f) : (x.enter count).TurnsTo n f := by
  intro b a r hrun
  have hlog : (x.enter count).log b = .enter count b.length :: x.log b := rfl
  rw [hlog, turns_enter, hx hrun]

end

/-- The element has its own turns, and its own turn. -/
theorem TurnsTo.turn {x : Logged w w d} {n : Nat} {f : α → Nat} (hx : x.TurnsTo n f) :
    x.turn.TurnsTo n fun a => f a + 1 := by
  intro b a r hrun
  have hlog : x.turn.log b = x.log b ++ [.turn (b.length - r.length)] :=
    congrArg (x.log b ++ ·) (logAfter_ok hrun)
  rw [hlog, turns_append, turns_turn, ← Nat.add_assoc, hx hrun]

/-- An array takes a turn for each element, and the turns of the elements. -/
theorem TurnsTo.times {x : Logged w w d} {f : α → Nat} (hx : x.TurnsTo 0 f) (n : Nat) :
    (x.times n).TurnsTo 0 fun as => (as.map fun a => f a + 1).sum := by
  induction n with
  | zero => exact turnsTo_pure rfl
  | succ n ih =>
      refine hx.turn.bind fun a => TurnsTo.bind (ih.add (n := f a + 1)) fun as => turnsTo_pure ?_
      rw [List.map_cons, List.sum_cons]

/-- A loop takes a turn for each value, one for the end marker, and the turns inside these. -/
theorem TurnsTo.loop {body : Decoder σ ε (Option α)} {x : Logged w w body} {f : Option α → Nat}
    (hx : x.TurnsTo 0 f) :
    x.loop.TurnsTo 0 fun as => (as.map fun a => f (some a) + 1).sum + (f none + 1) := by
  have hfrom : ∀ n, (x.loopFrom n).TurnsTo 0
      fun as => (as.map fun a => f (some a) + 1).sum + (f none + 1) := by
    intro n
    induction n with
    | zero => exact fun _ _ _ h => nomatch h
    | succ n ih =>
        refine hx.turn.bind fun o => ?_
        cases o with
        | none => exact turnsTo_pure (Nat.zero_add _).symm
        | some a =>
            refine TurnsTo.bind (ih.add (n := f (some a) + 1)) fun as => turnsTo_pure ?_
            rw [List.map_cons, List.sum_cons]
            exact (Nat.add_assoc _ _ _).symm
  exact fun b _ _ hrun => hfrom (b.length + 1) hrun

/-! ### Arrays that fit -/

/-- No array is entered with more elements than there are symbols left. -/
def Fits (x : Logged w k d) (b : List σ) : Prop :=
  ∀ count unread, .enter count unread ∈ x.log b → count ≤ unread

variable {b : List σ}

/-- Where nothing is logged, no array is entered. -/
theorem fits_of_log_nil {x : Logged w k d} (h : x.log b = []) : x.Fits b := by
  intro count unread hmem
  rw [h] at hmem
  exact absurd hmem List.not_mem_nil

/-- A value enters no array. -/
@[simp] theorem fits_pure {a : α} :
    (Logged.pure a : Logged w 0 (pure a : Decoder σ ε α)).Fits b := fits_of_log_nil rfl

/-- A failure enters no array. -/
@[simp] theorem fits_fail {x : ε} :
    (fail x : Logged w k (Decoder.fail x : Decoder σ ε α)).Fits b := fits_of_log_nil rfl

/-- In a sequence the arrays of both parts must fit, where the second part is reached. -/
theorem fits_bind {l : Nat} {x : Logged w k d} {f : ∀ a, Logged w l (g a)} :
    (x.bind f).Fits b ↔ x.Fits b ∧ ∀ a r, d.run b = .ok (a, r) → (f a).Fits r := by
  constructor
  · intro h
    refine ⟨fun count unread he => h count unread (List.mem_append_left _ he), ?_⟩
    intro a r hrun count unread he
    exact h count unread (List.mem_append_right _ (mem_logAfter.mpr ⟨a, r, hrun, he⟩))
  · rintro ⟨hx, hf⟩ count unread he
    rcases List.mem_append.mp he with he | he
    · exact hx count unread he
    · obtain ⟨a, r, hrun, he⟩ := mem_logAfter.mp he
      exact hf a r hrun count unread he

/-- A sequence whose second part does not depend on the value of the first. -/
theorem fits_bind_of_forall {l : Nat} {x : Logged w k d} {f : ∀ a, Logged w l (g a)}
    {P : List σ → Prop} (hf : ∀ a r, (f a).Fits r ↔ P r) :
    (x.bind f).Fits b ↔ x.Fits b ∧ ∀ r, Decoder.EndsAt d b r → P r := by
  rw [fits_bind]
  refine and_congr_right fun _ => ?_
  constructor
  · rintro h r ⟨a, hrun⟩
    exact (hf a r).mp (h a r hrun)
  · intro h a r hrun
    exact (hf a r).mpr (h r ⟨a, hrun⟩)

/-- A function of the value enters no array. -/
@[simp] theorem fits_map {x : Logged w k d} {f : α → β} : (x.map f).Fits b ↔ x.Fits b := Iff.rfl

/-- A sequence that ends with a value. -/
theorem fits_bind_pure {x : Logged w k d} {f : α → β} :
    (x.bind fun a => Logged.pure (f a)).Fits b ↔ x.Fits b := by
  rw [fits_bind]
  exact and_iff_left fun a r _ => fits_pure

/-- The arrays of the arm that is taken must fit. -/
theorem fits_ite {c : Prop} [Decidable c] {x : Logged w k d} {y : Logged w k e} :
    (ite c x y).Fits b ↔ (c → x.Fits b) ∧ (¬ c → y.Fits b) := by
  by_cases hc : c
  · simp [Fits, ite, hc]
  · simp [Fits, ite, hc]

/-- The count of the array must fit, and the arrays of its elements. -/
@[simp] theorem fits_enter {count : Nat} {x : Logged w k d} :
    (x.enter count).Fits b ↔ count ≤ b.length ∧ x.Fits b := by
  simp [Fits, enter, or_imp, forall_and]

/-- A turn enters the arrays of its element. -/
@[simp] theorem fits_turn {x : Logged w w d} : x.turn.Fits b ↔ x.Fits b := by
  constructor
  · exact fun h count unread he => h count unread (List.mem_append_left _ he)
  · intro h count unread he
    rcases List.mem_append.mp he with he | he
    · exact h count unread he
    · obtain ⟨a, r, -, he⟩ := mem_logAfter.mp he
      simp at he

/-- One element, and then the others. -/
theorem endsAt_times_succ {n : Nat} {s : List σ} :
    Decoder.EndsAt (Decoder.times (n + 1) d) b s ↔
      ∃ r, Decoder.EndsAt d b r ∧ Decoder.EndsAt (Decoder.times n d) r s := by
  rw [Decoder.times]
  refine Decoder.endsAt_bind_of_forall fun a r s => ?_
  rw [bind_pure_comp, Decoder.endsAt_map]

/-- The array of every element fits, as far as the elements before it decode. -/
theorem fits_times {x : Logged w w d} {n : Nat} :
    (x.times n).Fits b ↔ ∀ i < n, ∀ s, Decoder.EndsAt (Decoder.times i d) b s → x.Fits s := by
  induction n generalizing b with
  | zero => exact iff_of_true fits_pure fun i hi => absurd hi (Nat.not_lt_zero i)
  | succ n ih =>
      have hrest : ∀ a r, ((x.times n).bind fun as => Logged.pure (w := w) (a :: as)).Fits r ↔
          ∀ i < n, ∀ s, Decoder.EndsAt (Decoder.times i d) r s → x.Fits s := by
        intro a r
        rw [fits_bind_pure, ih]
      have hsucc : (x.times (n + 1)).Fits b ↔ x.turn.Fits b ∧ _ := fits_bind_of_forall hrest
      rw [hsucc, fits_turn]
      constructor
      · rintro ⟨hx, hrest⟩ i hi s hs
        cases i with
        | zero =>
            obtain rfl := Decoder.endsAt_pure.mp hs
            exact hx
        | succ i =>
            obtain ⟨r, hr, hs⟩ := endsAt_times_succ.mp hs
            exact hrest r hr i (Nat.lt_of_succ_lt_succ hi) s hs
      · intro h
        refine ⟨h 0 (Nat.succ_pos n) b (Decoder.endsAt_pure.mpr rfl), fun r hr i hi s hs => ?_⟩
        exact h (i + 1) (Nat.succ_lt_succ hi) s (endsAt_times_succ.mpr ⟨r, hr, hs⟩)

variable {body : Decoder σ ε (Option α)}

/-- `i` turns of the loop over `body` that do not end it lead from `b` to `s`. -/
def Passes (body : Decoder σ ε (Option α)) : (i : Nat) → (b s : List σ) → Prop
  | 0, b, s => s = b
  | i + 1, b, s => ∃ a r, body.run b = .ok (some a, r) ∧ Passes body i r s

/-- Every turn takes something, so the input bounds their number. -/
theorem Passes.mul_le (x : Logged w w body) {i : Nat} {s : List σ} (h : Passes body i b s) :
    w * i ≤ b.length := by
  induction i generalizing b with
  | zero => exact Nat.zero_le _
  | succ i ih =>
      obtain ⟨a, r, hrun, hr⟩ := h
      have hrest := ih hr
      have hused := x.turns_ok hrun
      rw [Nat.mul_succ]
      omega

/-- The arrays of every turn must fit that the turns before it reach. -/
theorem fits_loopFrom {x : Logged w w body} {n : Nat} :
    (x.loopFrom n).Fits b ↔ ∀ i < n, ∀ s, Passes body i b s → x.Fits s := by
  induction n generalizing b with
  | zero =>
      exact iff_of_true (fits_of_log_nil rfl)
        fun i hi => absurd hi (Nat.not_lt_zero i)
  | succ n ih =>
      have hsucc : (x.loopFrom (n + 1)).Fits b ↔ x.turn.Fits b ∧ _ := fits_bind
      rw [hsucc, fits_turn]
      constructor
      · rintro ⟨hx, hrest⟩ i hi s hs
        cases i with
        | zero =>
            obtain rfl : s = b := hs
            exact hx
        | succ i =>
            obtain ⟨a, r, hrun, hs⟩ := hs
            -- The turn has read a value, and the loop goes on behind it.
            have hloop := fits_bind_pure.mp (hrest (some a) r hrun)
            exact ih.mp hloop i (Nat.lt_of_succ_lt_succ hi) s hs
      · intro h
        refine ⟨h 0 (Nat.succ_pos n) b rfl, fun o r hrun => ?_⟩
        cases o with
        | none => exact fits_pure
        | some a =>
            refine fits_bind_pure.mpr (ih.mpr fun i hi s hs => ?_)
            exact h (i + 1) (Nat.succ_lt_succ hi) s ⟨a, r, hrun, hs⟩

/-- The arrays of every turn fit, as far as the turns before it decode. -/
theorem fits_loop (hw : 0 < w) {x : Logged w w body} :
    x.loop.Fits b ↔ ∀ i s, Passes body i b s → x.Fits s := by
  have hfrom : x.loop.Fits b ↔ (x.loopFrom (b.length + 1)).Fits b := Iff.rfl
  rw [hfrom, fits_loopFrom]
  refine forall_congr' fun i => ⟨fun h s hs => ?_, fun h _ s hs => h s hs⟩
  -- The step bound is out of reach.
  have hle := hs.mul_le x
  exact h (Nat.lt_succ_of_le ((Nat.le_mul_of_pos_left i hw).trans hle)) s hs

end Logged

end NfsMount.Lib
