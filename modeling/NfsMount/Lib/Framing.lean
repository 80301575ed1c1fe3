import Mathlib.Data.List.Basic

/-!
# `NfsMount.Lib.Framing`: frames in a stream, and incremental readers

`Framing` cuts a stream of symbols into frames. `next` looks at the unread symbols and finds
the first frame, an error, or nothing because more symbols are needed. What it finds does
not depend on the symbols behind it (`stable`). `parse` is the list of all frames of a
stream, up to the first error.

A `Reader` gets the stream in pieces. Each call of `read` takes the next piece and returns
one frame, an error, or nothing. `Follows F` is the statement an incremental reader needs:
a relation between the reader and the symbols it has been given since the last frame, such
that `read` finds what `F.next` finds. `feed` is the reader's user: it reads every piece,
and reads no new symbols until the reader has nothing left. `feed_eq_parse` says that the
user then gets exactly `parse` of the concatenated pieces, however the stream was cut.
-/

set_option autoImplicit false

namespace NfsMount.Lib

/-- How a stream of symbols `β` is cut into frames `α`. -/
structure Framing (β ε α : Type) where
  /-- The first frame or error, with the symbols behind it. -/
  next : List β → Option (Except ε α × List β)
  /-- A frame takes at least one symbol. -/
  shrinks : ∀ {b x r}, next b = some (x, r) → r.length < b.length
  /-- The symbols behind a frame do not change it. -/
  stable : ∀ {b x r} (c), next b = some (x, r) → next (b ++ c) = some (x, r ++ c)

/-- A frame in front of frames that end in an error or not. -/
def consFrame {α ε : Type} (a : α) (p : List α × Option ε) : List α × Option ε :=
  (a :: p.1, p.2)

namespace Framing

variable {β ε α : Type} (F : Framing β ε α)

/-- The frames of a stream, up to the first error. -/
def parse (b : List β) : List α × Option ε :=
  match h : F.next b with
  | none => ([], none)
  | some (.error e, _) => ([], some e)
  | some (.ok a, r) =>
      have := F.shrinks h
      consFrame a (parse r)
termination_by b.length

variable {F} {b r : List β} {a : α} {e : ε}

/-- An incomplete frame ends the parse. -/
theorem parse_of_none (h : F.next b = none) : F.parse b = ([], none) := by
  rw [parse]
  split <;> simp_all

/-- An error ends the parse. -/
theorem parse_of_error (h : F.next b = some (.error e, r)) : F.parse b = ([], some e) := by
  rw [parse]
  split <;> simp_all

/-- A frame is the first one of the parse. -/
theorem parse_of_ok (h : F.next b = some (.ok a, r)) :
    F.parse b = consFrame a (F.parse r) := by
  rw [parse]
  split <;> simp_all

end Framing

/-- A reader with state `ρ`. `size` bounds what it can still return without new symbols. -/
structure Reader (β ε α ρ : Type) where
  read : ρ → List β → Except ε (Option α) × ρ
  size : ρ → Nat
  size_lt : ∀ {r d a r'}, read r d = (.ok (some a), r') → size r' < size r + d.length

namespace Reader

variable {β ε α ρ : Type} (R : Reader β ε α ρ)

/-- Read the piece `d`, and then the empty piece until nothing is returned. -/
def drain (r : ρ) (d : List β) : (List α × Option ε) × ρ :=
  match h : R.read r d with
  | (.ok none, r') => (([], none), r')
  | (.error e, r') => (([], some e), r')
  | (.ok (some a), r') =>
      have : R.size r' + ([] : List β).length < R.size r + d.length := by
        simpa using R.size_lt h
      let rest := drain r' []
      (consFrame a rest.1, rest.2)
termination_by R.size r + d.length

/-- All that is returned over a list of pieces, up to the first error. -/
def feed (r : ρ) : List (List β) → List α × Option ε
  | [] => ([], none)
  | d :: ds =>
      match R.drain r d with
      | ((as, some e), _) => (as, some e)
      | ((as, none), r') =>
          let rest := feed r' ds
          (as ++ rest.1, rest.2)

/-- The reader does what `F` says: `Rel r u` relates a reader to the symbols it has been
given since the last frame. -/
structure Follows (F : Framing β ε α) (Rel : ρ → List β → Prop) : Prop where
  none : ∀ {r u d r'}, Rel r u → R.read r d = (.ok none, r') →
    F.next (u ++ d) = .none ∧ Rel r' (u ++ d)
  frame : ∀ {r u d a r'}, Rel r u → R.read r d = (.ok (some a), r') →
    ∃ t, F.next (u ++ d) = some (.ok a, t) ∧ Rel r' t
  error : ∀ {r u d e r'}, Rel r u → R.read r d = (.error e, r') →
    ∃ t, F.next (u ++ d) = some (.error e, t)

variable {R} {F : Framing β ε α} {Rel : ρ → List β → Prop}

/-- A reader that needs more has drained. -/
theorem drain_of_none {r r' : ρ} {d : List β} (h : R.read r d = (.ok none, r')) :
    R.drain r d = (([], none), r') := by
  rw [drain]
  split <;> simp_all

/-- A reader that fails has drained. -/
theorem drain_of_error {r r' : ρ} {d : List β} {e : ε} (h : R.read r d = (.error e, r')) :
    R.drain r d = (([], some e), r') := by
  rw [drain]
  split <;> simp_all

/-- A reader that returns a frame goes on without new bytes. -/
theorem drain_of_frame {r r' : ρ} {d : List β} {a : α} (h : R.read r d = (.ok (some a), r')) :
    R.drain r d = (consFrame a (R.drain r' []).1, (R.drain r' []).2) := by
  rw [drain]
  split <;> simp_all

/-- Draining a reader that follows `F` returns frames of the stream. It stops at an error,
or with symbols `t` that hold no further frame. Either way the frames are those of the
stream whatever comes after the piece. -/
theorem Follows.drain (h : R.Follows F Rel) {r : ρ} {u d : List β} (hr : Rel r u) :
    (∃ e, (R.drain r d).1.2 = some e ∧ ∀ c, F.parse (u ++ d ++ c) = (R.drain r d).1) ∨
    ∃ t, (R.drain r d).1.2 = Option.none ∧ Rel (R.drain r d).2 t ∧ F.next t = Option.none ∧
      ∀ c, F.parse (u ++ d ++ c)
        = ((R.drain r d).1.1 ++ (F.parse (t ++ c)).1, (F.parse (t ++ c)).2) := by
  -- The induction is on the measure of `drain`, as it calls itself on the empty piece.
  induction hn : R.size r + d.length using Nat.strongRecOn generalizing r u d with
  | ind n ih =>
      rcases hread : R.read r d with ⟨x, r'⟩
      rcases x with e | o
      · obtain ⟨t, ht⟩ := h.error hr hread
        rw [drain_of_error hread]
        exact .inl ⟨e, rfl, fun c => Framing.parse_of_error (F.stable c ht)⟩
      cases o with
      | none =>
          obtain ⟨hnext, hrel⟩ := h.none hr hread
          rw [drain_of_none hread]
          exact .inr ⟨u ++ d, rfl, hrel, hnext, fun c => rfl⟩
      | some a =>
          obtain ⟨t, ht, hrel⟩ := h.frame hr hread
          have hlt : R.size r' + ([] : List β).length < n := by
            have := R.size_lt hread
            simp only [List.length_nil]
            omega
          -- The frame that was returned is the first frame of the stream, whatever follows.
          have hparse : ∀ c, F.parse (u ++ d ++ c) = consFrame a (F.parse (t ++ [] ++ c)) :=
            fun c => by rw [Framing.parse_of_ok (F.stable c ht), List.append_nil]
          rw [drain_of_frame hread]
          rcases ih _ hlt hrel rfl with ⟨e, he, hc⟩ | ⟨s, hs, hrel', hnext, hc⟩
          · exact .inl ⟨e, he, fun c => by rw [hparse, hc]⟩
          · refine .inr ⟨s, hs, hrel', hnext, fun c => ?_⟩
            rw [hparse, hc]
            rfl

/-- **The frames do not depend on how the stream was cut.** A reader that follows `F`, fed
piece by piece, returns the frames of the whole stream. -/
theorem Follows.feed_eq_parse (h : R.Follows F Rel) {r : ρ} {u : List β} (hr : Rel r u)
    (hu : F.next u = Option.none) (ds : List (List β)) :
    R.feed r ds = F.parse (u ++ ds.flatten) := by
  induction ds generalizing r u with
  | nil => rw [List.flatten_nil, List.append_nil, Framing.parse_of_none hu, feed]
  | cons d ds ih =>
      rw [feed, List.flatten_cons, ← List.append_assoc]
      rcases hdrain : R.drain r d with ⟨⟨as, o⟩, r'⟩
      rcases h.drain (d := d) hr with ⟨e, he, hc⟩ | ⟨t, ht, hrel, hnext, hc⟩
      · rw [hdrain] at he hc
        obtain rfl : o = some e := he
        rw [hc]
      · rw [hdrain] at ht hrel hc
        obtain rfl : o = Option.none := ht
        rw [hc]
        simp only [ih hrel hnext]

end Reader

end NfsMount.Lib
