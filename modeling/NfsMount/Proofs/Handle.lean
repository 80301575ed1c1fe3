import NfsMount.Mount.Handle

/-!
# `NfsMount.Proofs.Handle`: handle ids are not reused

A run is a list of operations on a new table, and its trace has the operations with the ids
that the insertions returned. The reference reads off the trace what is open under an id: the
file that was inserted under it, with what was written through it since, until it is removed.

The table is the reference at every id (`get_play`). The ids of a run are consecutive from the
counter on (`returned_trace`), so they are different as long as the counter does not come
around.
-/

set_option autoImplicit false

namespace NfsMount.Mount

open NfsMount.Lib

/-- The calls of a handle table. -/
inductive HandleOp where
  | insert (file : OpenFile)
  | get (handle : UInt64)
  | getMut (handle : UInt64) (write : OpenFile → OpenFile)
  | remove (handle : UInt64)

namespace HandleOp

/-- Whether the call makes a handle. -/
def isInsert : HandleOp → Bool
  | .insert _ => true
  | _ => false

end HandleOp

/-- What happened to the files of a table. -/
inductive HandleEvent where
  | inserted (id : UInt64) (file : OpenFile)
  | looked (id : UInt64)
  | written (id : UInt64) (write : OpenFile → OpenFile)
  | removed (id : UInt64)

namespace HandleEvent

/-- The one id that the event is about. -/
def id : HandleEvent → UInt64
  | .inserted id _ | .looked id | .written id _ | .removed id => id

/-- The id that was returned, for an insertion. -/
def returnedId : HandleEvent → Option UInt64
  | .inserted id _ => some id
  | _ => none

/-- What is open under `id`, after one more event. -/
def remember (id : UInt64) (file : Option OpenFile) : HandleEvent → Option OpenFile
  | .inserted id' new => if id = id' then some new else file
  | .looked _ => file
  | .written id' write => if id = id' then file.map write else file
  | .removed id' => if id = id' then none else file

/-- The file inserted under `id`, as last written, until it is removed. -/
def fileOf (id : UInt64) (trace : List HandleEvent) : Option OpenFile :=
  trace.foldl (remember id) none

/-- The ids that were returned, in order. -/
def returned (trace : List HandleEvent) : List UInt64 := trace.filterMap returnedId

/-- What happens to other handles is of no account. -/
theorem remember_of_ne {id : UInt64} {e : HandleEvent} (h : e.id ≠ id)
    (file : Option OpenFile) : remember id file e = file := by
  have hne : id ≠ e.id := h.symm
  cases e with
  | inserted id' new => exact if_neg hne
  | looked id' => rfl
  | written id' write => exact if_neg hne
  | removed id' => exact if_neg hne

/-- An id that is not open stays so until it is returned. -/
theorem foldl_remember_none {id : UInt64} {trace : List HandleEvent} (h : id ∉ returned trace) :
    trace.foldl (remember id) none = none := by
  induction trace with
  | nil => rfl
  | cons e trace ih =>
      cases e with
      | inserted id' new =>
          have hcons : returned (.inserted id' new :: trace) = id' :: returned trace := rfl
          rw [hcons, List.mem_cons, not_or] at h
          rw [List.foldl_cons, remember, if_neg h.1]
          exact ih h.2
      | looked id' => exact ih h
      | written id' write =>
          rw [List.foldl_cons, remember, Option.map_none, ite_self]
          exact ih h
      | removed id' =>
          rw [List.foldl_cons, remember, ite_self]
          exact ih h

end HandleEvent

namespace HandleTable

/-- The table after a call. -/
def apply (t : HandleTable) : HandleOp → HandleTable
  | .insert file => (t.insert file).2
  | .get _ => t
  | .getMut handle write => t.getMut handle write
  | .remove handle => (t.remove handle).2

/-- The operation with the id that it is about. -/
def event (t : HandleTable) : HandleOp → HandleEvent
  | .insert file => .inserted (t.insert file).1 file
  | .get handle => .looked handle
  | .getMut handle write => .written handle write
  | .remove handle => .removed handle

/-- The table after a list of operations. -/
def play (t : HandleTable) (ops : List HandleOp) : HandleTable := ops.foldl apply t

/-- What happens in the course of them. -/
def trace : HandleTable → List HandleOp → List HandleEvent
  | _, [] => []
  | t, op :: ops => t.event op :: (t.apply op).trace ops

/-- One list of calls behind another. -/
theorem play_append (t : HandleTable) (ops ops' : List HandleOp) :
    t.play (ops ++ ops') = (t.play ops).play ops' := List.foldl_append

/-- What the second list of calls does is seen behind the first. -/
theorem trace_append (t : HandleTable) (ops ops' : List HandleOp) :
    t.trace (ops ++ ops') = t.trace ops ++ (t.play ops).trace ops' := by
  induction ops generalizing t with
  | nil => rfl
  | cons op ops ih =>
      rw [List.cons_append, trace, trace, ih, List.cons_append]
      rfl

/-- **Step.** What is found under an id follows the event. -/
theorem get_apply (t : HandleTable) (op : HandleOp) (id : UInt64) :
    (t.apply op).get id = HandleEvent.remember id (t.get id) (t.event op) := by
  cases op with
  | insert file => exact HashMap.lookup_insert_eq t.handles t.nextId id file
  | get handle => rfl
  | getMut handle write => exact HashMap.lookup_modify t.handles handle id write
  | remove handle => exact HashMap.lookup_erase_eq t.handles handle id

/-- **Run.** What is found under an id follows the trace. -/
theorem get_play (t : HandleTable) (ops : List HandleOp) (id : UInt64) :
    (t.play ops).get id = (t.trace ops).foldl (HandleEvent.remember id) (t.get id) := by
  induction ops generalizing t with
  | nil => rfl
  | cons op ops ih =>
      rw [trace, List.foldl_cons, ← get_apply]
      exact ih (t.apply op)

/-- The ids of a run are consecutive. -/
theorem returned_trace (t : HandleTable) (ops : List HandleOp) :
    HandleEvent.returned (t.trace ops) =
      (List.range (ops.countP HandleOp.isInsert)).map fun k => t.nextId + UInt64.ofNat k := by
  induction ops generalizing t with
  | nil => rfl
  | cons op ops ih =>
      cases op with
      | insert file =>
          have hcons : HandleEvent.returned (t.trace (.insert file :: ops)) =
            t.nextId :: HandleEvent.returned ((t.insert file).2.trace ops) := rfl
          rw [hcons, ih, List.countP_cons_of_pos rfl, List.range_succ_eq_map, List.map_cons,
            List.map_map]
          congr 1
          · exact (UInt64.add_zero t.nextId).symm
          · apply List.map_congr_left
            intro k _
            show t.nextId + 1 + UInt64.ofNat k = t.nextId + UInt64.ofNat (k + 1)
            rw [UInt64.ofNat_add, UInt64.add_assoc, UInt64.add_comm 1]
            rfl
      | get handle => exact ih t
      | getMut handle write => exact ih (t.getMut handle write)
      | remove handle => exact ih (t.remove handle).2

/-- The ids of a run are different until the counter comes around. -/
theorem nodup_returned (t : HandleTable) {ops : List HandleOp}
    (h : ops.countP HandleOp.isInsert ≤ 2 ^ 64) :
    (HandleEvent.returned (t.trace ops)).Nodup := by
  rw [returned_trace]
  apply List.Nodup.map_on _ List.nodup_range
  intro j hj k hk heq
  rw [List.mem_range] at hj hk
  have hofNat := (UInt64.add_right_inj t.nextId).mp heq
  have htoNat := congrArg UInt64.toNat hofNat
  have hjlt : j < UInt64.size := Nat.lt_of_lt_of_le hj h
  have hklt : k < UInt64.size := Nat.lt_of_lt_of_le hk h
  rwa [UInt64.toNat_ofNat_of_lt' hjlt, UInt64.toNat_ofNat_of_lt' hklt] at htoNat

/-- **Handle ids are not reused.** In a run on a new table with fewer insertions than there are
ids, the ids returned are all different. Under every id there is the file inserted under it, as
last written, until it is removed, and nothing under an id that was not returned. An operation
leaves what is under the other ids alone. An id that is not open any more stays so. -/
theorem handles_not_reused (ops : List HandleOp)
    (h : ops.countP HandleOp.isInsert < 2 ^ 64 - 1) :
    (HandleEvent.returned (new.trace ops)).Nodup ∧
    (∀ id, (new.play ops).get id = HandleEvent.fileOf id (new.trace ops)) ∧
    (∀ id, id ∉ HandleEvent.returned (new.trace ops) → (new.play ops).get id = none) ∧
    (∀ op id, ((new.play ops).event op).id ≠ id →
      ((new.play ops).apply op).get id = (new.play ops).get id) ∧
    ∀ before after, ops = before ++ after →
      ∀ id ∈ HandleEvent.returned (new.trace before), (new.play before).get id = none →
        (new.play ops).get id = none := by
  have hcount : ops.countP HandleOp.isInsert ≤ 2 ^ 64 := by omega
  have hnodup := nodup_returned new hcount
  refine ⟨hnodup, fun id => ?_, fun id hid => ?_, fun op id hne => ?_, ?_⟩
  · exact get_play new ops id
  · rw [get_play]
    exact HandleEvent.foldl_remember_none hid
  · rw [get_apply, HandleEvent.remember_of_ne hne]
  · rintro before after rfl id hid hnone
    -- The id was returned before, so it is not returned again.
    have hsplit : HandleEvent.returned (new.trace (before ++ after)) =
        HandleEvent.returned (new.trace before) ++
          HandleEvent.returned ((new.play before).trace after) := by
      rw [trace_append]
      exact List.filterMap_append
    rw [hsplit, List.nodup_append] at hnodup
    have hafter : id ∉ HandleEvent.returned ((new.play before).trace after) :=
      fun hmem => hnodup.2.2 id hid id hmem rfl
    rw [play_append, get_play, hnone]
    exact HandleEvent.foldl_remember_none hafter

/-- Three files are opened, and the first one is closed before the third is opened. -/
def threeFiles : List HandleOp :=
  let file : OpenFile :=
    { nfsFh := ⟨[]⟩, stateid := ⟨0, ⟨List.replicate 12 0, rfl⟩⟩, isDir := false, read := true,
      write := false, offset := 0 }
  [.insert file, .insert file, .remove 1, .insert file, .getMut 2 fun f => { f with offset := 8 }]

/-- Three files are opened, and one of them is closed. -/
theorem threeFiles_not_reused :
    HandleEvent.returned (new.trace threeFiles) = [1, 2, 3] ∧
    (HandleEvent.returned (new.trace threeFiles)).Nodup ∧
    (new.play threeFiles).get 1 = HandleEvent.fileOf 1 (new.trace threeFiles) ∧
    (new.play threeFiles).get 4 = none := by
  have hrun := handles_not_reused threeFiles (by decide)
  exact ⟨by decide, hrun.1, hrun.2.1 1, hrun.2.2.1 4 (by decide)⟩

end HandleTable

end NfsMount.Mount
