import Mathlib.Data.List.Basic

namespace Erase

variable {β : Type*}

-- Each element takes on its successor by the assignment. The last one is destroyed.
def shiftDown (assign : β → β → β) : List β → List β
  | [] => []
  | [_] => []
  | target :: next :: rest => assign target next :: shiftDown assign (next :: rest)

-- Removal from an array: the elements from `index` on are shifted down.
def erase (assign : β → β → β) (index : Nat) (items : List β) : List β :=
  items.take index ++ shiftDown assign (items.drop index)

-- An assignment that assigns shifts the tail.
theorem shiftDown_assigned (items : List β) : shiftDown (fun _ next => next) items = items.tail := by
  induction items with
  | nil => rfl
  | cons target rest ih =>
      cases rest with
      | nil => rfl
      | cons next rest =>
          rw [shiftDown, ih]
          rfl

-- One that assigns nothing leaves all elements but the last where they are.
theorem shiftDown_kept (items : List β) : shiftDown (fun target _ => target) items = items.dropLast := by
  induction items with
  | nil => rfl
  | cons target rest ih =>
      cases rest with
      | nil => rfl
      | cons next rest => rw [shiftDown, ih, List.dropLast_cons_cons]

theorem erase_assigned (index : Nat) (items : List β) :
    erase (fun _ next => next) index items = items.eraseIdx index := by
  rw [erase, shiftDown_assigned, List.tail_drop, List.eraseIdx_eq_take_drop_succ]

theorem erase_kept (index : Nat) (items : List β) (h : index < items.length) :
    erase (fun target _ => target) index items = items.dropLast := by
  have hne : items.drop index ≠ [] := by
    rw [ne_eq, List.drop_eq_nil_iff]
    omega
  rw [erase, shiftDown_kept, ← List.dropLast_append_of_ne_nil hne, List.take_append_drop]

end Erase
