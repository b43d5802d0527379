import Mathlib.Data.List.Sort

/-!
# Ring buffers

A bounded buffer that overwrites its oldest element when it is full. The view
is the list of the elements from front to back; the bound on its length is a
field, so an over-full buffer cannot be built.
-/

namespace Lib

universe u v

/-- A buffer of at most `capacity` elements, listed from front to back. -/
@[ext] structure Ring (α : Type u) where
  toList : List α
  capacity : Nat
  length_le : toList.length ≤ capacity

namespace Ring

variable {α : Type u} {κ : Type v}

/-- The buffer without elements. -/
def empty (capacity : Nat) : Ring α := ⟨[], capacity, Nat.zero_le _⟩

/-- Whether a further element overwrites an older one. -/
def full (r : Ring α) : Bool := r.toList.length == r.capacity

/-- The oldest position. -/
def front? (r : Ring α) : Option α := r.toList.head?

/-- The newest position. -/
def back? (r : Ring α) : Option α := r.toList.getLast?

private theorem length_tail_append (r : Ring α) (x : α) :
    (r.toList ++ [x]).tail.length ≤ r.capacity := by
  have h := r.length_le
  simp only [List.length_tail, List.length_append, List.length_singleton]
  omega

private theorem length_lt_of_not_full (r : Ring α) (h : ¬r.full = true) :
    r.toList.length < r.capacity := by
  have hl := r.length_le
  have hn : r.toList.length ≠ r.capacity := by simpa [full] using h
  omega

/-- Append at the back; a full buffer loses its front. -/
def pushBack (r : Ring α) (x : α) : Ring α :=
  if h : r.full then ⟨(r.toList ++ [x]).tail, r.capacity, length_tail_append r x⟩
  else ⟨r.toList ++ [x], r.capacity, by
    have := length_lt_of_not_full r h
    simp only [List.length_append, List.length_singleton]
    omega⟩

/-- Prepend at the front; a full buffer loses its back. -/
def pushFront (r : Ring α) (x : α) : Ring α :=
  if h : r.full then ⟨(x :: r.toList).dropLast, r.capacity, by
    have := r.length_le
    simp only [List.length_dropLast, List.length_cons]
    omega⟩
  else ⟨x :: r.toList, r.capacity, by
    have := length_lt_of_not_full r h
    simp only [List.length_cons]
    omega⟩

/-- Sort the elements in place by a key. -/
def sortBy [LinearOrder κ] (key : α → κ) (r : Ring α) : Ring α :=
  ⟨r.toList.insertionSort (fun a b ↦ key a ≤ key b), r.capacity, by
    simpa only [List.length_insertionSort] using r.length_le⟩

@[simp] theorem toList_empty (n : Nat) : (empty n : Ring α).toList = [] := rfl

@[simp] theorem capacity_empty (n : Nat) : (empty n : Ring α).capacity = n := rfl

/-- A buffer is full exactly when its length is its capacity. -/
theorem full_iff (r : Ring α) : r.full = true ↔ r.toList.length = r.capacity := by
  simp only [full, beq_iff_eq]

/-- A buffer that is not full has room for one more element. -/
theorem not_full_iff (r : Ring α) : r.full = false ↔ r.toList.length < r.capacity := by
  have h := r.length_le
  rw [← Bool.not_eq_true, full_iff]
  omega

@[simp] theorem capacity_pushBack (r : Ring α) (x : α) :
    (r.pushBack x).capacity = r.capacity := by
  unfold pushBack
  split <;> rfl

@[simp] theorem capacity_pushFront (r : Ring α) (x : α) :
    (r.pushFront x).capacity = r.capacity := by
  unfold pushFront
  split <;> rfl

@[simp] theorem capacity_sortBy [LinearOrder κ] (key : α → κ) (r : Ring α) :
    (r.sortBy key).capacity = r.capacity := rfl

/-- Appending to a full buffer drops the front. -/
theorem toList_pushBack_of_full {r : Ring α} (h : r.full = true) (x : α) :
    (r.pushBack x).toList = (r.toList ++ [x]).tail := by
  simp only [pushBack, h, ↓reduceDIte]

/-- Appending to a buffer with room keeps every element. -/
theorem toList_pushBack_of_not_full {r : Ring α} (h : r.full = false) (x : α) :
    (r.pushBack x).toList = r.toList ++ [x] := by
  simp only [pushBack, h, Bool.false_eq_true, ↓reduceDIte]

/-- The elements that the next append keeps. -/
def retained (r : Ring α) : List α := if r.full then r.toList.tail else r.toList

theorem retained_of_full {r : Ring α} (h : r.full = true) : r.retained = r.toList.tail := by
  rw [retained, if_pos h]

theorem retained_of_not_full {r : Ring α} (h : r.full = false) : r.retained = r.toList := by
  rw [retained, if_neg (by simp [h])]

theorem retained_sublist (r : Ring α) : r.retained.Sublist r.toList := by
  unfold retained
  split
  · exact List.tail_sublist _
  · exact List.Sublist.refl _

/-- An append to a non-empty buffer puts the element behind the retained ones. -/
theorem toList_pushBack {r : Ring α} (hne : r.toList ≠ []) (x : α) :
    (r.pushBack x).toList = r.retained ++ [x] := by
  cases hf : r.full with
  | true => rw [toList_pushBack_of_full hf, retained_of_full hf, List.tail_append_of_ne_nil hne]
  | false => rw [toList_pushBack_of_not_full hf, retained_of_not_full hf]

/-- The first append to an empty buffer of positive capacity. -/
theorem toList_pushBack_empty {n : Nat} (hn : 0 < n) (x : α) :
    ((empty n : Ring α).pushBack x).toList = [x] := by
  have hf : (empty n : Ring α).full = false := by
    rw [not_full_iff]
    exact hn
  rw [toList_pushBack_of_not_full hf, toList_empty, List.nil_append]

/-- Prepending to a buffer with room keeps every element. -/
theorem toList_pushFront_of_not_full {r : Ring α} (h : r.full = false) (x : α) :
    (r.pushFront x).toList = x :: r.toList := by
  simp only [pushFront, h, Bool.false_eq_true, ↓reduceDIte]

end Ring
end Lib
