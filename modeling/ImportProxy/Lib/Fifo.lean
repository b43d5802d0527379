import Mathlib.Data.List.Basic

/-!
# Bounded queues

A first-in first-out queue whose operations never block: an insertion into a
full queue and a removal from an empty one fail. The bound is a field.
-/

namespace Lib

universe u

/-- A queue of at most `capacity` elements, listed from oldest to newest. -/
@[ext] structure Fifo (α : Type u) where
  toList : List α
  capacity : Nat
  length_le : toList.length ≤ capacity
  deriving DecidableEq

namespace Fifo

variable {α : Type u} {q q' : Fifo α} {x : α}

/-- The queue without elements. -/
def empty (capacity : Nat) : Fifo α := ⟨[], capacity, Nat.zero_le _⟩

/-- The number of elements. -/
def size (q : Fifo α) : Nat := q.toList.length

/-- Remove the oldest element; none when there is none. -/
def tryPop (q : Fifo α) : Option (α × Fifo α) :=
  match h : q.toList with
  | [] => none
  | x :: rest => some (x, ⟨rest, q.capacity, by
      have hle := q.length_le
      rw [h, List.length_cons] at hle
      omega⟩)

/-- Insert an element as the newest; none when the queue is full. -/
def tryPush (q : Fifo α) (x : α) : Option (Fifo α) :=
  if h : q.size < q.capacity then
    some ⟨q.toList ++ [x], q.capacity, by
      rw [List.length_append, List.length_singleton]
      exact h⟩
  else none

@[simp] theorem toList_empty (n : Nat) : (empty n : Fifo α).toList = [] := rfl

@[simp] theorem capacity_empty (n : Nat) : (empty n : Fifo α).capacity = n := rfl

theorem size_le (q : Fifo α) : q.size ≤ q.capacity := q.length_le

/-- A removal takes the oldest element. -/
theorem tryPop_eq_some_iff :
    q.tryPop = some (x, q') ↔ q.toList = x :: q'.toList ∧ q'.capacity = q.capacity := by
  unfold tryPop
  split
  · next h => simp [h]
  · next y rest h =>
    constructor
    · intro he
      cases he
      exact ⟨h, rfl⟩
    · rintro ⟨he, hc⟩
      obtain ⟨rfl, hl⟩ := List.cons.inj (h.symm.trans he)
      rw [Option.some.injEq, Prod.mk.injEq]
      exact ⟨rfl, Fifo.ext hl hc.symm⟩

/-- A removal fails exactly on an empty queue. -/
theorem tryPop_eq_none_iff : q.tryPop = none ↔ q.toList = [] := by
  unfold tryPop
  split
  · next h => simp [h]
  · next y rest h => simp [h]

/-- A removal from a queue that is not empty makes room. -/
theorem exists_tryPop (h : 0 < q.size) : ∃ x q', q.tryPop = some (x, q') ∧
    q.toList = x :: q'.toList ∧ q'.capacity = q.capacity ∧ q.size = q'.size + 1 := by
  cases hpop : q.tryPop with
  | none =>
    rw [size, tryPop_eq_none_iff.mp hpop, List.length_nil] at h
    omega
  | some popped =>
    obtain ⟨x, q'⟩ := popped
    obtain ⟨hl, hcap⟩ := tryPop_eq_some_iff.mp hpop
    refine ⟨x, q', rfl, hl, hcap, ?_⟩
    rw [size, hl, List.length_cons, size]

/-- An insertion succeeds exactly when there is room, and appends. -/
theorem tryPush_eq_some_iff : q.tryPush x = some q' ↔
    q.size < q.capacity ∧ q'.toList = q.toList ++ [x] ∧ q'.capacity = q.capacity := by
  unfold tryPush
  split
  · next h =>
    constructor
    · intro he
      cases he
      exact ⟨h, rfl, rfl⟩
    · rintro ⟨-, hl, hc⟩
      rw [Option.some.injEq]
      exact Fifo.ext hl.symm hc.symm
  · next h => simp [h]

/-- An insertion fails exactly on a full queue. -/
theorem tryPush_eq_none_iff : q.tryPush x = none ↔ q.size = q.capacity := by
  have hle := q.size_le
  unfold tryPush
  split
  · next h =>
    simp only [reduceCtorEq, false_iff]
    omega
  · next h =>
    simp only [true_iff]
    omega

end Fifo
end Lib
