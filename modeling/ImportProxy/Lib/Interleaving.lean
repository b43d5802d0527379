import Mathlib.Data.List.Basic

/-!
# Interleavings

A list made of two lists, the elements of each in their order. A queue that
delivers some of its elements and drops others leaves such a record: what went
in is an interleaving of what was kept and what was dropped.
-/

namespace Lib

universe u

variable {α : Type u} {kept kept' dropped dropped' all all' : List α}

/-- `all` has the elements of `kept` and of `dropped`, those of each in their order. -/
inductive Interleaved : List α → List α → List α → Prop
  | nil : Interleaved [] [] []
  | keep (x : α) {kept dropped all : List α} (h : Interleaved kept dropped all) :
      Interleaved (x :: kept) dropped (x :: all)
  | drop (x : α) {kept dropped all : List α} (h : Interleaved kept dropped all) :
      Interleaved kept (x :: dropped) (x :: all)

namespace Interleaved

/-- Everything is kept. -/
theorem all_kept (l : List α) : Interleaved l [] l := by
  induction l with
  | nil => exact .nil
  | cons x l ih => exact .keep x ih

/-- Everything is dropped. -/
theorem all_dropped (l : List α) : Interleaved [] l l := by
  induction l with
  | nil => exact .nil
  | cons x l ih => exact .drop x ih

/-- One interleaving behind another. -/
theorem append (h : Interleaved kept dropped all) (h' : Interleaved kept' dropped' all') :
    Interleaved (kept ++ kept') (dropped ++ dropped') (all ++ all') := by
  induction h with
  | nil => exact h'
  | keep x h ih => exact .keep x ih
  | drop x h ih => exact .drop x ih

/-- The next elements are kept. -/
theorem append_kept (h : Interleaved kept dropped all) (l : List α) :
    Interleaved (kept ++ l) dropped (all ++ l) := by
  simpa only [List.append_nil] using h.append (all_kept l)

/-- The next elements are dropped. -/
theorem append_dropped (h : Interleaved kept dropped all) (l : List α) :
    Interleaved kept (dropped ++ l) (all ++ l) := by
  simpa only [List.append_nil] using h.append (all_dropped l)

/-- Every element is kept or dropped, and none is both. -/
theorem length_eq (h : Interleaved kept dropped all) :
    all.length = kept.length + dropped.length := by
  induction h with
  | nil => rfl
  | keep x h ih =>
    simp only [List.length_cons, ih]
    omega
  | drop x h ih =>
    simp only [List.length_cons, ih]
    omega

end Interleaved
end Lib
