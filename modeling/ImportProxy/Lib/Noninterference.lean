import Mathlib.Data.List.Basic

/-!
# Noninterference

A machine that answers one input at a time. When a relation on states is kept by
equal answers to visible inputs, and by hidden inputs on one side only, the
answers to the visible inputs are those of the run without the hidden ones.
Where inputs are hidden depending on the state, and states are compared by a
view of them, the view is that of the run without the hidden inputs.
-/

namespace Lib

universe u v w

variable {σ : Type u} {ι : Type v} {ο : Type w} (step : σ → ι → ο × σ) (visible : ι → Bool)

/-- The answers of a run. -/
def answers : σ → List ι → List ο
  | _, [] => []
  | s, i :: is => (step s i).1 :: answers (step s i).2 is

/-- The answers of a run to the visible inputs. -/
def visibleAnswers : σ → List ι → List ο
  | _, [] => []
  | s, i :: is =>
    (if visible i then [(step s i).1] else []) ++ visibleAnswers (step s i).2 is

/-- A relation on states under which hidden inputs do not show. -/
structure Unwinding (p : ι → Prop) (R : σ → σ → Prop) : Prop where
  same : ∀ s s' i, p i → visible i = true → R s s' →
    (step s i).1 = (step s' i).1 ∧ R (step s i).2 (step s' i).2
  unseen : ∀ s s' i, p i → visible i = false → R s s' → R (step s i).2 s'

variable {step visible}

/-- The visible answers are those of the run on the visible inputs alone. -/
theorem Unwinding.visibleAnswers_eq {p : ι → Prop} {R : σ → σ → Prop}
    (h : Unwinding step visible p R) {s s' : σ} {is : List ι} (hR : R s s') (hp : ∀ i ∈ is, p i) :
    visibleAnswers step visible s is = answers step s' (is.filter visible) := by
  induction is generalizing s s' with
  | nil => rfl
  | cons i is ih =>
    have hi := hp i List.mem_cons_self
    have hrest : ∀ j ∈ is, p j := fun j hj ↦ hp j (List.mem_cons_of_mem i hj)
    cases hv : visible i with
    | true =>
      obtain ⟨hanswer, hR⟩ := h.same s s' i hi hv hR
      rw [visibleAnswers, if_pos hv, List.filter_cons_of_pos hv, answers, hanswer,
        List.singleton_append, ih hR hrest]
    | false =>
      have hR := h.unseen s s' i hi hv hR
      rw [visibleAnswers, if_neg (by simp [hv]), List.filter_cons_of_neg (by simp [hv]),
        List.nil_append, ih hR hrest]

section View

variable {τ : Type w} (act : σ → ι → σ) (shows : σ → ι → Bool) (view : σ → τ)

/-- The inputs of a run that show in their state. -/
def visibleInputs : σ → List ι → List ι
  | _, [] => []
  | s, i :: is => if shows s i then i :: visibleInputs (act s i) is else visibleInputs (act s i) is

/-- Hidden inputs do not change the view, and it alone decides what visible ones make of it. -/
structure Oblivious : Prop where
  same : ∀ s s' i, shows s i = true → view s = view s' → view (act s i) = view (act s' i)
  unseen : ∀ s i, shows s i = false → view (act s i) = view s

variable {act shows view}

/-- The view of a run is that of the run on its visible inputs alone. -/
theorem Oblivious.view_foldl (h : Oblivious act shows view) {s s' : σ} (hview : view s = view s')
    (is : List ι) :
    view (is.foldl act s) = view ((visibleInputs act shows s is).foldl act s') := by
  induction is generalizing s s' with
  | nil => exact hview
  | cons i is ih =>
    rw [List.foldl_cons, visibleInputs]
    cases hv : shows s i with
    | true =>
      rw [if_pos rfl, List.foldl_cons]
      exact ih (h.same s s' i hv hview)
    | false =>
      rw [if_neg Bool.false_ne_true]
      exact ih ((h.unseen s i hv).trans hview)

end View
end Lib
