import Mathlib.Data.List.Basic

/-!
# Runs of an input-driven machine

A machine that answers one input at a time, run on a list of inputs. A guard on
single steps extends to runs; a property of states that guarded steps preserve
holds after every guarded run.
-/

namespace Lib

universe u v

variable {σ : Type u} {ι : Type v} (step : σ → ι → σ)

/-- Every step of the run on these inputs meets the guard. -/
def Along (guard : σ → ι → Prop) : σ → List ι → Prop
  | _, [] => True
  | s, i :: is => guard s i ∧ Along guard (step s i) is

instance Along.decidable {guard : σ → ι → Prop} [∀ s i, Decidable (guard s i)] :
    (s : σ) → (is : List ι) → Decidable (Along step guard s is)
  | _, [] => isTrue True.intro
  | s, i :: is =>
    have : Decidable (Along step guard (step s i) is) := Along.decidable (step s i) is
    inferInstanceAs (Decidable (_ ∧ _))

variable {step} {guard guard' : σ → ι → Prop} {s : σ} {is js : List ι}

/-- A guard along a run is a guard along its first part and along the rest. -/
theorem along_append : Along step guard s (is ++ js) ↔
    Along step guard s is ∧ Along step guard (is.foldl step s) js := by
  induction is generalizing s with
  | nil => simp [Along]
  | cons i is ih => simp only [List.cons_append, Along, List.foldl_cons, ih, and_assoc]

/-- A guard along a run is a guard at every input, in the state the input meets. -/
theorem along_iff : Along step guard s is ↔
    ∀ before i after, is = before ++ i :: after → guard (before.foldl step s) i := by
  induction is generalizing s with
  | nil => simp [Along]
  | cons j is ih =>
    constructor
    · rintro ⟨hj, hrest⟩ before i after he
      cases before with
      | nil =>
        obtain ⟨rfl, -⟩ := List.cons.inj he
        exact hj
      | cons b before =>
        obtain ⟨rfl, ht⟩ := List.cons.inj he
        exact ih.mp hrest before i after ht
    · intro h
      refine ⟨h [] j is rfl, ih.mpr ?_⟩
      intro before i after he
      exact h (j :: before) i after (by rw [he, List.cons_append])

/-- Guards combine step by step. -/
theorem Along.and (h : Along step guard s is) (h' : Along step guard' s is) :
    Along step (fun s i ↦ guard s i ∧ guard' s i) s is := by
  rw [along_iff] at h h' ⊢
  exact fun before i after he ↦ ⟨h before i after he, h' before i after he⟩

/-- A guard on the inputs alone. -/
theorem along_of_forall {p : ι → Prop} (h : ∀ i ∈ is, p i) :
    Along step (fun _ i ↦ p i) s is := by
  rw [along_iff]
  rintro before i after rfl
  exact h i (by simp)

/-- What every guarded step preserves holds after a guarded run. -/
theorem Along.invariant (inv : σ → Prop) (h : Along step guard s is) (h0 : inv s)
    (hstep : ∀ s i, inv s → guard s i → inv (step s i)) : inv (is.foldl step s) := by
  induction is generalizing s with
  | nil => exact h0
  | cons i is ih => exact ih h.2 (hstep s i h0 h.1)

/-- What every step preserves holds after a run. -/
theorem run_invariant (inv : σ → Prop) (h0 : inv s) (hstep : ∀ s i, inv s → inv (step s i)) :
    inv (is.foldl step s) := by
  induction is generalizing s with
  | nil => exact h0
  | cons i is ih => exact ih (hstep s i h0)

/-- When a step keeps a property exactly where the guard allows the step, a run keeps the
property exactly when the guard holds along it. -/
theorem keeps_iff_along (inv p : σ → Prop) (h0 : inv s) (hinv : ∀ s i, inv s → inv (step s i))
    (hstep : ∀ s i, inv s → (p (step s i) ↔ p s ∧ guard s i)) :
    p (is.foldl step s) ↔ p s ∧ Along step guard s is := by
  induction is generalizing s with
  | nil => simp [Along]
  | cons i is ih =>
    rw [List.foldl_cons, ih (hinv s i h0), hstep s i h0, and_assoc]
    rfl

end Lib
