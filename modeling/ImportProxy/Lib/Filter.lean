import ImportProxy.Lib.Machine
import Mathlib.Data.List.Perm.Basic

/-!
# Filters with a state

A filter looks at one element at a time, lets it pass or rejects it, and goes on in a new
state. On a list of elements, those that pass and those that are rejected make up the list.
What the filter knows of the elements that it has let through carries over to all pairs of
elements that pass.
-/

namespace Lib

universe u v

/-- Whether an element passes, and the state behind it. -/
structure Filter (δ : Type u) (π : Type v) where
  accepts : δ → π → Bool
  next : δ → π → δ

namespace Filter

variable {δ : Type u} {π : Type v} (F : Filter δ π)

/-- The state behind a list of elements. -/
def after (d : δ) (ps : List π) : δ := ps.foldl F.next d

/-- The elements of a list that pass. -/
def passed : δ → List π → List π
  | _, [] => []
  | d, p :: ps => if F.accepts d p then p :: passed (F.next d p) ps else passed (F.next d p) ps

/-- The elements of a list that are rejected. -/
def rejected : δ → List π → List π
  | _, [] => []
  | d, p :: ps => if F.accepts d p then rejected (F.next d p) ps else p :: rejected (F.next d p) ps

variable {F} {d : δ} {p : π} {ps qs : List π}

theorem after_concat : F.after d (ps ++ [p]) = F.next (F.after d ps) p := by
  unfold after
  rw [List.foldl_append, List.foldl_cons, List.foldl_nil]

theorem passed_append : F.passed d (ps ++ qs) = F.passed d ps ++ F.passed (F.after d ps) qs := by
  induction ps generalizing d with
  | nil => rfl
  | cons p ps ih =>
    rw [List.cons_append, passed, passed, ih]
    split <;> rfl

theorem rejected_append :
    F.rejected d (ps ++ qs) = F.rejected d ps ++ F.rejected (F.after d ps) qs := by
  induction ps generalizing d with
  | nil => rfl
  | cons p ps ih =>
    rw [List.cons_append, rejected, rejected, ih]
    split <;> rfl

/-- One more element that passes. -/
theorem passed_concat_of_accepts (h : F.accepts (F.after d ps) p = true) :
    F.passed d (ps ++ [p]) = F.passed d ps ++ [p] ∧ F.rejected d (ps ++ [p]) = F.rejected d ps := by
  rw [passed_append, rejected_append, passed, rejected, if_pos h, if_pos h]
  exact ⟨rfl, List.append_nil _⟩

/-- One more element that is rejected. -/
theorem rejected_concat_of_not_accepts (h : F.accepts (F.after d ps) p = false) :
    F.passed d (ps ++ [p]) = F.passed d ps ∧ F.rejected d (ps ++ [p]) = F.rejected d ps ++ [p] := by
  have hnot : ¬F.accepts (F.after d ps) p = true := by simp [h]
  rw [passed_append, rejected_append, passed, rejected, if_neg hnot, if_neg hnot]
  exact ⟨List.append_nil _, rfl⟩

/-- While the state excludes an element, and every guarded step keeps it excluded, it is not among
those that pass. -/
theorem forall_passed {I : δ → Prop} {excludes : δ → Prop} {r : π → Prop} {guard : δ → π → Prop}
    (hI : ∀ d p, I d → guard d p → I (F.next d p))
    (hkeep : ∀ d p, I d → guard d p → excludes d → excludes (F.next d p))
    (hstop : ∀ d p, I d → guard d p → excludes d → F.accepts d p = true → r p)
    (hd : I d) (hex : excludes d) (hguard : Along F.next guard d ps) :
    ∀ p ∈ F.passed d ps, r p := by
  induction ps generalizing d with
  | nil => simp [passed]
  | cons p ps ih =>
    obtain ⟨hp, hrest⟩ := hguard
    have htail := ih (hI d p hd hp) (hkeep d p hd hp hex) hrest
    intro q hq
    rw [passed] at hq
    split at hq
    · next haccepts =>
      rcases List.mem_cons.mp hq with rfl | hq
      · exact hstop d q hd hp hex haccepts
      · exact htail q hq
    · exact htail q hq

/-- What an accepted element leaves behind in the state, every guarded step keeps; and what it
rules out for later elements holds of all pairs that pass. -/
theorem pairwise_passed {I : δ → Prop} {knows : δ → π → Prop} {r : π → π → Prop}
    {guard : δ → π → Prop} (hI : ∀ d p, I d → guard d p → I (F.next d p))
    (hlearn : ∀ d p, I d → guard d p → F.accepts d p = true → knows (F.next d p) p)
    (hkeep : ∀ d p q, I d → guard d q → knows d p → knows (F.next d q) p)
    (hstop : ∀ d p q, I d → guard d q → knows d p → F.accepts d q = true → r p q)
    (hd : I d) (hguard : Along F.next guard d ps) : (F.passed d ps).Pairwise r := by
  induction ps generalizing d with
  | nil => exact List.Pairwise.nil
  | cons p ps ih =>
    obtain ⟨hp, hrest⟩ := hguard
    have htail := ih (hI d p hd hp) hrest
    rw [passed]
    split
    · next haccepts =>
      apply List.Pairwise.cons _ htail
      exact forall_passed hI (fun d q hd hq ↦ hkeep d p q hd hq)
        (fun d q hd hq ↦ hstop d p q hd hq) (hI d p hd hp) (hlearn d p hd hp haccepts) hrest
    · exact htail

end Filter
end Lib
