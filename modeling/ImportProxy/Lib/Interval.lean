import Mathlib.Data.Int.ConditionallyCompleteOrder
import Mathlib.Data.Set.BooleanAlgebra
import Mathlib.Order.CompletePartialOrder
import Mathlib.Order.Interval.Set.Basic
import Mathlib.Order.Interval.Set.LinearOrder

/-!
# Closed intervals in a linear order

When two closed intervals meet, either an end point of the first lies in the
second or the first encloses the second. A test of the end points alone is
therefore complete exactly for intervals that enclose nothing.
-/

namespace Lib.Interval

universe u

variable {κ : Type u} [LinearOrder κ] {a b c d : κ}

/-- An end point of `[a, b]` lies in `[c, d]`. -/
def EndpointIn (a b c d : κ) : Prop := (c ≤ a ∧ a ≤ d) ∨ (c ≤ b ∧ b ≤ d)

/-- `[a, b]` reaches over both ends of `[c, d]`. -/
def Encloses (a b c d : κ) : Prop := a < c ∧ d < b

instance : Decidable (EndpointIn a b c d) := inferInstanceAs (Decidable (_ ∨ _))

instance : Decidable (Encloses a b c d) := inferInstanceAs (Decidable (_ ∧ _))

/-- Two closed intervals share no point exactly when one ends before the other starts. -/
theorem disjoint_iff (hab : a ≤ b) (hcd : c ≤ d) :
    Disjoint (Set.Icc a b) (Set.Icc c d) ↔ b < c ∨ d < a := by
  rw [Set.disjoint_left]
  constructor
  · intro h
    by_contra! hn
    exact h (a := max a c) ⟨le_max_left a c, max_le hab hn.1⟩ ⟨le_max_right a c, max_le hn.2 hcd⟩
  · rintro (h | h) x ⟨hx, hx'⟩ ⟨hy, hy'⟩
    · exact absurd (hy.trans hx') (not_le.mpr h)
    · exact absurd (hx.trans hy') (not_le.mpr h)

/-- Meeting intervals: an end point inside, or an enclosure. -/
theorem not_disjoint_iff (hab : a ≤ b) (hcd : c ≤ d) :
    ¬Disjoint (Set.Icc a b) (Set.Icc c d) ↔ EndpointIn a b c d ∨ Encloses a b c d := by
  rw [disjoint_iff hab hcd]
  unfold EndpointIn Encloses
  constructor
  · intro h
    push Not at h
    obtain ⟨hcb, had⟩ := h
    rcases le_or_gt c a with hca | hac
    · exact Or.inl (Or.inl ⟨hca, had⟩)
    · rcases le_or_gt b d with hbd | hdb
      · exact Or.inl (Or.inr ⟨hcb, hbd⟩)
      · exact Or.inr ⟨hac, hdb⟩
  · rintro ((⟨hca, had⟩ | ⟨hcb, hbd⟩) | ⟨hac, hdb⟩) (hbc | hda)
    · exact absurd (hca.trans hab) (not_le.mpr hbc)
    · exact absurd had (not_le.mpr hda)
    · exact absurd hcb (not_le.mpr hbc)
    · exact absurd (hab.trans hbd) (not_le.mpr hda)
    · exact absurd (hcd.trans hdb.le) (not_le.mpr hbc)
    · exact absurd (hac.le.trans hcd) (not_le.mpr hda)

end Lib.Interval
