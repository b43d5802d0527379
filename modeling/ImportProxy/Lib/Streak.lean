import Mathlib.Data.List.DropRight

/-!
# Streaks

The length of the run of `true` at the end of a list, and the first prefix of a
list with a given property.
-/

namespace Lib

universe u

variable {α : Type u}

/-- The length of the run of `true` at the end. -/
def streak (l : List Bool) : Nat := (l.rtakeWhile id).length

@[simp] theorem streak_nil : streak [] = 0 := rfl

@[simp] theorem streak_concat_true (l : List Bool) : streak (l ++ [true]) = streak l + 1 := by
  rw [streak, List.rtakeWhile_concat_pos _ _ true rfl, List.length_append]
  rfl

@[simp] theorem streak_concat_false (l : List Bool) : streak (l ++ [false]) = 0 := by
  rw [streak, List.rtakeWhile_concat_neg _ _ false Bool.false_ne_true]
  rfl

theorem streak_append_replicate (l : List Bool) (n : Nat) :
    streak (l ++ List.replicate n true) = streak l + n := by
  induction n with
  | zero => rw [List.replicate_zero, List.append_nil, Nat.add_zero]
  | succ n ih =>
    rw [List.replicate_succ', ← List.append_assoc, streak_concat_true, ih, Nat.add_assoc]

/-- A list ends with `n` times `true` when its streak is that long. -/
theorem replicate_suffix_iff {n : Nat} {l : List Bool} :
    List.replicate n true <:+ l ↔ n ≤ streak l := by
  induction l using List.reverseRecOn generalizing n with
  | nil => simp
  | append_singleton l b ih =>
    cases n with
    | zero => simp
    | succ n =>
      rw [List.replicate_succ', List.suffix_concat_iff]
      cases b with
      | true =>
        rw [streak_concat_true, Nat.add_le_add_iff_right, ← ih]
        simp
      | false => simp

/-- Where some prefix has a property, there is a first one. -/
theorem exists_first_prefix {Q : List α → Prop} {l : List α} (h : ∃ p, p <+: l ∧ Q p) :
    ∃ p, p <+: l ∧ Q p ∧ ∀ q, q <+: p → q ≠ p → ¬Q q := by
  obtain ⟨p, hp, hQ⟩ := h
  induction hn : p.length using Nat.strong_induction_on generalizing p with
  | _ n ih =>
    by_cases hearlier : ∃ q, q <+: p ∧ q ≠ p ∧ Q q
    · obtain ⟨q, hq, hne, hQq⟩ := hearlier
      have hlt : q.length < n := by
        rw [← hn]
        exact lt_of_le_of_ne hq.length_le fun he ↦ hne (hq.eq_of_length he)
      exact ih q.length hlt q (hq.trans hp) hQq rfl
    · exact ⟨p, hp, hQ, fun q hq hne hQq ↦ hearlier ⟨q, hq, hne, hQq⟩⟩

end Lib
