import Mathlib.Data.List.DropRight
import Mathlib.Data.List.Forall2

/-!
# Spellings and normal forms

A text that is read without regard to blank elements around it and up to a
folding of its elements, such as letter case. The normal form drops the blanks at
both ends and folds the rest; it is the same for two lists exactly when they spell
the same text.
-/

namespace Lib

universe u v

variable {α : Type u} {β : Type v} {blank : α → Bool} {fold : α → α} {l l' core : List α}

/-- The list without the blank elements at its ends. -/
def strip (blank : α → Bool) (l : List α) : List α := (l.dropWhile blank).rdropWhile blank

/-- Neither end of the list is blank. -/
structure Stripped (blank : α → Bool) (l : List α) : Prop where
  head : ∀ h : l ≠ [], blank (l.head h) = false
  getLast : ∀ h : l ≠ [], blank (l.getLast h) = false

/-- The list is `core` with blank elements around it. -/
def Padded (blank : α → Bool) (core l : List α) : Prop :=
  ∃ left right, l = left ++ core ++ right ∧ (∀ a ∈ left, blank a = true) ∧
    ∀ a ∈ right, blank a = true

/-- Two spellings of one text: without blanks around them, their elements correspond. -/
def Respelled (blank : α → Bool) (same : α → α → Prop) (l l' : List α) : Prop :=
  ∃ core core', Padded blank core l ∧ Padded blank core' l' ∧ List.Forall₂ same core core'

/-- The normal form of a list. -/
def normal (blank : α → Bool) (fold : α → α) (l : List α) : List α := (strip blank l).map fold

/-- Blanks at the end do not matter when the end is stripped. -/
theorem rdropWhile_append_of_all {right : List α} (h : ∀ a ∈ right, blank a = true) :
    (l ++ right).rdropWhile blank = l.rdropWhile blank := by
  unfold List.rdropWhile
  rw [List.reverse_append, List.dropWhile_append_of_pos]
  intro a ha
  exact h a (List.mem_reverse.mp ha)

/-- Every list is its stripped part with blanks around it. -/
theorem padded_strip (blank : α → Bool) (l : List α) : Padded blank (strip blank l) l := by
  refine ⟨l.takeWhile blank, (l.dropWhile blank).rtakeWhile blank, ?_, ?_, ?_⟩
  · rw [List.append_assoc, strip, List.rdropWhile_append_rtakeWhile,
      List.takeWhile_append_dropWhile]
  · intro a ha
    exact List.mem_takeWhile_imp ha
  · intro a ha
    exact List.mem_rtakeWhile_imp ha

/-- Blanks around a list do not change its stripped part. -/
theorem Padded.strip_eq (h : Padded blank core l) : strip blank l = strip blank core := by
  obtain ⟨left, right, rfl, hleft, hright⟩ := h
  unfold strip
  rw [List.append_assoc, List.dropWhile_append_of_pos hleft, List.dropWhile_append]
  split
  · next hcore =>
    rw [List.isEmpty_iff.mp hcore, List.dropWhile_eq_nil_iff.mpr hright]
  · exact rdropWhile_append_of_all hright

/-- Stripping leaves no blank end. -/
theorem stripped_strip (blank : α → Bool) (l : List α) : Stripped blank (strip blank l) := by
  constructor
  · intro h
    have hprefix : strip blank l <+: l.dropWhile blank := List.rdropWhile_prefix blank _
    rw [List.IsPrefix.head hprefix h]
    apply List.head_dropWhile_not
  · intro h
    simpa [strip] using List.rdropWhile_last_not blank (l.dropWhile blank) h

/-- Stripping changes nothing exactly when neither end is blank. -/
theorem strip_eq_self_iff : strip blank l = l ↔ Stripped blank l := by
  constructor
  · intro h
    rw [← h]
    exact stripped_strip blank l
  · intro h
    have hhead : l.dropWhile blank = l := by
      rw [List.dropWhile_eq_self_iff]
      intro hpos
      rw [List.getElem_zero]
      simp [h.head]
    have hlast : l.rdropWhile blank = l := by
      rw [List.rdropWhile_eq_self_iff]
      intro hne
      simp [h.getLast hne]
    rw [strip, hhead, hlast]

/-- Nothing is left exactly when every element is blank. -/
theorem strip_eq_nil_iff : strip blank l = [] ↔ ∀ a ∈ l, blank a = true := by
  constructor
  · intro h
    obtain ⟨left, right, hl, hleft, hright⟩ := padded_strip blank l
    rw [h, List.append_nil] at hl
    rw [hl]
    intro a ha
    exact (List.mem_append.mp ha).elim (hleft a) (hright a)
  · intro h
    rw [strip, List.dropWhile_eq_nil_iff.mpr h, List.rdropWhile_nil]

/-- Stripping commutes with a map that keeps what is blank. -/
theorem strip_map {blank' : β → Bool} {f : α → β} (hf : ∀ a, blank' (f a) = blank a)
    (l : List α) : strip blank' (l.map f) = (strip blank l).map f := by
  have hcomp : blank' ∘ f = blank := by
    ext a
    rw [Function.comp_apply, hf a]
  unfold strip List.rdropWhile
  rw [List.dropWhile_map, ← List.map_reverse, List.dropWhile_map, List.map_reverse, hcomp]

/-- Only blank elements have an empty normal form. -/
theorem normal_eq_nil_iff : normal blank fold l = [] ↔ strip blank l = [] := by
  rw [normal, List.map_eq_nil_iff]

section Folding

variable (hblank : ∀ a, blank (fold a) = blank a)

include hblank

/-- The normal form may as well be stripped after it is folded. -/
theorem normal_eq_strip_map (l : List α) : normal blank fold l = strip blank (l.map fold) :=
  (strip_map hblank l).symm

/-- A normal form has no blank end. -/
theorem stripped_normal (l : List α) : Stripped blank (normal blank fold l) := by
  rw [normal_eq_strip_map hblank]
  exact stripped_strip blank _

/-- A normal form is its own normal form. -/
theorem normal_normal (hfold : ∀ a, fold (fold a) = fold a) (l : List α) :
    normal blank fold (normal blank fold l) = normal blank fold l := by
  have hmap : (normal blank fold l).map fold = normal blank fold l := by
    rw [normal, List.map_map]
    apply List.map_congr_left
    intro a _
    exact hfold a
  rw [normal_eq_strip_map hblank (normal blank fold l), hmap]
  exact strip_eq_self_iff.mpr (stripped_normal hblank l)

/-- Normal forms agree exactly on the spellings of one text. -/
theorem normal_eq_iff {same : α → α → Prop} (hsame : ∀ a b, same a b ↔ fold a = fold b) :
    normal blank fold l = normal blank fold l' ↔ Respelled blank same l l' := by
  have hsame' : same = fun a b ↦ fold a = fold b := by
    ext a b
    exact hsame a b
  have hforall (core core' : List α) :
      List.Forall₂ same core core' ↔ core.map fold = core'.map fold := by
    rw [hsame', ← List.forall₂_eq_eq_eq, List.forall₂_map_left_iff, List.forall₂_map_right_iff]
  constructor
  · intro h
    exact ⟨strip blank l, strip blank l', padded_strip blank l, padded_strip blank l',
      (hforall _ _).mpr h⟩
  · rintro ⟨core, core', hl, hl', hcore⟩
    rw [normal, normal, hl.strip_eq, hl'.strip_eq, ← strip_map hblank, ← strip_map hblank,
      (hforall core core').mp hcore]

end Folding
end Lib
