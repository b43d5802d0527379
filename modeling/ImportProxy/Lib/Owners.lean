import Mathlib.Data.List.Basic

/-!
# Owners of keys

A list of parties, each with a key that no other live party has, some of which
hold their key. How the set of held keys changes when one party acquires its key,
releases it or does neither. A key may come back with a later party, once the
earlier one is no longer live.
-/

namespace Lib

universe u v

variable {τ : Type u} {κ : Type v} (live holds : τ → Bool) (key : τ → κ)

/-- No two live parties have the same key. -/
def DistinctKeys (l : List τ) : Prop :=
  ∀ (i j : Nat) (t u : τ), l[i]? = some t → l[j]? = some u → live t = true → live u = true →
    key t = key u → i = j

/-- Some party holds the key. -/
def Held (l : List τ) (a : κ) : Prop := ∃ t ∈ l, holds t = true ∧ key t = a

variable {live holds key} {l : List τ} {t t' : τ} {i : Nat} {a : κ}

theorem distinctKeys_nil : DistinctKeys live key ([] : List τ) := by
  intro i j t u ht
  cases ht

theorem not_held_nil : ¬Held holds key ([] : List τ) a := by
  rintro ⟨t, ht, -⟩
  cases ht

/-- A new party whose key no live party has. -/
theorem DistinctKeys.append (h : DistinctKeys live key l)
    (hnew : ∀ u ∈ l, live u = true → key u ≠ key t) : DistinctKeys live key (l ++ [t]) := by
  have other {i j : Nat} {u v : τ} (hi : i < l.length) (hj : ¬j < l.length)
      (hu : (l ++ [t])[i]? = some u) (hv : (l ++ [t])[j]? = some v) (hlu : live u = true)
      (hk : key u = key v) : False := by
    rw [List.getElem?_append_left hi] at hu
    rw [List.getElem?_append_right (Nat.le_of_not_lt hj)] at hv
    have hvt : v = t := List.mem_singleton.mp (List.mem_of_getElem? hv)
    exact hnew u (List.mem_of_getElem? hu) hlu (hvt ▸ hk)
  intro i j u v hu hv hlu hlv hk
  by_cases hi : i < l.length
  · by_cases hj : j < l.length
    · rw [List.getElem?_append_left hi] at hu
      rw [List.getElem?_append_left hj] at hv
      exact h i j u v hu hv hlu hlv hk
    · exact (other hi hj hu hv hlu hk).elim
  · by_cases hj : j < l.length
    · exact (other hj hi hv hu hlv hk.symm).elim
    · have hi' := (List.getElem?_eq_some_iff.mp hu).1
      have hj' := (List.getElem?_eq_some_iff.mp hv).1
      rw [List.length_append, List.length_singleton] at hi' hj'
      omega

/-- A party that keeps its key, and does not come back to life. -/
theorem DistinctKeys.set (h : DistinctKeys live key l) (ht : l[i]? = some t)
    (hkey : key t' = key t) (hlive : live t' = true → live t = true) :
    DistinctKeys live key (l.set i t') := by
  -- every entry of the new list stands for one of the old list, with the same key
  have old {j : Nat} {u : τ} (hu : (l.set i t')[j]? = some u) :
      ∃ v, l[j]? = some v ∧ key u = key v ∧ (live u = true → live v = true) := by
    by_cases hij : i = j
    · subst hij
      rw [List.getElem?_set_self (List.getElem?_eq_some_iff.mp ht).1] at hu
      cases hu
      exact ⟨t, ht, hkey, hlive⟩
    · rw [List.getElem?_set_ne hij] at hu
      exact ⟨u, hu, rfl, id⟩
  intro j k u v hu hv hlu hlv hk
  obtain ⟨u', hu', hku, hu⟩ := old hu
  obtain ⟨v', hv', hkv, hv⟩ := old hv
  exact h j k u' v' hu' hv' (hu hlu) (hv hlv) (by rw [← hku, hk, hkv])

/-- A new party that holds nothing. -/
theorem held_append (ht : holds t = false) : Held holds key (l ++ [t]) a ↔ Held holds key l a := by
  simp [Held, or_and_right, exists_or, ht]

/-- The holders after one party has changed. -/
theorem held_set_iff (ht : l[i]? = some t) : Held holds key (l.set i t') a ↔
    (holds t' = true ∧ key t' = a) ∨ ∃ (j : Nat) (u : τ), j ≠ i ∧ l[j]? = some u ∧ holds u = true ∧
      key u = a := by
  have hi := (List.getElem?_eq_some_iff.mp ht).1
  constructor
  · rintro ⟨u, hu, hholds, hkey⟩
    obtain ⟨j, hj⟩ := List.mem_iff_getElem?.mp hu
    by_cases hij : i = j
    · subst hij
      rw [List.getElem?_set_self hi] at hj
      cases hj
      exact Or.inl ⟨hholds, hkey⟩
    · rw [List.getElem?_set_ne hij] at hj
      exact Or.inr ⟨j, u, fun he ↦ hij he.symm, hj, hholds, hkey⟩
  · rintro (⟨hholds, hkey⟩ | ⟨j, u, hij, hj, hholds, hkey⟩)
    · exact ⟨t', List.mem_iff_getElem?.mpr ⟨i, List.getElem?_set_self hi⟩, hholds, hkey⟩
    · refine ⟨u, List.mem_iff_getElem?.mpr ⟨j, ?_⟩, hholds, hkey⟩
      rw [List.getElem?_set_ne fun he ↦ hij he.symm]
      exact hj

/-- The holders, with one party apart. -/
theorem held_iff (ht : l[i]? = some t) : Held holds key l a ↔
    (holds t = true ∧ key t = a) ∨ ∃ (j : Nat) (u : τ), j ≠ i ∧ l[j]? = some u ∧ holds u = true ∧
      key u = a := by
  obtain ⟨hi, rfl⟩ := List.getElem?_eq_some_iff.mp ht
  have hset : Held holds key (l.set i l[i]) a ↔ _ := held_set_iff ht
  rwa [List.set_getElem_self] at hset

/-- A party that neither acquires nor releases its key. -/
theorem held_set_keep (ht : l[i]? = some t) (hkey : key t' = key t) (hsame : holds t' = holds t) :
    Held holds key (l.set i t') a ↔ Held holds key l a := by
  rw [held_set_iff ht, held_iff ht, hkey, hsame]

/-- A party that acquires its key. -/
theorem held_set_acquire (ht : l[i]? = some t) (hkey : key t' = key t) (hno : holds t = false)
    (hyes : holds t' = true) :
    Held holds key (l.set i t') a ↔ Held holds key l a ∨ a = key t := by
  rw [held_set_iff ht, held_iff ht, hkey, hno, hyes]
  constructor
  · rintro (⟨-, hk⟩ | hother)
    · exact Or.inr hk.symm
    · exact Or.inl (Or.inr hother)
  · rintro ((⟨hx, -⟩ | hother) | hk)
    · cases hx
    · exact Or.inr hother
    · exact Or.inl ⟨rfl, hk.symm⟩

/-- The key of a live party is held by that party or not at all. -/
theorem DistinctKeys.held_key_iff (h : DistinctKeys live key l)
    (hlive : ∀ u ∈ l, holds u = true → live u = true) (ht : l[i]? = some t)
    (hl : live t = true) : Held holds key l (key t) ↔ holds t = true := by
  constructor
  · rintro ⟨u, hu, hholds, hkey⟩
    obtain ⟨j, hj⟩ := List.mem_iff_getElem?.mp hu
    have hij : j = i := h j i u t hj ht (hlive u hu hholds) hl hkey
    rw [hij, ht] at hj
    cases hj
    exact hholds
  · exact fun hholds ↦ ⟨t, List.mem_of_getElem? ht, hholds, rfl⟩

/-- A party that releases its key. -/
theorem DistinctKeys.held_set_release (h : DistinctKeys live key l)
    (hlive : ∀ u ∈ l, holds u = true → live u = true) (ht : l[i]? = some t)
    (hyes : holds t = true) (hno : holds t' = false) :
    Held holds key (l.set i t') a ↔ Held holds key l a ∧ a ≠ key t := by
  rw [held_set_iff ht, held_iff ht]
  constructor
  · rintro (⟨hx, -⟩ | ⟨j, u, hij, hj, hholds, hkey⟩)
    · rw [hno] at hx
      cases hx
    · refine ⟨Or.inr ⟨j, u, hij, hj, hholds, hkey⟩, ?_⟩
      rintro rfl
      exact hij (h j i u t hj ht (hlive u (List.mem_of_getElem? hj) hholds)
        (hlive t (List.mem_of_getElem? ht) hyes) hkey)
  · rintro ⟨⟨-, hkey⟩ | hother, hne⟩
    · exact (hne hkey.symm).elim
    · exact Or.inr hother

end Lib
