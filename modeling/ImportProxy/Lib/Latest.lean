import Mathlib.Data.List.Sort
import Mathlib.Data.List.Dedup

/-!
# Keeping the latest elements

Lists that ascend strictly in a key, and the last `n` elements of such a list.
Inserting one element and dropping the smallest when there are too many keeps
exactly the `n` greatest of everything inserted so far, in whatever order the
insertions come.
-/

namespace Lib

universe u v

variable {α : Type u} {κ : Type v} [LinearOrder κ] (key : α → κ)

/-- Strictly ascending in the key. -/
def Ascending (l : List α) : Prop := l.Pairwise fun a b ↦ key a < key b

/-- Insertion at the place the key demands. -/
def insertByKey (x : α) (l : List α) : List α := l.orderedInsert (fun a b ↦ key a ≤ key b) x

/-- The last `n` elements. -/
def latest (n : Nat) (l : List α) : List α := l.drop (l.length - n)

/-- Insert, then drop the smallest when there are more than `n`. -/
def keepLatest (n : Nat) (l : List α) (x : α) : List α :=
  if l.length < n then insertByKey key x l else (insertByKey key x l).tail

/-- Every element once, in ascending order of the key. -/
def ranked [DecidableEq α] (l : List α) : List α :=
  l.dedup.insertionSort fun a b ↦ key a ≤ key b

variable {key}

instance total_key : Std.Total fun a b : α ↦ key a ≤ key b := ⟨fun a b ↦ le_total (key a) (key b)⟩

instance trans_key : IsTrans α fun a b : α ↦ key a ≤ key b := ⟨fun _ _ _ h h' ↦ le_trans h h'⟩

namespace Ascending

theorem nodup {l : List α} (h : Ascending key l) : l.Nodup :=
  h.imp fun hab he ↦ absurd (congrArg key he) hab.ne

/-- The head of an ascending list is below the rest. -/
theorem head_lt {a : α} {l : List α} (h : Ascending key (a :: l)) :
    ∀ b ∈ l, key a < key b := (List.pairwise_cons.mp h).1

theorem tail {l : List α} (h : Ascending key l) : Ascending key l.tail :=
  List.Pairwise.tail h

/-- The last element of an ascending list is above the others. -/
theorem le_getLast {l : List α} (h : Ascending key l) {z : α} (hz : l.getLast? = some z) :
    ∀ b ∈ l, key b ≤ key z := by
  obtain ⟨init, rfl⟩ := List.getLast?_eq_some_iff.mp hz
  intro b hb
  rcases List.mem_append.mp hb with hb | hb
  · exact ((List.pairwise_append.mp h).2.2 b hb z (by simp)).le
  · rw [List.mem_singleton.mp hb]

/-- The first element of an ascending list is below the others. -/
theorem head_le {l : List α} (h : Ascending key l) {z : α} (hz : l.head? = some z) :
    ∀ b ∈ l, key z ≤ key b := by
  obtain ⟨rest, rfl⟩ := List.head?_eq_some_iff.mp hz
  intro b hb
  rcases List.mem_cons.mp hb with rfl | hb
  · exact le_rfl
  · exact (h.head_lt b hb).le

/-- The key tells the elements of an ascending list apart. -/
theorem key_inj {l : List α} (h : Ascending key l) {a b : α} (ha : a ∈ l) (hb : b ∈ l)
    (he : key a = key b) : a = b := by
  induction l with
  | nil => exact absurd ha List.not_mem_nil
  | cons c l ih =>
    rcases List.mem_cons.mp ha with rfl | ha' <;> rcases List.mem_cons.mp hb with rfl | hb'
    · rfl
    · exact absurd he (h.head_lt b hb').ne
    · exact absurd he (h.head_lt a ha').ne'
    · exact ih h.tail ha' hb'

/-- Appending above the last element keeps the order. -/
theorem append {l : List α} {x : α} (h : Ascending key l) (hx : ∀ a ∈ l, key a < key x) :
    Ascending key (l ++ [x]) := by
  refine List.pairwise_append.mpr ⟨h, List.pairwise_singleton _ _, ?_⟩
  intro a ha b hb
  rw [List.mem_singleton.mp hb]
  exact hx a ha

/-- Prepending below the first element keeps the order. -/
theorem cons {l : List α} {x : α} (h : Ascending key l) (hx : ∀ a ∈ l, key x < key a) :
    Ascending key (x :: l) := List.pairwise_cons.mpr ⟨hx, h⟩

/-- Ascending lists with the same elements are equal. -/
theorem eq_of_mem_iff {l m : List α} (hl : Ascending key l) (hm : Ascending key m)
    (h : ∀ a, a ∈ l ↔ a ∈ m) : l = m := by
  apply List.Perm.eq_of_pairwise _ hl hm
  · exact (List.perm_ext_iff_of_nodup hl.nodup hm.nodup).mpr h
  · intro a b _ _ hab hba
    exact absurd hab (not_lt.mpr hba.le)

/-- Sorting a permutation of an ascending list gives the ascending list. -/
theorem insertionSort_eq {l m : List α} (hl : Ascending key l) (h : m.Perm l) :
    m.insertionSort (fun a b ↦ key a ≤ key b) = l := by
  have hp : (m.insertionSort fun a b ↦ key a ≤ key b).Perm l :=
    (List.perm_insertionSort _ m).trans h
  apply List.Perm.eq_of_pairwise _ (List.pairwise_insertionSort _ m) (hl.imp le_of_lt) hp
  intro a b ha hb hab hba
  exact hl.key_inj (hp.mem_iff.mp ha) hb (le_antisymm hab hba)

end Ascending

/-- Insertion adds exactly the one element. -/
theorem mem_insertByKey {x y : α} {l : List α} : y ∈ insertByKey key x l ↔ y = x ∨ y ∈ l :=
  List.mem_orderedInsert _

@[simp] theorem length_insertByKey (x : α) (l : List α) :
    (insertByKey key x l).length = l.length + 1 := List.orderedInsert_length _ _ _

/-- Insertion of a new key keeps the order. -/
theorem Ascending.insertByKey {l : List α} {x : α} (h : Ascending key l)
    (hx : ∀ a ∈ l, key a ≠ key x) : Ascending key (insertByKey key x l) := by
  have hs : (Lib.insertByKey key x l).Pairwise fun a b ↦ key a ≤ key b :=
    (h.imp le_of_lt).orderedInsert x l
  have hn : (Lib.insertByKey key x l).Pairwise fun a b ↦ key a ≠ key b := by
    have hp : (Lib.insertByKey key x l).Perm (x :: l) := List.perm_orderedInsert _ _ _
    refine (hp.pairwise_iff fun h ↦ Ne.symm h).mpr (List.pairwise_cons.mpr ⟨?_, ?_⟩)
    · exact fun a ha ↦ Ne.symm (hx a ha)
    · exact h.imp ne_of_lt
  exact (hs.and hn).imp fun hab ↦ lt_of_le_of_ne hab.1 hab.2

/-- Insertion passes a smaller head. -/
theorem insertByKey_of_head_lt {a x : α} {l : List α} (h : key a < key x) :
    insertByKey key x (a :: l) = a :: insertByKey key x l := by
  unfold insertByKey
  rw [List.orderedInsert_cons, if_neg (not_le.mpr h)]

/-- An element above all others is inserted at the end. -/
theorem insertByKey_of_above {l : List α} {x : α} (h : ∀ a ∈ l, key a < key x) :
    insertByKey key x l = l ++ [x] := by
  induction l with
  | nil => rfl
  | cons a l ih =>
    have ht := ih fun b hb ↦ h b (List.mem_cons_of_mem a hb)
    rw [insertByKey_of_head_lt (h a List.mem_cons_self), ht, List.cons_append]

/-- An element below all others is inserted at the front. -/
theorem insertByKey_of_below {l : List α} {x : α} (h : ∀ a ∈ l, key x < key a) :
    insertByKey key x l = x :: l := by
  cases l with
  | nil => rfl
  | cons a l => exact List.orderedInsert_cons_of_le _ _ (h a List.mem_cons_self).le

/-- Inserting into an ascending list is sorting it with the new element anywhere. -/
theorem insertionSort_append_singleton {l : List α} {x : α} (h : Ascending key l)
    (hx : ∀ a ∈ l, key a ≠ key x) :
    (l ++ [x]).insertionSort (fun a b ↦ key a ≤ key b) = insertByKey key x l := by
  apply (h.insertByKey hx).insertionSort_eq
  exact (List.perm_append_singleton x l).trans (List.perm_orderedInsert _ _ _).symm

theorem keepLatest_of_lt {n : Nat} {l : List α} (hn : l.length < n) (x : α) :
    keepLatest key n l x = insertByKey key x l :=
  if_pos hn

theorem keepLatest_of_le {n : Nat} {l : List α} (hn : n ≤ l.length) (x : α) :
    keepLatest key n l x = (insertByKey key x l).tail :=
  if_neg (not_lt.mpr hn)

/-- A full list with an element below everything it holds stays as it is. -/
theorem keepLatest_of_below {n : Nat} {l : List α} {x : α} (hn : n ≤ l.length)
    (h : ∀ a ∈ l, key x < key a) : keepLatest key n l x = l := by
  rw [keepLatest_of_le hn, insertByKey_of_below h, List.tail_cons]

@[simp] theorem length_latest (n : Nat) (l : List α) : (latest n l).length = min n l.length := by
  simp only [latest, List.length_drop]
  omega

/-- The latest elements are elements. -/
theorem mem_of_mem_latest {n : Nat} {l : List α} {a : α} (h : a ∈ latest n l) : a ∈ l :=
  List.mem_of_mem_drop h

theorem map_latest {β : Type v} (f : α → β) (n : Nat) (l : List α) :
    (latest n l).map f = latest n (l.map f) := by
  rw [latest, List.map_drop, latest, List.length_map]

theorem latest_of_length_le {n : Nat} {l : List α} (h : l.length ≤ n) : latest n l = l := by
  rw [latest, Nat.sub_eq_zero_of_le h, List.drop_zero]

theorem latest_cons {n : Nat} {a : α} {l : List α} (h : n ≤ l.length) :
    latest n (a :: l) = latest n l := by
  have hl : (a :: l).length - n = l.length - n + 1 := by
    simp only [List.length_cons]
    omega
  rw [latest, hl, List.drop_succ_cons, latest]

theorem Ascending.latest {l : List α} (h : Ascending key l) (n : Nat) :
    Ascending key (latest n l) := h.sublist (List.drop_sublist _ _)

/-- An element that is not among the latest is below all of them, and they are complete. -/
theorem below_latest {n : Nat} {l : List α} {a : α} (h : Ascending key l) (ha : a ∈ l)
    (hn : a ∉ latest n l) : n ≤ (latest n l).length ∧ ∀ b ∈ latest n l, key a < key b := by
  rw [← List.take_append_drop (l.length - n) l] at h ha
  have hold : a ∈ l.take (l.length - n) := (List.mem_append.mp ha).resolve_right hn
  constructor
  · have hlong := List.length_pos_of_mem hold
    rw [List.length_take] at hlong
    rw [length_latest]
    omega
  · exact (List.pairwise_append.mp h).2.2 a hold

/-- Keeping the latest while inserting is inserting everything and keeping the latest. -/
theorem latest_insertByKey {n : Nat} {l : List α} {x : α} (h : Ascending key l)
    (hx : ∀ a ∈ l, key a ≠ key x) :
    latest n (insertByKey key x l) = keepLatest key n (latest n l) x := by
  induction l with
  | nil =>
    cases n with
    | zero => rfl
    | succ n => simp [latest, keepLatest, insertByKey]
  | cons a l ih =>
    have hne : key a ≠ key x := hx a List.mem_cons_self
    have hx' : ∀ b ∈ l, key b ≠ key x := fun b hb ↦ hx b (List.mem_cons_of_mem a hb)
    rcases Nat.lt_or_ge l.length n with hlt | hge
    · -- Everything so far is kept, so at most the smallest is dropped.
      rw [latest_of_length_le (show (a :: l).length ≤ n from hlt)]
      rcases Nat.lt_or_ge (a :: l).length n with hroom | hfull
      · rw [keepLatest_of_lt hroom]
        apply latest_of_length_le
        rw [length_insertByKey]
        exact hroom
      · have hn : (a :: l).length = n := le_antisymm hlt hfull
        have hd : (insertByKey key x (a :: l)).length - n = 1 := by
          rw [length_insertByKey]
          omega
        rw [keepLatest_of_le hfull, latest, hd, List.drop_one]
    · rw [latest_cons hge, ← ih h.tail hx']
      rcases lt_or_gt_of_ne hne with hax | hxa
      · rw [insertByKey_of_head_lt hax, latest_cons (by rw [length_insertByKey]; omega)]
      · have hb : ∀ b ∈ l, key x < key b := fun b hb ↦ hxa.trans (h.head_lt b hb)
        rw [insertByKey_of_below (by simpa [hxa] using hb), insertByKey_of_below hb,
          latest_cons (by simp only [List.length_cons]; omega), latest_cons hge, latest_cons hge]

/-- Each element of a list but the first comes after a smaller one exactly when the first is
the least. -/
theorem preceded_iff_head_le {l : List α} (h : l.Pairwise fun a b ↦ key a ≠ key b) :
    (∀ before x after, l = before ++ x :: after → before = [] ∨ ∃ y ∈ before, key y < key x) ↔
      ∀ z ∈ l.head?, ∀ x ∈ l, key z ≤ key x := by
  cases l with
  | nil => simp
  | cons z l =>
    have hz : z ∈ (z :: l).head? := rfl
    constructor
    · intro hpre z' hz' x hx
      cases hz'
      -- By strong induction on the position: the smaller element stands further left.
      have hall : ∀ n before x after, before.length = n → z :: l = before ++ x :: after →
          key z ≤ key x := by
        intro n
        induction n using Nat.strong_induction_on with
        | _ n ih =>
          intro before x after hn he
          rcases hpre before x after he with rfl | ⟨y, hy, hlt⟩
          · rw [(List.cons.inj he).1]
          · obtain ⟨left, right, rfl⟩ := List.append_of_mem hy
            have hshort : left.length < n := by
              rw [← hn, List.length_append, List.length_cons]
              omega
            have hle := ih left.length hshort left y (right ++ x :: after) rfl (by simp [he])
            exact hle.trans hlt.le
      obtain ⟨before, after, he⟩ := List.append_of_mem hx
      exact hall before.length before x after rfl he
    · intro hmin before x after he
      cases before with
      | nil => exact Or.inl rfl
      | cons y before =>
        obtain ⟨rfl, rfl⟩ := List.cons.inj he
        have hx : x ∈ before ++ x :: after := by simp
        have hle := hmin z hz x (List.mem_cons_of_mem z hx)
        have hne := (List.pairwise_cons.mp h).1 x hx
        exact Or.inr ⟨z, List.mem_cons_self, lt_of_le_of_ne hle hne⟩

section Ranked

variable [DecidableEq α]

theorem mem_ranked {l : List α} {a : α} : a ∈ ranked key l ↔ a ∈ l := by
  simp only [ranked, List.mem_insertionSort, List.mem_dedup]

/-- Distinct elements with distinct keys are ranked in strictly ascending order. -/
theorem ascending_ranked {l : List α} (h : ∀ a ∈ l, ∀ b ∈ l, key a = key b → a = b) :
    Ascending key (ranked key l) := by
  have hs := List.pairwise_insertionSort (fun a b : α ↦ key a ≤ key b) l.dedup
  have hn : (ranked key l).Pairwise (· ≠ ·) :=
    (List.perm_insertionSort _ l.dedup).nodup_iff.mpr l.nodup_dedup
  refine (hs.and hn).imp_of_mem ?_
  intro a b ha hb hab
  exact lt_of_le_of_ne hab.1 fun he ↦ hab.2 (h a (mem_ranked.mp ha) b (mem_ranked.mp hb) he)

/-- The number of ranked elements is the number of distinct ones. -/
theorem length_ranked (l : List α) : (ranked key l).length = l.dedup.length := by
  simp only [ranked, List.length_insertionSort]

/-- Lists with the same elements are ranked alike. -/
theorem ranked_congr {l m : List α} (h : ∀ a ∈ l, ∀ b ∈ l, key a = key b → a = b)
    (he : ∀ a, a ∈ l ↔ a ∈ m) : ranked key l = ranked key m := by
  have hm : ∀ a ∈ m, ∀ b ∈ m, key a = key b → a = b :=
    fun a ha b hb ↦ h a ((he a).mpr ha) b ((he b).mpr hb)
  apply (ascending_ranked h).eq_of_mem_iff (ascending_ranked hm)
  intro a
  rw [mem_ranked, mem_ranked, he]

/-- A repeated element does not change the ranking. -/
theorem ranked_append_of_mem {l : List α} {x : α}
    (h : ∀ a ∈ l, ∀ b ∈ l, key a = key b → a = b) (hx : x ∈ l) :
    ranked key (l ++ [x]) = ranked key l := by
  symm
  apply ranked_congr h
  intro a
  simp only [List.mem_append, List.mem_singleton]
  exact ⟨Or.inl, fun ha ↦ ha.elim id fun he ↦ he ▸ hx⟩

/-- A new element is inserted into the ranking. -/
theorem ranked_append_of_new {l : List α} {x : α}
    (h : ∀ a ∈ l, ∀ b ∈ l, key a = key b → a = b) (hx : ∀ a ∈ l, key a ≠ key x) :
    ranked key (l ++ [x]) = insertByKey key x (ranked key l) := by
  have hr : ∀ a ∈ ranked key l, key a ≠ key x := fun a ha ↦ hx a (mem_ranked.mp ha)
  have hall : ∀ a ∈ l ++ [x], ∀ b ∈ l ++ [x], key a = key b → a = b := by
    intro a ha b hb he
    simp only [List.mem_append, List.mem_singleton] at ha hb
    rcases ha with ha | rfl <;> rcases hb with hb | rfl
    · exact h a ha b hb he
    · exact absurd he (hx a ha)
    · exact absurd he.symm (hx b hb)
    · rfl
  apply (ascending_ranked hall).eq_of_mem_iff ((ascending_ranked h).insertByKey hr)
  intro a
  simp only [mem_ranked, mem_insertByKey, List.mem_append, List.mem_singleton]
  exact or_comm

omit [DecidableEq α] in
/-- A selection that is defined everywhere on a list loses none of its elements. -/
theorem map_some_filterMap {β : Type v} {f : α → Option β} {l : List α}
    (h : ∀ a ∈ l, ∃ b, f a = some b) : (l.filterMap f).map some = l.map f := by
  induction l with
  | nil => rfl
  | cons a l ih =>
    obtain ⟨b, hb⟩ := h a List.mem_cons_self
    rw [List.filterMap_cons_some hb, List.map_cons, List.map_cons, hb,
      ih fun c hc ↦ h c (List.mem_cons_of_mem a hc)]

/-- Ranking commutes with a selection that is defined everywhere and keeps the keys. -/
theorem map_some_ranked {β : Type v} [DecidableEq β] {key' : β → κ} {f : α → Option β}
    {l : List α} (h : ∀ a ∈ l, ∀ b ∈ l, key a = key b → a = b)
    (hf : ∀ a ∈ l, ∃ b, f a = some b ∧ key' b = key a) :
    (ranked key' (l.filterMap f)).map some = (ranked key l).map f := by
  have hkey {a : α} {b : β} (ha : a ∈ l) (hb : f a = some b) : key' b = key a := by
    obtain ⟨b', hb', hk⟩ := hf a ha
    rw [hb] at hb'
    cases hb'
    exact hk
  have hl : Ascending key' ((ranked key l).filterMap f) := by
    refine List.pairwise_filterMap.mpr ((ascending_ranked h).imp_of_mem ?_)
    intro a c ha hc hac b hb d hd
    rw [hkey (mem_ranked.mp ha) hb, hkey (mem_ranked.mp hc) hd]
    exact hac
  have hr : Ascending key' (ranked key' (l.filterMap f)) := by
    apply ascending_ranked
    intro x hx y hy he
    obtain ⟨a, ha, hax⟩ := List.mem_filterMap.mp hx
    obtain ⟨c, hc, hcy⟩ := List.mem_filterMap.mp hy
    rw [hkey ha hax, hkey hc hcy] at he
    rw [h a ha c hc he, hcy] at hax
    exact Option.some.inj hax.symm
  rw [hr.eq_of_mem_iff hl fun x ↦ by simp only [mem_ranked, List.mem_filterMap]]
  apply map_some_filterMap
  intro a ha
  obtain ⟨b, hb, -⟩ := hf a (mem_ranked.mp ha)
  exact ⟨b, hb⟩

end Ranked
end Lib
