import Mathlib.Algebra.Order.Floor.Ring
import Mathlib.Data.Int.Log
import Mathlib.Data.Rat.Floor
import Mathlib.Tactic.FieldSimp
import Mathlib.Tactic.Linarith
import Mathlib.Tactic.Positivity

/-!
# Rounding to binary64

The rational number with 53 binary digits that is nearest to a given one, of two the even one, as
IEEE 754 rounds the result of an operation. The exponent is bounded below, not above.
-/

namespace Lib.Binary64

/-- To the nearest integer, halves to the even one. -/
def roundHalfEven (q : ℚ) : ℤ :=
  if q - ⌊q⌋ < 1 / 2 then ⌊q⌋
  else if 1 / 2 < q - ⌊q⌋ then ⌊q⌋ + 1
  else if 2 ∣ ⌊q⌋ then ⌊q⌋ else ⌊q⌋ + 1

/-- The exponent of the last digit: 52 below that of the first one, or that of the least number. -/
def lastPlace (q : ℚ) : ℤ := max (Int.log 2 |q| - 52) (-1074)

/-- The nearest number. -/
def nearest (q : ℚ) : ℚ := roundHalfEven (q / 2 ^ lastPlace q) * 2 ^ lastPlace q

/-- The least of the powers of two that are too large. -/
def limit : ℚ := 2 ^ 1024

variable {q : ℚ} {a b c : ℤ}

/-- The limit is above any number of fewer binary digits. -/
theorem two_pow_lt_limit {n : ℕ} (h : n < 1024) : (2 : ℚ) ^ n < limit :=
  pow_lt_pow_right₀ one_lt_two h

theorem limit_pos : 0 < limit := (pow_pos two_pos 0).trans (two_pow_lt_limit (by decide))

/-- An integer is rounded to itself. -/
theorem roundHalfEven_intCast (n : ℤ) : roundHalfEven (n : ℚ) = n := by
  unfold roundHalfEven
  rw [Int.floor_intCast, sub_self, if_pos (by norm_num)]

theorem roundHalfEven_nonneg (h : 0 ≤ q) : 0 ≤ roundHalfEven q := by
  have hfloor : 0 ≤ ⌊q⌋ := Int.floor_nonneg.mpr h
  unfold roundHalfEven
  split_ifs <;> omega

/-- Rounding moves a number by half at most. -/
theorem abs_roundHalfEven_sub_le (q : ℚ) : |(roundHalfEven q : ℚ) - q| ≤ 1 / 2 := by
  have hlow : (⌊q⌋ : ℚ) ≤ q := Int.floor_le q
  have hhigh : q < ⌊q⌋ + 1 := Int.lt_floor_add_one q
  unfold roundHalfEven
  rw [abs_le]
  split_ifs <;> push_cast <;> constructor <;> linarith

theorem zpow_lastPlace_pos (q : ℚ) : (0 : ℚ) < 2 ^ lastPlace q := zpow_pos (by norm_num) _

theorem nearest_nonneg (h : 0 ≤ q) : 0 ≤ nearest q := by
  have hpos := zpow_lastPlace_pos q
  have hround : 0 ≤ roundHalfEven (q / 2 ^ lastPlace q) :=
    roundHalfEven_nonneg (div_nonneg h hpos.le)
  exact mul_nonneg (by exact_mod_cast hround) hpos.le

/-- Whole multiples of the last place are kept. -/
theorem nearest_of_multiple (n : ℤ) (h : q = n * 2 ^ lastPlace q) : nearest q = q := by
  have hne := (zpow_lastPlace_pos q).ne'
  have hdiv : q / 2 ^ lastPlace q = n := by rw [div_eq_iff hne, ← h]
  rw [nearest, hdiv, roundHalfEven_intCast, ← h]

/-- The error is at most half of the last place. -/
theorem abs_nearest_sub_le (q : ℚ) : |nearest q - q| ≤ 2 ^ lastPlace q / 2 := by
  have hpos := zpow_lastPlace_pos q
  have herror := abs_roundHalfEven_sub_le (q / 2 ^ lastPlace q)
  have hsplit : nearest q - q =
      (roundHalfEven (q / 2 ^ lastPlace q) - q / 2 ^ lastPlace q) * 2 ^ lastPlace q := by
    rw [nearest, sub_mul, div_mul_cancel₀ _ hpos.ne']
  rw [hsplit, abs_mul, abs_of_pos hpos]
  calc |(roundHalfEven (q / 2 ^ lastPlace q) : ℚ) - q / 2 ^ lastPlace q| * 2 ^ lastPlace q
      ≤ 1 / 2 * 2 ^ lastPlace q := mul_le_mul_of_nonneg_right herror hpos.le
    _ = 2 ^ lastPlace q / 2 := one_div_mul_eq_div 2 _

/-- The error is small beside the number, or below the least of the numbers. -/
theorem abs_nearest_sub_le_max (hq : 0 < q) :
    |nearest q - q| ≤ max (q / 2 ^ 53) (2 ^ (-1075 : ℤ)) := by
  refine (abs_nearest_sub_le q).trans ?_
  have hlog : (2 : ℚ) ^ Int.log 2 q ≤ q := Int.zpow_log_le_self (by decide) hq
  unfold lastPlace
  rw [abs_of_pos hq]
  rcases le_total (-1074) (Int.log 2 q - 52) with h | h
  · rw [max_eq_left h, zpow_sub₀ (by norm_num), div_div]
    apply le_max_of_le_left
    have hden : (2 : ℚ) ^ (52 : ℤ) * 2 = 2 ^ 53 := by norm_num
    rw [hden]
    exact div_le_div_of_nonneg_right hlog (by positivity)
  · rw [max_eq_right h]
    apply le_max_of_le_right
    have hhalf : (2 : ℚ) ^ (-1075 : ℤ) = 2 ^ (-1074 : ℤ) * 2⁻¹ := by
      rw [← zpow_sub_one₀ (by norm_num)]
      norm_num
    rw [hhalf, div_eq_mul_inv]

/-- The error of a quotient of small integers is less than its distance from any other half. -/
theorem abs_nearest_div_sub_lt (ha : 0 < a) (hb : 0 < b) (ha' : a < 2 ^ 51) (hb' : b ≤ 2 ^ 64) :
    |nearest (a / b) - a / b| < 1 / (2 * b) := by
  have hposA : (0 : ℚ) < a := by exact_mod_cast ha
  have hposB : (0 : ℚ) < b := by exact_mod_cast hb
  have hltA : (a : ℚ) < 2 ^ 51 := by exact_mod_cast ha'
  have hleB : (b : ℚ) ≤ 2 ^ 64 := by exact_mod_cast hb'
  refine (abs_nearest_sub_le_max (div_pos hposA hposB)).trans_lt (max_lt ?_ ?_)
  · rw [div_div, div_lt_div_iff₀ (by positivity) (by positivity)]
    have hscaled : (a : ℚ) * (2 * b) < 2 ^ 51 * (2 * b) :=
      mul_lt_mul_of_pos_right hltA (by positivity)
    calc (a : ℚ) * (2 * b) < 2 ^ 51 * (2 * b) := hscaled
      _ ≤ 1 * (b * 2 ^ 53) := by linarith
  · calc (2 : ℚ) ^ (-1075 : ℤ) < 2 ^ (-65 : ℤ) := zpow_lt_zpow_right₀ (by norm_num) (by norm_num)
      _ = 1 / (2 * 2 ^ 64) := by norm_num
      _ ≤ 1 / (2 * b) := by
        apply one_div_le_one_div_of_le (by positivity)
        linarith

/-- Halves of small integers are numbers. -/
theorem nearest_half (h : |(c : ℚ) / 2| < 2 ^ 51) : nearest (c / 2) = c / 2 := by
  have hplace : lastPlace ((c : ℚ) / 2) ≤ -1 := by
    unfold lastPlace
    apply max_le ?_ (by decide)
    rcases eq_or_lt_of_le (abs_nonneg ((c : ℚ) / 2)) with hzero | hpos
    · rw [← hzero, Int.log_zero_right]
      decide
    · have hlog : Int.log 2 |(c : ℚ) / 2| < 51 := (Int.lt_zpow_iff_log_lt (by decide) hpos).mp h
      omega
  obtain ⟨n, hn⟩ : ∃ n : ℕ, lastPlace ((c : ℚ) / 2) = -1 - n :=
    ⟨(-1 - lastPlace ((c : ℚ) / 2)).toNat, by omega⟩
  apply nearest_of_multiple (c * 2 ^ n)
  rw [hn, zpow_sub₀ (by norm_num), zpow_neg_one, zpow_natCast]
  push_cast
  field_simp

/-- So are small integers. -/
theorem nearest_intCast (h : |(c : ℚ)| < 2 ^ 51) : nearest c = c := by
  have hhalf : (c : ℚ) = (2 * c : ℤ) / 2 := by
    push_cast
    ring
  rw [hhalf] at h ⊢
  exact nearest_half h

/-- A quotient of small integers lies on the same side of a half as before. -/
theorem nearest_div_lt_half_iff (ha : 0 ≤ a) (hb : 0 < b) (ha' : a < 2 ^ 51) (hb' : b ≤ 2 ^ 64)
    (c : ℤ) : nearest (a / b) < c / 2 ↔ (a / b : ℚ) < c / 2 := by
  have hposB : (0 : ℚ) < b := by exact_mod_cast hb
  rcases ha.eq_or_lt with rfl | hpos
  · have hzero : nearest ((0 : ℤ) / b : ℚ) = (0 : ℤ) / b := by
      rw [Int.cast_zero, zero_div]
      exact nearest_of_multiple 0 (by simp)
    rw [hzero]
  · have hposA : (0 : ℚ) < a := by exact_mod_cast hpos
    have herror := abs_lt.mp (abs_nearest_div_sub_lt hpos hb ha' hb')
    rcases lt_trichotomy (2 * a) (c * b) with hlt | heq | hgt
    · -- the quotient is below the half by at least one part
      have hgap : (a / b : ℚ) + 1 / (2 * b) ≤ c / 2 := by
        have hle : (2 * a + 1 : ℚ) ≤ c * b := by exact_mod_cast hlt
        rw [div_add_div _ _ hposB.ne' (by positivity),
          div_le_div_iff₀ (by positivity) (by norm_num)]
        nlinarith
      have hpart : (0 : ℚ) < 1 / (2 * b) := by positivity
      exact iff_of_true (by linarith) (by linarith)
    · have hhalf : (a / b : ℚ) = c / 2 := by
        have heq' : (2 * a : ℚ) = c * b := by exact_mod_cast heq
        rw [div_eq_div_iff hposB.ne' (by norm_num)]
        linarith
      have hsmall : |(c : ℚ) / 2| < 2 ^ 51 := by
        rw [← hhalf, abs_of_pos (div_pos hposA hposB), div_lt_iff₀ hposB]
        have hone : (1 : ℚ) ≤ b := by exact_mod_cast hb
        have hltA : (a : ℚ) < 2 ^ 51 := by exact_mod_cast ha'
        nlinarith
      rw [hhalf, nearest_half hsmall]
    · have hgap : (c : ℚ) / 2 ≤ a / b - 1 / (2 * b) := by
        have hle : (c * b + 1 : ℚ) ≤ 2 * a := by exact_mod_cast hgt
        rw [div_sub_div _ _ hposB.ne' (by positivity),
          div_le_div_iff₀ (by norm_num) (by positivity)]
        nlinarith
      have hpart : (0 : ℚ) < 1 / (2 * b) := by positivity
      exact iff_of_false (by linarith) (by linarith)

/-- Nor does rounding such a quotient carry it past a whole number. -/
theorem nearest_div_lt_iff (ha : 0 ≤ a) (hb : 0 < b) (ha' : a < 2 ^ 51) (hb' : b ≤ 2 ^ 64)
    (n : ℤ) : nearest (a / b) < n ↔ (a / b : ℚ) < n := by
  have hhalf : (n : ℚ) = (2 * n : ℤ) / 2 := by
    push_cast
    ring
  rw [hhalf, nearest_div_lt_half_iff ha hb ha' hb']

/-- It keeps its floor. -/
theorem floor_nearest_div (ha : 0 ≤ a) (hb : 0 < b) (ha' : a < 2 ^ 51) (hb' : b ≤ 2 ^ 64) :
    ⌊nearest (a / b)⌋ = ⌊(a / b : ℚ)⌋ := by
  apply eq_of_forall_gt_iff
  intro n
  rw [Int.floor_lt, Int.floor_lt, nearest_div_lt_iff ha hb ha' hb']

end Lib.Binary64
