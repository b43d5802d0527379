import ImportProxy.Lib.Binary64
import Mathlib.Algebra.Order.Floor.Ring
import Mathlib.Algebra.Order.Round
import Mathlib.Data.Rat.Floor
import Mathlib.Tactic.Linarith

/-!
# Machine numbers

The `double` arithmetic that `src/duplicatePacketDetector.cpp` and
`src/frontend.cpp` perform on sampling rates, and the signed 64-bit arithmetic
on microseconds. A finite double is the rational number it denotes; results are
rounded to the nearest double, and the infinities and the not-a-number value are
kept apart.
-/

namespace ImportProxy.Base

/-- A C++ `double`: the rational it denotes, an infinity, or not a number. -/
inductive Double where
  | finite (q : ℚ)
  | posInf
  | negInf
  | nan
  deriving DecidableEq, Repr

/-- `std::round`: to the nearest integer, halves away from zero. -/
def roundHalfAway (q : ℚ) : Int :=
  if 0 ≤ q then ⌊q + 1 / 2⌋ else ⌈q - 1 / 2⌉

/-- Discarding the fractional part, as a C++ floating-to-integer conversion does. -/
def truncate (q : ℚ) : Int := if 0 ≤ q then ⌊q⌋ else ⌈q⌉

namespace Double

/-- The double nearest to a number, an infinity for the numbers past the largest one. -/
def ofRat (q : ℚ) : Double :=
  let rounded := Lib.Binary64.nearest q
  if Lib.Binary64.limit ≤ rounded then posInf
  else if rounded ≤ -Lib.Binary64.limit then negInf
  else finite rounded

/-- The comparison `x <= 0`; false when `x` is not a number. -/
def leZero : Double → Bool
  | finite q => decide (q ≤ 0)
  | posInf => false
  | negInf => true
  | nan => false

/-- The comparison `x > 0`; false when `x` is not a number. -/
def gtZero : Double → Bool
  | finite q => decide (0 < q)
  | posInf => true
  | negInf => false
  | nan => false

/-- The quotient `x / y`, with the conventions of IEEE 754 for a zero divisor. -/
def div : Double → Double → Double
  | nan, _ => nan
  | _, nan => nan
  | finite a, finite b =>
    if b = 0 then if a = 0 then nan else if 0 < a then posInf else negInf
    else ofRat (a / b)
  | finite _, _ => finite 0
  | posInf, finite b => if b < 0 then negInf else posInf
  | negInf, finite b => if b < 0 then posInf else negInf
  | _, _ => nan

/-- `std::round` on doubles. -/
def round : Double → Double
  | finite q => finite (roundHalfAway q)
  | x => x

end Double

/-- The range of `int64_t`. -/
def InInt64 (x : Int) : Prop := -2 ^ 63 ≤ x ∧ x < 2 ^ 63

instance (x : Int) : Decidable (InInt64 x) := inferInstanceAs (Decidable (_ ∧ _))

/-- The range of `int`. -/
def InInt32 (x : Int) : Prop := -2 ^ 31 ≤ x ∧ x < 2 ^ 31

instance (x : Int) : Decidable (InInt32 x) := inferInstanceAs (Decidable (_ ∧ _))

/-- The 64-bit register a sum or a product of `int64_t` values leaves. -/
def wrap64 (x : Int) : Int := x.bmod (2 ^ 64)

/-- The 32-bit register a sum of `int` values leaves. -/
def wrap32 (x : Int) : Int := x.bmod (2 ^ 32)

/-- Arithmetic inside the range of `int64_t` is exact. -/
theorem wrap64_of_inInt64 {x : Int} (h : InInt64 x) : wrap64 x = x := by
  obtain ⟨hl, hu⟩ := h
  unfold wrap64
  exact Int.bmod_eq_of_le (by omega) (by omega)

/-- Arithmetic inside the range of `int` is exact. -/
theorem wrap32_of_inInt32 {x : Int} (h : InInt32 x) : wrap32 x = x := by
  obtain ⟨hl, hu⟩ := h
  unfold wrap32
  exact Int.bmod_eq_of_le (by omega) (by omega)

/-- Rounding a non-negative quotient gives a non-negative integer. -/
theorem roundHalfAway_nonneg {q : ℚ} (h : 0 ≤ q) : 0 ≤ roundHalfAway q := by
  have hq : 0 ≤ q + 1 / 2 := by linarith
  simpa only [roundHalfAway, if_pos h] using Int.floor_nonneg.mpr hq

/-- On non-negative numbers `std::round` is the floor of the shifted number. -/
theorem roundHalfAway_of_nonneg {q : ℚ} (h : 0 ≤ q) :
    roundHalfAway q = ⌊q + 1 / 2⌋ := by
  simp only [roundHalfAway, if_pos h]

/-- What rounds to at most an integer is less than half above it. -/
theorem roundHalfAway_le_iff {q : ℚ} (h : 0 ≤ q) {n : Int} :
    roundHalfAway q ≤ n ↔ q < n + 1 / 2 := by
  rw [roundHalfAway_of_nonneg h, Int.floor_le_iff]
  constructor
  · intro hlt
    linarith
  · intro hlt
    linarith

/-- Rounding keeps a non-negative integer below the number. -/
theorem le_roundHalfAway {n : Int} {q : ℚ} (hn : 0 ≤ n) (hq : (n : ℚ) ≤ q) :
    n ≤ roundHalfAway q := by
  have hn' : (0 : ℚ) ≤ n := by exact_mod_cast hn
  rw [roundHalfAway_of_nonneg (hn'.trans hq), Int.le_floor]
  linarith

/-- What rounds below an integer is below it. -/
theorem lt_of_roundHalfAway_lt {n : Int} {q : ℚ} (hq : 0 ≤ q) (h : roundHalfAway q < n) :
    q < n := by
  rw [roundHalfAway_of_nonneg hq, Int.floor_lt] at h
  linarith

/-- A number that is not negative rounds to a double that is not. -/
theorem Double.ofRat_of_nonneg {q : ℚ} (h : 0 ≤ q) : Double.ofRat q =
    if Lib.Binary64.limit ≤ Lib.Binary64.nearest q then .posInf
    else .finite (Lib.Binary64.nearest q) := by
  have hnonneg := Lib.Binary64.nearest_nonneg h
  have hlimit := Lib.Binary64.limit_pos
  have hnot : ¬Lib.Binary64.nearest q ≤ -Lib.Binary64.limit := by linarith
  rw [Double.ofRat, if_neg hnot]

section Quotients

open Lib.Binary64

variable {a b : ℤ}

/-- Quotients of small integers do not overflow. -/
theorem Double.ofRat_div (ha : 0 ≤ a) (hb : 0 < b) (ha' : a < 2 ^ 51) (hb' : b ≤ 2 ^ 64) :
    Double.ofRat (a / b) = .finite (nearest (a / b)) := by
  have hquotient : (0 : ℚ) ≤ a / b := by positivity
  have hsmall : (a / b : ℚ) < (2 ^ 51 : ℤ) := by
    have hlt : (a : ℚ) < (2 ^ 51 : ℤ) := by exact_mod_cast ha'
    have hone : (1 : ℚ) ≤ b := by exact_mod_cast hb
    exact (div_le_self (by positivity) hone).trans_lt hlt
  have hnearest := (nearest_div_lt_iff ha hb ha' hb' (2 ^ 51)).mpr hsmall
  have hlimit : ((2 ^ 51 : ℤ) : ℚ) < limit := by
    rw [Int.cast_pow]
    exact two_pow_lt_limit (by decide)
  rw [ofRat_of_nonneg hquotient, if_neg (hnearest.trans hlimit).not_ge]

/-- Nor does the rounding to a double change the integer that they round to. -/
theorem roundHalfAway_nearest_div (ha : 0 ≤ a) (hb : 0 < b) (ha' : a < 2 ^ 51)
    (hb' : b ≤ 2 ^ 64) : roundHalfAway (nearest (a / b)) = roundHalfAway (a / b) := by
  have hquotient : (0 : ℚ) ≤ a / b := by positivity
  apply eq_of_forall_ge_iff
  intro n
  have hhalf : (n + 1 / 2 : ℚ) = (2 * n + 1 : ℤ) / 2 := by
    push_cast
    ring
  rw [roundHalfAway_le_iff (nearest_nonneg hquotient),
    roundHalfAway_le_iff hquotient, hhalf, nearest_div_lt_half_iff ha hb ha' hb']

end Quotients

/-- An integer is its own truncation. -/
theorem truncate_intCast (n : Int) : truncate (n : ℚ) = n := by
  unfold truncate
  split
  · exact Int.floor_intCast n
  · exact Int.ceil_intCast n

end ImportProxy.Base
