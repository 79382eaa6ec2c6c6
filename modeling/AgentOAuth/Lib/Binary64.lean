import Mathlib.Data.Int.Log
import Mathlib.Data.Rat.Floor
import Mathlib.Tactic.FieldSimp
import Mathlib.Tactic.Linarith
import Mathlib.Tactic.Ring

/-!
# Rounding to binary64

`nearest q` is the number of 53 significant bits next to `q`, and the even one
of two: what a correctly rounded operation returns while it neither overflows
nor underflows.  Everything here follows from two facts about it, the relative
error of `2⁻⁵³` and that an integer below `2⁵³` is kept; so does the quotient of
two integers keep its whole part while the first has 53 bits
(`floor_nearest_div`).
-/

namespace Binary64

/-! ## To an integer -/

/-- The nearest integer; a tie goes to the even one. -/
def roundHalfEven (q : ℚ) : ℤ :=
  let below := ⌊q⌋
  let rest := q - below
  if rest < 1 / 2 ∨ rest = 1 / 2 ∧ below % 2 = 0 then below else below + 1

@[simp] theorem roundHalfEven_intCast (n : ℤ) : roundHalfEven n = n := by
  simp only [roundHalfEven, Int.floor_intCast, sub_self]
  exact if_pos (.inl (by norm_num))

theorem abs_roundHalfEven_sub_le (q : ℚ) : |(roundHalfEven q : ℚ) - q| ≤ 1 / 2 := by
  have hlow := Int.floor_le q
  have hhigh := Int.lt_floor_add_one q
  simp only [roundHalfEven]
  rw [abs_le]
  split
  · next hdown =>
      have hrest : q - ⌊q⌋ ≤ 1 / 2 := by
        rcases hdown with hlt | ⟨heq, _⟩
        · exact hlt.le
        · exact heq.le
      constructor <;> linarith
  · next hup =>
      have hrest : 1 / 2 ≤ q - ⌊q⌋ := not_lt.mp fun hlt => hup (.inl hlt)
      push_cast
      constructor <;> linarith

/-- Rounding does not pass an integer. -/
theorem le_roundHalfEven {n : ℤ} {q : ℚ} (h : (n : ℚ) - 1 / 2 < q) : n ≤ roundHalfEven q := by
  have herror := (abs_le.mp (abs_roundHalfEven_sub_le q)).1
  have hlt : ((n - 1 : ℤ) : ℚ) < roundHalfEven q := by
    push_cast
    linarith
  have hlt' : n - 1 < roundHalfEven q := by exact_mod_cast hlt
  omega

/-! ## To 53 bits -/

/-- The unit in the last of the 53 bits of `q`. -/
def ulp (q : ℚ) : ℚ := 2 ^ (Int.log 2 |q| - 52)

/-- The binary64 nearest to `q`, the even one of two: no range of the exponent is
modelled. -/
def nearest (q : ℚ) : ℚ := roundHalfEven (q / ulp q) * ulp q

theorem ulp_pos (q : ℚ) : 0 < ulp q :=
  zpow_pos (by norm_num) _

theorem ulp_le {q : ℚ} (hq : q ≠ 0) : ulp q ≤ |q| / 2 ^ 52 := by
  have hlog : (2 : ℚ) ^ Int.log 2 |q| ≤ |q| := by
    exact_mod_cast Int.zpow_log_le_self (b := 2) (by norm_num) (abs_pos.mpr hq)
  calc ulp q = 2 ^ Int.log 2 |q| / 2 ^ 52 := by
        rw [ulp, zpow_sub₀ (by norm_num)]
        norm_num
    _ ≤ |q| / 2 ^ 52 := by gcongr

@[simp] theorem nearest_zero : nearest 0 = 0 := by
  have hzero : roundHalfEven ((0 : ℤ) : ℚ) = 0 := roundHalfEven_intCast 0
  rw [Int.cast_zero] at hzero
  rw [nearest, zero_div, hzero, Int.cast_zero, zero_mul]

/-- The relative error is at most half a unit in the last place. -/
theorem abs_nearest_sub_le (q : ℚ) : |nearest q - q| ≤ |q| / 2 ^ 53 := by
  by_cases hq : q = 0
  · subst hq
    simp
  have hulp := ulp_pos q
  have hsplit : nearest q - q = (roundHalfEven (q / ulp q) - q / ulp q) * ulp q := by
    unfold nearest
    field_simp
  calc |nearest q - q| = |(roundHalfEven (q / ulp q) : ℚ) - q / ulp q| * ulp q := by
        rw [hsplit, abs_mul, abs_of_pos hulp]
    _ ≤ 1 / 2 * ulp q := by
        gcongr
        exact abs_roundHalfEven_sub_le _
    _ ≤ 1 / 2 * (|q| / 2 ^ 52) := by
        gcongr
        exact ulp_le hq
    _ = |q| / 2 ^ 53 := by ring

/-- Rounding twice does not pass an integer. -/
theorem le_roundHalfEven_nearest {n : ℤ} {q : ℚ} (h : (n : ℚ) ≤ q) (hq : |q| < 2 ^ 52) :
    n ≤ roundHalfEven (nearest q) := by
  have herror := (abs_le.mp (abs_nearest_sub_le q)).1
  have hhalf : |q| / 2 ^ 53 < 1 / 2 := by
    rw [div_lt_div_iff₀ (by norm_num) (by norm_num)]
    linarith
  apply le_roundHalfEven
  linarith

/-- Integers of 53 bits are kept. -/
theorem nearest_intCast {n : ℤ} (h : |n| < 2 ^ 53) : nearest n = n := by
  by_cases hn : n = 0
  · subst hn
    simp
  have hpos : (0 : ℚ) < |(n : ℚ)| := abs_pos.mpr (by exact_mod_cast hn)
  have hlog : Int.log 2 |(n : ℚ)| < 53 := by
    rw [← Int.lt_zpow_iff_log_lt (by norm_num) hpos]
    exact_mod_cast h
  -- the last of the bits is not above the unit
  obtain ⟨k, hk⟩ : ∃ k : ℕ, 52 - Int.log 2 |(n : ℚ)| = k :=
    ⟨(52 - Int.log 2 |(n : ℚ)|).toNat, by omega⟩
  have hulp : ulp n = 1 / 2 ^ k := by
    have hneg : Int.log 2 |(n : ℚ)| - 52 = -(k : ℤ) := by omega
    rw [ulp, hneg, zpow_neg, zpow_natCast, one_div]
  have hwhole : (n : ℚ) / ulp n = ((n * 2 ^ k : ℤ) : ℚ) := by
    rw [hulp]
    push_cast
    field_simp
  rw [nearest, hwhole, roundHalfEven_intCast, ← hwhole]
  exact div_mul_cancel₀ _ (ulp_pos n).ne'

theorem nearest_nonneg {q : ℚ} (hq : 0 ≤ q) : 0 ≤ nearest q := by
  have herror := (abs_le.mp (abs_nearest_sub_le q)).1
  rw [abs_of_nonneg hq] at herror
  linarith

theorem nearest_nonpos {q : ℚ} (hq : q ≤ 0) : nearest q ≤ 0 := by
  have herror := (abs_le.mp (abs_nearest_sub_le q)).2
  rw [abs_of_nonpos hq] at herror
  linarith

/-- The quotient of two integers, rounded once, has the whole part of the exact
one. -/
theorem floor_nearest_div {n d : ℤ} (hn : 0 ≤ n) (hd : 0 < d) (h : n < 2 ^ 53) :
    ⌊nearest (n / d)⌋ = n / d := by
  have hd' : (0 : ℚ) < d := by exact_mod_cast hd
  have hquotient : (0 : ℚ) ≤ n / d := div_nonneg (by exact_mod_cast hn) hd'.le
  -- the error is less than the distance of two neighbouring quotients
  have hclose : (n : ℚ) / d / 2 ^ 53 < 1 / d := by
    rw [div_div, div_lt_div_iff₀ (by positivity) hd', one_mul, mul_comm]
    gcongr
    exact_mod_cast h
  have herror := abs_nearest_sub_le ((n : ℚ) / d)
  rw [abs_of_nonneg hquotient] at herror
  obtain ⟨hbelow, habove⟩ := abs_le.mp herror
  have hdivision := Int.emod_add_mul_ediv n d
  have hremainder := Int.emod_nonneg n hd.ne'
  have hremainder' := Int.emod_lt_of_pos n hd
  rw [Int.floor_eq_iff]
  constructor
  · rcases hremainder.lt_or_eq with hmore | hexact
    · have hlater : ((n / d : ℤ) : ℚ) + 1 / d ≤ n / d := by
        rw [le_div_iff₀ hd', add_mul, one_div_mul_cancel hd'.ne', mul_comm]
        exact_mod_cast (by omega : d * (n / d) + 1 ≤ n)
      linarith
    · -- no remainder: the quotient is an integer of 53 bits
      have hwhole : (n : ℚ) / d = ((n / d : ℤ) : ℚ) := by
        rw [div_eq_iff hd'.ne', mul_comm]
        exact_mod_cast (by omega : n = d * (n / d))
      have hsmall : |n / d| < 2 ^ 53 := by
        rw [abs_of_nonneg (Int.ediv_nonneg hn hd.le)]
        exact (Int.ediv_le_self d hn).trans_lt h
      rw [hwhole, nearest_intCast hsmall]
  · have hearlier : (n : ℚ) / d + 1 / d ≤ ((n / d : ℤ) : ℚ) + 1 := by
      rw [← add_div, div_le_iff₀ hd', add_mul, one_mul, mul_comm]
      exact_mod_cast (by linarith [Int.lt_ediv_add_one_mul_self n hd] : n + 1 ≤ d * (n / d) + d)
    linarith

end Binary64
