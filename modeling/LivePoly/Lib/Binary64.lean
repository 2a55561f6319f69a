import Mathlib.Algebra.Order.Floor.Ring
import Mathlib.Data.Rat.Floor
import Mathlib.Tactic.Linarith
import Mathlib.Tactic.Positivity

/-!
# Lib.Binary64

Rounding of rational numbers to binary64 floating point: 53 significant bits, to nearest, ties to
even. Overflow, underflow and the special values are left out, so every operation on numbers of
ordinary size is its exact result rounded by `fl`.
-/

namespace Binary64

/-- The `k` with `2 ^ k ≤ |q| < 2 ^ (k + 1)`, for `q ≠ 0`. -/
def exponent (q : Rat) : Int :=
  let k : Int := (Nat.log2 q.num.natAbs : Int) - Nat.log2 q.den
  if (2 : Rat) ^ k ≤ |q| then k else k - 1

/-- The nearest integer, and of two nearest ones the even one. -/
def roundHalfEven (q : Rat) : Int :=
  let n := q.floor
  if q - n < 1 / 2 then n
  else if 1 / 2 < q - n then n + 1
  else if n % 2 = 0 then n else n + 1

/-- The nearest number with 53 significant bits. -/
def fl (q : Rat) : Rat :=
  if q = 0 then 0
  else
    let ulp := (2 : Rat) ^ (exponent q - 52)
    roundHalfEven (q / ulp) * ulp

/-! ## The error of a rounding -/

theorem two_pow_exponent_le {q : Rat} (hq : q ≠ 0) : (2 : Rat) ^ exponent q ≤ |q| := by
  unfold exponent
  dsimp only
  split
  · assumption
  · have hnum : q.num.natAbs ≠ 0 := Int.natAbs_ne_zero.mpr (Rat.num_ne_zero.mpr hq)
    have hbelow : ((2 ^ Nat.log2 q.num.natAbs : Nat) : Rat) ≤ q.num.natAbs :=
      Nat.cast_le.mpr (Nat.log2_self_le hnum)
    have habove : (q.den : Rat) ≤ (2 ^ (Nat.log2 q.den + 1) : Nat) :=
      Nat.cast_le.mpr Nat.lt_log2_self.le
    have hden : (0 : Rat) < q.den := Nat.cast_pos.mpr q.den_pos
    have habs : |q| = q.num.natAbs / q.den := by
      conv_lhs => rw [← Rat.num_div_den q]
      rw [abs_div, Nat.abs_cast, ← Int.cast_abs, Int.abs_eq_natAbs, Int.cast_natCast]
    rw [habs, le_div_iff₀ hden]
    calc (2 : Rat) ^ ((Nat.log2 q.num.natAbs : Int) - Nat.log2 q.den - 1) * q.den
        ≤ (2 : Rat) ^ ((Nat.log2 q.num.natAbs : Int) - Nat.log2 q.den - 1) *
            ((2 ^ (Nat.log2 q.den + 1) : Nat) : Rat) := by
          exact mul_le_mul_of_nonneg_left habove (zpow_pos two_pos _).le
      _ = ((2 ^ Nat.log2 q.num.natAbs : Nat) : Rat) := by
          rw [Nat.cast_pow, Nat.cast_pow, Nat.cast_ofNat, ← zpow_natCast, ← zpow_natCast,
            ← zpow_add₀ two_ne_zero]
          congr 1
          omega
      _ ≤ q.num.natAbs := hbelow

theorem abs_roundHalfEven_sub_le (q : Rat) : |roundHalfEven q - q| ≤ 1 / 2 := by
  have hbelow : (q.floor : Rat) ≤ q := Int.floor_le q
  have habove : q < q.floor + 1 := Int.lt_floor_add_one q
  unfold roundHalfEven
  dsimp only
  rw [abs_le]
  split
  · constructor <;> linarith
  · split
    · push_cast
      constructor <;> linarith
    · split
      · constructor <;> linarith
      · push_cast
        constructor <;> linarith

/-- The relative error of a rounding. -/
theorem abs_fl_sub_le (q : Rat) : |fl q - q| ≤ |q| / 2 ^ 53 := by
  unfold fl
  split
  · rename_i hq
    simp [hq]
  · rename_i hq
    have hulp : (0 : Rat) < 2 ^ (exponent q - 52) := zpow_pos two_pos _
    have hscaled : roundHalfEven (q / 2 ^ (exponent q - 52)) * (2 : Rat) ^ (exponent q - 52) - q =
        (roundHalfEven (q / 2 ^ (exponent q - 52)) - q / 2 ^ (exponent q - 52)) *
          2 ^ (exponent q - 52) := by
      rw [sub_mul, div_mul_cancel₀ _ hulp.ne']
    have hpow : (2 : Rat) ^ (exponent q - 52) * 2 ^ 52 = 2 ^ exponent q := by
      rw [← zpow_natCast, ← zpow_add₀ two_ne_zero]
      congr 1
      omega
    have herror := mul_le_mul_of_nonneg_right
      (abs_roundHalfEven_sub_le (q / 2 ^ (exponent q - 52))) hulp.le
    have hexponent := two_pow_exponent_le hq
    dsimp only
    rw [hscaled, abs_mul, abs_of_pos hulp]
    rw [← hpow] at hexponent
    rw [le_div_iff₀ (by positivity)]
    linarith

theorem fl_zero : fl 0 = 0 := if_pos rfl

theorem fl_pos {q : Rat} (hq : 0 < q) : 0 < fl q := by
  obtain ⟨hlow, _⟩ := abs_le.mp (abs_fl_sub_le q)
  rw [abs_of_pos hq] at hlow
  have hsmall : q / 2 ^ 53 < q := div_lt_self hq (by norm_num)
  linarith

/-- A factor of at least 1.05 is more than what rounding can hide. -/
theorem le_of_fl_le {v w : Int} {m : Rat} (hv : 0 ≤ v) (hw : 0 ≤ w) (hm : 21 / 20 ≤ m)
    (h : fl (fl v * m) ≤ fl w) : v ≤ w := by
  by_contra hlt
  have hgap : (w : Rat) + 1 ≤ v := by exact_mod_cast Int.not_le.mp hlt
  have hv' : (0 : Rat) ≤ v := Int.cast_nonneg hv
  have hw' : (0 : Rat) ≤ w := Int.cast_nonneg hw
  obtain ⟨hvlow, _⟩ := abs_le.mp (abs_fl_sub_le v)
  obtain ⟨_, hwhigh⟩ := abs_le.mp (abs_fl_sub_le w)
  rw [abs_of_nonneg hv'] at hvlow
  rw [abs_of_nonneg hw'] at hwhigh
  have hflv : (0 : Rat) ≤ fl v := by linarith
  have hproduct : fl v * (21 / 20) ≤ fl v * m := mul_le_mul_of_nonneg_left hm hflv
  obtain ⟨hlow, _⟩ := abs_le.mp (abs_fl_sub_le (fl v * m))
  rw [abs_of_nonneg (mul_nonneg hflv (by linarith))] at hlow
  linarith

end Binary64
