import Mathlib.Algebra.Order.Floor.Ring
import Mathlib.Data.Rat.Floor
import Mathlib.Tactic.FieldSimp
import Mathlib.Tactic.Linarith

namespace Utos.Core.HalfEven

/-- The integer closest to x; of two that are equally close, the even one. -/
def halfEven (x : ℚ) : ℤ :=
  if 1 / 2 < Int.fract x ∨ Int.fract x = 1 / 2 ∧ ¬ Even ⌊x⌋ then ⌊x⌋ + 1 else ⌊x⌋

/-- round(x, digits) -/
def roundTo (digits : ℕ) (x : ℚ) : ℚ := halfEven (x * 10 ^ digits) / 10 ^ digits

variable {x : ℚ}

theorem abs_halfEven_sub_le (x : ℚ) : |(halfEven x : ℚ) - x| ≤ 1 / 2 := by
  have hfract := Int.floor_add_fract x
  have hnonneg := Int.fract_nonneg x
  rw [abs_le, halfEven]
  split
  next hup =>
    have hhalf : 1 / 2 ≤ Int.fract x := by
      rcases hup with hlt | ⟨heq, -⟩
      · exact hlt.le
      · exact heq.ge
    have hlt := Int.fract_lt_one x
    push_cast
    constructor <;> linarith
  next hdown =>
    have hhalf : Int.fract x ≤ 1 / 2 := not_lt.mp (fun hlt => hdown (Or.inl hlt))
    constructor <;> linarith

/-- Rounding passes no integer. -/
theorem halfEven_le {n : ℤ} (h : x ≤ n) : halfEven x ≤ n := by
  have hbound := (abs_le.mp (abs_halfEven_sub_le x)).2
  have hlt : (halfEven x : ℚ) < n + 1 := by linarith
  exact Int.lt_add_one_iff.mp (by exact_mod_cast hlt)

theorem roundTo_le {n : ℤ} (digits : ℕ) (h : x ≤ n) : roundTo digits x ≤ n := by
  have hpos : (0 : ℚ) < 10 ^ digits := by positivity
  have hscaled : x * 10 ^ digits ≤ ((n * 10 ^ digits : ℤ) : ℚ) := by
    push_cast
    exact mul_le_mul_of_nonneg_right h hpos.le
  rw [roundTo, div_le_iff₀ hpos]
  exact_mod_cast halfEven_le hscaled

theorem abs_roundTo_sub_le (digits : ℕ) (x : ℚ) : |roundTo digits x - x| ≤ 1 / (2 * 10 ^ digits) := by
  have hpos : (0 : ℚ) < 10 ^ digits := by positivity
  have hscale : roundTo digits x - x = (halfEven (x * 10 ^ digits) - x * 10 ^ digits) / 10 ^ digits := by
    rw [roundTo]
    field_simp
  rw [hscale, abs_div, abs_of_pos hpos, ← div_div]
  exact div_le_div_of_nonneg_right (abs_halfEven_sub_le _) hpos.le

end Utos.Core.HalfEven
