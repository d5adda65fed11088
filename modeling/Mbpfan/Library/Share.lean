import Mathlib.Data.Rat.Floor
import Mathlib.Tactic.FieldSimp
import Mathlib.Tactic.Linarith
import Mathlib.Tactic.Ring

/-!
# Shares of a range rounded too early

`k` of the `d` equal parts of a range `r`, once with the part rounded down before it is
multiplied and once with the product rounded at the end. The two agree only if the range
divides evenly, or where a bound hides the difference.
-/

namespace Library

variable {r d k m s : ℤ}

theorem exact_share_eq (hd : 0 < d) :
    (r : ℚ) * k / d = ((r / d * k : ℤ) : ℚ) + ((r % d * k : ℤ) : ℚ) / d := by
  have hdRat : (d : ℚ) ≠ 0 := by exact_mod_cast hd.ne'
  have hDiv : ((r : ℤ) : ℚ) = d * ((r / d : ℤ) : ℚ) + ((r % d : ℤ) : ℚ) := by
    exact_mod_cast (Int.mul_ediv_add_emod r d).symm
  rw [hDiv]
  push_cast
  field_simp

theorem ceil_share_eq (hd : 0 < d) :
    ⌈(r : ℚ) * k / d⌉ = r / d * k + ⌈((r % d * k : ℤ) : ℚ) / d⌉ := by
  rw [exact_share_eq hd, Int.ceil_intCast_add]

theorem share_le_ceil (hd : 0 < d) (hk : 0 ≤ k) : r / d * k ≤ ⌈(r : ℚ) * k / d⌉ := by
  have hRest : (0 : ℚ) ≤ ((r % d * k : ℤ) : ℚ) / d := by
    have hMod : 0 ≤ r % d * k := mul_nonneg (Int.emod_nonneg r hd.ne') hk
    have hdRat : (0 : ℚ) < d := by exact_mod_cast hd
    exact div_nonneg (by exact_mod_cast hMod) hdRat.le
  rw [ceil_share_eq hd]
  linarith [Int.ceil_nonneg hRest]

theorem share_eq_ceil_iff (hd : 0 < d) (hk : 0 < k) :
    r / d * k = ⌈(r : ℚ) * k / d⌉ ↔ d ∣ r := by
  have hdRat : (0 : ℚ) < d := by exact_mod_cast hd
  have hMod := Int.emod_nonneg r hd.ne'
  rw [ceil_share_eq hd, left_eq_add, Int.dvd_iff_emod_eq_zero]
  constructor
  · intro hCeil
    have hLe : ((r % d * k : ℤ) : ℚ) / d ≤ 0 := by exact_mod_cast Int.ceil_le.mp hCeil.le
    have hProduct : r % d * k ≤ 0 := by
      have hRat := (div_le_iff₀ hdRat).mp hLe
      rw [zero_mul] at hRat
      exact_mod_cast hRat
    nlinarith
  · intro hEven
    rw [hEven, zero_mul, Int.cast_zero, zero_div, Int.ceil_zero]

/-- A climb by rounded parts, limited from below by `s`. -/
theorem max_share_eq_iff (hd : 0 < d) (hk : 0 < k) :
    max s (m + r / d * k) = max s ⌈(m + r * k / d : ℚ)⌉ ↔
      d ∣ r ∨ ⌈(m + r * k / d : ℚ)⌉ ≤ s := by
  have hLe := share_le_ceil (r := r) hd hk.le
  have hIff := share_eq_ceil_iff (r := r) hd hk
  rw [Int.ceil_intCast_add]
  constructor
  · intro hMax
    rcases le_or_gt (m + ⌈(r : ℚ) * k / d⌉) s with hBelow | hAbove
    · exact .inr hBelow
    · left
      apply hIff.mp
      omega
  · rintro (hDvd | hBelow)
    · rw [hIff.mpr hDvd]
    · omega

/-- A descent by rounded parts, limited from above by `s`. -/
theorem min_share_eq_iff (hd : 0 < d) (hk : 0 < k) :
    min s (m - r / d * k) = min s ⌊(m - r * k / d : ℚ)⌋ ↔
      d ∣ r ∨ s ≤ ⌊(m - r * k / d : ℚ)⌋ := by
  have hLe := share_le_ceil (r := r) hd hk.le
  have hIff := share_eq_ceil_iff (r := r) hd hk
  have hFloor : ⌊(m - r * k / d : ℚ)⌋ = m - ⌈(r : ℚ) * k / d⌉ := by
    rw [sub_eq_add_neg, Int.floor_intCast_add, Int.floor_neg, ← sub_eq_add_neg]
  rw [hFloor]
  constructor
  · intro hMin
    rcases le_or_gt s (m - ⌈(r : ℚ) * k / d⌉) with hAbove | hBelow
    · exact .inr hAbove
    · left
      apply hIff.mp
      omega
  · rintro (hDvd | hAbove)
    · rw [hIff.mpr hDvd]
    · omega

end Library
