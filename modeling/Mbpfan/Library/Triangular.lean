import Mathlib.Algebra.Ring.Int.Parity
import Mathlib.Tactic.Linarith
import Mathlib.Tactic.Ring

/-!
# Triangular numbers and two opposed ramps

A ramp climbs by a fixed step times the triangular number of the distance from its foot.
Two ramps that start at the two ends of a range and climb toward each other do not
cross, because `tri a + tri b` stays below `tri (a + b)` by `a * b`. That slack also
absorbs a relative error of one part in `k` in the steps.
-/

namespace Library

def tri (n : ℤ) : ℤ := n * (n + 1) / 2

theorem two_mul_tri (n : ℤ) : 2 * tri n = n * (n + 1) :=
  Int.mul_ediv_cancel' (Int.even_mul_succ_self n).two_dvd

theorem tri_add (a b : ℤ) : tri (a + b) = tri a + tri b + a * b := by
  have hSum := two_mul_tri (a + b)
  have ha := two_mul_tri a
  have hb := two_mul_tri b
  linarith [show (a + b) * (a + b + 1) = a * (a + 1) + b * (b + 1) + 2 * (a * b) by ring]

theorem tri_nonneg {n : ℤ} (h : 0 ≤ n) : 0 ≤ tri n :=
  Int.ediv_nonneg (mul_nonneg h (by omega)) (by decide)

theorem le_tri (n : ℤ) : n ≤ tri n := by
  have hTri := two_mul_tri n
  linarith [Int.le_self_sq n, show n * (n + 1) = n ^ 2 + n by ring]

theorem tri_pos {n : ℤ} (h : 0 < n) : 0 < tri n := lt_of_lt_of_le h (le_tri n)

theorem tri_mono {a b : ℤ} (ha : 0 ≤ a) (hab : a ≤ b) : tri a ≤ tri b := by
  have hSum := tri_add a (b - a)
  rw [add_sub_cancel] at hSum
  linarith [tri_nonneg (sub_nonneg.mpr hab), mul_nonneg ha (sub_nonneg.mpr hab)]

theorem tri_le_mul_mul {a b k : ℤ} (ha : 1 ≤ a) (hb : 1 ≤ b) (hk : a + b < k) :
    tri (a + b) ≤ k * (a * b) := by
  have hProduct : a + b ≤ 2 * (a * b) := by nlinarith
  have hTri := two_mul_tri (a + b)
  have hSum : 0 ≤ a + b := by omega
  have hNext : a + b + 1 ≤ k := by omega
  have hNonneg : 0 ≤ k := by omega
  nlinarith [mul_le_mul_of_nonneg_left hNext hSum, mul_le_mul_of_nonneg_left hProduct hNonneg]

/-- The two ramps of a range `r` do not cross: `up` climbs over a width `a + b` and `down`
over a width `w` at least as large, each step at most `k + 1` parts in `k` of its share. -/
theorem ramps_le {r up down a b w k : ℤ} (hr : 0 ≤ r) (hDown : 0 ≤ down)
    (ha : 1 ≤ a) (hb : 1 ≤ b) (hw : a + b ≤ w) (hk : a + b < k)
    (hUpStep : k * (up * tri (a + b)) ≤ (k + 1) * r)
    (hDownStep : k * (down * tri w) ≤ (k + 1) * r) :
    up * tri a + down * tri b ≤ r := by
  have hSplit := tri_add a b
  have hSlack := tri_le_mul_mul ha hb hk
  have haNonneg : 0 ≤ a := by omega
  have hbNonneg : 0 ≤ b := by omega
  have hA := tri_nonneg haNonneg
  have hB := tri_nonneg hbNonneg
  have hPos : 0 < tri (a + b) := lt_of_lt_of_le (by omega) (le_tri (a + b))
  have hWidths : down * tri (a + b) ≤ down * tri w :=
    mul_le_mul_of_nonneg_left (tri_mono (by omega) hw) hDown
  have hUpShare : k * (up * tri (a + b)) * tri a ≤ (k + 1) * r * tri a :=
    mul_le_mul_of_nonneg_right hUpStep hA
  have hDownShare : k * (down * tri (a + b)) * tri b ≤ (k + 1) * r * tri b :=
    mul_le_mul_of_nonneg_right
      ((mul_le_mul_of_nonneg_left hWidths (by omega)).trans hDownStep) hB
  have hScaled : (up * tri a + down * tri b) * (k * tri (a + b)) ≤ r * (k * tri (a + b)) := by
    calc
      (up * tri a + down * tri b) * (k * tri (a + b))
          = k * (up * tri (a + b)) * tri a + k * (down * tri (a + b)) * tri b := by ring
      _ ≤ (k + 1) * r * tri a + (k + 1) * r * tri b := add_le_add hUpShare hDownShare
      _ = r * ((k + 1) * (tri (a + b) - a * b)) := by rw [hSplit]; ring
      _ ≤ r * (k * tri (a + b)) := by
          refine mul_le_mul_of_nonneg_left ?_ hr
          nlinarith [mul_nonneg haNonneg hbNonneg]
  exact le_of_mul_le_mul_right hScaled (mul_pos (by omega) hPos)

/-- A single ramp over a width `w` that leaves out the last part `a` stays within the range. -/
theorem ramp_le {r down a b w k : ℤ} (hr : 0 ≤ r) (hDown : 0 ≤ down) (ha : 1 ≤ a) (hb : 1 ≤ b)
    (hw : a + b ≤ w) (hk : a + b < k) (hDownStep : k * (down * tri w) ≤ (k + 1) * r) :
    down * tri b ≤ r := by
  have hZero : k * (0 * tri (a + b)) ≤ (k + 1) * r := by
    rw [zero_mul, mul_zero]
    exact mul_nonneg (by omega) hr
  simpa using ramps_le hr hDown ha hb hw hk hZero hDownStep

end Library
