import Mathlib.Algebra.Order.Floor.Ring
import Mathlib.Tactic.Linarith

/-!
# Ticks of a clock between two instants

A clock that shows whole units is read at `t` and again after a time `d`. The number of ticks
between the readings depends on the phase of the clock; a bound that holds at every phase is
a bound on `d`.
-/

namespace Library

universe u

variable {K : Type u} [Field K] [LinearOrder K] [IsStrictOrderedRing K] [FloorRing K]

def ticks (t d : K) : ℤ := ⌊t + d⌋ - ⌊t⌋

variable {d : K} {n : ℤ}

theorem ticks_le (t : K) (h : d ≤ n) : ticks t d ≤ n := by
  have hFloor : ⌊t + d⌋ ≤ ⌊t⌋ + n := by
    calc ⌊t + d⌋ ≤ ⌊t + n⌋ := Int.floor_le_floor (by linarith)
      _ = ⌊t⌋ + n := Int.floor_add_intCast t n
  rw [ticks]
  linarith

theorem le_ticks (t : K) (h : n ≤ d) : n ≤ ticks t d := by
  have hFloor : ⌊t⌋ + n ≤ ⌊t + d⌋ := by
    calc ⌊t⌋ + n = ⌊t + n⌋ := (Int.floor_add_intCast t n).symm
      _ ≤ ⌊t + d⌋ := Int.floor_le_floor (by linarith)
  rw [ticks]
  linarith

/-- Just before a tick the least time shows. -/
theorem forall_ticks_le_iff : (∀ t : K, ticks t d ≤ n) ↔ d ≤ n := by
  constructor
  · intro h
    by_contra hLong
    have hAt := h (n + 1 - d)
    have hStart : ⌊(n : K) + 1 - d⌋ ≤ 0 := by
      have hLt : (n : K) + 1 - d < 1 := by linarith [not_le.mp hLong]
      exact Int.lt_add_one_iff.mp (Int.floor_lt.mpr (by push_cast; linarith))
    rw [ticks, sub_add_cancel, Int.floor_add_one, Int.floor_intCast] at hAt
    linarith
  · exact fun h t => ticks_le t h

/-- Just after a tick the time shows last. -/
theorem forall_le_ticks_iff : (∀ t : K, n ≤ ticks t d) ↔ n ≤ d := by
  constructor
  · intro h
    have hAt := h 0
    rw [ticks, zero_add, Int.floor_zero, sub_zero] at hAt
    exact Int.le_floor.mp hAt
  · exact fun h t => le_ticks t h

end Library
