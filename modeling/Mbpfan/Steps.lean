import Mbpfan.Control
import Mbpfan.Library.Triangular

/-!
# The step sizes and the ramps of an accepted configuration

`step_up` and `step_down` are rounded three times in single precision before they are
truncated. For speeds less than `2 ^ 24` apart the result is the integer quotient; in
general it exceeds the exact share by at most one part in `2 ^ 22`, which is too little
for the ramps to leave the range of the fan or to cross each other.
-/

namespace Mbpfan

open Library

/-- The int products the startup forms for a fan fit. The products of the loop are not
larger on the ramps. -/
structure NoOverflow (p : Params) (fan : Fan) : Prop where
  range : InInt (fan.fanMaxSpeed - fan.fanMinSpeed)
  up : InInt ((p.maxTemp - p.highTemp) * (p.maxTemp - p.highTemp + 1))
  down : InInt ((p.maxTemp - p.lowTemp) * (p.maxTemp - p.lowTemp + 1))

structure Accepted (p : Params) (fan : Fan) : Prop where
  speeds : fan.fanMinSpeed ≤ fan.fanMaxSpeed
  temps : p.lowTemp ≤ p.highTemp
  proper : p.highTemp < p.maxTemp
  noOverflow : NoOverflow p fan

/-- The fan holds the steps the startup computes from the parameters. -/
structure Fitted (π : Platform) (p : Params) (fan : Fan) : Prop where
  up : fan.stepUp = stepUpFor π p fan
  down : fan.stepDown = stepDownFor π p fan

variable {π : Platform} {p : Params} {fan : Fan}

theorem inInt_of_product {n : ℤ} (hn : 0 ≤ n) (h : InInt (n * (n + 1))) :
    InInt n ∧ InInt (n + 1) ∧ n < 46341 := by
  obtain ⟨_, hUpper⟩ := h
  have hSmall : n < 46341 := by nlinarith
  exact ⟨⟨by omega, by omega⟩, ⟨by omega, by omega⟩, hSmall⟩

theorem product_eq {width : CInt} (hn : 0 ≤ (width : ℤ)) (h : InInt (width * (width + 1))) :
    (π.int (width * π.int (width + 1)) : ℤ) = width * (width + 1) := by
  rw [π.int_of_inInt (inInt_of_product hn h).2.1, π.int_of_inInt h]

theorem half_product_eq (n : ℤ) : ((n * (n + 1) : ℤ) : ℚ) / 2 = tri n := by
  rw [← two_mul_tri]
  push_cast
  ring

theorem stepFor_eq_cast (range : CInt) {width : CInt} (hn : 1 ≤ (width : ℤ))
    (h : InInt (width * (width + 1))) :
    stepFor π range width = π.cast (float (float range / float (tri width))) := by
  have hWidth : (0 : ℤ) < width := by omega
  have hTri : (0 : ℚ) < tri width := by exact_mod_cast lt_of_lt_of_le hWidth (le_tri width)
  have hPos : float (tri width) ≠ 0 := (roundFloat_pos (by decide) hTri).ne'
  simp only [stepFor, product_eq hWidth.le h, half_product_eq, if_neg hPos]

theorem stepFor_eq_ediv (π : Platform) (range width : CInt) (hRange : 0 ≤ (range : ℤ))
    (hRangeLt : (range : ℤ) < 2 ^ 24) (hn : 1 ≤ (width : ℤ)) (h : InInt (width * (width + 1))) :
    (stepFor π range width : ℤ) = range / tri width := by
  have hTri : 0 < tri width := lt_of_lt_of_le (by omega) (le_tri width)
  have hFloor : ⌊float (float (range : ℤ) / float (tri width))⌋ = (range : ℤ) / tri width :=
    floor_roundFloat_div (by decide) hRange hRangeLt hTri
  have hNonneg : 0 ≤ float (float (range : ℤ) / float (tri width)) :=
    roundFloat_nonneg (div_nonneg (roundFloat_nonneg (by exact_mod_cast hRange))
      (roundFloat_nonneg (by exact_mod_cast hTri.le)))
  have hQuotient : 0 ≤ (range : ℤ) / tri width := Int.ediv_nonneg hRange hTri.le
  have hQuotientLe : (range : ℤ) / tri width ≤ range := Int.ediv_le_self _ hRange
  rw [stepFor_eq_cast range hn h, π.cast_of_nonneg hNonneg, hFloor]
  rw [hFloor]
  constructor <;> omega

/-- The floor of the rounded quotient exceeds the exact share by one part in `2 ^ 22`. -/
theorem floor_step_bounds {r t : ℤ} (hr : 0 ≤ r) (ht : 0 < t) :
    0 ≤ ⌊float (float r / float t)⌋ ∧
      4194304 * (⌊float (float r / float t)⌋ * t) ≤ 4194305 * r := by
  have hrRat : (0 : ℚ) ≤ r := by exact_mod_cast hr
  have htRat : (0 : ℚ) < t := by exact_mod_cast ht
  have hNonneg : 0 ≤ float (float r / float t) :=
    roundFloat_nonneg (div_nonneg (roundFloat_nonneg hrRat) (roundFloat_nonneg htRat.le))
  have hShare := roundFloat_div_mul_le (p := 24) (by decide) hrRat htRat
  refine ⟨Int.floor_nonneg.mpr hNonneg, ?_⟩
  have hFloor : (⌊float (float r / float t)⌋ : ℚ) * t ≤ float (float r / float t) * t :=
    mul_le_mul_of_nonneg_right (Int.floor_le _) htRat.le
  have hRat : 4194304 * ((⌊float (float r / float t)⌋ : ℚ) * t) ≤ 4194305 * r := by
    change float (float r / float t) * (t - t / 2 ^ 24) ≤ (r + r / 2 ^ 24) * (1 + 1 / 2 ^ 24)
      at hShare
    linarith
  exact_mod_cast hRat

theorem stepFor_eq_floor {range width : CInt} (hRange : 0 ≤ (range : ℤ))
    (hn : 2 ≤ (width : ℤ)) (h : InInt (width * (width + 1))) :
    (stepFor π range width : ℤ) = ⌊float (float (range : ℤ) / float (tri width))⌋ := by
  have hTri : 3 ≤ tri width := by
    have hTwo := two_mul_tri width
    nlinarith
  have hTriPos : 0 < tri width := by omega
  obtain ⟨hNonneg, hShare⟩ := floor_step_bounds hRange hTriPos
  have hQuotient : 0 ≤ float (float (range : ℤ) / float (tri width)) := Int.floor_nonneg.mp hNonneg
  have hRangeLe := range.2.2
  rw [stepFor_eq_cast range (by omega) h, π.cast_of_nonneg hQuotient]
  constructor
  · omega
  · nlinarith

theorem stepFor_bounds (π : Platform) (range width : CInt) (hRange : 0 ≤ (range : ℤ))
    (hn : 2 ≤ (width : ℤ)) (h : InInt (width * (width + 1))) :
    0 ≤ (stepFor π range width : ℤ) ∧
      4194304 * ((stepFor π range width : ℤ) * tri width) ≤ 4194305 * range := by
  rw [stepFor_eq_floor hRange hn h]
  exact floor_step_bounds hRange (lt_of_lt_of_le (by omega) (le_tri width))

theorem stepFor_eq_zero_iff (π : Platform) (range width : CInt) (hRange : 0 ≤ (range : ℤ))
    (hn : 2 ≤ (width : ℤ)) (h : InInt (width * (width + 1))) :
    (stepFor π range width : ℤ) = 0 ↔ float (range : ℤ) < float (tri width) := by
  have hTri : 0 < tri width := lt_of_lt_of_le (by omega) (le_tri width)
  have hRangeRat : (0 : ℚ) ≤ (range : ℤ) := by exact_mod_cast hRange
  have hTriRat : (0 : ℚ) < (tri width : ℤ) := by exact_mod_cast hTri
  have hNonneg : 0 ≤ float (float (range : ℤ) / float (tri width)) :=
    roundFloat_nonneg (div_nonneg (roundFloat_nonneg hRangeRat) (roundFloat_nonneg hTriRat.le))
  have hOne := roundFloat_div_lt_one_iff (p := 24) (by decide) hRangeRat hTriRat
  rw [stepFor_eq_floor hRange hn h, Int.floor_eq_zero_iff]
  exact ⟨fun hMem => hOne.mp hMem.2, fun hLt => ⟨hNonneg, hOne.mpr hLt⟩⟩

/-! ## The steps of an accepted configuration -/

namespace Accepted

theorem range_eq (h : Accepted p fan) :
    (π.int (fan.fanMaxSpeed - fan.fanMinSpeed) : ℤ) = fan.fanMaxSpeed - fan.fanMinSpeed :=
  π.int_of_inInt h.noOverflow.range

theorem range_nonneg (h : Accepted p fan) : (0 : ℤ) ≤ fan.fanMaxSpeed - fan.fanMinSpeed :=
  sub_nonneg.mpr h.speeds

theorem up_width (h : Accepted p fan) : (1 : ℤ) ≤ p.maxTemp - p.highTemp := by
  have hProper : (p.highTemp : ℤ) < p.maxTemp := h.proper
  omega

theorem up_le_down (h : Accepted p fan) :
    (p.maxTemp : ℤ) - p.highTemp ≤ p.maxTemp - p.lowTemp := by
  have hTemps : (p.lowTemp : ℤ) ≤ p.highTemp := h.temps
  omega

theorem up_width_eq (h : Accepted p fan) :
    (π.int (p.maxTemp - p.highTemp) : ℤ) = p.maxTemp - p.highTemp :=
  π.int_of_inInt (inInt_of_product (by linarith [h.up_width]) h.noOverflow.up).1

theorem down_width_eq (h : Accepted p fan) :
    (π.int (p.maxTemp - p.lowTemp) : ℤ) = p.maxTemp - p.lowTemp :=
  π.int_of_inInt
    (inInt_of_product (by linarith [h.up_width, h.up_le_down]) h.noOverflow.down).1

theorem down_width_lt (h : Accepted p fan) : (p.maxTemp : ℤ) - p.lowTemp < 46341 :=
  (inInt_of_product (by linarith [h.up_width, h.up_le_down]) h.noOverflow.down).2.2

theorem stepUpFor_eq (h : Accepted p fan)
    (hRange : (fan.fanMaxSpeed : ℤ) - fan.fanMinSpeed < 2 ^ 24) :
    (stepUpFor π p fan : ℤ) =
      (fan.fanMaxSpeed - fan.fanMinSpeed) / tri (p.maxTemp - p.highTemp) := by
  have hEq := stepFor_eq_ediv π (π.int (fan.fanMaxSpeed - fan.fanMinSpeed))
    (π.int (p.maxTemp - p.highTemp))
  rw [h.range_eq, h.up_width_eq] at hEq
  exact hEq h.range_nonneg hRange h.up_width h.noOverflow.up

theorem stepDownFor_eq (h : Accepted p fan)
    (hRange : (fan.fanMaxSpeed : ℤ) - fan.fanMinSpeed < 2 ^ 24) :
    (stepDownFor π p fan : ℤ) =
      (fan.fanMaxSpeed - fan.fanMinSpeed) / tri (p.maxTemp - p.lowTemp) := by
  have hEq := stepFor_eq_ediv π (π.int (fan.fanMaxSpeed - fan.fanMinSpeed))
    (π.int (p.maxTemp - p.lowTemp))
  rw [h.range_eq, h.down_width_eq] at hEq
  exact hEq h.range_nonneg hRange (h.up_width.trans h.up_le_down) h.noOverflow.down

theorem stepUpFor_bounds (h : Accepted p fan) (hn : (2 : ℤ) ≤ p.maxTemp - p.highTemp) :
    0 ≤ (stepUpFor π p fan : ℤ) ∧
      4194304 * ((stepUpFor π p fan : ℤ) * tri (p.maxTemp - p.highTemp)) ≤
        4194305 * (fan.fanMaxSpeed - fan.fanMinSpeed) := by
  have hBounds := stepFor_bounds π (π.int (fan.fanMaxSpeed - fan.fanMinSpeed))
    (π.int (p.maxTemp - p.highTemp))
  rw [h.range_eq, h.up_width_eq] at hBounds
  exact hBounds h.range_nonneg hn h.noOverflow.up

theorem stepDownFor_bounds (h : Accepted p fan) (hn : (2 : ℤ) ≤ p.maxTemp - p.lowTemp) :
    0 ≤ (stepDownFor π p fan : ℤ) ∧
      4194304 * ((stepDownFor π p fan : ℤ) * tri (p.maxTemp - p.lowTemp)) ≤
        4194305 * (fan.fanMaxSpeed - fan.fanMinSpeed) := by
  have hBounds := stepFor_bounds π (π.int (fan.fanMaxSpeed - fan.fanMinSpeed))
    (π.int (p.maxTemp - p.lowTemp))
  rw [h.range_eq, h.down_width_eq] at hBounds
  exact hBounds h.range_nonneg hn h.noOverflow.down

theorem stepUpFor_eq_zero_iff (h : Accepted p fan) (hn : (2 : ℤ) ≤ p.maxTemp - p.highTemp) :
    (stepUpFor π p fan : ℤ) = 0 ↔
      float ((fan.fanMaxSpeed - fan.fanMinSpeed : ℤ) : ℚ) <
        float (tri (p.maxTemp - p.highTemp)) := by
  have hIff := stepFor_eq_zero_iff π (π.int (fan.fanMaxSpeed - fan.fanMinSpeed))
    (π.int (p.maxTemp - p.highTemp))
  rw [h.range_eq, h.up_width_eq] at hIff
  exact hIff h.range_nonneg hn h.noOverflow.up

end Accepted

end Mbpfan
