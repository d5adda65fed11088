import Mbpfan.Steps
import Mbpfan.Library.Play

/-!
# The control loop as a play operator

Between `high_temp` and `max_temp` the commanded speed is kept between two quadratic ramps,
below `high_temp` between the minimum speed and the falling ramp, and outside at one end
of the range. On this band the four branches of the loop body together are the play
operator between its two curves, which are monotone in the temperature.
-/

namespace Mbpfan

open Library

def upRamp (p : Params) (fan : Fan) (t : ℤ) : ℤ :=
  fan.fanMinSpeed + fan.stepUp * tri (t - p.highTemp)

def downRamp (p : Params) (fan : Fan) (t : ℤ) : ℤ :=
  fan.fanMaxSpeed - fan.stepDown * tri (p.maxTemp - t)

def lowerCurve (p : Params) (fan : Fan) (t : ℤ) : ℤ :=
  if p.maxTemp ≤ t then fan.fanMaxSpeed
  else if p.highTemp < t then upRamp p fan t
  else fan.fanMinSpeed

def upperCurve (p : Params) (fan : Fan) (t : ℤ) : ℤ :=
  if t ≤ p.lowTemp then fan.fanMinSpeed
  else if t < p.maxTemp then downRamp p fan t
  else fan.fanMaxSpeed

/-- The cached speed of the fan belongs to the last reading `t`. -/
structure OnCurve (p : Params) (fan : Fan) (t : Reading) : Prop where
  cold : t.degrees ≤ p.lowTemp → fan.oldSpeed = fan.fanMinSpeed
  hot : p.maxTemp ≤ t.degrees → fan.oldSpeed = fan.fanMaxSpeed
  ramp : p.highTemp < t.degrees → t.degrees < p.maxTemp →
    upRamp p fan t.degrees ≤ fan.oldSpeed ∧ fan.oldSpeed ≤ downRamp p fan t.degrees
  rest : p.lowTemp < t.degrees → t.degrees ≤ p.highTemp →
    fan.fanMinSpeed ≤ fan.oldSpeed ∧ fan.oldSpeed ≤ downRamp p fan t.degrees

variable {π : Platform} {p : Params} {fan : Fan} {t u : ℤ}

theorem lowerCurve_of_max_le (h : p.maxTemp ≤ t) : lowerCurve p fan t = fan.fanMaxSpeed :=
  if_pos h

theorem lowerCurve_of_ramp (hMax : t < p.maxTemp) (hHigh : p.highTemp < t) :
    lowerCurve p fan t = upRamp p fan t := (if_neg hMax.not_ge).trans (if_pos hHigh)

theorem lowerCurve_of_le_high (hMax : t < p.maxTemp) (hHigh : t ≤ p.highTemp) :
    lowerCurve p fan t = fan.fanMinSpeed := (if_neg hMax.not_ge).trans (if_neg hHigh.not_gt)

theorem upperCurve_of_le_low (h : t ≤ p.lowTemp) : upperCurve p fan t = fan.fanMinSpeed :=
  if_pos h

theorem upperCurve_of_between (hLow : p.lowTemp < t) (hMax : t < p.maxTemp) :
    upperCurve p fan t = downRamp p fan t := (if_neg hLow.not_ge).trans (if_pos hMax)

theorem upperCurve_of_max_le (hLow : p.lowTemp < t) (hMax : p.maxTemp ≤ t) :
    upperCurve p fan t = fan.fanMaxSpeed := (if_neg hLow.not_ge).trans (if_neg hMax.not_gt)

namespace Accepted

theorem temps' (h : Accepted p fan) : (p.lowTemp : ℤ) ≤ p.highTemp := h.temps
theorem proper' (h : Accepted p fan) : (p.highTemp : ℤ) < p.maxTemp := h.proper
theorem speeds' (h : Accepted p fan) : (fan.fanMinSpeed : ℤ) ≤ fan.fanMaxSpeed := h.speeds

theorem stepUp_nonneg (h : Accepted p fan) (hf : Fitted π p fan) (hHigh : p.highTemp < t)
    (hMax : t < p.maxTemp) : (0 : ℤ) ≤ fan.stepUp := by
  rw [hf.up]
  exact (h.stepUpFor_bounds (by omega)).1

theorem stepDown_nonneg (h : Accepted p fan) (hf : Fitted π p fan) (hLow : p.lowTemp < t)
    (hMax : t < p.maxTemp) : (0 : ℤ) ≤ fan.stepDown := by
  rw [hf.down]
  exact (h.stepDownFor_bounds (by omega)).1

theorem upRamp_le_downRamp (h : Accepted p fan) (hf : Fitted π p fan)
    (hHigh : p.highTemp < t) (hMax : t < p.maxTemp) : upRamp p fan t ≤ downRamp p fan t := by
  have hTemps := h.temps'
  have hWidth := h.down_width_lt
  have hSum : t - p.highTemp + (p.maxTemp - t) = p.maxTemp - p.highTemp := by ring
  have hUp := (h.stepUpFor_bounds (π := π) (by omega)).2
  have hDown := h.stepDownFor_bounds (π := π) (by omega)
  rw [← hf.up, ← hSum] at hUp
  rw [← hf.down] at hDown
  have hClimbed : 1 ≤ t - p.highTemp := by omega
  have hLeft : 1 ≤ p.maxTemp - t := by omega
  have hRamps := ramps_le (k := 4194304) h.range_nonneg hDown.1 hClimbed hLeft (by omega)
    (by omega) hUp hDown.2
  rw [upRamp, downRamp]
  linarith

theorem min_le_downRamp (h : Accepted p fan) (hf : Fitted π p fan) (hLow : p.lowTemp < t)
    (hMax : t < p.maxTemp) : fan.fanMinSpeed ≤ downRamp p fan t := by
  have hWidth := h.down_width_lt
  have hSum : t - p.lowTemp + (p.maxTemp - t) = p.maxTemp - p.lowTemp := by ring
  have hDown := h.stepDownFor_bounds (π := π) (by omega)
  rw [← hf.down, ← hSum] at hDown
  have hClimbed : 1 ≤ t - p.lowTemp := by omega
  have hLeft : 1 ≤ p.maxTemp - t := by omega
  have hRamp := ramp_le (k := 4194304) h.range_nonneg hDown.1 hClimbed hLeft le_rfl (by omega)
    hDown.2
  rw [downRamp]
  linarith

theorem min_le_upRamp (h : Accepted p fan) (hf : Fitted π p fan) (hHigh : p.highTemp < t)
    (hMax : t < p.maxTemp) : fan.fanMinSpeed ≤ upRamp p fan t := by
  have hStep := h.stepUp_nonneg hf hHigh hMax
  have hClimbed : 0 ≤ t - p.highTemp := by omega
  have hTri := tri_nonneg hClimbed
  rw [upRamp]
  linarith [mul_nonneg hStep hTri]

theorem downRamp_le_max (h : Accepted p fan) (hf : Fitted π p fan) (hLow : p.lowTemp < t)
    (hMax : t < p.maxTemp) : downRamp p fan t ≤ fan.fanMaxSpeed := by
  have hStep := h.stepDown_nonneg hf hLow hMax
  have hLeft : 0 ≤ p.maxTemp - t := by omega
  have hTri := tri_nonneg hLeft
  rw [downRamp]
  linarith [mul_nonneg hStep hTri]

theorem upRamp_mono (h : Accepted p fan) (hf : Fitted π p fan) (hHigh : p.highTemp < t)
    (htu : t ≤ u) (hMax : u < p.maxTemp) : upRamp p fan t ≤ upRamp p fan u := by
  have hStep := h.stepUp_nonneg hf hHigh (htu.trans_lt hMax)
  have hClimbed : 0 ≤ t - p.highTemp := by omega
  have hTri := tri_mono hClimbed (sub_le_sub_right htu p.highTemp.val)
  unfold upRamp
  linarith [mul_le_mul_of_nonneg_left hTri hStep]

theorem downRamp_mono (h : Accepted p fan) (hf : Fitted π p fan) (hLow : p.lowTemp < t)
    (htu : t ≤ u) (hMax : u < p.maxTemp) : downRamp p fan t ≤ downRamp p fan u := by
  have hStep := h.stepDown_nonneg hf hLow (htu.trans_lt hMax)
  have hLeft : 0 ≤ p.maxTemp - u := by omega
  have hTri := tri_mono hLeft (sub_le_sub_left htu p.maxTemp.val)
  unfold downRamp
  linarith [mul_le_mul_of_nonneg_left hTri hStep]

/-! ## The curves -/

theorem lowerCurve_mono (h : Accepted p fan) (hf : Fitted π p fan) (htu : t ≤ u) :
    lowerCurve p fan t ≤ lowerCurve p fan u := by
  have hSpeeds := h.speeds'
  unfold lowerCurve
  split_ifs with hMaxT hMaxU hHighU hHighT hMaxU hHighU hMaxU hHighU
  · exact le_rfl
  · omega
  · omega
  · have hTop := h.upRamp_le_downRamp hf hHighT (by omega)
    exact hTop.trans (h.downRamp_le_max hf (by linarith [h.temps']) (by omega))
  · exact h.upRamp_mono hf hHighT htu (by omega)
  · omega
  · exact hSpeeds
  · exact h.min_le_upRamp hf hHighU (by omega)
  · exact le_rfl

theorem upperCurve_mono (h : Accepted p fan) (hf : Fitted π p fan) (htu : t ≤ u) :
    upperCurve p fan t ≤ upperCurve p fan u := by
  have hSpeeds := h.speeds'
  unfold upperCurve
  split_ifs with hLowT hLowU hMaxU hMaxT hLowU hMaxU hLowU hMaxU
  · exact le_rfl
  · exact h.min_le_downRamp hf (by omega) hMaxU
  · exact hSpeeds
  · omega
  · exact h.downRamp_mono hf (by omega) htu hMaxU
  · exact h.downRamp_le_max hf (by omega) hMaxT
  · omega
  · omega
  · exact le_rfl

theorem lowerCurve_le_upperCurve (h : Accepted p fan) (hf : Fitted π p fan) (t : ℤ) :
    lowerCurve p fan t ≤ upperCurve p fan t := by
  have hTemps := h.temps'
  have hProper := h.proper'
  rcases le_or_gt (p.maxTemp : ℤ) t with hMax | hMax
  · rw [lowerCurve_of_max_le hMax, upperCurve_of_max_le (by omega) hMax]
  rcases le_or_gt t p.lowTemp with hLow | hLow
  · rw [lowerCurve_of_le_high hMax (by omega), upperCurve_of_le_low hLow]
  rw [upperCurve_of_between hLow hMax]
  rcases le_or_gt t p.highTemp with hHigh | hHigh
  · rw [lowerCurve_of_le_high hMax hHigh]
    exact h.min_le_downRamp hf hLow hMax
  · rw [lowerCurve_of_ramp hMax hHigh]
    exact h.upRamp_le_downRamp hf hHigh hMax

theorem min_le_lowerCurve (h : Accepted p fan) (hf : Fitted π p fan) (t : ℤ) :
    fan.fanMinSpeed ≤ lowerCurve p fan t := by
  rw [lowerCurve]
  split_ifs with hMax hHigh
  · exact h.speeds
  · exact h.min_le_upRamp hf hHigh (by omega)
  · exact le_rfl

/-! ## The int arithmetic of the ramps -/

theorem stepsFor_int_eq (π : Platform) {n m : ℤ} (hn : 0 ≤ n) (hnm : n ≤ m)
    (h : InInt (m * (m + 1))) : stepsFor π (π.int n) = tri n := by
  have hProduct : InInt (n * (n + 1)) := by
    obtain ⟨_, hUpper⟩ := h
    constructor <;> nlinarith
  have hWidth := π.int_of_inInt (inInt_of_product hn hProduct).1
  rw [stepsFor, product_eq (by rwa [hWidth]) (by rwa [hWidth]), hWidth,
    Int.tdiv_eq_ediv_of_nonneg (mul_nonneg hn (by omega)), tri]

theorem upRamp_inInt (h : Accepted p fan) (hf : Fitted π p fan) (hHigh : p.highTemp < t)
    (hMax : t < p.maxTemp) :
    InInt (fan.stepUp * tri (t - p.highTemp)) ∧ InInt (upRamp p fan t) := by
  have hLower := h.min_le_upRamp hf hHigh hMax
  have hUpper := (h.upRamp_le_downRamp hf hHigh hMax).trans
    (h.downRamp_le_max hf (by linarith [h.temps']) hMax)
  have hRange := h.noOverflow.range
  have hMin := fan.fanMinSpeed.2
  have hMaxSpeed := fan.fanMaxSpeed.2
  rw [upRamp] at hLower hUpper ⊢
  rw [InInt] at hRange hMin hMaxSpeed
  constructor <;> constructor <;> linarith

theorem downRamp_inInt (h : Accepted p fan) (hf : Fitted π p fan) (hLow : p.lowTemp < t)
    (hMax : t < p.maxTemp) :
    InInt (fan.stepDown * tri (p.maxTemp - t)) ∧ InInt (downRamp p fan t) := by
  have hLower := h.min_le_downRamp hf hLow hMax
  have hUpper := h.downRamp_le_max hf hLow hMax
  have hRange := h.noOverflow.range
  have hMin := fan.fanMinSpeed.2
  have hMaxSpeed := fan.fanMaxSpeed.2
  rw [downRamp] at hLower hUpper ⊢
  rw [InInt] at hRange hMin hMaxSpeed
  constructor <;> constructor <;> linarith

theorem rampUp_eq (h : Accepted p fan) (hf : Fitted π p fan) {newTemp : Reading}
    (hHigh : p.highTemp < newTemp.degrees) (hMax : newTemp.degrees < p.maxTemp) :
    (rampUp π p newTemp fan : ℤ) = upRamp p fan newTemp.degrees := by
  obtain ⟨hClimb, hRamp⟩ := h.upRamp_inInt hf hHigh hMax
  rw [rampUp, stepsFor_int_eq π (by omega) (by omega) h.noOverflow.up, mul_comm,
    π.int_of_inInt hClimb, ← upRamp, π.int_of_inInt hRamp]

theorem rampDown_eq (h : Accepted p fan) (hf : Fitted π p fan) {newTemp : Reading}
    (hLow : p.lowTemp < newTemp.degrees) (hMax : newTemp.degrees < p.maxTemp) :
    (rampDown π p newTemp fan : ℤ) = downRamp p fan newTemp.degrees := by
  obtain ⟨hDescent, hRamp⟩ := h.downRamp_inInt hf hLow hMax
  rw [rampDown, stepsFor_int_eq π (by omega) (by omega) h.noOverflow.down, mul_comm,
    π.int_of_inInt hDescent, ← downRamp, π.int_of_inInt hRamp]

/-! ## The band and the operator -/

theorem onCurve_iff (h : Accepted p fan) {newTemp : Reading} :
    OnCurve p fan newTemp ↔
      InBand (lowerCurve p fan) (upperCurve p fan) newTemp.degrees fan.oldSpeed := by
  have hTemps := h.temps'
  have hProper := h.proper'
  rw [InBand]
  constructor
  · intro hCurve
    rcases le_or_gt (p.maxTemp : ℤ) newTemp.degrees with hMax | hMax
    · rw [lowerCurve_of_max_le hMax, upperCurve_of_max_le (by omega) hMax, hCurve.hot hMax]
      exact ⟨le_rfl, le_rfl⟩
    rcases le_or_gt newTemp.degrees p.lowTemp with hLow | hLow
    · rw [lowerCurve_of_le_high hMax (by omega), upperCurve_of_le_low hLow, hCurve.cold hLow]
      exact ⟨le_rfl, le_rfl⟩
    rw [upperCurve_of_between hLow hMax]
    rcases le_or_gt newTemp.degrees p.highTemp with hHigh | hHigh
    · rw [lowerCurve_of_le_high hMax hHigh]
      exact hCurve.rest hLow hHigh
    · rw [lowerCurve_of_ramp hMax hHigh]
      exact hCurve.ramp hHigh hMax
  · rintro ⟨hLower, hUpper⟩
    refine ⟨fun hLow => ?_, fun hMax => ?_, fun hHigh hMax => ?_, fun hLow hHigh => ?_⟩
    · rw [lowerCurve_of_le_high (by omega) (by omega)] at hLower
      rw [upperCurve_of_le_low hLow] at hUpper
      exact le_antisymm hUpper hLower
    · rw [lowerCurve_of_max_le hMax] at hLower
      rw [upperCurve_of_max_le (by omega) hMax] at hUpper
      exact le_antisymm hUpper hLower
    · rw [lowerCurve_of_ramp hMax hHigh] at hLower
      rw [upperCurve_of_between (by omega) hMax] at hUpper
      exact ⟨hLower, hUpper⟩
    · rw [lowerCurve_of_le_high (by omega) hHigh] at hLower
      rw [upperCurve_of_between hLow (by omega)] at hUpper
      exact ⟨hLower, hUpper⟩

/-- On the band the loop body is the play operator. -/
theorem fanSpeed_eq_play (h : Accepted p fan) (hf : Fitted π p fan) {oldTemp newTemp : Reading}
    (hBand : InBand (lowerCurve p fan) (upperCurve p fan) oldTemp.degrees fan.oldSpeed) :
    (fanSpeed π p oldTemp newTemp fan : ℤ) =
      play (lowerCurve p fan) (upperCurve p fan) newTemp.degrees fan.oldSpeed := by
  have hTemps := h.temps'
  have hProper := h.proper'
  rw [fanSpeed_eq]
  split_ifs with hRises hFalls
  · obtain ⟨hChange, hHigh, hMax⟩ := hRises
    rw [play_of_rise (fun _ _ => h.upperCurve_mono hf) hBand hChange.le, CInt.coe_max,
      thresholdSpeed_of_between (by omega) hMax, h.rampUp_eq hf hHigh hMax,
      lowerCurve_of_ramp hMax hHigh]
  · obtain ⟨hChange, hLow, hMax⟩ := hFalls
    rw [play_of_fall (fun _ _ => h.lowerCurve_mono hf) (h.lowerCurve_le_upperCurve hf _) hBand hChange.le,
      CInt.coe_min, thresholdSpeed_of_between hLow hMax, h.rampDown_eq hf hLow hMax,
      upperCurve_of_between hLow hMax]
  · rcases le_or_gt newTemp.degrees p.lowTemp with hLow | hLow
    · rw [thresholdSpeed_of_le_low hLow, play, lowerCurve_of_le_high (by omega) (by omega),
        upperCurve_of_le_low hLow, max_eq_left (min_le_right _ _)]
    rcases le_or_gt (p.maxTemp : ℤ) newTemp.degrees with hMax | hMax
    · rw [thresholdSpeed_of_max_le hLow hMax, play, lowerCurve_of_max_le hMax,
        upperCurve_of_max_le hLow hMax, max_eq_left (min_le_right _ _)]
    rw [thresholdSpeed_of_between hLow hMax]
    rcases lt_trichotomy oldTemp.degrees newTemp.degrees with hChange | hChange | hChange
    · -- A rise that stays below the foot of the climbing ramp leaves the speed alone.
      have hHigh : newTemp.degrees ≤ p.highTemp := by
        by_contra hAbove
        exact hRises ⟨hChange, by omega, hMax⟩
      rw [play_of_rise (fun _ _ => h.upperCurve_mono hf) hBand hChange.le, lowerCurve_of_le_high hMax hHigh,
        max_eq_left ((h.min_le_lowerCurve hf _).trans hBand.1)]
    · rw [← hChange, play_of_inBand hBand]
    · exact absurd ⟨hChange, hLow, hMax⟩ hFalls

end Accepted

end Mbpfan
