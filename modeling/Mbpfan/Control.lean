import Mbpfan.Fans
import Mbpfan.Library.Rounding

/-!
# The arithmetic of the control loop

The startup of `mbpfan()` and the body of its `while (1)`, without the reload. Every int
operation of the source is wrapped in the platform's `int`. `float` is the rounding to 24
bits; the products are halved in double, which is exact. `ceil` and `floor` are applied to
int values there, which they return unchanged.
-/

namespace Mbpfan

open Library

def float (q : ℚ) : ℚ := roundFloat 24 q

/-- `(float)range / (float)(width * (width + 1) / 2.0)`, stored in an int. -/
def stepFor (π : Platform) (range width : CInt) : CInt :=
  let product := π.int (width * π.int (width + 1))
  if float (product / 2) = 0 then π.badCast
  else π.cast (float (float range / float (product / 2)))

def stepUpFor (π : Platform) (p : Params) (fan : Fan) : CInt :=
  stepFor π (π.int (fan.fanMaxSpeed - fan.fanMinSpeed)) (π.int (p.maxTemp - p.highTemp))

def stepDownFor (π : Platform) (p : Params) (fan : Fan) : CInt :=
  stepFor π (π.int (fan.fanMaxSpeed - fan.fanMinSpeed)) (π.int (p.maxTemp - p.lowTemp))

def setSteps (π : Platform) (p : Params) (fan : Fan) : Fan :=
  { fan with stepUp := stepUpFor π p fan, stepDown := stepDownFor π p fan }

def PassesChecks (p : Params) (fans : List Fan) : Prop :=
  (∀ fan ∈ fans, ¬ fan.fanMinSpeed > fan.fanMaxSpeed) ∧
    ¬ (p.lowTemp > p.highTemp ∨ p.highTemp > p.maxTemp)

instance (p : Params) (fans : List Fan) : Decidable (PassesChecks p fans) :=
  inferInstanceAs (Decidable (_ ∧ _))

/-- `width * (width + 1) / 2` in int arithmetic. -/
def stepsFor (π : Platform) (width : CInt) : ℤ :=
  (π.int (width * π.int (width + 1)) : ℤ).tdiv 2

def rampUp (π : Platform) (p : Params) (newTemp : Reading) (fan : Fan) : CInt :=
  let steps := stepsFor π (π.int (newTemp.degrees - p.highTemp))
  π.int (fan.fanMinSpeed + π.int (steps * fan.stepUp))

def rampDown (π : Platform) (p : Params) (newTemp : Reading) (fan : Fan) : CInt :=
  let steps := stepsFor π (π.int (p.maxTemp - newTemp.degrees))
  π.int (fan.fanMaxSpeed - π.int (steps * fan.stepDown))

/-- The `fan_speed` the loop body computes for one fan. -/
def fanSpeed (π : Platform) (p : Params) (oldTemp newTemp : Reading) (fan : Fan) : CInt :=
  let speed := fan.oldSpeed
  let speed :=
    if newTemp.degrees ≥ p.maxTemp ∧ fan.oldSpeed ≠ fan.fanMaxSpeed then fan.fanMaxSpeed
    else speed
  let speed :=
    if newTemp.degrees ≤ p.lowTemp ∧ speed ≠ fan.fanMinSpeed then fan.fanMinSpeed else speed
  let tempChange : ℤ := π.int (newTemp.degrees - oldTemp.degrees)
  let speed :=
    if tempChange > 0 ∧ newTemp.degrees > p.highTemp ∧ newTemp.degrees < p.maxTemp then
      max speed (rampUp π p newTemp fan)
    else speed
  if tempChange < 0 ∧ newTemp.degrees > p.lowTemp ∧ newTemp.degrees < p.maxTemp then
    min speed (rampDown π p newTemp fan)
  else speed

def controlFan (π : Platform) (p : Params) (oldTemp newTemp : Reading) (fan : Fan) :
    Fan × Option CInt :=
  setFanSpeed fan (fanSpeed π p oldTemp newTemp fan)

/-- The variables of `mbpfan()` that outlive an iteration. -/
structure Loop where
  params : Params
  fans : List Fan
  newTemp : Reading

/-- From the first reading to the label `recalibrate`. -/
def startup (π : Platform) (p : Params) (fans : List Fan) (newTemp : Reading) : Loop where
  params := p
  fans := fans.map fun fan => setSteps π p (setFanSpeed fan fan.fanMinSpeed).1
  newTemp := newTemp

def controlIteration (π : Platform) (s : Loop) (newTemp : Reading) : Loop :=
  { s with
    fans := s.fans.map fun fan => (controlFan π s.params s.newTemp newTemp fan).1
    newTemp := newTemp }

def controlRun (π : Platform) (s : Loop) (readings : List Reading) : Loop :=
  readings.foldl (controlIteration π) s

/-! ## What one iteration does to one fan -/

def thresholdSpeed (p : Params) (newTemp : Reading) (fan : Fan) : CInt :=
  if newTemp.degrees ≤ p.lowTemp then fan.fanMinSpeed
  else if p.maxTemp ≤ newTemp.degrees then fan.fanMaxSpeed
  else fan.oldSpeed

def Rises (p : Params) (oldTemp newTemp : Reading) : Prop :=
  oldTemp.degrees < newTemp.degrees ∧ p.highTemp < newTemp.degrees ∧
    newTemp.degrees < p.maxTemp

def Falls (p : Params) (oldTemp newTemp : Reading) : Prop :=
  newTemp.degrees < oldTemp.degrees ∧ p.lowTemp < newTemp.degrees ∧
    newTemp.degrees < p.maxTemp

instance (p : Params) (oldTemp newTemp : Reading) : Decidable (Rises p oldTemp newTemp) :=
  inferInstanceAs (Decidable (_ ∧ _))

instance (p : Params) (oldTemp newTemp : Reading) : Decidable (Falls p oldTemp newTemp) :=
  inferInstanceAs (Decidable (_ ∧ _))

theorem Reading.degrees_nonneg (t : Reading) : 0 ≤ t.degrees := Int.natCast_nonneg _

theorem Reading.degrees_lt (t : Reading) : t.degrees < 65536 := by
  have h := t.toNat_lt
  rw [Reading.degrees]
  omega

theorem tempChange_eq (π : Platform) (oldTemp newTemp : Reading) :
    (π.int (newTemp.degrees - oldTemp.degrees) : ℤ) = newTemp.degrees - oldTemp.degrees := by
  apply π.int_of_inInt
  have hNew := newTemp.degrees_nonneg
  have hNewLt := newTemp.degrees_lt
  have hOld := oldTemp.degrees_nonneg
  have hOldLt := oldTemp.degrees_lt
  constructor <;> omega

/-- The four overlapping branches of the loop body, told apart. -/
theorem fanSpeed_eq (π : Platform) (p : Params) (oldTemp newTemp : Reading) (fan : Fan) :
    fanSpeed π p oldTemp newTemp fan =
      if Rises p oldTemp newTemp then
        max (thresholdSpeed p newTemp fan) (rampUp π p newTemp fan)
      else if Falls p oldTemp newTemp then
        min (thresholdSpeed p newTemp fan) (rampDown π p newTemp fan)
      else thresholdSpeed p newTemp fan := by
  have hChange := tempChange_eq π oldTemp newTemp
  have hThreshold : (if newTemp.degrees ≤ p.lowTemp ∧
        (if newTemp.degrees ≥ p.maxTemp ∧ fan.oldSpeed ≠ fan.fanMaxSpeed then fan.fanMaxSpeed
          else fan.oldSpeed) ≠ fan.fanMinSpeed then fan.fanMinSpeed
      else if newTemp.degrees ≥ p.maxTemp ∧ fan.oldSpeed ≠ fan.fanMaxSpeed then fan.fanMaxSpeed
      else fan.oldSpeed) = thresholdSpeed p newTemp fan := by
    rw [thresholdSpeed]
    split_ifs <;> simp_all
  simp only [fanSpeed, hChange, hThreshold, gt_iff_lt, sub_pos, sub_neg]
  by_cases hRises : Rises p oldTemp newTemp
  · have hNotFalls : ¬ Falls p oldTemp newTemp := fun h => absurd hRises.1 h.1.le.not_gt
    rw [if_pos hRises]
    exact (if_neg hNotFalls).trans (if_pos hRises)
  · rw [if_neg hRises]
    have hInner : (if oldTemp.degrees < newTemp.degrees ∧ p.highTemp < newTemp.degrees ∧
        newTemp.degrees < p.maxTemp then max (thresholdSpeed p newTemp fan) (rampUp π p newTemp fan)
        else thresholdSpeed p newTemp fan) = thresholdSpeed p newTemp fan := if_neg hRises
    rw [hInner]
    rfl

theorem thresholdSpeed_of_le_low {p : Params} {newTemp : Reading} {fan : Fan}
    (h : newTemp.degrees ≤ p.lowTemp) : thresholdSpeed p newTemp fan = fan.fanMinSpeed := if_pos h

theorem thresholdSpeed_of_max_le {p : Params} {newTemp : Reading} {fan : Fan}
    (hLow : p.lowTemp < newTemp.degrees) (hMax : p.maxTemp ≤ newTemp.degrees) :
    thresholdSpeed p newTemp fan = fan.fanMaxSpeed :=
  (if_neg hLow.not_ge).trans (if_pos hMax)

theorem thresholdSpeed_of_between {p : Params} {newTemp : Reading} {fan : Fan}
    (hLow : p.lowTemp < newTemp.degrees) (hMax : newTemp.degrees < p.maxTemp) :
    thresholdSpeed p newTemp fan = fan.oldSpeed :=
  (if_neg hLow.not_ge).trans (if_neg hMax.not_ge)

theorem fanSpeed_eq_threshold {π : Platform} {p : Params} {oldTemp newTemp : Reading} {fan : Fan}
    (h : p.lowTemp ≤ p.highTemp)
    (hOut : newTemp.degrees ≤ p.lowTemp ∨ p.maxTemp ≤ newTemp.degrees) :
    fanSpeed π p oldTemp newTemp fan = thresholdSpeed p newTemp fan := by
  have hTemps : (p.lowTemp : ℤ) ≤ p.highTemp := h
  have hNotRises : ¬ Rises p oldTemp newTemp := by
    rintro ⟨_, hHigh, hMax⟩
    omega
  have hNotFalls : ¬ Falls p oldTemp newTemp := by
    rintro ⟨_, hLow, hMax⟩
    omega
  rw [fanSpeed_eq, if_neg hNotRises, if_neg hNotFalls]

theorem fanSpeed_between {π : Platform} {p : Params} {oldTemp newTemp : Reading} {fan : Fan}
    (hLow : p.lowTemp < newTemp.degrees) (hMax : newTemp.degrees < p.maxTemp) :
    fanSpeed π p oldTemp newTemp fan =
      if Rises p oldTemp newTemp then max fan.oldSpeed (rampUp π p newTemp fan)
      else if newTemp.degrees < oldTemp.degrees then min fan.oldSpeed (rampDown π p newTemp fan)
      else fan.oldSpeed := by
  have hFalls : Falls p oldTemp newTemp ↔ newTemp.degrees < oldTemp.degrees :=
    ⟨fun h => h.1, fun h => ⟨h, hLow, hMax⟩⟩
  rw [fanSpeed_eq, thresholdSpeed_of_between hLow hMax]
  simp only [hFalls]

end Mbpfan
