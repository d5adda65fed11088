import Mbpfan.Run
import Mbpfan.Library.Share

/-!
# The interpolation behind the ramps

`step_up` and `step_down` are fields of type `int`: the share of one part of a ramp is cut
to an integer before it is multiplied by the parts climbed, and the `ceil` and `floor` that
follow find nothing left to round.
-/

namespace Mbpfan

open Library

/-- The climbing ramp in exact arithmetic. -/
def interpolateUp (p : Params) (fan : Fan) (t : ℤ) : ℚ :=
  fan.fanMinSpeed + (fan.fanMaxSpeed - fan.fanMinSpeed) * tri (t - p.highTemp) /
    tri (p.maxTemp - p.highTemp)

/-- The descending ramp in exact arithmetic. -/
def interpolateDown (p : Params) (fan : Fan) (t : ℤ) : ℚ :=
  fan.fanMaxSpeed - (fan.fanMaxSpeed - fan.fanMinSpeed) * tri (p.maxTemp - t) /
    tri (p.maxTemp - p.lowTemp)

/-- The float divisions of the startup lose nothing that the truncation would not. -/
structure ExactSteps (π : Platform) (p : Params) (fan : Fan) : Prop where
  up : (stepUpFor π p fan : ℤ) =
    (fan.fanMaxSpeed - fan.fanMinSpeed) / tri (p.maxTemp - p.highTemp)
  down : (stepDownFor π p fan : ℤ) =
    (fan.fanMaxSpeed - fan.fanMinSpeed) / tri (p.maxTemp - p.lowTemp)

/-- The speed an iteration decides is the interpolation, rounded once, and limited by the
speed held. -/
structure Interpolates (π : Platform) (p : Params) (oldTemp newTemp : Reading) (fan : Fan) :
    Prop where
  rise : Rises p oldTemp newTemp →
    ((controlFan π p oldTemp newTemp fan).1.oldSpeed : ℤ) =
      max (fan.oldSpeed : ℤ) ⌈interpolateUp p fan newTemp.degrees⌉
  fall : Falls p oldTemp newTemp →
    ((controlFan π p oldTemp newTemp fan).1.oldSpeed : ℤ) =
      min (fan.oldSpeed : ℤ) ⌊interpolateDown p fan newTemp.degrees⌋

/-- The range divides evenly into the parts of the ramp that is taken, or the speed held is
already beyond the ramp. -/
structure DividesOrHeld (p : Params) (oldTemp newTemp : Reading) (fan : Fan) : Prop where
  rise : Rises p oldTemp newTemp →
    tri (p.maxTemp - p.highTemp) ∣ fan.fanMaxSpeed - fan.fanMinSpeed ∨
      ⌈interpolateUp p fan newTemp.degrees⌉ ≤ fan.oldSpeed
  fall : Falls p oldTemp newTemp →
    tri (p.maxTemp - p.lowTemp) ∣ fan.fanMaxSpeed - fan.fanMinSpeed ∨
      fan.oldSpeed ≤ ⌊interpolateDown p fan newTemp.degrees⌋

variable {π : Platform} {p : Params} {fan : Fan} {fans : List Fan} {oldTemp newTemp : Reading}

theorem Accepted.exactSteps (h : Accepted p fan)
    (hRange : (fan.fanMaxSpeed : ℤ) - fan.fanMinSpeed < 2 ^ 24) : ExactSteps π p fan where
  up := h.stepUpFor_eq hRange
  down := h.stepDownFor_eq hRange

theorem Running.rise_iff (h : Running π p fan) (hExact : ExactSteps π p fan)
    (hRises : Rises p oldTemp newTemp) :
    ((controlFan π p oldTemp newTemp fan).1.oldSpeed : ℤ) =
        max (fan.oldSpeed : ℤ) ⌈interpolateUp p fan newTemp.degrees⌉ ↔
      tri (p.maxTemp - p.highTemp) ∣ fan.fanMaxSpeed - fan.fanMinSpeed ∨
        ⌈interpolateUp p fan newTemp.degrees⌉ ≤ fan.oldSpeed := by
  have hLow := h.accepted.temps'.trans_lt hRises.2.1
  have hRamp := h.accepted.rampUp_eq h.fitted hRises.2.1 hRises.2.2
  have hShare := max_share_eq_iff (r := (fan.fanMaxSpeed : ℤ) - fan.fanMinSpeed)
    (m := fan.fanMinSpeed) (s := fan.oldSpeed)
    (tri_pos (n := p.maxTemp - p.highTemp) (by linarith [h.accepted.up_width]))
    (tri_pos (n := newTemp.degrees - p.highTemp) (by linarith [hRises.2.1]))
  have hStep : (fan.stepUp : ℤ) =
      (fan.fanMaxSpeed - fan.fanMinSpeed) / tri (p.maxTemp - p.highTemp) :=
    (congrArg Subtype.val h.fitted.up).trans hExact.up
  rw [controlFan_fst h.opened, withSpeed_oldSpeed, fanSpeed_between hLow hRises.2.2,
    if_pos hRises, CInt.coe_max, hRamp, upRamp, hStep]
  push_cast at hShare
  exact hShare

theorem Running.fall_iff (h : Running π p fan) (hExact : ExactSteps π p fan)
    (hFalls : Falls p oldTemp newTemp) :
    ((controlFan π p oldTemp newTemp fan).1.oldSpeed : ℤ) =
        min (fan.oldSpeed : ℤ) ⌊interpolateDown p fan newTemp.degrees⌋ ↔
      tri (p.maxTemp - p.lowTemp) ∣ fan.fanMaxSpeed - fan.fanMinSpeed ∨
        fan.oldSpeed ≤ ⌊interpolateDown p fan newTemp.degrees⌋ := by
  have hNotRises : ¬ Rises p oldTemp newTemp := fun hRises => absurd hFalls.1 hRises.1.not_gt
  have hRamp := h.accepted.rampDown_eq h.fitted hFalls.2.1 hFalls.2.2
  have hShare := min_share_eq_iff (r := (fan.fanMaxSpeed : ℤ) - fan.fanMinSpeed)
    (m := fan.fanMaxSpeed) (s := fan.oldSpeed)
    (tri_pos (n := p.maxTemp - p.lowTemp) (by linarith [h.accepted.up_width, h.accepted.up_le_down]))
    (tri_pos (n := p.maxTemp - newTemp.degrees) (by linarith [hFalls.2.2]))
  have hStep : (fan.stepDown : ℤ) =
      (fan.fanMaxSpeed - fan.fanMinSpeed) / tri (p.maxTemp - p.lowTemp) :=
    (congrArg Subtype.val h.fitted.down).trans hExact.down
  rw [controlFan_fst h.opened, withSpeed_oldSpeed, fanSpeed_between hFalls.2.1 hFalls.2.2,
    if_neg hNotRises, if_pos hFalls.1, CInt.coe_min, hRamp, downRamp, hStep]
  push_cast at hShare
  exact hShare

/-- Between two readings a fan follows the interpolation exactly when the range divides into
the parts of the ramp, or the ramp does not move it. -/
theorem interpolates_iff (π : Platform) (h : Accepted p fan) (hFile : fan.file = true)
    (hExact : ExactSteps π p fan) (speed : CInt) (oldTemp newTemp : Reading) :
    Interpolates π p oldTemp newTemp ((setSteps π p fan).withSpeed speed) ↔
      DividesOrHeld p oldTemp newTemp ((setSteps π p fan).withSpeed speed) := by
  have hRunning : Running π p (setSteps π p fan) := by
    refine ⟨hFile, ⟨h.speeds, h.temps, h.proper, ?_⟩, rfl, rfl⟩
    exact ⟨h.noOverflow.range, h.noOverflow.up, h.noOverflow.down⟩
  have hSteps : ExactSteps π p ((setSteps π p fan).withSpeed speed) := ⟨hExact.up, hExact.down⟩
  have hRunning := hRunning.withSpeed speed
  constructor
  · intro hEach
    exact ⟨fun hRises => (hRunning.rise_iff hSteps hRises).mp (hEach.rise hRises),
      fun hFalls => (hRunning.fall_iff hSteps hFalls).mp (hEach.fall hFalls)⟩
  · intro hEach
    exact ⟨fun hRises => (hRunning.rise_iff hSteps hRises).mpr (hEach.rise hRises),
      fun hFalls => (hRunning.fall_iff hSteps hFalls).mpr (hEach.fall hFalls)⟩

theorem sampleFan_accepted : Accepted defaultParams sampleFan where
  speeds := by decide
  temps := by decide
  proper := by decide
  noOverflow := ⟨by decide, by decide, by decide⟩

theorem interpolates_iff_sample :
    Interpolates Platform.wrap defaultParams 60 80
        ((setSteps Platform.wrap defaultParams sampleFan).withSpeed ⟨2000, by decide⟩) ↔
      DividesOrHeld defaultParams 60 80
        ((setSteps Platform.wrap defaultParams sampleFan).withSpeed ⟨2000, by decide⟩) :=
  interpolates_iff Platform.wrap sampleFan_accepted rfl (sampleFan_accepted.exactSteps (by decide))
    ⟨2000, by decide⟩ 60 80

/-- On a fall from 90 to 70 the default configuration decides 4160 instead of 4130. -/
theorem fall_not_interpolated :
    ¬ Interpolates Platform.wrap defaultParams 90 70
      ((setSteps Platform.wrap defaultParams sampleFan).withSpeed ⟨6200, by decide⟩) := by
  intro h
  have hFall := h.fall (by decide)
  revert hFall
  decide +kernel

end Mbpfan
