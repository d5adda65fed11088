import Mbpfan.Reload

/-!
# The limits in force after a reload

A reload changes the limits of a fan and leaves its speed and its steps. The next iteration
brings the speed within the new limits at the thresholds. Between them it relies on the speed
carried over and on ramps whose steps belong to the limits of the startup.
-/

namespace Mbpfan

open Library

variable {π : Platform} {s : Loop} {p : Params} {fan : Fan} {fans : List Fan}

def WithinLimits (fan : Fan) : Prop :=
  fan.fanMinSpeed ≤ fan.oldSpeed ∧ fan.oldSpeed ≤ fan.fanMaxSpeed

instance (fan : Fan) : Decidable (WithinLimits fan) := inferInstanceAs (Decidable (_ ∧ _))

def Loop.Within (s : Loop) : Prop := ∀ fan ∈ s.fans, WithinLimits fan

instance (s : Loop) : Decidable s.Within := inferInstanceAs (Decidable (∀ fan ∈ s.fans, _))

/-- A ramp may climb over all of its reach: the products fit an int, and what they add up to
fits the range. -/
def RampFits (step reach range : ℤ) : Prop :=
  0 < reach → InInt (reach * (reach + 1)) ∧ InInt (step * tri reach) ∧
    0 ≤ step ∧ step * tri reach ≤ range

instance (step reach range : ℤ) : Decidable (RampFits step reach range) :=
  inferInstanceAs (Decidable (_ → _))

/-- The steps a fan holds fit its limits, as far as a reading below `max_temp` takes them. -/
structure StepsFit (p : Params) (fan : Fan) : Prop where
  up : RampFits fan.stepUp (p.maxTemp - p.highTemp - 1) (fan.fanMaxSpeed - fan.fanMinSpeed)
  down : RampFits fan.stepDown (p.maxTemp - p.lowTemp - 1) (fan.fanMaxSpeed - fan.fanMinSpeed)

instance (p : Params) (fan : Fan) : Decidable (StepsFit p fan) :=
  decidable_of_iff (RampFits _ _ _ ∧ RampFits _ _ _)
    ⟨fun h => ⟨h.1, h.2⟩, fun h => ⟨h.up, h.down⟩⟩

def Loop.StepsFit (s : Loop) : Prop := ∀ fan ∈ s.fans, Mbpfan.StepsFit s.params fan

instance (s : Loop) : Decidable s.StepsFit := inferInstanceAs (Decidable (∀ fan ∈ s.fans, _))

/-- The speed carried over to a reading between the thresholds is within the limits, but for
the minimum where the reading climbs a ramp and the maximum where it descends one. -/
def CarriesOver (s : Loop) (newTemp : Reading) : Prop :=
  s.params.lowTemp < newTemp.degrees → newTemp.degrees < s.params.maxTemp → ∀ fan ∈ s.fans,
    (¬ Rises s.params s.newTemp newTemp → fan.fanMinSpeed ≤ fan.oldSpeed) ∧
      (¬ Falls s.params s.newTemp newTemp → fan.oldSpeed ≤ fan.fanMaxSpeed)

instance (s : Loop) (newTemp : Reading) : Decidable (CarriesOver s newTemp) :=
  inferInstanceAs (Decidable (_ → _ → ∀ fan ∈ s.fans, _))

/-! ## Ramps that fit -/

theorem RampFits.partial_le {step reach range n : ℤ} (h : RampFits step reach range) (hn : 0 < n)
    (hReach : n ≤ reach) :
    InInt (n * (n + 1)) ∧ InInt (step * tri n) ∧ 0 ≤ step * tri n ∧ step * tri n ≤ range := by
  obtain ⟨⟨_, hProduct⟩, ⟨_, hClimb⟩, hStep, hRange⟩ := h (hn.trans_le hReach)
  have hNonneg : 0 ≤ step * tri n := mul_nonneg hStep (tri_nonneg hn.le)
  have hMono : step * tri n ≤ step * tri reach :=
    mul_le_mul_of_nonneg_left (tri_mono hn.le hReach) hStep
  exact ⟨⟨by nlinarith, by nlinarith⟩, ⟨by omega, by omega⟩, hNonneg, by omega⟩

theorem rampUp_eq_climb {newTemp : Reading} (hHigh : p.highTemp < newTemp.degrees)
    (hProduct : InInt ((newTemp.degrees - p.highTemp) * (newTemp.degrees - p.highTemp + 1)))
    (hClimb : InInt (fan.stepUp * tri (newTemp.degrees - p.highTemp)))
    (hSum : InInt (fan.fanMinSpeed + fan.stepUp * tri (newTemp.degrees - p.highTemp))) :
    (rampUp π p newTemp fan : ℤ) =
      fan.fanMinSpeed + fan.stepUp * tri (newTemp.degrees - p.highTemp) := by
  rw [rampUp, Accepted.stepsFor_int_eq π (by omega) le_rfl hProduct, mul_comm,
    π.int_of_inInt hClimb, π.int_of_inInt hSum]

theorem rampDown_eq_descent {newTemp : Reading} (hMax : newTemp.degrees < p.maxTemp)
    (hProduct : InInt ((p.maxTemp - newTemp.degrees) * (p.maxTemp - newTemp.degrees + 1)))
    (hDescent : InInt (fan.stepDown * tri (p.maxTemp - newTemp.degrees)))
    (hDifference : InInt (fan.fanMaxSpeed - fan.stepDown * tri (p.maxTemp - newTemp.degrees))) :
    (rampDown π p newTemp fan : ℤ) =
      fan.fanMaxSpeed - fan.stepDown * tri (p.maxTemp - newTemp.degrees) := by
  rw [rampDown, Accepted.stepsFor_int_eq π (by omega) le_rfl hProduct, mul_comm,
    π.int_of_inInt hDescent, π.int_of_inInt hDifference]

theorem StepsFit.rampUp_within (h : StepsFit p fan) {newTemp : Reading}
    (hHigh : p.highTemp < newTemp.degrees) (hMax : newTemp.degrees < p.maxTemp) :
    fan.fanMinSpeed ≤ rampUp π p newTemp fan ∧ rampUp π p newTemp fan ≤ fan.fanMaxSpeed := by
  have hReach : newTemp.degrees - p.highTemp ≤ p.maxTemp - p.highTemp - 1 := by omega
  obtain ⟨hProduct, hClimb, hNonneg, hLe⟩ := h.up.partial_le (sub_pos.mpr hHigh) hReach
  have hMin := fan.fanMinSpeed.2.1
  have hMaxSpeed := fan.fanMaxSpeed.2.2
  have hRamp := rampUp_eq_climb (π := π) hHigh hProduct hClimb ⟨by omega, by omega⟩
  constructor
  · exact Subtype.coe_le_coe.mp (hRamp ▸ by omega)
  · exact Subtype.coe_le_coe.mp (hRamp ▸ by omega)

theorem StepsFit.rampDown_within (h : StepsFit p fan) {newTemp : Reading}
    (hLow : p.lowTemp < newTemp.degrees) (hMax : newTemp.degrees < p.maxTemp) :
    fan.fanMinSpeed ≤ rampDown π p newTemp fan ∧
      rampDown π p newTemp fan ≤ fan.fanMaxSpeed := by
  have hReach : p.maxTemp - newTemp.degrees ≤ p.maxTemp - p.lowTemp - 1 := by omega
  obtain ⟨hProduct, hDescent, hNonneg, hLe⟩ := h.down.partial_le (sub_pos.mpr hMax) hReach
  have hMin := fan.fanMinSpeed.2.1
  have hMaxSpeed := fan.fanMaxSpeed.2.2
  have hRamp := rampDown_eq_descent (π := π) hMax hProduct hDescent ⟨by omega, by omega⟩
  constructor
  · exact Subtype.coe_le_coe.mp (hRamp ▸ by omega)
  · exact Subtype.coe_le_coe.mp (hRamp ▸ by omega)

/-- The startup divides so that the last reading before `max_temp` stays in the range. -/
theorem rampFits_stepFor (π : Platform) {range width : ℤ} (hNonneg : 0 ≤ range)
    (hRange : InInt range) (hWidth : 0 ≤ width) (hProduct : InInt (width * (width + 1))) :
    RampFits (stepFor π (π.int range) (π.int width)) (width - 1) range := by
  intro hReach
  obtain ⟨hWidthInt, _, hWidthLt⟩ := inInt_of_product hWidth hProduct
  have hBounds := stepFor_bounds π (π.int range) (π.int width)
  rw [π.int_of_inInt hRange, π.int_of_inInt hWidthInt] at hBounds
  obtain ⟨hStep, hShare⟩ := hBounds hNonneg (by omega) hProduct
  have hRamp : stepFor π (π.int range) (π.int width) * tri (width - 1) ≤ range :=
    ramp_le (k := 4194304) hNonneg hStep le_rfl (by omega) (by omega) (by omega) hShare
  have hClimb : 0 ≤ stepFor π (π.int range) (π.int width) * tri (width - 1) :=
    mul_nonneg hStep (tri_nonneg (by omega))
  obtain ⟨_, hUpper⟩ := hProduct
  obtain ⟨_, hRangeLe⟩ := hRange
  refine ⟨⟨by nlinarith, by nlinarith⟩, ⟨by omega, by omega⟩, hStep, hRamp⟩

theorem startup_stepsFit (hOpened : ∀ fan ∈ fans, fan.file = true) (h : PassesChecks p fans)
    (hNoOverflow : ∀ fan ∈ fans, NoOverflow p fan) (first : Reading) :
    (startup π p fans first).StepsFit := by
  rw [Loop.StepsFit, startup_fans hOpened]
  refine List.forall_mem_map.mpr fun fan hMem => ?_
  obtain ⟨hLow, hHigh⟩ := not_or.mp h.2
  have hLowHigh : (p.lowTemp : ℤ) ≤ p.highTemp := not_lt.mp hLow
  have hHighMax : (p.highTemp : ℤ) ≤ p.maxTemp := not_lt.mp hHigh
  have hSpeeds : (fan.fanMinSpeed : ℤ) ≤ fan.fanMaxSpeed := not_lt.mp (h.1 fan hMem)
  obtain ⟨hRange, hUp, hDown⟩ := hNoOverflow fan hMem
  have hUpWidth : (0 : ℤ) ≤ p.maxTemp - p.highTemp := by omega
  have hDownWidth : (0 : ℤ) ≤ p.maxTemp - p.lowTemp := by omega
  exact ⟨rampFits_stepFor π (sub_nonneg.mpr hSpeeds) hRange hUpWidth hUp,
    rampFits_stepFor π (sub_nonneg.mpr hSpeeds) hRange hDownWidth hDown⟩

/-! ## One iteration -/

theorem withinLimits_of_threshold (hSpeeds : fan.fanMinSpeed ≤ fan.fanMaxSpeed)
    (hTemps : p.lowTemp ≤ p.highTemp) {newTemp : Reading}
    (hOut : newTemp.degrees ≤ p.lowTemp ∨ p.maxTemp ≤ newTemp.degrees) (oldTemp : Reading) :
    WithinLimits (fan.withSpeed (fanSpeed π p oldTemp newTemp fan)) := by
  rw [fanSpeed_eq_threshold hTemps hOut, thresholdSpeed]
  split_ifs with hLow hMax
  · exact ⟨le_rfl, hSpeeds⟩
  · exact ⟨hSpeeds, le_rfl⟩
  · exact absurd hOut (not_or.mpr ⟨hLow, hMax⟩)

theorem StepsFit.withinLimits_iff (h : StepsFit p fan) {newTemp : Reading}
    (hLow : p.lowTemp < newTemp.degrees) (hMax : newTemp.degrees < p.maxTemp)
    (oldTemp : Reading) :
    WithinLimits (fan.withSpeed (fanSpeed π p oldTemp newTemp fan)) ↔
      (¬ Rises p oldTemp newTemp → fan.fanMinSpeed ≤ fan.oldSpeed) ∧
        (¬ Falls p oldTemp newTemp → fan.oldSpeed ≤ fan.fanMaxSpeed) := by
  rw [fanSpeed_eq, thresholdSpeed_of_between hLow hMax]
  split_ifs with hRises hFalls
  · have hNotFalls : ¬ Falls p oldTemp newTemp := fun hFalls => absurd hRises.1 hFalls.1.le.not_gt
    obtain ⟨hLower, hUpper⟩ := h.rampUp_within (π := π) hRises.2.1 hMax
    simp [WithinLimits, Fan.withSpeed, hRises, hNotFalls, hLower, hUpper]
  · obtain ⟨hLower, hUpper⟩ := h.rampDown_within (π := π) hLow hMax
    simp [WithinLimits, Fan.withSpeed, hRises, hFalls, hLower, hUpper]
  · simp [WithinLimits, Fan.withSpeed, hRises, hFalls]

theorem Loop.Within.carriesOver (h : s.Within) (newTemp : Reading) : CarriesOver s newTemp :=
  fun _ _ fan hMem => ⟨fun _ => (h fan hMem).1, fun _ => (h fan hMem).2⟩

theorem controlIteration_within_iff (hOpened : ∀ fan ∈ s.fans, fan.file = true)
    (hChecked : s.Checked) (hFit : s.StepsFit) (newTemp : Reading) :
    (controlIteration π s newTemp).Within ↔ CarriesOver s newTemp := by
  obtain ⟨hSpeeds, hTemps⟩ := hChecked
  have hLowHigh : s.params.lowTemp ≤ s.params.highTemp := not_lt.mp (not_or.mp hTemps).1
  have hEach : (controlIteration π s newTemp).Within ↔ ∀ fan ∈ s.fans,
      WithinLimits (fan.withSpeed (fanSpeed π s.params s.newTemp newTemp fan)) := by
    refine List.forall_mem_map.trans (forall_congr' fun fan => forall_congr' fun hMem => ?_)
    rw [controlFan_fst (hOpened fan hMem)]
  rw [hEach]
  constructor
  · intro hWithin hLow hMax fan hMem
    exact ((hFit fan hMem).withinLimits_iff hLow hMax _).mp (hWithin fan hMem)
  · intro hCarries fan hMem
    rcases le_or_gt newTemp.degrees s.params.lowTemp with hLow | hLow
    · exact withinLimits_of_threshold (not_lt.mp (hSpeeds fan hMem)) hLowHigh (.inl hLow) _
    rcases le_or_gt (s.params.maxTemp : ℤ) newTemp.degrees with hMax | hMax
    · exact withinLimits_of_threshold (not_lt.mp (hSpeeds fan hMem)) hLowHigh (.inr hMax) _
    exact ((hFit fan hMem).withinLimits_iff hLow hMax _).mpr (hCarries hLow hMax fan hMem)

/-! ## Steps that do not fit are found out -/

theorem exists_reading {n : ℤ} (h : 0 ≤ n) (hLt : n < 65536) : ∃ t : Reading, t.degrees = n := by
  refine ⟨UInt16.ofNat n.toNat, ?_⟩
  rw [Reading.degrees, UInt16.toNat_ofNat', Nat.mod_eq_of_lt (by omega), Int.toNat_of_nonneg h]

theorem within_of_pair (hOpened : ∀ fan ∈ s.fans, fan.file = true) (hMem : fan ∈ s.fans)
    {first second : Reading} (hWithin : (controlRun π s [first, second]).Within) :
    ∃ speed, WithinLimits
      (fan.withSpeed (fanSpeed π s.params first second (fan.withSpeed speed))) := by
  have hFile := hOpened fan hMem
  refine ⟨fanSpeed π s.params s.newTemp first fan, ?_⟩
  have hRun : fanRun π s.params s.newTemp fan [first, second] =
      fan.withSpeed (fanSpeed π s.params first second
        (fan.withSpeed (fanSpeed π s.params s.newTemp first fan))) := by
    rw [fanRun, fanRun, fanRun, controlFan_fst hFile]
    have hFileNow : (fan.withSpeed (fanSpeed π s.params s.newTemp first fan)).file = true := hFile
    exact controlFan_fst hFileNow first second
  rw [← hRun]
  apply hWithin
  rw [controlRun_fans]
  exact List.mem_map_of_mem hMem

/-- A `step_up` that is too steep takes the fan above its maximum, whatever its speed. -/
theorem exists_above_max (hOpened : ∀ fan ∈ s.fans, fan.file = true) (hMem : fan ∈ s.fans)
    (hHigh : 0 ≤ (s.params.highTemp : ℤ)) (hMax : (s.params.maxTemp : ℤ) ≤ 65536) {reach : ℤ}
    (hReach : reach = s.params.maxTemp - s.params.highTemp - 1) (hPos : 0 < reach)
    (hProduct : InInt (reach * (reach + 1))) (hClimb : InInt (fan.stepUp * tri reach))
    (hSum : InInt (fan.fanMinSpeed + fan.stepUp * tri reach))
    (hOver : (fan.fanMaxSpeed : ℤ) - fan.fanMinSpeed < fan.stepUp * tri reach) :
    ∃ first second, ¬ (controlRun π s [first, second]).Within := by
  obtain ⟨cold, hCold⟩ := exists_reading le_rfl (by decide)
  obtain ⟨hot, hHot⟩ := exists_reading (n := s.params.maxTemp - 1) (by omega) (by omega)
  refine ⟨cold, hot, fun hWithin => ?_⟩
  obtain ⟨speed, _, hEnd⟩ := within_of_pair hOpened hMem hWithin
  have hRises : Rises s.params cold hot := ⟨by omega, by omega, by omega⟩
  have hWidth : hot.degrees - s.params.highTemp = reach := by omega
  have hRamp : (rampUp π s.params hot fan : ℤ) = _ :=
    rampUp_eq_climb hRises.2.1 (by rwa [hWidth]) (by rwa [hWidth]) (by rwa [hWidth])
  rw [fanSpeed_eq, if_pos hRises] at hEnd
  have hAbove : rampUp π s.params hot fan ≤ fan.fanMaxSpeed := (le_max_right _ _).trans hEnd
  have hAboveInt : (rampUp π s.params hot fan : ℤ) ≤ fan.fanMaxSpeed := hAbove
  rw [hRamp, hWidth] at hAboveInt
  omega

/-- A `step_down` that is too steep takes the fan below its minimum, whatever its speed. -/
theorem exists_below_min (hOpened : ∀ fan ∈ s.fans, fan.file = true) (hMem : fan ∈ s.fans)
    (hLow : -1 ≤ (s.params.lowTemp : ℤ)) (hLowLt : (s.params.lowTemp : ℤ) < 65534) {reach : ℤ}
    (hReach : reach = s.params.maxTemp - s.params.lowTemp - 1) (hPos : 0 < reach)
    (hProduct : InInt (reach * (reach + 1))) (hDescent : InInt (fan.stepDown * tri reach))
    (hDifference : InInt (fan.fanMaxSpeed - fan.stepDown * tri reach))
    (hOver : (fan.fanMaxSpeed : ℤ) - fan.fanMinSpeed < fan.stepDown * tri reach) :
    ∃ first second, ¬ (controlRun π s [first, second]).Within := by
  obtain ⟨hot, hHot⟩ := exists_reading (n := 65535) (by decide) (by decide)
  obtain ⟨warm, hWarm⟩ := exists_reading (n := s.params.lowTemp + 1) (by omega) (by omega)
  refine ⟨hot, warm, fun hWithin => ?_⟩
  obtain ⟨speed, hEnd, _⟩ := within_of_pair hOpened hMem hWithin
  have hFalls : Falls s.params hot warm := ⟨by omega, by omega, by omega⟩
  have hNotRises : ¬ Rises s.params hot warm := fun h => absurd hFalls.1 h.1.le.not_gt
  have hWidth : s.params.maxTemp - warm.degrees = reach := by omega
  have hRamp : (rampDown π s.params warm fan : ℤ) = _ :=
    rampDown_eq_descent hFalls.2.2 (by rwa [hWidth]) (by rwa [hWidth]) (by rwa [hWidth])
  rw [fanSpeed_eq, if_neg hNotRises, if_pos hFalls] at hEnd
  have hBelow : fan.fanMinSpeed ≤ rampDown π s.params warm fan := hEnd.trans (min_le_right _ _)
  have hBelowInt : (fan.fanMinSpeed : ℤ) ≤ rampDown π s.params warm fan := hBelow
  rw [hRamp, hWidth] at hBelowInt
  omega

/-! ## Runs -/

theorem startup_within (hOpened : ∀ fan ∈ fans, fan.file = true) (h : PassesChecks p fans)
    (first : Reading) : (startup π p fans first).Within := by
  rw [Loop.Within, startup_fans hOpened]
  exact List.forall_mem_map.mpr fun fan hMem => ⟨le_rfl, not_lt.mp (h.1 fan hMem)⟩

theorem controlIteration_stepsFit (newTemp : Reading) :
    (controlIteration π s newTemp).StepsFit ↔ s.StepsFit :=
  forall_controlIteration newTemp fun _ _ => ⟨fun h => ⟨h.up, h.down⟩, fun h => ⟨h.up, h.down⟩⟩

structure FitToRun (s : Loop) : Prop where
  opened : ∀ fan ∈ s.fans, fan.file = true
  stepsFit : s.StepsFit

theorem FitToRun.reloadIf (h : FitToRun s) (a : Pass)
    (hFit : a.settings.isSome → (s.reloadIf a.reload).StepsFit) :
    FitToRun (s.reloadIf a.reload) := by
  refine ⟨?_, reloadIf_of_file h.stepsFit hFit⟩
  rw [reloadIf_eq]
  exact retrieve_opened h.opened a.settings

theorem FitToRun.controlIteration (h : FitToRun s) (newTemp : Reading) :
    FitToRun (controlIteration π s newTemp) :=
  ⟨(controlIteration_opened newTemp).mpr h.opened,
    (controlIteration_stepsFit newTemp).mpr h.stepsFit⟩

theorem FitToRun.pass_within_iff {a : Pass} (h : FitToRun s) (hWithin : s.Within)
    (hChecked : (s.reloadIf a.reload).Checked)
    (hFit : a.settings.isSome → (s.reloadIf a.reload).StepsFit) :
    (pass π s a).Within ↔
      (a.settings.isSome → CarriesOver (s.reloadIf a.reload) a.reading) := by
  obtain ⟨hOpened, hSteps⟩ := h.reloadIf a hFit
  rw [pass, controlIteration_within_iff hOpened hChecked hSteps a.reading]
  -- Without a reload the speeds are within the limits that the last iteration left.
  refine ⟨fun hCarries _ => hCarries, fun hCarries => ?_⟩
  exact reloadIf_of_file (P := fun s => CarriesOver s a.reading)
    (hWithin.carriesOver a.reading) hCarries

/-- In a run whose reloads leave parameters in order and steps that fit, every iteration leaves
every fan within its limits exactly when every reload finds a speed that may be carried over. -/
theorem within_iff_carriesOver (π : Platform) (hOpened : ∀ fan ∈ fans, fan.file = true)
    (h : PassesChecks p fans) (hNoOverflow : ∀ fan ∈ fans, NoOverflow p fan) (first : Reading)
    (passes : List Pass)
    (hReloads : (loopMachine π).EachStep (fun s a _ => (s.reloadIf a.reload).Checked)
      (startup π p fans first) passes)
    (hFit : (loopMachine π).EachStep
      (fun s a _ => a.settings.isSome → (s.reloadIf a.reload).StepsFit)
      (startup π p fans first) passes) :
    (loopMachine π).Always Loop.Within (startup π p fans first) passes ↔
      (loopMachine π).EachStep
        (fun s a _ => a.settings.isSome → CarriesOver (s.reloadIf a.reload) a.reading)
        (startup π p fans first) passes := by
  refine Machine.always_iff_eachStep (I := FitToRun) (hReloads.and hFit)
    ⟨startup_opened hOpened first, startup_stepsFit hOpened h hNoOverflow first⟩
    (startup_within hOpened h first) ?_ ?_
  · rintro s a t hHeld hStep ⟨_, hFits⟩
    rw [← (loopMachine_step a).mp hStep]
    exact (hHeld.reloadIf a hFits).controlIteration a.reading
  · rintro s a t hHeld hWithin hStep ⟨hChecked, hFits⟩
    rw [← (loopMachine_step a).mp hStep]
    exact hHeld.pass_within_iff hWithin hChecked hFits

def lowerMinimumFile : ConfFile := some (cstring "[general]\nmin_fan1_speed = 1500\n")

theorem within_iff_carriesOver_sample :
    (loopMachine Platform.wrap).Always Loop.Within (sampleLoop 64)
        [⟨some lowerMinimumFile, 80⟩, ⟨none, 70⟩] ↔
      (loopMachine Platform.wrap).EachStep
        (fun s a _ => a.settings.isSome → CarriesOver (s.reloadIf a.reload) a.reading)
        (sampleLoop 64) [⟨some lowerMinimumFile, 80⟩, ⟨none, 70⟩] :=
  within_iff_carriesOver Platform.wrap (by decide) (by decide) sample_configuration.noOverflow 64
    [⟨some lowerMinimumFile, 80⟩, ⟨none, 70⟩] (by decide +kernel) (by decide +kernel)

/-- A reload that raises the minimum to 3000 at a steady 64 degrees leaves the fan at 2000. -/
theorem reload_not_within :
    (loopMachine Platform.wrap).EachStep (fun s a _ => (s.reloadIf a.reload).Checked)
        (sampleLoop 64) [⟨some minSpeedFile, 64⟩] ∧
      ¬ (loopMachine Platform.wrap).Always Loop.Within (sampleLoop 64)
        [⟨some minSpeedFile, 64⟩] := by
  refine ⟨fun _ _ => ⟨minSpeedFile_checked, trivial⟩, fun h => ?_⟩
  have hWithin := h.last rfl
  revert hWithin
  decide +kernel

end Mbpfan
