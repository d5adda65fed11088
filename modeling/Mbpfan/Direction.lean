import Mbpfan.Run

/-!
# The direction of the temperature

The startup sets the minimum speed whatever the first reading is, so a hot start is not on
the band. What one iteration restores from any speed within the limits is enough for the
speed to follow the direction of the temperature from then on.
-/

namespace Mbpfan

open Library

/-- What every iteration leaves behind, on the band or not. -/
structure Held (p : Params) (t : Reading) (fan : Fan) : Prop where
  cold : t.degrees ≤ p.lowTemp → fan.oldSpeed = fan.fanMinSpeed
  hot : p.maxTemp ≤ t.degrees → fan.oldSpeed = fan.fanMaxSpeed
  lower : fan.fanMinSpeed ≤ fan.oldSpeed
  upper : fan.oldSpeed ≤ fan.fanMaxSpeed

structure FollowsDirection (π : Platform) (p : Params) (oldTemp newTemp : Reading) (fan : Fan) :
    Prop where
  rise : oldTemp.degrees < newTemp.degrees →
    fan.oldSpeed ≤ (controlFan π p oldTemp newTemp fan).1.oldSpeed
  fall : newTemp.degrees < oldTemp.degrees →
    (controlFan π p oldTemp newTemp fan).1.oldSpeed ≤ fan.oldSpeed
  steady : newTemp = oldTemp →
    (controlFan π p oldTemp newTemp fan).1.oldSpeed = fan.oldSpeed ∧
      (controlFan π p oldTemp newTemp fan).2 = none

variable {π : Platform} {p : Params} {fan : Fan} {fans : List Fan} {oldTemp newTemp : Reading}

theorem Running.rampUp_bounds (h : Running π p fan) (hRises : Rises p oldTemp newTemp) :
    fan.fanMinSpeed ≤ rampUp π p newTemp fan ∧ rampUp π p newTemp fan ≤ fan.fanMaxSpeed := by
  obtain ⟨_, hHigh, hMax⟩ := hRises
  have hLow := h.accepted.temps'.trans_lt hHigh
  have hEq := h.accepted.rampUp_eq h.fitted hHigh hMax
  constructor
  · exact (h.accepted.min_le_upRamp h.fitted hHigh hMax).trans_eq hEq.symm
  · exact hEq.trans_le ((h.accepted.upRamp_le_downRamp h.fitted hHigh hMax).trans
      (h.accepted.downRamp_le_max h.fitted hLow hMax))

theorem Running.rampDown_bounds (h : Running π p fan) (hFalls : Falls p oldTemp newTemp) :
    fan.fanMinSpeed ≤ rampDown π p newTemp fan ∧ rampDown π p newTemp fan ≤ fan.fanMaxSpeed := by
  obtain ⟨_, hLow, hMax⟩ := hFalls
  have hEq := h.accepted.rampDown_eq h.fitted hLow hMax
  constructor
  · exact (h.accepted.min_le_downRamp h.fitted hLow hMax).trans_eq hEq.symm
  · exact hEq.trans_le (h.accepted.downRamp_le_max h.fitted hLow hMax)

theorem Running.thresholdSpeed_bounds (h : Running π p fan) (newTemp : Reading)
    (hLower : fan.fanMinSpeed ≤ fan.oldSpeed) (hUpper : fan.oldSpeed ≤ fan.fanMaxSpeed) :
    fan.fanMinSpeed ≤ thresholdSpeed p newTemp fan ∧
      thresholdSpeed p newTemp fan ≤ fan.fanMaxSpeed := by
  rw [thresholdSpeed]
  split_ifs
  · exact ⟨le_rfl, h.accepted.speeds⟩
  · exact ⟨h.accepted.speeds, le_rfl⟩
  · exact ⟨hLower, hUpper⟩

theorem Running.fanSpeed_bounds (h : Running π p fan) (oldTemp newTemp : Reading)
    (hLower : fan.fanMinSpeed ≤ fan.oldSpeed) (hUpper : fan.oldSpeed ≤ fan.fanMaxSpeed) :
    fan.fanMinSpeed ≤ fanSpeed π p oldTemp newTemp fan ∧
      fanSpeed π p oldTemp newTemp fan ≤ fan.fanMaxSpeed := by
  have hThreshold := h.thresholdSpeed_bounds newTemp hLower hUpper
  rw [fanSpeed_eq]
  split_ifs with hRises hFalls
  · have hRamp := h.rampUp_bounds hRises
    exact ⟨le_max_of_le_left hThreshold.1, max_le hThreshold.2 hRamp.2⟩
  · have hRamp := h.rampDown_bounds hFalls
    exact ⟨le_min hThreshold.1 hRamp.1, min_le_of_left_le hThreshold.2⟩
  · exact hThreshold

theorem Running.held_controlFan (h : Running π p fan) (hLower : fan.fanMinSpeed ≤ fan.oldSpeed)
    (hUpper : fan.oldSpeed ≤ fan.fanMaxSpeed) (oldTemp newTemp : Reading) :
    Held p newTemp (controlFan π p oldTemp newTemp fan).1 := by
  have hBounds := h.fanSpeed_bounds oldTemp newTemp hLower hUpper
  rw [controlFan_fst h.opened]
  refine ⟨fun hCold => ?_, fun hHot => ?_, hBounds.1, hBounds.2⟩
  · exact (fanSpeed_eq_threshold h.accepted.temps (.inl hCold)).trans
      (thresholdSpeed_of_le_low hCold)
  · have hLow : (p.lowTemp : ℤ) < newTemp.degrees := by
      linarith [h.accepted.temps', h.accepted.proper']
    exact (fanSpeed_eq_threshold h.accepted.temps (.inr hHot)).trans
      (thresholdSpeed_of_max_le hLow hHot)

theorem Running.followsDirection (h : Running π p fan) (hHeld : Held p oldTemp fan)
    (newTemp : Reading) : FollowsDirection π p oldTemp newTemp fan := by
  have hTemps := h.accepted.temps'
  have hProper := h.accepted.proper'
  have hSpeed : (controlFan π p oldTemp newTemp fan).1.oldSpeed = fanSpeed π p oldTemp newTemp fan := by
    rw [controlFan_fst h.opened, withSpeed_oldSpeed]
  rcases le_or_gt newTemp.degrees p.lowTemp with hLow | hLow
  · have hEq : fanSpeed π p oldTemp newTemp fan = fan.fanMinSpeed :=
      (fanSpeed_eq_threshold h.accepted.temps (.inl hLow)).trans (thresholdSpeed_of_le_low hLow)
    refine ⟨fun hRise => ?_, fun _ => ?_, fun hSame => ?_⟩
    · rw [hSpeed, hEq, hHeld.cold (by omega)]
    · rw [hSpeed, hEq]
      exact hHeld.lower
    · rw [controlFan, hEq, setFanSpeed_of_eq (hHeld.cold (hSame ▸ hLow))]
      exact ⟨rfl, rfl⟩
  rcases le_or_gt (p.maxTemp : ℤ) newTemp.degrees with hMax | hMax
  · have hEq : fanSpeed π p oldTemp newTemp fan = fan.fanMaxSpeed :=
      (fanSpeed_eq_threshold h.accepted.temps (.inr hMax)).trans
        (thresholdSpeed_of_max_le hLow hMax)
    refine ⟨fun _ => ?_, fun hFall => ?_, fun hSame => ?_⟩
    · rw [hSpeed, hEq]
      exact hHeld.upper
    · rw [hSpeed, hEq, hHeld.hot (by omega)]
    · rw [controlFan, hEq, setFanSpeed_of_eq (hHeld.hot (hSame ▸ hMax))]
      exact ⟨rfl, rfl⟩
  have hEq : fanSpeed π p oldTemp newTemp fan = _ := fanSpeed_between hLow hMax
  refine ⟨fun hRise => ?_, fun hFall => ?_, fun hSame => ?_⟩
  · rw [hSpeed, hEq]
    split_ifs with hRises hFall
    · exact le_max_left _ _
    · omega
    · exact le_rfl
  · rw [hSpeed, hEq, if_neg fun hRises => absurd hRises.1 hFall.not_gt, if_pos hFall]
    exact min_le_left _ _
  · subst hSame
    rw [if_neg fun hRises => absurd hRises.1 (lt_irrefl _), if_neg (lt_irrefl _)] at hEq
    rw [controlFan, setFanSpeed_of_eq hEq.symm]
    exact ⟨rfl, rfl⟩

structure HeldRunning (π : Platform) (p : Params) (t : Reading) (fan : Fan) : Prop where
  running : Running π p fan
  held : Held p t fan

theorem HeldRunning.step (h : HeldRunning π p oldTemp fan) (newTemp : Reading) :
    HeldRunning π p newTemp (controlFan π p oldTemp newTemp fan).1 := by
  refine ⟨?_, h.running.held_controlFan h.held.lower h.held.upper oldTemp newTemp⟩
  rw [controlFan_fst h.running.opened]
  exact h.running.withSpeed _

theorem Configuration.heldRunning_first (h : Configuration p fans) (hMem : fan ∈ fans)
    (first second : Reading) :
    HeldRunning π p second (controlFan π p first second (startFan π p fan)).1 := by
  have hRunning := h.running (π := π) hMem
  refine ⟨?_, hRunning.held_controlFan le_rfl hRunning.accepted.speeds first second⟩
  rw [controlFan_fst hRunning.opened]
  exact hRunning.withSpeed _

theorem Configuration.heldRunning (h : Configuration p fans) (first second : Reading)
    (rest : List Reading) :
    ∀ fan ∈ (controlRun π (startup π p fans first) (second :: rest)).fans,
      HeldRunning π p (controlRun π (startup π p fans first) (second :: rest)).newTemp fan := by
  intro fan hMem
  rw [controlRun_fans, startup_fans h.opened, List.map_map] at hMem
  obtain ⟨origin, hOrigin, rfl⟩ := List.mem_map.mp hMem
  rw [controlRun_newTemp, List.getLastD_cons]
  exact fanRun_invariant (I := HeldRunning π p) (fun _ newTemp _ hHeld => hHeld.step newTemp)
    (h.heldRunning_first hOrigin first second) rest

/-- From the second iteration on, the fan follows the direction of the temperature. -/
theorem follows_temperature (π : Platform) (h : Configuration p fans) (first second : Reading)
    (rest : List Reading) (newTemp : Reading) :
    ∀ fan ∈ (controlRun π (startup π p fans first) (second :: rest)).fans,
      FollowsDirection π p (controlRun π (startup π p fans first) (second :: rest)).newTemp
        newTemp fan := by
  intro fan hMem
  have hHeld := h.heldRunning first second rest fan hMem
  exact hHeld.running.followsDirection hHeld.held newTemp

theorem follows_temperature_sample :
    ∃ fan ∈ (controlRun Platform.wrap (startup Platform.wrap defaultParams sampleFans 90)
      [80, 70]).fans,
      FollowsDirection Platform.wrap defaultParams 70 64 fan := by
  have hFans : (controlRun Platform.wrap (startup Platform.wrap defaultParams sampleFans 90)
      [80, 70]).fans ≠ [] := by
    decide
  exact ⟨_, List.head_mem hFans,
    follows_temperature Platform.wrap sample_configuration 90 80 [70] 64 _ (List.head_mem hFans)⟩

end Mbpfan
