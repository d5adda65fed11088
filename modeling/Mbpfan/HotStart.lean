import Mbpfan.Direction

/-!
# A hot start

After the startup every fan runs at its minimum speed. The ramps look at changes of the
temperature only, so whether a fan that starts on the climbing ramp ever reaches it is
decided by the first two readings.
-/

namespace Mbpfan

open Library

variable {π : Platform} {p : Params} {fan : Fan} {fans : List Fan}

/-- The rounded range is below the rounded divisor, so that `step_up` is zero. -/
def FlatRamp (p : Params) (fan : Fan) : Prop :=
  float ((fan.fanMaxSpeed - fan.fanMinSpeed : ℤ) : ℚ) < float (tri (p.maxTemp - p.highTemp))

def RampReached (s : Loop) : Prop :=
  ∀ fan ∈ s.fans, upRamp s.params fan s.newTemp.degrees ≤ fan.oldSpeed

theorem Accepted.flatRamp_iff (h : Accepted p fan) (hf : Fitted π p fan) {t : ℤ}
    (hHigh : p.highTemp < t) (hMax : t < p.maxTemp) :
    FlatRamp p fan ↔ upRamp p fan t ≤ fan.fanMinSpeed := by
  have hTri : 0 < tri (t - p.highTemp) := lt_of_lt_of_le (by omega) (le_tri _)
  have hStep := h.stepUp_nonneg hf hHigh hMax
  rw [FlatRamp, ← h.stepUpFor_eq_zero_iff (π := π) (by omega), ← hf.up, upRamp]
  constructor
  · intro hZero
    rw [hZero]
    omega
  · intro hLe
    nlinarith

theorem Configuration.onBand_of_rise (h : Configuration p fans) (hMem : fan ∈ fans)
    {first second : Reading} (hRise : first.degrees < second.degrees)
    (hHigh : p.highTemp < second.degrees) (hMax : second.degrees < p.maxTemp) :
    OnBand π p second (controlFan π p first second (startFan π p fan)).1 := by
  have hFirst := h.heldRunning_first (π := π) hMem first second
  have hRunning := h.running (π := π) hMem
  refine ⟨hFirst.running, ?_⟩
  have hRamp : (fanSpeed π p first second (startFan π p fan) : ℤ) =
      upRamp p (startFan π p fan) second.degrees := by
    rw [fanSpeed_between (h.accepted hMem |>.temps'.trans_lt hHigh) hMax,
      if_pos ⟨hRise, hHigh, hMax⟩, CInt.coe_max, hRunning.accepted.rampUp_eq hRunning.fitted hHigh hMax]
    exact max_eq_right (hRunning.accepted.min_le_upRamp hRunning.fitted hHigh hMax)
  rw [controlFan_fst hRunning.opened]
  refine ⟨fun hCold => ?_, fun hHot => ?_, fun _ _ => ?_, fun _ hCool => ?_⟩
  · linarith [hRunning.accepted.temps']
  · omega
  · rw [withSpeed_oldSpeed, hRamp]
    exact ⟨le_rfl, hRunning.accepted.upRamp_le_downRamp hRunning.fitted hHigh hMax⟩
  · omega

theorem Configuration.fanSpeed_of_not_rise (h : Configuration p fans) (hMem : fan ∈ fans)
    {first second : Reading} (hNoRise : ¬ first.degrees < second.degrees)
    (hHigh : p.highTemp < second.degrees) (hMax : second.degrees < p.maxTemp) :
    fanSpeed π p first second (startFan π p fan) = fan.fanMinSpeed := by
  have hRunning := h.running (π := π) hMem
  have hLow := (h.accepted hMem).temps'.trans_lt hHigh
  rw [fanSpeed_between hLow hMax, if_neg fun hRises => hNoRise hRises.1]
  split_ifs with hFall
  · exact min_eq_left (hRunning.rampDown_bounds ⟨hFall, hLow, hMax⟩).1
  · rfl

theorem getLastD_of_forall {Q : Reading → Prop} {second : Reading} {rest : List Reading}
    (hSecond : Q second) (hRest : ∀ t ∈ rest, Q t) : Q (rest.getLastD second) := by
  cases List.mem_cons.mp (List.getLastD_mem_cons (l := rest) (a := second)) with
  | inl hEq =>
    rw [hEq]
    exact hSecond
  | inr hIn => exact hRest _ hIn

/-- The fans and the last reading of a run whose first pass is told apart. -/
theorem Configuration.rampReached_of_fanRun (h : Configuration p fans) {first second : Reading}
    {rest : List Reading}
    (hEach : ∀ fan ∈ fans, upRamp p
      (fanRun π p second (controlFan π p first second (startFan π p fan)).1 rest)
        (rest.getLastD second).degrees ≤
      (fanRun π p second (controlFan π p first second (startFan π p fan)).1 rest).oldSpeed) :
    RampReached (controlRun π (startup π p fans first) (second :: rest)) := by
  intro fan hMem
  rw [controlRun_params, controlRun_newTemp, List.getLastD_cons]
  rw [controlRun_fans, startup_fans h.opened, List.map_map] at hMem
  obtain ⟨origin, hOrigin, rfl⟩ := List.mem_map.mp hMem
  exact hEach origin hOrigin

theorem Configuration.rampReached_of_rise (h : Configuration p fans) {first second : Reading}
    {rest : List Reading} (hRise : first.degrees < second.degrees)
    (hSecond : p.highTemp < second.degrees ∧ second.degrees < p.maxTemp)
    (hRest : ∀ t ∈ rest, p.highTemp < t.degrees ∧ t.degrees < p.maxTemp) :
    RampReached (controlRun π (startup π p fans first) (second :: rest)) := by
  apply h.rampReached_of_fanRun
  intro fan hMem
  have hBand := fanRun_invariant (I := OnBand π p) (fun _ newTemp _ hBand => hBand.step newTemp)
    (h.onBand_of_rise hMem hRise hSecond.1 hSecond.2) rest
  have hLast := getLastD_of_forall (Q := fun t => p.highTemp < t.degrees ∧ t.degrees < p.maxTemp)
    hSecond hRest
  exact (hBand.curve.ramp hLast.1 hLast.2).1

theorem Configuration.rampReached_of_flat (h : Configuration p fans) {first second : Reading}
    {rest : List Reading} (hFlat : ∀ fan ∈ fans, FlatRamp p fan)
    (hSecond : p.highTemp < second.degrees ∧ second.degrees < p.maxTemp)
    (hRest : ∀ t ∈ rest, p.highTemp < t.degrees ∧ t.degrees < p.maxTemp) :
    RampReached (controlRun π (startup π p fans first) (second :: rest)) := by
  apply h.rampReached_of_fanRun
  intro fan hMem
  obtain ⟨hHeld, hStillFlat⟩ :=
    fanRun_invariant (I := fun t fan => HeldRunning π p t fan ∧ FlatRamp p fan)
      (fun oldTemp newTemp fan hBoth => ⟨hBoth.1.step newTemp, by
        rw [controlFan_fst hBoth.1.running.opened]
        exact hBoth.2⟩)
      ⟨h.heldRunning_first hMem first second, by
        rw [controlFan_fst (h.running hMem).opened]
        exact hFlat fan hMem⟩ rest
  have hLast := getLastD_of_forall (Q := fun t => p.highTemp < t.degrees ∧ t.degrees < p.maxTemp)
    hSecond hRest
  have hRamp := (hHeld.running.accepted.flatRamp_iff hHeld.running.fitted hLast.1 hLast.2).mp
    hStillFlat
  exact hRamp.trans hHeld.held.lower

/-- Without a rise the first pass leaves the minimum speed, which only a flat ramp allows. -/
theorem Configuration.flat_of_rampReached (h : Configuration p fans) {first second : Reading}
    (hNoRise : ¬ first.degrees < second.degrees)
    (hSecond : p.highTemp < second.degrees ∧ second.degrees < p.maxTemp)
    (hReached : RampReached (controlRun π (startup π p fans first) [second])) :
    ∀ fan ∈ fans, FlatRamp p fan := by
  intro fan hMem
  have hRunning := h.running (π := π) hMem
  have hNext := hReached (controlFan π p first second (startFan π p fan)).1 (by
    rw [controlRun_fans, startup_fans h.opened, List.map_map]
    exact List.mem_map.mpr ⟨fan, hMem, rfl⟩)
  rw [controlFan_fst hRunning.opened,
    h.fanSpeed_of_not_rise hMem hNoRise hSecond.1 hSecond.2] at hNext
  exact (hRunning.accepted.flatRamp_iff hRunning.fitted hSecond.1 hSecond.2).mpr hNext

/-- A start whose second reading is on the ramp reaches the ramp and stays at it, for as
long as the readings stay there, exactly when the second reading is above the first one or
no fan has a ramp to climb. -/
theorem hot_start_iff (π : Platform) (h : Configuration p fans) (first second : Reading)
    (hHigh : p.highTemp < second.degrees) (hMax : second.degrees < p.maxTemp) :
    (∀ rest : List Reading, (∀ t ∈ rest, p.highTemp < t.degrees ∧ t.degrees < p.maxTemp) →
        RampReached (controlRun π (startup π p fans first) (second :: rest))) ↔
      first.degrees < second.degrees ∨ ∀ fan ∈ fans, FlatRamp p fan := by
  constructor
  · intro hReached
    apply or_iff_not_imp_left.mpr
    intro hNoRise
    exact h.flat_of_rampReached hNoRise ⟨hHigh, hMax⟩ (hReached [] nofun)
  · rintro (hRise | hFlat) rest hRest
    · exact h.rampReached_of_rise hRise ⟨hHigh, hMax⟩ hRest
    · exact h.rampReached_of_flat hFlat ⟨hHigh, hMax⟩ hRest

theorem hot_start_iff_sample :
    (∀ rest : List Reading,
        (∀ t ∈ rest, defaultParams.highTemp < t.degrees ∧ t.degrees < defaultParams.maxTemp) →
        RampReached (controlRun Platform.wrap (startup Platform.wrap defaultParams sampleFans 75)
          (80 :: rest))) ↔
      Reading.degrees 75 < Reading.degrees 80 ∨ ∀ fan ∈ sampleFans, FlatRamp defaultParams fan :=
  hot_start_iff Platform.wrap sample_configuration 75 80 (by decide) (by decide)

/-- Two equal readings of 80 degrees leave the fan at 2000, the ramp asks for 4100. -/
theorem hot_start_not_cooled :
    Configuration defaultParams sampleFans ∧ defaultParams.highTemp < Reading.degrees 80 ∧
      Reading.degrees 80 < defaultParams.maxTemp ∧
      ¬ RampReached (controlRun Platform.wrap
        (startup Platform.wrap defaultParams sampleFans 80) [80]) := by
  refine ⟨sample_configuration, by decide, by decide, ?_⟩
  rw [RampReached]
  decide +kernel

end Mbpfan
