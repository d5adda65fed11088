import Mbpfan.Run

/-!
# The hysteresis band of the control loop

A daemon that starts cool keeps every fan on the band, whatever the readings, and of two
such daemons the one with the hotter readings never runs a fan slower.
-/

namespace Mbpfan

open Library

def AllOnCurve (s : Loop) : Prop := ∀ fan ∈ s.fans, OnCurve s.params fan s.newTemp

variable {π : Platform} {p : Params} {fans : List Fan}

theorem controlRun_allOnCurve (h : Configuration p fans) {first : Reading}
    (hCool : first.degrees ≤ p.highTemp) (readings : List Reading) :
    AllOnCurve (controlRun π (startup π p fans first) readings) := by
  intro fan hMem
  rw [controlRun_fans, startup_fans h.opened, List.map_map] at hMem
  obtain ⟨origin, hOrigin, rfl⟩ := List.mem_map.mp hMem
  rw [controlRun_params, controlRun_newTemp]
  exact (fanRun_invariant (I := OnBand π p) (fun _ newTemp _ hBand => hBand.step newTemp)
    (h.onBand hOrigin hCool) readings).curve

theorem controlRun_sameFans (h : Configuration p fans) (first : Reading)
    (readings : List Reading) :
    List.Forall₂ (fun fan last => ∃ speed, last = (setSteps π p fan).withSpeed speed) fans
      (controlRun π (startup π p fans first) readings).fans := by
  rw [controlRun_fans, startup_fans h.opened, List.map_map, List.forall₂_map_right_iff,
    List.forall₂_same]
  intro fan hMem
  have hFile : (startFan π p fan).file = true := h.opened fan hMem
  exact ⟨_, fanRun_frame hFile first readings⟩

/-- The startup sets the exact integer steps and starts on the band, an iteration leads
from the band to the band for every pair of readings, and so does every run, which ends with
its last reading and the fans it began with. -/
theorem hysteresis_band (π : Platform) (h : Configuration p fans)
    (hRange : ∀ fan ∈ fans, (fan.fanMaxSpeed : ℤ) - fan.fanMinSpeed < 2 ^ 24) :
    (∀ fan ∈ fans,
      (stepUpFor π p fan : ℤ) =
          (fan.fanMaxSpeed - fan.fanMinSpeed) / tri (p.maxTemp - p.highTemp) ∧
        (stepDownFor π p fan : ℤ) =
          (fan.fanMaxSpeed - fan.fanMinSpeed) / tri (p.maxTemp - p.lowTemp)) ∧
    (∀ first : Reading, first.degrees ≤ p.highTemp → AllOnCurve (startup π p fans first)) ∧
    (∀ fan ∈ fans, ∀ (speed : CInt) (oldTemp newTemp : Reading),
      OnCurve p ((setSteps π p fan).withSpeed speed) oldTemp →
        OnCurve p (controlFan π p oldTemp newTemp ((setSteps π p fan).withSpeed speed)).1
          newTemp) ∧
    ∀ (first : Reading) (readings : List Reading), first.degrees ≤ p.highTemp →
      AllOnCurve (controlRun π (startup π p fans first) readings) ∧
        (controlRun π (startup π p fans first) readings).params = p ∧
        (controlRun π (startup π p fans first) readings).newTemp = readings.getLastD first ∧
        List.Forall₂ (fun fan last => ∃ speed, last = (setSteps π p fan).withSpeed speed) fans
          (controlRun π (startup π p fans first) readings).fans := by
  refine ⟨fun fan hMem => ⟨?_, ?_⟩, fun first hCool => ?_, ?_, ?_⟩
  · exact (h.accepted hMem).stepUpFor_eq (hRange fan hMem)
  · exact (h.accepted hMem).stepDownFor_eq (hRange fan hMem)
  · exact controlRun_allOnCurve h hCool []
  · intro fan hMem speed oldTemp newTemp hCurve
    have hRunning : Running π p ((setSteps π p fan).withSpeed speed) :=
      (h.running hMem).withSpeed speed
    exact (OnBand.step ⟨hRunning, hCurve⟩ newTemp).curve
  · intro first readings hCool
    exact ⟨controlRun_allOnCurve h hCool readings, controlRun_params _ readings,
      controlRun_newTemp _ readings, controlRun_sameFans h first readings⟩

theorem hysteresis_band_sample :
    AllOnCurve (controlRun Platform.wrap (startup Platform.wrap defaultParams sampleFans 60)
        [95, 70, 64, 90, 40]) ∧
      (controlRun Platform.wrap (startup Platform.wrap defaultParams sampleFans 60)
        [95, 70, 64, 90, 40]).newTemp = 40 :=
  have hRun := (hysteresis_band Platform.wrap sample_configuration (by decide)).2.2.2 60
    [95, 70, 64, 90, 40] (by decide)
  ⟨hRun.1, hRun.2.2.1⟩

/-- Two runs of one configuration, each reading of the second at most that of the first. -/
theorem hotter_not_slower (π : Platform) (h : Configuration p fans) {firstA firstB : Reading}
    (hCoolA : firstA.degrees ≤ p.highTemp) (hCoolB : firstB.degrees ≤ p.highTemp)
    {readingsA readingsB : List Reading}
    (hHotter : List.Forall₂ (fun b a => b ≤ a) readingsB readingsA) :
    List.Forall₂ (fun fanB fanA => fanB.oldSpeed ≤ fanA.oldSpeed)
      (controlRun π (startup π p fans firstB) readingsB).fans
      (controlRun π (startup π p fans firstA) readingsA).fans := by
  have hDegrees : List.Forall₂ (· ≤ ·) (readingsB.map Reading.degrees)
      (readingsA.map Reading.degrees) := by
    rw [List.forall₂_map_left_iff, List.forall₂_map_right_iff]
    exact hHotter.imp fun b a hba => Int.ofNat_le.mpr (UInt16.le_iff_toNat_le.mp hba)
  rw [controlRun_fans, controlRun_fans, startup_fans h.opened, startup_fans h.opened,
    List.map_map, List.map_map, List.forall₂_map_left_iff, List.forall₂_map_right_iff,
    List.forall₂_same]
  intro fan hMem
  have hBandA := h.onBand (π := π) hMem hCoolA
  have hBandB := h.onBand (π := π) hMem hCoolB
  have hAccepted := hBandA.running.accepted
  have hFitted := hBandA.running.fitted
  have hMono := playRun_mono (fun _ _ => hAccepted.lowerCurve_mono hFitted)
    (fun _ _ => hAccepted.upperCurve_mono hFitted) (le_refl (fan.fanMinSpeed : ℤ)) hDegrees
  change ((fanRun π p firstB (startFan π p fan) readingsB).oldSpeed : ℤ) ≤
    (fanRun π p firstA (startFan π p fan) readingsA).oldSpeed
  rw [hBandB.fanRun_oldSpeed, hBandA.fanRun_oldSpeed]
  exact hMono

theorem hotter_not_slower_sample :
    List.Forall₂ (fun fanB fanA => fanB.oldSpeed ≤ fanA.oldSpeed)
      (controlRun Platform.wrap (startup Platform.wrap defaultParams sampleFans 50)
        [60, 90, 70]).fans
      (controlRun Platform.wrap (startup Platform.wrap defaultParams sampleFans 60)
        [72, 90, 84]).fans :=
  hotter_not_slower Platform.wrap sample_configuration (by decide) (by decide) (by decide)

end Mbpfan
