import Mbpfan.Curve

/-!
# Runs without a reload

The fans do not influence each other, so a run of the loop is a run of each fan, and a run
of a fan that starts on the band is a run of the play operator.
-/

namespace Mbpfan

open Library

/-- What `mbpfan()` controls with: fans whose output files are open, parameters that pass
its checks and leave a ramp, and int products that fit. -/
structure Configuration (p : Params) (fans : List Fan) : Prop where
  opened : ∀ fan ∈ fans, fan.file = true
  checks : PassesChecks p fans
  proper : p.highTemp < p.maxTemp
  noOverflow : ∀ fan ∈ fans, NoOverflow p fan

structure Running (π : Platform) (p : Params) (fan : Fan) : Prop where
  opened : fan.file = true
  accepted : Accepted p fan
  fitted : Fitted π p fan

def Fan.withSpeed (fan : Fan) (speed : CInt) : Fan := { fan with oldSpeed := speed }

variable {π : Platform} {p : Params} {fan : Fan} {fans : List Fan}

@[simp] theorem lowerCurve_withSpeed (speed : CInt) :
    lowerCurve p (fan.withSpeed speed) = lowerCurve p fan := rfl

@[simp] theorem upperCurve_withSpeed (speed : CInt) :
    upperCurve p (fan.withSpeed speed) = upperCurve p fan := rfl

@[simp] theorem withSpeed_oldSpeed (speed : CInt) : (fan.withSpeed speed).oldSpeed = speed := rfl

theorem Accepted.withSpeed (h : Accepted p fan) (speed : CInt) :
    Accepted p (fan.withSpeed speed) :=
  ⟨h.speeds, h.temps, h.proper, h.noOverflow.range, h.noOverflow.up, h.noOverflow.down⟩

theorem Running.withSpeed (h : Running π p fan) (speed : CInt) :
    Running π p (fan.withSpeed speed) :=
  ⟨h.opened, h.accepted.withSpeed speed, h.fitted.up, h.fitted.down⟩

theorem controlFan_fst (hFile : fan.file = true) (oldTemp newTemp : Reading) :
    (controlFan π p oldTemp newTemp fan).1 = fan.withSpeed (fanSpeed π p oldTemp newTemp fan) :=
  setFanSpeed_fst hFile _

theorem Configuration.accepted (h : Configuration p fans) (hMem : fan ∈ fans) : Accepted p fan where
  speeds := not_lt.mp (h.checks.1 fan hMem)
  temps := not_lt.mp (not_or.mp h.checks.2).1
  proper := h.proper
  noOverflow := h.noOverflow fan hMem

def startFan (π : Platform) (p : Params) (fan : Fan) : Fan :=
  setSteps π p (fan.withSpeed fan.fanMinSpeed)

theorem startup_fans (hOpened : ∀ fan ∈ fans, fan.file = true) (newTemp : Reading) :
    (startup π p fans newTemp).fans = fans.map (startFan π p) :=
  List.map_congr_left fun fan hMem => congrArg (setSteps π p) (setFanSpeed_fst (hOpened fan hMem) _)

theorem Configuration.running (h : Configuration p fans) (hMem : fan ∈ fans) :
    Running π p (startFan π p fan) where
  opened := h.opened fan hMem
  accepted := ⟨(h.accepted hMem).speeds, (h.accepted hMem).temps, h.proper,
    (h.noOverflow fan hMem).range, (h.noOverflow fan hMem).up, (h.noOverflow fan hMem).down⟩
  fitted := ⟨rfl, rfl⟩

theorem sample_configuration : Configuration defaultParams sampleFans where
  opened := by decide
  checks := by decide
  proper := by decide
  noOverflow := by
    have hAll : ∀ fan ∈ sampleFans, InInt (fan.fanMaxSpeed - fan.fanMinSpeed) := by decide
    exact fun fan hMem => ⟨hAll fan hMem, by decide, by decide⟩

/-! ## One fan at a time -/

def fanRun (π : Platform) (p : Params) (oldTemp : Reading) (fan : Fan) : List Reading → Fan
  | [] => fan
  | newTemp :: rest => fanRun π p newTemp (controlFan π p oldTemp newTemp fan).1 rest

theorem controlRun_params (s : Loop) (readings : List Reading) :
    (controlRun π s readings).params = s.params := by
  induction readings generalizing s with
  | nil => rfl
  | cons newTemp rest ih => exact ih (controlIteration π s newTemp)

theorem controlRun_newTemp (s : Loop) (readings : List Reading) :
    (controlRun π s readings).newTemp = readings.getLastD s.newTemp := by
  induction readings generalizing s with
  | nil => rfl
  | cons newTemp rest ih =>
    rw [List.getLastD_cons]
    exact ih (controlIteration π s newTemp)

theorem controlRun_fans (s : Loop) (readings : List Reading) :
    (controlRun π s readings).fans =
      s.fans.map fun fan => fanRun π s.params s.newTemp fan readings := by
  induction readings generalizing s with
  | nil => exact (List.map_id s.fans).symm
  | cons newTemp rest ih =>
    refine (ih (controlIteration π s newTemp)).trans ?_
    simp only [controlIteration, List.map_map]
    rfl

theorem fanRun_frame (hFile : fan.file = true) (t : Reading) (readings : List Reading) :
    fanRun π p t fan readings = fan.withSpeed (fanRun π p t fan readings).oldSpeed := by
  induction readings generalizing t fan with
  | nil => rfl
  | cons newTemp rest ih =>
    have hNext : (controlFan π p t newTemp fan).1.file = true := by
      rw [controlFan_fst hFile]
      exact hFile
    have hRest := ih hNext newTemp
    rw [controlFan_fst hFile] at hRest
    rw [fanRun, controlFan_fst hFile]
    exact hRest

theorem fanRun_invariant {I : Reading → Fan → Prop}
    (hStep : ∀ oldTemp newTemp fan, I oldTemp fan → I newTemp (controlFan π p oldTemp newTemp fan).1)
    {oldTemp : Reading} (hInit : I oldTemp fan) (readings : List Reading) :
    I (readings.getLastD oldTemp) (fanRun π p oldTemp fan readings) := by
  induction readings generalizing oldTemp fan with
  | nil => exact hInit
  | cons newTemp rest ih =>
    rw [List.getLastD_cons]
    exact ih (hStep oldTemp newTemp fan hInit)

structure OnBand (π : Platform) (p : Params) (t : Reading) (fan : Fan) : Prop where
  running : Running π p fan
  curve : OnCurve p fan t

theorem OnBand.step {oldTemp : Reading} (h : OnBand π p oldTemp fan) (newTemp : Reading) :
    OnBand π p newTemp (controlFan π p oldTemp newTemp fan).1 := by
  obtain ⟨hRunning, hCurve⟩ := h
  rw [controlFan_fst hRunning.opened]
  refine ⟨hRunning.withSpeed _, (hRunning.accepted.withSpeed _).onCurve_iff.mpr ?_⟩
  rw [lowerCurve_withSpeed, upperCurve_withSpeed, withSpeed_oldSpeed,
    hRunning.accepted.fanSpeed_eq_play hRunning.fitted (hRunning.accepted.onCurve_iff.mp hCurve)]
  exact play_inBand (hRunning.accepted.lowerCurve_le_upperCurve hRunning.fitted _) _

theorem Configuration.onBand (h : Configuration p fans) (hMem : fan ∈ fans) {t : Reading}
    (hCool : t.degrees ≤ p.highTemp) : OnBand π p t (startFan π p fan) := by
  have hRunning := h.running (π := π) hMem
  have hProper := hRunning.accepted.proper'
  refine ⟨hRunning, hRunning.accepted.onCurve_iff.mpr ⟨?_, ?_⟩⟩
  · rw [lowerCurve_of_le_high (by omega) hCool]
    exact le_rfl
  · exact (hRunning.accepted.min_le_lowerCurve hRunning.fitted _).trans
      (hRunning.accepted.lowerCurve_le_upperCurve hRunning.fitted _)

/-- The run of a fan refines the run of the play operator between its curves. -/
theorem OnBand.fanRun_oldSpeed {oldTemp : Reading} (h : OnBand π p oldTemp fan)
    (readings : List Reading) :
    ((fanRun π p oldTemp fan readings).oldSpeed : ℤ) =
      playRun (lowerCurve p fan) (upperCurve p fan) fan.oldSpeed
        (readings.map Reading.degrees) := by
  induction readings generalizing oldTemp fan with
  | nil => rfl
  | cons newTemp rest ih =>
    have hNext := ih (h.step newTemp)
    have hSpeed : (fanSpeed π p oldTemp newTemp fan : ℤ) =
        play (lowerCurve p fan) (upperCurve p fan) newTemp.degrees fan.oldSpeed :=
      h.running.accepted.fanSpeed_eq_play h.running.fitted
        (h.running.accepted.onCurve_iff.mp h.curve)
    rw [controlFan_fst h.running.opened] at hNext
    rw [fanRun, controlFan_fst h.running.opened, hNext, withSpeed_oldSpeed, hSpeed]
    rfl

end Mbpfan
