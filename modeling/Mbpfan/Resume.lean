import Mbpfan.Exit

/-!
# After a detected suspend

The recalibration switches the fans back to manual mode and leaves their speeds to the next
iteration, which trusts the cached speed. A fan whose cached speed the iteration confirms
keeps whatever speed the hardware chose during the suspend.
-/

namespace Mbpfan

open Library

/-- Whether no iteration has controlled the fans since the last detected suspend. -/
def recordWake (woken : Bool) (s : Daemon) (a : Action) (_ : Daemon) : Bool :=
  match a, s.point with
  | .slept (some _), .sleep => true
  | .reading _ _, .control => false
  | _, _ => woken

def speedsWritten (s : Daemon) (a : Action) : Bool :=
  match a with
  | .reading _ written => s.loop.fans.all fun fan => written fan.fanId
  | _ => true

/-- Every fan is in manual mode and runs at the speed decided for it. -/
def InControl (s : Daemon) : Prop :=
  ∀ fan ∈ s.loop.fans, (s.smc fan.fanId).manual = true ∧ (s.smc fan.fanId).output = fan.oldSpeed

instance (s : Daemon) : Decidable (InControl s) :=
  inferInstanceAs (Decidable (∀ fan ∈ s.loop.fans, _))

def controls (s : Daemon) (a : Action) : Bool :=
  match a, s.point with
  | .reading _ _, .control => true
  | _, _ => false

def Reasserted (s : Daemon × Bool) (a : Action) (t : Daemon × Bool) : Prop :=
  controls s.1 a = true → s.2 = true → InControl t.1

instance (s : Daemon × Bool) (a : Action) (t : Daemon × Bool) : Decidable (Reasserted s a t) :=
  inferInstanceAs (Decidable (_ → _ → _))

/-- The reading takes the fan off the cached speed: to another limit at a threshold, or
beyond it on a ramp. -/
def Moves (π : Platform) (p : Params) (oldTemp newTemp : Reading) (fan : Fan) : Prop :=
  let speed := thresholdSpeed p newTemp fan
  if Rises p oldTemp newTemp then
    fan.oldSpeed < speed ∨ fan.oldSpeed < rampUp π p newTemp fan ∨
      speed < fan.oldSpeed ∧ rampUp π p newTemp fan < fan.oldSpeed
  else if Falls p oldTemp newTemp then
    speed < fan.oldSpeed ∨ rampDown π p newTemp fan < fan.oldSpeed ∨
      fan.oldSpeed < speed ∧ fan.oldSpeed < rampDown π p newTemp fan
  else speed ≠ fan.oldSpeed

/-- At the first iteration after a suspend every fan still has its cached speed or is moved. -/
def KeptOrMoved (π : Platform) (s : Daemon × Bool) (a : Action) : Prop :=
  match a, s.1.point with
  | .reading newTemp _, .control => s.2 = true → ∀ fan ∈ s.1.loop.fans,
      (s.1.smc fan.fanId).output = fan.oldSpeed ∨
        Moves π s.1.loop.params s.1.loop.newTemp newTemp fan
  | _, _ => True

def Manual (s : Daemon) : Prop :=
  match s.point with
  | .setFansMan _ rest => ∀ id ∈ s.loop.ids, id ∈ rest ∨ (s.smc id).manual = true
  | .firstReading | .recalibrate | .testExit | .testReload | .openSettings .loop
  | .applySettings .loop _ | .clearReload | .control | .sleep =>
    ∀ id ∈ s.loop.ids, (s.smc id).manual = true
  | _ => True

structure Commanded (s : Daemon) : Prop where
  opened : ∀ fan ∈ s.loop.fans, fan.file = true
  distinct : s.loop.ids.Nodup
  manual : Manual s

variable {π : Platform} {s t : Daemon} {a : Action} {p : Params} {fan : Fan}

theorem moves_iff (oldTemp newTemp : Reading) :
    Moves π p oldTemp newTemp fan ↔ fan.oldSpeed ≠ fanSpeed π p oldTemp newTemp fan := by
  rw [fanSpeed_eq, Moves]
  split_ifs
  · rw [ne_iff_lt_or_gt, lt_max_iff, max_lt_iff, or_assoc]
  · rw [ne_comm, ne_iff_lt_or_gt, min_lt_iff, lt_min_iff, or_assoc]
  · exact ne_comm

theorem commanded_iff : Commanded s ↔
    (∀ fan ∈ s.loop.fans, fan.file = true) ∧ s.loop.ids.Nodup ∧ Manual s :=
  ⟨fun h => ⟨h.opened, h.distinct, h.manual⟩, fun h => ⟨h.1, h.2.1, h.2.2⟩⟩

theorem Commanded.step (h : Commanded s) (hStep : daemonStep π s a = some t)
    (hWritten : modeWritten s a = true) : Commanded t := by
  rw [commanded_iff] at h ⊢
  obtain ⟨hOpened, hDistinct, hManual⟩ := h
  cases transition_of_step hStep with
  | hungUp | stopped => exact ⟨hOpened, hDistinct, hManual⟩
  | killed => exact ⟨hOpened, hDistinct, trivial⟩
  | starting hPoint hStart =>
    obtain ⟨point, pidFile, rfl, hEarly⟩ := startStep_frame hStart
    cases hEarly <;> exact ⟨hOpened, hDistinct, trivial⟩
  | foundFans hPoint => exact ⟨fun _ => retrieveFans_file, retrieveFans_nodup _, trivial⟩
  | firstReading hPoint =>
    refine ⟨startup_opened hOpened _, by simpa using hDistinct, ?_⟩
    simpa [Manual, hPoint, writeSpeeds_manual] using hManual
  | controlled hPoint =>
    refine ⟨(controlIteration_opened _).mpr hOpened, by simpa using hDistinct, ?_⟩
    simpa [Manual, hPoint, writeSpeeds_manual] using hManual
  | configured hPoint =>
    exact ⟨retrieve_opened hOpened _, by simpa using hDistinct, trivial⟩
  | reconfigured hPoint =>
    refine ⟨retrieve_opened hOpened _, by simpa using hDistinct, ?_⟩
    simpa [Manual, hPoint] using hManual
  | @opened caller _ hPoint =>
    cases caller <;> simp_all [Manual, Daemon.goto]
  | @manual caller fanId rest ok hPoint =>
    have hOk : ok = true := by simpa [modeWritten, hPoint] using hWritten
    subst hOk
    have hOld : ∀ id ∈ s.loop.ids, id ∈ fanId :: rest ∨ (s.smc id).manual = true := by
      simpa [Manual, hPoint] using hManual
    exact ⟨hOpened, hDistinct, fun id hId => setMode_pending (hOld id hId)⟩
  | noFans hPoint
  | refused hPoint hChecked | accepted hPoint hChecked | allManual hPoint
  | allManualAgain hPoint | recalibrated hPoint | exiting hPoint hExit
  | continuing hPoint hExit | reloading hPoint hReload | keeping hPoint hReload | cleared hPoint
  | slept hPoint | woke hPoint | pidDeleted hPoint | automatic hPoint
  | allAutomatic hPoint =>
    simp_all [Manual, Daemon.goto]

theorem output_eq_iff {smc : Smc} {fans : List Fan} {written : ℕ → Bool}
    (hDistinct : (fans.map Fan.fanId).Nodup) (hMem : fan ∈ fans) (hFile : fan.file = true)
    (hWritten : written fan.fanId = true) (oldTemp newTemp : Reading) :
    (writeSpeeds (fanSpeed π p oldTemp newTemp) written fans smc fan.fanId).output =
        fanSpeed π p oldTemp newTemp fan ↔
      (smc fan.fanId).output = fan.oldSpeed ∨ Moves π p oldTemp newTemp fan := by
  rw [writeSpeeds_output hDistinct hMem hFile hWritten, moves_iff]
  split_ifs with hEq
  · rw [← hEq]
    exact (or_iff_left fun h => h rfl).symm
  · exact iff_of_true rfl (.inr hEq)

theorem Commanded.inControl_iff (h : Commanded s) (hPoint : s.point = .control)
    (newTemp : Reading) {written : ℕ → Bool}
    (hWritten : ∀ fan ∈ s.loop.fans, written fan.fanId = true) :
    InControl { s with
        loop := controlIteration π s.loop newTemp
        smc := writeSpeeds (fanSpeed π s.loop.params s.loop.newTemp newTemp) written
          s.loop.fans s.smc
        point := .sleep } ↔
      ∀ fan ∈ s.loop.fans, (s.smc fan.fanId).output = fan.oldSpeed ∨
        Moves π s.loop.params s.loop.newTemp newTemp fan := by
  have hManual : ∀ id ∈ s.loop.ids, (s.smc id).manual = true := by
    simpa [Manual, hPoint] using h.manual
  refine List.forall_mem_map.trans (forall_congr' fun fan => forall_congr' fun hMem => ?_)
  rw [controlFan_fst (h.opened fan hMem)]
  refine (and_iff_right ?_).trans
    (output_eq_iff h.distinct hMem (h.opened fan hMem) (hWritten fan hMem) _ _)
  exact (writeSpeeds_manual fan.fanId).trans (hManual fan.fanId (List.mem_map_of_mem hMem))

theorem Commanded.reasserted_iff (h : Commanded s) {woken : Bool}
    (hStep : daemonStep π s a = some t) (hWritten : speedsWritten s a = true) :
    Reasserted (s, woken) a (t, recordWake woken s a t) ↔ KeptOrMoved π (s, woken) a := by
  cases transition_of_step hStep with
  | @controlled newTemp _ hPoint =>
    have hEach := h.inControl_iff (π := π) hPoint newTemp
      (by simpa [speedsWritten] using hWritten)
    simp only [Reasserted, KeptOrMoved, controls, hPoint, true_imp_iff]
    exact imp_congr_right fun _ => hEach
  | starting hPoint hStart => simp [Reasserted, KeptOrMoved, controls, hPoint]
  | firstReading hPoint => simp [Reasserted, KeptOrMoved, controls, hPoint]
  | _ => simp [Reasserted, KeptOrMoved, controls]

theorem launch_commanded (daemonize : Bool) (pid : ℤ) (pidFile : Option ℤ) (smc : Smc) :
    Commanded (launch daemonize pid pidFile smc) where
  opened := by simp [launch]
  distinct := List.nodup_nil
  manual := trivial

/-- When all writes succeed, every first iteration after a suspend ends in control exactly when
it finds every fan at its cached speed or moves it. -/
theorem reasserted_iff_keptOrMoved (π : Platform) (daemonize : Bool) (pid : ℤ)
    (pidFile : Option ℤ) (smc : Smc) (actions : List Action)
    (hWritten : ((daemonMachine π).observe recordWake).EachStep
      (fun s a _ => modeWritten s.1 a = true ∧ speedsWritten s.1 a = true)
      (launch daemonize pid pidFile smc, false) actions) :
    ((daemonMachine π).observe recordWake).EachStep Reasserted
        (launch daemonize pid pidFile smc, false) actions ↔
      ((daemonMachine π).observe recordWake).EachStep (fun s a _ => KeptOrMoved π s a)
        (launch daemonize pid pidFile smc, false) actions := by
  have hAlways : ((daemonMachine π).observe recordWake).Always (fun s => Commanded s.1)
      (launch daemonize pid pidFile smc, false) actions :=
    Machine.observe_always (fun s _ a t hCommanded hStep hOk => hCommanded.step hStep hOk.1)
      (launch_commanded daemonize pid pidFile smc) hWritten
  apply Machine.eachStep_congr hAlways hWritten
  rintro ⟨s, woken⟩ a ⟨t, next⟩ hCommanded hStep ⟨-, hSpeeds⟩
  obtain ⟨hTake, rfl⟩ := Machine.observe_step_eq_some.mp hStep
  exact hCommanded.reasserted_iff hTake hSpeeds

/-- An iteration at 50 degrees, a suspend after which the fan runs at 1000 in automatic mode,
and an iteration at the given reading. -/
def suspendRun (newTemp : Reading) : List Action :=
  sampleStart 50 ++ [.proceed] ++ samplePass 50 ++
    [.slept (some fun _ => ⟨false, 1000⟩), .returned true, .proceed, .proceed] ++
    samplePass newTemp

theorem reasserted_iff_keptOrMoved_sample :
    ((daemonMachine Platform.wrap).observe recordWake).EachStep Reasserted (sampleLaunch, false)
        (suspendRun 90) ↔
      ((daemonMachine Platform.wrap).observe recordWake).EachStep
        (fun s a _ => KeptOrMoved Platform.wrap s a) (sampleLaunch, false) (suspendRun 90) :=
  reasserted_iff_keptOrMoved Platform.wrap false 4242 none (fun _ => ⟨false, 0⟩) (suspendRun 90)
    (by decide +kernel)

/-- At a steady 50 degrees the fan is left at 1000 with 2000 in the cache. -/
theorem suspend_not_reasserted :
    ((daemonMachine Platform.wrap).observe recordWake).EachStep
        (fun s a _ => modeWritten s.1 a = true ∧ speedsWritten s.1 a = true)
        (sampleLaunch, false) (suspendRun 50) ∧
      ¬ ((daemonMachine Platform.wrap).observe recordWake).EachStep Reasserted
        (sampleLaunch, false) (suspendRun 50) := by
  decide +kernel

end Mbpfan
