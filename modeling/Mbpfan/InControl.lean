import Mbpfan.Resume
import Mbpfan.DetectedLimits

/-!
# The fans run at the speeds decided for them

`set_fan_speed` trusts the speed it has stored. A fan found at the start has 0 stored and a
minimum that is not 0, so that the first speed is written, and from then on the registers follow
the stored speeds until a write fails or a suspend changes a speed.
-/

namespace Mbpfan

open Library

/-- A suspend leaves the fans at the speeds they had. -/
def speedsKept (s : Daemon) (a : Action) : Bool :=
  match a with
  | .slept (some smc) =>
    s.loop.fans.all fun fan => (smc fan.fanId).output = (s.smc fan.fanId).output
  | _ => true

/-- All writes succeed, and no suspend changes a speed. Each is detected. -/
def Untroubled (s : Daemon) (a : Action) (_ : Daemon) : Prop :=
  modeWritten s a = true ∧ speedsWritten s a = true ∧ speedsKept s a = true

instance (s : Daemon) (a : Action) (t : Daemon) : Decidable (Untroubled s a t) :=
  inferInstanceAs (Decidable (_ ∧ _))

/-- The write of the minimum will not be skipped. -/
structure Fresh (fan : Fan) : Prop where
  unset : fan.oldSpeed = CInt.zero
  positive : fan.fanMinSpeed ≠ CInt.zero

def Follows (smc : Smc) (fan : Fan) : Prop := (smc fan.fanId).output = fan.oldSpeed

def Followed (s : Daemon) : Prop :=
  match s.point with
  | .start _ | .retrieveFans | .exited | .killed => True
  | .openSettings .startup | .applySettings .startup _ | .checks | .setFansMan .startup _
  | .firstReading => ∀ fan ∈ s.loop.fans, Fresh fan
  | _ => ∀ fan ∈ s.loop.fans, Follows s.smc fan

variable {π : Platform} {s t : Daemon} {a : Action} {fan : Fan} {fans : List Fan} {smc : Smc}

theorem retrieveFan_fresh (counter : ℕ) (files : FanFiles) : Fresh (retrieveFan counter files) := by
  refine ⟨rfl, fun hZero => ?_⟩
  have hBound := (retrieveFan_bounds counter files).1
  rw [hZero] at hBound
  exact absurd hBound (by decide)

theorem retrieveFans_fresh {probe : ℕ → Option FanFiles} (h : fan ∈ retrieveFans probe) :
    Fresh fan := by
  obtain ⟨counter, _, hFan⟩ := List.mem_filterMap.mp h
  obtain ⟨files, _, rfl⟩ := Option.map_eq_some_iff.mp hFan
  exact retrieveFan_fresh counter files

theorem override_ne_zero {result old : CInt} (h : old ≠ CInt.zero) :
    override result old ≠ CInt.zero := by
  rw [override]
  split_ifs with hResult
  · exact fun hZero => hResult (congrArg Subtype.val hZero)
  · exact h

theorem retrieve_fresh {loop : Loop} (h : ∀ fan ∈ loop.fans, Fresh fan)
    (read : Option Settings) : ∀ fan ∈ (loop.retrieve read).fans, Fresh fan := by
  cases read with
  | none => exact h
  | some settings =>
    refine List.forall_mem_map.mpr fun fan hMem => ?_
    exact ⟨(h fan hMem).unset, override_ne_zero (h fan hMem).positive⟩

theorem retrieve_follows {loop : Loop} (h : ∀ fan ∈ loop.fans, Follows smc fan)
    (read : Option Settings) : ∀ fan ∈ (loop.retrieve read).fans, Follows smc fan := by
  cases read with
  | none => exact h
  | some settings => exact List.forall_mem_map.mpr h

theorem follows_setMode {fanId : ℕ} {mode : Bool} (h : Follows smc fan) :
    Follows (smc.setMode fanId mode) fan := by
  rw [Follows, Smc.setMode]
  rcases eq_or_ne fan.fanId fanId with rfl | hNe
  · rw [Function.update_self]
    exact h
  · rw [Function.update_of_ne hNe]
    exact h

theorem follows_setMode_if {fanId : ℕ} {mode ok : Bool} (h : ∀ fan ∈ fans, Follows smc fan) :
    ∀ fan ∈ fans, Follows (if ok then smc.setMode fanId mode else smc) fan := by
  intro fan hMem
  cases ok with
  | true => exact follows_setMode (h fan hMem)
  | false => exact h fan hMem

/-- A fan follows the new speed when it was written, and also when it was skipped because the
fan had it already. -/
theorem writeSpeeds_follows {speed : Fan → CInt} {written : ℕ → Bool}
    (hDistinct : (fans.map Fan.fanId).Nodup) (hOpened : ∀ fan ∈ fans, fan.file = true)
    (hWritten : ∀ fan ∈ fans, written fan.fanId = true)
    (hStored : ∀ fan ∈ fans, fan.oldSpeed = speed fan → Follows smc fan) :
    ∀ fan ∈ fans, (writeSpeeds speed written fans smc fan.fanId).output = speed fan := by
  intro fan hMem
  rw [writeSpeeds_output hDistinct hMem (hOpened fan hMem) (hWritten fan hMem)]
  split_ifs with hEq
  · rw [← hEq]
    exact hStored fan hMem hEq
  · rfl

theorem Followed.step (hCommanded : Commanded s) (h : Followed s)
    (hStep : daemonStep π s a = some t) (hUntroubled : Untroubled s a t) : Followed t := by
  obtain ⟨-, hWritten, hKept⟩ := hUntroubled
  cases transition_of_step hStep with
  | hungUp | stopped => exact h
  | killed => exact trivial
  | starting hPoint hStart =>
    obtain ⟨point, pidFile, rfl, hEarly⟩ := startStep_frame hStart
    cases hEarly <;> exact trivial
  | foundFans hPoint => exact fun fan hMem => retrieveFans_fresh hMem
  | configured hPoint =>
    simp only [Followed, hPoint] at h
    exact retrieve_fresh h _
  | reconfigured hPoint =>
    simp only [Followed, hPoint] at h
    exact retrieve_follows h _
  | @firstReading newTemp written hPoint =>
    simp only [Followed, hPoint] at h
    have hOutput : ∀ fan ∈ s.loop.fans, (writeSpeeds Fan.fanMinSpeed written s.loop.fans s.smc
        fan.fanId).output = fan.fanMinSpeed := by
      apply writeSpeeds_follows hCommanded.distinct hCommanded.opened
      · simpa [speedsWritten] using hWritten
      · exact fun fan hMem hEq => absurd (hEq ▸ (h fan hMem).unset) (h fan hMem).positive
    refine List.forall_mem_map.mpr fun fan hMem => ?_
    rw [setFanSpeed_fst (hCommanded.opened fan hMem)]
    exact hOutput fan hMem
  | @controlled newTemp written hPoint =>
    simp only [Followed, hPoint] at h
    have hOutput : ∀ fan ∈ s.loop.fans,
        (writeSpeeds (fanSpeed π s.loop.params s.loop.newTemp newTemp) written s.loop.fans s.smc
          fan.fanId).output = fanSpeed π s.loop.params s.loop.newTemp newTemp fan := by
      apply writeSpeeds_follows hCommanded.distinct hCommanded.opened
      · simpa [speedsWritten] using hWritten
      · exact fun fan hMem _ => h fan hMem
    refine List.forall_mem_map.mpr fun fan hMem => ?_
    rw [controlFan_fst (hCommanded.opened fan hMem)]
    exact hOutput fan hMem
  | @woke smc hPoint =>
    simp only [Followed, hPoint] at h
    have hSame : ∀ fan ∈ s.loop.fans, (smc fan.fanId).output = (s.smc fan.fanId).output := by
      simpa [speedsKept] using hKept
    exact fun fan hMem => (hSame fan hMem).trans (h fan hMem)
  | @opened caller _ hPoint =>
    cases caller <;> simp_all [Followed, Daemon.goto]
  | @manual caller fanId rest ok hPoint =>
    cases caller with
    | startup => simpa [Followed, hPoint] using h
    | loop =>
      simp only [Followed, hPoint] at h
      exact follows_setMode_if h
  | automatic hPoint =>
    simp only [Followed, hPoint] at h
    exact follows_setMode_if h
  | noFans hPoint | refused hPoint hChecked | accepted hPoint hChecked | allManual hPoint
  | allManualAgain hPoint | recalibrated hPoint | exiting hPoint hExit
  | continuing hPoint hExit | reloading hPoint hReload | keeping hPoint hReload | cleared hPoint
  | slept hPoint | pidDeleted hPoint | allAutomatic hPoint =>
    simp_all [Followed, Daemon.goto]

theorem Followed.inControl (h : Followed s) (hCommanded : Commanded s) (hSleep : s.point = .sleep) :
    InControl s := by
  intro fan hMem
  have hManual := hCommanded.manual
  simp only [Manual, hSleep] at hManual
  simp only [Followed, hSleep] at h
  exact ⟨hManual fan.fanId (List.mem_map_of_mem hMem), h fan hMem⟩

theorem followed_and_commanded_step (h : Commanded s ∧ Followed s)
    (hStep : daemonStep π s a = some t) (hUntroubled : Untroubled s a t) :
    Commanded t ∧ Followed t :=
  ⟨h.1.step hStep hUntroubled.1, h.2.step h.1 hStep hUntroubled⟩

theorem always_followed (π : Platform) (daemonize : Bool) (pid : ℤ) (pidFile : Option ℤ)
    (smc : Smc) {actions : List Action}
    (hUntroubled : (daemonMachine π).EachStep Untroubled (launch daemonize pid pidFile smc)
      actions) :
    (daemonMachine π).Always (fun s => Commanded s ∧ Followed s)
      (launch daemonize pid pidFile smc) actions := by
  apply Machine.always_of_invariant _ ⟨launch_commanded daemonize pid pidFile smc, trivial⟩
    hUntroubled
  exact fun s a t hBoth hStep hOk => followed_and_commanded_step hBoth hStep hOk

/-- Between the first reading and the exit, a process in which no write fails, every suspend is
detected and none changes a speed sleeps with every fan in manual mode at the speed decided for
it. -/
theorem sleeps_in_control (π : Platform) (daemonize : Bool) (pid : ℤ) (pidFile : Option ℤ)
    (smc : Smc) (actions : List Action)
    (hUntroubled : (daemonMachine π).EachStep Untroubled (launch daemonize pid pidFile smc)
      actions) :
    (daemonMachine π).Always (fun s => s.point = .sleep → InControl s)
      (launch daemonize pid pidFile smc) actions := by
  have hAlways := always_followed π daemonize pid pidFile smc hUntroubled
  exact hAlways.mono fun _ hBoth hSleep => hBoth.2.inControl hBoth.1 hSleep

theorem sleeps_in_control_sample :
    (daemonMachine Platform.wrap).Always (fun s => s.point = .sleep → InControl s) sampleLaunch
      (sampleStart 50 ++ [.proceed] ++ samplePass 90 ++ [.slept none] ++ samplePass 70) :=
  sleeps_in_control Platform.wrap false 4242 none (fun _ => ⟨false, 0⟩) _ (by decide +kernel)

end Mbpfan
