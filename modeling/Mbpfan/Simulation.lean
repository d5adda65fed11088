import Mbpfan.Transition

/-!
# The daemon runs the loop

Whatever the signals and the calls that fail, the variables of the loop are those of a run of
the loop machine from a startup that passed the checks: its passes are the iterations of the
daemon, each with the file it has read before, if it has read one.
-/

namespace Mbpfan

open Library

/-- The startup and the passes of the process so far, with the file read for the next pass. -/
structure Past where
  params : Params
  fans : List Fan
  first : Reading
  passes : List Pass
  pending : Option ConfFile

def recordPast (past : Past) (s : Daemon) (a : Action) (_ : Daemon) : Past :=
  match a, s.point with
  | .reading newTemp _, .firstReading => ⟨s.loop.params, s.loop.fans, newTemp, [], none⟩
  | .file content, .openSettings .loop => { past with pending := some content }
  | .reading newTemp _, .control =>
    { past with passes := past.passes ++ [⟨past.pending, newTemp⟩], pending := none }
  | _, _ => past

structure Replayed (π : Platform) (past : Past) (s : Loop) : Prop where
  opened : ∀ fan ∈ past.fans, fan.file = true
  checked : PassesChecks past.params past.fans
  run : (loopMachine π).run (startup π past.params past.fans past.first) past.passes = some s

def Traced (π : Platform) (s : Daemon) (past : Past) : Prop :=
  match s.point with
  | .setFansMan .startup _ | .firstReading => s.loop.Checked
  | .recalibrate | .testExit | .testReload | .openSettings .loop | .sleep | .setFansMan .loop _
  | .deletePid | .setFansAuto _ => Replayed π past s.loop ∧ past.pending = none
  | .applySettings .loop settings =>
    Replayed π past s.loop ∧ ∃ content, past.pending = some content ∧ readSettings content = settings
  | .clearReload | .control => ∃ r, Replayed π past r ∧ s.loop = r.reloadIf past.pending
  | _ => True

def noPast : Past := ⟨defaultParams, [], 0, [], none⟩

variable {π : Platform} {s t : Daemon} {a : Action} {past : Past}

theorem recordPast_start {next : Start} (hPoint : s.point = .start next) :
    recordPast past s a t = past := by
  cases a <;> simp [recordPast, hPoint]

theorem recordPast_proceed : recordPast past s .proceed t = past := rfl

theorem Replayed.pass {r : Loop} (h : Replayed π past r) (newTemp : Reading) :
    Replayed π { past with passes := past.passes ++ [⟨past.pending, newTemp⟩], pending := none }
      (controlIteration π (r.reloadIf past.pending) newTemp) := by
  refine ⟨h.opened, h.checked, ?_⟩
  rw [Machine.run_append, h.run]
  rfl

theorem Traced.step (hOpened : ∀ fan ∈ s.loop.fans, fan.file = true) (h : Traced π s past)
    (hStep : daemonStep π s a = some t) :
    (∀ fan ∈ t.loop.fans, fan.file = true) ∧ Traced π t (recordPast past s a t) := by
  cases transition_of_step hStep with
  | hungUp | stopped => exact ⟨hOpened, h⟩
  | killed => exact ⟨hOpened, trivial⟩
  | starting hPoint hStart =>
    rw [recordPast_start hPoint]
    obtain ⟨point, pidFile, rfl, hEarly⟩ := startStep_frame hStart
    cases hEarly <;> exact ⟨hOpened, trivial⟩
  | foundFans hPoint => exact ⟨fun _ => retrieveFans_file, trivial⟩
  | @opened caller content hPoint =>
    refine ⟨hOpened, ?_⟩
    cases caller with
    | startup => exact trivial
    | loop =>
      simp only [Traced, hPoint] at h
      simp only [Traced, recordPast, hPoint, Daemon.goto]
      exact ⟨⟨h.1.opened, h.1.checked, h.1.run⟩, content, rfl, rfl⟩
  | configured hPoint => exact ⟨retrieve_opened hOpened _, trivial⟩
  | reconfigured hPoint =>
    refine ⟨retrieve_opened hOpened _, ?_⟩
    simp only [Traced, hPoint] at h
    obtain ⟨hReplayed, content, hPending, rfl⟩ := h
    exact ⟨s.loop, hReplayed, by rw [recordPast_proceed, hPending]; rfl⟩
  | firstReading hPoint =>
    refine ⟨startup_opened hOpened _, ?_⟩
    simp only [Traced, hPoint] at h
    simp only [Traced, recordPast, hPoint, and_true]
    exact ⟨hOpened, h, rfl⟩
  | @controlled newTemp _ hPoint =>
    refine ⟨(controlIteration_opened _).mpr hOpened, ?_⟩
    simp only [Traced, hPoint] at h
    obtain ⟨r, hReplayed, hLoop⟩ := h
    simp only [Traced, recordPast, hPoint, hLoop, and_true]
    exact hReplayed.pass newTemp
  | keeping hPoint hReload =>
    refine ⟨hOpened, ?_⟩
    simp only [Traced, hPoint] at h
    exact ⟨s.loop, h.1, by rw [recordPast_proceed, h.2]; rfl⟩
  | cleared hPoint =>
    simp only [Traced, hPoint] at h
    exact ⟨hOpened, by simpa [Traced, recordPast, hPoint] using h⟩
  | @manual caller _ _ _ hPoint =>
    cases caller <;> simp_all [Traced, recordPast]
  | noFans hPoint | refused hPoint hChecked | accepted hPoint hChecked | allManual hPoint
  | allManualAgain hPoint | recalibrated hPoint | exiting hPoint hExit | continuing hPoint hExit
  | reloading hPoint hReload | slept hPoint | woke hPoint | pidDeleted hPoint | automatic hPoint
  | allAutomatic hPoint =>
    simp_all [Traced, recordPast, Daemon.goto]

/-- After every iteration of the daemon its variables are those the loop machine reaches in
the passes recorded. -/
theorem daemon_simulates_loop (π : Platform) (daemonize : Bool) (pid : ℤ) (pidFile : Option ℤ)
    (smc : Smc) (past : Past) (actions : List Action) :
    ((daemonMachine π).observe recordPast).Always
      (fun s => s.1.point = .sleep → Replayed π s.2 s.1.loop)
      (launch daemonize pid pidFile smc, past) actions := by
  have hAlways : ((daemonMachine π).observe recordPast).Always
      (fun s => (∀ fan ∈ s.1.loop.fans, fan.file = true) ∧ Traced π s.1 s.2)
      (launch daemonize pid pidFile smc, past) actions := by
    refine Machine.always_of_step ?_ ⟨by simp [launch], trivial⟩
    rintro ⟨s, before⟩ a ⟨t, after⟩ ⟨hOpened, hTraced⟩ hStep
    obtain ⟨hTake, rfl⟩ := Machine.observe_step_eq_some.mp hStep
    exact Traced.step hOpened hTraced hTake
  apply hAlways.mono
  intro s hInv hSleep
  have hTraced := hInv.2
  simp only [Traced, hSleep] at hTraced
  exact hTraced.1

/-- What holds in all runs of the loop machine with a certain past holds after every iteration
of a daemon with that past. -/
theorem daemon_inherits {P : Loop → Prop} {C : Past → Prop}
    (hLoop : ∀ past : Past, (∀ fan ∈ past.fans, fan.file = true) →
      PassesChecks past.params past.fans → C past →
      (loopMachine π).Always P (startup π past.params past.fans past.first) past.passes)
    (daemonize : Bool) (pid : ℤ) (pidFile : Option ℤ) (smc : Smc) (past : Past)
    (actions : List Action) :
    ((daemonMachine π).observe recordPast).Always
      (fun s => s.1.point = .sleep → C s.2 → P s.1.loop)
      (launch daemonize pid pidFile smc, past) actions := by
  apply (daemon_simulates_loop π daemonize pid pidFile smc past actions).mono
  rintro s hReplayed hSleep hC
  obtain ⟨hOpened, hChecked, hRun⟩ := hReplayed hSleep
  exact (hLoop s.2 hOpened hChecked hC).last hRun

end Mbpfan
