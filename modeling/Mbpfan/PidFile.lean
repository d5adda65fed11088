import Mbpfan.Transition

/-!
# The PID file at exit

`go_daemon` writes the PID file and `cleanup_and_exit` deletes it. The exits of the detection
and of the startup checks lie between the two and do not know about it.
-/

namespace Mbpfan

open Library

/-- Whether `write_pid` has succeeded. -/
def recordWritten (written : Bool) (s : Daemon) (a : Action) (_ : Daemon) : Bool :=
  match a, s.point with
  | .returned true, .start .writePid => true
  | _, _ => written

/-- Not the failure of `remove` in `delete_pid`. -/
def pidRemoved (s : Daemon) (a : Action) : Bool :=
  match s.point, a with
  | .deletePid, .returned removed => removed
  | _, _ => true

/-- A process that has exited has not left behind the PID file it wrote. -/
def LeavesNoPid (s : Daemon × Bool) : Prop :=
  s.1.point = .exited → s.2 = true → s.1.pidFile = none

/-- The step is not a detection that finds nothing, nor a check that fails. -/
def StartsUp (s : Daemon) (a : Action) : Prop :=
  match s.point, a with
  | .start .retrieveSensors, .returned found => found = true
  | .retrieveFans, .fans probe => ∃ counter < numFans, (probe counter).isSome = true
  | .checks, .proceed => s.loop.Checked
  | _, _ => True

/-- The file is there from the moment it is written until `delete_pid`. -/
def FileKept (s : Daemon × Bool) : Prop :=
  match s.1.point with
  | .start .retrieveSensors => s.2 = true ∧ s.1.pidFile ≠ none
  | .start _ => s.2 = false
  | .setFansAuto _ => s.1.pidFile = none
  | .exited | .killed => True
  | _ => s.2 = true ∧ s.1.pidFile ≠ none

variable {π : Platform} {s t : Daemon} {a : Action} {written : Bool}

theorem retrieveFans_ne_nil_iff {probe : ℕ → Option FanFiles} :
    retrieveFans probe ≠ [] ↔ ∃ counter < numFans, (probe counter).isSome = true := by
  rw [Ne, retrieveFans, List.filterMap_eq_nil_iff, not_forall]
  apply exists_congr
  intro counter
  rw [Classical.not_imp, List.mem_range, Option.map_eq_none_iff, Option.isSome_iff_ne_none]

/-- The write of the file, the search for sensors, and the steps before them. -/
theorem startStep_cases {next : Start} (h : startStep s next a = some t) :
    (next = .writePid ∧ a = .returned true ∧
      t = { s with pidFile := some s.pid, point := .start .retrieveSensors }) ∨
    (next = .retrieveSensors ∧ ∃ found, a = .returned found ∧
      t = s.goto (if found then .retrieveFans else .exited)) ∨
    (next ≠ .retrieveSensors ∧ (next = .writePid → a = .returned false) ∧
      (t.point = .exited ∨ ∃ rest, t.point = .start rest ∧ rest ≠ .retrieveSensors)) := by
  revert h
  fun_cases startStep s next a <;> intro h <;> cases h
  case case1 | case2 | case3 => exact .inr (.inr ⟨by simp, by simp, .inr ⟨_, rfl, by simp⟩⟩)
  case case4 =>
    refine .inr (.inr ⟨by simp, by simp, .inr ⟨_, rfl, ?_⟩⟩)
    split_ifs <;> simp
  case case5 => exact .inr (.inr ⟨by simp, by simp, .inl rfl⟩)
  case case6 ok | case7 ok | case8 ok =>
    refine .inr (.inr ⟨by simp, by simp, ?_⟩)
    cases ok with
    | false => exact .inl rfl
    | true => exact .inr ⟨_, rfl, by simp⟩
  case case9 alive removed =>
    obtain ⟨_, _, hEq, rfl | rfl⟩ := readPid_frame s alive removed
    · exact .inr (.inr ⟨by simp, by simp, .inl (congrArg Daemon.point hEq)⟩)
    · exact .inr (.inr ⟨by simp, by simp, .inr ⟨_, congrArg Daemon.point hEq, by simp⟩⟩)
  case case10 => exact .inl ⟨rfl, rfl, rfl⟩
  case case11 => exact .inr (.inr ⟨by simp, fun _ => rfl, .inl rfl⟩)
  case case12 found => exact .inr (.inl ⟨rfl, found, rfl, rfl⟩)

theorem FileKept.start {next : Start} (h : FileKept (s, written))
    (hPoint : s.point = .start next) (hStep : startStep s next a = some t) :
    FileKept (t, recordWritten written s a t) ∧
      (LeavesNoPid (t, recordWritten written s a t) ↔ StartsUp s a) := by
  obtain ⟨rfl, rfl, rfl⟩ | ⟨rfl, found, rfl, rfl⟩ | ⟨hSensors, hWrite, hNext⟩ :=
    startStep_cases hStep
  · simp [FileKept, LeavesNoPid, StartsUp, recordWritten, hPoint]
  · simp only [FileKept, hPoint] at h
    cases found <;> simp [FileKept, LeavesNoPid, StartsUp, recordWritten, Daemon.goto, hPoint, h]
  · have hUnwritten : written = false := by
      cases next <;> simp_all [FileKept]
    have hRecord : recordWritten written s a t = false := by
      unfold recordWritten
      split
      · simp_all
      · exact hUnwritten
    have hStarts : StartsUp s a := by
      unfold StartsUp
      split <;> simp_all
    rw [hRecord]
    refine ⟨?_, iff_of_true nofun hStarts⟩
    obtain hExited | ⟨rest, hRest, hOther⟩ := hNext
    · simp [FileKept, hExited]
    · cases rest <;> simp_all [FileKept]

theorem startsUp_fans {probe : ℕ → Option FanFiles} (hPoint : s.point = .retrieveFans) :
    StartsUp s (.fans probe) ↔ retrieveFans probe ≠ [] := by
  simp only [retrieveFans_ne_nil_iff, StartsUp, hPoint]

theorem startsUp_signal (sig : Signal) : StartsUp s (.signal sig) := by
  unfold StartsUp
  split <;> simp_all

theorem FileKept.fans {probe : ℕ → Option FanFiles} (h : FileKept (s, written))
    (hPoint : s.point = .retrieveFans) (hStep : daemonStep π s (.fans probe) = some t) :
    FileKept (t, written) ∧ (LeavesNoPid (t, written) ↔ StartsUp s (.fans probe)) := by
  simp only [FileKept, hPoint] at h
  rw [startsUp_fans hPoint]
  obtain ⟨hFile, ⟨hNext, hFound⟩ | ⟨hNext, hFound⟩⟩ := retrieveFans_step hPoint hStep
  · simp [FileKept, LeavesNoPid, hNext, hFile, hFound, h]
  · simp [FileKept, LeavesNoPid, hNext, hFile, hFound, h]

theorem point_ne_exited (hStep : daemonStep π s a = some t) : s.point ≠ .exited := by
  intro hPoint
  simp [daemonStep, hPoint] at hStep

theorem FileKept.step (h : FileKept (s, written)) (hStep : daemonStep π s a = some t)
    (hRemoved : pidRemoved s a = true) :
    FileKept (t, recordWritten written s a t) ∧
      (LeavesNoPid (t, recordWritten written s a t) ↔ StartsUp s a) := by
  have hLeaves : LeavesNoPid (s, written) := fun hExited => absurd hExited (point_ne_exited hStep)
  cases transition_of_step hStep with
  | hungUp | stopped => exact ⟨h, iff_of_true hLeaves (startsUp_signal _)⟩
  | killed => exact ⟨trivial, iff_of_true nofun (startsUp_signal _)⟩
  | starting hPoint hStart => exact h.start hPoint hStart
  | noFans hPoint | foundFans hPoint => exact h.fans hPoint hStep
  | refused hPoint hChecked | accepted hPoint hChecked =>
    simp_all [FileKept, LeavesNoPid, StartsUp, recordWritten, Daemon.goto]
  | pidDeleted hPoint =>
    simp_all [FileKept, LeavesNoPid, StartsUp, recordWritten, pidRemoved]
  | opened hPoint | configured hPoint | reconfigured hPoint | manual hPoint | allManual hPoint
  | allManualAgain hPoint | firstReading hPoint | recalibrated hPoint | exiting hPoint hExit
  | continuing hPoint hExit | reloading hPoint hReload | keeping hPoint hReload | cleared hPoint
  | controlled hPoint | slept hPoint | woke hPoint | automatic hPoint | allAutomatic hPoint =>
    simp_all [FileKept, LeavesNoPid, StartsUp, recordWritten, Daemon.goto]

/-- When `delete_pid` does not fail, a process that exits has removed the PID file it wrote
exactly when it found sensors and a fan and its settings passed the checks. -/
theorem leavesNoPid_iff_startsUp (π : Platform) (daemonize : Bool) (pid : ℤ) (pidFile : Option ℤ)
    (smc : Smc) (actions : List Action)
    (hRemoved : ((daemonMachine π).observe recordWritten).EachStep
      (fun s a _ => pidRemoved s.1 a = true) (launch daemonize pid pidFile smc, false) actions) :
    ((daemonMachine π).observe recordWritten).Always LeavesNoPid
        (launch daemonize pid pidFile smc, false) actions ↔
      ((daemonMachine π).observe recordWritten).EachStep (fun s a _ => StartsUp s.1 a)
        (launch daemonize pid pidFile smc, false) actions := by
  have hKept : ((daemonMachine π).observe recordWritten).Always FileKept
      (launch daemonize pid pidFile smc, false) actions :=
    Machine.observe_always (fun _ _ _ _ hFile hStep hDone => (hFile.step hStep hDone).1) rfl hRemoved
  refine Machine.always_iff_of_always hKept hRemoved nofun ?_
  rintro ⟨s, written⟩ a ⟨t, next⟩ hFile - hStep hDone
  obtain ⟨hTake, rfl⟩ := Machine.observe_step_eq_some.mp hStep
  exact (hFile.step hTake hDone).2

def stoppedRun : List Action :=
  sampleStart 50 ++ [.proceed] ++ samplePass 70 ++
    [.signal .term, .slept none, .proceed, .returned true, .returned true, .proceed]

theorem leavesNoPid_iff_startsUp_sample :
    ((daemonMachine Platform.wrap).observe recordWritten).Always LeavesNoPid
        (sampleLaunch, false) stoppedRun ↔
      ((daemonMachine Platform.wrap).observe recordWritten).EachStep (fun s a _ => StartsUp s.1 a)
        (sampleLaunch, false) stoppedRun :=
  leavesNoPid_iff_startsUp Platform.wrap false 4242 none (fun _ => ⟨false, 0⟩) stoppedRun
    (by decide +kernel)

/-- A start in the foreground on a machine without fans. -/
def vainRun : List Action :=
  [.proceed, .proceed, .proceed, .proceed, .probed false false, .returned true, .returned true,
    .fans fun _ => none]

/-- The process exits and leaves the PID 4242 in the file. -/
theorem vain_start_leaves_pid :
    ((daemonMachine Platform.wrap).observe recordWritten).EachStep
        (fun s a _ => pidRemoved s.1 a = true) (sampleLaunch, false) vainRun ∧
      ¬ ((daemonMachine Platform.wrap).observe recordWritten).Always LeavesNoPid
        (sampleLaunch, false) vainRun := by
  refine ⟨by decide +kernel, fun h => ?_⟩
  have hLeft : LeavesNoPid _ := h.last rfl
  exact Option.some_ne_none _ (hLeft rfl rfl)

end Mbpfan
