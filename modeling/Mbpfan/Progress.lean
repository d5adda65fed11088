import Mbpfan.Transition
import Mbpfan.Library.Potential

/-!
# What the daemon gets done

The process is never stuck before it has ended, and signals cost it no action of its own. So
a request to stop ends it, a request to reload is met, and the temperature keeps being read,
each within a fixed number of actions and whatever signals arrive meanwhile.
-/

namespace Mbpfan

open Library

/-- Not the delivery of a signal. -/
def Action.own : Action → Bool
  | .signal _ => false
  | _ => true

def Action.isReading : Action → Bool
  | .reading _ _ => true
  | _ => false

def Daemon.Ended (s : Daemon) : Prop := s.point = .exited ∨ s.point = .killed

/-- The actions still to come until the fans are sought. -/
def Start.ahead : Start → ℕ
  | .signalHup => 10
  | .signalTerm => 9
  | .signalQuit => 8
  | .signalInt => 7
  | .fork => 6
  | .setsid => 5
  | .chdir => 4
  | .readPid => 3
  | .writePid => 2
  | .retrieveSensors => 1

/-- A bound for the actions still to come. The loop is cut open where `control` is left or
where `testReload` is left, and the values there are parameters. -/
def Point.ahead (control testReload : ℕ) : Point → ℕ
  | .start next => control + 15 + next.ahead
  | .retrieveFans => control + 15
  | .openSettings .startup => control + 14
  | .applySettings .startup _ => control + 13
  | .checks => control + 12
  | .setFansMan .startup rest => control + 1 + rest.length
  | .firstReading => control
  | .testReload => testReload
  | .openSettings .loop => control + 3
  | .applySettings .loop _ => control + 2
  | .clearReload => control + 1
  | .control => control
  | .sleep => 26
  | .setFansMan .loop rest => 15 + rest.length
  | .recalibrate => 14
  | .testExit => 13
  | .deletePid => 12
  | .setFansAuto rest => 1 + rest.length
  | .exited | .killed => 0

/-- An answer of the environment with which the process goes on. -/
def Point.answer : Point → Action
  | .start .fork | .start .setsid | .start .chdir | .start .writePid | .start .retrieveSensors
  | .setFansMan _ (_ :: _) | .deletePid | .setFansAuto (_ :: _) => .returned false
  | .start .readPid => .probed false false
  | .retrieveFans => .fans fun _ => none
  | .openSettings _ => .file none
  | .firstReading | .control => .reading 0 fun _ => false
  | .sleep => .slept none
  | _ => .proceed

/-- The lists of fans to be written are no longer than `NUM_FANS`. -/
structure FewFans (s : Daemon) : Prop where
  ids : s.loop.ids.length ≤ numFans
  manual : ∀ caller rest, s.point = .setFansMan caller rest → rest.length ≤ numFans
  auto : ∀ rest, s.point = .setFansAuto rest → rest.length ≤ numFans

variable {π : Platform} {s t : Daemon} {a : Action} {as : List Action}

theorem length_retrieveFans_le (probe : ℕ → Option FanFiles) :
    (retrieveFans probe).length ≤ numFans :=
  (List.length_filterMap_le _ _).trans (Nat.le_of_eq List.length_range)

theorem FewFans.step (h : FewFans s) (hStep : daemonStep π s a = some t) : FewFans t := by
  obtain ⟨hIds, hManual, hAuto⟩ := h
  cases transition_of_step hStep with
  | hungUp | stopped => exact ⟨hIds, hManual, hAuto⟩
  | killed => exact ⟨hIds, nofun, nofun⟩
  | starting hPoint hStart =>
    obtain ⟨point, pidFile, rfl, hEarly⟩ := startStep_frame hStart
    cases hEarly <;> exact ⟨hIds, nofun, nofun⟩
  | @foundFans probe hPoint =>
    refine ⟨?_, nofun, nofun⟩
    exact (Nat.le_of_eq (List.length_map _)).trans (length_retrieveFans_le probe)
  | configured | reconfigured => exact ⟨by simpa using hIds, nofun, nofun⟩
  | accepted | woke =>
    refine ⟨hIds, fun caller rest hList => ?_, nofun⟩
    cases hList
    exact hIds
  | @manual caller fanId rest ok hPoint =>
    refine ⟨hIds, fun caller' rest' hList => ?_, nofun⟩
    cases hList
    exact (Nat.le_succ _).trans (hManual caller (fanId :: rest) hPoint)
  | firstReading | controlled => exact ⟨by simpa using hIds, nofun, nofun⟩
  | pidDeleted =>
    refine ⟨hIds, nofun, fun rest hList => ?_⟩
    cases hList
    exact hIds
  | @automatic fanId rest ok hPoint =>
    refine ⟨hIds, nofun, fun rest' hList => ?_⟩
    cases hList
    exact (Nat.le_succ _).trans (hAuto (fanId :: rest) hPoint)
  | noFans | opened | refused | allManual | allManualAgain | recalibrated | exiting | continuing
  | reloading | keeping | cleared | slept | allAutomatic => exact ⟨hIds, nofun, nofun⟩

theorem fewFans_launch (daemonize : Bool) (pid : ℤ) (pidFile : Option ℤ) (smc : Smc) :
    FewFans (launch daemonize pid pidFile smc) :=
  ⟨Nat.zero_le _, nofun, nofun⟩

theorem FewFans.run (h : FewFans s) (hRun : (daemonMachine π).run s as = some t) : FewFans t :=
  (Machine.always_of_step (fun _ _ _ hInv hStep => hInv.step hStep) h).last hRun

theorem ahead_le (h : FewFans s) {control testReload : ℕ} (hControl : 0 < control)
    (hReload : testReload ≤ control + 25) :
    s.point.ahead control testReload ≤ control + 25 := by
  have hManual := h.manual
  have hAuto := h.auto
  revert hManual hAuto
  cases s.point with
  | start next => cases next <;> simp [Point.ahead, Start.ahead]
  | setFansMan caller rest =>
    intro hManual _
    have hRest := hManual caller rest rfl
    cases caller <;> simp only [Point.ahead, numFans] at * <;> omega
  | setFansAuto rest =>
    intro _ hAuto
    have hRest := hAuto rest rfl
    simp only [Point.ahead, numFans] at *
    omega
  | openSettings caller => cases caller <;> simp [Point.ahead]
  | applySettings caller _ => cases caller <;> simp [Point.ahead]
  | testReload => exact fun _ _ => hReload
  | _ => simp only [Point.ahead]; omega

theorem ahead_startStep {next : Start} {control testReload : ℕ}
    (hStep : startStep s next a = some t) :
    1 + t.point.ahead control testReload ≤ (Point.start next).ahead control testReload := by
  revert hStep
  fun_cases startStep s next a <;> intro hStep <;> cases hStep
  case case4 | case6 | case7 | case8 | case12 =>
    simp only [Daemon.goto]
    split_ifs <;> simp [Point.ahead, Start.ahead] <;> omega
  case case9 alive removed =>
    obtain ⟨point, pidFile, hEq, rfl | rfl⟩ := readPid_frame s alive removed <;>
      simp only [hEq, Point.ahead, Start.ahead] <;> omega
  case case1 | case2 | case3 | case5 | case10 | case11 =>
    simp [Daemon.goto, Point.ahead, Start.ahead] <;> omega

/-- Where the loop is cut open, the conditions say why a run does not come through, or what
it brings in there. -/
theorem ahead_step {control testReload income : ℕ} (h : FewFans s)
    (hStep : daemonStep π s a = some t)
    (hContinuing : s.point = .testExit → s.doExit = false → testReload < 13)
    (hReloading : s.point = .testReload → t.point = .openSettings .loop →
      control + 3 < testReload)
    (hKeeping : s.point = .testReload → s.doReload = false → control < testReload)
    (hIncome : 27 ≤ control + income) :
    (if a.own then 1 else 0) + t.point.ahead control testReload ≤
      s.point.ahead control testReload + if a.isReading then income else 0 := by
  have hIds : s.loop.ids.length ≤ 10 := h.ids
  cases transition_of_step hStep with
  | hungUp | stopped => simp [Action.own, Action.isReading]
  | killed => simp [Action.own, Action.isReading, Daemon.goto, Point.ahead]
  | starting hPoint hStart =>
    have hPaid := @ahead_startStep s t a _ control testReload hStart
    have hOwn : (if a.own then 1 else 0) ≤ 1 := by split_ifs <;> omega
    rw [hPoint]
    omega
  | @opened caller content hPoint =>
    cases caller <;> simp [hPoint, Daemon.goto, Point.ahead, Action.own, Action.isReading] <;> omega
  | continuing hPoint hExit =>
    have hCut := hContinuing hPoint hExit
    simp [hPoint, Daemon.goto, Point.ahead, Action.own, Action.isReading]
    omega
  | reloading hPoint hReload =>
    have hCut := hReloading hPoint rfl
    simp [hPoint, Daemon.goto, Point.ahead, Action.own, Action.isReading]
    omega
  | keeping hPoint hReload =>
    have hCut := hKeeping hPoint hReload
    simp [hPoint, Daemon.goto, Point.ahead, Action.own, Action.isReading]
    omega
  | noFans hPoint | foundFans hPoint | configured hPoint | reconfigured hPoint
  | refused hPoint hChecked | accepted hPoint hChecked | allManual hPoint | allManualAgain hPoint
  | firstReading hPoint | recalibrated hPoint | exiting hPoint hExit | cleared hPoint
  | controlled hPoint | slept hPoint | woke hPoint | pidDeleted hPoint | allAutomatic hPoint =>
    simp [hPoint, Daemon.goto, Point.ahead, Action.own, Action.isReading] <;> omega
  | @manual caller fanId rest ok hPoint =>
    cases caller <;> simp [hPoint, Point.ahead, Action.own, Action.isReading] <;> omega
  | automatic hPoint =>
    simp [hPoint, Point.ahead, Action.own, Action.isReading]
    omega

theorem answer_own (point : Point) : point.answer.own = true := by
  cases point with
  | start next => cases next <;> rfl
  | setFansMan caller rest => cases rest <;> rfl
  | setFansAuto rest => cases rest <;> rfl
  | _ => rfl

theorem answer_isSome (h : ¬ s.Ended) : (daemonStep π s s.point.answer).isSome = true := by
  obtain ⟨point, _, _, _, _, _, loop, _⟩ := s
  obtain ⟨hExited, hKilled⟩ := not_or.mp h
  cases point with
  | start next => cases next <;> rfl
  | applySettings caller settings => cases caller <;> rfl
  | setFansMan caller rest => cases caller <;> cases rest <;> rfl
  | setFansAuto rest => cases rest <;> rfl
  | exited => exact absurd rfl hExited
  | killed => exact absurd rfl hKilled
  | _ => rfl

theorem not_stuck (h : ¬ s.Ended) : ∃ a t, a.own = true ∧ daemonStep π s a = some t :=
  ⟨s.point.answer, _, answer_own s.point, (Option.some_get (answer_isSome h)).symm⟩

/-! ## Requests are met -/

/-- The way out of the sample process, with a request to reload on it. -/
def sampleStop : List Action :=
  [.proceed, .signal .hup, .proceed, .returned true, .returned true, .proceed]

theorem doExit_step (hExit : s.doExit = true) (hStep : daemonStep π s a = some t) :
    t.doExit = true := by
  cases transition_of_step hStep with
  | stopped => rfl
  | starting hPoint hStart =>
    obtain ⟨point, pidFile, rfl, _⟩ := startStep_frame hStart
    exact hExit
  | _ => exact hExit

/-- A request to stop is met: after it the process takes at most 52 actions of its own,
whatever signals arrive, and it is not stuck before it has ended. -/
theorem stop_served (π : Platform) (daemonize : Bool) (pid : ℤ) (pidFile : Option ℤ) (smc : Smc)
    (before after : List Action)
    (hBefore : (daemonMachine π).run (launch daemonize pid pidFile smc) before = some s)
    (hExit : s.doExit = true) (hAfter : (daemonMachine π).run s after = some t) :
    after.countP Action.own ≤ 52 ∧
      (t.Ended ∨ ∃ a u, a.own = true ∧ daemonStep π t a = some u) := by
  have hFew := (fewFans_launch daemonize pid pidFile smc).run hBefore
  refine ⟨?_, (em t.Ended).imp_right fun hNot => not_stuck hNot⟩
  have hStep : ∀ s a t, FewFans s ∧ s.doExit = true → daemonStep π s a = some t → True →
      (FewFans t ∧ t.doExit = true) ∧ (if a.own then 1 else 0) + t.point.ahead 27 31 ≤
        s.point.ahead 27 31 + if a.isReading then 0 else 0 := by
    rintro s a t ⟨hInv, hStop⟩ hTake -
    refine ⟨⟨hInv.step hTake, doExit_step hStop hTake⟩, ?_⟩
    apply ahead_step hInv hTake
    · exact fun _ hGoOn => absurd hStop (by simp [hGoOn])
    · exact fun _ _ => by omega
    · exact fun _ _ => by omega
    · omega
  have hBound : after.countP Action.own + t.point.ahead 27 31 ≤
      s.point.ahead 27 31 + 0 * after.countP Action.isReading :=
    Machine.countP_le_of_potential (M := daemonMachine π) hStep ⟨hFew, hExit⟩
      (Machine.eachStep_of_forall fun _ _ _ _ => trivial) hAfter
  have hStart : s.point.ahead 27 31 ≤ 27 + 25 := ahead_le hFew (by omega) (by omega)
  omega

/-- The points from which the flag is cleared without another look at the file. -/
def Point.tooLate : Point → Bool
  | .applySettings .loop _ | .clearReload => true
  | _ => false

theorem stop_served_sample : ∃ s t,
    (daemonMachine Platform.wrap).run sampleLaunch (sampleStart 50 ++ [.signal .term]) = some s ∧
      (daemonMachine Platform.wrap).run s sampleStop = some t ∧
      sampleStop.countP Action.own ≤ 52 ∧
        (t.Ended ∨ ∃ a u, a.own = true ∧ daemonStep Platform.wrap t a = some u) :=
  ⟨_, _, rfl, rfl, stop_served Platform.wrap false 4242 none (fun _ => ⟨false, 0⟩)
    (sampleStart 50 ++ [.signal .term]) sampleStop rfl rfl rfl⟩

/-- The request waits, and the process has not turned to the file yet. -/
structure Pending (s : Daemon) : Prop where
  few : FewFans s
  flag : s.doReload = true
  early : s.point.tooLate = false
  before : s.point ≠ .openSettings .loop

theorem Pending.step (h : Pending s) (hStep : daemonStep π s a = some t)
    (hNot : t.point ≠ .openSettings .loop) : Pending t := by
  obtain ⟨hFew, hReload, hPoint, hOpen⟩ := h
  have hNext := hFew.step hStep
  cases transition_of_step hStep with
  | starting _ hStart =>
    obtain ⟨point, pidFile, rfl, hEarly⟩ := startStep_frame hStart
    cases hEarly <;> exact ⟨hNext, hReload, rfl, hNot⟩
  | @opened caller content hAt =>
    cases caller with
    | startup => exact ⟨hNext, hReload, rfl, hNot⟩
    | loop => exact absurd hAt hOpen
  | keeping _ hKept => exact absurd hReload (by simp [hKept])
  | reconfigured hAt | cleared hAt => simp [hAt, Point.tooLate] at hPoint
  | hungUp => exact ⟨hNext, rfl, hPoint, hNot⟩
  | stopped => exact ⟨hNext, hReload, hPoint, hNot⟩
  | _ => exact ⟨hNext, hReload, rfl, hNot⟩

theorem Pending.ahead_step (h : Pending s) (hStep : daemonStep π s a = some t)
    (hNot : t.point ≠ .openSettings .loop) :
    (if a.own then 1 else 0) + t.point.ahead 27 1 ≤
      s.point.ahead 27 1 + if a.isReading then 0 else 0 := by
  apply Mbpfan.ahead_step h.few hStep
  · exact fun _ _ => by omega
  · exact fun _ hOpened => absurd hOpened hNot
  · exact fun _ hKept => absurd h.flag (by simp [hKept])
  · omega

/-- A request to reload is met: within 53 actions of its own the process turns to the
configuration file, unless it is past reading it already when the signal arrives. -/
theorem reload_served (π : Platform) (daemonize : Bool) (pid : ℤ) (pidFile : Option ℤ) (smc : Smc)
    (before after : List Action)
    (hBefore : (daemonMachine π).run (launch daemonize pid pidFile smc) before = some s)
    (hReload : s.doReload = true) (hPoint : s.point.tooLate = false)
    (hAfter : (daemonMachine π).run s after = some t) (hLong : 53 ≤ after.countP Action.own) :
    ∃ part rest r, after = part ++ rest ∧ (daemonMachine π).run s part = some r ∧
      r.point = .openSettings .loop ∧ part.countP Action.own ≤ 53 := by
  rcases eq_or_ne s.point (.openSettings .loop) with hOpen | hOpen
  · exact ⟨[], after, s, rfl, rfl, hOpen, Nat.zero_le _⟩
  have hPending : Pending s :=
    ⟨(fewFans_launch daemonize pid pidFile smc).run hBefore, hReload, hPoint, hOpen⟩
  have hPaid : ∀ {as : List Action} {t : Daemon},
      (daemonMachine π).EachStep (fun _ _ t => t.point ≠ .openSettings .loop) s as →
      (daemonMachine π).run s as = some t → as.countP Action.own ≤ 52 := by
    intro as t hEach hRun
    have hBound : as.countP Action.own + t.point.ahead 27 1 ≤
        s.point.ahead 27 1 + 0 * as.countP Action.isReading :=
      Machine.countP_le_of_potential (M := daemonMachine π)
        (fun s a t hInv hTake hNot => ⟨hInv.step hTake hNot, hInv.ahead_step hTake hNot⟩)
        hPending hEach hRun
    have hStart : s.point.ahead 27 1 ≤ 27 + 25 := ahead_le hPending.few (by omega) (by omega)
    omega
  obtain ⟨first, a, rest, r, u, rfl, hFirst, hEach, hTake, hOpened⟩ :=
    Machine.exists_first_of_not_eachStep fun hEach => absurd (hPaid hEach hAfter) (by omega)
  refine ⟨first ++ [a], rest, u, by simp, ?_, not_not.mp hOpened, ?_⟩
  · rw [Machine.run_append, hFirst]
    exact Machine.run_cons_eq_some.mpr ⟨u, hTake, rfl⟩
  · have hShort := hPaid hEach hFirst
    rw [List.countP_append]
    have hOne : [a].countP Action.own ≤ 1 := List.countP_le_length
    omega

/-- A pass with a reload, then passes without one. -/
def sampleReload : List Action :=
  [.proceed, .proceed, .proceed, .file none, .proceed, .proceed, .reading 70 fun _ => true,
    .slept none] ++ (List.replicate 12 (samplePass 70 ++ [.slept none])).flatten

theorem reload_served_sample : ∃ s part rest r,
    (daemonMachine Platform.wrap).run sampleLaunch (sampleStart 50 ++ [.signal .hup]) = some s ∧
      sampleReload = part ++ rest ∧ (daemonMachine Platform.wrap).run s part = some r ∧
        r.point = .openSettings .loop ∧ part.countP Action.own ≤ 53 :=
  have hServed := reload_served Platform.wrap false 4242 none (fun _ => ⟨false, 0⟩)
    (sampleStart 50 ++ [.signal .hup]) sampleReload rfl rfl rfl rfl (by decide)
  ⟨_, _, _, _, rfl, hServed.choose_spec.choose_spec.choose_spec⟩

/-- The temperature keeps being read: between two readings the process takes at most 26
actions of its own, however many signals arrive. -/
theorem control_not_starved (π : Platform) (daemonize : Bool) (pid : ℤ) (pidFile : Option ℤ)
    (smc : Smc) (before part : List Action)
    (hBefore : (daemonMachine π).run (launch daemonize pid pidFile smc) before = some s)
    (hPart : (daemonMachine π).run s part = some t) :
    part.countP Action.own ≤ 26 * (part.countP Action.isReading + 1) := by
  have hFew := (fewFans_launch daemonize pid pidFile smc).run hBefore
  have hStep : ∀ s a t, FewFans s → daemonStep π s a = some t → True →
      FewFans t ∧ (if a.own then 1 else 0) + t.point.ahead 1 5 ≤
        s.point.ahead 1 5 + if a.isReading then 26 else 0 := by
    intro s a t hInv hTake _
    refine ⟨hInv.step hTake, ?_⟩
    apply ahead_step hInv hTake
    · exact fun _ _ => by omega
    · exact fun _ _ => by omega
    · exact fun _ _ => by omega
    · omega
  have hBound : part.countP Action.own + t.point.ahead 1 5 ≤
      s.point.ahead 1 5 + 26 * part.countP Action.isReading :=
    Machine.countP_le_of_potential (M := daemonMachine π) hStep hFew
      (Machine.eachStep_of_forall fun _ _ _ _ => trivial) hPart
  have hStart : s.point.ahead 1 5 ≤ 1 + 25 := ahead_le hFew (by omega) (by omega)
  omega

theorem control_not_starved_sample : ∃ s t,
    (daemonMachine Platform.wrap).run sampleLaunch (sampleStart 50 ++ [.signal .hup]) = some s ∧
      (daemonMachine Platform.wrap).run s sampleReload = some t ∧
      sampleReload.countP Action.own ≤ 26 * (sampleReload.countP Action.isReading + 1) :=
  ⟨_, _, rfl, rfl, control_not_starved Platform.wrap false 4242 none (fun _ => ⟨false, 0⟩)
    (sampleStart 50 ++ [.signal .hup]) sampleReload rfl rfl⟩

end Mbpfan
