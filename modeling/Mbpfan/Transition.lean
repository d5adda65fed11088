import Mbpfan.Daemon

/-!
# What a step of the daemon can do

The step function told apart, once for all invariants.
-/

namespace Mbpfan

open Library

inductive Transition (π : Platform) (s : Daemon) : Action → Daemon → Prop
  | hungUp (hHandled : Signal.hup.handled s.point = true) :
      Transition π s (.signal .hup) { s with doReload := true }
  | stopped {sig : Signal} (hSig : sig ≠ .hup) (hHandled : sig.handled s.point = true) :
      Transition π s (.signal sig) { s with doExit := true }
  | killed {sig : Signal} {next : Start} (hPoint : s.point = .start next)
      (hHandled : sig.handled s.point = false) : Transition π s (.signal sig) (s.goto .killed)
  | starting {next : Start} {a : Action} {t : Daemon} (hPoint : s.point = .start next)
      (hStep : startStep s next a = some t) : Transition π s a t
  | noFans {probe : ℕ → Option FanFiles} (hPoint : s.point = .retrieveFans) :
      Transition π s (.fans probe) (s.goto .exited)
  | foundFans {probe : ℕ → Option FanFiles} (hPoint : s.point = .retrieveFans) :
      Transition π s (.fans probe)
        { s with
          loop := { s.loop with fans := retrieveFans probe }
          point := .openSettings .startup }
  | opened {caller : Caller} {content : ConfFile} (hPoint : s.point = .openSettings caller) :
      Transition π s (.file content) (s.goto (.applySettings caller (readSettings content)))
  | configured {settings : Option Settings} (hPoint : s.point = .applySettings .startup settings) :
      Transition π s .proceed { s with loop := s.loop.retrieve settings, point := .checks }
  | reconfigured {settings : Option Settings} (hPoint : s.point = .applySettings .loop settings) :
      Transition π s .proceed { s with loop := s.loop.retrieve settings, point := .clearReload }
  | refused (hPoint : s.point = .checks) (hChecked : ¬ s.loop.Checked) :
      Transition π s .proceed (s.goto .exited)
  | accepted (hPoint : s.point = .checks) (hChecked : s.loop.Checked) :
      Transition π s .proceed (s.goto (.setFansMan .startup s.loop.ids))
  | manual {caller : Caller} {fanId : ℕ} {rest : List ℕ} {ok : Bool}
      (hPoint : s.point = .setFansMan caller (fanId :: rest)) :
      Transition π s (.returned ok)
        { s with
          smc := if ok then s.smc.setMode fanId true else s.smc
          point := .setFansMan caller rest }
  | allManual (hPoint : s.point = .setFansMan .startup []) :
      Transition π s .proceed (s.goto .firstReading)
  | allManualAgain (hPoint : s.point = .setFansMan .loop []) :
      Transition π s .proceed (s.goto .recalibrate)
  | firstReading {newTemp : Reading} {written : ℕ → Bool} (hPoint : s.point = .firstReading) :
      Transition π s (.reading newTemp written)
        { s with
          loop := startup π s.loop.params s.loop.fans newTemp
          smc := writeSpeeds Fan.fanMinSpeed written s.loop.fans s.smc
          point := .recalibrate }
  | recalibrated (hPoint : s.point = .recalibrate) : Transition π s .proceed (s.goto .testExit)
  | exiting (hPoint : s.point = .testExit) (hExit : s.doExit = true) :
      Transition π s .proceed (s.goto .deletePid)
  | continuing (hPoint : s.point = .testExit) (hExit : s.doExit = false) :
      Transition π s .proceed (s.goto .testReload)
  | reloading (hPoint : s.point = .testReload) (hReload : s.doReload = true) :
      Transition π s .proceed (s.goto (.openSettings .loop))
  | keeping (hPoint : s.point = .testReload) (hReload : s.doReload = false) :
      Transition π s .proceed (s.goto .control)
  | cleared (hPoint : s.point = .clearReload) :
      Transition π s .proceed { s with doReload := false, point := .control }
  | controlled {newTemp : Reading} {written : ℕ → Bool} (hPoint : s.point = .control) :
      Transition π s (.reading newTemp written)
        { s with
          loop := controlIteration π s.loop newTemp
          smc := writeSpeeds (fanSpeed π s.loop.params s.loop.newTemp newTemp) written
            s.loop.fans s.smc
          point := .sleep }
  | slept (hPoint : s.point = .sleep) : Transition π s (.slept none) (s.goto .testExit)
  | woke {smc : Smc} (hPoint : s.point = .sleep) :
      Transition π s (.slept (some smc))
        { s with smc := smc, point := .setFansMan .loop s.loop.ids }
  | pidDeleted {removed : Bool} (hPoint : s.point = .deletePid) :
      Transition π s (.returned removed)
        { s with
          pidFile := if removed then none else s.pidFile
          point := .setFansAuto s.loop.ids }
  | automatic {fanId : ℕ} {rest : List ℕ} {ok : Bool}
      (hPoint : s.point = .setFansAuto (fanId :: rest)) :
      Transition π s (.returned ok)
        { s with
          smc := if ok then s.smc.setMode fanId false else s.smc
          point := .setFansAuto rest }
  | allAutomatic (hPoint : s.point = .setFansAuto []) :
      Transition π s .proceed (s.goto .exited)

variable {π : Platform} {s t : Daemon} {a : Action}

theorem start_of_not_handled {sig : Signal} (h : sig.handled s.point = false) :
    ∃ next, s.point = .start next := by
  revert h
  cases s.point with
  | start next => exact fun _ => ⟨next, rfl⟩
  | _ => simp [Signal.handled]

theorem transition_of_deliver (sig : Signal) : Transition π s (.signal sig) (s.deliver sig) := by
  unfold Daemon.deliver
  split_ifs with hHandled
  · cases sig with
    | hup => exact .hungUp hHandled
    | _ => exact .stopped nofun hHandled
  · have hFalse := Bool.eq_false_of_not_eq_true hHandled
    obtain ⟨next, hPoint⟩ := start_of_not_handled hFalse
    exact .killed hPoint hFalse

theorem transition_of_step (h : daemonStep π s a = some t) : Transition π s a t := by
  revert h
  fun_cases daemonStep π s a <;> intro h
  case case1 | case2 | case24 => cases h
  case case3 => cases h; exact transition_of_deliver _
  case case4 => exact .starting ‹_› h
  case case5 =>
    split_ifs at h <;> cases h
    · exact .noFans ‹_›
    · exact .foundFans ‹_›
  case case6 => cases h; exact .opened ‹_›
  case case7 => cases h; exact .configured ‹_›
  case case8 => cases h; exact .reconfigured ‹_›
  case case9 hPoint =>
    split_ifs at h with hChecked <;> cases h
    · exact .accepted hPoint hChecked
    · exact .refused hPoint hChecked
  case case10 => cases h; exact .manual ‹_›
  case case11 => cases h; exact .allManual ‹_›
  case case12 => cases h; exact .allManualAgain ‹_›
  case case13 => cases h; exact .firstReading ‹_›
  case case14 => cases h; exact .recalibrated ‹_›
  case case15 hPoint =>
    split_ifs at h with hExit <;> cases h
    · exact .exiting hPoint hExit
    · exact .continuing hPoint (Bool.eq_false_of_not_eq_true hExit)
  case case16 hPoint =>
    split_ifs at h with hReload <;> cases h
    · exact .reloading hPoint hReload
    · exact .keeping hPoint (Bool.eq_false_of_not_eq_true hReload)
  case case17 => cases h; exact .cleared ‹_›
  case case18 => cases h; exact .controlled ‹_›
  case case19 => cases h; exact .slept ‹_›
  case case20 => cases h; exact .woke ‹_›
  case case21 => cases h; exact .pidDeleted ‹_›
  case case22 => cases h; exact .automatic ‹_›
  case case23 => cases h; exact .allAutomatic ‹_›

theorem retrieveFans_step {probe : ℕ → Option FanFiles} (hPoint : s.point = .retrieveFans)
    (hStep : daemonStep π s (.fans probe) = some t) :
    t.pidFile = s.pidFile ∧ (t.point = .exited ∧ retrieveFans probe = [] ∨
      t.point = .openSettings .startup ∧ retrieveFans probe ≠ []) := by
  simp only [daemonStep, hPoint, Option.some.injEq] at hStep
  subst hStep
  split_ifs with hNone
  · exact ⟨rfl, .inl ⟨rfl, hNone⟩⟩
  · exact ⟨rfl, .inr ⟨rfl, hNone⟩⟩

@[simp] theorem startStep_signal (next : Start) (sig : Signal) :
    startStep s next (.signal sig) = none := by
  cases next <;> rfl

/-- The points reached before the fans are sought. -/
inductive Early : Point → Prop
  | start {next : Start} : Early (.start next)
  | retrieveFans : Early .retrieveFans
  | exited : Early .exited

theorem readPid_frame (s : Daemon) (alive removed : Bool) :
    ∃ point pidFile, readPid s alive removed = { s with point := point, pidFile := pidFile } ∧
      (point = .exited ∨ point = .start .writePid) := by
  rw [readPid]
  split
  · exact ⟨_, s.pidFile, rfl, .inr rfl⟩
  · split_ifs
    · exact ⟨_, _, rfl, .inr rfl⟩
    · exact ⟨_, s.pidFile, rfl, .inr rfl⟩
    · exact ⟨_, s.pidFile, rfl, .inl rfl⟩

/-- Until the fans are sought nothing but the point and the PID file changes. -/
theorem startStep_frame {next : Start} (h : startStep s next a = some t) :
    ∃ point pidFile, t = { s with point := point, pidFile := pidFile } ∧ Early point := by
  revert h
  fun_cases startStep s next a <;> intro h <;> cases h
  case case4 | case1 | case2 | case3 => exact ⟨_, s.pidFile, rfl, .start⟩
  case case5 | case11 => exact ⟨_, s.pidFile, rfl, .exited⟩
  case case6 | case7 | case8 =>
    refine ⟨_, s.pidFile, rfl, ?_⟩
    split_ifs
    · exact .start
    · exact .exited
  case case9 =>
    obtain ⟨point, pidFile, hEq, rfl | rfl⟩ := readPid_frame s _ _
    · exact ⟨_, pidFile, hEq, .exited⟩
    · exact ⟨_, pidFile, hEq, .start⟩
  case case10 => exact ⟨_, _, rfl, .start⟩
  case case12 =>
    refine ⟨_, s.pidFile, rfl, ?_⟩
    split_ifs
    · exact .retrieveFans
    · exact .exited

end Mbpfan
