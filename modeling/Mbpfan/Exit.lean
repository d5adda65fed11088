import Mbpfan.Transition

/-!
# Leaving the hardware in automatic mode

Every exit before `set_fans_man` leaves the hardware alone. After it the process exits only
through `cleanup_and_exit`, which walks the same list of fans.
-/

namespace Mbpfan

open Library

/-- The fans the daemon has switched to manual mode so far. -/
def recordSwitched (switched : List ℕ) (s : Daemon) (a : Action) (_ : Daemon) : List ℕ :=
  match a, s.point with
  | .returned true, .setFansMan _ (fanId :: _) => fanId :: switched
  | _, _ => switched

/-- Not the failure of a write to a manual file. -/
def modeWritten (s : Daemon) (a : Action) : Bool :=
  match s.point, a with
  | .setFansMan _ (_ :: _), .returned ok => ok
  | .setFansAuto (_ :: _), .returned ok => ok
  | _, _ => true

/-- What is known of a fan in manual mode at each point. -/
def Covered (s : Daemon) (id : ℕ) : Prop :=
  match s.point with
  | .start _ | .retrieveFans | .openSettings .startup | .applySettings .startup _ | .checks => False
  | .setFansAuto rest => id ∈ rest ∨ (s.smc id).manual = false
  | .exited => (s.smc id).manual = false
  | .killed => True
  | _ => id ∈ s.loop.ids

structure Accounted (s : Daemon × List ℕ) : Prop where
  covered : ∀ id ∈ s.2, Covered s.1 id
  listed : ∀ caller rest, s.1.point = .setFansMan caller rest → rest ⊆ s.1.loop.ids

variable {π : Platform} {s t : Daemon} {a : Action} {switched : List ℕ}

theorem accounted_iff : Accounted (s, switched) ↔ (∀ id ∈ switched, Covered s id) ∧
    ∀ caller rest, s.point = .setFansMan caller rest → rest ⊆ s.loop.ids :=
  ⟨fun h => ⟨h.covered, h.listed⟩, fun h => ⟨h.1, h.2⟩⟩

theorem Accounted.step (h : Accounted (s, switched)) (hStep : daemonStep π s a = some t)
    (hWritten : modeWritten s a = true) : Accounted (t, recordSwitched switched s a t) := by
  rw [accounted_iff] at h ⊢
  obtain ⟨hCovered, hListed⟩ := h
  cases transition_of_step hStep with
  | hungUp | stopped => exact ⟨hCovered, hListed⟩
  | killed => exact ⟨fun _ _ => trivial, nofun⟩
  | starting hPoint hStart =>
    obtain ⟨point, pidFile, rfl, hEarly⟩ := startStep_frame hStart
    cases hEarly <;> simp_all [Covered, recordSwitched]
  | opened hPoint =>
    rename_i caller _
    cases caller <;> simp_all [Covered, recordSwitched, Daemon.goto]
  | noFans hPoint | foundFans hPoint | configured hPoint | reconfigured hPoint
  | refused hPoint hChecked | allManual hPoint | allManualAgain hPoint
  | firstReading hPoint | recalibrated hPoint | exiting hPoint hExit | continuing hPoint hExit
  | reloading hPoint hReload | keeping hPoint hReload | cleared hPoint | controlled hPoint
  | slept hPoint | allAutomatic hPoint =>
    simp_all [Covered, recordSwitched, Daemon.goto]
  | accepted hPoint hChecked =>
    refine ⟨fun id hId => ?_, ?_⟩
    · simpa [Covered, hPoint] using hCovered id (by simpa [recordSwitched, hPoint] using hId)
    · simp_all [Daemon.goto]
  | woke hPoint => simp_all [Covered, recordSwitched]
  | pidDeleted hPoint => simp_all [Covered, recordSwitched]
  | @manual caller fanId rest ok hPoint =>
    obtain ⟨hHead, hRest⟩ := List.cons_subset.mp (hListed caller (fanId :: rest) hPoint)
    have hOk : ok = true := by simpa [modeWritten, hPoint] using hWritten
    subst hOk
    simp_all [Covered, recordSwitched]
  | @automatic fanId rest ok hPoint =>
    have hOk : ok = true := by simpa [modeWritten, hPoint] using hWritten
    subst hOk
    refine ⟨fun id hId => ?_, nofun⟩
    have hOld : id ∈ fanId :: rest ∨ (s.smc id).manual = false := by
      simpa [Covered, hPoint] using hCovered id (by simpa [recordSwitched, hPoint] using hId)
    exact setMode_pending hOld

/-- When the process reaches an exit call, no fan it has switched to manual mode is still in
manual mode. -/
theorem exit_leaves_automatic (π : Platform) (daemonize : Bool) (pid : ℤ) (pidFile : Option ℤ)
    (smc : Smc) (actions : List Action)
    (hWritten : ((daemonMachine π).observe recordSwitched).EachStep
      (fun s a _ => modeWritten s.1 a = true) (launch daemonize pid pidFile smc, []) actions) :
    ((daemonMachine π).observe recordSwitched).Always
      (fun s => s.1.point = .exited → ∀ id ∈ s.2, (s.1.smc id).manual = false)
      (launch daemonize pid pidFile smc, []) actions := by
  have hInit : Accounted (launch daemonize pid pidFile smc, []) := ⟨nofun, nofun⟩
  have hAlways := Machine.observe_always (J := Accounted)
    (fun s switched a t hInv hStep hOk => hInv.step hStep hOk) hInit hWritten
  apply hAlways.mono
  intro s hInv hExited id hId
  simpa [Covered, hExited] using hInv.covered id hId

theorem exit_leaves_automatic_sample :
    ((daemonMachine Platform.wrap).observe recordSwitched).Always
      (fun s => s.1.point = .exited → ∀ id ∈ s.2, (s.1.smc id).manual = false)
      (sampleLaunch, []) (sampleStart 50 ++ [.proceed] ++ samplePass 70 ++
        [.signal .term, .slept none, .proceed, .returned true, .returned true, .proceed]) :=
  exit_leaves_automatic Platform.wrap false 4242 none (fun _ => ⟨false, 0⟩) _ (by decide +kernel)

end Mbpfan
