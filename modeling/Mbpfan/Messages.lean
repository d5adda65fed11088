import Mbpfan.Files
import Mbpfan.Descriptors

/-!
# What the process prints

`mbp_log` and `perror` write to the descriptors 1 and 2, whatever is open there. In the foreground
that is what the process was started with. A daemon has closed both, and with fewer than three
sensors the output file of a fan is opened in their place, which takes every text for a speed.
-/

namespace Mbpfan

open Library

inductive Output
  | stdout
  | stderr

def Output.descriptor : Output → ℕ
  | .stdout => 1
  | .stderr => 2

def Files.append (files : Files) (path : CString) (text : List UInt8) : Files :=
  files.write path ((files path).getD [] ++ text)

variable {π : Platform} {around : Surroundings} {fanPath : CString} {files : Files}
  {redirected : Output → Option CString} {s t : Daemon} {a : Action}
  {table : Descriptors Stream}

/-! ## Messages that leave the files alone -/

/-- The points at which a daemon leaves the terminal. -/
def Detaching (point : Point) : Prop :=
  point = .start .fork ∨ point = .start .setsid ∨ point = .start .chdir

/-- The process keeps the standard streams: it passes by the points that close them. -/
structure Foreground (s : Daemon × Descriptors Stream) : Prop where
  flag : s.1.daemonize = false
  point : ¬ Detaching s.1.point
  standard : ∀ output : Output, s.2.entry output.descriptor = some .standard

theorem Foreground.separate (h : Foreground (s, table)) : Separate table := by
  intro counter
  have hOut : table.entry 1 = some .standard := h.standard .stdout
  have hErr : table.entry 2 = some .standard := h.standard .stderr
  rw [hOut, hErr]
  exact ⟨nofun, nofun⟩

theorem daemonize_step (hStep : daemonStep π s a = some t) : t.daemonize = s.daemonize := by
  cases transition_of_step hStep with
  | starting hPoint hStart =>
    obtain ⟨point, pidFile, rfl, _⟩ := startStep_frame hStart
    rfl
  | _ => rfl

theorem startStep_not_detaching {next : Start} (hFlag : s.daemonize = false)
    (hBefore : ¬ Detaching (.start next)) (hStep : startStep s next a = some t) :
    ¬ Detaching t.point := by
  revert hStep
  fun_cases startStep s next a <;> intro hStep <;> cases hStep
  case case9 alive removed =>
    obtain ⟨_, _, hEq, rfl | rfl⟩ := readPid_frame s alive removed <;> simp [hEq, Detaching]
  case case12 found => cases found <;> simp [Detaching, Daemon.goto]
  all_goals simp_all [Detaching, Daemon.goto]

theorem Foreground.step (h : Foreground (s, table)) (hStep : daemonStep π s a = some t) :
    Foreground (t, recordCalls around table s a t) where
  flag := (daemonize_step hStep).trans h.flag
  point := by
    have hPoint := h.point
    cases transition_of_step hStep with
    | starting hStarting hStart =>
      rw [hStarting] at hPoint
      exact startStep_not_detaching h.flag hPoint hStart
    | hungUp | stopped => exact hPoint
    | _ => simp [Detaching, Daemon.goto]
  standard output := by
    have hChdir : s.point ≠ .start .chdir := fun hEq => h.point (.inr (.inr hEq))
    have hKept : (callMachine Stream).Always
        (fun table => table.entry output.descriptor = some .standard) table (calls around s a) :=
      always_entry (h.standard output) (calls_keep_standard hChdir _)
    exact hKept.last (callMachine_run table _)

/-! ## Whole runs -/

/-- No message can reach a fan: a daemon with three sensors, or a process in the foreground. -/
def Screened (around : Surroundings) (s : Daemon × Descriptors Stream) : Prop :=
  3 ≤ around.sensors ∧ Laid around s ∨ Foreground s

theorem Screened.separate (h : Screened around (s, table)) : Separate table := by
  rcases h with ⟨_, hLaid⟩ | hForeground
  · exact hLaid.separate
  · exact hForeground.separate

theorem Screened.step (h : Screened around (s, table)) (hStep : daemonStep π s a = some t) :
    Screened around (t, recordCalls around table s a t) := by
  rcases h with ⟨hEnough, hLaid⟩ | hForeground
  · obtain ⟨hStays, hNext⟩ := hLaid.step (by omega) hStep
    exact .inl ⟨hEnough, hNext (hStays hEnough)⟩
  · exact .inr (hForeground.step hStep)

end Mbpfan
