import Mbpfan.Simulation
import Mbpfan.Forgetting

/-!
# Rereading an unchanged file

A daemon whose configuration file has the same content whenever it is opened runs its loop as if
no reload had ever been asked for, so that what holds of runs without reloads holds of it.
-/

namespace Mbpfan

open Library

/-- The file gives the values that are stored, or none. -/
def Settled (file : ConfFile) (stored : Params × List FanLimits) : Prop :=
  storedAfter [file] stored = stored

/-- Either no reload or one that finds the file. -/
def FindsFile (file : ConfFile) (reload : Option ConfFile) : Prop :=
  ∀ content ∈ reload, content = file

def Uneventful (file : ConfFile) (s : Daemon) (past : Past) : Prop :=
  match s.point with
  | .start _ | .retrieveFans | .openSettings .startup | .exited | .killed => True
  | .applySettings .startup settings => settings = readSettings file
  | .checks | .setFansMan .startup _ | .firstReading => Settled file s.loop.stored
  | _ => Settled file (past.params, past.fans.map Fan.limits) ∧
      (∀ a ∈ past.passes, FindsFile file a.reload) ∧ FindsFile file past.pending

variable {π : Platform} {file : ConfFile} {s t : Daemon} {a : Action} {past : Past} {loop : Loop}

/-! ## The loop -/

theorem override_override (result old : CInt) :
    override result (override result old) = override result old := by
  simp only [override]
  split_ifs <;> rfl

theorem settled_storedAfter (file : ConfFile) (stored : Params × List FanLimits) :
    Settled file (storedAfter [file] stored) := by
  have hParams :
      paramsAfter [file] (paramsAfter [file] stored.1) = paramsAfter [file] stored.1 := by
    simp only [paramsAfter, lastGiven, List.foldl_cons, List.foldl_nil, override_override]
  have hLimits (limits : FanLimits) :
      limitsAfter [file] (limitsAfter [file] limits) = limitsAfter [file] limits := by
    simp only [limitsAfter, lastGiven, List.foldl_cons, List.foldl_nil, override_override]
  rw [Settled, storedAfter, storedAfter, hParams, List.map_map]
  exact congrArg (Prod.mk _) (List.map_congr_left fun limits _ => hLimits limits)

theorem settled_retrieve (file : ConfFile) (loop : Loop) :
    Settled file (loop.retrieve (readSettings file)).stored := by
  have hStored : (loop.retrieve (readSettings file)).stored = storedAfter [file] loop.stored :=
    reloadIf_stored loop file
  rw [hStored]
  exact settled_storedAfter file loop.stored

/-- A reload that gives what is stored changes nothing. -/
theorem reloadIf_of_settled (h : Settled file loop.stored) : loop.reloadIf (some file) = loop := by
  obtain ⟨hParams, hLimits⟩ := Prod.mk.inj h
  have hFans : loop.fans.map (limited file) = loop.fans := by
    rw [Loop.stored, List.map_map] at hLimits
    refine (List.map_congr_left fun fan hMem => ?_).trans (List.map_id loop.fans)
    obtain ⟨-, hMin, hMax⟩ := FanLimits.mk.inj (List.map_inj_left.mp hLimits fan hMem)
    rw [limited]
    exact congrArg₂ (fun low high => { fan with fanMinSpeed := low, fanMaxSpeed := high }) hMin hMax
  have hPair : retrieveSettings file loop.params loop.fans = (loop.params, loop.fans) := by
    rw [retrieveSettings_eq, hFans]
    exact congrArg (Prod.mk · loop.fans) hParams
  simp only [Loop.reloadIf, hPair]

theorem pass_of_settled {a : Pass} (h : Settled file loop.stored)
    (hFinds : FindsFile file a.reload) :
    pass π loop a = controlIteration π loop a.reading := by
  rw [pass]
  cases hReload : a.reload with
  | none => rfl
  | some content => rw [hFinds content hReload, reloadIf_of_settled h]

theorem run_of_settled {passes : List Pass} (h : Settled file loop.stored)
    (hFinds : ∀ a ∈ passes, FindsFile file a.reload) :
    (loopMachine π).run loop passes = some (controlRun π loop (passes.map Pass.reading)) := by
  induction passes generalizing loop with
  | nil => rfl
  | cons a rest ih =>
    obtain ⟨hHead, hRest⟩ := List.forall_mem_cons.mp hFinds
    have hPass : pass π loop a = controlIteration π loop a.reading := pass_of_settled h hHead
    have hNext : Settled file (controlIteration π loop a.reading).stored := by
      rwa [controlIteration_stored]
    exact Machine.run_cons_eq_some.mpr ⟨_, congrArg some hPass, ih hNext hRest⟩

/-! ## The daemon -/

theorem findsFile_none : FindsFile file none := nofun

theorem Uneventful.step (h : Uneventful file s past) (hStep : daemonStep π s a = some t)
    (hFile : ∀ content, a = .file content → content = file) :
    Uneventful file t (recordPast past s a t) := by
  cases transition_of_step hStep with
  | hungUp | stopped => exact h
  | killed => exact trivial
  | starting hPoint hStart =>
    rw [recordPast_start hPoint]
    obtain ⟨point, pidFile, rfl, hEarly⟩ := startStep_frame hStart
    cases hEarly <;> exact trivial
  | @opened caller content hPoint =>
    obtain rfl : content = file := hFile content rfl
    cases caller with
    | startup => exact rfl
    | loop =>
      simp only [Uneventful, hPoint] at h
      simp only [Uneventful, recordPast, hPoint, Daemon.goto]
      exact ⟨h.1, h.2.1, fun other hOther => (Option.some_inj.mp hOther).symm⟩
  | configured hPoint =>
    simp only [Uneventful, hPoint] at h
    subst h
    exact settled_retrieve file s.loop
  | firstReading hPoint =>
    simp only [Uneventful, hPoint] at h
    simp only [Uneventful, recordPast, hPoint]
    exact ⟨h, List.forall_mem_nil _, findsFile_none⟩
  | controlled hPoint =>
    simp only [Uneventful, hPoint] at h
    simp only [Uneventful, recordPast, hPoint]
    obtain ⟨hSettled, hPasses, hPending⟩ := h
    refine ⟨hSettled, List.forall_mem_append.mpr ⟨hPasses, ?_⟩, findsFile_none⟩
    exact List.forall_mem_singleton.mpr hPending
  | noFans hPoint | foundFans hPoint | refused hPoint | allAutomatic hPoint => exact trivial
  | @manual caller _ _ _ hPoint =>
    simp only [Uneventful, hPoint] at h
    cases caller <;> exact h
  | reconfigured hPoint | accepted hPoint | allManual hPoint | allManualAgain hPoint
  | recalibrated hPoint | exiting hPoint | continuing hPoint | reloading hPoint | keeping hPoint
  | cleared hPoint | slept hPoint | woke hPoint | pidDeleted hPoint | automatic hPoint =>
    simp only [Uneventful, hPoint] at h
    exact h

/-- When the file is found with the same content each time, the variables of a sleeping daemon
are those of a run without reloads. -/
theorem unchanged_file_reloads (π : Platform) (daemonize : Bool) (pid : ℤ) (pidFile : Option ℤ)
    (smc : Smc) (past : Past) (file : ConfFile) (actions : List Action)
    (hFile : ∀ content, .file content ∈ actions → content = file) :
    ((daemonMachine π).observe recordPast).Always
      (fun s => s.1.point = .sleep → s.1.loop =
        controlRun π (startup π s.2.params s.2.fans s.2.first) (s.2.passes.map Pass.reading))
      (launch daemonize pid pidFile smc, past) actions := by
  have hEach : ((daemonMachine π).observe recordPast).EachStep
      (fun _ a _ => ∀ content, a = .file content → content = file)
      (launch daemonize pid pidFile smc, past) actions :=
    Machine.eachStep_of_mem fun a hMem _ _ content hEq => hFile content (hEq ▸ hMem)
  have hAlways : ((daemonMachine π).observe recordPast).Always
      (fun s => Uneventful file s.1 s.2) (launch daemonize pid pidFile smc, past) actions := by
    refine Machine.observe_always (fun s past a t hInv hTake hSame => ?_) trivial hEach
    exact Uneventful.step hInv hTake hSame
  apply ((daemon_simulates_loop π daemonize pid pidFile smc past actions).and hAlways).mono
  rintro ⟨s, past⟩ ⟨hReplayed, hInv⟩ (hSleep : s.point = .sleep)
  simp only [Uneventful, hSleep] at hInv
  obtain ⟨hSettled, hPasses, -⟩ := hInv
  have hRun := (hReplayed hSleep).run
  rw [run_of_settled (startup_stored (π := π) .. ▸ hSettled) hPasses, Option.some_inj] at hRun
  exact hRun.symm

/-- A sample process with the content of its file, which is asked to reload between its passes. -/
def sampleReread (file : ConfFile) : List Action :=
  [.proceed, .proceed, .proceed, .proceed, .probed false false, .returned true, .returned true,
    .fans sampleProbe, .file file, .proceed, .proceed, .returned true, .proceed,
    .reading 50 fun _ => true, .proceed] ++ samplePass 70 ++
    [.signal .hup, .slept none, .proceed, .proceed, .file file, .proceed, .proceed,
      .reading 80 fun _ => true]

theorem unchanged_file_reloads_sample :
    ((daemonMachine Platform.wrap).observe recordPast).Always
      (fun s => s.1.point = .sleep → s.1.loop = controlRun Platform.wrap
        (startup Platform.wrap s.2.params s.2.fans s.2.first) (s.2.passes.map Pass.reading))
      (sampleLaunch, ⟨defaultParams, [], 0, [], none⟩) (sampleReread minSpeedFile) :=
  unchanged_file_reloads Platform.wrap false 4242 none (fun _ => ⟨false, 0⟩) _ minSpeedFile _
    (by simp [sampleReread, samplePass])

end Mbpfan
