import Mbpfan.InControl
import Mbpfan.Limits
import Mbpfan.Simulation

/-!
# The fans run within their limits

The law of the loop for its reloads reaches the hardware: the daemon simulates the loop, and while
no write fails the registers follow the speeds that the loop has stored.
-/

namespace Mbpfan

open Library

/-- The int products of the startup fit, and every file read since has left parameters in order,
limits that the steps fit, and a speed that could be carried over to the next reading. -/
structure FittingPast (π : Platform) (past : Past) : Prop where
  products : ∀ fan ∈ past.fans, NoOverflow past.params fan
  reloads : (loopMachine π).EachStep
    (fun s a _ => a.settings.isSome → (s.reloadIf a.reload).Checked ∧
      (s.reloadIf a.reload).StepsFit ∧ CarriesOver (s.reloadIf a.reload) a.reading)
    (startup π past.params past.fans past.first) past.passes

/-- The hardware runs the fan at a speed within the limits in force. -/
structure RunsWithin (smc : Smc) (fan : Fan) : Prop where
  manual : (smc fan.fanId).manual = true
  min : fan.fanMinSpeed ≤ (smc fan.fanId).output
  max : (smc fan.fanId).output ≤ fan.fanMaxSpeed

variable {π : Platform} {past : Past}

theorem FittingPast.always_within (h : FittingPast π past)
    (hOpened : ∀ fan ∈ past.fans, fan.file = true)
    (hChecks : PassesChecks past.params past.fans) :
    (loopMachine π).Always (fun s => FitToRun s ∧ s.Checked ∧ s.Within)
      (startup π past.params past.fans past.first) past.passes := by
  refine Machine.always_of_invariant ?_
    ⟨⟨startup_opened hOpened _, startup_stepsFit hOpened hChecks h.products _⟩,
      startup_checked hChecks _, startup_within hOpened hChecks _⟩ h.reloads
  rintro s a t ⟨hHeld, hChecked, hWithin⟩ hStep hFile
  rw [← (loopMachine_step a).mp hStep]
  have hSteps : a.settings.isSome → (s.reloadIf a.reload).StepsFit := fun h => (hFile h).2.1
  have hNext : (s.reloadIf a.reload).Checked := reloadIf_of_file hChecked fun h => (hFile h).1
  refine ⟨(hHeld.reloadIf a hSteps).controlIteration a.reading,
    (controlIteration_checked a.reading).mpr hNext, ?_⟩
  exact (hHeld.pass_within_iff hWithin hNext hSteps).mpr fun h => (hFile h).2.2

/-- While the files that are reread fit, a process in which no write fails, every suspend is
detected and none changes a speed sleeps with every fan running within the limits in force. -/
theorem fans_run_within (π : Platform) (daemonize : Bool) (pid : ℤ) (pidFile : Option ℤ)
    (smc : Smc) (past : Past) (actions : List Action)
    (hUntroubled : (daemonMachine π).EachStep Untroubled (launch daemonize pid pidFile smc)
      actions) :
    ((daemonMachine π).observe recordPast).Always
      (fun s => s.1.point = .sleep → FittingPast π s.2 →
        ∀ fan ∈ s.1.loop.fans, RunsWithin s.1.smc fan)
      (launch daemonize pid pidFile smc, past) actions := by
  have hControl : ((daemonMachine π).observe recordPast).Always
      (fun s => s.1.point = .sleep → InControl s.1)
      (launch daemonize pid pidFile smc, past) actions := by
    apply (Machine.observe_always_fst (P := fun s => s.point = .sleep → InControl s)).mpr
    exact (always_followed π daemonize pid pidFile smc hUntroubled).mono fun _ hBoth hSleep =>
      hBoth.2.inControl hBoth.1 hSleep
  have hWithin := daemon_inherits (P := Loop.Within) (C := FittingPast π)
    (fun past hOpened hChecks hFitting =>
      (hFitting.always_within hOpened hChecks).mono fun _ hAll => hAll.2.2)
    daemonize pid pidFile smc past actions
  apply (hControl.and hWithin).mono
  rintro s ⟨hControlled, hLimits⟩ hSleep hFitting fan hMem
  obtain ⟨hManual, hOutput⟩ := hControlled hSleep fan hMem
  obtain ⟨hMin, hMax⟩ := hLimits hSleep hFitting fan hMem
  exact ⟨hManual, hOutput ▸ hMin, hOutput ▸ hMax⟩

/-- A process that rereads a file with a lower minimum before its first iteration. -/
def sampleLowered : List Action :=
  sampleStart 64 ++ [.signal .hup, .proceed, .proceed, .proceed, .file lowerMinimumFile, .proceed,
    .proceed, .reading 80 fun _ => true]

theorem sampleLowered_fitting : FittingPast Platform.wrap
    ⟨defaultParams, sampleFans, 64, [⟨some lowerMinimumFile, 80⟩], none⟩ where
  products := sample_configuration.noOverflow
  reloads := by decide +kernel

theorem fans_run_within_sample :
    ∃ s, ((daemonMachine Platform.wrap).observe recordPast).run (sampleLaunch, noPast)
        sampleLowered = some s ∧ s.1.point = .sleep ∧
      ∀ fan ∈ s.1.loop.fans, RunsWithin s.1.smc fan :=
  ⟨_, rfl, rfl, (fans_run_within Platform.wrap false 4242 none (fun _ => ⟨false, 0⟩) noPast
    sampleLowered (by decide +kernel)).last rfl rfl sampleLowered_fitting⟩

end Mbpfan
