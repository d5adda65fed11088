import Mbpfan.Simulation
import Mbpfan.Forgetting

/-!
# The values in force

Every parameter and every limit of a running daemon is the last number other than 0 that a
file read since the startup gave for it, or what the startup left. Readings, signals, failing
writes and files that cannot be read have no part in it.
-/

namespace Mbpfan

open Library

variable {π : Platform}

theorem run_passes (s : Loop) (passes : List Pass) :
    (loopMachine π).run s passes = some (passes.foldl (pass π) s) := by
  induction passes generalizing s with
  | nil => rfl
  | cons a rest ih => exact ih (pass π s a)

/-- After every iteration of the daemon its values are those last given. -/
theorem values_in_force (π : Platform) (daemonize : Bool) (pid : ℤ) (pidFile : Option ℤ)
    (smc : Smc) (past : Past) (actions : List Action) :
    ((daemonMachine π).observe recordPast).Always
      (fun s => s.1.point = .sleep →
        InForce (s.2.passes.filterMap Pass.reload) s.2.params s.1.loop.params
          (s.2.fans.map Fan.limits) (s.1.loop.fans.map Fan.limits))
      (launch daemonize pid pidFile smc, past) actions := by
  apply (daemon_simulates_loop π daemonize pid pidFile smc past actions).mono
  rintro ⟨s, past⟩ hReplayed hSleep
  have hRun := (hReplayed hSleep).run
  rw [run_passes, Option.some_inj] at hRun
  have hStored := passes_stored (π := π) (startup π past.params past.fans past.first) past.passes
  rw [hRun, startup_stored] at hStored
  have hForce := inForce_storedAfter (past.passes.filterMap Pass.reload) past.params
    (past.fans.map Fan.limits)
  rwa [← hStored] at hForce

end Mbpfan
