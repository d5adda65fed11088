import Mbpfan.Band
import Mbpfan.Simulation
import Mbpfan.Library.PlayMemory

/-!
# What the fans remember

The speed of a fan depends on the past readings only through the play operator between its
curves. It is the highest that a reading has called for and none since has refused, it does
not creep when the temperature goes round and round, polling more often does not change it,
and a reading beyond the outer thresholds wipes out the past.
-/

namespace Mbpfan

open Library

variable {π : Platform} {p : Params} {fan : Fan} {fans : List Fan} {t u : Reading}
variable {xs ys : List Reading}

theorem OnBand.fanRun_eq (h : OnBand π p t fan) (hOther : OnBand π p u fan)
    (hRuns : playRun (lowerCurve p fan) (upperCurve p fan) fan.oldSpeed (xs.map Reading.degrees) =
      playRun (lowerCurve p fan) (upperCurve p fan) fan.oldSpeed (ys.map Reading.degrees)) :
    fanRun π p t fan xs = fanRun π p u fan ys := by
  rw [← h.fanRun_oldSpeed, ← hOther.fanRun_oldSpeed] at hRuns
  rw [fanRun_frame h.running.opened, fanRun_frame h.running.opened u, Subtype.ext hRuns]

theorem Configuration.controlRun_fans (h : Configuration p fans) (first : Reading)
    (readings : List Reading) :
    (controlRun π (startup π p fans first) readings).fans =
      fans.map fun fan => fanRun π p first (startFan π p fan) readings := by
  rw [Mbpfan.controlRun_fans, startup_fans h.opened, List.map_map]
  rfl

theorem controlRun_append (s : Loop) (xs ys : List Reading) :
    controlRun π s (xs ++ ys) = controlRun π (controlRun π s xs) ys :=
  List.foldl_append

theorem controlRun_eq_mk (s : Loop) (xs : List Reading) :
    controlRun π s xs = ⟨s.params, (controlRun π s xs).fans, xs.getLastD s.newTemp⟩ := by
  rw [← controlRun_params (π := π) s xs, ← controlRun_newTemp (π := π) s xs]

/-! ## What a speed tells about the past -/

theorem Configuration.le_speed_iff (h : Configuration p fans) {first : Reading}
    (hCool : first.degrees ≤ p.highTemp) (readings : List Reading) (v : ℤ) :
    ∀ fan ∈ (controlRun π (startup π p fans first) readings).fans,
      v ≤ fan.oldSpeed ↔ v ≤ fan.fanMinSpeed ∨
        CalledFor (lowerCurve p fan) (upperCurve p fan) v (readings.map Reading.degrees) := by
  rw [h.controlRun_fans]
  rintro fan hMem
  obtain ⟨origin, hOrigin, rfl⟩ := List.mem_map.mp hMem
  have hBand := h.onBand (π := π) hOrigin hCool
  have hUpper : ∀ t, (origin.fanMinSpeed : ℤ) ≤ upperCurve p (startFan π p origin) t := fun t =>
    (hBand.running.accepted.min_le_lowerCurve hBand.running.fitted t).trans
      (hBand.running.accepted.lowerCurve_le_upperCurve hBand.running.fitted t)
  rw [fanRun_frame hBand.running.opened, lowerCurve_withSpeed, upperCurve_withSpeed,
    withSpeed_oldSpeed, hBand.fanRun_oldSpeed, le_playRun_iff]
  apply or_congr_left
  exact and_iff_left_of_imp fun hMin x _ => hMin.trans (hUpper x)

theorem run_without_reload {s : Loop} {passes : List Pass}
    (hNone : ∀ a ∈ passes, a.reload = none) :
    (loopMachine π).run s passes = some (controlRun π s (passes.map Pass.reading)) := by
  induction passes generalizing s with
  | nil => rfl
  | cons a rest ih =>
    obtain ⟨hHead, hRest⟩ := List.forall_mem_cons.mp hNone
    have hPass : pass π s a = controlIteration π s a.reading := by
      rw [pass, hHead]
      rfl
    have hRun := ih (s := pass π s a) hRest
    rw [hPass] at hRun
    exact Machine.run_cons_eq_some.mpr ⟨_, congrArg some hPass, hRun⟩

/-- While the configuration is not reread, a sleeping daemon that started cool runs a fan at
least at `v` exactly when `v` is no more than its minimum, or some reading has called for `v`
and none since has refused it. -/
theorem speed_remembers (π : Platform) (daemonize : Bool) (pid : ℤ) (pidFile : Option ℤ)
    (smc : Smc) (past : Past) (actions : List Action) :
    ((daemonMachine π).observe recordPast).Always
      (fun s => s.1.point = .sleep → Configuration s.2.params s.2.fans →
        s.2.first.degrees ≤ s.2.params.highTemp → (∀ a ∈ s.2.passes, a.reload = none) →
        ∀ fan ∈ s.1.loop.fans, ∀ v : ℤ, v ≤ fan.oldSpeed ↔ v ≤ fan.fanMinSpeed ∨
          CalledFor (lowerCurve s.2.params fan) (upperCurve s.2.params fan) v
            (s.2.passes.map fun a => a.reading.degrees))
      (launch daemonize pid pidFile smc, past) actions := by
  apply (daemon_simulates_loop π daemonize pid pidFile smc past actions).mono
  rintro ⟨s, past⟩ hReplayed hSleep hConfig hCool hNone fan hMem v
  have hRun := (hReplayed hSleep).run
  rw [run_without_reload hNone, Option.some_inj] at hRun
  have hSpeed := hConfig.le_speed_iff (π := π) hCool (past.passes.map Pass.reading) v
  rw [hRun, List.map_map] at hSpeed
  exact hSpeed fan hMem

theorem sample_reloads (second third : Reading) :
    ∀ a ∈ ([⟨none, second⟩, ⟨none, third⟩] : List Pass), a.reload = none := by
  simp

theorem speed_remembers_sample :
    ∃ s, ((daemonMachine Platform.wrap).observe recordPast).run (sampleLaunch, noPast)
        (sampleSleeps 60 80 70) = some s ∧ s.1.point = .sleep ∧
      ∀ fan ∈ s.1.loop.fans, ∀ v : ℤ, v ≤ fan.oldSpeed ↔ v ≤ fan.fanMinSpeed ∨
        CalledFor (lowerCurve defaultParams fan) (upperCurve defaultParams fan) v [80, 70] :=
  ⟨_, rfl, rfl, (speed_remembers Platform.wrap false 4242 none (fun _ => ⟨false, 0⟩) noPast
    (sampleSleeps 60 80 70)).last rfl rfl sample_configuration (by decide) (sample_reloads 80 70)⟩

/-! ## No creep -/

theorem OnBand.fanRun_cycle (h : OnBand π p t fan) (before cycle : List Reading) :
    fanRun π p t fan (before ++ cycle ++ cycle) = fanRun π p t fan (before ++ cycle) := by
  apply h.fanRun_eq h
  have hCurves := h.running.accepted.lowerCurve_le_upperCurve h.running.fitted
  rw [List.map_append, playRun_append, List.map_append, playRun_append,
    playRun_idem fun x _ => hCurves x]

theorem Configuration.controlRun_cycle (h : Configuration p fans) {first : Reading}
    (hCool : first.degrees ≤ p.highTemp) (before cycle : List Reading) :
    controlRun π (startup π p fans first) (before ++ cycle ++ cycle) =
      controlRun π (startup π p fans first) (before ++ cycle) := by
  rcases List.eq_nil_or_concat cycle with rfl | ⟨rest, last, rfl⟩
  · simp
  have hFans : ∀ fan ∈ fans, fanRun π p first (startFan π p fan)
        (before ++ rest.concat last ++ rest.concat last) =
      fanRun π p first (startFan π p fan) (before ++ rest.concat last) := fun fan hMem =>
    (h.onBand hMem hCool).fanRun_cycle before (rest.concat last)
  rw [controlRun_eq_mk, h.controlRun_fans, List.map_congr_left hFans, ← h.controlRun_fans,
    controlRun_eq_mk _ (before ++ rest.concat last)]
  simp only [List.concat_eq_append, ← List.append_assoc, List.getLastD_concat]

/-- Readings that go round in a cycle, any number of times, leave the loop as they do the
first time. -/
theorem cycle_settles (π : Platform) (h : Configuration p fans) {first : Reading}
    (hCool : first.degrees ≤ p.highTemp) (before cycle : List Reading) (n : ℕ) :
    controlRun π (startup π p fans first) (before ++ (List.replicate (n + 1) cycle).flatten) =
      controlRun π (startup π p fans first) (before ++ cycle) := by
  induction n with
  | zero => simp
  | succ n ih =>
    rw [List.replicate_succ', List.flatten_concat, ← List.append_assoc, controlRun_append, ih,
      ← controlRun_append, h.controlRun_cycle hCool]

theorem cycle_settles_sample :
    controlRun Platform.wrap (startup Platform.wrap defaultParams sampleFans 60)
        ([70] ++ (List.replicate 8 [80, 72, 90, 66]).flatten) =
      controlRun Platform.wrap (startup Platform.wrap defaultParams sampleFans 60)
        ([70] ++ [80, 72, 90, 66]) :=
  cycle_settles Platform.wrap sample_configuration (by decide) [70] [80, 72, 90, 66] 7

/-! ## How often the temperature is read -/

/-- More readings, on the way from each reading to the next, change no speed. -/
theorem polling_rate (π : Platform) (h : Configuration p fans) {first : Reading}
    (hCool : first.degrees ≤ p.highTemp) {sparse dense : List Reading}
    (hVisits : Visits first.degrees (sparse.map Reading.degrees) (dense.map Reading.degrees)) :
    (controlRun π (startup π p fans first) dense).fans =
      (controlRun π (startup π p fans first) sparse).fans := by
  rw [h.controlRun_fans, h.controlRun_fans]
  apply List.map_congr_left
  intro fan hMem
  have hBand := h.onBand (π := π) hMem hCool
  have hAccepted := hBand.running.accepted
  have hFitted := hBand.running.fitted
  apply hBand.fanRun_eq hBand
  exact playRun_visits (fun _ _ => hAccepted.lowerCurve_mono hFitted)
    (fun _ _ => hAccepted.upperCurve_mono hFitted)
    (hAccepted.lowerCurve_le_upperCurve hFitted) (hAccepted.onCurve_iff.mp hBand.curve) hVisits

theorem polling_rate_sample :
    (controlRun Platform.wrap (startup Platform.wrap defaultParams sampleFans 60)
        [65, 72, 80, 75, 70]).fans =
      (controlRun Platform.wrap (startup Platform.wrap defaultParams sampleFans 60)
        [80, 70]).fans :=
  polling_rate Platform.wrap sample_configuration (by decide)
    (.onTheWay (by decide) (.onTheWay (by decide) (.next (.onTheWay (by decide) (.next .done)))))

/-! ## Forgetting the past -/

theorem fanRun_extreme (hFile : fan.file = true) (hTemps : p.lowTemp ≤ p.highTemp)
    {last : Reading} (hOut : last.degrees ≤ p.lowTemp ∨ p.maxTemp ≤ last.degrees)
    (t : Reading) (readings : List Reading) :
    fanRun π p t fan (readings ++ [last]) = fan.withSpeed
      (if last.degrees ≤ p.lowTemp then fan.fanMinSpeed else fan.fanMaxSpeed) := by
  induction readings generalizing t fan with
  | nil =>
    have hSpeed : thresholdSpeed p last fan =
        if last.degrees ≤ p.lowTemp then fan.fanMinSpeed else fan.fanMaxSpeed := by
      rw [thresholdSpeed]
      split_ifs with hLow hMax
      · rfl
      · rfl
      · exact absurd hOut (not_or.mpr ⟨hLow, hMax⟩)
    have hThreshold : fanSpeed π p t last fan = thresholdSpeed p last fan :=
      fanSpeed_eq_threshold hTemps hOut
    rw [← hSpeed, ← hThreshold]
    exact controlFan_fst hFile t last
  | cons newTemp rest ih =>
    have hNext : (controlFan π p t newTemp fan).1.file = true := by
      rw [controlFan_fst hFile]
      exact hFile
    have hRest := ih hNext newTemp
    rw [controlFan_fst hFile] at hRest
    rw [List.cons_append, fanRun, controlFan_fst hFile]
    exact hRest

/-- A reading at or beyond the outer thresholds: whatever came before, the loop is the same
from then on. -/
theorem extreme_reading_forgets (π : Platform) (hOpened : ∀ fan ∈ fans, fan.file = true)
    (hChecks : PassesChecks p fans) {last : Reading}
    (hOut : last.degrees ≤ p.lowTemp ∨ p.maxTemp ≤ last.degrees) (first other : Reading)
    (xs ys : List Reading) :
    controlRun π (startup π p fans first) (xs ++ [last]) =
      controlRun π (startup π p fans other) (ys ++ [last]) := by
  have hTemps : p.lowTemp ≤ p.highTemp := not_lt.mp (not_or.mp hChecks.2).1
  have hState : ∀ (t : Reading) (readings : List Reading),
      controlRun π (startup π p fans t) (readings ++ [last]) =
        ⟨p, fans.map fun fan => (startFan π p fan).withSpeed
          (if last.degrees ≤ p.lowTemp then fan.fanMinSpeed else fan.fanMaxSpeed), last⟩ := by
    intro t readings
    rw [controlRun_eq_mk, Mbpfan.controlRun_fans, startup_fans hOpened, List.map_map,
      List.getLastD_concat]
    have hFans : ∀ fan ∈ fans, fanRun π p t (startFan π p fan) (readings ++ [last]) =
        (startFan π p fan).withSpeed
          (if last.degrees ≤ p.lowTemp then fan.fanMinSpeed else fan.fanMaxSpeed) := by
      intro fan hMem
      have hFile : (startFan π p fan).file = true := hOpened fan hMem
      exact fanRun_extreme hFile hTemps hOut t readings
    exact congrArg (fun fans => Loop.mk p fans last) (List.map_congr_left hFans)
  rw [hState, hState]

theorem extreme_reading_forgets_sample :
    controlRun Platform.wrap (startup Platform.wrap defaultParams sampleFans 90) ([80, 70] ++ [95]) =
      controlRun Platform.wrap (startup Platform.wrap defaultParams sampleFans 40) ([] ++ [95]) :=
  extreme_reading_forgets Platform.wrap (by decide) (by decide) (by decide) 90 40 [80, 70] []

/-! ## Recovery -/

/-- The fan at its minimum below the low threshold and at its maximum from the high one on. -/
theorem onBand_extreme (hRunning : Running π p fan)
    (hOut : t.degrees ≤ p.lowTemp ∨ p.maxTemp ≤ t.degrees) :
    OnBand π p t (fan.withSpeed
      (if t.degrees ≤ p.lowTemp then fan.fanMinSpeed else fan.fanMaxSpeed)) := by
  have hAccepted := hRunning.accepted
  have hCurves := hAccepted.lowerCurve_le_upperCurve hRunning.fitted t.degrees
  refine ⟨hRunning.withSpeed _, (hAccepted.withSpeed _).onCurve_iff.mpr ?_⟩
  rw [lowerCurve_withSpeed, upperCurve_withSpeed, withSpeed_oldSpeed]
  split_ifs with hLow
  · have hMin := hAccepted.min_le_lowerCurve hRunning.fitted t.degrees
    rw [upperCurve_of_le_low hLow] at hCurves
    rw [InBand, upperCurve_of_le_low hLow]
    exact ⟨hCurves, le_rfl⟩
  · have hMax := hOut.resolve_left hLow
    rw [InBand, lowerCurve_of_max_le hMax, upperCurve_of_max_le (not_le.mp hLow) hMax]
    exact ⟨le_rfl, le_rfl⟩

/-- Whatever the speeds of the fans, such a reading takes them to the band, where they stay. -/
theorem controlRun_heals {s : Loop} (hRunning : ∀ fan ∈ s.fans, Running π s.params fan)
    {last : Reading}
    (hOut : last.degrees ≤ s.params.lowTemp ∨ s.params.maxTemp ≤ last.degrees)
    (xs ys : List Reading) : AllOnCurve (controlRun π s (xs ++ last :: ys)) := by
  rw [List.append_cons, controlRun_append]
  intro fan hMem
  rw [Mbpfan.controlRun_fans, Mbpfan.controlRun_fans, List.map_map] at hMem
  obtain ⟨origin, hOrigin, rfl⟩ := List.mem_map.mp hMem
  have hOriginRunning := hRunning origin hOrigin
  have hReset := fanRun_extreme (π := π) hOriginRunning.opened hOriginRunning.accepted.temps hOut
    s.newTemp xs
  have hLast : (controlRun π s (xs ++ [last])).newTemp = last := by
    rw [controlRun_newTemp, List.getLastD_concat]
  have hParams : (controlRun π s (xs ++ [last])).params = s.params := controlRun_params s _
  rw [controlRun_params, controlRun_newTemp _ ys, hLast, hParams, Function.comp_apply, hReset]
  exact (fanRun_invariant (I := OnBand π s.params) (fun _ newTemp _ hBand => hBand.step newTemp)
    (onBand_extreme hOriginRunning hOut) ys).curve

/-- Also a daemon that started hot runs every fan on the band from the first reading at or beyond
the outer thresholds on, as long as the configuration is not reread. -/
theorem extreme_reading_heals (π : Platform) (daemonize : Bool) (pid : ℤ) (pidFile : Option ℤ)
    (smc : Smc) (past : Past) (actions : List Action) :
    ((daemonMachine π).observe recordPast).Always
      (fun s => s.1.point = .sleep → Configuration s.2.params s.2.fans →
        (∀ a ∈ s.2.passes, a.reload = none) →
        (∃ a ∈ s.2.passes, a.reading.degrees ≤ s.2.params.lowTemp ∨
          s.2.params.maxTemp ≤ a.reading.degrees) → AllOnCurve s.1.loop)
      (launch daemonize pid pidFile smc, past) actions := by
  apply (daemon_simulates_loop π daemonize pid pidFile smc past actions).mono
  rintro ⟨s, past⟩ hReplayed hSleep hConfig hNone ⟨a, hMem, hOut⟩
  have hRun := (hReplayed hSleep).run
  rw [run_without_reload hNone, Option.some_inj] at hRun
  obtain ⟨before, after, hPasses⟩ := List.append_of_mem hMem
  have hRunning : ∀ fan ∈ (startup π past.params past.fans past.first).fans,
      Running π past.params fan := by
    rw [startup_fans hConfig.opened]
    exact List.forall_mem_map.mpr fun fan hFan => hConfig.running hFan
  dsimp only at hPasses hRun ⊢
  rw [← hRun, hPasses, List.map_append, List.map_cons]
  exact controlRun_heals hRunning hOut _ _

theorem extreme_reading_heals_sample :
    ∃ s, ((daemonMachine Platform.wrap).observe recordPast).run (sampleLaunch, noPast)
        (sampleSleeps 80 90 70) = some s ∧ s.1.point = .sleep ∧ AllOnCurve s.1.loop :=
  ⟨_, rfl, rfl, (extreme_reading_heals Platform.wrap false 4242 none (fun _ => ⟨false, 0⟩) noPast
    (sampleSleeps 80 90 70)).last rfl rfl sample_configuration (sample_reloads 90 70)
    ⟨⟨none, 90⟩, List.mem_cons_self, .inr (by decide)⟩⟩

end Mbpfan
