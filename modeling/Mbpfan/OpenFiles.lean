import Mbpfan.Descriptors

/-!
# What the daemon holds open

However often a running daemon polls its sensors, rereads its configuration or is suspended, it
holds open the socket of syslog, the files of its sensors and the output files of its fans, each
of them once.
-/

namespace Mbpfan

open Library

/-- The socket of syslog with the sensors and the fans that have been found. -/
def foundStreams (env : Surroundings) (ids : List ℕ) : List Stream :=
  .syslog :: ((List.range env.sensors).map Stream.sensor ++ ids.map Stream.fan)

def Holds (env : Surroundings) (s : Daemon) (table : Descriptors Stream) : Prop :=
  match s.point with
  | .start .readPid | .start .writePid | .start .retrieveSensors => table.held = {Stream.syslog}
  | .start _ => s.daemonize = true ∧ ∃ gap, table = inherited gap
  | .retrieveFans => table.held = foundStreams env []
  | .exited | .killed => True
  | _ => table.held = foundStreams env s.loop.ids

variable {π : Platform} {env : Surroundings} {s t : Daemon} {a : Action}
  {table : Descriptors Stream} {streams : Multiset Stream}

/-! ## Calls that keep what is open -/

theorem leads_temporarily (hTemporary : .temporary ∉ streams) :
    Leads streams temporarily streams :=
  Leads.within hTemporary .nil

theorem leads_getMaxMhz (hTemporary : .temporary ∉ streams) (hDirectory : .directory ∉ streams)
    (cpus : ℕ) : Leads streams (getMaxMhz cpus) streams := by
  refine Leads.within hDirectory (Leads.flatMap fun _ _ => leads_temporarily ?_)
  simpa using hTemporary

/-- Apart from the searches and the clean up, what a step opens it closes again. -/
theorem leads_calls (hTemporary : .temporary ∉ streams) (hDirectory : .directory ∉ streams)
    (hChdir : s.point ≠ .start .chdir) (hSensors : s.point ≠ .start .retrieveSensors)
    (hFans : s.point ≠ .retrieveFans) (hAuto : s.point ≠ .setFansAuto []) (a : Action) :
    Leads streams (calls env s a) streams := by
  fun_cases calls env s a
  case case1 hPoint => exact absurd hPoint hChdir
  case case4 hPoint => exact absurd hPoint hSensors
  case case5 hPoint => exact absurd hPoint hFans
  case case11 hPoint => exact absurd hPoint hAuto
  case case2 | case3 | case6 | case7 | case10 => exact leads_temporarily hTemporary
  case case8 =>
    exact Leads.flatMap fun _ _ => leads_getMaxMhz hTemporary hDirectory env.cpus
  case case9 | case12 => exact .nil

/-! ## The searches and the clean up -/

theorem closed_inherited (gap : ℕ) :
    (runCalls (inherited gap) [.close 0, .close 1, .close 2]).held = {Stream.syslog} := by
  change Descriptors.held
    (none :: none :: none :: (List.replicate gap none ++ [some Stream.syslog])) = _
  rw [Descriptors.held, List.reduceOption_cons_of_none, List.reduceOption_cons_of_none,
    List.reduceOption_cons_of_none, List.reduceOption_append, List.reduceOption_replicate_none]
  rfl

theorem leads_sensors (env : Surroundings) :
    Leads {Stream.syslog} ((List.range env.sensors).map fun index => .openAs (.sensor index))
      (foundStreams env []) := by
  have hOpen : Leads {Stream.syslog} _ _ := leads_openAll ((List.range env.sensors).map .sensor)
  rw [List.map_map] at hOpen
  rw [foundStreams, List.map_nil, List.append_nil]
  exact hOpen

theorem leads_fanCalls (probe : ℕ → Option FanFiles) (counters : List ℕ)
    (hTemporary : .temporary ∉ streams) :
    Leads streams (counters.flatMap (fanCalls probe)) (streams + ((counters.filterMap fun counter =>
      (probe counter).map (retrieveFan counter)).map Fan.fanId).map Stream.fan) := by
  induction counters generalizing streams with
  | nil => exact (Multiset.add_zero streams).symm ▸ Leads.nil
  | cons counter counters ih =>
    rw [List.flatMap_cons, fanCalls]
    cases hProbe : probe counter with
    | none =>
      rw [List.filterMap_cons_none (by rw [hProbe]; rfl)]
      exact ih hTemporary
    | some files =>
      rw [List.filterMap_cons_some (by rw [hProbe]; rfl)]
      have hMore : Stream.temporary ∉ Stream.fan counter ::ₘ streams := by
        simpa using hTemporary
      have hThree := leads_temporarily hMore
      have hFiles := (leads_openAs _).append ((hThree.append hThree).append hThree)
      have hAll := hFiles.append (ih hMore)
      rw [Multiset.cons_add, ← Multiset.add_cons] at hAll
      exact hAll

theorem leads_release_found (env : Surroundings) (fans : List Fan) :
    Leads (foundStreams env (fans.map Fan.fanId))
      (fans.map (fun fan => .release (.fan fan.fanId)) ++
        (List.range env.sensors).map fun index => .release (.sensor index)) {Stream.syslog} := by
  let streams := (fans.map Fan.fanId).map Stream.fan ++ (List.range env.sensors).map Stream.sensor
  have hAll : Leads (foundStreams env (fans.map Fan.fanId)) _ _ := leads_releaseAll streams
  have hRest : (foundStreams env (fans.map Fan.fanId) : Multiset Stream).filter (· ∉ streams) =
      {Stream.syslog} := by
    rw [foundStreams, Multiset.filter_coe, List.filter_cons_of_pos (by simp [streams]),
      List.filter_eq_nil_iff.mpr]
    · rfl
    · intro stream hMem
      simpa [streams, or_iff_not_imp_left] using (List.mem_append.mp hMem).symm
  rw [hRest, List.map_append, List.map_map, List.map_map, List.map_map] at hAll
  exact hAll

/-! ## Whole runs -/

theorem temporary_not_mem (env : Surroundings) (ids : List ℕ) :
    Stream.temporary ∉ (foundStreams env ids : Multiset Stream) := by
  simp [foundStreams]

theorem directory_not_mem (env : Surroundings) (ids : List ℕ) :
    Stream.directory ∉ (foundStreams env ids : Multiset Stream) := by
  simp [foundStreams]

theorem Holds.start {next : Start} (h : Holds env s table) (hPoint : s.point = .start next)
    (hStep : startStep s next a = some t) : Holds env t (recordCalls env table s a t) := by
  have hKept (hSocket : table.held = {Stream.syslog}) :
      (runCalls table temporarily).held = {Stream.syslog} :=
    leads_temporarily (by simp) table hSocket
  simp only [Holds, hPoint] at h
  simp only [recordCalls, calls, hPoint]
  revert hStep
  fun_cases startStep s next a <;> intro hStep <;> cases hStep
  case case1 | case2 | case3 => exact h
  case case4 =>
    rw [if_pos h.1]
    exact h
  case case5 | case11 => exact trivial
  case case6 ok | case7 ok =>
    cases ok with
    | false => exact trivial
    | true => exact h
  case case8 ok =>
    cases ok with
    | false => exact trivial
    | true =>
      obtain ⟨-, gap, rfl⟩ := h
      exact closed_inherited gap
  case case9 alive removed =>
    obtain ⟨_, _, hEq, rfl | rfl⟩ := readPid_frame s alive removed
    · rw [hEq]
      exact trivial
    · rw [hEq]
      exact hKept h
  case case10 => exact hKept h
  case case12 found =>
    cases found with
    | false => exact trivial
    | true => exact leads_sensors env table h

theorem Holds.step (h : Holds env s table) (hStep : daemonStep π s a = some t) :
    Holds env t (recordCalls env table s a t) := by
  have hKept (hStart : ∀ next, s.point ≠ .start next) (hFans : s.point ≠ .retrieveFans)
      (hAuto : s.point ≠ .setFansAuto []) (hHeld : table.held = foundStreams env s.loop.ids) :
      (recordCalls env table s a t).held = foundStreams env s.loop.ids :=
    leads_calls (temporary_not_mem env _) (directory_not_mem env _) (hStart _) (hStart _)
      hFans hAuto a table hHeld
  cases transition_of_step hStep with
  | hungUp | stopped =>
    rw [recordCalls, calls_signal]
    exact h
  | killed => exact trivial
  | starting hPoint hStart => exact h.start hPoint hStart
  | noFans | refused | allAutomatic => exact trivial
  | @foundFans probe hPoint =>
    simp only [Holds, hPoint] at h
    have hFound := leads_fanCalls probe (List.range numFans) (temporary_not_mem env []) table h
    rw [← retrieveFans, Multiset.coe_add, foundStreams, List.map_nil, List.append_nil,
      List.cons_append] at hFound
    simp only [Holds, recordCalls, calls, hPoint]
    exact hFound
  | accepted hPoint | pidDeleted hPoint | opened hPoint | configured hPoint
  | reconfigured hPoint | manual hPoint | allManual hPoint | allManualAgain hPoint
  | firstReading hPoint | recalibrated hPoint | exiting hPoint | continuing hPoint
  | reloading hPoint | keeping hPoint | cleared hPoint | controlled hPoint | slept hPoint
  | woke hPoint | automatic hPoint =>
    simp only [Holds, hPoint] at h
    simpa [Holds, Daemon.goto] using
      hKept (by simp [hPoint]) (by simp [hPoint]) (by simp [hPoint]) h

/-- In a run of the daemon that finds its files the open streams are those found, from the search
on until the clean up, which leaves only the socket. -/
theorem holds_found_streams (π : Platform) (env : Surroundings) (gap : ℕ) (pid : ℤ)
    (pidFile : Option ℤ) (smc : Smc) (actions : List Action) :
    ((daemonMachine π).observe (recordCalls env)).Always (fun s => Holds env s.1 s.2)
        (launch true pid pidFile smc, inherited gap) actions ∧
      ((daemonMachine π).observe (recordCalls env)).EachStep
        (fun s _ t => s.1.point = .setFansAuto [] → t.1.point = .exited →
          t.2.held = {Stream.syslog})
        (launch true pid pidFile smc, inherited gap) actions := by
  have hAlways : ((daemonMachine π).observe (recordCalls env)).Always
      (fun s => Holds env s.1 s.2) (launch true pid pidFile smc, inherited gap) actions :=
    Machine.observe_always (E := fun _ _ _ => True) (fun _ _ _ _ hBefore hStep _ =>
      hBefore.step hStep) ⟨rfl, gap, rfl⟩ (Machine.eachStep_of_forall fun _ _ _ _ => trivial)
  refine ⟨hAlways, Machine.eachStep_of_always hAlways ?_⟩
  rintro ⟨s, table⟩ a ⟨t, next⟩ hHolds hStep (hPoint : s.point = _) (hExited : t.point = _)
  obtain ⟨hTaken, rfl⟩ := Machine.observe_step_eq_some.mp hStep
  simp only [Holds, hPoint] at hHolds
  cases transition_of_step hTaken with
  | allAutomatic =>
    simp only [recordCalls, calls, hPoint]
    exact leads_release_found env s.loop.fans table hHolds
  | _ => simp_all

end Mbpfan
