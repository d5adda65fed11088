import Mbpfan.Transition
import Mbpfan.Library.Descriptors

/-!
# Where the fans are opened

A daemon closes the three standard descriptors and does not open them again. The sensor
files take the places that became free, and the output files of the fans take what is left.
Descriptors 1 and 2 are those the log and the error messages are written to.
-/

namespace Mbpfan

open Library

inductive Stream
  | standard
  | syslog
  | sensor (index : ℕ)
  | fan (counter : ℕ)
  | temporary
  | directory
  deriving DecidableEq

/-- How many temperature files open, and what `get_max_mhz` goes through for the log. -/
structure Surroundings where
  sensors : ℕ
  verbose : Bool
  cpus : ℕ

def temporarily : List (Call Stream) := [.openAs .temporary, .release .temporary]

def getMaxMhz (cpus : ℕ) : List (Call Stream) :=
  .openAs .directory :: (List.range cpus).flatMap (fun _ => temporarily) ++ [.release .directory]

/-- The calls of `retrieve_fans` for one number: the output file stays open, the files with
the limits and the label do not. -/
def fanCalls (probe : ℕ → Option FanFiles) (counter : ℕ) : List (Call Stream) :=
  match probe counter with
  | none => []
  | some _ => .openAs (.fan counter) :: (temporarily ++ temporarily ++ temporarily)

/-- The descriptors a step opens and closes. A file that is opened for a moment is counted
also when it cannot be opened. -/
def calls (env : Surroundings) (s : Daemon) (a : Action) : List (Call Stream) :=
  match s.point, a with
  | .start .chdir, .returned true => [.close 0, .close 1, .close 2]
  | .start .readPid, .probed _ _ => temporarily
  | .start .writePid, .returned _ => temporarily
  | .start .retrieveSensors, .returned true =>
    (List.range env.sensors).map fun index => .openAs (.sensor index)
  | .retrieveFans, .fans probe => (List.range numFans).flatMap (fanCalls probe)
  | .openSettings _, .file _ => temporarily
  | .setFansMan _ (_ :: _), .returned _ => temporarily
  | .control, .reading _ _ =>
    if env.verbose then s.loop.fans.flatMap fun _ => getMaxMhz env.cpus else []
  | .setFansAuto (_ :: _), .returned _ => temporarily
  | .setFansAuto [], .proceed =>
    s.loop.fans.map (fun fan => .release (.fan fan.fanId)) ++
      (List.range env.sensors).map fun index => .release (.sensor index)
  | _, _ => []

def recordCalls (env : Surroundings) (table : Descriptors Stream) (s : Daemon) (a : Action)
    (_ : Daemon) : Descriptors Stream :=
  runCalls table (calls env s a)

/-- The standard descriptors, and the socket of syslog `gap` places above them. -/
def inherited (gap : ℕ) : Descriptors Stream :=
  List.replicate 3 (some .standard) ++ List.replicate gap none ++ [some .syslog]

def Separate (table : Descriptors Stream) : Prop :=
  ∀ counter, table.entry 1 ≠ some (.fan counter) ∧ table.entry 2 ≠ some (.fan counter)

/-- Between any two calls of the step, no fan is open at descriptor 1 or 2. -/
def StaysSeparate (env : Surroundings) (s : Daemon × Descriptors Stream) (a : Action) : Prop :=
  (callMachine Stream).Always Separate s.2 (calls env s.1 a)

/-- The layout of the lowest descriptors up to the search for fans. -/
structure Laid (env : Surroundings) (s : Daemon × Descriptors Stream) : Prop where
  separate : Separate s.2
  layout : match s.1.point with
    | .start .readPid | .start .writePid | .start .retrieveSensors =>
      s.1.loop.fans = [] ∧ ∀ fd < 3, s.2.entry fd = none
    | .start _ => s.1.loop.fans = [] ∧ s.1.daemonize = true
    | .retrieveFans => s.1.loop.fans = [] ∧
      ∀ fd < 3, s.2.entry fd = ((List.range env.sensors).map Stream.sensor)[fd]?
    | .exited | .killed => s.1.loop.fans = [] ∨ 3 ≤ env.sensors
    | _ => 3 ≤ env.sensors

variable {π : Platform} {env : Surroundings} {s t : Daemon} {a : Action}
  {table : Descriptors Stream} {counter : ℕ} {probe : ℕ → Option FanFiles}

/-! ## Calls that open no fan -/

theorem Separate.run (h : Separate table) {c : Call Stream}
    (hCall : ∀ counter, c ≠ .openAs (.fan counter)) : Separate (c.run table) := by
  intro counter
  obtain ⟨hOut, hErr⟩ := h counter
  cases c with
  | close fd =>
    rw [Call.run, Descriptors.entry_set_none, Descriptors.entry_set_none]
    constructor <;> split_ifs <;> first | assumption | exact (Option.some_ne_none _).symm
  | openAs stream =>
    have hStream : some stream ≠ some (Stream.fan counter) := fun hEq =>
      hCall counter (congrArg Call.openAs (Option.some_inj.mp hEq))
    rw [Call.run, Descriptors.entry_place, Descriptors.entry_place]
    constructor <;> split_ifs <;> assumption
  | release stream =>
    rw [Call.run, Descriptors.entry_drop, Descriptors.entry_drop]
    constructor <;> split_ifs <;> first | assumption | exact (Option.some_ne_none _).symm

theorem Separate.always (h : Separate table) {cs : List (Call Stream)}
    (hCalls : ∀ counter, .openAs (.fan counter) ∉ cs) :
    (callMachine Stream).Always Separate table cs := by
  refine Machine.always_of_invariant (C := fun _ c _ => ∀ counter, c ≠ .openAs (.fan counter)) ?_ h
    (Machine.eachStep_of_mem fun c hc _ _ counter hEq => hCalls counter (hEq ▸ hc))
  intro table c _ hSeparate hStep hCall
  exact Option.some_inj.mp hStep ▸ hSeparate.run hCall

theorem fans_of_openAs (h : .openAs (.fan counter) ∈ calls env s a) :
    s.point = .retrieveFans ∧ ∃ probe, a = .fans probe := by
  unfold calls at h
  split at h <;> simp_all [temporarily, getMaxMhz]

theorem calls_signal (sig : Signal) : calls env s (.signal sig) = [] := by
  unfold calls
  split <;> simp_all

theorem StaysSeparate.last (h : StaysSeparate env (s, table) a) :
    Separate (runCalls table (calls env s a)) :=
  Machine.Always.last h (callMachine_run table _)

theorem Separate.staysSeparate (h : Separate table)
    (hOther : s.point = .retrieveFans → ∀ probe, a ≠ .fans probe) :
    StaysSeparate env (s, table) a := by
  apply h.always
  intro _ hMem
  obtain ⟨hPoint, probe, hFans⟩ := fans_of_openAs hMem
  exact hOther hPoint probe hFans

/-! ## Calls that keep a stream -/

theorem fanCalls_keep {stream : Stream} (hStream : stream ≠ .temporary)
    (probe : ℕ → Option FanFiles) (counter fd : ℕ) :
    ∀ c ∈ fanCalls probe counter, c ≠ .close fd ∧ c ≠ .release stream := by
  unfold fanCalls
  split <;> simp [temporarily, hStream.symm]

theorem getMaxMhz_keep {stream : Stream} (hTemporary : stream ≠ .temporary)
    (hDirectory : stream ≠ .directory) (cpus fd : ℕ) :
    ∀ c ∈ getMaxMhz cpus, c ≠ .close fd ∧ c ≠ .release stream := by
  intro c hMem
  simp only [getMaxMhz, temporarily, List.mem_append, List.mem_cons, List.mem_flatMap,
    List.not_mem_nil, or_false] at hMem
  obtain (rfl | ⟨_, _, rfl | rfl⟩) | rfl := hMem <;> simp [hTemporary.symm, hDirectory.symm]

/-- A process that does not close its standard descriptors keeps what they were at the start. -/
theorem calls_keep_standard (hPoint : s.point ≠ .start .chdir) (fd : ℕ) :
    ∀ c ∈ calls env s a, c ≠ .close fd ∧ c ≠ .release .standard := by
  fun_cases calls env s a
  case case1 hChdir => exact absurd hChdir hPoint
  case case4 => exact List.forall_mem_map.mpr fun _ _ => by simp
  case case5 probe _ =>
    intro c hMem
    obtain ⟨counter, _, hCall⟩ := List.mem_flatMap.mp hMem
    exact fanCalls_keep (by decide) probe counter fd c hCall
  case case8 =>
    intro c hMem
    obtain ⟨_, _, hCall⟩ := List.mem_flatMap.mp hMem
    exact getMaxMhz_keep (by decide) (by decide) env.cpus fd c hCall
  case case11 =>
    exact List.forall_mem_append.mpr ⟨List.forall_mem_map.mpr fun _ _ => by simp,
      List.forall_mem_map.mpr fun _ _ => by simp⟩
  all_goals simp [temporarily]

/-! ## The startup -/

theorem sensors_entry (m fd : ℕ) :
    ((List.range m).map Stream.sensor)[fd]? = if fd < m then some (.sensor fd) else none := by
  rw [List.getElem?_map]
  split_ifs with h
  · rw [List.getElem?_range h]
    rfl
  · rw [List.getElem?_eq_none (by simpa using h)]
    rfl

/-- A file that is opened and closed leaves a free range free. -/
theorem temporarily_free {n : ℕ} (hFree : ∀ fd < n, table.entry fd = none) :
    ∀ fd < n, (runCalls table temporarily).entry fd = none := by
  intro fd hfd
  have hEntry : (table.place .temporary).entry fd = some .temporary ∨
      (table.place .temporary).entry fd = none := by
    rw [Descriptors.entry_place, hFree fd hfd]
    split_ifs
    · exact .inl rfl
    · exact .inr rfl
  change ((table.place .temporary).drop .temporary).entry fd = none
  rw [Descriptors.entry_drop]
  obtain hEntry | hEntry := hEntry <;> rw [hEntry] <;> rfl

theorem openSensors_eq (env : Surroundings) (table : Descriptors Stream) :
    runCalls table ((List.range env.sensors).map fun index => .openAs (.sensor index)) =
      ((List.range env.sensors).map Stream.sensor).foldl (fun t a => t.place a) table := by
  rw [runCalls, List.foldl_map, List.foldl_map]
  rfl

theorem closed_free (table : Descriptors Stream) :
    ∀ fd < 3, (runCalls table [.close 0, .close 1, .close 2]).entry fd = none := by
  intro fd hfd
  change Descriptors.entry (((table.set 0 none).set 1 none).set 2 none) fd = none
  simp only [Descriptors.entry_set_none]
  split_ifs
  · rfl
  · rfl
  · rfl
  · omega

theorem Laid.start {next : Start} (h : Laid env (s, table)) (hPoint : s.point = .start next)
    (hStep : startStep s next a = some t) : Laid env (t, recordCalls env table s a t) := by
  have hSeparate : StaysSeparate env (s, table) a := h.separate.staysSeparate (by simp [hPoint])
  refine ⟨hSeparate.last, ?_⟩
  have hLayout := h.layout
  simp only [hPoint] at hLayout
  simp only [recordCalls, calls, hPoint]
  revert hStep
  fun_cases startStep s next a <;> intro hStep <;> cases hStep
  case case1 | case2 | case3 => exact hLayout
  case case4 =>
    rw [if_pos hLayout.2]
    exact hLayout
  case case5 | case11 => exact .inl hLayout.1
  case case6 ok | case7 ok =>
    cases ok with
    | false => exact .inl hLayout.1
    | true => exact hLayout
  case case8 ok =>
    cases ok with
    | false => exact .inl hLayout.1
    | true => exact ⟨hLayout.1, closed_free table⟩
  case case9 alive removed =>
    obtain ⟨_, _, hEq, rfl | rfl⟩ := readPid_frame s alive removed
    · rw [hEq]
      exact .inl hLayout.1
    · rw [hEq]
      exact ⟨hLayout.1, temporarily_free hLayout.2⟩
  case case10 => exact ⟨hLayout.1, temporarily_free hLayout.2⟩
  case case12 found =>
    cases found with
    | false => exact .inl hLayout.1
    | true =>
      refine ⟨hLayout.1, ?_⟩
      rw [openSensors_eq]
      exact Descriptors.entry_foldl_place hLayout.2 _

/-! ## The search for fans -/

theorem fanCalls_cons (counters : List ℕ)
    (h : counters.filterMap (fun counter => (probe counter).map (retrieveFan counter)) ≠ []) :
    ∃ counter rest, counters.flatMap (fanCalls probe) = .openAs (.fan counter) :: rest := by
  induction counters with
  | nil => exact absurd rfl h
  | cons counter counters ih =>
    cases hProbe : probe counter with
    | none =>
      rw [List.filterMap_cons_none (by rw [hProbe]; rfl)] at h
      simpa [fanCalls, hProbe] using ih h
    | some files => exact ⟨counter, _, by rw [List.flatMap_cons, fanCalls, hProbe]; rfl⟩

/-- With fewer than three sensors the first fan gets descriptor 1 or 2. -/
theorem three_le_of_staysSeparate (hSensors : 1 ≤ env.sensors) (hPoint : s.point = .retrieveFans)
    (hLaid : ∀ fd < 3, table.entry fd = ((List.range env.sensors).map Stream.sensor)[fd]?)
    (hFound : retrieveFans probe ≠ []) (h : StaysSeparate env (s, table) (.fans probe)) :
    3 ≤ env.sensors := by
  by_contra hFew
  obtain ⟨counter, rest, hCalls⟩ := fanCalls_cons (List.range numFans) hFound
  have hLowest : table.lowestFree = env.sensors := by
    refine Descriptors.lowestFree_eq ?_ fun d hd => ?_
    · rw [hLaid _ (by omega), sensors_entry, if_neg (lt_irrefl _)]
    · rw [hLaid _ (by omega), sensors_entry, if_pos hd]
      exact Option.some_ne_none _
  have hCallsEq : calls env s (.fans probe) = .openAs (.fan counter) :: rest := by
    simp only [calls, hPoint, hCalls]
  rw [StaysSeparate, hCallsEq] at h
  have hSeparate := (h.2 _ rfl).head counter
  have hEntry : ((Call.openAs (Stream.fan counter)).run table).entry env.sensors =
      some (.fan counter) := by
    rw [Call.run, Descriptors.entry_place, if_pos hLowest.symm]
  have hOneOrTwo : env.sensors = 1 ∨ env.sensors = 2 := by omega
  cases hOneOrTwo with
  | inl hOne => exact hSeparate.1 (hOne ▸ hEntry)
  | inr hTwo => exact hSeparate.2 (hTwo ▸ hEntry)

theorem staysSeparate_of_three_le (hEnough : 3 ≤ env.sensors) (hPoint : s.point = .retrieveFans)
    (hLaid : ∀ fd < 3, table.entry fd = ((List.range env.sensors).map Stream.sensor)[fd]?) :
    StaysSeparate env (s, table) (.fans probe) := by
  have hKept : ∀ fd < 3, (callMachine Stream).Always
      (fun table => table.entry fd = some (.sensor fd)) table (calls env s (.fans probe)) := by
    intro fd hfd
    refine always_entry ?_ fun c hc => ?_
    · rw [hLaid fd hfd, sensors_entry, if_pos (by omega)]
    · simp only [calls, hPoint, List.mem_flatMap] at hc
      obtain ⟨counter, _, hCall⟩ := hc
      exact fanCalls_keep (by simp) probe counter fd c hCall
  apply ((hKept 1 (by decide)).and (hKept 2 (by decide))).mono
  intro table hBoth counter
  rw [hBoth.1, hBoth.2]
  exact ⟨nofun, nofun⟩

/-! ## Whole runs -/

theorem Laid.step (hSensors : 1 ≤ env.sensors) (h : Laid env (s, table))
    (hStep : daemonStep π s a = some t) :
    (3 ≤ env.sensors → StaysSeparate env (s, table) a) ∧
      (StaysSeparate env (s, table) a → Laid env (t, recordCalls env table s a t)) := by
  have hOther (hOther : s.point = .retrieveFans → ∀ probe, a ≠ .fans probe)
      (hLaid : Laid env (t, recordCalls env table s a t)) :
      (3 ≤ env.sensors → StaysSeparate env (s, table) a) ∧
        (StaysSeparate env (s, table) a → Laid env (t, recordCalls env table s a t)) :=
    ⟨fun _ => h.separate.staysSeparate hOther, fun _ => hLaid⟩
  have hLayout := h.layout
  cases transition_of_step hStep with
  | hungUp | stopped =>
    apply hOther (fun _ _ => nofun)
    rw [recordCalls, calls_signal]
    exact ⟨h.separate, hLayout⟩
  | @killed sig next hPoint =>
    apply hOther (fun _ _ => nofun)
    rw [recordCalls, calls_signal]
    refine ⟨h.separate, .inl ?_⟩
    simp only [hPoint] at hLayout
    cases next <;> exact hLayout.1
  | starting hPoint hStart => exact hOther (by simp [hPoint]) (h.start hPoint hStart)
  | noFans hPoint =>
    simp only [hPoint] at hLayout
    exact ⟨fun hEnough => staysSeparate_of_three_le hEnough hPoint hLayout.2,
      fun hStays => ⟨hStays.last, .inl hLayout.1⟩⟩
  | foundFans hPoint =>
    simp only [hPoint] at hLayout
    obtain ⟨_, ⟨hExited, _⟩ | ⟨_, hFound⟩⟩ := retrieveFans_step hPoint hStep
    · exact absurd hExited nofun
    · exact ⟨fun hEnough => staysSeparate_of_three_le hEnough hPoint hLayout.2, fun hStays =>
        ⟨hStays.last, three_le_of_staysSeparate hSensors hPoint hLayout.2 hFound hStays⟩⟩
  | refused hPoint | accepted hPoint | pidDeleted hPoint | opened hPoint | configured hPoint
  | reconfigured hPoint | manual hPoint | allManual hPoint | allManualAgain hPoint
  | firstReading hPoint | recalibrated hPoint | exiting hPoint | continuing hPoint
  | reloading hPoint | keeping hPoint | cleared hPoint | controlled hPoint | slept hPoint
  | woke hPoint | automatic hPoint | allAutomatic hPoint =>
    simp only [hPoint] at hLayout
    refine hOther (by simp [hPoint]) ⟨(h.separate.staysSeparate (by simp [hPoint])).last, ?_⟩
    first | exact hLayout | exact .inr hLayout

theorem Laid.three_le (h : Laid env (s, table)) (hFans : s.loop.fans ≠ []) :
    3 ≤ env.sensors := by
  have hLayout := h.layout
  split at hLayout
  · exact absurd hLayout.1 hFans
  · exact absurd hLayout.1 hFans
  · exact absurd hLayout.1 hFans
  · exact absurd hLayout.1 hFans
  · exact absurd hLayout.1 hFans
  · exact hLayout.resolve_left hFans
  · exact hLayout.resolve_left hFans
  · exact hLayout

theorem launch_laid (pid : ℤ) (pidFile : Option ℤ) (smc : Smc) (gap : ℕ) :
    Laid env (launch true pid pidFile smc, inherited gap) where
  separate := fun _ => ⟨nofun, nofun⟩
  layout := ⟨rfl, rfl⟩

theorem three_le_sensors (hSensors : 1 ≤ env.sensors) {pid : ℤ} {pidFile : Option ℤ} {smc : Smc}
    {gap : ℕ} {actions : List Action}
    (hRun : (daemonMachine π).run (launch true pid pidFile smc) actions = some t)
    (hFans : t.loop.fans ≠ [])
    (hStays : ((daemonMachine π).observe (recordCalls env)).EachStep
      (fun s a _ => StaysSeparate env s a) (launch true pid pidFile smc, inherited gap) actions) :
    3 ≤ env.sensors := by
  have hLaid := Machine.observe_always (J := Laid env)
    (fun _ _ _ _ hBefore hStep hStay => (hBefore.step hSensors hStep).2 hStay)
    (launch_laid pid pidFile smc gap) hStays
  obtain ⟨⟨last, table⟩, hLast, rfl⟩ := Option.map_eq_some_iff.mp
    ((Machine.observe_run (recordCalls env) (launch true pid pidFile smc) (inherited gap)
      actions).trans hRun)
  exact Laid.three_le (hLaid.last hLast) hFans

/-- In a run of the daemon that finds fans, no fan is ever open at descriptor 1 or 2 exactly
when at least three sensors are found. -/
theorem separate_iff (π : Platform) (hSensors : 1 ≤ env.sensors) (pid : ℤ) (pidFile : Option ℤ)
    (smc : Smc) (gap : ℕ) {actions : List Action}
    (hRun : (daemonMachine π).run (launch true pid pidFile smc) actions = some t)
    (hFans : t.loop.fans ≠ []) :
    ((daemonMachine π).observe (recordCalls env)).EachStep (fun s a _ => StaysSeparate env s a)
        (launch true pid pidFile smc, inherited gap) actions ↔
      3 ≤ env.sensors := by
  refine ⟨three_le_sensors hSensors hRun hFans, fun hEnough => ?_⟩
  have hLaid : ((daemonMachine π).observe (recordCalls env)).Always (Laid env)
      (launch true pid pidFile smc, inherited gap) actions :=
    Machine.observe_always (E := fun _ _ _ => True)
      (fun _ _ _ _ hBefore hStep _ => (hBefore.step hSensors hStep).2
        ((hBefore.step hSensors hStep).1 hEnough))
      (launch_laid pid pidFile smc gap) (Machine.eachStep_of_forall fun _ _ _ _ => trivial)
  apply Machine.eachStep_of_always hLaid
  rintro ⟨s, table⟩ a ⟨t, next⟩ hBefore hStep
  exact (hBefore.step hSensors (Machine.observe_step_eq_some.mp hStep).1).1 hEnough

/-- A start as a daemon, up to the search for fans. -/
def daemonStart : List Action :=
  [.proceed, .proceed, .proceed, .proceed, .forked true, .returned true, .returned true,
    .probed false false, .returned true, .returned true, .fans sampleProbe]

theorem separate_iff_sample :
    ((daemonMachine Platform.wrap).observe (recordCalls ⟨3, false, 0⟩)).EachStep
        (fun s a _ => StaysSeparate ⟨3, false, 0⟩ s a)
        (launch true 4242 none fun _ => ⟨false, 0⟩, inherited 0) daemonStart ↔
      3 ≤ (⟨3, false, 0⟩ : Surroundings).sensors :=
  separate_iff Platform.wrap (by decide) 4242 none (fun _ => ⟨false, 0⟩) 0 rfl (by decide)

/-- With one sensor the output file of the fan is opened at descriptor 1. -/
theorem fan_at_stdout :
    ¬ ((daemonMachine Platform.wrap).observe (recordCalls ⟨1, false, 0⟩)).EachStep
      (fun s a _ => StaysSeparate ⟨1, false, 0⟩ s a)
      (launch true 4242 none fun _ => ⟨false, 0⟩, inherited 0) daemonStart := by
  intro hStays
  have hThree := three_le_sensors (by decide) rfl (by decide) hStays
  exact absurd hThree (by decide)

end Mbpfan
