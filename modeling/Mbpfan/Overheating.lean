import Mbpfan.InControl
import Mbpfan.Detection
import Mbpfan.Temperature

/-!
# From the sensor files to the fans

The process between the files it reads and the registers it writes: the scan for the sensors,
the limits of the fans and the polls of every sensor decide what the machine of the daemon takes
as given. One sensor at the maximum is enough to have every fan at full speed after the poll.
-/

namespace Mbpfan

open Library

structure FileDaemon where
  daemon : Daemon
  sensors : List Sensor

/-- What the process finds in the files, and any other action as it is. -/
inductive Event
  | scan (fs : SysFs)
  | probe (dir : ℕ → Option LimitFiles)
  | poll (polls : List Poll) (written : ℕ → Bool)
  | other (a : Action)

/-- Whether the files decide how the action comes out. -/
def Action.isFromFiles (a : Action) (point : Point) : Bool :=
  match a, point with
  | .reading _ _, _ => true
  | .fans _, _ => true
  | .returned _, .start .retrieveSensors => true
  | _, _ => false

/-- The action of the daemon, with its sensors afterwards. -/
def Event.action (wild : Option ℚ → UInt32) (s : FileDaemon) : Event → Option (Action × List Sensor)
  | .scan fs =>
    match s.daemon.point with
    | .start .retrieveSensors =>
      match retrieveSensors fs with
      | none => some (.returned false, s.sensors)
      | some found => some (.returned true, found.map InputSensor.toSensor)
    | _ => none
  | .probe dir => some (.fans fun counter => (dir counter).map LimitFiles.read, s.sensors)
  | .poll polls written =>
    if polls.length = s.sensors.length then
      let sensors := refreshSensors wild (s.sensors.zip polls)
      some (.reading (hottest sensors) written, sensors)
    else none
  | .other a => if a.isFromFiles s.daemon.point then none else some (a, s.sensors)

def fileMachine (π : Platform) (wild : Option ℚ → UInt32) : Machine FileDaemon Event where
  step s e := (e.action wild s).bind fun r => (daemonStep π s.daemon r.1).map fun t => ⟨t, r.2⟩

def fileLaunch (daemonize : Bool) (pid : ℤ) (pidFile : Option ℤ) (smc : Smc) : FileDaemon :=
  ⟨launch daemonize pid pidFile smc, []⟩

def recordPolls (polls : List Poll) (_ : FileDaemon) (e : Event) (_ : FileDaemon) : List Poll :=
  match e with
  | .poll polls _ => polls
  | _ => polls

def FilesUntroubled (wild : Option ℚ → UInt32) (s : FileDaemon × List Poll) (e : Event)
    (t : FileDaemon × List Poll) : Prop :=
  ∀ r ∈ e.action wild s.1, Untroubled s.1.daemon r.1 t.1.daemon

/-- What the fans do after a poll in which the sensors reported the numbers. -/
structure CooledFor (s : Daemon) (reports : List ℕ) : Prop where
  manual : ∀ fan ∈ s.loop.fans, (s.smc fan.fanId).manual = true
  hot : s.loop.params.lowTemp < s.loop.params.maxTemp →
    (∃ n ∈ reports, (s.loop.params.maxTemp : ℤ) * 1000 ≤ n) →
      ∀ fan ∈ s.loop.fans, (s.smc fan.fanId).output = fan.fanMaxSpeed
  cool : s.loop.params.lowTemp ≤ s.loop.params.highTemp →
    (∀ n ∈ reports, (n : ℤ) < (s.loop.params.lowTemp + 1) * 1000) →
      ∀ fan ∈ s.loop.fans, (s.smc fan.fanId).output = fan.fanMinSpeed

/-- A poll has set the sensors, and the fans have been controlled with it. -/
structure Answered (loop : Loop) (sensors : List Sensor) (polls : List Poll) : Prop where
  reported : ∀ reports, List.Forall₂ Poll.Reports polls reports →
    List.Forall₂ (fun sensor n => sensor.temperature.toNat = n) sensors reports
  temp : loop.newTemp = hottest sensors
  hot : loop.params.lowTemp < loop.newTemp.degrees →
    loop.params.maxTemp ≤ loop.newTemp.degrees →
      ∀ fan ∈ loop.fans, fan.oldSpeed = fan.fanMaxSpeed
  cool : loop.params.lowTemp ≤ loop.params.highTemp →
    loop.newTemp.degrees ≤ loop.params.lowTemp →
      ∀ fan ∈ loop.fans, fan.oldSpeed = fan.fanMinSpeed

variable {π : Platform} {wild : Option ℚ → UInt32} {s t : FileDaemon} {e : Event}
variable {polls : List Poll} {sensors : List Sensor} {reports : List ℕ}

/-! ## The steps -/

theorem fileStep_eq_some : (fileMachine π wild).step s e = some t ↔
    ∃ a, e.action wild s = some (a, t.sensors) ∧ daemonStep π s.daemon a = some t.daemon := by
  constructor
  · intro h
    obtain ⟨⟨a, sensors⟩, hAction, hTake⟩ := Option.bind_eq_some_iff.mp h
    obtain ⟨daemon, hStep, rfl⟩ := Option.map_eq_some_iff.mp hTake
    exact ⟨a, hAction, hStep⟩
  · rintro ⟨a, hAction, hStep⟩
    exact Option.bind_eq_some_iff.mpr ⟨_, hAction, Option.map_eq_some_iff.mpr ⟨_, hStep, rfl⟩⟩

/-- Every run of the process on files is a run of the daemon. -/
theorem file_run {events : List Event} (h : (fileMachine π wild).run s events = some t) :
    ∃ actions, (daemonMachine π).run s.daemon actions = some t.daemon := by
  induction events generalizing s with
  | nil =>
    cases h
    exact ⟨[], rfl⟩
  | cons e rest ih =>
    obtain ⟨r, hStep, hRest⟩ := Machine.run_cons_eq_some.mp h
    obtain ⟨a, -, hTake⟩ := fileStep_eq_some.mp hStep
    obtain ⟨actions, hRun⟩ := ih hRest
    exact ⟨a :: actions, Machine.run_cons_eq_some.mpr ⟨r.daemon, hTake, hRun⟩⟩

/-! ## The events -/

theorem mem_scanInputs_file {fs : SysFs} {processor : ℕ} {sensor : InputSensor}
    (h : sensor ∈ scanInputs fs processor) : sensor.file = true := by
  obtain ⟨core, -, hFound⟩ := List.mem_filterMap.mp h
  simp only at hFound
  split_ifs at hFound
  cases hFound
  rfl

theorem retrieveSensors_opened {fs : SysFs} {found : List InputSensor}
    (h : retrieveSensors fs = some found) : found ≠ [] ∧ ∀ sensor ∈ found, sensor.file = true := by
  rw [retrieveSensors] at h
  cases hModern : isModernSensorsPath fs with
  | none =>
    rw [hModern] at h
    cases h
  | some modern =>
    obtain ⟨-, rfl, hNonempty⟩ := (retrieveSensors_eq_some hModern).mp h
    refine ⟨hNonempty, fun sensor hMem => ?_⟩
    obtain ⟨processor, -, hScanned⟩ := List.mem_flatMap.mp hMem
    exact mem_scanInputs_file hScanned

/-- What an event says of the sensors, by the action it becomes. -/
inductive Sensed (wild : Option ℚ → UInt32) (s : FileDaemon) : Event → Action → List Sensor → Prop
  | missing {fs : SysFs} (hPoint : s.daemon.point = .start .retrieveSensors) :
      Sensed wild s (.scan fs) (.returned false) s.sensors
  | found {fs : SysFs} {sensors : List Sensor} (hPoint : s.daemon.point = .start .retrieveSensors)
      (hNonempty : sensors ≠ []) (hOpened : ∀ sensor ∈ sensors, sensor.file = true) :
      Sensed wild s (.scan fs) (.returned true) sensors
  | polled {polls : List Poll} {written : ℕ → Bool} (hAll : polls.length = s.sensors.length) :
      Sensed wild s (.poll polls written)
        (.reading (hottest (refreshSensors wild (s.sensors.zip polls))) written)
        (refreshSensors wild (s.sensors.zip polls))
  | fans {dir : ℕ → Option LimitFiles} :
      Sensed wild s (.probe dir) (.fans fun counter => (dir counter).map LimitFiles.read) s.sensors
  | other {a : Action} (hOther : a.isFromFiles s.daemon.point = false) :
      Sensed wild s (.other a) a s.sensors

theorem sensed_of_action {a : Action} (h : e.action wild s = some (a, sensors)) :
    Sensed wild s e a sensors := by
  cases e with
  | scan fs =>
    simp only [Event.action] at h
    split at h
    next hPoint =>
      split at h
      · cases h
        exact .missing hPoint
      next found hFound =>
        cases h
        obtain ⟨hNonempty, hOpened⟩ := retrieveSensors_opened hFound
        exact .found hPoint (mt List.map_eq_nil_iff.mp hNonempty) (List.forall_mem_map.mpr hOpened)
    · cases h
  | probe dir =>
    cases h
    exact .fans
  | poll polls written =>
    simp only [Event.action] at h
    split_ifs at h with hAll
    cases h
    exact .polled hAll
  | other a =>
    simp only [Event.action] at h
    split_ifs at h with hFiles
    cases h
    exact .other (Bool.eq_false_of_not_eq_true hFiles)

/-- A process that sleeps has just received a signal in its sleep, or controlled the fans with
the polls of all its sensors. -/
theorem fileStep_to_sleep (hStep : (fileMachine π wild).step s e = some t)
    (hSleep : t.daemon.point = .sleep) :
    (s.daemon.point = .sleep ∧ recordPolls polls s e t = polls ∧ t.sensors = s.sensors ∧
        t.daemon.loop = s.daemon.loop) ∨
      s.daemon.point = .control ∧
        (recordPolls polls s e t).length = s.sensors.length ∧
        t.sensors = refreshSensors wild (s.sensors.zip (recordPolls polls s e t)) ∧
        t.daemon.loop = controlIteration π s.daemon.loop (hottest t.sensors) := by
  obtain ⟨a, hAction, hTake⟩ := fileStep_eq_some.mp hStep
  obtain ⟨daemon, sensors⟩ := t
  have hSensed := sensed_of_action hAction
  cases transition_of_step hTake with
  | hungUp | stopped =>
    cases hSensed
    exact .inl ⟨hSleep, rfl, rfl, rfl⟩
  | controlled hPoint =>
    cases hSensed with
    | polled hAll => exact .inr ⟨hPoint, hAll, rfl, rfl⟩
    | other hOther => simp [Action.isFromFiles] at hOther
  | starting hPoint hStart =>
    obtain ⟨point, pidFile, rfl, hEarly⟩ := startStep_frame hStart
    cases hEarly <;> cases hSleep
  | _ => cases hSleep

/-! ## The sensors in a run -/

def Open (sensors : List Sensor) : Prop :=
  sensors ≠ [] ∧ ∀ sensor ∈ sensors, sensor.file = true

/-- Once the sensors have been sought there are some. -/
def Equipped (s : FileDaemon) : Prop :=
  match s.daemon.point with
  | .start _ | .exited | .killed => True
  | _ => Open s.sensors

theorem equipped_of_open (h : Open s.sensors) : Equipped s := by
  unfold Equipped
  split
  · exact trivial
  · exact trivial
  · exact trivial
  · exact h

theorem equipped_of_point (h : (∃ next, s.daemon.point = .start next) ∨ s.daemon.point = .exited ∨
    s.daemon.point = .killed) : Equipped s := by
  rcases h with ⟨next, hPoint⟩ | hPoint | hPoint <;> simp only [Equipped, hPoint]

theorem refreshSensor_file (sensor : Sensor) (poll : Poll) :
    (refreshSensor wild sensor poll).file = sensor.file := by
  rw [refreshSensor]
  split_ifs <;> rfl

theorem refreshSensors_open (h : Open sensors) (hAll : polls.length = sensors.length) :
    Open (refreshSensors wild (sensors.zip polls)) := by
  refine ⟨?_, List.forall_mem_map.mpr fun read hMem => ?_⟩
  · have hLength : (refreshSensors wild (sensors.zip polls)).length = sensors.length := by
      rw [refreshSensors, List.length_map, List.length_zip, hAll, min_self]
    exact fun hEmpty => h.1 (List.length_eq_zero_iff.mp (hLength ▸ hEmpty ▸ rfl))
  · rw [refreshSensor_file]
    exact h.2 read.1 (List.of_mem_zip hMem).1

theorem Sensed.open {a : Action} (hSensed : Sensed wild s e a sensors) (h : Open s.sensors) :
    Open sensors := by
  cases hSensed with
  | found _ hNonempty hOpened => exact ⟨hNonempty, hOpened⟩
  | polled hAll => exact refreshSensors_open h hAll
  | missing | fans | other => exact h

theorem startStep_point {d d' : Daemon} {a : Action} {next : Start}
    (h : startStep d next a = some d') :
    (∃ later, d'.point = .start later) ∨ d'.point = .exited ∨
      next = .retrieveSensors ∧ a = .returned true := by
  revert h
  fun_cases startStep d next a <;> intro h <;> cases h
  case case1 | case2 | case3 | case4 | case10 => exact .inl ⟨_, rfl⟩
  case case5 | case11 => exact .inr (.inl rfl)
  case case6 child | case7 child | case8 child =>
    cases child with
    | true => exact .inl ⟨_, rfl⟩
    | false => exact .inr (.inl rfl)
  case case9 =>
    obtain ⟨point, pidFile, hEq, rfl | rfl⟩ := readPid_frame d _ _
    · exact .inr (.inl (congrArg Daemon.point hEq))
    · exact .inl ⟨_, congrArg Daemon.point hEq⟩
  case case12 found =>
    cases found with
    | true => exact .inr (.inr ⟨rfl, rfl⟩)
    | false => exact .inr (.inl rfl)

theorem step_from_start {d d' : Daemon} {a : Action} {next : Start}
    (hPoint : d.point = .start next) (hTake : daemonStep π d a = some d') :
    (∃ later, d'.point = .start later) ∨ d'.point = .exited ∨ d'.point = .killed ∨
      next = .retrieveSensors ∧ a = .returned true := by
  cases transition_of_step hTake with
  | hungUp | stopped => exact .inl ⟨next, hPoint⟩
  | killed => exact .inr (.inr (.inl rfl))
  | starting hStarting hStart =>
    obtain rfl := Point.start.inj (hPoint.symm.trans hStarting)
    exact (startStep_point hStart).imp_right fun h => h.imp_right .inr
  | _ => simp_all

theorem Equipped.step (h : Equipped s) (hStep : (fileMachine π wild).step s e = some t) :
    Equipped t := by
  obtain ⟨a, hAction, hTake⟩ := fileStep_eq_some.mp hStep
  obtain ⟨daemon, sensors⟩ := t
  have hSensed := sensed_of_action hAction
  cases hPoint : s.daemon.point with
  | start next =>
    rcases step_from_start hPoint hTake with hLater | hExited | hKilled | ⟨rfl, rfl⟩
    · exact equipped_of_point (.inl hLater)
    · exact equipped_of_point (.inr (.inl hExited))
    · exact equipped_of_point (.inr (.inr hKilled))
    · cases hSensed with
      | found _ hNonempty hOpened => exact equipped_of_open ⟨hNonempty, hOpened⟩
      | other hOther => simp [Action.isFromFiles, hPoint] at hOther
  | exited | killed => simp [daemonStep, hPoint] at hTake
  | _ =>
    simp only [Equipped, hPoint] at h
    exact equipped_of_open (hSensed.open h)

/-! ## A poll -/

theorem Poll.Reports.temperature_eq {sensor : Sensor} {poll : Poll} {n : ℕ}
    (h : poll.Reports n) (hFile : sensor.file = true) :
    (refreshSensor wild sensor poll).temperature.toNat = n := by
  have hReads : ReadsAs (sensor, poll) n := ⟨hFile, h⟩
  exact hReads.temperature_eq

theorem refreshSensors_reported (hOpened : ∀ sensor ∈ sensors, sensor.file = true)
    (hAll : polls.length = sensors.length) (hReports : List.Forall₂ Poll.Reports polls reports) :
    List.Forall₂ (fun sensor n => sensor.temperature.toNat = n)
      (refreshSensors wild (sensors.zip polls)) reports := by
  induction hReports generalizing sensors with
  | nil =>
    rw [List.zip_nil_right]
    exact .nil
  | cons hHead _ ih =>
    cases sensors with
    | nil => cases hAll
    | cons sensor rest =>
      obtain ⟨hFile, hRest⟩ := List.forall_mem_cons.mp hOpened
      exact .cons (hHead.temperature_eq hFile) (ih hRest (Nat.succ.inj hAll))

/-- The reading is the largest number reported, in whole degrees. -/
theorem hottest_reported (hReported : List.Forall₂
      (fun (sensor : Sensor) n => sensor.temperature.toNat = n) sensors reports)
    (hCold : ∀ n ∈ reports, n < 65536000) :
    ∃ m : ℕ, (hottest sensors).degrees = m / 1000 ∧
      ∀ bound, m ≤ bound ↔ ∀ n ∈ reports, n ≤ bound := by
  have hBounds (bound : ℕ) :
      (∀ sensor ∈ sensors, sensor.temperature.toNat ≤ bound) ↔ ∀ n ∈ reports, n ≤ bound := by
    clear hCold
    induction hReported with
    | nil => simp
    | cons hHead _ ih => rw [List.forall_mem_cons, List.forall_mem_cons, hHead, ih]
  have hMax (bound : ℕ) :
      (sensors.foldl (fun temp (sensor : Sensor) => max temp sensor.temperature) 0).toNat ≤ bound ↔
        ∀ n ∈ reports, n ≤ bound := by
    rw [foldl_max_le_iff, hBounds]
    exact and_iff_right (Nat.zero_le bound)
  have hFits := (hMax 65535999).mpr fun n hMem => Nat.le_of_lt_succ (hCold n hMem)
  refine ⟨_, ?_, hMax⟩
  rw [hottest, Reading.degrees, UInt16.toNat_ofNat', Nat.mod_eq_of_lt (by omega)]
  norm_cast

theorem fanSpeed_of_max_le {p : Params} {oldTemp newTemp : Reading} {fan : Fan}
    (hLow : p.lowTemp < newTemp.degrees) (hMax : p.maxTemp ≤ newTemp.degrees) :
    fanSpeed π p oldTemp newTemp fan = fan.fanMaxSpeed := by
  have hNotRises : ¬ Rises p oldTemp newTemp := fun h => absurd h.2.2 hMax.not_gt
  have hNotFalls : ¬ Falls p oldTemp newTemp := fun h => absurd h.2.2 hMax.not_gt
  rw [fanSpeed_eq, if_neg hNotRises, if_neg hNotFalls, thresholdSpeed_of_max_le hLow hMax]

theorem answered_of_control {loop : Loop} (hOpen : Open sensors)
    (hOpened : ∀ fan ∈ loop.fans, fan.file = true) (hAll : polls.length = sensors.length) :
    Answered
      (controlIteration π loop (hottest (refreshSensors wild (sensors.zip polls))))
      (refreshSensors wild (sensors.zip polls)) polls where
  reported _ hReports := refreshSensors_reported hOpen.2 hAll hReports
  temp := rfl
  hot := by
    intro hLow hMax
    refine List.forall_mem_map.mpr fun fan hMem => ?_
    rw [controlFan_fst (hOpened fan hMem)]
    exact fanSpeed_of_max_le hLow hMax
  cool := by
    intro hOrder hLow
    refine List.forall_mem_map.mpr fun fan hMem => ?_
    rw [controlFan_fst (hOpened fan hMem)]
    exact (fanSpeed_eq_threshold hOrder (.inl hLow)).trans (thresholdSpeed_of_le_low hLow)

theorem answered_step (hEquipped : Equipped s)
    (hOpened : ∀ fan ∈ s.daemon.loop.fans, fan.file = true)
    (h : s.daemon.point = .sleep → Answered s.daemon.loop s.sensors polls)
    (hStep : (fileMachine π wild).step s e = some t) (hSleep : t.daemon.point = .sleep) :
    Answered t.daemon.loop t.sensors (recordPolls polls s e t) := by
  rcases fileStep_to_sleep hStep hSleep with ⟨hWas, hPolls, hSensors, hLoop⟩ | hControl
  · rw [hPolls, hSensors, hLoop]
    exact h hWas
  · obtain ⟨hPoint, hAll, hSensors, hLoop⟩ := hControl
    simp only [Equipped, hPoint] at hEquipped
    rw [hLoop, hSensors]
    exact answered_of_control hEquipped hOpened hAll

/-! ## From the sensors to the registers -/

theorem Answered.cooledFor {d : Daemon} (h : Answered d.loop sensors polls)
    (hControl : InControl d) (hNonempty : sensors ≠ [])
    (hReports : List.Forall₂ Poll.Reports polls reports) (hCold : ∀ n ∈ reports, n < 65536000) :
    CooledFor d reports := by
  have hReported := h.reported reports hReports
  obtain ⟨m, hDegrees, hHighest⟩ := hottest_reported hReported hCold
  rw [← h.temp] at hDegrees
  refine ⟨fun fan hMem => (hControl fan hMem).1, ?_, ?_⟩
  · rintro hOrder ⟨n, hMem, hHot⟩ fan hFan
    have hLe : n ≤ m := (hHighest m).mp le_rfl n hMem
    have hMax : (d.loop.params.maxTemp : ℤ) ≤ d.loop.newTemp.degrees := by
      rw [hDegrees]
      omega
    have hLow : (d.loop.params.lowTemp : ℤ) < d.loop.newTemp.degrees := lt_of_lt_of_le hOrder hMax
    rw [(hControl fan hFan).2, h.hot hLow hMax fan hFan]
  · intro hOrder hCool fan hFan
    have hSome : reports ≠ [] := by
      rintro rfl
      exact hNonempty (List.forall₂_nil_right_iff.mp hReported)
    have hBound : m ≤ ((d.loop.params.lowTemp + 1) * 1000 - 1 : ℤ).toNat := by
      rw [hHighest]
      intro n hMem
      have hLt := hCool n hMem
      omega
    obtain ⟨n, hMem⟩ := List.exists_mem_of_ne_nil reports hSome
    have hLt := hCool n hMem
    have hLow : d.loop.newTemp.degrees ≤ d.loop.params.lowTemp := by
      rw [hDegrees]
      omega
    rw [(hControl fan hFan).2, h.cool hOrder hLow fan hFan]

structure Sane (s : FileDaemon × List Poll) : Prop where
  equipped : Equipped s.1
  commanded : Commanded s.1.daemon
  followed : Followed s.1.daemon
  answered : s.1.daemon.point = .sleep → Answered s.1.daemon.loop s.1.sensors s.2

theorem Sane.step (h : Sane (s, polls)) (hStep : (fileMachine π wild).step s e = some t)
    (hUntroubled : FilesUntroubled wild (s, polls) e (t, recordPolls polls s e t)) :
    Sane (t, recordPolls polls s e t) := by
  obtain ⟨a, hAction, hTake⟩ := fileStep_eq_some.mp hStep
  have hBoth := followed_and_commanded_step ⟨h.commanded, h.followed⟩ hTake (hUntroubled _ hAction)
  exact ⟨h.equipped.step hStep, hBoth.1, hBoth.2,
    answered_step h.equipped h.commanded.opened h.answered hStep⟩

/-- In a process in which no write fails, every suspend is detected and none changes a speed, after
a poll in which all sensors have reported numbers below 65536 degrees: one of them at the maximum
has every fan run at full speed while the process sleeps, and all of them at the low threshold
have it run at its minimum. -/
theorem hot_sensor_full_speed (π : Platform) (wild : Option ℚ → UInt32) (daemonize : Bool)
    (pid : ℤ) (pidFile : Option ℤ) (smc : Smc) (events : List Event)
    (hUntroubled : ((fileMachine π wild).observe recordPolls).EachStep (FilesUntroubled wild)
      (fileLaunch daemonize pid pidFile smc, []) events) :
    ((fileMachine π wild).observe recordPolls).Always
      (fun s => s.1.daemon.point = .sleep → ∀ reports, List.Forall₂ Poll.Reports s.2 reports →
        (∀ n ∈ reports, n < 65536000) → CooledFor s.1.daemon reports)
      (fileLaunch daemonize pid pidFile smc, []) events := by
  have hInit : Sane (fileLaunch daemonize pid pidFile smc, []) :=
    ⟨trivial, launch_commanded daemonize pid pidFile smc, trivial, nofun⟩
  have hAlways := Machine.observe_always (J := Sane)
    (fun s polls e t hSane hStep hOk => hSane.step hStep hOk) hInit hUntroubled
  apply hAlways.mono
  rintro ⟨s, polls⟩ hSane (hSleep : s.daemon.point = .sleep) reports hReports hCold
  have hEquipped := hSane.equipped
  simp only [Equipped, hSleep] at hEquipped
  exact (hSane.answered hSleep).cooledFor (hSane.followed.inControl hSane.commanded hSleep)
    hEquipped.1 hReports hCold

def oneInputFs : SysFs where
  release := cstring "5.4.0"
  readable path := path = hwmonPath 0 2 ∨ path = modernPath 0 2 1
  scanned _ := 50000

/-- A process on files with one sensor and one fan, up to its first sleep. -/
def sampleEvents (first second : CString) (hFirst : first.length < bufferSize)
    (hSecond : second.length < bufferSize) : List Event :=
  [.other .proceed, .other .proceed, .other .proceed, .other .proceed,
    .other (.probed false false), .other (.returned true), .scan oneInputFs,
    .probe fun counter =>
      if counter = 1 then some ⟨some (cstring "2000\n"), some (cstring "6200\n")⟩ else none,
    .other (.file none), .other .proceed, .other .proceed, .other (.returned true),
    .other .proceed, .poll [(digitsRead first hFirst).2] fun _ => true, .other .proceed,
    .other .proceed, .other .proceed, .poll [(digitsRead second hSecond).2] fun _ => true]

/-- The writes of the event succeed, and it is no suspend. -/
def Event.Succeeds : Event → Prop
  | .scan _ => True
  | .probe _ => True
  | .poll _ written => ∀ id, written id = true
  | .other (.returned ok) => ok = true
  | .other (.slept wake) => wake = none
  | .other _ => True

theorem modeWritten_of_ne {d : Daemon} {a : Action} (h : a ≠ .returned false) :
    modeWritten d a = true := by
  unfold modeWritten
  split
  case h_1 ok _ | h_2 ok _ =>
    cases ok with
    | true => rfl
    | false => exact absurd rfl h
  case h_3 => rfl

theorem untroubled_of_succeeds {d d' : Daemon} {a : Action} (hOther : a.isFromFiles d.point = false)
    (h : (Event.other a).Succeeds) : Untroubled d a d' := by
  cases a with
  | returned ok =>
    obtain rfl : ok = true := h
    exact ⟨modeWritten_of_ne (by simp), rfl, rfl⟩
  | slept wake =>
    obtain rfl : wake = none := h
    exact ⟨modeWritten_of_ne (by simp), rfl, rfl⟩
  | reading => cases hOther
  | _ => exact ⟨modeWritten_of_ne (by simp), rfl, rfl⟩

theorem filesUntroubled_of_succeeds (h : e.Succeeds) (r : FileDaemon × List Poll) :
    FilesUntroubled wild (s, polls) e r := by
  rintro ⟨a, sensors⟩ hAction
  cases sensed_of_action hAction with
  | missing hPoint =>
    have hPoint : s.daemon.point = .start .retrieveSensors := hPoint
    exact ⟨by simp only [modeWritten, hPoint], rfl, rfl⟩
  | found | fans => exact ⟨modeWritten_of_ne (by simp), rfl, rfl⟩
  | polled =>
    refine ⟨modeWritten_of_ne (by simp), ?_, rfl⟩
    exact List.all_eq_true.mpr fun fan _ => h fan.fanId
  | other hOther => exact untroubled_of_succeeds hOther h

theorem sampleEvents_succeed (first second : CString) (hFirst : first.length < bufferSize)
    (hSecond : second.length < bufferSize) :
    ∀ e ∈ sampleEvents first second hFirst hSecond, e.Succeeds := by
  simp [sampleEvents, Event.Succeeds]

theorem hot_sensor_full_speed_sample :
    ((fileMachine Platform.wrap fun _ => 0).observe recordPolls).Always
      (fun s => s.1.daemon.point = .sleep → ∀ reports, List.Forall₂ Poll.Reports s.2 reports →
        (∀ n ∈ reports, n < 65536000) → CooledFor s.1.daemon reports)
      (fileLaunch false 4242 none fun _ => ⟨false, 0⟩, [])
      (sampleEvents (cstring "50000") (cstring "91000") (by decide) (by decide)) :=
  hot_sensor_full_speed Platform.wrap (fun _ => 0) false 4242 none (fun _ => ⟨false, 0⟩) _ <|
    Machine.eachStep_of_mem fun _ hMem _ t =>
      filesUntroubled_of_succeeds (sampleEvents_succeed _ _ _ _ _ hMem) t

end Mbpfan
