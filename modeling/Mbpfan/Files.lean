import Mbpfan.Transition
import Mbpfan.Printed
import Mbpfan.Startup

/-!
# The files behind the hardware

The daemon acts on the hardware and on other processes through the texts it writes to files.
Every action of the process is traced here as the writes it makes to a file it has opened for
them, path by path, and what the files show afterwards is what the registers and the PID file are
in the machine. A write to the file of a fan, which is an attribute of a device, replaces its text.
-/

namespace Mbpfan

open Library

abbrev Files := CString → Option (List UInt8)

def Files.write (files : Files) (path : CString) (text : List UInt8) : Files :=
  Function.update files path (some text)

def Files.remove (files : Files) (path : CString) : Files := Function.update files path none

def pidPath : CString := cstring "/run/mbpfan.pid"

/-- `fprintf(file, "%d", mode)` for one fan. -/
def writeMode (fanPath : CString) (fanId : ℕ) (mode : ℤ) (files : Files) : Files :=
  files.write (fanFilePath fanPath fanId .manual) (formatInt mode)

/-- The write of `set_fan_speed`. `written` tells whether `pwrite` succeeds. -/
def writeSpeedText (fanPath : CString) (fan : Fan) (speed : CInt) (written : Bool)
    (files : Files) : Files :=
  match (setFanSpeed fan speed).2.bind speedText with
  | none => files
  | some text => if written then files.write (fanFilePath fanPath fan.fanId .output) text else files

def writeSpeedTexts (fanPath : CString) (speed : Fan → CInt) (written : ℕ → Bool) :
    List Fan → Files → Files
  | [], files => files
  | fan :: rest, files =>
    writeSpeedTexts fanPath speed written rest
      (writeSpeedText fanPath fan (speed fan) (written fan.fanId) files)

/-- After a detected suspend the files of the fans show the registers as they are then. -/
def showRegisters (fanPath : CString) (smc : Smc) : List ℕ → Files → Files
  | [], files => files
  | id :: rest, files =>
    showRegisters fanPath smc rest
      ((writeMode fanPath id (if (smc id).manual then 1 else 0) files).write
        (fanFilePath fanPath id .output) (formatInt (smc id).output))

/-- What a step writes to the files it has opened for it. -/
def recordFiles (π : Platform) (fanPath : CString) (files : Files) (s : Daemon) (a : Action)
    (_ : Daemon) : Files :=
  match s.point, a with
  | .start .readPid, .probed false true =>
    if (files pidPath).isSome then files.remove pidPath else files
  | .start .writePid, .returned true => files.write pidPath (writePidText s.pid)
  | .setFansMan _ (id :: _), .returned true => writeMode fanPath id 1 files
  | .firstReading, .reading _ written =>
    writeSpeedTexts fanPath Fan.fanMinSpeed written s.loop.fans files
  | .control, .reading newTemp written =>
    writeSpeedTexts fanPath (fanSpeed π s.loop.params s.loop.newTemp newTemp) written s.loop.fans
      files
  | .sleep, .slept (some smc) => showRegisters fanPath smc (List.range numFans) files
  | .deletePid, .returned true => files.remove pidPath
  | .setFansAuto (id :: _), .returned true => writeMode fanPath id 0 files
  | _, _ => files

/-! ## What the files show -/

/-- The registers as the texts in the files of the fans have them. -/
def shownSmc (fanPath : CString) (files : Files) : Smc := fun id =>
  { manual := (files (fanFilePath fanPath id .manual)).any fun text => leadingInt text ≠ 0
    output := ((files (fanFilePath fanPath id .output)).map leadingInt).getD 0 }

def shownPid (files : Files) : Option ℤ := (files pidPath).map fun text => readPidText (some text)

structure Shows (fanPath : CString) (files : Files) (s : Daemon) : Prop where
  pid : shownPid files = s.pidFile
  smc : ∀ id < numFans, shownSmc fanPath files id = s.smc id

variable {π : Platform} {s t : Daemon} {a : Action} {fanPath : CString} {files : Files}

/-! ## Writes -/

theorem write_fanFile (fanId id : ℕ) (file other : FanFile) (text : List UInt8) :
    files.write (fanFilePath fanPath fanId file) text (fanFilePath fanPath id other) =
      if id = fanId ∧ other = file then some text else files (fanFilePath fanPath id other) := by
  rw [Files.write, Function.update_apply]
  simp only [fanFilePath_inj]

theorem shownSmc_writeMode (mode : Bool) (fanId : ℕ) :
    shownSmc fanPath (writeMode fanPath fanId (if mode then 1 else 0) files) =
      (shownSmc fanPath files).setMode fanId mode := by
  funext id
  rcases eq_or_ne id fanId with rfl | hId
  · cases mode <;> simp [shownSmc, writeMode, write_fanFile, Smc.setMode, leadingInt_formatInt]
  · rw [setMode_of_ne mode hId]
    simp [shownSmc, writeMode, write_fanFile, hId]

theorem shownSmc_writeOutput (fanId : ℕ) (speed : ℤ) :
    shownSmc fanPath (files.write (fanFilePath fanPath fanId .output) (formatInt speed)) =
      Function.update (shownSmc fanPath files) fanId
        { shownSmc fanPath files fanId with output := speed } := by
  funext id
  rcases eq_or_ne id fanId with rfl | hId
  · simp [shownSmc, write_fanFile, leadingInt_formatInt]
  · rw [Function.update_of_ne hId]
    simp [shownSmc, write_fanFile, hId]

theorem shownSmc_writeSpeedText (fan : Fan) (speed : CInt) (written : Bool) :
    shownSmc fanPath (writeSpeedText fanPath fan speed written files) =
      writeSpeed fan speed written (shownSmc fanPath files) := by
  rw [writeSpeedText, writeSpeed]
  cases (setFanSpeed fan speed).2 with
  | none => rfl
  | some value =>
    simp only [Option.bind_some, speedText_eq]
    cases written with
    | false => rfl
    | true => exact shownSmc_writeOutput fan.fanId value

theorem shownSmc_writeSpeedTexts (speed : Fan → CInt) (written : ℕ → Bool) (fans : List Fan) :
    shownSmc fanPath (writeSpeedTexts fanPath speed written fans files) =
      writeSpeeds speed written fans (shownSmc fanPath files) := by
  induction fans generalizing files with
  | nil => rfl
  | cons fan rest ih => rw [writeSpeedTexts, ih, shownSmc_writeSpeedText, writeSpeeds]

theorem shownSmc_showRegisters (smc : Smc) (ids : List ℕ) :
    ∀ id, shownSmc fanPath (showRegisters fanPath smc ids files) id =
      if id ∈ ids then smc id else shownSmc fanPath files id := by
  induction ids generalizing files with
  | nil => simp [showRegisters]
  | cons first rest ih =>
    intro id
    rw [showRegisters, ih, shownSmc_writeOutput, shownSmc_writeMode]
    by_cases hRest : id ∈ rest
    · simp [hRest]
    · rcases eq_or_ne id first with rfl | hId
      · simp [hRest, Smc.setMode]
      · simp [hRest, hId, setMode_of_ne]

/-! ## The PID file -/

theorem fanFilePath_ne (hPath : cstring "/sys/" <+: fanPath) {path : CString}
    (hOther : ¬ cstring "/sys/" <+: path) (id : ℕ) (file : FanFile) :
    fanFilePath fanPath id file ≠ path := by
  rintro rfl
  rw [fanFilePath, List.append_assoc] at hOther
  exact hOther (hPath.trans (List.prefix_append _ _))

theorem fanFilePath_ne_pidPath (hPath : cstring "/sys/" <+: fanPath) (id : ℕ) (file : FanFile) :
    fanFilePath fanPath id file ≠ pidPath :=
  fanFilePath_ne hPath (by decide +kernel) id file

theorem shownSmc_update_of_ne {path : CString}
    (hFans : ∀ id file, fanFilePath fanPath id file ≠ path) (content : Option (List UInt8)) :
    shownSmc fanPath (Function.update files path content) = shownSmc fanPath files := by
  funext id
  simp [shownSmc, Function.update_of_ne (hFans id _)]

theorem shownSmc_update_pidPath (hPath : cstring "/sys/" <+: fanPath)
    (content : Option (List UInt8)) :
    shownSmc fanPath (Function.update files pidPath content) = shownSmc fanPath files :=
  shownSmc_update_of_ne (fanFilePath_ne_pidPath hPath) content

theorem shownPid_write (hPath : cstring "/sys/" <+: fanPath) (id : ℕ) (file : FanFile)
    (text : List UInt8) :
    shownPid (files.write (fanFilePath fanPath id file) text) = shownPid files := by
  rw [shownPid, Files.write, Function.update_of_ne (fanFilePath_ne_pidPath hPath id file).symm]
  rfl

theorem shownPid_writeSpeedTexts (hPath : cstring "/sys/" <+: fanPath) (speed : Fan → CInt)
    (written : ℕ → Bool) (fans : List Fan) :
    shownPid (writeSpeedTexts fanPath speed written fans files) = shownPid files := by
  induction fans generalizing files with
  | nil => rfl
  | cons fan rest ih =>
    rw [writeSpeedTexts, ih, writeSpeedText]
    split
    · rfl
    · split_ifs
      · exact shownPid_write hPath _ _ _
      · rfl

theorem shownPid_showRegisters (hPath : cstring "/sys/" <+: fanPath) (smc : Smc) (ids : List ℕ) :
    shownPid (showRegisters fanPath smc ids files) = shownPid files := by
  induction ids generalizing files with
  | nil => rfl
  | cons id rest ih =>
    rw [showRegisters, ih, shownPid_write hPath, writeMode, shownPid_write hPath]

/-! ## Registers one by one -/

theorem setMode_congr {smc smc' : Smc} {id : ℕ} (h : smc id = smc' id) (fanId : ℕ) (mode : Bool) :
    smc.setMode fanId mode id = smc'.setMode fanId mode id := by
  rcases eq_or_ne id fanId with rfl | hId
  · simp [Smc.setMode, h]
  · rw [setMode_of_ne mode hId, setMode_of_ne mode hId, h]

theorem writeSpeed_congr {smc smc' : Smc} {id : ℕ} (h : smc id = smc' id) (fan : Fan)
    (speed : CInt) (written : Bool) :
    writeSpeed fan speed written smc id = writeSpeed fan speed written smc' id := by
  rcases eq_or_ne id fan.fanId with rfl | hId
  · rw [writeSpeed, writeSpeed]
    cases (setFanSpeed fan speed).2 with
    | none => exact h
    | some value => cases written <;> simp [Smc.setOutput, h]
  · rw [writeSpeed_of_ne speed written hId, writeSpeed_of_ne speed written hId, h]

theorem writeSpeeds_congr {smc smc' : Smc} {id : ℕ} (h : smc id = smc' id) (speed : Fan → CInt)
    (written : ℕ → Bool) (fans : List Fan) :
    writeSpeeds speed written fans smc id = writeSpeeds speed written fans smc' id := by
  induction fans generalizing smc smc' with
  | nil => exact h
  | cons fan rest ih => exact ih (writeSpeed_congr h fan (speed fan) (written fan.fanId))

/-! ## Steps and runs -/

theorem recordFiles_signal (sig : Signal) : recordFiles π fanPath files s (.signal sig) t = files := by
  unfold recordFiles
  split <;> simp_all

theorem shownPid_isSome : (shownPid files).isSome = (files pidPath).isSome := by
  rw [shownPid, Option.isSome_map]

theorem Shows.remove (hPath : cstring "/sys/" <+: fanPath) (h : Shows fanPath files s) (point : Point) :
    Shows fanPath (files.remove pidPath) { s with pidFile := none, point := point } := by
  refine ⟨by simp [shownPid, Files.remove], fun id hId => ?_⟩
  rw [Files.remove, shownSmc_update_pidPath hPath]
  exact h.smc id hId

theorem Shows.readPid (hPath : cstring "/sys/" <+: fanPath) (h : Shows fanPath files s)
    (hPoint : s.point = .start .readPid) (alive removed : Bool) :
    Shows fanPath (recordFiles π fanPath files s (.probed alive removed) t)
      (Mbpfan.readPid s alive removed) := by
  have hRecord : recordFiles π fanPath files s (.probed alive removed) t =
      if alive = false ∧ removed = true ∧ (files pidPath).isSome then files.remove pidPath
      else files := by
    cases alive <;> cases removed <;> simp [recordFiles, hPoint]
  have hSome := congrArg Option.isSome h.pid
  rw [shownPid_isSome] at hSome
  rw [hRecord, Mbpfan.readPid, hSome]
  cases hOld : s.pidFile with
  | none =>
    rw [if_neg (by simp)]
    exact ⟨h.pid, h.smc⟩
  | some pid =>
    dsimp only
    by_cases hGone : alive = false ∧ removed = true
    · rw [if_pos ⟨hGone.1, hGone.2, rfl⟩, if_pos hGone]
      exact h.remove hPath _
    · rw [if_neg fun hAll => hGone ⟨hAll.1, hAll.2.1⟩, if_neg hGone]
      split_ifs <;> exact ⟨h.pid, h.smc⟩

theorem Shows.startStep {next : Start} (hPath : cstring "/sys/" <+: fanPath) (hPid : InInt s.pid)
    (h : Shows fanPath files s) (hPoint : s.point = .start next)
    (hStep : Mbpfan.startStep s next a = some t) :
    Shows fanPath (recordFiles π fanPath files s a t) t := by
  obtain ⟨hPidFile, hSmc⟩ := h
  revert hStep
  fun_cases Mbpfan.startStep s next a <;> intro hStep <;> cases hStep
  case case9 alive removed =>
    exact Shows.readPid hPath ⟨hPidFile, hSmc⟩ hPoint alive removed
  case case10 =>
    refine ⟨?_, fun id hId => ?_⟩
    · simp [recordFiles, hPoint, shownPid, Files.write, readPidText_writePidText hPid]
    · simp only [recordFiles, hPoint, Files.write]
      rw [shownSmc_update_pidPath hPath]
      exact hSmc id hId
  all_goals
    simp only [recordFiles, hPoint]
    exact ⟨hPidFile, hSmc⟩

theorem Shows.step (hPath : cstring "/sys/" <+: fanPath) (hPid : InInt s.pid)
    (h : Shows fanPath files s) (hStep : daemonStep π s a = some t) :
    Shows fanPath (recordFiles π fanPath files s a t) t := by
  obtain ⟨hPidFile, hSmc⟩ := h
  cases transition_of_step hStep with
  | hungUp | stopped | killed =>
    rw [recordFiles_signal]
    exact ⟨hPidFile, hSmc⟩
  | starting hPoint hStart => exact Shows.startStep hPath hPid ⟨hPidFile, hSmc⟩ hPoint hStart
  | @manual caller fanId rest ok hPoint =>
    cases ok with
    | false =>
      simp only [recordFiles, hPoint]
      exact ⟨hPidFile, hSmc⟩
    | true =>
      have hMode : shownSmc fanPath (writeMode fanPath fanId 1 files) =
          (shownSmc fanPath files).setMode fanId true := shownSmc_writeMode true fanId
      simp only [recordFiles, hPoint]
      refine ⟨(shownPid_write hPath _ _ _).trans hPidFile, fun id hId => ?_⟩
      exact (congrFun hMode id).trans (setMode_congr (hSmc id hId) fanId true)
  | @automatic fanId rest ok hPoint =>
    cases ok with
    | false =>
      simp only [recordFiles, hPoint]
      exact ⟨hPidFile, hSmc⟩
    | true =>
      have hMode : shownSmc fanPath (writeMode fanPath fanId 0 files) =
          (shownSmc fanPath files).setMode fanId false := shownSmc_writeMode false fanId
      simp only [recordFiles, hPoint]
      refine ⟨(shownPid_write hPath _ _ _).trans hPidFile, fun id hId => ?_⟩
      exact (congrFun hMode id).trans (setMode_congr (hSmc id hId) fanId false)
  | firstReading hPoint =>
    simp only [recordFiles, hPoint]
    refine ⟨(shownPid_writeSpeedTexts hPath _ _ _).trans hPidFile, fun id hId => ?_⟩
    rw [shownSmc_writeSpeedTexts]
    exact writeSpeeds_congr (hSmc id hId) _ _ _
  | controlled hPoint =>
    simp only [recordFiles, hPoint]
    refine ⟨(shownPid_writeSpeedTexts hPath _ _ _).trans hPidFile, fun id hId => ?_⟩
    rw [shownSmc_writeSpeedTexts]
    exact writeSpeeds_congr (hSmc id hId) _ _ _
  | woke hPoint =>
    simp only [recordFiles, hPoint]
    refine ⟨(shownPid_showRegisters hPath _ _).trans hPidFile, fun id hId => ?_⟩
    rw [shownSmc_showRegisters]
    exact if_pos (List.mem_range.mpr hId)
  | @pidDeleted removed hPoint =>
    cases removed with
    | false =>
      simp only [recordFiles, hPoint]
      exact ⟨hPidFile, hSmc⟩
    | true =>
      simp only [recordFiles, hPoint]
      exact Shows.remove hPath ⟨hPidFile, hSmc⟩ _
  | noFans hPoint | foundFans hPoint | opened hPoint | configured hPoint | reconfigured hPoint
  | refused hPoint | accepted hPoint | allManual hPoint | allManualAgain hPoint
  | recalibrated hPoint | exiting hPoint | continuing hPoint | reloading hPoint | keeping hPoint
  | cleared hPoint | slept hPoint | allAutomatic hPoint =>
    simp only [recordFiles, hPoint]
    exact ⟨hPidFile, hSmc⟩

end Mbpfan
