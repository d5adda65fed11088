import Mbpfan.Library.CInt

/-!
# Temperatures, fans and what the daemon writes to them

The globals of `mbpfan.c` and the fields of `s_fans` that decide a speed. A fan's paths
are those of its number, so the number stands for them. `setFanSpeed` answers the fan
together with the value handed to `pwrite`, if it calls it.
-/

namespace Mbpfan

open Library

structure Params where
  lowTemp : CInt
  highTemp : CInt
  maxTemp : CInt
  pollingInterval : CInt
  deriving DecidableEq

def defaultParams : Params where
  lowTemp := ⟨63, by decide⟩
  highTemp := ⟨66, by decide⟩
  maxTemp := ⟨86, by decide⟩
  pollingInterval := ⟨1, by decide⟩

/-- `file` says whether the stream of the output file is open. -/
structure Fan where
  file : Bool
  stepUp : CInt
  stepDown : CInt
  fanId : ℕ
  oldSpeed : CInt
  fanMaxSpeed : CInt
  fanMinSpeed : CInt
  deriving DecidableEq

/-- The result of `get_temp`, an `unsigned short`. -/
abbrev Reading := UInt16

def Reading.degrees (t : Reading) : ℤ := t.toNat

def numFans : ℕ := 10
def minFanSpeedDefault : CInt := ⟨500, by decide⟩
def maxFanSpeedDefault : CInt := ⟨6500, by decide⟩

/-- What `retrieve_fans` finds for a fan whose output file opens for writing: the values
`read_value` returns for the `_min` and the `_max` file, `-1` when there is none. -/
structure FanFiles where
  readMin : CInt
  readMax : CInt

def retrieveFan (counter : ℕ) (files : FanFiles) : Fan where
  file := true
  -- `malloc` leaves the steps unset; `mbpfan` sets them before the first use.
  stepUp := CInt.zero
  stepDown := CInt.zero
  fanId := counter
  oldSpeed := CInt.zero
  fanMinSpeed :=
    if files.readMin.val = -1 ∨ files.readMin < minFanSpeedDefault then minFanSpeedDefault
    else files.readMin
  fanMaxSpeed :=
    if files.readMax.val = -1 ∨ files.readMax > maxFanSpeedDefault then maxFanSpeedDefault
    else files.readMax

/-- The list `retrieve_fans` builds; the process exits when it is empty. -/
def retrieveFans (probe : ℕ → Option FanFiles) : List Fan :=
  (List.range numFans).filterMap fun counter => (probe counter).map (retrieveFan counter)

theorem retrieveFans_file {probe : ℕ → Option FanFiles} {fan : Fan}
    (h : fan ∈ retrieveFans probe) : fan.file = true := by
  obtain ⟨counter, _, hFan⟩ := List.mem_filterMap.mp h
  obtain ⟨files, _, rfl⟩ := Option.map_eq_some_iff.mp hFan
  rfl

theorem retrieveFans_nodup (probe : ℕ → Option FanFiles) :
    ((retrieveFans probe).map Fan.fanId).Nodup := by
  have hSub : ((retrieveFans probe).map Fan.fanId).Sublist (List.range numFans) := by
    rw [retrieveFans]
    induction List.range numFans with
    | nil => exact List.Sublist.slnil
    | cons counter rest ih =>
      cases hProbe : probe counter with
      | none => simpa [List.filterMap_cons, hProbe] using ih.cons counter
      | some files =>
        simpa [List.filterMap_cons, hProbe, retrieveFan] using ih.cons_cons counter
  exact hSub.nodup List.nodup_range

/-- One fan with the limits `2000` and `6200` that the configuration file speaks of. -/
def sampleProbe (counter : ℕ) : Option FanFiles :=
  if counter = 1 then some ⟨⟨2000, by decide⟩, ⟨6200, by decide⟩⟩ else none

def sampleFans : List Fan := retrieveFans sampleProbe

def sampleFan : Fan := retrieveFan 1 ⟨⟨2000, by decide⟩, ⟨6200, by decide⟩⟩

/-- `set_fan_speed`: nothing is written for the speed already held. -/
def setFanSpeed (fan : Fan) (speed : CInt) : Fan × Option CInt :=
  if fan.file = true ∧ fan.oldSpeed ≠ speed then ({ fan with oldSpeed := speed }, some speed)
  else (fan, none)

theorem setFanSpeed_fst {fan : Fan} (hFile : fan.file = true) (speed : CInt) :
    (setFanSpeed fan speed).1 = { fan with oldSpeed := speed } := by
  rw [setFanSpeed]
  split_ifs with h
  · rfl
  · have hEq : fan.oldSpeed = speed := by simpa [hFile] using h
    rw [← hEq]

theorem setFanSpeed_of_eq {fan : Fan} {speed : CInt} (h : fan.oldSpeed = speed) :
    setFanSpeed fan speed = (fan, none) := by
  simp [setFanSpeed, h]

theorem setFanSpeed_snd_of_ne {fan : Fan} {speed : CInt} (hFile : fan.file = true)
    (h : fan.oldSpeed ≠ speed) : (setFanSpeed fan speed).2 = some speed := by
  simp [setFanSpeed, hFile, h]

theorem setFanSpeed_frame (fan : Fan) (speed : CInt) :
    ∃ old, (setFanSpeed fan speed).1 = { fan with oldSpeed := old } := by
  rw [setFanSpeed]
  split_ifs
  · exact ⟨speed, rfl⟩
  · exact ⟨fan.oldSpeed, rfl⟩

end Mbpfan
