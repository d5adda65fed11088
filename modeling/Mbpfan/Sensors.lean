import Mbpfan.CString
import Mbpfan.Fans

/-!
# Reading the sensors

`refresh_sensors` reads every file into a buffer of 16 bytes, stores a NUL at the index that
`pread` returned and converts what the buffer then holds. The result of `pread` is not
looked at: an error is the index -1, a full buffer the index 16, an empty file the text of
the number 0.
-/

namespace Mbpfan

open Library

structure Sensor where
  file : Bool
  temperature : UInt32
  deriving DecidableEq

def bufferSize : ℕ := 16

/-- What a call of `pread` meets: the bytes it returns, `none` for an error, and the memory
from the start of the buffer on, which is not initialised. -/
structure Poll where
  result : Option {bytes : List UInt8 // bytes.length ≤ bufferSize}
  memory : {memory : List UInt8 // bufferSize < memory.length}

namespace Poll

def len (poll : Poll) : ℤ :=
  match poll.result with
  | none => -1
  | some bytes => bytes.val.length

def returned (poll : Poll) : List UInt8 :=
  match poll.result with
  | none => []
  | some bytes => bytes.val

/-- The memory from the start of the buffer on, after `buf[len] = '\\0'`. The store at -1 is
in front of it. -/
def stored (poll : Poll) : List UInt8 :=
  match poll.result with
  | none => poll.memory.val
  | some bytes => (bytes.val ++ poll.memory.val.drop bytes.val.length).set bytes.val.length 0

/-- The text that `strtod` gets. -/
def text (poll : Poll) : CString := upToNul poll.stored

/-- `pread` returned -1 or 0. -/
def Failed (poll : Poll) : Prop := poll.len ≤ 0

instance (poll : Poll) : Decidable poll.Failed := inferInstanceAs (Decidable (_ ≤ _))

end Poll

/-- The conversion to `unsigned int`. `wild` is what it yields for a number that does not fit,
an infinity or NaN. -/
def toUnsigned (wild : Option ℚ → UInt32) (value : Option ℚ) : UInt32 :=
  match value with
  | none => wild none
  | some q =>
    if 0 ≤ Platform.truncate q ∧ Platform.truncate q < 4294967296 then
      UInt32.ofNat (Platform.truncate q).toNat
    else wild (some q)

def refreshSensor (wild : Option ℚ → UInt32) (sensor : Sensor) (poll : Poll) : Sensor :=
  if sensor.file then { sensor with temperature := toUnsigned wild (strtod poll.text) } else sensor

def refreshSensors (wild : Option ℚ → UInt32) (sensors : List (Sensor × Poll)) : List Sensor :=
  sensors.map fun read => refreshSensor wild read.1 read.2

/-- The maximum of the temperatures in whole degrees, as an `unsigned short`. -/
def hottest (sensors : List Sensor) : Reading :=
  UInt16.ofNat ((sensors.foldl (fun temp (sensor : Sensor) => max temp sensor.temperature) 0).toNat / 1000)

def getTemp (wild : Option ℚ → UInt32) (sensors : List (Sensor × Poll)) : Reading :=
  hottest (refreshSensors wild sensors)

variable {wild : Option ℚ → UInt32} {poll : Poll} {sensors : List (Sensor × Poll)}

/-! ## The buffer -/

/-- The NUL is stored inside the buffer and the text has no bytes but those just read. -/
structure Poll.InBuffer (poll : Poll) : Prop where
  lower : 0 ≤ poll.len
  upper : poll.len < bufferSize
  text : poll.text <+: poll.returned

/-- The read leaves room for the NUL, and does not fail with an error. -/
def Poll.Fits (poll : Poll) : Prop :=
  match poll.result with
  | none => False
  | some bytes => bytes.val.length < bufferSize

theorem upToNul_append_nul (bytes rest : List UInt8) :
    upToNul (bytes ++ 0 :: rest) = upToNul bytes := by
  induction bytes with
  | nil => rfl
  | cons c bytes ih =>
    simp only [upToNul, List.cons_append, List.takeWhile_cons] at ih ⊢
    rw [ih]

theorem Poll.stored_eq {bytes : {bytes : List UInt8 // bytes.length ≤ bufferSize}}
    (h : poll.result = some bytes) :
    poll.stored = bytes.val ++ 0 :: poll.memory.val.drop (bytes.val.length + 1) := by
  have hRoom : bytes.val.length < poll.memory.val.length := bytes.2.trans_lt poll.memory.2
  simp only [Poll.stored, h]
  rw [List.drop_eq_getElem_cons hRoom, List.set_append_right _ _ le_rfl, Nat.sub_self,
    List.set_cons_zero]

/-- After a read that succeeds the text depends on the bytes read alone. -/
theorem Poll.text_eq {bytes : {bytes : List UInt8 // bytes.length ≤ bufferSize}}
    (h : poll.result = some bytes) : poll.text = upToNul bytes.val := by
  rw [Poll.text, Poll.stored_eq h, upToNul_append_nul]

theorem Poll.inBuffer_iff : poll.InBuffer ↔ poll.Fits := by
  rw [Poll.Fits]
  cases hResult : poll.result with
  | none =>
    refine iff_of_false (fun h => ?_) not_false
    have hLower := h.lower
    simp [Poll.len, hResult] at hLower
  | some bytes =>
    constructor
    · intro h
      have hUpper := h.upper
      simp only [Poll.len, hResult] at hUpper
      exact_mod_cast hUpper
    · intro hRoom
      refine ⟨by simp [Poll.len, hResult], by simpa [Poll.len, hResult] using hRoom, ?_⟩
      rw [Poll.text_eq hResult, Poll.returned, hResult]
      exact List.takeWhile_prefix _

/-- Over all sensors, the buffer is kept to exactly when every read of an open file returns at
most 15 bytes and no error. -/
theorem inBuffer_iff_fits (sensors : List (Sensor × Poll)) :
    (∀ read ∈ sensors, read.1.file = true → read.2.InBuffer) ↔
      ∀ read ∈ sensors, read.1.file = true → read.2.Fits := by
  simp only [Poll.inBuffer_iff]

def sampleMemory : {memory : List UInt8 // bufferSize < memory.length} :=
  ⟨List.replicate 17 0, by decide⟩

/-- A read that fails with an error stores the NUL in front of the buffer. -/
theorem error_not_inBuffer :
    ¬ ∀ read ∈ [((⟨true, 50000⟩ : Sensor), (⟨none, sampleMemory⟩ : Poll))],
      read.1.file = true → read.2.InBuffer := by
  intro h
  have hLower := (h _ List.mem_cons_self rfl).lower
  revert hLower
  decide

/-! ## Failed reads -/

/-- The sensor as it should be after the poll. -/
def lastGood (wild : Option ℚ → UInt32) (sensor : Sensor) (poll : Poll) : Sensor :=
  if sensor.file = true ∧ ¬ poll.Failed then
    { sensor with temperature := toUnsigned wild (strtod (upToNul poll.returned)) }
  else sensor

structure KeepsLastGood (wild : Option ℚ → UInt32) (sensors : List (Sensor × Poll)) : Prop where
  values : refreshSensors wild sensors = sensors.map fun read => lastGood wild read.1 read.2
  hottest : getTemp wild sensors = hottest (sensors.map fun read => lastGood wild read.1 read.2)

/-- What the failure stores is what the sensor had: 0 for an empty read, the number left in
the buffer for an error. -/
def Harmless (wild : Option ℚ → UInt32) (sensor : Sensor) (poll : Poll) : Prop :=
  match poll.result with
  | none => toUnsigned wild (strtod (upToNul poll.memory.val)) = sensor.temperature
  | some bytes => bytes.val = [] → sensor.temperature = 0

theorem withTemperature_eq_iff {sensor : Sensor} {temperature : UInt32} :
    { sensor with temperature := temperature } = sensor ↔ temperature = sensor.temperature := by
  cases sensor
  simp

theorem toUnsigned_zero : toUnsigned wild (some 0) = 0 := by
  simp [toUnsigned, Platform.truncate]

theorem refreshSensor_eq_iff {sensor : Sensor} (hFile : sensor.file = true) :
    refreshSensor wild sensor poll = lastGood wild sensor poll ↔ Harmless wild sensor poll := by
  rw [refreshSensor, if_pos hFile, lastGood, Harmless]
  cases hResult : poll.result with
  | none =>
    have hFailed : poll.Failed := by simp [Poll.Failed, Poll.len, hResult]
    have hText : poll.text = upToNul poll.memory.val := by rw [Poll.text, Poll.stored, hResult]
    rw [if_neg fun h => h.2 hFailed, hText, withTemperature_eq_iff]
  | some bytes =>
    rw [Poll.text_eq hResult]
    by_cases hEmpty : bytes.val = []
    · have hFailed : poll.Failed := by simp [Poll.Failed, Poll.len, hResult, hEmpty]
      have hZero : toUnsigned wild (strtod (upToNul bytes.val)) = 0 := by
        rw [hEmpty]
        exact toUnsigned_zero
      rw [if_neg fun h => h.2 hFailed, withTemperature_eq_iff, hZero]
      exact ⟨fun h _ => h.symm, fun h => (h hEmpty).symm⟩
    · have hRead : ¬ poll.Failed := by
        have hPos := List.length_pos_iff.mpr hEmpty
        simp only [Poll.Failed, Poll.len, hResult]
        omega
      have hReturned : poll.returned = bytes.val := by rw [Poll.returned, hResult]
      rw [if_pos ⟨hFile, hRead⟩, hReturned]
      exact iff_of_true rfl fun h => absurd h hEmpty

/-- Failed reads leave the temperatures of their sensors alone exactly when every failure
happens to store the number that was there before. -/
theorem keepsLastGood_iff (wild : Option ℚ → UInt32) (sensors : List (Sensor × Poll)) :
    KeepsLastGood wild sensors ↔
      ∀ read ∈ sensors, read.1.file = true → Harmless wild read.1 read.2 := by
  have hEach : refreshSensors wild sensors =
      sensors.map (fun read => lastGood wild read.1 read.2) ↔
        ∀ read ∈ sensors, read.1.file = true → Harmless wild read.1 read.2 := by
    rw [refreshSensors, List.map_inj_left]
    apply forall₂_congr
    intro read _
    by_cases hFile : read.1.file = true
    · rw [refreshSensor_eq_iff hFile]
      exact ⟨fun h _ => h, fun h => h hFile⟩
    · rw [refreshSensor, if_neg hFile, lastGood, if_neg fun h => hFile h.1]
      exact iff_of_true rfl fun h => absurd h hFile
  rw [← hEach]
  exact ⟨fun h => h.values, fun h => ⟨h, congrArg hottest h⟩⟩

/-- A sensor at 50 degrees whose file is empty for once is taken to be at 0 degrees. -/
theorem empty_read_not_kept :
    ¬ KeepsLastGood (fun _ => 0) [(⟨true, 50000⟩, ⟨some ⟨[], by decide⟩, sampleMemory⟩)] := by
  intro h
  have hTemp := h.hottest
  revert hTemp
  decide +kernel

end Mbpfan
