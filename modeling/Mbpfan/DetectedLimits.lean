import Mbpfan.Forgetting

/-!
# The limits read from the hardware

`retrieve_fans` reads a minimum and a maximum for every fan it finds and replaces a minimum
that is too low and a maximum that is too high. It does not compare the two with each other,
which the startup check does.
-/

namespace Mbpfan

open Library

/-- Whether `%d` finds a number at the start of the text. -/
def startsWithNumber (text : List UInt8) : Bool :=
  match text.dropWhile isSpace with
  | [] => false
  | c :: rest => isDigit c || ((c = chr '-' || c = chr '+') && rest.head?.any isDigit)

/-- `read_value`: the file may be missing, and its text may not begin with a number. -/
def readValue (file : Option (List UInt8)) : CInt :=
  match file with
  | none => ⟨-1, by decide⟩
  | some text => if startsWithNumber text then atoi text else ⟨-1, by decide⟩

structure LimitFiles where
  minFile : Option (List UInt8)
  maxFile : Option (List UInt8)

def LimitFiles.read (files : LimitFiles) : FanFiles := ⟨readValue files.minFile, readValue files.maxFile⟩

/-- The fans `retrieve_fans` returns when `dir` lists the output files that can be written. -/
def detectedFans (dir : ℕ → Option LimitFiles) : List Fan :=
  retrieveFans fun counter => (dir counter).map LimitFiles.read

def OverridesNoFan (file : ConfFile) (fans : List Fan) : Prop :=
  ∀ fan ∈ fans, given file (minFanKey fan.fanId) = CInt.zero ∧
    given file (maxFanKey fan.fanId) = CInt.zero

structure UsableLimits (dir : ℕ → Option LimitFiles) : Prop where
  bounds : ∀ fan ∈ detectedFans dir, minFanSpeedDefault ≤ fan.fanMinSpeed ∧
    fan.fanMinSpeed ≤ fan.fanMaxSpeed ∧ fan.fanMaxSpeed ≤ maxFanSpeedDefault
  /-- Without overrides the fan speed check of `mbpfan` passes. -/
  checked : ∀ file p, OverridesNoFan file (detectedFans dir) →
    ∀ fan ∈ (retrieveSettings file p (detectedFans dir)).2, ¬ fan.fanMinSpeed > fan.fanMaxSpeed

/-- The values read are in order, or the one out of range is replaced. -/
def InOrder (files : FanFiles) : Prop :=
  if files.readMax.val = -1 ∨ files.readMax > maxFanSpeedDefault then
    files.readMin ≤ maxFanSpeedDefault
  else minFanSpeedDefault ≤ files.readMax ∧ files.readMin ≤ files.readMax

variable {dir : ℕ → Option LimitFiles} {fan : Fan} {fans : List Fan} {file : ConfFile}

theorem mem_detectedFans :
    fan ∈ detectedFans dir ↔
      ∃ counter < numFans, ∃ files ∈ dir counter, retrieveFan counter files.read = fan := by
  simp [detectedFans, retrieveFans]

theorem forall_mem_detectedFans {P : Fan → Prop} :
    (∀ fan ∈ detectedFans dir, P fan) ↔
      ∀ counter < numFans, ∀ files ∈ dir counter, P (retrieveFan counter files.read) := by
  constructor
  · intro h counter hCounter files hFiles
    exact h _ (mem_detectedFans.mpr ⟨counter, hCounter, files, hFiles, rfl⟩)
  · intro h fan hMem
    obtain ⟨counter, hCounter, files, hFiles, rfl⟩ := mem_detectedFans.mp hMem
    exact h counter hCounter files hFiles

theorem retrieveFan_min (counter : ℕ) (files : FanFiles) :
    (retrieveFan counter files).fanMinSpeed = max files.readMin minFanSpeedDefault := by
  have hError : files.readMin.val = -1 → files.readMin < minFanSpeedDefault := by
    intro h
    exact (show files.readMin.val < 500 by omega)
  rw [retrieveFan]
  simp only [or_iff_right_of_imp hError, max_def', ← not_lt]
  split_ifs <;> rfl

theorem retrieveFan_max (counter : ℕ) (files : FanFiles) :
    (retrieveFan counter files).fanMaxSpeed =
      if files.readMax.val = -1 ∨ files.readMax > maxFanSpeedDefault then maxFanSpeedDefault
      else files.readMax :=
  rfl

theorem retrieveFan_inOrder (counter : ℕ) (files : FanFiles) :
    (retrieveFan counter files).fanMinSpeed ≤ (retrieveFan counter files).fanMaxSpeed ↔
      InOrder files := by
  have hDefaults : minFanSpeedDefault ≤ maxFanSpeedDefault := by decide
  rw [retrieveFan_min, max_le_iff, retrieveFan_max, InOrder]
  split_ifs
  · exact and_iff_left hDefaults
  · exact and_comm

theorem retrieveFan_bounds (counter : ℕ) (files : FanFiles) :
    minFanSpeedDefault ≤ (retrieveFan counter files).fanMinSpeed ∧
      (retrieveFan counter files).fanMaxSpeed ≤ maxFanSpeedDefault := by
  rw [retrieveFan_min, retrieveFan_max]
  refine ⟨le_max_right _ _, ?_⟩
  split_ifs with hOdd
  · exact le_rfl
  · exact not_lt.mp (not_or.mp hOdd).2

theorem retrieveSettings_fans (h : OverridesNoFan file fans) (p : Params) :
    (retrieveSettings file p fans).2 = fans := by
  rw [retrieveSettings_eq]
  refine (List.map_congr_left fun fan hMem => ?_).trans (List.map_id fans)
  obtain ⟨hMin, hMax⟩ := h fan hMem
  rw [limited, hMin, hMax, override_zero, override_zero, id]

/-- The limits found are usable exactly when, for every fan whose output file can be written,
the values read are in order or the odd one is replaced. -/
theorem usableLimits_iff (dir : ℕ → Option LimitFiles) :
    UsableLimits dir ↔ ∀ counter < numFans, ∀ files ∈ dir counter, InOrder files.read := by
  have hEach (counter : ℕ) (files : LimitFiles) := retrieveFan_inOrder counter files.read
  constructor
  · intro h counter hCounter files hFiles
    obtain ⟨-, hOrder, -⟩ := forall_mem_detectedFans.mp h.bounds counter hCounter files hFiles
    exact (hEach counter files).mp hOrder
  · intro h
    have hBounds : ∀ fan ∈ detectedFans dir, minFanSpeedDefault ≤ fan.fanMinSpeed ∧
        fan.fanMinSpeed ≤ fan.fanMaxSpeed ∧ fan.fanMaxSpeed ≤ maxFanSpeedDefault := by
      refine forall_mem_detectedFans.mpr fun counter hCounter files hFiles => ?_
      obtain ⟨hMin, hMax⟩ := retrieveFan_bounds counter files.read
      exact ⟨hMin, (hEach counter files).mpr (h counter hCounter files hFiles), hMax⟩
    refine ⟨hBounds, fun file p hOverrides fan hMem => ?_⟩
    rw [retrieveSettings_fans hOverrides] at hMem
    exact not_lt.mpr (hBounds fan hMem).2.1

/-- A maximum of 300 stays below the default minimum. -/
theorem low_maximum_unusable :
    ¬ UsableLimits fun counter =>
      if counter = 1 then some ⟨some (cstring "200\n"), some (cstring "300\n")⟩ else none := by
  intro h
  have hBounds := h.bounds (retrieveFan 1 ⟨⟨200, by decide⟩, ⟨300, by decide⟩⟩) (by decide +kernel)
  revert hBounds
  decide

end Mbpfan
