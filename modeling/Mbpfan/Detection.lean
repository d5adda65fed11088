import Mbpfan.Decimal
import Mbpfan.Sensors

/-!
# Finding the sensors

`retrieve_sensors` tries the names that the temperature inputs of the processors have. There
are two layouts of these names. A probe of the first processor decides which of them is used,
and the scan for the files is part of the newer one only. `none` stands for a process that ends.
-/

namespace Mbpfan

open Library

def numProcessors : ℕ := 6
def numHwmons : ℕ := 12
def numTempInputs : ℕ := 64

/-- The release of the kernel, the paths that can be opened for reading, and what the `fscanf`
of `%u` leaves in the temperature. -/
structure SysFs where
  release : CString
  readable : CString → Bool
  scanned : CString → UInt32

structure InputSensor extends Sensor where
  path : CString
  deriving DecidableEq

/-- The first token, `none` for the null pointer. -/
def strtok (str : CString) (delim : UInt8) : Option CString :=
  match str.dropWhile (· = delim) with
  | [] => none
  | token => some (token.takeWhile (· ≠ delim))

def isModernSensorsPath (fs : SysFs) : Option Bool :=
  match strtok fs.release (chr '.') with
  | none => none
  | some version =>
    if (atoi version).val < 3 then none
    else some <| (List.range numHwmons).any fun counter =>
      (List.range' 1 (numTempInputs - 1)).any fun temp => fs.readable <|
        cstring "/sys/devices/platform/coretemp.0/hwmon/hwmon" ++ decimal counter ++
          cstring "/temp" ++ decimal temp ++ cstring "_input"

def hwmonPrefix (processor : ℕ) : CString :=
  cstring "/sys/devices/platform/coretemp." ++ decimal processor ++ cstring "/hwmon/hwmon"

def hwmonPath (processor counter : ℕ) : CString := hwmonPrefix processor ++ decimal counter

def firstHwmon (fs : SysFs) (processor : ℕ) : Option ℕ :=
  (List.range numHwmons).find? fun counter => fs.readable (hwmonPath processor counter)

/-- `path_begin` after the loop over the hwmon directories: without one that can be read the
prefix of their names stays. -/
def pathBegin (fs : SysFs) (processor : ℕ) : CString :=
  match firstHwmon fs processor with
  | none => hwmonPrefix processor
  | some counter => hwmonPath processor counter ++ cstring "/temp"

def inputPath (pathBegin : CString) (core : ℕ) : CString :=
  pathBegin ++ decimal core ++ cstring "_input"

def scanInputs (fs : SysFs) (processor : ℕ) : List InputSensor :=
  (List.range numTempInputs).filterMap fun core =>
    let path := inputPath (pathBegin fs processor) core
    if fs.readable path then some ⟨⟨true, fs.scanned path⟩, path⟩ else none

def retrieveSensors (fs : SysFs) : Option (List InputSensor) :=
  match isModernSensorsPath fs with
  | none => none
  | some modern =>
    -- Nothing is scanned on the legacy path.
    let found := if modern then (List.range numProcessors).flatMap (scanInputs fs) else []
    if found = [] then none else some found

/-! ## The layouts -/

def legacyPath (n : ℕ) : CString := inputPath (cstring "/sys/devices/platform/coretemp.0/temp") n

def modernPath (p h n : ℕ) : CString := inputPath (hwmonPath p h ++ cstring "/temp") n

inductive Layout
  | legacy
  | modern
  deriving DecidableEq

/-- An input file with the numbers of its processor and of the input. -/
structure Input where
  processor : ℕ
  number : ℕ
  path : CString

def Input.Before (i j : Input) : Prop :=
  i.processor < j.processor ∨ i.processor = j.processor ∧ i.number < j.number

structure ModernInput (fs : SysFs) (p h n : ℕ) : Prop where
  processor : p < numProcessors
  hwmon : h < numHwmons
  number : n < numTempInputs
  readable : fs.readable (modernPath p h n) = true

/-- There is such a directory: it can be read or an input in it. -/
def HasHwmon (fs : SysFs) (p h : ℕ) : Prop :=
  h < numHwmons ∧ fs.readable (hwmonPath p h) = true ∨ ∃ n, ModernInput fs p h n

def SysFs.IsInput (fs : SysFs) : Layout → Input → Prop
  | .legacy, i => i.processor = 0 ∧ i.path = legacyPath i.number ∧ fs.readable i.path = true
  | .modern, i => ∃ h, ModernInput fs i.processor h i.number ∧
      i.path = modernPath i.processor h i.number

/-- There is an input, on the legacy layout no modern one and on the modern layout at most one
hwmon directory for each processor. -/
structure SysFs.Has (fs : SysFs) (layout : Layout) : Prop where
  input : ∃ i, fs.IsInput layout i
  legacy : layout = .legacy → ∀ p h n, ¬ ModernInput fs p h n
  modern : layout = .modern → ∀ p < numProcessors, ∀ h h', HasHwmon fs p h → HasHwmon fs p h' → h = h'

structure Lists (fs : SysFs) (layout : Layout) (inputs : List Input) : Prop where
  all : ∀ i, i ∈ inputs ↔ fs.IsInput layout i
  ordered : inputs.Pairwise Input.Before

def Complete (fs : SysFs) (layout : Layout) : Prop :=
  ∃ found, retrieveSensors fs = some found ∧
    ∃ inputs, Lists fs layout inputs ∧ found.map InputSensor.path = inputs.map Input.path

/-- The modern layout is recognised, every input is in a directory that can be read, and the
prefix that is left over where there is none does not lead to a file. -/
structure Reachable (fs : SysFs) : Prop where
  probed : ∃ h n, 1 ≤ n ∧ ModernInput fs 0 h n
  listed : ∀ p h n, ModernInput fs p h n → fs.readable (hwmonPath p h) = true
  leftover : ∀ p < numProcessors, firstHwmon fs p = none →
    ∀ n < numTempInputs, ¬ fs.readable (inputPath (hwmonPrefix p) n) = true

def SysFs.Supported (fs : SysFs) : Prop :=
  ∃ version, strtok fs.release (chr '.') = some version ∧ 3 ≤ (atoi version).val

variable {fs : SysFs} {layout : Layout} {p p' h h' n n' : ℕ} {r s : List UInt8}

/-! ## The names -/

theorem endsDigits_cons {c : UInt8} (hDigit : isDigit c = false) : EndsDigits (c :: r) := by
  rintro d ⟨⟩
  exact hDigit

theorem endsDigits_hwmon : EndsDigits (cstring "/hwmon/hwmon" ++ r) := endsDigits_cons (by decide)

theorem endsDigits_temp : EndsDigits (cstring "/temp" ++ r) := endsDigits_cons (by decide)

theorem endsDigits_input : EndsDigits (cstring "_input") := endsDigits_cons (by decide)

theorem hwmonPath_append_inj (hr : EndsDigits r) (hs : EndsDigits s) :
    hwmonPath p h ++ r = hwmonPath p' h' ++ s ↔ p = p' ∧ h = h' ∧ r = s := by
  have hSplit (p h : ℕ) (r : List UInt8) : hwmonPath p h ++ r =
      cstring "/sys/devices/platform/coretemp." ++
        (decimal p ++ (cstring "/hwmon/hwmon" ++ (decimal h ++ r))) := by
    simp [hwmonPath, hwmonPrefix]
  rw [hSplit, hSplit, List.append_cancel_left_eq,
    decimal_append_inj endsDigits_hwmon endsDigits_hwmon, List.append_cancel_left_eq,
    decimal_append_inj hr hs]

theorem modernPath_eq (p h n : ℕ) : modernPath p h n =
    hwmonPath p h ++ (cstring "/temp" ++ (decimal n ++ cstring "_input")) := by
  simp [modernPath, inputPath]

theorem modernPath_inj :
    modernPath p h n = modernPath p' h' n' ↔ p = p' ∧ h = h' ∧ n = n' := by
  rw [modernPath_eq, modernPath_eq, hwmonPath_append_inj endsDigits_temp endsDigits_temp,
    List.append_cancel_left_eq, decimal_append_inj endsDigits_input endsDigits_input,
    and_iff_left rfl]

/-- A name made of the prefix that is left over is not that of an input. -/
theorem leftover_ne_modernPath : inputPath (hwmonPrefix p) n ≠ modernPath p' h' n' := by
  intro hEq
  have hLeft : inputPath (hwmonPrefix p) n = hwmonPath p n ++ cstring "_input" := by
    simp [inputPath, hwmonPath]
  rw [hLeft, modernPath_eq, hwmonPath_append_inj endsDigits_input endsDigits_temp] at hEq
  have hMark : some (chr 'i') = some (chr 't') := congrArg (fun s => s.tail.head?) hEq.2.2
  exact absurd hMark (by decide)

/-! ## The scans -/

theorem firstHwmon_some (hFirst : firstHwmon fs p = some h) :
    h < numHwmons ∧ fs.readable (hwmonPath p h) = true := by
  rw [firstHwmon] at hFirst
  have hReadable := List.find?_some (p := fun counter => fs.readable (hwmonPath p counter)) hFirst
  exact ⟨List.mem_range.mp (List.mem_of_find?_eq_some hFirst), hReadable⟩

theorem firstHwmon_none (hFirst : firstHwmon fs p = none) (hRange : h < numHwmons) :
    ¬ fs.readable (hwmonPath p h) = true := by
  rw [firstHwmon, List.find?_eq_none] at hFirst
  exact hFirst h (List.mem_range.mpr hRange)

theorem isModernSensorsPath_eq (hSupported : fs.Supported) :
    ∃ modern, isModernSensorsPath fs = some modern ∧
      (modern = true ↔ ∃ h n, 1 ≤ n ∧ ModernInput fs 0 h n) := by
  obtain ⟨version, hToken, hVersion⟩ := hSupported
  have hNew : ¬ (atoi version).val < 3 := not_lt.mpr hVersion
  have hPrefix : cstring "/sys/devices/platform/coretemp.0/hwmon/hwmon" = hwmonPrefix 0 := by
    decide +kernel
  rw [isModernSensorsPath, hToken]
  refine ⟨_, if_neg hNew, ?_⟩
  rw [hPrefix]
  simp only [List.any_eq_true, List.mem_range, List.mem_range'_1]
  constructor
  · rintro ⟨h, hHwmon, n, ⟨hOne, hNumber⟩, hReadable⟩
    exact ⟨h, n, hOne, by decide, hHwmon, hNumber, hReadable⟩
  · rintro ⟨h, n, hOne, hInput⟩
    exact ⟨h, hInput.hwmon, n, ⟨hOne, hInput.number⟩, hInput.readable⟩

theorem mem_scanInputs {path : CString} : path ∈ (scanInputs fs p).map InputSensor.path ↔
    ∃ n < numTempInputs, inputPath (pathBegin fs p) n = path ∧ fs.readable path = true := by
  simp only [List.mem_map, scanInputs, List.mem_filterMap, List.mem_range]
  constructor
  · rintro ⟨sensor, ⟨n, hNumber, hSensor⟩, rfl⟩
    split_ifs at hSensor with hReadable
    cases hSensor
    exact ⟨n, hNumber, rfl, hReadable⟩
  · rintro ⟨n, hNumber, rfl, hReadable⟩
    exact ⟨_, ⟨n, hNumber, if_pos hReadable⟩, rfl⟩

theorem modernPath_mem_scanInputs
    (hMem : modernPath p h n ∈ (scanInputs fs p').map InputSensor.path) :
    firstHwmon fs p = some h := by
  obtain ⟨core, -, hPath, -⟩ := mem_scanInputs.mp hMem
  rw [pathBegin] at hPath
  cases hFirst : firstHwmon fs p' with
  | none =>
    rw [hFirst] at hPath
    exact absurd hPath leftover_ne_modernPath
  | some first =>
    rw [hFirst] at hPath
    obtain ⟨rfl, rfl, rfl⟩ := modernPath_inj.mp hPath
    exact hFirst

def firstInputs (fs : SysFs) (p : ℕ) : List Input :=
  match firstHwmon fs p with
  | none => []
  | some h => (List.range numTempInputs).filterMap fun n =>
    if fs.readable (modernPath p h n) then some ⟨p, n, modernPath p h n⟩ else none

theorem mem_firstInputs {i : Input} : i ∈ firstInputs fs p ↔ i.processor = p ∧
    ∃ h, firstHwmon fs p = some h ∧ i.number < numTempInputs ∧ i.path = modernPath p h i.number ∧
      fs.readable i.path = true := by
  rw [firstInputs]
  cases hFirst : firstHwmon fs p with
  | none => simp
  | some h =>
    simp only [List.mem_filterMap, List.mem_range]
    constructor
    · rintro ⟨n, hNumber, hInput⟩
      split_ifs at hInput with hReadable
      cases hInput
      exact ⟨rfl, h, rfl, hNumber, rfl, hReadable⟩
    · rintro ⟨rfl, h', hFound, hNumber, hPath, hReadable⟩
      cases hFound
      rw [hPath] at hReadable
      exact ⟨i.number, hNumber, by rw [if_pos hReadable, ← hPath]⟩

theorem firstInputs_ordered (p : ℕ) : (firstInputs fs p).Pairwise Input.Before := by
  rw [firstInputs]
  cases firstHwmon fs p with
  | none => exact List.Pairwise.nil
  | some h =>
    refine List.pairwise_filterMap.mpr (List.pairwise_lt_range.imp fun hLt => ?_)
    intro i hi j hj
    split_ifs at hi hj
    cases hi
    cases hj
    exact .inr ⟨rfl, hLt⟩

theorem scanInputs_paths (hLeft : firstHwmon fs p = none →
    ∀ n < numTempInputs, ¬ fs.readable (inputPath (hwmonPrefix p) n) = true) :
    (scanInputs fs p).map InputSensor.path = (firstInputs fs p).map Input.path := by
  rw [scanInputs, firstInputs]
  cases hFirst : firstHwmon fs p with
  | none =>
    have hPath : pathBegin fs p = hwmonPrefix p := by rw [pathBegin, hFirst]
    rw [hPath, List.map_nil, List.map_eq_nil_iff, List.filterMap_eq_nil_iff]
    exact fun n hMem => if_neg (hLeft hFirst n (List.mem_range.mp hMem))
  | some h =>
    have hPath (n : ℕ) : inputPath (pathBegin fs p) n = modernPath p h n := by
      rw [pathBegin, hFirst]
      rfl
    simp only [List.map_filterMap, hPath]
    refine List.filterMap_congr fun n _ => ?_
    split_ifs <;> rfl

/-! ## Completeness -/

theorem retrieveSensors_eq_some {modern : Bool} (hModern : isModernSensorsPath fs = some modern)
    {found : List InputSensor} : retrieveSensors fs = some found ↔
      modern = true ∧ (List.range numProcessors).flatMap (scanInputs fs) = found ∧ found ≠ [] := by
  rw [retrieveSensors, hModern]
  cases modern with
  | false => simp
  | true =>
    simp only [if_true]
    split_ifs with hEmpty
    · simp [hEmpty]
    · constructor
      · rintro ⟨⟩
        exact ⟨trivial, rfl, hEmpty⟩
      · rintro ⟨-, rfl, -⟩
        rfl

theorem Reachable.lists (hHas : fs.Has .modern) (hReach : Reachable fs) :
    Lists fs .modern ((List.range numProcessors).flatMap (firstInputs fs)) := by
  constructor
  · intro i
    simp only [List.mem_flatMap, List.mem_range, mem_firstInputs]
    constructor
    · rintro ⟨p, hProcessor, rfl, h, hFirst, hNumber, hPath, hReadable⟩
      exact ⟨h, ⟨hProcessor, (firstHwmon_some hFirst).1, hNumber, hPath ▸ hReadable⟩, hPath⟩
    · rintro ⟨h, hInput, hPath⟩
      cases hFirst : firstHwmon fs i.processor with
      | none => exact absurd (hReach.listed _ h _ hInput) (firstHwmon_none hFirst hInput.hwmon)
      | some h' =>
        have hSame : h' = h := hHas.modern rfl i.processor hInput.processor h' h
          (.inl (firstHwmon_some hFirst)) (.inr ⟨i.number, hInput⟩)
        subst hSame
        exact ⟨i.processor, hInput.processor, rfl, h', hFirst, hInput.number, hPath,
          hPath ▸ hInput.readable⟩
  · refine List.pairwise_flatMap.mpr ⟨fun p _ => firstInputs_ordered p, ?_⟩
    refine List.pairwise_lt_range.imp fun hLt => ?_
    intro i hi j hj
    rw [← (mem_firstInputs.mp hi).1, ← (mem_firstInputs.mp hj).1] at hLt
    exact .inl hLt

theorem Reachable.paths (hReach : Reachable fs) :
    ((List.range numProcessors).flatMap (scanInputs fs)).map InputSensor.path =
      ((List.range numProcessors).flatMap (firstInputs fs)).map Input.path := by
  rw [List.map_flatMap, List.map_flatMap]
  refine List.flatMap_congr fun p hMem => scanInputs_paths ?_
  exact hReach.leftover p (List.mem_range.mp hMem)

theorem Lists.reachable {inputs : List Input} (hLists : Lists fs .modern inputs)
    (hPaths : ((List.range numProcessors).flatMap (scanInputs fs)).map InputSensor.path =
      inputs.map Input.path) (hProbed : ∃ h n, 1 ≤ n ∧ ModernInput fs 0 h n) : Reachable fs := by
  have hMem (path : CString) : path ∈ inputs.map Input.path ↔
      ∃ p < numProcessors, path ∈ (scanInputs fs p).map InputSensor.path := by
    rw [← hPaths, List.map_flatMap]
    simp only [List.mem_flatMap, List.mem_range]
  refine ⟨hProbed, fun p h n hInput => ?_, fun p hProcessor hNone n hNumber hReadable => ?_⟩
  · have hListed : modernPath p h n ∈ inputs.map Input.path :=
      List.mem_map.mpr ⟨⟨p, n, _⟩, (hLists.all _).mpr ⟨h, hInput, rfl⟩, rfl⟩
    obtain ⟨p', -, hScanned⟩ := (hMem _).mp hListed
    exact (firstHwmon_some (modernPath_mem_scanInputs hScanned)).2
  · have hScanned : inputPath (hwmonPrefix p) n ∈ (scanInputs fs p).map InputSensor.path := by
      refine mem_scanInputs.mpr ⟨n, hNumber, ?_, hReadable⟩
      rw [pathBegin, hNone]
    obtain ⟨i, hInput, hPath⟩ := List.mem_map.mp ((hMem _).mpr ⟨p, hProcessor, hScanned⟩)
    obtain ⟨h, -, hModern⟩ := (hLists.all i).mp hInput
    exact absurd (hPath.symm.trans hModern) leftover_ne_modernPath

/-- Every input is found exactly when the layout is the modern one and every input of it can
be reached. -/
theorem complete_iff (hSupported : fs.Supported) (hHas : fs.Has layout) :
    Complete fs layout ↔ layout = .modern ∧ Reachable fs := by
  obtain ⟨modern, hModern, hProbe⟩ := isModernSensorsPath_eq hSupported
  rw [Complete]
  simp only [retrieveSensors_eq_some hModern]
  constructor
  · rintro ⟨found, ⟨hTrue, rfl, -⟩, inputs, hLists, hPaths⟩
    obtain ⟨h, n, hOne, hProbed⟩ := hProbe.mp hTrue
    cases layout with
    | legacy => exact absurd hProbed (hHas.legacy rfl 0 h n)
    | modern => exact ⟨rfl, hLists.reachable hPaths ⟨h, n, hOne, hProbed⟩⟩
  · rintro ⟨rfl, hReach⟩
    have hPaths := hReach.paths
    obtain ⟨h, n, hOne, hProbed⟩ := hReach.probed
    have hLists := hReach.lists hHas
    have hFirst : ⟨0, n, modernPath 0 h n⟩ ∈ (List.range numProcessors).flatMap (firstInputs fs) :=
      (hLists.all _).mpr ⟨h, hProbed, rfl⟩
    refine ⟨_, ⟨hProbe.mpr hReach.probed, rfl, ?_⟩, _, hLists, hPaths⟩
    rintro hEmpty
    rw [hEmpty] at hPaths
    rw [List.map_eq_nil_iff.mp hPaths.symm] at hFirst
    cases hFirst

/-- The first processor has three inputs, the second none, and the third one. -/
def modernInputs : List (ℕ × ℕ × ℕ) := [(0, 2, 1), (0, 2, 2), (0, 2, 10), (2, 0, 3)]

def modernFs : SysFs where
  release := cstring "5.4.0"
  readable path := modernInputs.any fun (p, h, n) => path = hwmonPath p h ∨ path = modernPath p h n
  scanned _ := 50000

theorem modernFs_readable_iff {path : CString} : modernFs.readable path = true ↔
    ∃ p h n, (p, h, n) ∈ modernInputs ∧ (path = hwmonPath p h ∨ path = modernPath p h n) := by
  simp [modernFs]

theorem modernFs_readable {path : CString} (hReadable : modernFs.readable path = true) :
    ∃ p h n, (p, h, n) ∈ modernInputs ∧ ∃ r, EndsDigits r ∧ path = hwmonPath p h ++ r := by
  obtain ⟨p, h, n, hMem, rfl | rfl⟩ := modernFs_readable_iff.mp hReadable
  · exact ⟨p, h, n, hMem, [], by rintro c ⟨⟩, (List.append_nil _).symm⟩
  · exact ⟨p, h, n, hMem, _, endsDigits_temp, modernPath_eq p h n⟩

theorem modernFs_hasHwmon (hHwmon : HasHwmon modernFs p h) : ∃ n, (p, h, n) ∈ modernInputs := by
  rcases hHwmon with ⟨-, hReadable⟩ | ⟨n, hInput⟩
  · obtain ⟨p', h', n, hMem, r, hr, hPath⟩ := modernFs_readable hReadable
    rw [← List.append_nil (hwmonPath p h)] at hPath
    obtain ⟨rfl, rfl, -⟩ := (hwmonPath_append_inj (by rintro c ⟨⟩) hr).mp hPath
    exact ⟨n, hMem⟩
  · obtain ⟨p', h', n', hMem, r, hr, hPath⟩ := modernFs_readable hInput.readable
    rw [modernPath_eq] at hPath
    obtain ⟨rfl, rfl, -⟩ := (hwmonPath_append_inj endsDigits_temp hr).mp hPath
    exact ⟨n', hMem⟩

theorem modernFs_probed : ModernInput modernFs 0 2 1 :=
  ⟨by decide, by decide, by decide, modernFs_readable_iff.mpr ⟨0, 2, 1, by decide, .inr rfl⟩⟩

theorem modernFs_has : modernFs.Has .modern where
  input := ⟨⟨0, 1, modernPath 0 2 1⟩, 2, modernFs_probed, rfl⟩
  legacy := by simp
  modern _ p _ h h' hHwmon hHwmon' := by
    have hOne : ∀ a ∈ modernInputs, ∀ b ∈ modernInputs, a.1 = b.1 → a.2.1 = b.2.1 := by decide
    obtain ⟨n, hMem⟩ := modernFs_hasHwmon hHwmon
    obtain ⟨n', hMem'⟩ := modernFs_hasHwmon hHwmon'
    exact hOne _ hMem _ hMem' rfl

theorem modernFs_reachable : Reachable modernFs where
  probed := ⟨2, 1, le_rfl, modernFs_probed⟩
  listed p h n hInput := by
    obtain ⟨n', hMem⟩ := modernFs_hasHwmon (.inr ⟨n, hInput⟩)
    exact modernFs_readable_iff.mpr ⟨p, h, n', hMem, .inl rfl⟩
  leftover p _ _ n _ hReadable := by
    obtain ⟨p', h', n', -, hDir | hInput⟩ := modernFs_readable_iff.mp hReadable
    · have hLeft : hwmonPath p n ++ cstring "_input" = hwmonPath p' h' ++ [] := by
        rw [List.append_nil, ← hDir]
        simp [inputPath, hwmonPath]
      have hEnd := ((hwmonPath_append_inj endsDigits_input (by rintro c ⟨⟩)).mp hLeft).2.2
      exact absurd hEnd (by decide)
    · exact absurd hInput leftover_ne_modernPath

theorem complete_iff_sample : Complete modernFs .modern :=
  (complete_iff ⟨cstring "5", by decide +kernel, by decide +kernel⟩ modernFs_has).mpr
    ⟨rfl, modernFs_reachable⟩

theorem modernPath_ne_legacyPath : modernPath p h n ≠ legacyPath n' := by
  intro hEq
  have hModern : modernPath p h n = cstring "/sys/devices/platform/coretemp." ++
      (decimal p ++ (cstring "/hwmon/hwmon" ++ (decimal h ++ (cstring "/temp" ++
        (decimal n ++ cstring "_input"))))) := by
    simp [modernPath_eq, hwmonPath, hwmonPrefix]
  have hLegacy : legacyPath n' = cstring "/sys/devices/platform/coretemp." ++
      (decimal 0 ++ (cstring "/temp" ++ (decimal n' ++ cstring "_input"))) := by
    have hPrefix : cstring "/sys/devices/platform/coretemp.0/temp" =
        cstring "/sys/devices/platform/coretemp." ++ (decimal 0 ++ cstring "/temp") := by
      decide +kernel
    simp [legacyPath, inputPath, hPrefix]
  rw [hModern, hLegacy, List.append_cancel_left_eq,
    decimal_append_inj endsDigits_hwmon endsDigits_temp] at hEq
  have hMark : some (chr 'h') = some (chr 't') := congrArg (fun s => s.tail.head?) hEq.2
  exact absurd hMark (by decide)

def legacyFs : SysFs where
  release := cstring "3.2.0"
  readable path := path = legacyPath 1
  scanned _ := 50000

/-- On the legacy layout the process exits. -/
theorem legacy_not_complete :
    legacyFs.Supported ∧ legacyFs.Has .legacy ∧ retrieveSensors legacyFs = none ∧
      ¬ Complete legacyFs .legacy := by
  have hSupported : legacyFs.Supported := ⟨cstring "3", by decide +kernel, by decide +kernel⟩
  have hNoModern (p h n : ℕ) : ¬ ModernInput legacyFs p h n := fun hInput =>
    modernPath_ne_legacyPath (of_decide_eq_true hInput.readable)
  have hExits : retrieveSensors legacyFs = none := by
    obtain ⟨modern, hModern, hProbe⟩ := isModernSensorsPath_eq hSupported
    refine Option.eq_none_iff_forall_ne_some.mpr fun found hFound => ?_
    obtain ⟨h, n, -, hInput⟩ := hProbe.mp ((retrieveSensors_eq_some hModern).mp hFound).1
    exact hNoModern 0 h n hInput
  refine ⟨hSupported, ⟨⟨⟨0, 1, legacyPath 1⟩, rfl, rfl, ?_⟩, fun _ => hNoModern, by simp⟩, hExits, ?_⟩
  · simp [legacyFs]
  · rintro ⟨found, hFound, -⟩
    rw [hExits] at hFound
    cases hFound

end Mbpfan
