import Mbpfan.Lines
import Mbpfan.RetrieveSettings
import Mbpfan.SettingsMap

/-!
# The configuration language

What a configuration file means, told without the parse state, the sections and the hash
tables: every line is classified by itself, the assignments are listed under their headers,
and the last assignment to a key decides. `retrieve_settings` implements this language on
the files whose lines fit the line buffer and whose values fit the value buffer.
-/

namespace Mbpfan

open Library

inductive ConfLine
  | empty
  | comment
  | header (name : CString)
  | assignment (key value : CString)
  | malformed
  deriving DecidableEq

def classify (line : CString) : ConfLine :=
  match trimStr line with
  | [] => .empty
  | c :: rest =>
    if c = chr '#' then .comment
    else if c = chr '[' ∧ chr ']' ∈ rest then .header (rest.takeWhile (· ≠ chr ']'))
    else if c = chr '=' then .malformed
    else
      .assignment (dropBlanksRight ((c :: rest).takeWhile (· ≠ chr '=')))
        (((c :: rest).dropWhile (· ≠ chr '=')).tail.dropWhile isBlankChar)

structure Assignment where
  sectionName : CString
  key : CString
  value : CString
  deriving DecidableEq

/-- The assignments of the lines under the current header, `none` when a line is malformed
or an assignment stands under no header or an empty one. -/
def assignments (current : Option CString) : List ConfLine → Option (List Assignment)
  | [] => some []
  | .empty :: lines => assignments current lines
  | .comment :: lines => assignments current lines
  | .header name :: lines => assignments (some name) lines
  | .malformed :: _ => none
  | .assignment key value :: lines =>
    match current with
    | none => none
    | some name =>
      if name = [] then none else (assignments current lines).map (⟨name, key, value⟩ :: ·)

def configuration (file : List UInt8) : Option (List Assignment) :=
  assignments none ((splitLines file).map classify)

def lastAssigned (as : List Assignment) (name key : CString) : Option CString :=
  (as.filter fun a => a.sectionName = name ∧ a.key = key).getLast?.map Assignment.value

/-- The decimal integer a text begins with, 0 without one. -/
def leadingInt (s : CString) : ℤ :=
  match s.dropWhile isSpace with
  | [] => 0
  | c :: rest =>
    if c = chr '-' then -digitsValue rest
    else if c = chr '+' then digitsValue rest
    else digitsValue (c :: rest)

/-- The value of a parameter that had the value `old`. -/
def configured (as : List Assignment) (key : CString) (old : ℤ) : ℤ :=
  match lastAssigned as (cstring "general") key with
  | none => old
  | some value => if leadingInt value = 0 then old else leadingInt value

structure ParamsConfigured (as : List Assignment) (p p' : Params) : Prop where
  low : p'.lowTemp = configured as (cstring "low_temp") p.lowTemp
  high : p'.highTemp = configured as (cstring "high_temp") p.highTemp
  max : p'.maxTemp = configured as (cstring "max_temp") p.maxTemp
  polling : p'.pollingInterval = configured as (cstring "polling_interval") p.pollingInterval

structure FanConfigured (as : List Assignment) (fan fan' : Fan) : Prop where
  minSpeed : fan'.fanMinSpeed = configured as (minFanKey fan.fanId) fan.fanMinSpeed
  maxSpeed : fan'.fanMaxSpeed = configured as (maxFanKey fan.fanId) fan.fanMaxSpeed
  others : fan' = { fan with fanMinSpeed := fan'.fanMinSpeed, fanMaxSpeed := fan'.fanMaxSpeed }

/-- The parameters and fans after the file, as the language has it. -/
structure Configured (file : List UInt8) (p : Params) (fans : List Fan) (p' : Params)
    (fans' : List Fan) : Prop where
  refused : configuration file = none → p' = p ∧ fans' = fans
  params : ∀ as ∈ configuration file, ParamsConfigured as p p'
  fans : ∀ as ∈ configuration file, List.Forall₂ (FanConfigured as) fans fans'

def parameterKeys (fans : List Fan) : List CString :=
  [cstring "low_temp", cstring "high_temp", cstring "max_temp", cstring "polling_interval"] ++
    fans.map (fun fan => minFanKey fan.fanId) ++ fans.map fun fan => maxFanKey fan.fanId

/-- The file keeps to the buffers of the reader and to the numbers an int can hold. -/
structure Fits (file : List UInt8) (fans : List Fan) : Prop where
  noNul : 0 ∉ file
  lines : ∀ line ∈ splitLines file, line.length ≤ 520
  values : ∀ as ∈ configuration file, ∀ key ∈ parameterKeys fans,
    ∀ value ∈ lastAssigned as (cstring "general") key, value.length ≤ 255 ∧ InInt (leadingInt value)

variable {line key value : CString} {as : List Assignment} {file : List UInt8} {fans : List Fan}

/-! ## One line -/

/-- What a classified line does to the parse state. -/
def ParseState.read (state : ParseState) : ConfLine → Option ParseState
  | .empty => some state
  | .comment => some state
  | .header name => some { state with currentSection := some name }
  | .assignment key value => assign state key value
  | .malformed => none

theorem copyStr_of_short {str : CString} (h : str.length < maxLineChars) :
    copyStr str maxLineChars = some str := if_pos h

theorem trimStr_length_le (line : CString) : (trimStr line).length ≤ line.length :=
  (List.rdropWhile_prefix _ _).length_le.trans (List.dropWhile_sublist _).length_le

theorem dropBlanksRight_trimStr (line : CString) :
    dropBlanksRight (trimStr line) = trimStr line :=
  List.rdropWhile_idempotent _ _

theorem isBlankChar_of_trimStr {c : UInt8} {rest : CString} (h : trimStr line = c :: rest) :
    isBlankChar c = false := by
  obtain ⟨tail, hPrefix⟩ : trimStr line <+: line.dropWhile isBlankChar :=
    List.rdropWhile_prefix _ _
  rw [h, List.cons_append] at hPrefix
  have hHead := List.head_dropWhile_not isBlankChar (l := line) (by simp [← hPrefix])
  simpa [← hPrefix] using hHead

theorem isSectionStr_cons (c : UInt8) (rest : CString) :
    isSectionStr (c :: rest) = true ↔ c = chr '[' ∧ chr ']' ∈ rest := by
  simp only [isSectionStr, List.head?_cons, Option.some_inj, List.mem_cons, decide_eq_true_eq]
  apply and_congr_right
  intro hStart
  apply or_iff_right
  rw [hStart]
  decide

/-- The bracket in front of the name leaves room for it. -/
theorem sectionName_length_lt {str : CString} (hNil : str ≠ []) :
    (str.tail.takeWhile (· ≠ chr ']')).length < str.length :=
  calc (str.tail.takeWhile (· ≠ chr ']')).length ≤ str.tail.length :=
        (List.takeWhile_prefix _).length_le
    _ = str.length - 1 := List.length_tail
    _ < str.length := Nat.sub_one_lt (List.length_pos_iff.mpr hNil).ne'

theorem parseStr_header {str : CString} (hBlank : isBlankStr str = false)
    (hComment : isCommentStr str = false) (hSection : isSectionStr str = true)
    (hShort : str.length < maxLineChars) (state : ParseState) :
    parseStr state str =
      some { state with currentSection := some (str.tail.takeWhile (· ≠ chr ']')) } := by
  have hNil : str ≠ [] := by
    rintro rfl
    exact Bool.noConfusion hBlank
  have hName := sectionName_length_lt hNil
  rw [parseStr]
  rw [if_neg hNil, if_neg (by simp [hBlank]), if_neg (by simp [hComment]), if_pos hSection,
    getSectionFromStr, copyStr_of_short (hName.trans hShort)]
  exact if_neg (by omega)

theorem getKeyValueFromStr_eq {str : CString} (hShort : str.length < maxLineChars) :
    getKeyValueFromStr str maxLineChars maxLineChars =
      some (dropBlanksRight (str.takeWhile (· ≠ chr '=')),
        (str.dropWhile (· ≠ chr '=')).tail.dropWhile isBlankChar) := by
  have hKey : (str.takeWhile (· ≠ chr '=')).length < maxLineChars :=
    (List.takeWhile_prefix _).length_le.trans_lt hShort
  have hTail : (str.dropWhile (· ≠ chr '=')).tail.Sublist str :=
    (List.tail_sublist _).trans (List.dropWhile_sublist _)
  have hValue :
      ((str.dropWhile (· ≠ chr '=')).tail.dropWhile isBlankChar).length < maxLineChars :=
    ((List.dropWhile_sublist _).trans hTail).length_le.trans_lt hShort
  rw [getKeyValueFromStr, copyStr_of_short hKey]
  dsimp only
  rw [copyStr_of_short hValue]

/-- The two tests for an assignment, with and without the separator, come to one. -/
theorem parseStr_assignment {str : CString} (hBlank : isBlankStr str = false)
    (hComment : isCommentStr str = false) (hSection : isSectionStr str = false)
    (hEquals : str.head? ≠ some (chr '=')) (hShort : str.length < maxLineChars)
    (hRight : dropBlanksRight str = str) (state : ParseState) :
    parseStr state str =
      assign state (dropBlanksRight (str.takeWhile (· ≠ chr '=')))
        ((str.dropWhile (· ≠ chr '=')).tail.dropWhile isBlankChar) := by
  have hNil : str ≠ [] := by
    rintro rfl
    exact Bool.noConfusion hBlank
  rw [parseStr, if_neg hNil, if_neg (by simp [hBlank]), if_neg (by simp [hComment]),
    if_neg (by simp [hSection])]
  by_cases hValue : chr '=' ∈ str
  · rw [if_pos (by simp [isKeyValueStr, hEquals, hValue]), getKeyValueFromStr_eq hShort]
  · have hOther : ∀ c ∈ str, c ≠ chr '=' := fun c hc hEq => hValue (hEq ▸ hc)
    have hWhole : str.takeWhile (· ≠ chr '=') = str :=
      List.takeWhile_eq_self_iff.mpr (by simpa using hOther)
    have hNothing : str.dropWhile (· ≠ chr '=') = [] :=
      List.dropWhile_eq_nil_iff.mpr (by simpa using hOther)
    rw [if_neg (by simp [isKeyValueStr, hValue]),
      if_pos (by simp [isKeyWithoutValueStr, hEquals, hValue]), getKeyWithoutValueFromStr,
      copyStr_of_short hShort, hWhole, hNothing, hRight]
    rfl

theorem parseStr_trimStr (hLength : line.length < maxLineChars) (state : ParseState) :
    parseStr state (trimStr line) = state.read (classify line) := by
  have hShort := (trimStr_length_le line).trans_lt hLength
  have hRight := dropBlanksRight_trimStr line
  rw [classify]
  cases hStr : trimStr line with
  | nil => rfl
  | cons c rest =>
    have hBlank : isBlankStr (c :: rest) = false := by
      simp [isBlankStr, isBlankChar_of_trimStr hStr]
    rw [hStr] at hShort hRight
    dsimp only
    split_ifs with hComment hSection hEquals
    · simp [parseStr, isCommentStr, hComment, ParseState.read]
    · have hNoComment : isCommentStr (c :: rest) = false := by simpa [isCommentStr] using hComment
      exact parseStr_header hBlank hNoComment ((isSectionStr_cons c rest).mpr hSection) hShort state
    · have hNoSection : isSectionStr (c :: rest) = false := by
        simpa using mt (isSectionStr_cons c rest).mp hSection
      subst hEquals
      simp [parseStr, isCommentStr, hComment, hNoSection, isKeyValueStr, isKeyWithoutValueStr,
        hBlank, ParseState.read]
    · apply parseStr_assignment hBlank ?_ ?_ ?_ hShort hRight
      · simpa [isCommentStr] using hComment
      · simpa using mt (isSectionStr_cons c rest).mp hSection
      · simpa using hEquals

/-! ## All lines -/

def Assignment.put (settings : Settings) (a : Assignment) : Settings :=
  putSection a.sectionName a.key a.value settings

theorem foldlM_read (lines : List ConfLine) (state : ParseState) :
    (lines.foldlM ParseState.read state).map ParseState.settings =
      (assignments state.currentSection lines).map fun as =>
        as.foldl Assignment.put state.settings := by
  induction lines generalizing state with
  | nil => rfl
  | cons line lines ih =>
    rw [List.foldlM_cons]
    cases line with
    | empty => exact ih state
    | comment => exact ih state
    | header name => exact ih { state with currentSection := some name }
    | malformed => rfl
    | assignment key value =>
      obtain ⟨settings, current⟩ := state
      cases current with
      | none => rfl
      | some name =>
        by_cases hName : name = []
        · simp [ParseState.read, assign, settingsSet, assignments, hName]
        · have hSet : ParseState.read ⟨settings, some name⟩ (.assignment key value) =
              some ⟨putSection name key value settings, some name⟩ := by
            simp [ParseState.read, assign, settingsSet, hName]
          rw [hSet, Option.bind_eq_bind, Option.bind_some, ih]
          simp only [assignments, if_neg hName, Option.map_map]
          rfl

/-- A buffer is read as the language reads the text up to its first NUL. -/
theorem parseBuf_eq (hLength : line.length < maxLineChars) (state : ParseState) :
    parseBuf state line = state.read (classify (upToNul line)) :=
  parseStr_trimStr ((List.takeWhile_prefix _).length_le.trans_lt hLength) state

theorem foldlM_parseBuf {lines : List CString}
    (hLengths : ∀ line ∈ lines, line.length < maxLineChars) (state : ParseState) :
    lines.foldlM parseBuf state =
      (lines.map fun line => classify (upToNul line)).foldlM ParseState.read state := by
  induction lines generalizing state with
  | nil => rfl
  | cons line lines ih =>
    obtain ⟨hLength, hLengths⟩ := List.forall_mem_cons.mp hLengths
    rw [List.map_cons, List.foldlM_cons, List.foldlM_cons, parseBuf_eq hLength]
    exact congrArg _ (funext (ih hLengths))

theorem settingsOpen_eq_configuration (hNoNul : 0 ∉ file)
    (hLines : ∀ line ∈ splitLines file, line.length ≤ 520) :
    settingsOpen file = (configuration file).map fun as => as.foldl Assignment.put [] := by
  have hFit : ∀ line ∈ splitLines file, line.length + 2 ≤ maxLineChars := by
    intro line hLine
    have := hLines line hLine
    rw [maxLineChars]
    omega
  have hWhole : (splitLines file).map (fun line => classify (upToNul line)) =
      (splitLines file).map classify := by
    refine List.map_congr_left fun line hLine => ?_
    rw [upToNul_of_noNul fun hZero => hNoNul (splitLines_subset line hLine hZero)]
  rw [settingsOpen_eq hFit, foldlM_parseBuf fun line hLine => ?_, foldlM_read, hWhole]
  · rfl
  · have := hFit line hLine
    omega

/-! ## Looking a key up -/

theorem foldl_put_lookup (as : List Assignment) :
    Allocated (as.foldl Assignment.put []) ∧ ∀ name key,
      Settings.lookup (as.foldl Assignment.put []) name key = lastAssigned as name key := by
  induction as using List.reverseRecOn with
  | nil => exact ⟨fun s hs => absurd hs List.not_mem_nil, fun name key => rfl⟩
  | append_singleton as a ih =>
    obtain ⟨hAllocated, hLookup⟩ := ih
    rw [List.foldl_append]
    refine ⟨hAllocated.putSection _ _ _, fun name key => ?_⟩
    rw [List.foldl_cons, List.foldl_nil, Assignment.put, lookup_putSection hAllocated, hLookup]
    unfold lastAssigned
    rw [List.filter_append]
    split_ifs with hSame
    · obtain ⟨rfl, rfl⟩ := hSame
      simp
    · have hOther : ¬(a.sectionName = name ∧ a.key = key) := fun h => hSame ⟨h.1.symm, h.2.symm⟩
      simp [hOther]

/-! ## Numbers -/

theorem atoi_of_inInt (h : InInt (leadingInt value)) : (atoi value : ℤ) = leadingInt value := by
  have hStrtol : strtol value = leadingInt value := by
    rw [leadingInt] at h ⊢
    rw [strtol]
    obtain ⟨hLow, hHigh⟩ := h
    cases hText : value.dropWhile isSpace with
    | nil => rfl
    | cons c rest =>
      simp only [hText] at hLow hHigh ⊢
      split_ifs at hLow hHigh ⊢ <;> omega
  rw [atoi, hStrtol, CInt.wrap_of_inInt h]

theorem override_getGeneral
    (hValue : ∀ value ∈ lastAssigned as (cstring "general") key,
      value.length ≤ 255 ∧ InInt (leadingInt value)) (old : CInt) :
    (override (getGeneral (as.foldl Assignment.put []) key) old : ℤ) = configured as key old := by
  rw [getGeneral, settingsGetInt, configured, settingsGet_eq, (foldl_put_lookup as).2]
  cases hLast : lastAssigned as (cstring "general") key with
  | none => rfl
  | some value =>
    obtain ⟨hShort, hInt⟩ := hValue value hLast
    have hKept : (some value).filter (fun value => value.length < maxValueChars) = some value :=
      if_pos (decide_eq_true (Nat.lt_succ_of_le hShort))
    simp only [hKept, override, atoi_of_inInt hInt, ne_eq, ite_not]
    split_ifs
    · rfl
    · exact atoi_of_inInt hInt

/-! ## The whole file -/

/-- `retrieve_settings` gives every parameter and every fan limit the value the
configuration language gives it, and none a new value when the language refuses the file. -/
theorem retrieveSettings_configured (hFits : Fits file fans) (p : Params) :
    Configured file p fans (retrieveSettings (some file) p fans).1
      (retrieveSettings (some file) p fans).2 := by
  have hRead : readSettings (some file) =
      (configuration file).map fun as => as.foldl Assignment.put [] :=
    settingsOpen_eq_configuration hFits.noNul hFits.lines
  have hValue : ∀ as ∈ configuration file, ∀ key ∈ parameterKeys fans, ∀ old : CInt,
      (override (getGeneral (as.foldl Assignment.put []) key) old : ℤ) = configured as key old :=
    fun as hAs key hKey => override_getGeneral (hFits.values as hAs key hKey)
  rw [retrieveSettings, hRead]
  refine ⟨fun hFile => ?_, fun as hAs => ?_, fun as hAs => ?_⟩
  · rw [hFile]
    exact ⟨rfl, rfl⟩
  · rw [Option.mem_def.mp hAs]
    constructor <;> exact hValue as hAs _ (by simp [parameterKeys]) _
  · rw [Option.mem_def.mp hAs]
    refine List.forall₂_map_right_iff.mpr (List.forall₂_same.mpr fun fan hFan => ?_)
    have hMin : minFanKey fan.fanId ∈ parameterKeys fans :=
      List.mem_append_left _ (List.mem_append_right _ (List.mem_map_of_mem hFan))
    have hMax : maxFanKey fan.fanId ∈ parameterKeys fans :=
      List.mem_append_right _ (List.mem_map_of_mem hFan)
    exact ⟨hValue as hAs _ hMin _, hValue as hAs _ hMax _, rfl⟩

/-- A header is reopened, and a key is set again there. -/
def reopenedFile : List UInt8 :=
  cstring "[general]\nlow_temp = 55\n#\n[x]\nlow_temp\n[general]\nlow_temp=60 # low\n"

example : (configuration reopenedFile).map (lastAssigned · (cstring "general") (cstring "low_temp")) =
    some (some (cstring "60 # low")) := by
  decide +kernel

theorem reopenedFile_fits : Fits reopenedFile sampleFans where
  noNul := by decide +kernel
  lines := by decide +kernel
  values := by decide +kernel

theorem retrieveSettings_configured_sample :
    Configured reopenedFile defaultParams sampleFans
        (retrieveSettings (some reopenedFile) defaultParams sampleFans).1
        (retrieveSettings (some reopenedFile) defaultParams sampleFans).2 ∧
      ((retrieveSettings (some reopenedFile) defaultParams sampleFans).1.lowTemp : ℤ) = 60 ∧
      (configuration reopenedFile).map
        (configured · (cstring "low_temp") defaultParams.lowTemp) = some 60 :=
  ⟨retrieveSettings_configured reopenedFile_fits defaultParams, by decide +kernel,
    by decide +kernel⟩

end Mbpfan
