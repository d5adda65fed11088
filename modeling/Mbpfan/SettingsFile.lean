import Mbpfan.SettingsStore
import Mbpfan.ShortComments

/-!
# Saving the settings

`settings_save` writes a header for every section and a line for every pair that is short
enough. What `settings_open` has read is written in a form that it reads again, so that a saved
copy of the settings is the settings, hash tables included, unless a pair is left out.
-/

namespace Mbpfan

open Library

def maxKeyChars : ℕ := 256

/-- The callback of `settings_save`. Its buffer has room for the line of a short pair. -/
def enumMap (key value : CString) (stream : List UInt8) : List UInt8 :=
  if key.length < maxKeyChars ∧ value.length < maxValueChars then
    stream ++ (key ++ [chr '='] ++ value ++ [chr '\n'])
  else stream

def header (name : CString) : CString := [chr '['] ++ name ++ [chr ']', chr '\n']

/-- `none` when the header overruns the buffer it is formatted in. -/
def saveSection (stream : List UInt8) (s : Section) : Option (List UInt8) :=
  if (header s.name).length < maxLineChars then
    some (smEnum s.map enumMap (stream ++ header s.name) ++ [chr '\n'])
  else none

/-- The stream after `settings_save`, whose result is 0 in any case. -/
def settingsSave (settings : Settings) (stream : List UInt8) : Option (List UInt8) :=
  settings.foldlM saveSection stream

/-- The pair is not left out. -/
def Pair.Short (pair : Pair) : Prop :=
  pair.key.length < maxKeyChars ∧ pair.value.length < maxValueChars

instance (pair : Pair) : Decidable pair.Short := inferInstanceAs (Decidable (_ ∧ _))

/-! ## Printed lines -/

def OneLine (text : CString) : Prop := chr '\n' ∉ text ∧ 0 ∉ text

/-- The header printed for the name is read as that header. -/
structure ReadableName (name : CString) : Prop where
  oneLine : OneLine name
  header : classify ([chr '['] ++ name ++ [chr ']']) = .header name

/-- The lines printed for the assignment are read as that assignment. -/
structure Assignment.Readable (a : Assignment) : Prop where
  name : ReadableName a.sectionName
  named : a.sectionName ≠ []
  key : OneLine a.key
  value : OneLine a.value
  assignment : classify (a.key ++ [chr '='] ++ a.value) = .assignment a.key a.value

variable {line name key value : CString} {file : List UInt8} {lines : List ConfLine}
  {current : Option CString} {as : List Assignment}

theorem OneLine.mono (h : OneLine line) {text : CString} (hSub : text ⊆ line) : OneLine text :=
  ⟨fun hMem => h.1 (hSub hMem), fun hMem => h.2 (hSub hMem)⟩

theorem trimStr_subset (line : CString) : trimStr line ⊆ line :=
  fun _ hc => (List.dropWhile_sublist _).subset ((List.rdropWhile_prefix _ _).subset hc)

theorem isBlankChar_separators :
    isBlankChar (chr '[') = false ∧ isBlankChar (chr ']') = false ∧ isBlankChar (chr '=') = false := by
  decide

theorem dropBlanksRight_concat {c : UInt8} (h : isBlankChar c = false) (str : CString) :
    dropBlanksRight (str ++ [c]) = str ++ [c] := by
  rw [dropBlanksRight_eq, List.rdropWhile_concat_neg]
  simp [h]

theorem classify_header (h : classify line = .header name) :
    name ⊆ line ∧ classify ([chr '['] ++ name ++ [chr ']']) = .header name := by
  obtain ⟨hOpen, hClose, -⟩ := isBlankChar_separators
  rw [classify] at h
  cases hText : trimStr line with
  | nil =>
    rw [hText] at h
    cases h
  | cons c rest =>
    rw [hText] at h
    dsimp only at h
    split_ifs at h with hComment hSection
    have hName := ConfLine.header.inj h
    have hBracket : chr ']' ∉ name := fun hMem => by
      rw [← hName] at hMem
      simpa using List.mem_takeWhile_imp hMem
    constructor
    · intro d hd
      rw [← hName] at hd
      apply trimStr_subset line
      rw [hText]
      exact List.mem_cons_of_mem c ((List.takeWhile_prefix _).subset hd)
    · have hTrimmed : trimStr (chr '[' :: (name ++ [chr ']'])) = chr '[' :: (name ++ [chr ']']) := by
        rw [trimStr_cons hOpen, dropBlanksRight_concat hClose]
      have hCut : (name ++ [chr ']']).takeWhile (· ≠ chr ']') = name := by
        rw [List.takeWhile_append_of_pos]
        · simp
        · exact fun d hd => decide_eq_true fun hEq : d = chr ']' => hBracket (hEq ▸ hd)
      rw [List.singleton_append, List.cons_append, classify, hTrimmed]
      dsimp only
      rw [if_neg (by decide), if_pos ⟨rfl, by simp⟩, hCut]

/-- The last character of a trimmed text is not blank, and so is that of every end of it. -/
theorem dropBlanksRight_suffix {text rest : CString} (h : dropBlanksRight text = text)
    (hSuffix : rest <:+ text) : dropBlanksRight rest = rest := by
  rw [dropBlanksRight_eq, List.rdropWhile_eq_self_iff] at h ⊢
  intro hNonempty
  obtain ⟨front, rfl⟩ := hSuffix
  have hLast := h (List.append_ne_nil_of_right_ne_nil front hNonempty)
  rwa [List.getLast_append_of_ne_nil _ hNonempty] at hLast

/-- The line printed for a key and a value that are trimmed is read as that assignment. -/
theorem classify_printed {c : UInt8} {more : CString} (hBlank : isBlankChar c = false)
    (hComment : c ≠ chr '#') (hSection : ¬(c = chr '[' ∧ (chr ']' ∈ more ∨ chr ']' ∈ value)))
    (hEquals : chr '=' ∉ c :: more) (hKey : dropBlanksRight (c :: more) = c :: more)
    (hLeft : value.dropWhile isBlankChar = value) (hRight : dropBlanksRight value = value) :
    classify (c :: more ++ [chr '='] ++ value) = .assignment (c :: more) value := by
  have hText : c :: more ++ [chr '='] ++ value = c :: (more ++ [chr '='] ++ value) := rfl
  have hTrimmed : trimStr (c :: (more ++ [chr '='] ++ value)) = c :: (more ++ [chr '='] ++ value) := by
    have hEnd := dropBlanksRight_concat isBlankChar_separators.2.2 more
    rw [trimStr_cons hBlank]
    exact congrArg (List.cons c) ((rdropWhile_append_of_eq hEnd value).trans (congrArg _ hRight))
  have hNoSection : ¬(c = chr '[' ∧ chr ']' ∈ more ++ [chr '='] ++ value) := by
    rintro ⟨hOpen, hMem⟩
    simp only [List.mem_append, List.mem_singleton] at hMem
    rcases hMem with (hMem | hMem) | hMem
    · exact hSection ⟨hOpen, .inl hMem⟩
    · exact absurd hMem (by decide)
    · exact hSection ⟨hOpen, .inr hMem⟩
  have hSplit : (c :: more ++ [chr '='] ++ value).takeWhile (· ≠ chr '=') = c :: more ∧
      (c :: more ++ [chr '='] ++ value).dropWhile (· ≠ chr '=') = chr '=' :: value := by
    have hKept : ∀ d ∈ c :: more, decide (d ≠ chr '=') = true := fun d hd =>
      decide_eq_true fun hEq => hEquals (hEq ▸ hd)
    rw [List.append_assoc, List.takeWhile_append_of_pos hKept, List.dropWhile_append_of_pos hKept]
    simp
  obtain ⟨hTake, hDrop⟩ := hSplit
  have hFirst : c ≠ chr '=' := fun hEq => hEquals (hEq ▸ List.mem_cons_self)
  rw [hText] at hTake hDrop ⊢
  rw [classify, hTrimmed]
  dsimp only
  rw [if_neg hComment, if_neg hNoSection, if_neg hFirst, hTake, hDrop, hKey, List.tail_cons, hLeft]

theorem classify_assignment (h : classify line = .assignment key value) :
    key ⊆ line ∧ value ⊆ line ∧
      classify (key ++ [chr '='] ++ value) = .assignment key value := by
  rw [classify] at h
  cases hText : trimStr line with
  | nil =>
    rw [hText] at h
    cases h
  | cons c rest =>
    have hBlank := isBlankChar_of_trimStr hText
    have hWhole := dropBlanksRight_trimStr line
    have hLine := trimStr_subset line
    rw [hText] at h hWhole hLine
    dsimp only at h
    split_ifs at h with hComment hSection hEquals
    obtain ⟨hKey, hValue⟩ := ConfLine.assignment.inj h
    have hFront : key <+: (c :: rest).takeWhile (· ≠ chr '=') := hKey ▸ List.rdropWhile_prefix _ _
    have hBack : value <:+ rest := by
      rw [← hValue, List.dropWhile_cons_of_pos (by simpa using hEquals)]
      exact ((List.dropWhile_suffix _).trans (List.tail_suffix _)).trans (List.dropWhile_suffix _)
    have hKeySub : key ⊆ c :: rest := (hFront.trans (List.takeWhile_prefix _)).subset
    have hNoEquals : chr '=' ∉ key := fun hMem => by
      simpa using List.mem_takeWhile_imp (hFront.subset hMem)
    have hKeyRight : dropBlanksRight key = key := hKey ▸ List.rdropWhile_idempotent _ _
    have hValueRight := dropBlanksRight_suffix hWhole (hBack.trans (List.suffix_cons c rest))
    have hValueLeft : value.dropWhile isBlankChar = value := hValue ▸ List.dropWhile_idempotent _ _
    obtain ⟨more, rfl, hMore⟩ : ∃ more, key = c :: more ∧ more ⊆ rest := by
      rw [List.takeWhile_cons_of_pos (by simpa using hEquals), dropBlanksRight_cons hBlank] at hKey
      refine ⟨_, hKey.symm, fun d hd => ?_⟩
      exact (List.takeWhile_prefix _).subset ((List.rdropWhile_prefix _ _).subset hd)
    refine ⟨fun d hd => hLine (hKeySub hd),
      fun d hd => hLine (List.mem_cons_of_mem c (hBack.subset hd)), ?_⟩
    refine classify_printed hBlank hComment ?_ hNoEquals hKeyRight hValueLeft hValueRight
    rintro ⟨hOpen, hClose⟩
    exact hSection ⟨hOpen, hClose.elim (fun hd => hMore hd) fun hd => hBack.subset hd⟩

/-! ## What the reader has read -/

theorem newline_of_mem_fgetsBuffers {size : ℕ} {buf : List UInt8} (hBuf : chr '\n' ∉ buf) :
    ∀ piece ∈ fgetsBuffers size buf file,
      ∃ text, chr '\n' ∉ text ∧ (piece = text ∨ piece = text ++ [chr '\n']) := by
  induction file generalizing buf with
  | nil =>
    cases buf with
    | nil => simp [fgetsBuffers]
    | cons c buf =>
      rw [fgetsBuffers, List.forall_mem_singleton]
      · exact ⟨(c :: buf).reverse, mt List.mem_reverse.mp hBuf, .inl rfl⟩
      · simp
  | cons c file ih =>
    rw [fgetsBuffers]
    split_ifs with hEnd
    · refine List.forall_mem_cons.mpr ⟨?_, ih List.not_mem_nil⟩
      rw [List.reverse_cons]
      rcases eq_or_ne c (chr '\n') with rfl | hNewline
      · exact ⟨buf.reverse, by simpa using hBuf, .inr rfl⟩
      · exact ⟨buf.reverse ++ [c], by simp [hBuf, Ne.symm hNewline], .inl rfl⟩
    · apply ih
      rw [List.mem_cons, not_or]
      exact ⟨fun hEq => hEnd (.inl hEq.symm), hBuf⟩

theorem mem_statements (file : List UInt8) :
    ∀ st ∈ statements file, ∃ line, OneLine line ∧ classify line = st := by
  intro st hst
  obtain ⟨piece, hPiece, rfl⟩ := List.mem_map.mp (List.mem_of_mem_filter hst)
  obtain ⟨text, hText, hEq⟩ := newline_of_mem_fgetsBuffers List.not_mem_nil piece hPiece
  refine ⟨upToNul text, ⟨fun hMem => hText ((List.takeWhile_prefix _).subset hMem), fun hMem => ?_⟩, ?_⟩
  · simpa using List.mem_takeWhile_imp hMem
  · rcases hEq with rfl | rfl
    · rfl
    · exact (classify_upToNul_newline text).symm

theorem readable_of_assignments
    (hLines : ∀ st ∈ lines, ∃ line, OneLine line ∧ classify line = st)
    (hCurrent : ∀ name ∈ current, ReadableName name) (h : assignments current lines = some as) :
    ∀ a ∈ as, a.Readable := by
  induction lines generalizing current as with
  | nil =>
    cases h
    simp
  | cons st lines ih =>
    obtain ⟨⟨line, hLine, hClassify⟩, hRestLines⟩ := List.forall_mem_cons.mp hLines
    cases st with
    | empty => exact ih hRestLines hCurrent h
    | comment => exact ih hRestLines hCurrent h
    | malformed => cases h
    | header name =>
      obtain ⟨hSub, hHeader⟩ := classify_header hClassify
      refine ih hRestLines (fun _ hEq => ?_) h
      cases hEq
      exact ⟨hLine.mono hSub, hHeader⟩
    | assignment key value =>
      cases current with
      | none => cases h
      | some name =>
        rw [assignments] at h
        split_ifs at h with hName
        obtain ⟨rest, hRest, rfl⟩ := Option.map_eq_some_iff.mp h
        obtain ⟨hKey, hValue, hAssignment⟩ := classify_assignment hClassify
        refine List.forall_mem_cons.mpr ⟨?_, ih hRestLines hCurrent hRest⟩
        exact ⟨hCurrent name rfl, hName, hLine.mono hKey, hLine.mono hValue, hAssignment⟩

/-! ## What a saved file says -/

def Section.printed (s : Section) : List ConfLine :=
  .header s.name ::
    (s.map.pairs.filter Pair.Short).map fun pair => .assignment pair.key pair.value

variable {stream text : List UInt8} {settings : Settings}

theorem LineStart.print (h : LineStart stream) (hLine : OneLine line)
    (hRoom : line.length < maxLineChars) :
    LineStart (stream ++ (line ++ [chr '\n'])) ∧ statements (stream ++ (line ++ [chr '\n'])) =
      statements stream ++ [classify line].filter ConfLine.isStatement := by
  refine ⟨.inr ⟨stream ++ line, by rw [List.append_assoc]⟩, ?_⟩
  rw [h.statements_append, statements_append_newline, statements_nil, List.append_nil,
    statements_short hLine.1 hRoom, upToNul_of_noNul hLine.2]

theorem OneLine.append (h : OneLine line) {text : CString} (hText : OneLine text) :
    OneLine (line ++ text) :=
  ⟨by simp [h.1, hText.1], by simp [h.2, hText.2]⟩

theorem oneLine_separators : OneLine [chr '['] ∧ OneLine [chr ']'] ∧ OneLine [chr '='] ∧ OneLine [] := by
  refine ⟨⟨?_, ?_⟩, ⟨?_, ?_⟩, ⟨?_, ?_⟩, ⟨?_, ?_⟩⟩ <;> decide

theorem enumMap_of_short {pair : Pair} (h : pair.Short) (stream : List UInt8) :
    enumMap pair.key pair.value stream =
      stream ++ (pair.key ++ [chr '='] ++ pair.value ++ [chr '\n']) := if_pos h

theorem enumMap_of_not_short {pair : Pair} (h : ¬ pair.Short) (stream : List UInt8) :
    enumMap pair.key pair.value stream = stream := if_neg h

theorem Pair.Short.fits {pair : Pair} (h : pair.Short) :
    (pair.key ++ [chr '='] ++ pair.value).length < maxLineChars := by
  obtain ⟨hKey, hValue⟩ := h
  rw [maxKeyChars] at hKey
  rw [maxValueChars] at hValue
  simp only [List.length_append, List.length_singleton, maxLineChars]
  omega

theorem foldl_enumMap (h : LineStart stream) {pairs : List Pair}
    (hPairs : ∀ pair ∈ pairs, (⟨name, pair.key, pair.value⟩ : Assignment).Readable) :
    LineStart (pairs.foldl (fun stream pair => enumMap pair.key pair.value stream) stream) ∧
      statements (pairs.foldl (fun stream pair => enumMap pair.key pair.value stream) stream) =
        statements stream ++
          (pairs.filter Pair.Short).map fun pair => .assignment pair.key pair.value := by
  induction pairs generalizing stream with
  | nil => exact ⟨h, by simp⟩
  | cons pair rest ih =>
    obtain ⟨hPair, hRest⟩ := List.forall_mem_cons.mp hPairs
    rw [List.foldl_cons]
    by_cases hShort : pair.Short
    · have hLine := (hPair.key.append oneLine_separators.2.2.1).append hPair.value
      obtain ⟨hStart, hStatements⟩ := h.print hLine hShort.fits
      obtain ⟨hEnd, hAll⟩ := ih hStart hRest
      have hKept : (pair :: rest).filter Pair.Short = pair :: rest.filter Pair.Short :=
        List.filter_cons_of_pos (decide_eq_true hShort)
      rw [enumMap_of_short hShort, hKept]
      refine ⟨hEnd, hAll.trans ?_⟩
      rw [hStatements, hPair.assignment, List.append_assoc]
      rfl
    · have hLeft : (pair :: rest).filter Pair.Short = rest.filter Pair.Short :=
        List.filter_cons_of_neg (by simpa using hShort)
      rw [enumMap_of_not_short hShort, hLeft]
      exact ih h hRest

/-- The section has a name of one line, and so have its pairs. -/
structure Section.Readable (s : Section) : Prop where
  name : ReadableName s.name
  named : s.name ≠ []
  pairs : ∀ pair ∈ s.map.pairs, (⟨s.name, pair.key, pair.value⟩ : Assignment).Readable

theorem saveSection_spec (h : LineStart stream) {s : Section} (hReadable : s.Readable)
    (hSave : saveSection stream s = some text) :
    LineStart text ∧ statements text = statements stream ++ s.printed := by
  rw [saveSection] at hSave
  split_ifs at hSave with hRoom
  cases hSave
  obtain ⟨hOpen, hClose, -, hNil⟩ := oneLine_separators
  have hName : ([chr '['] ++ s.name ++ [chr ']']).length < maxLineChars := by
    simp only [header, List.length_append, List.length_cons, List.length_nil] at hRoom ⊢
    omega
  obtain ⟨hStart, hHeader⟩ := h.print ((hOpen.append hReadable.name.oneLine).append hClose) hName
  obtain ⟨hPairs, hLines⟩ := foldl_enumMap hStart hReadable.pairs
  obtain ⟨hEnd, hBlank⟩ := hPairs.print hNil (by decide)
  have hText : header s.name = [chr '['] ++ s.name ++ [chr ']'] ++ [chr '\n'] := by
    rw [header, List.append_assoc _ [chr ']']]
    rfl
  rw [smEnum_eq, hText]
  refine ⟨hEnd, hBlank.trans ?_⟩
  have hNothing : [classify []].filter ConfLine.isStatement = [] := rfl
  rw [hLines, hHeader, hReadable.name.header, hNothing, List.append_nil, List.append_assoc]
  rfl

theorem settingsSave_spec (h : LineStart stream) (hReadable : ∀ s ∈ settings, s.Readable)
    (hSave : settingsSave settings stream = some text) :
    LineStart text ∧ statements text = statements stream ++ settings.flatMap Section.printed := by
  induction settings generalizing stream with
  | nil =>
    cases hSave
    exact ⟨h, by simp⟩
  | cons s rest ih =>
    obtain ⟨hSection, hRest⟩ := List.forall_mem_cons.mp hReadable
    obtain ⟨saved, hFirst, hOthers⟩ := Option.bind_eq_some_iff.mp hSave
    obtain ⟨hStart, hPrinted⟩ := saveSection_spec h hSection hFirst
    obtain ⟨hEnd, hAll⟩ := ih hStart hRest hOthers
    refine ⟨hEnd, hAll.trans ?_⟩
    rw [hPrinted, List.flatMap_cons, List.append_assoc]

def Settings.kept (settings : Settings) : List Assignment :=
  (Settings.assignments settings).filter fun a => Pair.Short ⟨a.key, a.value⟩

theorem assignments_pairs (hName : name ≠ []) (pairs : List Pair) (rest : List ConfLine) :
    assignments (some name) ((pairs.map fun pair => .assignment pair.key pair.value) ++ rest) =
      (assignments (some name) rest).map
        ((pairs.map fun pair => (⟨name, pair.key, pair.value⟩ : Assignment)) ++ ·) := by
  induction pairs with
  | nil => simp
  | cons pair pairs ih =>
    rw [List.map_cons, List.cons_append, assignments, if_neg hName, ih, Option.map_map]
    rfl

theorem assignments_printed (hNamed : ∀ s ∈ settings, s.name ≠ []) (current : Option CString) :
    assignments current (settings.flatMap Section.printed) = some (Settings.kept settings) := by
  induction settings generalizing current with
  | nil => rfl
  | cons s rest ih =>
    obtain ⟨hName, hRest⟩ := List.forall_mem_cons.mp hNamed
    rw [List.flatMap_cons, Section.printed, List.cons_append, assignments, assignments_pairs hName,
      ih hRest, Option.map_some]
    simp only [Settings.kept, Settings.assignments, Section.assignments, List.flatMap_cons,
      List.filter_append, List.filter_map]
    rfl

/-! ## The round trip -/

/-- The headers fit the buffer and every pair is written. -/
structure Savable (settings : Settings) : Prop where
  names : ∀ s ∈ settings, (header s.name).length < maxLineChars
  pairs : ∀ a ∈ Settings.assignments settings, Pair.Short ⟨a.key, a.value⟩

theorem readable_of_settingsOpen (h : settingsOpen file = some settings) :
    settings.Valid ∧ ∀ s ∈ settings, s.Readable := by
  rw [settingsOpen_eq_statements] at h
  obtain ⟨as, hAs, rfl⟩ := Option.map_eq_some_iff.mp h
  have hReadable := readable_of_assignments (mem_statements file) (by simp) hAs
  have hValid := nil_valid.foldl_put as
  refine ⟨hValid, fun s hs => ?_⟩
  have hPairs : ∀ pair ∈ s.map.pairs, (⟨s.name, pair.key, pair.value⟩ : Assignment).Readable := by
    intro pair hPair
    apply hReadable
    apply mem_of_lastAssigned
    rw [← (foldl_put_lookup as).2]
    apply hValid.lookup_eq_some_iff (a := ⟨s.name, pair.key, pair.value⟩).mpr
    exact List.mem_flatMap.mpr ⟨s, hs, List.mem_map_of_mem hPair⟩
  obtain ⟨pair, hPair⟩ := List.exists_mem_of_ne_nil _ (hValid.sections s hs).inhabited
  exact ⟨(hPairs pair hPair).name, (hPairs pair hPair).named, hPairs⟩

theorem isSome_settingsSave_iff (stream : List UInt8) :
    (settingsSave settings stream).isSome ↔ ∀ s ∈ settings, (header s.name).length < maxLineChars := by
  induction settings generalizing stream with
  | nil => simp [settingsSave]
  | cons s rest ih =>
    have hCons : settingsSave (s :: rest) stream =
        (saveSection stream s).bind fun saved => settingsSave rest saved := rfl
    rw [hCons, List.forall_mem_cons, saveSection]
    split_ifs with hRoom
    · rw [Option.bind_some, ih, and_iff_right hRoom]
    · simp [hRoom]

/-- The copy holds the pairs that are written. -/
theorem settingsOpen_saved {text : List UInt8} (hReadable : ∀ s ∈ settings, s.Readable)
    (hSave : settingsSave settings [] = some text) :
    settingsOpen text = some ((Settings.kept settings).foldl Assignment.put []) := by
  obtain ⟨-, hText⟩ := settingsSave_spec (.inl rfl) hReadable hSave
  rw [settingsOpen_eq_statements, hText, statements_nil, List.nil_append,
    assignments_printed fun s hs => (hReadable s hs).named]
  rfl

/-- What a file has been read as is saved and read again as the same settings exactly when the
names of the sections fit the buffer of the headers and no pair is too long to be written. -/
theorem save_then_open_iff (hOpen : settingsOpen file = some settings) :
    (settingsSave settings []).bind settingsOpen = some settings ↔ Savable settings := by
  obtain ⟨hValid, hReadable⟩ := readable_of_settingsOpen hOpen
  constructor
  · intro hCopy
    obtain ⟨text, hSave, hText⟩ := Option.bind_eq_some_iff.mp hCopy
    refine ⟨(isSome_settingsSave_iff []).mp (by rw [hSave]; rfl), fun a ha => ?_⟩
    rw [settingsOpen_saved hReadable hSave, Option.some_inj] at hText
    have hLookup := hValid.lookup_eq_some_iff.mpr ha
    rw [← hText, (foldl_put_lookup _).2] at hLookup
    exact of_decide_eq_true (List.mem_filter.mp (mem_of_lastAssigned hLookup)).2
  · intro hSavable
    obtain ⟨text, hSave⟩ :=
      Option.isSome_iff_exists.mp ((isSome_settingsSave_iff []).mpr hSavable.names)
    have hAll : Settings.kept settings = Settings.assignments settings :=
      List.filter_eq_self.mpr fun a ha => decide_eq_true (hSavable.pairs a ha)
    rw [hSave, Option.bind_some, settingsOpen_saved hReadable hSave, hAll, hValid.rebuild]

theorem save_then_open_iff_sample : ∃ settings, settingsOpen reopenedFile = some settings ∧
    ((settingsSave settings []).bind settingsOpen = some settings ↔ Savable settings) := by
  have hRead : (settingsOpen reopenedFile).isSome := by decide +kernel
  obtain ⟨settings, hOpen⟩ := Option.isSome_iff_exists.mp hRead
  exact ⟨settings, hOpen, save_then_open_iff hOpen⟩

/-- The key set again keeps its place in the copy. -/
example : ((settingsOpen reopenedFile).bind fun settings => settingsSave settings []) =
    some (cstring "[general]\nlow_temp=60 # low\n\n[x]\nlow_temp=\n\n") := by
  decide +kernel

end Mbpfan
