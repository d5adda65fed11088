import Mbpfan.Forgetting
import Mbpfan.Language

/-!
# What the reader makes of any file

A line that does not fit the line buffer is read in pieces, each of them as a line of its own,
and a value that does not fit the value buffer counts as 0. With the pieces in place of the
lines, the configuration language tells what every file gives, and what a part of a file does
to the rest of it.
-/

namespace Mbpfan

open Library

def ConfLine.isStatement : ConfLine → Bool
  | .empty => false
  | .comment => false
  | .header _ => true
  | .assignment _ _ => true
  | .malformed => true

def pieceStatements (pieces : List (List UInt8)) : List ConfLine :=
  (pieces.map fun piece => classify (upToNul piece)).filter ConfLine.isStatement

/-- The pieces of the file that are neither blank nor comments. -/
def statements (file : List UInt8) : List ConfLine :=
  pieceStatements (fgetsBuffers maxLineChars [] file)

def ConfLine.sectionAfter (current : Option CString) : ConfLine → Option CString
  | .header name => some name
  | _ => current

def sectionAfter (current : Option CString) (lines : List ConfLine) : Option CString :=
  lines.foldl ConfLine.sectionAfter current

/-- The number `settings_get_int` finds in a value. -/
def reading (value : CString) : CInt :=
  if value.length < maxValueChars then atoi value else CInt.zero

/-- The number the assignments give to a key of section general, `none` without one. -/
def generalReading (as : List Assignment) (key : CString) : Option CInt :=
  (lastAssigned as (cstring "general") key).map reading

variable {current : Option CString} {lines : List ConfLine} {as : List Assignment}
  {file xs ys : List UInt8} {key : CString}

/-! ## Pieces -/

theorem length_of_mem_fgetsBuffers {size : ℕ} {buf : List UInt8} (hRoom : buf.length + 2 ≤ size) :
    ∀ piece ∈ fgetsBuffers size buf file, piece.length < size := by
  induction file generalizing buf with
  | nil =>
    cases buf with
    | nil => simp [fgetsBuffers]
    | cons c buf =>
      rw [fgetsBuffers, List.forall_mem_singleton, List.length_reverse]
      · omega
      · simp
  | cons c file ih =>
    rw [fgetsBuffers]
    split_ifs with hEnd
    · refine List.forall_mem_cons.mpr ⟨?_, ih (by rw [List.length_nil]; omega)⟩
      rw [List.length_reverse, List.length_cons]
      omega
    · apply ih
      rw [List.length_cons]
      omega

theorem classify_upToNul_newline (line : List UInt8) :
    classify (upToNul (line ++ [chr '\n'])) = classify (upToNul line) := by
  rw [classify, classify, trimStr_upToNul_newline]

@[simp] theorem pieceStatements_nil : pieceStatements [] = [] := rfl

theorem pieceStatements_cons (piece : List UInt8) (pieces : List (List UInt8)) :
    pieceStatements (piece :: pieces) =
      [classify (upToNul piece)].filter ConfLine.isStatement ++ pieceStatements pieces := by
  rw [pieceStatements, List.map_cons, ← List.singleton_append, List.filter_append]
  rfl

theorem pieceStatements_newline (line : List UInt8) (pieces : List (List UInt8)) :
    pieceStatements ((line ++ [chr '\n']) :: pieces) = pieceStatements (line :: pieces) := by
  rw [pieceStatements_cons, pieceStatements_cons, classify_upToNul_newline]

theorem pieceStatements_append_newline (size : ℕ) (buf xs ys : List UInt8) :
    pieceStatements (fgetsBuffers size buf (xs ++ chr '\n' :: ys)) =
      pieceStatements (fgetsBuffers size buf xs) ++ pieceStatements (fgetsBuffers size [] ys) := by
  induction xs generalizing buf with
  | nil =>
    rw [List.nil_append, fgetsBuffers_newline, pieceStatements_newline, pieceStatements_cons]
    cases buf with
    | nil => rfl
    | cons c buf => simp [fgetsBuffers, pieceStatements_cons]
  | cons c xs ih =>
    rw [List.cons_append, fgetsBuffers, fgetsBuffers]
    split_ifs with hEnd
    · rw [pieceStatements_cons, ih, pieceStatements_cons, List.append_assoc]
    · exact ih (c :: buf)

@[simp] theorem statements_nil : statements [] = [] := rfl

theorem statements_append_newline (xs ys : List UInt8) :
    statements (xs ++ chr '\n' :: ys) = statements xs ++ statements ys :=
  pieceStatements_append_newline maxLineChars [] xs ys

def LineStart (before : List UInt8) : Prop := before = [] ∨ ∃ xs, before = xs ++ [chr '\n']

def LineEnd (after : List UInt8) : Prop := after = [] ∨ ∃ ys, after = chr '\n' :: ys

theorem LineStart.statements_append {before : List UInt8} (h : LineStart before)
    (ys : List UInt8) : statements (before ++ ys) = statements before ++ statements ys := by
  rcases h with rfl | ⟨xs, rfl⟩
  · rfl
  · have hLine := statements_append_newline xs []
    rw [statements_nil, List.append_nil] at hLine
    rw [List.append_assoc, List.singleton_append, statements_append_newline, hLine]

theorem LineEnd.statements_tail {after : List UInt8} (h : LineEnd after) :
    statements after.tail = statements after := by
  rcases h with rfl | ⟨ys, rfl⟩
  · rfl
  · exact (statements_append_newline [] ys).symm

theorem LineEnd.statements_append {after : List UInt8} (h : LineEnd after) (xs : List UInt8) :
    statements (xs ++ after) = statements xs ++ statements after := by
  rcases h with rfl | ⟨ys, rfl⟩
  · simp
  · rw [statements_append_newline]
    exact congrArg _ (statements_append_newline [] ys).symm

/-! ## Lines that fit -/

theorem fgetsBuffers_short {size : ℕ} {buf : List UInt8} (hLine : chr '\n' ∉ xs)
    (hNonempty : buf ≠ [] ∨ xs ≠ []) (hRoom : buf.length + xs.length < size) :
    fgetsBuffers size buf xs = [buf.reverse ++ xs] := by
  induction xs generalizing buf with
  | nil =>
    cases buf with
    | nil => simp at hNonempty
    | cons c buf => simp [fgetsBuffers]
  | cons c xs ih =>
    obtain ⟨hNewline, hRest⟩ := not_or.mp (mt List.mem_cons.mpr hLine)
    rw [List.length_cons] at hRoom
    by_cases hFull : buf.length + 2 = size
    · have hLast : xs = [] := List.length_eq_zero_iff.mp (by omega)
      rw [fgetsBuffers, if_pos (.inr hFull), hLast, List.reverse_cons]
      rfl
    · have hNext : (c :: buf).length + xs.length < size := by
        rw [List.length_cons]
        omega
      rw [fgetsBuffers_of_ne (Ne.symm hNewline) hFull, ih hRest (.inl (by simp)) hNext]
      simp

theorem statements_short (hLine : chr '\n' ∉ xs) (hRoom : xs.length < maxLineChars) :
    statements xs = [classify (upToNul xs)].filter ConfLine.isStatement := by
  by_cases hEmpty : xs = []
  · rw [hEmpty]
    rfl
  · rw [statements, fgetsBuffers_short hLine (.inr hEmpty) (by simpa using hRoom),
      pieceStatements_cons, pieceStatements_nil, List.append_nil]
    rfl

/-! ## Statements -/

theorem assignments_filter (lines : List ConfLine) (current : Option CString) :
    assignments current (lines.filter ConfLine.isStatement) = assignments current lines := by
  induction lines generalizing current with
  | nil => rfl
  | cons line lines ih =>
    cases line with
    | empty => exact ih current
    | comment => exact ih current
    | header name => exact ih (some name)
    | malformed => rfl
    | assignment key value =>
      cases current with
      | none => rfl
      | some name =>
        rw [List.filter_cons_of_pos rfl, assignments, assignments, ih]

@[simp] theorem sectionAfter_append (current : Option CString) (xs ys : List ConfLine) :
    sectionAfter current (xs ++ ys) = sectionAfter (sectionAfter current xs) ys :=
  List.foldl_append

theorem assignments_append (xs ys : List ConfLine) (current : Option CString) :
    assignments current (xs ++ ys) = (assignments current xs).bind fun as =>
      (assignments (sectionAfter current xs) ys).map (as ++ ·) := by
  induction xs generalizing current with
  | nil => simp [assignments, sectionAfter]
  | cons line xs ih =>
    cases line with
    | empty => exact ih current
    | comment => exact ih current
    | header name => exact ih (some name)
    | malformed => rfl
    | assignment key value =>
      cases current with
      | none => rfl
      | some name =>
        have hSection : sectionAfter (some name) (.assignment key value :: xs) =
            sectionAfter (some name) xs := rfl
        rw [List.cons_append, assignments, assignments, hSection]
        split_ifs with hName
        · rfl
        · rw [ih]
          cases assignments (some name) xs with
          | none => rfl
          | some as => simp [Option.map_map, Function.comp_def]

theorem assignments_append_eq_some {xs ys : List ConfLine} :
    assignments current (xs ++ ys) = some as ↔ ∃ bs cs, assignments current xs = some bs ∧
      assignments (sectionAfter current xs) ys = some cs ∧ bs ++ cs = as := by
  rw [assignments_append, Option.bind_eq_some_iff]
  apply exists_congr
  intro bs
  rw [Option.map_eq_some_iff, ← exists_and_left]

/-- Every file is read as its statements are, one after the other. -/
theorem settingsOpen_eq_statements (file : List UInt8) :
    settingsOpen file =
      (assignments none (statements file)).map fun as => as.foldl Assignment.put [] := by
  have hLengths : ∀ piece ∈ fgetsBuffers maxLineChars [] file, piece.length < maxLineChars :=
    length_of_mem_fgetsBuffers (by decide)
  rw [statements, pieceStatements, assignments_filter]
  exact (congrArg (Option.map _) (foldlM_parseBuf hLengths _)).trans (foldlM_read _ _)

/-! ## Numbers -/

theorem lastAssigned_append (as bs : List Assignment) (name key : CString) :
    lastAssigned (as ++ bs) name key = (lastAssigned bs name key).or (lastAssigned as name key) := by
  rw [lastAssigned, List.filter_append, List.getLast?_append, Option.map_or]
  rfl

theorem generalReading_append (as bs : List Assignment) (key : CString) :
    generalReading (as ++ bs) key = (generalReading bs key).or (generalReading as key) := by
  rw [generalReading, lastAssigned_append, Option.map_or]
  rfl

theorem generalReading_cons (a : Assignment) (as : List Assignment) (key : CString) :
    generalReading (a :: as) key =
      (generalReading as key).or
        (if a.sectionName = cstring "general" ∧ a.key = key then some (reading a.value) else none) := by
  rw [← List.singleton_append, generalReading_append]
  congr 1
  rw [generalReading, lastAssigned]
  split_ifs with hSame <;> simp [hSame]

theorem getGeneral_eq (as : List Assignment) (key : CString) :
    getGeneral (as.foldl Assignment.put []) key = (generalReading as key).getD CInt.zero := by
  rw [getGeneral, settingsGetInt, settingsGet_eq, (foldl_put_lookup as).2, generalReading]
  cases lastAssigned as (cstring "general") key with
  | none => rfl
  | some value =>
    simp only [Option.filter_some, Option.map_some, Option.getD_some, reading, decide_eq_true_eq]
    split_ifs <;> rfl

theorem given_eq (file : List UInt8) (key : CString) :
    given (some file) key =
      ((assignments none (statements file)).bind fun as => generalReading as key).getD CInt.zero := by
  have hRead : readSettings (some file) = settingsOpen file := rfl
  rw [settingsOpen_eq_statements] at hRead
  cases hAs : assignments none (statements file) with
  | none => exact given_of_none (by rw [hRead, hAs]; rfl) key
  | some as =>
    rw [hAs] at hRead
    exact (given_of_some hRead key).trans (getGeneral_eq as key)

/-! ## The keys `retrieve_settings` looks up -/

/-- Those of the parameters and of every fan that `retrieve_fans` can find. -/
def settingKeys : List CString :=
  [cstring "low_temp", cstring "high_temp", cstring "max_temp", cstring "polling_interval"] ++
    (List.range numFans).map minFanKey ++ (List.range numFans).map maxFanKey

theorem mem_settingKeys_fan {fan : Fan} (h : fan.fanId < numFans) :
    minFanKey fan.fanId ∈ settingKeys ∧ maxFanKey fan.fanId ∈ settingKeys := by
  have hRange : fan.fanId ∈ List.range numFans := List.mem_range.mpr h
  exact ⟨List.mem_append_left _ (List.mem_append_right _ (List.mem_map_of_mem hRange)),
    List.mem_append_right _ (List.mem_map_of_mem hRange)⟩

theorem override_injective {result result' : CInt}
    (h : ∀ old, override result old = override result' old) : result = result' := by
  have hOne := h ⟨1, by decide⟩
  have hTwo := h ⟨2, by decide⟩
  unfold override at hOne hTwo
  split_ifs at hOne hTwo with hGiven hGiven' hGiven'
  · exact hOne
  · exact absurd (hOne.symm.trans hTwo) (by decide)
  · exact absurd (hOne.trans hTwo.symm) (by decide)
  · exact Subtype.ext ((not_not.mp hGiven).trans (not_not.mp hGiven').symm)

/-- Two files set the same parameters and limits, whatever was in force, exactly when they give
the same numbers. -/
theorem retrieveSettings_congr_iff {file file' : ConfFile} :
    (∀ p fans, (∀ fan ∈ fans, fan.fanId < numFans) →
      retrieveSettings file' p fans = retrieveSettings file p fans) ↔
    ∀ key ∈ settingKeys, given file' key = given file key := by
  simp only [retrieveSettings_eq, Prod.mk.injEq]
  constructor
  · intro h
    have hParams (old : CInt) := (h ⟨old, old, old, old⟩ [] (by simp)).1
    have hFan (i : ℕ) (hi : i ∈ List.range numFans) (old : CInt) :
        limited file' ⟨true, old, old, i, old, old, old⟩ =
          limited file ⟨true, old, old, i, old, old, old⟩ := by
      have hIds : ∀ fan ∈ [(⟨true, old, old, i, old, old, old⟩ : Fan)], fan.fanId < numFans :=
        List.forall_mem_singleton.mpr (List.mem_range.mp hi)
      exact List.singleton_injective (h defaultParams _ hIds).2
    refine List.forall_mem_append.mpr ⟨List.forall_mem_append.mpr ⟨?_, ?_⟩, ?_⟩
    · simp only [List.forall_mem_cons]
      exact ⟨override_injective fun old => congrArg Params.lowTemp (hParams old),
        override_injective fun old => congrArg Params.highTemp (hParams old),
        override_injective fun old => congrArg Params.maxTemp (hParams old),
        override_injective fun old => congrArg Params.pollingInterval (hParams old), by simp⟩
    · refine List.forall_mem_map.mpr fun i hi => override_injective fun old => ?_
      exact congrArg Fan.fanMinSpeed (hFan i hi old)
    · refine List.forall_mem_map.mpr fun i hi => override_injective fun old => ?_
      exact congrArg Fan.fanMaxSpeed (hFan i hi old)
  · intro h p fans hIds
    have hLast (key : CString) (hKey : key ∈ settingKeys) (old : CInt) :
        lastGiven [file'] key old = lastGiven [file] key old :=
      congrArg (override · old) (h key hKey)
    constructor
    · simp only [paramsAfter]
      rw [hLast _ (by simp [settingKeys]), hLast _ (by simp [settingKeys]),
        hLast _ (by simp [settingKeys]), hLast _ (by simp [settingKeys])]
    · refine List.map_congr_left fun fan hMem => ?_
      obtain ⟨hMin, hMax⟩ := mem_settingKeys_fan (hIds fan hMem)
      rw [limited, limited, h _ hMin, h _ hMax]

end Mbpfan
