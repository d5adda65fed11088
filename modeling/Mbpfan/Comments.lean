import Mbpfan.Decimal
import Mbpfan.Statements

/-!
# Comments

The two ways to put a comment into a file, and what the comment must not do for the settings
to stay as they are. What is left of a comment beyond the end of the line buffer is read as
a line of its own, and a value with its comment must fit the value buffer.
-/

namespace Mbpfan

open Library

abbrev CommentText := {text : List UInt8 // chr '\n' ∉ text ∧ 0 ∉ text}

abbrev Blank := {c : UInt8 // c = chr ' ' ∨ c = chr '\t'}

def IsNumber (s : CString) : Prop :=
  ∃ sign digits, s = sign ++ digits ∧ sign ∈ [[], [chr '-'], [chr '+']] ∧ digits ≠ [] ∧
    ∀ c ∈ digits, isDigit c = true

/-- A line that assigns a number: `front` is the line up to the number, `rest` what follows. -/
structure NumberLine where
  front : List UInt8
  rest : List UInt8
  assigns : ∃ key number, classify front = .assignment key number ∧ IsNumber number
  ends : EndsDigits rest
  noNul : 0 ∉ front
  oneLine : chr '\n' ∉ front ++ rest

inductive Edit
  | commentLine (text : CommentText)
  | trailingComment (line : NumberLine) (blank : Blank) (text : CommentText)

def NumberLine.original (line : NumberLine) : List UInt8 := line.front ++ line.rest

def NumberLine.commented (line : NumberLine) (blank : Blank) (text : CommentText) : List UInt8 :=
  line.front ++ (blank.val :: chr '#' :: text.val) ++ line.rest

/-- The second file is the first with the edit made somewhere, a trailing comment in section
general. -/
def Edit.Applies (file file' : List UInt8) : Edit → Prop
  | .commentLine text => ∃ before after, LineStart before ∧ LineEnd after ∧
      file = before ++ after.tail ∧ file' = before ++ (chr '#' :: text.val ++ after)
  | .trailingComment line blank text => ∃ before after, LineStart before ∧ LineEnd after ∧
      sectionAfter none (statements before) = some (cstring "general") ∧
      file = before ++ (line.original ++ after) ∧
      file' = before ++ (line.commented blank text ++ after)

/-- The edit changes no parameter and no limit, in no file that is accepted. -/
def Inert (edit : Edit) : Prop :=
  ∀ file file', edit.Applies file file' → settingsOpen file ≠ none →
    ∀ p fans, (∀ fan ∈ fans, fan.fanId < numFans) →
      retrieveSettings (some file') p fans = retrieveSettings (some file) p fans

/-- The second section takes the assignments that the first takes, and both or none of them
is general. -/
def SameSection (a b : Option CString) : Prop :=
  a = some [] ∨ ∃ name ≠ [], b = some name ∧ (name = cstring "general" ↔ a = some (cstring "general"))

/-- In section general the new statements may stand for the old ones: they are accepted, lead
to a section as good, and give every key the same number or none. -/
def Replaces (new old : List ConfLine) : Prop :=
  ∀ as, assignments (some (cstring "general")) old = some as →
    ∃ bs, assignments (some (cstring "general")) new = some bs ∧
      SameSection (sectionAfter (some (cstring "general")) old)
        (sectionAfter (some (cstring "general")) new) ∧
      ∀ key ∈ settingKeys, generalReading bs key = generalReading as key

def Edit.Harmless : Edit → Prop
  | .commentLine text => statements (chr '#' :: text.val) = []
  | .trailingComment line blank text =>
    Replaces (statements (line.commented blank text)) (statements line.original)

variable {lines old new : List ConfLine} {a b : Option CString} {as : List Assignment}
  {key : CString} {before after : List UInt8} {text : CommentText}

/-! ## What a list of statements gives -/

def givenBy (lines : List ConfLine) (key : CString) : CInt :=
  ((assignments none lines).bind fun as => generalReading as key).getD CInt.zero

/-- Under sections as good as each other the same lines give the same numbers. -/
theorem SameSection.assignments_eq (h : SameSection a b) (hAs : assignments a lines = some as) :
    ∃ bs, assignments b lines = some bs ∧ ∀ key, generalReading bs key = generalReading as key := by
  induction lines generalizing as with
  | nil =>
    cases hAs
    exact ⟨[], rfl, fun key => rfl⟩
  | cons line lines ih =>
    cases line with
    | empty => exact ih hAs
    | comment => exact ih hAs
    | header name => exact ⟨as, hAs, fun key => rfl⟩
    | malformed => cases hAs
    | assignment key value =>
      cases a with
      | none => cases hAs
      | some current =>
        rw [assignments] at hAs
        split_ifs at hAs with hEmpty
        obtain ⟨as', hRest, rfl⟩ := Option.map_eq_some_iff.mp hAs
        obtain ⟨bs', hBs, hReadings⟩ := ih hRest
        rcases h with hNil | ⟨name, hName, rfl, hGeneral⟩
        · exact absurd (Option.some_injective _ hNil) hEmpty
        · refine ⟨⟨name, key, value⟩ :: bs', by rw [assignments, if_neg hName, hBs]; rfl, ?_⟩
          intro key'
          have hSame : name = cstring "general" ↔ current = cstring "general" :=
            hGeneral.trans (Option.some_injective _).eq_iff
          simp only [generalReading_cons, hReadings, hSame]

theorem accepted_iff {file : List UInt8} :
    settingsOpen file ≠ none ↔ ∃ as, assignments none (statements file) = some as := by
  rw [settingsOpen_eq_statements, ne_eq, Option.map_eq_none_iff]
  exact Option.ne_none_iff_exists'

theorem inert_iff_givenBy {edit : Edit} :
    Inert edit ↔ ∀ file file', edit.Applies file file' →
      (∃ as, assignments none (statements file) = some as) →
      ∀ key ∈ settingKeys, givenBy (statements file') key = givenBy (statements file) key := by
  simp only [Inert, retrieveSettings_congr_iff, given_eq, accepted_iff, givenBy]

/-! ## Inserted lines -/

def keyLine (key : CString) (value : String) : List UInt8 := key ++ cstring (" = " ++ value ++ "\n")

def lowTemp : CString := cstring "low_temp"

theorem lowTemp_mem : lowTemp ∈ settingKeys := by simp [settingKeys, lowTemp]

/-- Inserted at the start of a line of any accepted file, the pieces do not change the
temperature. -/
def AddsNothing (pieces : List ConfLine) : Prop :=
  ∀ before after, LineStart before → LineEnd after →
    (∃ as, assignments none (statements before ++ statements after) = some as) →
    givenBy (statements before ++ (pieces ++ statements after)) lowTemp =
      givenBy (statements before ++ statements after) lowTemp

theorem addsNothing_of_inert (h : Inert (.commentLine text)) :
    AddsNothing (statements (chr '#' :: text.val)) := by
  intro before after hBefore hAfter hAccepted
  have hFile : statements (before ++ after.tail) = statements before ++ statements after := by
    rw [hBefore.statements_append, hAfter.statements_tail]
  have hFile' : statements (before ++ (chr '#' :: text.val ++ after)) =
      statements before ++ (statements (chr '#' :: text.val) ++ statements after) := by
    rw [hBefore.statements_append, hAfter.statements_append]
  rw [← hFile, ← hFile']
  rw [← hFile] at hAccepted
  exact inert_iff_givenBy.mp h _ _ ⟨before, after, hBefore, hAfter, rfl, rfl⟩ hAccepted lowTemp
    lowTemp_mem

theorem statements_general : statements (cstring "[general]\n") = [.header (cstring "general")] := by
  decide +kernel

theorem sectionAfter_general (lines : List ConfLine) :
    sectionAfter none (statements (cstring "[general]\n") ++ lines) =
      sectionAfter (some (cstring "general")) lines := by
  rw [statements_general]
  rfl

theorem assignments_general (lines : List ConfLine) :
    assignments none (statements (cstring "[general]\n") ++ lines) =
      assignments (some (cstring "general")) lines := by
  rw [statements_general]
  rfl

theorem statements_lowTemp : statements (chr '\n' :: keyLine lowTemp "55") =
      [.assignment lowTemp (cstring "55")] ∧
    statements (chr '\n' :: keyLine lowTemp "56") = [.assignment lowTemp (cstring "56")] := by
  decide +kernel

theorem statements_general_lowTemp : statements (cstring "\n[general]\n" ++ keyLine lowTemp "55") =
    [.header (cstring "general"), .assignment lowTemp (cstring "55")] := by
  decide +kernel

theorem readings_ne : reading (cstring "55") ≠ CInt.zero ∧
    reading (cstring "55") ≠ reading (cstring "56") := by
  decide +kernel

theorem givenBy_of_general {key value : CString}
    (hSection : sectionAfter none lines = some (cstring "general"))
    (hAs : assignments none lines = some as) :
    givenBy (lines ++ [.assignment key value]) key = reading value := by
  have hAppend : assignments none (lines ++ [.assignment key value]) =
      some (as ++ [⟨cstring "general", key, value⟩]) := by
    rw [assignments_append, hAs, hSection]
    rfl
  rw [givenBy, hAppend, Option.bind_some, generalReading_append, generalReading_cons]
  simp [generalReading, lastAssigned]

theorem givenBy_general (key value : CString) :
    givenBy (statements (cstring "[general]\n") ++ [.assignment key value]) key = reading value := by
  have hSection := sectionAfter_general []
  have hAs := assignments_general []
  rw [List.append_nil] at hSection hAs
  exact givenBy_of_general hSection hAs

theorem givenBy_of_ne_general {key key' : CString}
    (hSection : sectionAfter none lines ≠ some (cstring "general")) (value value' : CString) :
    givenBy (lines ++ [.assignment key value]) key' =
      givenBy (lines ++ [.assignment key value']) key' := by
  rw [givenBy, givenBy, assignments_append, assignments_append]
  cases assignments none lines with
  | none => rfl
  | some as =>
    cases hName : sectionAfter none lines with
    | none => rfl
    | some name =>
      have hOther : name ≠ cstring "general" := fun hEq => hSection (hEq ▸ hName)
      by_cases hEmpty : name = []
      · simp [assignments, hEmpty]
      · simp [assignments, hEmpty, generalReading_append, generalReading_cons, hOther]

theorem lineStart_general : LineStart (cstring "[general]\n") := .inr ⟨cstring "[general]", rfl⟩

def elsewhere : List UInt8 := cstring "[general]\n" ++ keyLine lowTemp "55" ++ cstring "[x]\n"

theorem lineStart_elsewhere : LineStart elsewhere :=
  .inr ⟨cstring "[general]\n" ++ keyLine lowTemp "55" ++ cstring "[x]", by decide +kernel⟩

theorem statements_elsewhere : statements elsewhere =
    [.header (cstring "general"), .assignment lowTemp (cstring "55"), .header (cstring "x")] := by
  decide +kernel

theorem AddsNothing.accepted {pieces : List ConfLine} (h : AddsNothing pieces) :
    ∃ as, assignments none pieces = some as := by
  refine Option.ne_none_iff_exists'.mp fun hNone => ?_
  have hSame := h [] (cstring "\n[general]\n" ++ keyLine lowTemp "55") (.inl rfl) (.inr ⟨_, rfl⟩)
    (by rw [statements_general_lowTemp]; exact ⟨_, rfl⟩)
  rw [statements_general_lowTemp, statements_nil, List.nil_append, List.nil_append, givenBy,
    assignments_append, hNone] at hSame
  exact readings_ne.1 (Eq.symm (hSame.trans (by decide +kernel)))

/-- Behind section general, two assignments with different values are lost. -/
theorem AddsNothing.general {name : CString} {pieces : List ConfLine}
    (h : AddsNothing (.header name :: pieces)) :
    sectionAfter (some name) pieces = some (cstring "general") := by
  by_contra hOther
  have hSection : sectionAfter none (statements (cstring "[general]\n") ++ .header name :: pieces) ≠
      some (cstring "general") := by
    rw [sectionAfter_append]
    exact hOther
  have hFirst := h (cstring "[general]\n") (chr '\n' :: keyLine lowTemp "55") lineStart_general
    (.inr ⟨_, rfl⟩) (by rw [statements_lowTemp.1, assignments_general]; exact ⟨_, rfl⟩)
  have hSecond := h (cstring "[general]\n") (chr '\n' :: keyLine lowTemp "56") lineStart_general
    (.inr ⟨_, rfl⟩) (by rw [statements_lowTemp.2, assignments_general]; exact ⟨_, rfl⟩)
  rw [statements_lowTemp.1, ← List.append_assoc, givenBy_general] at hFirst
  rw [statements_lowTemp.2, ← List.append_assoc, givenBy_of_ne_general hSection _ (cstring "55"),
    hFirst, givenBy_general] at hSecond
  exact readings_ne.2 hSecond

/-- Behind section x, an assignment becomes one of general. -/
theorem AddsNothing.not_general {name : CString} {pieces : List ConfLine}
    (h : AddsNothing (.header name :: pieces)) :
    sectionAfter (some name) pieces ≠ some (cstring "general") := by
  intro hGeneral
  obtain ⟨as, hAs⟩ := h.accepted
  have hSection : sectionAfter none (statements elsewhere ++ .header name :: pieces) =
      some (cstring "general") := by
    rw [sectionAfter_append]
    exact hGeneral
  have hBefore : assignments none (statements elsewhere) =
      some [⟨cstring "general", lowTemp, cstring "55"⟩] := by rw [statements_elsewhere]; rfl
  have hPieces : assignments (sectionAfter none (statements elsewhere)) (.header name :: pieces) =
      some as := hAs.symm ▸ rfl
  have hAll := assignments_append_eq_some.mpr ⟨_, _, hBefore, hPieces, rfl⟩
  have hSame := h elsewhere (chr '\n' :: keyLine lowTemp "56") lineStart_elsewhere
    (.inr ⟨_, rfl⟩) (by rw [statements_elsewhere, statements_lowTemp.2]; exact ⟨_, rfl⟩)
  rw [statements_lowTemp.2, ← List.append_assoc, givenBy_of_general hSection hAll,
    statements_elsewhere] at hSame
  exact readings_ne.2 (Eq.symm (hSame.trans (by decide +kernel)))

/-- Pieces without a header are refused in front of the first section, and with one they lead
to some section, which must be both general and not. -/
theorem AddsNothing.eq_nil {pieces : List ConfLine} (h : AddsNothing pieces)
    (hKind : ∀ line ∈ pieces, line.isStatement = true) : pieces = [] := by
  cases pieces with
  | nil => rfl
  | cons line pieces =>
    obtain ⟨as, hAs⟩ := h.accepted
    cases line with
    | empty => exact absurd (hKind _ List.mem_cons_self) (by decide)
    | comment => exact absurd (hKind _ List.mem_cons_self) (by decide)
    | header name => exact absurd h.general h.not_general
    | assignment key value => cases hAs
    | malformed => cases hAs

theorem inert_line_of_harmless (h : (Edit.commentLine text).Harmless) :
    Inert (.commentLine text) := by
  refine inert_iff_givenBy.mpr fun file file' hApplies _ key _ => ?_
  obtain ⟨before, after, hBefore, hAfter, rfl, rfl⟩ := hApplies
  have hNothing : statements (chr '#' :: text.val) = [] := h
  rw [hBefore.statements_append, hBefore.statements_append, hAfter.statements_append, hNothing,
    hAfter.statements_tail, List.nil_append]

theorem harmless_of_inert_line (h : Inert (.commentLine text)) :
    (Edit.commentLine text).Harmless :=
  (addsNothing_of_inert h).eq_nil fun _ hLine => (List.mem_filter.mp hLine).2

/-! ## Trailing comments -/

theorem Replaces.givenBy_eq (h : Replaces new old) {xs ys : List ConfLine}
    (hSection : sectionAfter none xs = some (cstring "general"))
    (hAs : assignments none (xs ++ (old ++ ys)) = some as) :
    ∀ key ∈ settingKeys, givenBy (xs ++ (new ++ ys)) key = givenBy (xs ++ (old ++ ys)) key := by
  intro key hKey
  obtain ⟨first, rest, hFirst, hRest, rfl⟩ := assignments_append_eq_some.mp hAs
  obtain ⟨olds, last, hOld, hLast, rfl⟩ := assignments_append_eq_some.mp (hSection ▸ hRest)
  obtain ⟨news, hNew, hSame, hReadings⟩ := h olds hOld
  obtain ⟨last', hLast', hEqual⟩ := hSame.assignments_eq hLast
  have hAs' : assignments none (xs ++ (new ++ ys)) = some (first ++ (news ++ last')) := by
    refine assignments_append_eq_some.mpr ⟨_, _, hFirst, ?_, rfl⟩
    rw [hSection]
    exact assignments_append_eq_some.mpr ⟨_, _, hNew, hLast', rfl⟩
  simp only [givenBy, hAs, hAs', Option.bind_some, generalReading_append, hReadings key hKey, hEqual]

theorem inert_trailing_of_harmless {line : NumberLine} {blank : Blank}
    (h : (Edit.trailingComment line blank text).Harmless) :
    Inert (.trailingComment line blank text) := by
  refine inert_iff_givenBy.mpr fun file file' hApplies hAccepted => ?_
  obtain ⟨before, after, hBefore, hAfter, hSection, rfl, rfl⟩ := hApplies
  rw [hBefore.statements_append, hAfter.statements_append] at hAccepted ⊢
  rw [hBefore.statements_append, hAfter.statements_append]
  obtain ⟨as, hAs⟩ := hAccepted
  exact Replaces.givenBy_eq h hSection hAs

theorem accepted_of_givenBy (h : givenBy lines key ≠ CInt.zero) :
    ∃ as, assignments none lines = some as := by
  cases hAs : assignments none lines with
  | none => exact absurd (by rw [givenBy, hAs]; rfl) h
  | some as => exact ⟨as, rfl⟩

theorem givenBy_reopened {value : CString} (hAs : assignments none lines = some as) :
    givenBy (lines ++ [.header (cstring "general"), .assignment key value]) key = reading value := by
  have hSection : sectionAfter none (lines ++ [.header (cstring "general")]) =
      some (cstring "general") := sectionAfter_append none lines _
  have hAll := assignments_append_eq_some.mpr
    ⟨_, _, hAs, (rfl : assignments _ [.header (cstring "general")] = some []), rfl⟩
  rw [← givenBy_of_general hSection hAll, List.append_assoc]
  rfl

theorem sectionAfter_some (name : CString) (lines : List ConfLine) :
    ∃ name', sectionAfter (some name) lines = some name' := by
  induction lines generalizing name with
  | nil => exact ⟨name, rfl⟩
  | cons line lines ih =>
    cases line with
    | header name' => exact ih name'
    | empty | comment | assignment | malformed => exact ih name

theorem getD_injective {α : Type} {x y : Option α} {a b : α} (hNe : a ≠ b)
    (ha : x.getD a = y.getD a) (hb : x.getD b = y.getD b) : x = y := by
  cases x with
  | none =>
    cases y with
    | none => rfl
    | some d => exact absurd (ha.trans hb.symm) hNe
  | some c =>
    cases y with
    | none => exact absurd (ha.symm.trans hb) hNe
    | some d => exact congrArg some ha

theorem keyLine_general : ∀ key ∈ settingKeys,
    statements (cstring "[general]\n" ++ keyLine key "55") =
        [.header (cstring "general"), .assignment key (cstring "55")] ∧
      statements (cstring "[general]\n" ++ keyLine key "56") =
        [.header (cstring "general"), .assignment key (cstring "56")] := by
  decide +kernel

theorem assignments_key (key value : CString)
    (hAs : assignments (some (cstring "general")) lines = some as) :
    assignments none ([.header (cstring "general"), .assignment key value] ++ lines) =
      some ([⟨cstring "general", key, value⟩] ++ as) :=
  assignments_append_eq_some.mpr ⟨_, _, rfl, hAs, rfl⟩

theorem givenBy_key (key value : CString)
    (hAs : assignments (some (cstring "general")) lines = some as) :
    givenBy ([.header (cstring "general"), .assignment key value] ++ lines) key =
      (generalReading as key).getD (reading value) := by
  rw [givenBy, assignments_key key value hAs, Option.bind_some, generalReading_append,
    generalReading_cons, if_pos ⟨rfl, rfl⟩]
  exact Option.getD_or

def ReplacesInContext (new old : List ConfLine) : Prop :=
  ∀ before after, LineStart before → LineEnd after →
    sectionAfter none (statements before) = some (cstring "general") →
    (∃ as, assignments none (statements before ++ (old ++ statements after)) = some as) →
    ∀ key ∈ settingKeys, givenBy (statements before ++ (new ++ statements after)) key =
      givenBy (statements before ++ (old ++ statements after)) key

def reopened : List ConfLine := [.header (cstring "general"), .assignment lowTemp (cstring "55")]

theorem statements_lowTemp_general : statements (chr '\n' ::
    (keyLine lowTemp "56" ++ (cstring "[general]\n" ++ keyLine lowTemp "55"))) =
      [.assignment lowTemp (cstring "56")] ++ reopened := by
  decide +kernel

theorem ReplacesInContext.accepted (h : ReplacesInContext new old) {cs : List Assignment}
    (hAs : assignments (some (cstring "general")) old = some as)
    (hLines : assignments (sectionAfter (some (cstring "general")) old) lines = some cs)
    (hAfter : LineEnd after) (hStatements : statements after = lines ++ reopened) :
    ∃ bs ds, assignments (some (cstring "general")) new = some bs ∧
      assignments (sectionAfter (some (cstring "general")) new) lines = some ds := by
  have hOld : assignments none (statements (cstring "[general]\n") ++ (old ++ lines)) =
      some (as ++ cs) := by
    rw [assignments_general]
    exact assignments_append_eq_some.mpr ⟨_, _, hAs, hLines, rfl⟩
  have hAll := assignments_append_eq_some.mpr
    ⟨_, _, hOld, (rfl : assignments _ reopened = some _), rfl⟩
  have hReopened : givenBy (statements (cstring "[general]\n") ++ (old ++ lines) ++ reopened)
      lowTemp = reading (cstring "55") := givenBy_reopened hOld
  rw [List.append_assoc, List.append_assoc, ← hStatements] at hAll hReopened
  have hSame := h (cstring "[general]\n") after lineStart_general hAfter
    (by rw [statements_general]; rfl) ⟨_, hAll⟩ lowTemp lowTemp_mem
  rw [hReopened] at hSame
  obtain ⟨all, hNew⟩ := accepted_of_givenBy (hSame.trans_ne readings_ne.1)
  rw [assignments_general, hStatements] at hNew
  obtain ⟨bs, rest, hBs, hRest, -⟩ := assignments_append_eq_some.mp hNew
  obtain ⟨ds, -, hDs, -⟩ := assignments_append_eq_some.mp hRest
  exact ⟨bs, ds, hBs, hDs⟩

theorem general_of_givenBy_eq {xs ys : List ConfLine} (hAs : assignments none xs = some as)
    (hGeneral : sectionAfter none xs = some (cstring "general"))
    (hFirst : givenBy (xs ++ [.assignment lowTemp (cstring "55")]) lowTemp =
      givenBy (ys ++ [.assignment lowTemp (cstring "55")]) lowTemp)
    (hSecond : givenBy (xs ++ [.assignment lowTemp (cstring "56")]) lowTemp =
      givenBy (ys ++ [.assignment lowTemp (cstring "56")]) lowTemp) :
    sectionAfter none ys = some (cstring "general") := by
  by_contra hOther
  rw [givenBy_of_general hGeneral hAs] at hFirst hSecond
  rw [givenBy_of_ne_general hOther _ (cstring "56"), ← hSecond] at hFirst
  exact readings_ne.2 hFirst

theorem ReplacesInContext.low (h : ReplacesInContext new old) {value : String}
    {cs : List Assignment} (hAs : assignments (some (cstring "general")) old = some as)
    (hTaken : assignments (sectionAfter (some (cstring "general")) old)
      [.assignment lowTemp (cstring value)] = some cs)
    (hLine : statements (chr '\n' :: keyLine lowTemp value) =
      [.assignment lowTemp (cstring value)]) :
    givenBy (statements (cstring "[general]\n") ++ new ++ [.assignment lowTemp (cstring value)])
        lowTemp =
      givenBy (statements (cstring "[general]\n") ++ old ++ [.assignment lowTemp (cstring value)])
        lowTemp := by
  rw [List.append_assoc, List.append_assoc, ← hLine]
  refine h _ _ lineStart_general (.inr ⟨_, rfl⟩) (by rw [statements_general]; rfl) ⟨as ++ cs, ?_⟩
    lowTemp lowTemp_mem
  rw [assignments_general, hLine]
  exact assignments_append_eq_some.mpr ⟨_, _, hAs, hTaken, rfl⟩

/-- The section after the new statements takes what the section after the old ones takes, and
one of them is general when the other is. -/
theorem ReplacesInContext.sameSection (h : ReplacesInContext new old) {bs : List Assignment}
    (hAs : assignments (some (cstring "general")) old = some as)
    (hBs : assignments (some (cstring "general")) new = some bs) :
    SameSection (sectionAfter (some (cstring "general")) old)
      (sectionAfter (some (cstring "general")) new) := by
  obtain ⟨name, hName⟩ := sectionAfter_some (cstring "general") old
  obtain ⟨name', hName'⟩ := sectionAfter_some (cstring "general") new
  by_cases hEmpty : name = []
  · exact .inl (hEmpty ▸ hName)
  have hTaken (value : CString) : assignments (sectionAfter (some (cstring "general")) old)
      [.assignment lowTemp value] = some [⟨name, lowTemp, value⟩] := by
    rw [hName, assignments, if_neg hEmpty]
    rfl
  have hTaken' : name' ≠ [] := by
    -- Under an empty header an assignment would make the file refused.
    rintro rfl
    obtain ⟨-, ds, -, hDs⟩ := h.accepted hAs (hTaken (cstring "56")) (.inr ⟨_, rfl⟩)
      statements_lowTemp_general
    rw [hName'] at hDs
    cases hDs
  have hFirst := h.low hAs (hTaken (cstring "55")) statements_lowTemp.1
  have hSecond := h.low hAs (hTaken (cstring "56")) statements_lowTemp.2
  rw [← assignments_general] at hAs hBs
  rw [← sectionAfter_general] at hName' ⊢
  refine .inr ⟨name', hTaken', hName', ?_⟩
  constructor
  · rintro rfl
    exact general_of_givenBy_eq hBs hName' hFirst hSecond
  · intro hGeneral
    have hGeneral' := general_of_givenBy_eq hAs hGeneral hFirst.symm hSecond.symm
    exact Option.some_injective _ (hName'.symm.trans hGeneral')

theorem lineStart_keyLine (key : CString) (value : String) :
    LineStart (cstring "[general]\n" ++ keyLine key value) :=
  .inr ⟨cstring "[general]\n" ++ (key ++ cstring (" = " ++ value)), by simp [keyLine, cstring]⟩

theorem ReplacesInContext.replaces (h : ReplacesInContext new old) : Replaces new old := by
  intro as hAs
  obtain ⟨bs, -, hBs, -⟩ := h.accepted hAs (rfl : assignments _ [] = some [])
    (.inr ⟨_, rfl⟩) statements_general_lowTemp
  refine ⟨bs, hBs, h.sameSection hAs hBs, fun key hKey => ?_⟩
  -- A value in front of the line shows through where the line does not set the key.
  have hContext (value : String) (hLine : statements (cstring "[general]\n" ++ keyLine key value) =
      [.header (cstring "general"), .assignment key (cstring value)]) :
      (generalReading bs key).getD (reading (cstring value)) =
        (generalReading as key).getD (reading (cstring value)) := by
    have hSame := h _ [] (lineStart_keyLine key value) (.inl rfl) (by rw [hLine]; rfl)
      ⟨_, by rw [hLine, statements_nil, List.append_nil, assignments_key key _ hAs]⟩ key hKey
    rwa [hLine, statements_nil, List.append_nil, List.append_nil, givenBy_key key _ hBs,
      givenBy_key key _ hAs] at hSame
  obtain ⟨hFirst, hSecond⟩ := keyLine_general key hKey
  exact getD_injective readings_ne.2 (hContext "55" hFirst) (hContext "56" hSecond)

theorem harmless_of_inert_trailing {line : NumberLine} {blank : Blank}
    (h : Inert (.trailingComment line blank text)) :
    (Edit.trailingComment line blank text).Harmless := by
  apply ReplacesInContext.replaces
  intro before after hBefore hAfter hSection hAccepted
  have hFile (piece : List UInt8) : statements (before ++ (piece ++ after)) =
      statements before ++ (statements piece ++ statements after) := by
    rw [hBefore.statements_append, hAfter.statements_append]
  rw [← hFile, ← hFile]
  rw [← hFile] at hAccepted
  exact inert_iff_givenBy.mp h _ _ ⟨before, after, hBefore, hAfter, hSection, rfl, rfl⟩ hAccepted

/-- A comment changes nothing in any file exactly when what is left of it beyond the line
buffer, and beyond the value buffer, comes to nothing. -/
theorem inert_iff (edit : Edit) : Inert edit ↔ edit.Harmless := by
  cases edit with
  | commentLine text => exact ⟨harmless_of_inert_line, inert_line_of_harmless⟩
  | trailingComment line blank text =>
    exact ⟨harmless_of_inert_trailing, inert_trailing_of_harmless⟩

/-- A comment with a setting behind the end of the line buffer. -/
def longText : CommentText :=
  ⟨List.replicate 520 (chr 'x') ++ cstring "low_temp = 40", by decide +kernel⟩

def lowLine : NumberLine where
  front := cstring "low_temp = 55"
  rest := []
  assigns := ⟨cstring "low_temp", cstring "55", by decide +kernel, [], cstring "55", by simp,
    by simp, by decide +kernel, by decide +kernel⟩
  ends := by simp [EndsDigits]
  noNul := by decide +kernel
  oneLine := by decide +kernel

def wideText : CommentText := ⟨List.replicate 260 (chr 'x'), by decide +kernel⟩

def lowFile : List UInt8 := cstring "[general]\nlow_temp = 55\n"

/-- A long comment sets the temperature to 40, and one that is shorter takes it away. -/
theorem long_comments_not_inert :
    ¬ Inert (.commentLine longText) ∧ ¬ Inert (.trailingComment lowLine ⟨chr ' ', .inl rfl⟩ wideText) := by
  have hAccepted : settingsOpen lowFile ≠ none := by
    rw [accepted_iff]
    exact Option.isSome_iff_exists.mp (by decide +kernel)
  constructor
  · intro hInert
    have hApplies : (Edit.commentLine longText).Applies lowFile
        (lowFile ++ (chr '#' :: longText.val ++ [])) :=
      ⟨lowFile, [], .inr ⟨cstring "[general]\nlow_temp = 55", by decide +kernel⟩, .inl rfl, by simp, rfl⟩
    have hSame := hInert _ _ hApplies hAccepted defaultParams [] (by simp)
    have hLow := congrArg (fun result => result.1.lowTemp) hSame
    revert hLow
    decide +kernel
  · intro hInert
    have hApplies : (Edit.trailingComment lowLine ⟨chr ' ', .inl rfl⟩ wideText).Applies lowFile
        (cstring "[general]\n" ++ (lowLine.commented ⟨chr ' ', .inl rfl⟩ wideText ++ [chr '\n'])) := by
      refine ⟨cstring "[general]\n", [chr '\n'], lineStart_general, .inr ⟨[], rfl⟩, ?_, ?_, rfl⟩
      · rw [statements_general]
        rfl
      · decide +kernel
    have hSame := hInert _ _ hApplies hAccepted defaultParams [] (by simp)
    have hLow := congrArg (fun result => result.1.lowTemp) hSame
    revert hLow
    decide +kernel

end Mbpfan
