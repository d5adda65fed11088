import Mbpfan.Comments
import Mbpfan.Library.Trim

/-!
# Comments that fit

A comment line that fits the line buffer is inert, and so is a comment behind a number when
the line with it fits the value buffer. The text of a comment may still close a bracket that
the line begins with: then the line becomes a header.
-/

namespace Mbpfan

open Library

/-- The line of the comment fits a buffer, and a trailing comment closes no bracket. -/
def Edit.Short : Edit → Prop
  | .commentLine text => text.val.length + 1 < maxLineChars
  | .trailingComment line blank text =>
    (line.commented blank text).length < maxValueChars ∧
      (trimStr line.front).head? ≠ some (chr '[')

variable {xs ys front tail digits : List UInt8} {key value value' number : CString}
  {text : CommentText}

/-! ## Trimming a line with more behind it -/

theorem dropBlanksRight_cons {c : UInt8} (hBlank : isBlankChar c = false) (rest : CString) :
    dropBlanksRight (c :: rest) = c :: dropBlanksRight rest := by
  have hSingle : dropBlanksRight [c] = [c] := by simp [dropBlanksRight, hBlank]
  exact rdropWhile_append_of_eq hSingle rest

theorem trimStr_cons {c : UInt8} (hBlank : isBlankChar c = false) (rest : CString) :
    trimStr (c :: rest) = c :: dropBlanksRight rest := by
  have hKept : ¬ isBlankChar c = true := by simp [hBlank]
  rw [trimStr, List.dropWhile_cons_of_neg hKept, dropBlanksRight_cons hBlank]

theorem EndsDigits.mono (h : EndsDigits ys) (hPrefix : xs <+: ys) : EndsDigits xs := by
  intro c hHead
  obtain ⟨rest, rfl⟩ := hPrefix
  cases xs with
  | nil => cases hHead
  | cons d xs => exact h c hHead

theorem isDigit_of_isBlankChar {c : UInt8} (hBlank : isBlankChar c = true) : isDigit c = false := by
  rcases of_decide_eq_true hBlank with rfl | rfl | rfl | rfl <;> decide

theorem EndsDigits.append_blanks (h : EndsDigits ys) (hBlanks : ∀ c ∈ xs, isBlankChar c = true) :
    EndsDigits (xs ++ ys) := by
  cases xs with
  | nil => exact h
  | cons d xs =>
    rintro c ⟨⟩
    exact isDigit_of_isBlankChar (hBlanks d List.mem_cons_self)

/-- Behind a text that is not blank nothing is lost but blanks at the end. -/
theorem trimStr_append (hText : trimStr front ≠ []) (hTail : EndsDigits tail) :
    ∃ rest, trimStr (front ++ tail) = trimStr front ++ rest ∧ EndsDigits rest := by
  have hBare : ¬ (front.dropWhile isBlankChar).isEmpty = true := by
    intro hEmpty
    apply hText
    rw [trimStr, List.isEmpty_iff.mp hEmpty]
    rfl
  have hSplit := List.rdropWhile_append_rtakeWhile (p := isBlankChar)
    (l := front.dropWhile isBlankChar)
  have hBlanks : ∀ c ∈ (front.dropWhile isBlankChar).rtakeWhile isBlankChar,
      isBlankChar c = true := fun c hMem => List.mem_rtakeWhile_imp hMem
  refine ⟨dropBlanksRight ((front.dropWhile isBlankChar).rtakeWhile isBlankChar ++ tail), ?_, ?_⟩
  · rw [trimStr, List.dropWhile_append, if_neg hBare]
    nth_rewrite 1 [← hSplit]
    rw [List.append_assoc]
    exact rdropWhile_append_of_eq (dropBlanksRight_trimStr front) _
  · exact (hTail.append_blanks hBlanks).mono (List.rdropWhile_prefix _ _)

/-- What follows the number goes into the value, and the key stays. -/
theorem classify_append (hFront : classify front = .assignment key number) (hNumber : number ≠ [])
    (hBracket : (trimStr front).head? ≠ some (chr '[')) (hTail : EndsDigits tail) :
    ∃ rest, classify (front ++ tail) = .assignment key (number ++ rest) ∧ EndsDigits rest := by
  rw [classify] at hFront
  cases hText : trimStr front with
  | nil =>
    rw [hText] at hFront
    cases hFront
  | cons c r =>
    obtain ⟨rest, hTrimmed, hRest⟩ := trimStr_append (by rw [hText]; exact List.cons_ne_nil c r) hTail
    have hNoBracket : c ≠ chr '[' := by
      rw [hText] at hBracket
      exact fun hEq => hBracket (congrArg some hEq)
    rw [hText] at hFront hTrimmed
    dsimp only at hFront
    split_ifs at hFront with hComment hSection hEquals
    have hParts := ConfLine.assignment.inj hFront
    have hFound : (c :: r).dropWhile (· ≠ chr '=') ≠ [] := by
      intro hNothing
      rw [hNothing] at hParts
      exact hNumber hParts.2.symm
    refine ⟨rest, ?_, hRest⟩
    rw [classify, hTrimmed, List.cons_append]
    dsimp only
    rw [if_neg hComment, if_neg fun hHeader => hNoBracket hHeader.1, if_neg hEquals,
      ← List.cons_append, takeWhile_append_of_dropWhile hFound, dropWhile_append_of_ne_nil hFound,
      List.tail_append_of_ne_nil hFound, dropWhile_append_of_ne_nil (by rwa [hParts.2]), hParts.1,
      hParts.2]

theorem value_length_le (h : classify xs = .assignment key value) : value.length ≤ xs.length := by
  have hTrimmed := trimStr_length_le xs
  rw [classify] at h
  cases hText : trimStr xs with
  | nil =>
    rw [hText] at h
    cases h
  | cons c r =>
    rw [hText] at h hTrimmed
    dsimp only at h
    split_ifs at h
    have hValue := (ConfLine.assignment.inj h).2
    have hTail : ((c :: r).dropWhile (· ≠ chr '=')).tail.Sublist (c :: r) :=
      (List.tail_sublist _).trans (List.dropWhile_sublist _)
    rw [← hValue]
    exact ((List.dropWhile_sublist _).trans hTail).length_le.trans hTrimmed

/-! ## Numbers with more behind them -/

theorem digitsValue_append (hDigits : ∀ c ∈ digits, isDigit c = true) (hTail : EndsDigits tail) :
    digitsValue (digits ++ tail) = digitsValue digits := by
  rw [digitsValue, digitsValue, takeWhile_digits hDigits hTail,
    List.takeWhile_eq_self_iff.mpr hDigits]

theorem strtol_cons {c : UInt8} (hSpace : ¬ isSpace c = true) (s : CString) :
    strtol (c :: s) =
      if c = chr '-' then max (-9223372036854775808) (-digitsValue s)
      else if c = chr '+' then min 9223372036854775807 (digitsValue s)
      else min 9223372036854775807 (digitsValue (c :: s)) := by
  rw [strtol, List.dropWhile_cons_of_neg hSpace]

theorem IsNumber.atoi_append (h : IsNumber number) (hTail : EndsDigits tail) :
    atoi (number ++ tail) = atoi number := by
  obtain ⟨sign, digits, rfl, hSign, hNonempty, hDigits⟩ := h
  have hValue := digitsValue_append hDigits hTail
  suffices hStrtol : strtol (sign ++ digits ++ tail) = strtol (sign ++ digits) by
    rw [atoi, atoi, hStrtol]
  rw [List.append_assoc]
  simp only [List.mem_cons, List.not_mem_nil, or_false] at hSign
  rcases hSign with rfl | rfl | rfl
  · cases digits with
    | nil => exact absurd rfl hNonempty
    | cons d digits =>
      have hDigit := isDigit_bounds (hDigits d List.mem_cons_self)
      have hSpace : ¬ isSpace d = true := fun h => absurd (isSpace_bounds h) (by omega)
      have hSign : d ≠ chr '-' ∧ d ≠ chr '+' := by
        constructor <;> rintro rfl <;> exact absurd hDigit (by decide)
      rw [List.nil_append, List.nil_append, List.cons_append, strtol_cons hSpace,
        strtol_cons hSpace, if_neg hSign.1, if_neg hSign.2, if_neg hSign.1, if_neg hSign.2,
        ← List.cons_append, hValue]
  · rw [List.singleton_append, List.singleton_append, strtol_cons (by decide),
      strtol_cons (by decide), if_pos rfl, if_pos rfl, hValue]
  · rw [List.singleton_append, List.singleton_append, strtol_cons (by decide),
      strtol_cons (by decide), if_neg (by decide), if_pos rfl, if_neg (by decide), if_pos rfl, hValue]

/-! ## Comments -/

theorem Replaces.of_reading (h : reading value' = reading value) :
    Replaces [.assignment key value'] [.assignment key value] := by
  have hLine (v : CString) : assignments (some (cstring "general")) [.assignment key v] =
      some [⟨cstring "general", key, v⟩] := rfl
  intro as hAs
  rw [hLine] at hAs
  cases hAs
  refine ⟨_, hLine value', .inr ⟨cstring "general", by decide, rfl, iff_of_true rfl rfl⟩, ?_⟩
  intro k _
  rw [generalReading_cons, generalReading_cons, h]

theorem statements_number (hNoNul : 0 ∉ front) (hFront : classify front = .assignment key number)
    (hNumber : IsNumber number) (hBracket : (trimStr front).head? ≠ some (chr '['))
    (hTail : EndsDigits tail) (hLine : chr '\n' ∉ front ++ tail)
    (hLength : (front ++ tail).length < maxValueChars) :
    ∃ value, statements (front ++ tail) = [.assignment key value] ∧ reading value = atoi number := by
  have hNonempty : number ≠ [] := by
    obtain ⟨sign, digits, rfl, -, hDigits, -⟩ := hNumber
    exact List.append_ne_nil_of_right_ne_nil sign hDigits
  have hPrefix : front ++ upToNul tail <+: front ++ tail :=
    (List.prefix_append_right_inj front).mpr (List.takeWhile_prefix _)
  have hCut : EndsDigits (upToNul tail) := hTail.mono (List.takeWhile_prefix _)
  obtain ⟨rest, hClassify, hRest⟩ := classify_append hFront hNonempty hBracket hCut
  have hShort : (number ++ rest).length < maxValueChars :=
    ((value_length_le hClassify).trans hPrefix.length_le).trans_lt hLength
  have hFits : maxValueChars < maxLineChars := by decide
  refine ⟨number ++ rest, ?_, ?_⟩
  · rw [statements_short hLine (hLength.trans hFits), upToNul_append hNoNul, hClassify]
    rfl
  · rw [reading, if_pos hShort, hNumber.atoi_append hRest]

theorem classify_comment (r : CString) : classify (chr '#' :: r) = .comment := by
  rw [classify, trimStr_cons (by decide)]
  rfl

/-- What fits leaves the settings alone. -/
theorem inert_of_short {edit : Edit} (h : edit.Short) : Inert edit := by
  cases edit with
  | commentLine text =>
    apply inert_line_of_harmless
    have hLine : chr '\n' ∉ chr '#' :: text.val := by
      rw [List.mem_cons, not_or]
      exact ⟨by decide, text.2.1⟩
    have hText : upToNul (chr '#' :: text.val) = chr '#' :: upToNul text.val :=
      List.takeWhile_cons_of_pos (by decide)
    rw [Edit.Harmless, statements_short hLine h, hText, classify_comment]
    rfl
  | trailingComment line blank text =>
    apply inert_trailing_of_harmless
    obtain ⟨hLength, hBracket⟩ := h
    obtain ⟨key, number, hFront, hNumber⟩ := line.assigns
    have hBlank : EndsDigits (blank.val :: chr '#' :: text.val ++ line.rest) := by
      rintro c ⟨⟩
      rcases blank.2 with hEq | hEq <;> rw [hEq] <;> decide
    have hNewline : chr '\n' ∉ line.front ++ (blank.val :: chr '#' :: text.val ++ line.rest) := by
      have hBlankLine : chr '\n' ≠ blank.val := by
        rcases blank.2 with hEq | hEq <;> rw [hEq] <;> decide
      have hMark : chr '\n' ≠ chr '#' := by decide
      have hOther := line.oneLine
      simp only [List.mem_append, List.mem_cons, not_or] at hOther ⊢
      exact ⟨hOther.1, ⟨hBlankLine, hMark, text.2.1⟩, hOther.2⟩
    rw [NumberLine.commented, List.append_assoc] at hLength
    have hOriginal : (line.front ++ line.rest).length < maxValueChars := by
      simp only [List.length_append, List.length_cons] at hLength ⊢
      omega
    obtain ⟨value, hOld, hReading⟩ := statements_number line.noNul hFront hNumber hBracket
      line.ends line.oneLine hOriginal
    obtain ⟨value', hNew, hReading'⟩ := statements_number line.noNul hFront hNumber hBracket
      hBlank hNewline hLength
    rw [Edit.Harmless, NumberLine.commented, NumberLine.original, List.append_assoc, hOld, hNew]
    exact Replaces.of_reading (hReading'.trans hReading.symm)

def shortText : CommentText := ⟨cstring " keep this low", by decide +kernel⟩

theorem inert_of_short_sample :
    Inert (.commentLine shortText) ∧
      Inert (.trailingComment lowLine ⟨chr ' ', .inl rfl⟩ shortText) :=
  ⟨inert_of_short (by decide +kernel : shortText.val.length + 1 < maxLineChars),
    inert_of_short ⟨by decide +kernel, by decide +kernel⟩⟩

end Mbpfan
