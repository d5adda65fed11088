import Mbpfan.SettingsStore
import Mbpfan.Printed

/-!
# Tuples of numbers

The rest of the conversions of `settings.c`. A tuple is a value cut at its commas, a comma at
the end not opening another piece. The ints of a tuple that was set are read back, as far as
the caller's array reaches, and the rest of the array is left alone.
-/

namespace Mbpfan

open Library

/-- `get_token`: the token, and what follows the delimiter behind it. -/
def getToken (str : CString) (delim : UInt8) : Option (CString × CString) :=
  match str with
  | [] => none
  | _ :: _ => some (str.takeWhile (· ≠ delim), (str.dropWhile (· ≠ delim)).tail)

section

variable {α : Type}

/-- The loop of `get_converted_tuple`, with room for so many more entries. -/
def convertTokens (convert : CString → α) (delim : UInt8) : ℕ → CString → List α
  | 0, _ => []
  | room + 1, v =>
    match getToken v delim with
    | none => []
    | some (token, rest) => convert token :: convertTokens convert delim room rest

/-- `get_converted_tuple`: the array afterwards, `none` when 0 is returned. -/
def getConvertedTuple (settings : Settings) (sectionName key : CString) (delim : UInt8)
    (convert : CString → α) : Option (List α) → Option (List α)
  | none | some [] => none
  | some (first :: rest) =>
    match settingsGet settings sectionName key maxValueChars with
    | none => none
    | some value =>
      let converted := convertTokens convert delim (first :: rest).length value
      some (converted ++ (first :: rest).drop converted.length)

end

def settingsGetLong (settings : Settings) (sectionName key : CString) : ℤ :=
  match settingsGet settings sectionName key maxValueChars with
  | none => 0
  | some value => strtol value

def settingsGetDouble (settings : Settings) (sectionName key : CString) : Option ℚ :=
  match settingsGet settings sectionName key maxValueChars with
  | none => some 0
  | some value => strtod value

def settingsGetIntTuple (settings : Settings) (sectionName key : CString)
    (out : Option (List CInt)) : Option (List CInt) :=
  getConvertedTuple settings sectionName key (chr ',') atoi out

def settingsGetLongTuple (settings : Settings) (sectionName key : CString)
    (out : Option (List ℤ)) : Option (List ℤ) :=
  getConvertedTuple settings sectionName key (chr ',') strtol out

def settingsGetDoubleTuple (settings : Settings) (sectionName key : CString)
    (out : Option (List (Option ℚ))) : Option (List (Option ℚ)) :=
  getConvertedTuple settings sectionName key (chr ',') strtod out

/-- The pieces between the delimiters, without an empty one at the end. -/
def pieces (delim : UInt8) (value : CString) : List CString :=
  let parts := value.splitOn delim
  if parts.getLast? = some [] then parts.dropLast else parts

def formatTuple (xs : List CInt) : CString := [chr ','].intercalate (xs.map fun x : CInt => formatInt x)

variable {α : Type} {convert : CString → α} {delim : UInt8} {token rest value : CString}

/-! ## Cutting a value -/

theorem getToken_cons (h : value ≠ []) :
    getToken value delim =
      some (value.takeWhile (· ≠ delim), (value.dropWhile (· ≠ delim)).tail) := by
  cases value with
  | nil => exact absurd rfl h
  | cons c rest => rfl

theorem getToken_of_notMem (h : delim ∉ value) (hNonempty : value ≠ []) :
    getToken value delim = some (value, []) := by
  have hAll : ∀ c ∈ value, decide (c ≠ delim) = true := fun c hMem =>
    decide_eq_true fun hEq => h (hEq ▸ hMem)
  rw [getToken_cons hNonempty, List.takeWhile_eq_self_iff.mpr hAll,
    List.dropWhile_eq_nil_iff.mpr hAll, List.tail_nil]

theorem getToken_append_cons (h : delim ∉ token) (rest : CString) :
    getToken (token ++ delim :: rest) delim = some (token, rest) := by
  have hAll : ∀ c ∈ token, decide (c ≠ delim) = true := fun c hMem =>
    decide_eq_true fun hEq => h (hEq ▸ hMem)
  have hTake : (delim :: rest).takeWhile (· ≠ delim) = [] := List.takeWhile_cons_of_neg (by simp)
  have hDrop : (delim :: rest).dropWhile (· ≠ delim) = delim :: rest :=
    List.dropWhile_cons_of_neg (by simp)
  rw [getToken_cons (List.append_ne_nil_of_right_ne_nil _ (List.cons_ne_nil _ _)),
    List.takeWhile_append_of_pos hAll, hTake, List.append_nil, List.dropWhile_append_of_pos hAll,
    hDrop, List.tail_cons]

theorem pieces_nil : pieces delim [] = [] := by simp [pieces]

theorem pieces_of_notMem (h : delim ∉ value) (hNonempty : value ≠ []) :
    pieces delim value = [value] := by
  rw [pieces, List.splitOn_eq_singleton h]
  simp [hNonempty]

theorem pieces_append_cons (h : delim ∉ token) (rest : CString) :
    pieces delim (token ++ delim :: rest) = token :: pieces delim rest := by
  obtain ⟨part, parts, hParts⟩ := List.exists_cons_of_ne_nil (List.splitOn_ne_nil delim rest)
  simp only [pieces, List.splitOn_append_cons_self_of_not_mem h, hParts, List.getLast?_cons_cons,
    List.dropLast_cons_cons]
  split_ifs <;> rfl

theorem convertTokens_nil (room : ℕ) : convertTokens convert delim room [] = [] := by
  cases room <;> rfl

theorem convertTokens_eq (room : ℕ) (value : CString) :
    convertTokens convert delim room value = ((pieces delim value).take room).map convert := by
  induction room generalizing value with
  | zero => rfl
  | succ room ih =>
    rcases eq_or_ne value [] with rfl | hEmpty
    · rw [convertTokens_nil, pieces_nil]
      rfl
    by_cases hDelim : delim ∈ value
    · obtain ⟨token, rest, rfl, hToken⟩ := List.eq_append_cons_of_mem hDelim
      rw [convertTokens, getToken_append_cons hToken, pieces_append_cons hToken,
        List.take_succ_cons, List.map_cons, ← ih]
    · rw [convertTokens, getToken_of_notMem hDelim hEmpty, pieces_of_notMem hDelim hEmpty,
        List.take_succ_cons, List.take_nil, List.map_singleton]
      exact congrArg (convert value :: ·) (convertTokens_nil room)

/-- What the tuple functions return, for any value stored. -/
theorem getConvertedTuple_eq {settings : Settings} {name key : CString} {out : List α}
    (hValue : settingsGet settings name key maxValueChars = some value) (hOut : out ≠ []) :
    getConvertedTuple settings name key delim convert (some out) =
      some (((pieces delim value).take out.length).map convert ++
        out.drop (pieces delim value).length) := by
  have hBehind : out.drop (min out.length (pieces delim value).length) =
      out.drop (pieces delim value).length := by
    rcases le_total out.length (pieces delim value).length with hLess | hMore
    · rw [min_eq_left hLess, List.drop_length, List.drop_of_length_le hLess]
    · rw [min_eq_right hMore]
  obtain ⟨first, rest, rfl⟩ := List.exists_cons_of_ne_nil hOut
  simp only [getConvertedTuple, hValue, convertTokens_eq, List.length_map, List.length_take, hBehind]

/-! ## Tuples of ints -/

theorem comma_notMem_formatInt (x : ℤ) : chr ',' ∉ formatInt x := by
  have hDecimal : chr ',' ∉ decimal x.natAbs := fun hMem =>
    absurd (isDigit_decimal _ hMem) (by decide)
  rw [formatInt]
  split_ifs
  · exact fun hMem => (List.mem_cons.mp hMem).elim (by decide) hDecimal
  · exact hDecimal

theorem formatInt_ne_nil (x : ℤ) : formatInt x ≠ [] := by
  rw [formatInt]
  split_ifs
  · exact List.cons_ne_nil _ _
  · exact decimal_ne_nil _

theorem pieces_formatTuple (xs : List CInt) :
    pieces (chr ',') (formatTuple xs) = xs.map fun x : CInt => formatInt x := by
  cases xs with
  | nil => exact pieces_nil
  | cons x rest =>
    have hSplit : (formatTuple (x :: rest)).splitOn (chr ',') =
        (x :: rest).map fun x : CInt => formatInt x :=
      List.splitOn_intercalate _ (List.forall_mem_map.mpr fun y _ => comma_notMem_formatInt y)
        (List.cons_ne_nil _ _)
    have hLast : ((x :: rest).map fun x : CInt => formatInt x).getLast? ≠ some [] := by
      intro hEmpty
      obtain ⟨y, _, hText⟩ := List.mem_map.mp (List.mem_of_getLast? hEmpty)
      exact formatInt_ne_nil y hText
    rw [pieces, hSplit]
    exact if_neg hLast

/-- After any calls of `settings_set` that leave the text of a tuple under a key, the array
holds the ints of the tuple as far as it reaches, and what it held behind them. -/
theorem tuple_read_back (calls : List Assignment) (name key : CString) (xs out : List CInt)
    (hSet : contentsAfter calls name key = some (formatTuple xs))
    (hShort : (formatTuple xs).length < maxValueChars) (hOut : out ≠ []) :
    settingsGetIntTuple (settingsSetAll [] calls) name key (some out) =
      some (xs.take out.length ++ out.drop xs.length) := by
  have hValue : settingsGet (settingsSetAll [] calls) name key maxValueChars =
      some (formatTuple xs) := by
    rw [settingsGet_eq, (settingsSetAll_spec calls).2, hSet]
    exact if_pos (decide_eq_true hShort)
  have hBack : (xs.map fun x : CInt => formatInt x).map atoi = xs := by
    have hEach : ∀ x ∈ xs, (atoi ∘ fun x : CInt => formatInt x) x = id x := fun x _ =>
      Subtype.ext (atoi_formatInt x.property)
    rw [List.map_map, List.map_congr_left hEach, List.map_id]
  rw [settingsGetIntTuple, getConvertedTuple_eq hValue hOut, pieces_formatTuple, List.map_take,
    hBack, List.length_map]

def limitsCall : Assignment := ⟨cstring "general", cstring "limits", cstring "1800,-40,5600"⟩

def sampleTuple : List CInt := [⟨1800, by decide⟩, ⟨-40, by decide⟩, ⟨5600, by decide⟩]

theorem tuple_read_back_sample :
    settingsGetIntTuple (settingsSetAll [] [limitsCall]) (cstring "general") (cstring "limits")
        (some [CInt.zero, CInt.zero, CInt.zero, CInt.zero]) =
      some (sampleTuple ++ [CInt.zero]) := by
  have hSet : contentsAfter [limitsCall] (cstring "general") (cstring "limits") =
      some (formatTuple sampleTuple) := by
    decide +kernel
  exact tuple_read_back [limitsCall] (cstring "general") (cstring "limits") sampleTuple
    [CInt.zero, CInt.zero, CInt.zero, CInt.zero] hSet (by decide +kernel) (List.cons_ne_nil _ _)

end Mbpfan
