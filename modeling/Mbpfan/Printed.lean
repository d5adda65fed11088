import Mbpfan.DetectedLimits
import Mbpfan.ShortComments

/-!
# Numbers written and read back

The daemon writes every number with `%d`: a speed through a buffer of 16 bytes, the mode of a
fan and its own pid straight to their files. What reads such a text with `%d` or with `atoi`
finds the number, also when something that is no digit follows.
-/

namespace Mbpfan

open Library

/-- What `%d` prints. -/
def formatInt (x : ℤ) : CString :=
  if x < 0 then chr '-' :: decimal x.natAbs else decimal x.natAbs

def speedBufSize : ℕ := 16

/-- The bytes `set_fan_speed` hands to `pwrite`: as many as `snprintf` returns, from a buffer
that has room for fewer. `none` when that goes past what is stored there. -/
def speedText (speed : CInt) : Option (List UInt8) :=
  let text := formatInt speed
  let buf := text.take (speedBufSize - 1)
  if text.length ≤ buf.length then some (buf.take text.length) else none

/-- What `write_pid` leaves in the PID file. -/
def writePidText (pid : ℤ) : List UInt8 := formatInt pid

/-- The number `read_pid` reads from the PID file. -/
def readPidText (file : Option (List UInt8)) : CInt := readValue file

variable {x : ℤ} {rest : List UInt8}

theorem foldl_digits (l : List Char) (h : ∀ c ∈ l, c.isDigit = true) (n : ℕ) :
    (l.map chr).foldl (fun (n : ℤ) c => 10 * n + (c.toNat - 48)) n = Nat.ofDigitChars 10 l n := by
  induction l generalizing n with
  | nil => rfl
  | cons c rest ih =>
    obtain ⟨hHead, hRest⟩ := List.forall_mem_cons.mp h
    have hDigit := Char.isDigit_iff_toNat.mp hHead
    rw [List.map_cons, List.foldl_cons, Nat.ofDigitChars_cons, ← ih hRest, toNat_chr hHead]
    congr 1
    push_cast
    have hZero : '0'.toNat = 48 := rfl
    omega

theorem digitsValue_decimal (n : ℕ) : digitsValue (decimal n) = n := by
  have hDigits : ∀ c ∈ Nat.toDigits 10 n, c.isDigit = true := fun c hMem =>
    Nat.isDigit_of_mem_toDigits (by decide) le_rfl hMem
  have hValue := foldl_digits (Nat.toDigits 10 n) hDigits 0
  rw [Nat.ofDigitChars_ten_toDigits] at hValue
  rw [digitsValue, List.takeWhile_eq_self_iff.mpr isDigit_decimal]
  exact hValue

theorem decimal_ne_nil (n : ℕ) : decimal n ≠ [] :=
  mt List.map_eq_nil_iff.mp (List.ne_nil_of_length_pos Nat.length_toDigits_pos)

theorem formatInt_isNumber (x : ℤ) : IsNumber (formatInt x) := by
  rw [formatInt]
  split_ifs
  · exact ⟨[chr '-'], _, rfl, by simp, decimal_ne_nil _, isDigit_decimal⟩
  · exact ⟨[], _, rfl, by simp, decimal_ne_nil _, isDigit_decimal⟩

theorem formatInt_length_le (h : InInt x) : (formatInt x).length ≤ 11 := by
  obtain ⟨hLow, hHigh⟩ := h
  have hDigits : (decimal x.natAbs).length ≤ 10 := by
    rw [decimal, List.length_map, Nat.length_toDigits_le_iff (by decide) (by decide)]
    omega
  rw [formatInt]
  split_ifs
  · exact Nat.succ_le_succ hDigits
  · exact hDigits.trans (Nat.le_succ 10)

theorem exists_decimal_cons (n : ℕ) : ∃ d digits, decimal n = d :: digits ∧ isDigit d = true := by
  obtain ⟨d, digits, hEq⟩ := List.exists_cons_of_ne_nil (decimal_ne_nil n)
  exact ⟨d, digits, hEq, isDigit_decimal d (hEq ▸ List.mem_cons_self)⟩

theorem digit_not_special {d : UInt8} (h : isDigit d = true) :
    ¬ isSpace d = true ∧ d ≠ chr '-' ∧ d ≠ chr '+' := by
  have hBounds := isDigit_bounds h
  refine ⟨fun hSpace => absurd (isSpace_bounds hSpace) (by omega), ?_, ?_⟩ <;> rintro rfl <;>
    exact absurd h (by decide)

theorem leadingInt_formatInt (x : ℤ) : leadingInt (formatInt x) = x := by
  rw [leadingInt, formatInt]
  split_ifs with hNegative
  · rw [List.dropWhile_cons_of_neg (by decide)]
    simp only [if_true, digitsValue_decimal]
    omega
  · obtain ⟨d, digits, hEq, hDigit⟩ := exists_decimal_cons x.natAbs
    obtain ⟨hSpace, hMinus, hPlus⟩ := digit_not_special hDigit
    rw [hEq, List.dropWhile_cons_of_neg hSpace]
    simp only [if_neg hMinus, if_neg hPlus]
    rw [← hEq, digitsValue_decimal]
    omega

theorem atoi_formatInt (h : InInt x) : (atoi (formatInt x) : ℤ) = x := by
  have hInt : InInt (leadingInt (formatInt x)) := by rwa [leadingInt_formatInt]
  rw [atoi_of_inInt hInt, leadingInt_formatInt]

theorem startsWithNumber_formatInt (x : ℤ) (rest : List UInt8) :
    startsWithNumber (formatInt x ++ rest) = true := by
  obtain ⟨d, digits, hEq, hDigit⟩ := exists_decimal_cons x.natAbs
  rw [startsWithNumber, formatInt, hEq]
  split_ifs
  · rw [List.cons_append, List.dropWhile_cons_of_neg (by decide)]
    simp [hDigit]
  · rw [List.cons_append, List.dropWhile_cons_of_neg (digit_not_special hDigit).1]
    simp [hDigit]

theorem readValue_formatInt_append (h : InInt x) (hRest : EndsDigits rest) :
    (readValue (some (formatInt x ++ rest)) : ℤ) = x := by
  have hRead : readValue (some (formatInt x ++ rest)) = atoi (formatInt x ++ rest) :=
    if_pos (startsWithNumber_formatInt x rest)
  rw [hRead, (formatInt_isNumber x).atoi_append hRest, atoi_formatInt h]

theorem readPidText_writePidText (h : InInt x) :
    (readPidText (some (writePidText x)) : ℤ) = x := by
  have hNothing : EndsDigits [] := nofun
  have hWhole := readValue_formatInt_append h hNothing
  rwa [List.append_nil] at hWhole

theorem speedText_eq (speed : CInt) : speedText speed = some (formatInt speed) := by
  have hStored : (formatInt speed).take (speedBufSize - 1) = formatInt speed :=
    List.take_of_length_le ((formatInt_length_le speed.property).trans (by decide))
  simp only [speedText, hStored, le_refl, if_true, List.take_length]

/-- A number printed fits the buffer, and is read back from its text. -/
theorem printed_read_back (x : CInt) :
    speedText x = some (formatInt x) ∧ readPidText (some (writePidText x)) = x ∧
      ∀ rest, EndsDigits rest → readValue (some (formatInt x ++ rest)) = x :=
  ⟨speedText_eq x, Subtype.ext (readPidText_writePidText x.property),
    fun _ hRest => Subtype.ext (readValue_formatInt_append x.property hRest)⟩

end Mbpfan
