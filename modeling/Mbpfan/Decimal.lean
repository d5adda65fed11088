import Mbpfan.CString
import Mathlib.Data.List.TakeWhile

/-!
# Decimal digits

Digits in front of something else are told apart from it, and a number from its digits.
-/

namespace Mbpfan

variable {digits rest r s : List UInt8} {m n : ℕ}

theorem isDigit_bounds {c : UInt8} (h : isDigit c = true) : 48 ≤ c.toNat ∧ c.toNat ≤ 57 :=
  of_decide_eq_true h

theorem isSpace_bounds {c : UInt8} (h : isSpace c = true) : c.toNat ≤ 32 := by
  rcases of_decide_eq_true h with hBlank | ⟨-, hHigh⟩
  · rw [hBlank]
    decide
  · exact le_trans (UInt8.le_iff_toNat_le.mp hHigh) (by decide)

/-- What does not go on with a digit. -/
def EndsDigits (rest : List UInt8) : Prop := ∀ c ∈ rest.head?, isDigit c = false

theorem EndsDigits.takeWhile_eq (h : EndsDigits rest) : rest.takeWhile isDigit = [] := by
  cases rest with
  | nil => rfl
  | cons c rest => rw [List.takeWhile_cons, h c rfl, if_neg Bool.false_ne_true]

theorem takeWhile_digits (hDigits : ∀ c ∈ digits, isDigit c = true) (h : EndsDigits rest) :
    (digits ++ rest).takeWhile isDigit = digits := by
  rw [List.takeWhile_append_of_pos hDigits, h.takeWhile_eq, List.append_nil]

theorem dropWhile_digits (hDigits : ∀ c ∈ digits, isDigit c = true) (h : EndsDigits rest) :
    (digits ++ rest).dropWhile isDigit = rest := by
  have hSplit := List.takeWhile_append_dropWhile (p := isDigit) (l := digits ++ rest)
  rw [takeWhile_digits hDigits h] at hSplit
  exact List.append_cancel_left hSplit

theorem toNat_chr {c : Char} (h : c.isDigit = true) : (chr c).toNat = c.toNat := by
  have hHigh : c.toNat ≤ 57 := (Char.isDigit_iff_toNat.mp h).2
  rw [chr, UInt8.toNat_ofNat', Nat.mod_eq_of_lt (by omega)]

theorem isDigit_chr {c : Char} (h : c.isDigit = true) : isDigit (chr c) = true := by
  have hDigit := Char.isDigit_iff_toNat.mp h
  rw [← toNat_chr h] at hDigit
  exact decide_eq_true hDigit

theorem isDigit_decimal : ∀ c ∈ decimal n, isDigit c = true := by
  refine List.forall_mem_map.mpr fun c hMem => isDigit_chr ?_
  exact Nat.isDigit_of_mem_toDigits (by decide) le_rfl hMem

theorem map_decimal (n : ℕ) :
    (decimal n).map (fun c => Char.ofNat c.toNat) = Nat.toDigits 10 n := by
  rw [decimal, List.map_map]
  refine (List.map_congr_left fun c hMem => ?_).trans (List.map_id _)
  have hDigit := Nat.isDigit_of_mem_toDigits (by decide) le_rfl hMem
  rw [Function.comp_apply, toNat_chr hDigit, Char.ofNat_toNat, id]

theorem decimal_injective : Function.Injective decimal := by
  apply Function.LeftInverse.injective
    (g := fun s => Nat.ofDigitChars 10 (s.map fun c => Char.ofNat c.toNat) 0)
  intro n
  simp only [map_decimal, Nat.ofDigitChars_ten_toDigits]

theorem decimal_append_inj (hr : EndsDigits r) (hs : EndsDigits s) :
    decimal m ++ r = decimal n ++ s ↔ m = n ∧ r = s := by
  constructor
  · intro hEq
    have hTake := congrArg (List.takeWhile isDigit) hEq
    have hDrop := congrArg (List.dropWhile isDigit) hEq
    rw [takeWhile_digits isDigit_decimal hr, takeWhile_digits isDigit_decimal hs] at hTake
    rw [dropWhile_digits isDigit_decimal hr, dropWhile_digits isDigit_decimal hs] at hDrop
    exact ⟨decimal_injective hTake, hDrop⟩
  · rintro ⟨rfl, rfl⟩
    rfl

end Mbpfan
