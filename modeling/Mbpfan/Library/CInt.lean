import Mathlib.Data.Rat.Floor
import Mathlib.Order.MinMax

/-!
# The C type int

A value of type `int` is an integer of 32 bits. An operation whose exact result fits
yields that result. What a compiled program does when it does not fit is left to a
platform, which the results about the program quantify over.
-/

namespace Library

def InInt (x : ℤ) : Prop := -2147483648 ≤ x ∧ x ≤ 2147483647

instance (x : ℤ) : Decidable (InInt x) := inferInstanceAs (Decidable (_ ∧ _))

abbrev CInt := {x : ℤ // InInt x}

namespace CInt

def zero : CInt := ⟨0, by decide⟩

instance (a b : CInt) : Decidable (a ≤ b) := inferInstanceAs (Decidable (a.val ≤ b.val))

instance (a b : CInt) : Decidable (a < b) := inferInstanceAs (Decidable (a.val < b.val))

theorem coe_max (a b : CInt) : ((max a b : CInt) : ℤ) = max (a : ℤ) b :=
  Monotone.map_max (Subtype.mono_coe InInt)

theorem coe_min (a b : CInt) : ((min a b : CInt) : ℤ) = min (a : ℤ) b :=
  Monotone.map_min (Subtype.mono_coe InInt)

/-- The int that agrees with `x` modulo `2 ^ 32`. -/
def wrap (x : ℤ) : CInt :=
  ⟨(x + 2147483648) % 4294967296 - 2147483648, by constructor <;> omega⟩

theorem wrap_of_inInt {x : ℤ} (h : InInt x) : (wrap x : ℤ) = x := by
  obtain ⟨hLow, hHigh⟩ := h
  change (x + 2147483648) % 4294967296 - 2147483648 = x
  omega

end CInt

/-- What a platform yields where the language leaves the result of an operation open:
`overflow x` for an int operation with the exact result `x`, `badCast` for the conversion
of a floating point number that is not finite or whose integer part does not fit. -/
structure Platform where
  overflow : ℤ → CInt
  badCast : CInt

namespace Platform

def int (π : Platform) (x : ℤ) : CInt := if h : InInt x then ⟨x, h⟩ else π.overflow x

theorem int_of_inInt (π : Platform) {x : ℤ} (h : InInt x) : (π.int x : ℤ) = x := by
  rw [int, dif_pos h]

def truncate (q : ℚ) : ℤ := if 0 ≤ q then ⌊q⌋ else ⌈q⌉

def cast (π : Platform) (q : ℚ) : CInt :=
  if h : InInt (truncate q) then ⟨truncate q, h⟩ else π.badCast

theorem cast_of_nonneg (π : Platform) {q : ℚ} (hq : 0 ≤ q) (h : InInt ⌊q⌋) :
    (π.cast q : ℤ) = ⌊q⌋ := by
  have hTruncate : truncate q = ⌊q⌋ := if_pos hq
  rw [cast, dif_pos (by rwa [hTruncate])]
  exact hTruncate

/-- Two's complement with wraparound, and the conversion of the x86 instructions. -/
def wrap : Platform where
  overflow := CInt.wrap
  badCast := ⟨-2147483648, by decide⟩

end Platform

/-! ## Operations that refuse to go wrong -/

namespace CInt

/-- The result of an int operation, if the language defines it. -/
def checked (x : ℤ) : Option CInt := if h : InInt x then some ⟨x, h⟩ else none

variable {x : ℤ} {v : CInt}

@[simp] theorem checked_eq_some_iff : checked x = some v ↔ (v : ℤ) = x := by
  rw [checked]
  split_ifs with h
  · rw [Option.some_inj, Subtype.ext_iff, eq_comm]
  · exact iff_of_false (by simp) fun hEq => h (hEq ▸ v.2)

@[simp] theorem isSome_checked : (checked x).isSome ↔ InInt x := by
  rw [checked]
  split_ifs with h <;> simp [h]

theorem checked_of_inInt (h : InInt x) : checked x = some ⟨x, h⟩ := dif_pos h

theorem isSome_checked_bind {α : Type} {f : CInt → Option α} :
    (checked x >>= f).isSome ↔ ∃ h : InInt x, (f ⟨x, h⟩).isSome := by
  by_cases h : InInt x
  · simp [checked_of_inInt h, h]
  · simp [checked, h]

theorem int_of_checked (π : Platform) (h : checked x = some v) : π.int x = v := by
  have hEq := checked_eq_some_iff.mp h
  exact Subtype.ext ((π.int_of_inInt (hEq ▸ v.2)).trans hEq.symm)

theorem cast_of_checked (π : Platform) {q : ℚ} (h : checked (Platform.truncate q) = some v) :
    π.cast q = v := by
  have hEq := checked_eq_some_iff.mp h
  have hIn : InInt (Platform.truncate q) := hEq ▸ v.2
  rw [Platform.cast, dif_pos hIn]
  exact Subtype.ext hEq.symm

end CInt

end Library
