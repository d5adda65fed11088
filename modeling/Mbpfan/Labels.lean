import Mbpfan.CString
import Mbpfan.Library.Trim
import Mathlib.Data.List.Induction

/-!
# The labels of the fans

`trim_trailing_whitespace` walks a string from its end to its start and stores a NUL over
every blank it meets, also over those between two words. The first of them ends the string.
-/

namespace Mbpfan

open Library

/-- The loop of `trim_trailing_whitespace` from `i - 1` down to 0. -/
def trimLoop (buf : List UInt8) : ℕ → List UInt8
  | 0 => buf
  | i + 1 =>
    if isSpace (buf.getD i 0) ∨ buf.getD i 0 = chr '\n' then trimLoop (buf.set i 0) i
    else trimLoop buf i

def trimTrailingWhitespace (str : CString) : CString := upToNul (trimLoop str str.length)

def maxLabelLen : ℕ := 64

/-- `read_value_str`: what `str` holds after the call. -/
def readValueStr (file : Option (List UInt8)) (str : CString) (len : ℕ) : CString :=
  match file with
  | none => str
  | some stream => ((fgetsBuffers len [] stream).head?.map upToNul).getD str

/-- The label `retrieve_fans` stores. `memory` is the text found in the memory it allocates. -/
def retrieveLabel (memory : CString) (file : Option (List UInt8)) : CString :=
  trimTrailingWhitespace (readValueStr file memory maxLabelLen)

variable {str : CString}

def clearSpace (c : UInt8) : UInt8 := if isSpace c then 0 else c

theorem trimLoop_append (xs ys : List UInt8) :
    trimLoop (xs ++ ys) xs.length = xs.map clearSpace ++ ys := by
  induction xs using List.reverseRecOn generalizing ys with
  | nil => rfl
  | append_singleton xs c ih =>
    have hGet : (xs ++ c :: ys).getD xs.length 0 = c := by simp
    have hSet : (xs ++ c :: ys).set xs.length 0 = xs ++ 0 :: ys := by
      rw [List.set_append_right _ _ le_rfl, Nat.sub_self, List.set_cons_zero]
    have hNewline : isSpace c = true ∨ c = chr '\n' ↔ isSpace c = true :=
      or_iff_left_of_imp fun hEq => hEq ▸ by decide
    rw [List.length_append, List.length_singleton, List.append_assoc, List.singleton_append,
      trimLoop, hGet, hSet, List.map_append, List.append_assoc]
    by_cases hSpace : isSpace c = true
    · rw [if_pos (hNewline.mpr hSpace), ih]
      simp [clearSpace, hSpace]
    · rw [if_neg (mt hNewline.mp hSpace), ih]
      simp [clearSpace, hSpace]

theorem upToNul_map_clearSpace (h : 0 ∉ str) :
    upToNul (str.map clearSpace) = str.takeWhile fun c => !isSpace c := by
  induction str with
  | nil => rfl
  | cons c rest ih =>
    obtain ⟨hHead, hRest⟩ := not_or.mp (mt List.mem_cons.mpr h)
    rw [upToNul, List.map_cons, List.takeWhile_cons, List.takeWhile_cons]
    by_cases hSpace : isSpace c = true
    · simp [clearSpace, hSpace]
    · have hKept : clearSpace c = c := by simp [clearSpace, hSpace]
      rw [hKept, ← ih hRest, upToNul]
      simp [hSpace, Ne.symm hHead]

/-- The string is cut at its first blank. -/
theorem trimTrailingWhitespace_eq (h : 0 ∉ str) :
    trimTrailingWhitespace str = str.takeWhile fun c => !isSpace c := by
  have hLoop := trimLoop_append str []
  rw [List.append_nil, List.append_nil] at hLoop
  rw [trimTrailingWhitespace, hLoop, upToNul_map_clearSpace h]

/-- What is left is the longest prefix that does not end in a blank exactly when the string
has no blank in front of another character. -/
theorem trims_iff (h : 0 ∉ str) :
    TrimOf isSpace str (trimTrailingWhitespace str) ↔ OnlyTrailing isSpace str := by
  rw [trimTrailingWhitespace_eq h]
  exact ⟨OnlyTrailing.of_trimOf, OnlyTrailing.trimOf_takeWhile⟩

theorem trims_iff_sample :
    TrimOf isSpace (cstring "Exhaust  \n") (trimTrailingWhitespace (cstring "Exhaust  \n")) ↔
      OnlyTrailing isSpace (cstring "Exhaust  \n") :=
  trims_iff (by decide +kernel)

/-- The label "Left side" is cut to "Left". -/
theorem label_cut :
    retrieveLabel [] (some (cstring "Left side\n")) = cstring "Left" ∧
      ¬ TrimOf isSpace (cstring "Left side\n") (retrieveLabel [] (some (cstring "Left side\n"))) := by
  have hCut : retrieveLabel [] (some (cstring "Left side\n")) = cstring "Left" := by
    decide +kernel
  refine ⟨hCut, fun hTrim => ?_⟩
  have hLonger := hTrim.longest (cstring "Left side") (by decide +kernel) (by decide +kernel)
  rw [hCut] at hLonger
  exact absurd hLonger (by decide +kernel)

end Mbpfan
