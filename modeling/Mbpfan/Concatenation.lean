import Mbpfan.Statements

/-!
# One file behind another

The settings of two files in a row are those of the second where it has any, and those of
the first elsewhere: the section the first one ends in does not leak into the second, because
a file that is accepted opens a section of its own before it assigns anything.
-/

namespace Mbpfan

open Library

variable {current : Option CString} {lines : List ConfLine} {as : List Assignment}
  {first second : List UInt8} {s t : Settings}

theorem assignments_of_none (h : assignments none lines = some as) (current : Option CString) :
    assignments current lines = some as := by
  induction lines with
  | nil => exact h
  | cons line lines ih =>
    cases line with
    | empty => exact ih h
    | comment => exact ih h
    | header name => exact h
    | malformed => cases h
    | assignment key value => cases h

theorem settingsOpen_eq_some_iff :
    settingsOpen first = some s ↔
      ∃ as, assignments none (statements first) = some as ∧ as.foldl Assignment.put [] = s := by
  rw [settingsOpen_eq_statements, Option.map_eq_some_iff]

theorem lookup_foldl_put (as : List Assignment) :
    Settings.lookup (as.foldl Assignment.put []) = lastAssigned as :=
  funext fun name => funext fun key => (foldl_put_lookup as).2 name key

/-- A file that is accepted may stand behind any other that is. -/
theorem open_append (hStart : LineStart first) (hFirst : settingsOpen first = some s)
    (hSecond : settingsOpen second = some t) :
    ∃ both, settingsOpen (first ++ second) = some both ∧
      (∀ name key, Settings.lookup both name key =
        (Settings.lookup t name key).or (Settings.lookup s name key)) ∧
      ∀ key, given (some (first ++ second)) key =
        if (Settings.lookup t (cstring "general") key).isSome then given (some second) key
        else given (some first) key := by
  obtain ⟨as, hAs, rfl⟩ := settingsOpen_eq_some_iff.mp hFirst
  obtain ⟨bs, hBs, rfl⟩ := settingsOpen_eq_some_iff.mp hSecond
  have hBoth : assignments none (statements (first ++ second)) = some (as ++ bs) := by
    rw [hStart.statements_append]
    exact assignments_append_eq_some.mpr ⟨as, bs, hAs, assignments_of_none hBs _, rfl⟩
  refine ⟨(as ++ bs).foldl Assignment.put [], settingsOpen_eq_some_iff.mpr ⟨_, hBoth, rfl⟩, ?_, ?_⟩
  · intro name key
    rw [lookup_foldl_put, lookup_foldl_put, lookup_foldl_put, lastAssigned_append]
  · intro key
    rw [given_eq, given_eq, given_eq, hAs, hBs, hBoth, lookup_foldl_put]
    simp only [Option.bind_some, generalReading, lastAssigned_append]
    cases lastAssigned bs (cstring "general") key <;> simp

def baseFile : List UInt8 := cstring "[general]\nlow_temp = 55\n[x]\n"

def overlayFile : List UInt8 := cstring "[general]\nlow_temp = 0\nhigh_temp = 60\n"

/-- The second file gives the low threshold the value 0, which hides that of the first. -/
theorem open_append_sample : ∃ s t both, settingsOpen (baseFile ++ overlayFile) = some both ∧
    (∀ name key, Settings.lookup both name key =
      (Settings.lookup t name key).or (Settings.lookup s name key)) ∧
    ∀ key, given (some (baseFile ++ overlayFile)) key =
      if (Settings.lookup t (cstring "general") key).isSome then given (some overlayFile) key
      else given (some baseFile) key := by
  have hFirst : (settingsOpen baseFile).isSome = true := by decide +kernel
  have hSecond : (settingsOpen overlayFile).isSome = true := by decide +kernel
  have hStart : LineStart baseFile :=
    .inr ⟨cstring "[general]\nlow_temp = 55\n[x]", by decide +kernel⟩
  exact ⟨_, _, open_append hStart (Option.some_get hFirst).symm (Option.some_get hSecond).symm⟩

end Mbpfan
