import Mbpfan.Settings
import Mathlib.Data.List.DropRight

/-!
# The lines of a configuration file

The reading loop of `settings_open` gets the file buffer by buffer, the newline included.
When no line is longer than a buffer, it parses the lines one by one.
-/

namespace Mbpfan

open Library

def splitLines (file : List UInt8) : List (List UInt8) := file.splitOn (chr '\n')

def parseBuf (state : ParseState) (buf : List UInt8) : Option ParseState :=
  parseStr state (trimStr (upToNul buf))

variable {σ : Type} {f : σ → List UInt8 → Option σ} {line : List UInt8}

theorem splitLines_cons (c : UInt8) (file : List UInt8) :
    splitLines (c :: file) =
      if c = chr '\n' then [] :: splitLines file
      else (splitLines file).modifyHead (List.cons c) := by
  unfold splitLines
  rw [List.splitOn_cons_eq_if_modifyHead]
  simp

theorem splitLines_ne_nil (file : List UInt8) : splitLines file ≠ [] :=
  List.splitOn_ne_nil _ _

theorem fgetsBuffers_newline (size : ℕ) (buf file : List UInt8) :
    fgetsBuffers size buf (chr '\n' :: file) =
      (buf.reverse ++ [chr '\n']) :: fgetsBuffers size [] file := by
  cases buf <;> simp [fgetsBuffers]

theorem fgetsBuffers_of_ne {size : ℕ} {c : UInt8} {buf : List UInt8} (hEnd : c ≠ chr '\n')
    (hRoom : buf.length + 2 ≠ size) (file : List UInt8) :
    fgetsBuffers size buf (c :: file) = fgetsBuffers size (c :: buf) file := by
  cases buf <;> simp_all [fgetsBuffers]

theorem modifyHead_append_nil (lines : List (List UInt8)) :
    lines.modifyHead (([] : List UInt8).reverse ++ ·) = lines :=
  congrFun List.modifyHead_id lines

theorem modifyHead_append_cons (c : UInt8) (buf : List UInt8) (lines : List (List UInt8)) :
    (lines.modifyHead (List.cons c)).modifyHead (buf.reverse ++ ·) =
      lines.modifyHead ((c :: buf).reverse ++ ·) := by
  rw [List.modifyHead_modifyHead]
  congr 1
  funext line
  simp

/-- Buffers that hold one line each are as good as the lines, for a reader that ignores
newlines and empty lines. -/
theorem foldlM_fgetsBuffers (hNewline : ∀ s line, f s (line ++ [chr '\n']) = f s line)
    (hNil : ∀ s, f s [] = some s) {size : ℕ} (file : List UInt8) (buf : List UInt8) (s : σ)
    (hLines : ∀ line ∈ (splitLines file).modifyHead (buf.reverse ++ ·), line.length + 2 ≤ size) :
    (fgetsBuffers size buf file).foldlM f s =
      ((splitLines file).modifyHead (buf.reverse ++ ·)).foldlM f s := by
  induction file generalizing buf s with
  | nil =>
    cases buf with
    | nil => simp [fgetsBuffers, splitLines, hNil]
    | cons c buf => simp [fgetsBuffers, splitLines]
  | cons c file ih =>
    rw [splitLines_cons] at hLines ⊢
    by_cases hEnd : c = chr '\n'
    · subst hEnd
      rw [if_pos rfl, List.modifyHead_cons, List.append_nil] at hLines ⊢
      obtain ⟨_, hRest⟩ := List.forall_mem_cons.mp hLines
      rw [fgetsBuffers_newline, List.foldlM_cons, List.foldlM_cons, hNewline]
      congr 1
      funext s'
      have hNext := ih [] s' (by rwa [modifyHead_append_nil])
      rwa [modifyHead_append_nil] at hNext
    · rw [if_neg hEnd, modifyHead_append_cons] at hLines ⊢
      have hRoom : buf.length + 2 ≠ size := by
        obtain ⟨head, tail, hSplit⟩ := List.exists_cons_of_ne_nil (splitLines_ne_nil file)
        have hHead := hLines ((c :: buf).reverse ++ head) (by simp [hSplit])
        simp only [List.length_append, List.length_reverse, List.length_cons] at hHead
        omega
      rw [fgetsBuffers_of_ne hEnd hRoom]
      exact ih (c :: buf) s hLines

/-! ## Trimming -/

theorem dropBlanksRight_eq (str : CString) : dropBlanksRight str = str.rdropWhile isBlankChar := rfl

theorem trimStr_append_newline (str : CString) : trimStr (str ++ [chr '\n']) = trimStr str := by
  rw [trimStr, trimStr, List.dropWhile_append, dropBlanksRight_eq, dropBlanksRight_eq]
  split_ifs with hEmpty
  · rw [List.isEmpty_iff.mp hEmpty]
    rfl
  · rw [List.rdropWhile_concat_pos]
    decide

theorem trimStr_upToNul_newline (line : List UInt8) :
    trimStr (upToNul (line ++ [chr '\n'])) = trimStr (upToNul line) := by
  unfold upToNul
  rw [List.takeWhile_append]
  split_ifs with hWhole
  · have hNewline : [chr '\n'].takeWhile (· ≠ 0) = [chr '\n'] := by decide
    rw [hNewline, trimStr_append_newline, (List.takeWhile_prefix _).eq_of_length hWhole]
  · rfl

theorem parseBuf_append_newline (state : ParseState) (line : List UInt8) :
    parseBuf state (line ++ [chr '\n']) = parseBuf state line :=
  congrArg (parseStr state) (trimStr_upToNul_newline line)

@[simp] theorem parseBuf_nil (state : ParseState) : parseBuf state [] = some state := rfl

theorem settingsOpen_eq {file : List UInt8}
    (hLines : ∀ line ∈ splitLines file, line.length + 2 ≤ maxLineChars) :
    settingsOpen file =
      ((splitLines file).foldlM parseBuf ⟨[], none⟩).map ParseState.settings := by
  have hParsed := foldlM_fgetsBuffers parseBuf_append_newline parseBuf_nil file [] ⟨[], none⟩
    (by rwa [modifyHead_append_nil])
  rw [modifyHead_append_nil] at hParsed
  exact congrArg (Option.map ParseState.settings) hParsed

theorem splitLines_subset {file : List UInt8} : ∀ line ∈ splitLines file, line ⊆ file := by
  induction file with
  | nil => simp [splitLines]
  | cons c file ih =>
    rw [splitLines_cons]
    split_ifs
    · refine List.forall_mem_cons.mpr ⟨List.nil_subset _, fun line hLine => ?_⟩
      exact List.subset_cons_of_subset c (ih line hLine)
    · obtain ⟨head, tail, hSplit⟩ := List.exists_cons_of_ne_nil (splitLines_ne_nil file)
      rw [hSplit] at ih ⊢
      obtain ⟨hHead, hTail⟩ := List.forall_mem_cons.mp ih
      refine List.forall_mem_cons.mpr ⟨List.cons_subset_cons c hHead, fun line hLine => ?_⟩
      exact List.subset_cons_of_subset c (hTail line hLine)

theorem upToNul_of_noNul (h : 0 ∉ line) : upToNul line = line := by
  have hNil : upToNul [] = [] := rfl
  have hAppend := upToNul_append h []
  rwa [hNil, List.append_nil] at hAppend

end Mbpfan
