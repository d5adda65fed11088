import Mathlib.Data.List.DropRight
import Mathlib.Data.List.Infix
import Mathlib.Data.List.TakeWhile

/-!
# Trimming a list at its end

The trimmed list is the longest prefix that does not end in an entry of the kind to be
trimmed. Cutting at the first such entry gives the same exactly when such entries only stand
at the end. A list with more behind it is cut like the list alone when the cut lies within it.
-/

namespace Library

universe u

variable {α : Type u}

structure TrimOf (p : α → Bool) (l t : List α) : Prop where
  isPrefix : t <+: l
  bare : ∀ a ∈ t.getLast?, p a = false
  longest : ∀ s, s <+: l → (∀ a ∈ s.getLast?, p a = false) → s.length ≤ t.length

/-- No entry of the kind comes before one of another kind. -/
def OnlyTrailing (p : α → Bool) (l : List α) : Prop :=
  ∀ before a after, l = before ++ a :: after → p a = true → ∀ b ∈ after, p b = true

variable {p : α → Bool} {l s : List α}

theorem takeWhile_bare : ∀ a ∈ (l.takeWhile fun a => !p a).getLast?, p a = false := by
  intro a ha
  have hMem := List.mem_of_getLast? ha
  simpa using List.mem_takeWhile_imp hMem

theorem OnlyTrailing.trimOf_takeWhile (h : OnlyTrailing p l) :
    TrimOf p l (l.takeWhile fun a => !p a) where
  isPrefix := List.takeWhile_prefix _
  bare := takeWhile_bare
  longest := by
    intro s hs hBare
    by_contra hLong
    -- What `s` has beyond the first cut are entries to be trimmed, its last one included.
    have hSplit := List.takeWhile_append_dropWhile (p := fun a => !p a) (l := l)
    obtain ⟨r, rfl⟩ :=
      List.prefix_of_prefix_length_le (List.takeWhile_prefix _) hs (not_le.mp hLong).le
    obtain ⟨rest, hRest⟩ := hs
    rw [List.append_assoc] at hRest
    have hDropped : l.dropWhile (fun a => !p a) = r ++ rest :=
      List.append_cancel_left (hSplit.trans hRest.symm)
    cases r with
    | nil => simp at hLong
    | cons a after =>
      have hHead : p a = true := by
        have hNot := List.head_dropWhile_not (fun a => !p a) (l := l) (by simp [hDropped])
        simpa [hDropped] using hNot
      have hTrailing := h _ a (after ++ rest) hRest.symm hHead
      obtain ⟨b, hLast⟩ :=
        Option.isSome_iff_exists.mp (List.getLast?_isSome.mpr (List.cons_ne_nil a after))
      have hBareLast := hBare b (by rw [List.getLast?_append, hLast]; rfl)
      cases List.mem_cons.mp (List.mem_of_getLast? hLast) with
      | inl hSame => exact Bool.noConfusion (hBareLast.symm.trans (hSame ▸ hHead))
      | inr hAfter =>
        have hBlank := hTrailing b (List.mem_append_left rest hAfter)
        exact Bool.noConfusion (hBareLast.symm.trans hBlank)

theorem OnlyTrailing.of_trimOf (h : TrimOf p l (l.takeWhile fun a => !p a)) :
    OnlyTrailing p l := by
  rintro before a after rfl ha b hb
  by_contra hOther
  obtain ⟨left, right, rfl⟩ := List.append_of_mem hb
  have hPrefix : before ++ a :: (left ++ [b]) <+: before ++ a :: (left ++ b :: right) :=
    ⟨right, by simp⟩
  have hBare : ∀ c ∈ (before ++ a :: (left ++ [b])).getLast?, p c = false := by
    rw [← List.cons_append, ← List.append_assoc, List.getLast?_concat]
    rintro c ⟨rfl⟩
    simpa using hOther
  have hLonger := h.longest _ hPrefix hBare
  have hCut : ((before ++ a :: (left ++ b :: right)).takeWhile fun a => !p a).length ≤
      before.length := by
    rw [List.takeWhile_append]
    split_ifs
    · simp [ha]
    · exact (List.takeWhile_prefix _).length_le
  rw [List.length_append, List.length_cons] at hLonger
  omega

/-! ## A list with more behind it -/

theorem dropWhile_append_of_ne_nil (h : l.dropWhile p ≠ []) :
    (l ++ s).dropWhile p = l.dropWhile p ++ s := by
  rw [List.dropWhile_append, if_neg (by simpa using h)]

theorem takeWhile_append_of_dropWhile (h : l.dropWhile p ≠ []) :
    (l ++ s).takeWhile p = l.takeWhile p := by
  have hTake := List.takeWhile_append_dropWhile (p := p) (l := l ++ s)
  have hSplit := List.takeWhile_append_dropWhile (p := p) (l := l)
  rw [dropWhile_append_of_ne_nil h, ← List.append_assoc] at hTake
  nth_rewrite 3 [← hSplit] at hTake
  exact List.append_cancel_right (List.append_cancel_right hTake)

theorem rdropWhile_append_of_eq (h : l.rdropWhile p = l) (s : List α) :
    (l ++ s).rdropWhile p = l ++ s.rdropWhile p := by
  unfold List.rdropWhile at h ⊢
  rw [List.reverse_append, List.dropWhile_append]
  split_ifs with hBlank
  · rw [h, List.isEmpty_iff.mp hBlank, List.reverse_nil, List.append_nil]
  · rw [List.reverse_append, List.reverse_reverse]

end Library
