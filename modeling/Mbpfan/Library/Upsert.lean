import Mathlib.Data.List.Basic

/-!
# Lists that are searched and updated in place

`upsert` changes the first entry that a test accepts, or appends an entry. What a search
finds afterwards depends only on whether it looks for the same entries.
-/

namespace Library

universe u

variable {α : Type u}

def upsert (p : α → Bool) (change : α → α) (new : α) : List α → List α
  | [] => [new]
  | a :: rest => if p a then change a :: rest else a :: upsert p change new rest

variable {p q : α → Bool} {change : α → α} {new : α} {P : α → Prop}

theorem find?_upsert (hNew : p new = true) (hChange : ∀ a, p a = true → p (change a) = true)
    (l : List α) :
    (upsert p change new l).find? p = some (((l.find? p).map change).getD new) := by
  induction l with
  | nil => simp [upsert, hNew]
  | cons a rest ih =>
    rw [upsert]
    split_ifs with ha
    · simp [ha, hChange a ha]
    · simp [ha, ih]

theorem find?_upsert_of_disjoint (hNew : q new = false) (hOld : ∀ a, p a = true → q a = false)
    (hChange : ∀ a, p a = true → q (change a) = false) (l : List α) :
    (upsert p change new l).find? q = l.find? q := by
  induction l with
  | nil => simp [upsert, hNew]
  | cons a rest ih =>
    rw [upsert]
    split_ifs with ha
    · simp [hOld a ha, hChange a ha]
    · rw [List.find?_cons, List.find?_cons, ih]

theorem upsert_append {l : List α} (h : ∀ a ∈ l, p a = false) (l' : List α) :
    upsert p change new (l ++ l') = l ++ upsert p change new l' := by
  induction l with
  | nil => rfl
  | cons a rest ih =>
    obtain ⟨ha, hRest⟩ := List.forall_mem_cons.mp h
    rw [List.cons_append, upsert, if_neg (by simp [ha]), ih hRest, List.cons_append]

theorem upsert_of_forall_not {l : List α} (h : ∀ a ∈ l, p a = false) :
    upsert p change new l = l ++ [new] := by
  have hAppend : upsert p change new (l ++ []) = l ++ [new] := upsert_append h []
  rwa [List.append_nil] at hAppend

theorem forall_upsert (hNew : P new) (hChange : ∀ a, P a → P (change a)) {l : List α}
    (h : ∀ a ∈ l, P a) : ∀ a ∈ upsert p change new l, P a := by
  induction l with
  | nil => simpa [upsert] using hNew
  | cons a rest ih =>
    obtain ⟨ha, hRest⟩ := List.forall_mem_cons.mp h
    rw [upsert]
    split_ifs
    · exact List.forall_mem_cons.mpr ⟨hChange a ha, hRest⟩
    · exact List.forall_mem_cons.mpr ⟨ha, ih hRest⟩

end Library
