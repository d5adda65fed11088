import Mbpfan.Library.Machine
import Mathlib.Data.List.Basic

/-!
# Potentials

A potential that the labels of one kind use up and the labels of another kind refill bounds
how often the first kind occurs in a run. Without a refill it bounds the length of what is
left of the run.
-/

namespace Library

universe u v

namespace Machine

variable {σ : Type u} {α : Type v} {M : Machine σ α} {I : σ → Prop} {C : σ → α → σ → Prop}
variable {φ : σ → ℕ} {s t : σ} {as : List α}

/-- Every label of `uses` costs one, every label of `refills` brings in `n`. -/
theorem countP_le_of_potential {uses refills : α → Bool} {n : ℕ}
    (hStep : ∀ s a t, I s → M.step s a = some t → C s a t →
      I t ∧ (if uses a then 1 else 0) + φ t ≤ φ s + if refills a then n else 0)
    (hInit : I s) (hEach : M.EachStep C s as) (hRun : M.run s as = some t) :
    as.countP uses + φ t ≤ φ s + n * as.countP refills := by
  induction as generalizing s with
  | nil =>
    cases hRun
    exact Nat.le_of_eq (by simp)
  | cons a as ih =>
    obtain ⟨r, hTake, hRest⟩ := run_cons_eq_some.mp hRun
    obtain ⟨hC, hEachRest⟩ := hEach r hTake
    obtain ⟨hNext, hPaid⟩ := hStep s a r hInit hTake hC
    have hLater := ih hNext hEachRest hRest
    rw [List.countP_cons, List.countP_cons, Nat.mul_add]
    have hRefill : n * (if refills a then 1 else 0) = if refills a then n else 0 := by
      split_ifs <;> simp
    omega

/-- A run in which not every step obeys a law has a first step that breaks it. -/
theorem exists_first_of_not_eachStep (h : ¬ M.EachStep C s as) :
    ∃ before a after r t, as = before ++ a :: after ∧ M.run s before = some r ∧
      M.EachStep C s before ∧ M.step r a = some t ∧ ¬ C r a t := by
  induction as generalizing s with
  | nil => exact absurd trivial h
  | cons a as ih =>
    obtain ⟨t, hLater⟩ := not_forall.mp h
    obtain ⟨hTake, hBroken⟩ := Classical.not_imp.mp hLater
    by_cases hC : C s a t
    · obtain ⟨before, b, after, r, u, rfl, hRun, hEach, hStep, hNot⟩ :=
        ih fun hRest => hBroken ⟨hC, hRest⟩
      exact ⟨a :: before, b, after, r, u, rfl, run_cons_eq_some.mpr ⟨t, hTake, hRun⟩,
        (eachStep_cons_of_step hTake).mpr ⟨hC, hEach⟩, hStep, hNot⟩
    · exact ⟨[], a, as, s, t, rfl, rfl, trivial, hTake, hC⟩

end Machine

end Library
