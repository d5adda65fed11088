import Mathlib.Logic.Basic
import Mathlib.Data.Option.Basic

/-!
# Runs of labelled machines

A label carries every choice the environment makes in a step, so a step is a partial
function and a run is a list of labels. Laws about all the states of a run and about
all its steps are stated along the list; an invariant may use what is assumed of the
steps of the run.
-/

namespace Library

universe u v w

structure Machine (σ : Type u) (α : Type v) where
  step : σ → α → Option σ

namespace Machine

variable {σ : Type u} {α : Type v} {γ : Type w} (M : Machine σ α)

def run (s : σ) : List α → Option σ
  | [] => some s
  | a :: as => (M.step s a).bind fun t => run t as

/-- `P` holds in every state the labels lead through, the first one included. -/
def Always (P : σ → Prop) (s : σ) : List α → Prop
  | [] => P s
  | a :: as => P s ∧ ∀ t, M.step s a = some t → Always P t as

/-- `C` relates the state before, the label and the state after of every step taken. -/
def EachStep (C : σ → α → σ → Prop) (s : σ) : List α → Prop
  | [] => True
  | a :: as => ∀ t, M.step s a = some t → C s a t ∧ EachStep C t as

variable {M} {P Q I : σ → Prop} {C D : σ → α → σ → Prop} {s t : σ} {as bs : List α}

theorem run_cons_eq_some {a : α} :
    M.run s (a :: as) = some t ↔ ∃ r, M.step s a = some r ∧ M.run r as = some t :=
  Option.bind_eq_some_iff

theorem run_append : M.run s (as ++ bs) = (M.run s as).bind fun t => M.run t bs := by
  induction as generalizing s with
  | nil => rfl
  | cons a as ih =>
    simp only [List.cons_append, run]
    cases M.step s a with
    | none => rfl
    | some t => exact ih

theorem Always.head (h : M.Always P s as) : P s := by
  cases as with
  | nil => exact h
  | cons a as => exact h.1

theorem Always.last (h : M.Always P s as) (hRun : M.run s as = some t) : P t := by
  induction as generalizing s with
  | nil => cases hRun; exact h
  | cons a as ih =>
    obtain ⟨r, hStep, hRest⟩ := run_cons_eq_some.mp hRun
    exact ih (h.2 r hStep) hRest

theorem Always.mono (h : M.Always P s as) (hPQ : ∀ t, P t → Q t) : M.Always Q s as := by
  induction as generalizing s with
  | nil => exact hPQ s h
  | cons a as ih => exact ⟨hPQ s h.1, fun t hStep => ih (h.2 t hStep)⟩

theorem Always.and (hP : M.Always P s as) (hQ : M.Always Q s as) :
    M.Always (fun t => P t ∧ Q t) s as := by
  induction as generalizing s with
  | nil => exact ⟨hP, hQ⟩
  | cons a as ih => exact ⟨⟨hP.1, hQ.1⟩, fun t hTake => ih (hP.2 t hTake) (hQ.2 t hTake)⟩

/-- The induction rule: the invariant may lean on the condition met by the run's steps. -/
theorem always_of_invariant (hStep : ∀ s a t, I s → M.step s a = some t → C s a t → I t)
    (hInit : I s) (hEach : M.EachStep C s as) : M.Always I s as := by
  induction as generalizing s with
  | nil => exact hInit
  | cons a as ih =>
    refine ⟨hInit, fun t hTake => ?_⟩
    obtain ⟨hC, hRest⟩ := hEach t hTake
    exact ih (hStep s a t hInit hTake hC) hRest

theorem always_of_step (hStep : ∀ s a t, I s → M.step s a = some t → I t) (hInit : I s) :
    M.Always I s as := by
  induction as generalizing s with
  | nil => exact hInit
  | cons a as ih => exact ⟨hInit, fun t hTake => ih (hStep s a t hInit hTake)⟩

theorem eachStep_of_forall (h : ∀ s a t, M.step s a = some t → C s a t) : M.EachStep C s as := by
  induction as generalizing s with
  | nil => trivial
  | cons a as ih => exact fun t hTake => ⟨h s a t hTake, ih⟩

theorem eachStep_of_always (hI : M.Always I s as)
    (h : ∀ s a t, I s → M.step s a = some t → C s a t) : M.EachStep C s as := by
  induction as generalizing s with
  | nil => trivial
  | cons a as ih => exact fun t hTake => ⟨h s a t hI.1 hTake, ih (hI.2 t hTake)⟩

theorem EachStep.and (hC : M.EachStep C s as) (hD : M.EachStep D s as) :
    M.EachStep (fun s a t => C s a t ∧ D s a t) s as := by
  induction as generalizing s with
  | nil => trivial
  | cons a as ih =>
    intro t hTake
    obtain ⟨hCStep, hCRest⟩ := hC t hTake
    obtain ⟨hDStep, hDRest⟩ := hD t hTake
    exact ⟨⟨hCStep, hDStep⟩, ih hCRest hDRest⟩

theorem eachStep_of_mem (h : ∀ a ∈ as, ∀ s t, C s a t) : M.EachStep C s as := by
  induction as generalizing s with
  | nil => trivial
  | cons a as ih =>
    exact fun t _ => ⟨h a List.mem_cons_self s t, ih fun b hb => h b (List.mem_cons_of_mem a hb)⟩

theorem eachStep_cons_of_step {a : α} (h : M.step s a = some t) :
    M.EachStep C s (a :: as) ↔ C s a t ∧ M.EachStep C t as :=
  ⟨fun hEach => hEach t h, fun hBoth _ hTake => Option.some_inj.mp (h.symm.trans hTake) ▸ hBoth⟩

theorem eachStep_congr {E : σ → α → σ → Prop} (hI : M.Always I s as) (hE : M.EachStep E s as)
    (hIff : ∀ s a t, I s → M.step s a = some t → E s a t → (C s a t ↔ D s a t)) :
    M.EachStep C s as ↔ M.EachStep D s as := by
  induction as generalizing s with
  | nil => exact Iff.rfl
  | cons a as ih =>
    refine forall_congr' fun t => forall_congr' fun hTake => ?_
    obtain ⟨hStep, hRest⟩ := hE t hTake
    exact and_congr (hIff s a t hI.1 hTake hStep) (ih (hI.2 t hTake) hRest)

/-- A state law that every step settles by a step law holds along the run exactly when all
steps obey the step law. -/
theorem always_iff_of_always (hI : M.Always I s as) (hD : M.EachStep D s as) (hP : P s)
    (hIff : ∀ s a t, I s → P s → M.step s a = some t → D s a t → (P t ↔ C s a t)) :
    M.Always P s as ↔ M.EachStep C s as := by
  induction as generalizing s with
  | nil => exact ⟨fun _ => trivial, fun _ => hP⟩
  | cons a as ih =>
    refine (and_iff_right hP).trans (forall_congr' fun t => forall_congr' fun hTake => ?_)
    obtain ⟨hDStep, hDRest⟩ := hD t hTake
    have hSettled := hIff s a t hI.1 hP hTake hDStep
    constructor
    · intro hRest
      exact ⟨hSettled.mp hRest.head, (ih (hI.2 t hTake) hDRest hRest.head).mp hRest⟩
    · rintro ⟨hC, hRest⟩
      exact (ih (hI.2 t hTake) hDRest (hSettled.mpr hC)).mpr hRest

theorem always_iff_eachStep (hD : M.EachStep D s as) (hInit : I s) (hP : P s)
    (hStep : ∀ s a t, I s → M.step s a = some t → D s a t → I t)
    (hIff : ∀ s a t, I s → P s → M.step s a = some t → D s a t → (P t ↔ C s a t)) :
    M.Always P s as ↔ M.EachStep C s as :=
  always_iff_of_always (always_of_invariant hStep hInit hD) hD hP hIff

/-- The rule for a law that needs no help. -/
theorem always_iff_of_step (hP : P s)
    (hIff : ∀ s a t, P s → M.step s a = some t → (P t ↔ C s a t)) :
    M.Always P s as ↔ M.EachStep C s as := by
  refine always_iff_eachStep (I := fun _ => True) (D := fun _ _ _ => True)
    (eachStep_of_forall fun _ _ _ _ => trivial) trivial hP (fun _ _ _ _ _ _ => trivial) ?_
  intro s a t _ hState hTake _
  exact hIff s a t hState hTake

/-! ## Runs that can be checked -/

instance EachStep.decidable [∀ s a t, Decidable (C s a t)] :
    (s : σ) → (as : List α) → Decidable (M.EachStep C s as)
  | _, [] => isTrue trivial
  | s, a :: as =>
    match hTake : M.step s a with
    | none => isTrue fun t h => absurd (hTake.symm.trans h) (Option.some_ne_none t).symm
    | some t =>
      have := EachStep.decidable t as
      decidable_of_iff (C s a t ∧ M.EachStep C t as)
        ⟨fun h _ hr => Option.some.inj (hTake.symm.trans hr) ▸ h, fun h => h t hTake⟩

instance Always.decidable [∀ s, Decidable (P s)] :
    (s : σ) → (as : List α) → Decidable (M.Always P s as)
  | s, [] => inferInstanceAs (Decidable (P s))
  | s, a :: as =>
    match hTake : M.step s a with
    | none => decidable_of_iff (P s)
        ⟨fun h => ⟨h, fun t ht => absurd (hTake.symm.trans ht) (Option.some_ne_none t).symm⟩, And.left⟩
    | some t =>
      have := Always.decidable t as
      decidable_of_iff (P s ∧ M.Always P t as)
        ⟨fun h => ⟨h.1, fun _ hr => Option.some.inj (hTake.symm.trans hr) ▸ h.2⟩,
          fun h => ⟨h.1, h.2 t hTake⟩⟩

/-- A machine together with a history variable that no step reads. -/
def observe (M : Machine σ α) (record : γ → σ → α → σ → γ) : Machine (σ × γ) α where
  step s a := (M.step s.1 a).map fun t => (t, record s.2 s.1 a t)

theorem observe_step_eq_some {record : γ → σ → α → σ → γ} {g g' : γ} {a : α} :
    (M.observe record).step (s, g) a = some (t, g') ↔
      M.step s a = some t ∧ g' = record g s a t := by
  constructor
  · intro h
    obtain ⟨r, hStep, hEq⟩ := Option.map_eq_some_iff.mp h
    cases hEq
    exact ⟨hStep, rfl⟩
  · rintro ⟨hStep, rfl⟩
    exact Option.map_eq_some_iff.mpr ⟨t, hStep, rfl⟩

/-- The induction rule with the history variable: a step of the machine, then its record. -/
theorem observe_always {record : γ → σ → α → σ → γ} {J : σ × γ → Prop}
    {E : σ × γ → α → σ × γ → Prop} {g : γ}
    (hStep : ∀ s g a t, J (s, g) → M.step s a = some t → E (s, g) a (t, record g s a t) →
      J (t, record g s a t))
    (hInit : J (s, g)) (hEach : (M.observe record).EachStep E (s, g) as) :
    (M.observe record).Always J (s, g) as := by
  refine always_of_invariant ?_ hInit hEach
  rintro ⟨s, g⟩ a ⟨t, g'⟩ hJ hTake hE
  obtain ⟨hStepped, rfl⟩ := observe_step_eq_some.mp hTake
  exact hStep s g a t hJ hStepped hE

theorem observe_always_fst {record : γ → σ → α → σ → γ} {g : γ} :
    (M.observe record).Always (fun r => P r.1) (s, g) as ↔ M.Always P s as := by
  induction as generalizing s g with
  | nil => exact Iff.rfl
  | cons a as ih =>
    refine and_congr_right fun _ => ⟨fun h t hTake => ?_, ?_⟩
    · exact ih.mp (h (t, record g s a t) (observe_step_eq_some.mpr ⟨hTake, rfl⟩))
    · rintro h ⟨t, g'⟩ hTake
      exact ih.mpr (h t (observe_step_eq_some.mp hTake).1)

/-- The history variable changes no run. -/
theorem observe_run (record : γ → σ → α → σ → γ) (s : σ) (g : γ) (as : List α) :
    ((M.observe record).run (s, g) as).map Prod.fst = M.run s as := by
  induction as generalizing s g with
  | nil => rfl
  | cons a as ih =>
    simp only [run, observe]
    cases M.step s a with
    | none => rfl
    | some t => exact ih t _

end Machine

end Library
