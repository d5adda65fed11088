import Mbpfan.Library.Play
import Mathlib.Order.Lattice
import Mathlib.Tactic.Tauto

/-!
# What the play operator remembers

After a run the output is at least `v` exactly when some input has called for `v` and none
since has refused it. A run clamps the output it starts from, so doing it twice is doing it
once, and inputs on the way from one input to the next leave no trace.
-/

namespace Library

universe u v

variable {ι : Type u} {α : Type v} [LinearOrder α] {lower upper : ι → α} {x y z : ι} {s v : α}
variable {xs ys : List ι}

theorem le_play_iff : v ≤ play lower upper x s ↔ v ≤ lower x ∨ v ≤ s ∧ v ≤ upper x := by
  rw [play, le_max_iff, le_min_iff]

theorem playRun_append (xs ys : List ι) (s : α) :
    playRun lower upper s (xs ++ ys) = playRun lower upper (playRun lower upper s xs) ys :=
  List.foldl_append

/-- An input of the run has called for `v`, and no later one has refused it. -/
def CalledFor (lower upper : ι → α) (v : α) (xs : List ι) : Prop :=
  ∃ before x after, xs = before ++ x :: after ∧ v ≤ lower x ∧ ∀ y ∈ after, v ≤ upper y

theorem calledFor_nil : ¬ CalledFor lower upper v [] := by
  rintro ⟨before, x, after, hEq, -⟩
  exact List.append_ne_nil_of_right_ne_nil before (List.cons_ne_nil x after) hEq.symm

theorem calledFor_cons_iff :
    CalledFor lower upper v (x :: xs) ↔
      v ≤ lower x ∧ (∀ y ∈ xs, v ≤ upper y) ∨ CalledFor lower upper v xs := by
  constructor
  · rintro ⟨before, y, after, hEq, hCall, hKept⟩
    cases before with
    | nil =>
      cases hEq
      exact .inl ⟨hCall, hKept⟩
    | cons z before =>
      cases hEq
      exact .inr ⟨before, y, after, rfl, hCall, hKept⟩
  · rintro (⟨hCall, hKept⟩ | ⟨before, y, after, rfl, hCall, hKept⟩)
    · exact ⟨[], x, xs, rfl, hCall, hKept⟩
    · exact ⟨x :: before, y, after, rfl, hCall, hKept⟩

/-- The output after a run, by what lies below it. -/
theorem le_playRun_iff :
    v ≤ playRun lower upper s xs ↔
      v ≤ s ∧ (∀ x ∈ xs, v ≤ upper x) ∨ CalledFor lower upper v xs := by
  induction xs generalizing s with
  | nil => simp [playRun, calledFor_nil]
  | cons x xs ih =>
    have hRest : v ≤ playRun lower upper s (x :: xs) ↔ _ := ih
    rw [hRest, le_play_iff, calledFor_cons_iff, List.forall_mem_cons]
    tauto

/-! ## Runs as clamps -/

theorem clamp_clamp {a b l u : α} (hab : a ≤ b) (hlu : l ≤ u) (s : α) :
    max a (min (max l (min s u)) b) = max (max a (min l b)) (min s (max a (min u b))) := by
  apply eq_of_forall_le_iff
  intro v
  simp only [le_max_iff, le_min_iff]
  have hOuter : v ≤ a → v ≤ b := fun h => h.trans hab
  have hInner : v ≤ l → v ≤ u := fun h => h.trans hlu
  tauto

/-- A run of at least one input is a clamp between two outputs. -/
theorem playRun_eq_clamp (hCurves : ∀ x ∈ xs, lower x ≤ upper x) (hNonempty : xs ≠ []) :
    ∃ a b, a ≤ b ∧ ∀ s, playRun lower upper s xs = max a (min s b) := by
  induction xs with
  | nil => exact absurd rfl hNonempty
  | cons x xs ih =>
    obtain ⟨hHead, hTail⟩ := List.forall_mem_cons.mp hCurves
    rcases eq_or_ne xs [] with rfl | hEmpty
    · exact ⟨lower x, upper x, hHead, fun s => rfl⟩
    · obtain ⟨a, b, hab, hClamp⟩ := ih hTail hEmpty
      refine ⟨max a (min (lower x) b), max a (min (upper x) b), ?_, fun s => ?_⟩
      · exact max_le_max_left a (min_le_min_right b hHead)
      · rw [← clamp_clamp hab hHead]
        exact hClamp (play lower upper x s)

/-- The inputs of a run, applied again, change nothing. -/
theorem playRun_idem (hCurves : ∀ x ∈ xs, lower x ≤ upper x) (s : α) :
    playRun lower upper (playRun lower upper s xs) xs = playRun lower upper s xs := by
  rcases eq_or_ne xs [] with rfl | hEmpty
  · rfl
  · obtain ⟨a, b, hab, hClamp⟩ := playRun_eq_clamp hCurves hEmpty
    rw [hClamp, hClamp, min_eq_left (max_le hab (min_le_right s b)),
      max_eq_right (le_max_left a (min s b))]

/-! ## Inputs on the way -/

/-- The second list visits, after `x`, the inputs of the first and others on the way from
each of them to the next. -/
inductive Visits [LE ι] : ι → List ι → List ι → Prop
  | done {x : ι} : Visits x [] []
  | next {x y : ι} {xs ys : List ι} (h : Visits y xs ys) : Visits x (y :: xs) (y :: ys)
  | onTheWay {x y z : ι} {xs ys : List ι} (hBetween : x ≤ z ∧ z ≤ y ∨ y ≤ z ∧ z ≤ x)
      (h : Visits z (y :: xs) ys) : Visits x (y :: xs) (z :: ys)

variable [Preorder ι]

theorem play_onTheWay (hLower : Monotone lower) (hUpper : Monotone upper)
    (hCurves : ∀ x, lower x ≤ upper x) (h : InBand lower upper x s)
    (hBetween : x ≤ z ∧ z ≤ y ∨ y ≤ z ∧ z ≤ x) :
    play lower upper y (play lower upper z s) = play lower upper y s := by
  have hBand := play_inBand (hCurves z) s
  rcases hBetween with ⟨hxz, hzy⟩ | ⟨hyz, hzx⟩
  · rw [play_of_rise hUpper hBand hzy, play_of_rise hUpper h hxz,
      play_of_rise hUpper h (hxz.trans hzy), max_assoc, max_eq_right (hLower hzy)]
  · rw [play_of_fall hLower (hCurves y) hBand hyz, play_of_fall hLower (hCurves z) h hzx,
      play_of_fall hLower (hCurves y) h (hyz.trans hzx), min_assoc, min_eq_right (hUpper hyz)]

/-- Inputs on the way change no output at the inputs they lead to. -/
theorem playRun_visits (hLower : Monotone lower) (hUpper : Monotone upper)
    (hCurves : ∀ x, lower x ≤ upper x) (h : InBand lower upper x s) (hVisits : Visits x xs ys) :
    playRun lower upper s ys = playRun lower upper s xs := by
  induction hVisits generalizing s with
  | done => rfl
  | next hRest ih => exact ih (play_inBand (hCurves _) s)
  | @onTheWay x y z xs ys hBetween hRest ih =>
    have hSecond := ih (play_inBand (hCurves z) s)
    rw [playRun, List.foldl_cons, ← playRun, hSecond, playRun, List.foldl_cons,
      play_onTheWay hLower hUpper hCurves h hBetween]
    rfl

end Library
