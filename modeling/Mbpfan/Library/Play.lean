import Mathlib.Order.MinMax
import Mathlib.Data.List.Forall2

/-!
# The play operator

Hysteresis between two monotone curves: an output is moved by the input only as far as
is needed to bring it back between the lower and the upper curve. An output between the
curves follows the direction of the input, and the operator is monotone in the whole
history, because the curves are monotone and the output is squeezed by lattice operations.
-/

namespace Library

universe u v

variable {ι : Type u} {α : Type v} [LinearOrder α]

def play (lower upper : ι → α) (x : ι) (s : α) : α := max (lower x) (min s (upper x))

def InBand (lower upper : ι → α) (x : ι) (s : α) : Prop := lower x ≤ s ∧ s ≤ upper x

variable {lower upper : ι → α} {x y : ι} {s t : α}

theorem play_inBand (h : lower x ≤ upper x) (s : α) :
    InBand lower upper x (play lower upper x s) :=
  ⟨le_max_left _ _, max_le h (min_le_right _ _)⟩

theorem play_of_inBand (h : InBand lower upper x s) : play lower upper x s = s := by
  rw [play, min_eq_left h.2, max_eq_right h.1]

variable [Preorder ι]

theorem play_of_rise (hUpper : Monotone upper) (h : InBand lower upper x s) (hxy : x ≤ y) :
    play lower upper y s = max s (lower y) := by
  rw [play, min_eq_left (h.2.trans (hUpper hxy)), max_comm]

theorem play_of_fall (hLower : Monotone lower) (hCurves : lower y ≤ upper y)
    (h : InBand lower upper x s) (hyx : y ≤ x) :
    play lower upper y s = min s (upper y) :=
  max_eq_right (le_min ((hLower hyx).trans h.1) hCurves)

theorem play_mono (hLower : Monotone lower) (hUpper : Monotone upper) (hxy : x ≤ y)
    (hst : s ≤ t) : play lower upper x s ≤ play lower upper y t :=
  max_le_max (hLower hxy) (min_le_min hst (hUpper hxy))

def playRun (lower upper : ι → α) (s : α) (xs : List ι) : α :=
  xs.foldl (fun s x => play lower upper x s) s

/-- Pointwise larger inputs give a larger output. -/
theorem playRun_mono (hLower : Monotone lower) (hUpper : Monotone upper) (hst : s ≤ t)
    {xs ys : List ι} (hInputs : List.Forall₂ (· ≤ ·) xs ys) :
    playRun lower upper s xs ≤ playRun lower upper t ys := by
  induction hInputs generalizing s t with
  | nil => exact hst
  | cons hxy _ ih => exact ih (play_mono hLower hUpper hxy hst)

end Library
