import Mbpfan.Library.Machine
import Mathlib.Data.List.Induction
import Mathlib.Data.List.ReduceOption
import Mathlib.Data.Multiset.AddSub
import Mathlib.Data.Multiset.Filter

/-!
# Descriptor tables

A process refers to its open streams by small numbers. A stream that is opened gets the
lowest number that is free, so where it lands depends on everything opened and closed
before it.
-/

namespace Library

universe u

/-- The streams by their descriptors; beyond the end of the list all are free. -/
abbrev Descriptors (α : Type u) := List (Option α)

inductive Call (α : Type u)
  | close (fd : ℕ)
  | openAs (stream : α)
  | release (stream : α)

namespace Descriptors

variable {α : Type u} {t : Descriptors α} {a b : α} {fd n : ℕ}

def entry (t : Descriptors α) (fd : ℕ) : Option α := t.getD fd none

def lowestFree : Descriptors α → ℕ
  | [] => 0
  | none :: _ => 0
  | some _ :: rest => lowestFree rest + 1

def place (a : α) : Descriptors α → Descriptors α
  | [] => [some a]
  | none :: rest => some a :: rest
  | some b :: rest => some b :: place a rest

def drop [DecidableEq α] (t : Descriptors α) (a : α) : Descriptors α :=
  t.map fun stream => if stream = some a then none else stream

theorem entry_lowestFree (t : Descriptors α) : t.entry t.lowestFree = none := by
  induction t with
  | nil => rfl
  | cons stream rest ih =>
    cases stream with
    | none => rfl
    | some b => exact ih

theorem entry_of_lt_lowestFree (h : fd < t.lowestFree) : t.entry fd ≠ none := by
  induction t generalizing fd with
  | nil => exact absurd h (Nat.not_lt_zero fd)
  | cons stream rest ih =>
    cases stream with
    | none => exact absurd h (Nat.not_lt_zero fd)
    | some b =>
      cases fd with
      | zero => exact Option.some_ne_none b
      | succ fd => exact ih (Nat.lt_of_succ_lt_succ h)

theorem lowestFree_eq (hFree : t.entry fd = none) (hUsed : ∀ d < fd, t.entry d ≠ none) :
    t.lowestFree = fd := by
  rcases Nat.lt_trichotomy t.lowestFree fd with hLt | hEq | hGt
  · exact absurd t.entry_lowestFree (hUsed _ hLt)
  · exact hEq
  · exact absurd hFree (entry_of_lt_lowestFree hGt)

theorem le_lowestFree (hUsed : ∀ d < n, t.entry d ≠ none) : n ≤ t.lowestFree :=
  Nat.not_lt.mp fun hLt => hUsed _ hLt t.entry_lowestFree

theorem entry_place (a : α) (t : Descriptors α) (fd : ℕ) :
    (t.place a).entry fd = if fd = t.lowestFree then some a else t.entry fd := by
  induction t generalizing fd with
  | nil => cases fd <;> rfl
  | cons stream rest ih =>
    cases stream with
    | none => cases fd <;> rfl
    | some b =>
      cases fd with
      | zero => rfl
      | succ fd => simpa [entry, place, lowestFree] using ih fd

theorem entry_place_of_used (h : t.entry fd ≠ none) : (t.place a).entry fd = t.entry fd := by
  rw [entry_place, if_neg]
  rintro rfl
  exact h t.entry_lowestFree

theorem entry_drop [DecidableEq α] (a : α) (t : Descriptors α) (fd : ℕ) :
    (t.drop a).entry fd = if t.entry fd = some a then none else t.entry fd := by
  unfold entry drop
  rw [List.getD_eq_getElem?_getD, List.getD_eq_getElem?_getD, List.getElem?_map]
  cases t[fd]? with
  | none => rfl
  | some stream => rfl

theorem entry_set_none (t : Descriptors α) (fd n : ℕ) :
    entry (t.set n none) fd = if fd = n then none else t.entry fd := by
  unfold entry
  rw [List.getD_eq_getElem?_getD, List.getD_eq_getElem?_getD, List.getElem?_set]
  by_cases hEq : fd = n
  · subst hEq
    rw [if_pos rfl, if_pos rfl]
    split_ifs <;> rfl
  · rw [if_neg fun h => hEq h.symm, if_neg hEq]

/-- Streams opened one after the other fill a free range from below. -/
theorem entry_foldl_place (hFree : ∀ fd < n, t.entry fd = none) (streams : List α) :
    ∀ fd < n, (streams.foldl (fun t a => t.place a) t).entry fd = streams[fd]? := by
  induction streams using List.reverseRecOn with
  | nil => simpa using hFree
  | append_singleton streams a ih =>
    intro fd hfd
    rw [List.foldl_append, List.foldl_cons, List.foldl_nil, entry_place, ih fd hfd]
    have hUsed : ∀ d < streams.length, d < n →
        (streams.foldl (fun t a => t.place a) t).entry d ≠ none := by
      intro d hd hdn
      rw [ih d hdn, List.getElem?_eq_getElem hd]
      exact Option.some_ne_none _
    rcases Nat.lt_or_ge streams.length n with hRoom | hFull
    · have hLowest : lowestFree (streams.foldl (fun t a => t.place a) t) = streams.length := by
        refine lowestFree_eq ?_ fun d hd => hUsed d hd (Nat.lt_trans hd hRoom)
        rw [ih _ hRoom, List.getElem?_eq_none (Nat.le_refl _)]
      rw [hLowest]
      split_ifs with hEq
      · rw [hEq, List.getElem?_append_right (Nat.le_refl _), Nat.sub_self]
        rfl
      · rcases Nat.lt_or_gt_of_ne hEq with hBelow | hBeyond
        · rw [List.getElem?_append_left hBelow]
        · rw [List.getElem?_eq_none (Nat.le_of_lt hBeyond), List.getElem?_eq_none]
          rw [List.length_append, List.length_singleton]
          exact hBeyond
    · have hAbove : n ≤ lowestFree (streams.foldl (fun t a => t.place a) t) :=
        le_lowestFree fun d hd => hUsed d (Nat.lt_of_lt_of_le hd hFull) hd
      rw [if_neg (Nat.ne_of_lt (Nat.lt_of_lt_of_le hfd hAbove)),
        List.getElem?_append_left (Nat.lt_of_lt_of_le hfd hFull)]

/-! ## What is open -/

/-- The open streams, whatever their descriptors. -/
def held (t : Descriptors α) : Multiset α := t.reduceOption

theorem held_cons_some (a : α) (rest : Descriptors α) :
    held (some a :: rest) = a ::ₘ held rest := by
  rw [held, List.reduceOption_cons_of_some]
  rfl

theorem held_cons_none (rest : Descriptors α) : held (none :: rest) = held rest := by
  rw [held, List.reduceOption_cons_of_none]
  rfl

theorem held_place (a : α) (t : Descriptors α) : (t.place a).held = a ::ₘ t.held := by
  induction t with
  | nil => rfl
  | cons stream rest ih =>
    cases stream with
    | none => rw [place, held_cons_some, held_cons_none]
    | some b => rw [place, held_cons_some, held_cons_some, ih, Multiset.cons_swap]

theorem held_drop [DecidableEq α] (a : α) (t : Descriptors α) : (t.drop a).held = t.held.filter (· ≠ a) := by
  induction t with
  | nil => rfl
  | cons stream rest ih =>
    rw [drop, List.map_cons]
    change held (_ :: drop rest a) = _
    cases stream with
    | none => rw [if_neg nofun, held_cons_none, held_cons_none, ih]
    | some b =>
      rw [held_cons_some]
      rcases eq_or_ne b a with rfl | hNe
      · rw [if_pos rfl, held_cons_none, ih]
        exact (Multiset.filter_cons_of_neg _ fun hSelf => hSelf rfl).symm
      · rw [if_neg (mt Option.some_inj.mp hNe), held_cons_some, ih]
        exact (Multiset.filter_cons_of_pos (p := (· ≠ a)) _ hNe).symm

end Descriptors

/-! ## Sequences of calls -/

variable {α : Type u} [DecidableEq α]

def Call.run (t : Descriptors α) : Call α → Descriptors α
  | .close fd => t.set fd none
  | .openAs a => t.place a
  | .release a => t.drop a

def callMachine (α : Type u) [DecidableEq α] : Machine (Descriptors α) (Call α) where
  step t c := some (c.run t)

def runCalls (t : Descriptors α) (calls : List (Call α)) : Descriptors α := calls.foldl Call.run t

variable {t : Descriptors α} {b : α} {fd : ℕ} {calls : List (Call α)}

theorem callMachine_run (t : Descriptors α) (calls : List (Call α)) :
    (callMachine α).run t calls = some (runCalls t calls) := by
  induction calls generalizing t with
  | nil => rfl
  | cons c calls ih => exact ih (c.run t)

theorem Call.entry_run (hUsed : t.entry fd = some b) {c : Call α} (hClose : c ≠ .close fd)
    (hRelease : c ≠ .release b) : (c.run t).entry fd = some b := by
  cases c with
  | close n =>
    rw [Call.run, Descriptors.entry_set_none, if_neg (fun h => hClose (congrArg Call.close h.symm)),
      hUsed]
  | openAs a =>
    rw [Call.run, Descriptors.entry_place_of_used (hUsed ▸ Option.some_ne_none b), hUsed]
  | release a =>
    rw [Call.run, Descriptors.entry_drop, hUsed, if_neg]
    exact fun h => hRelease (congrArg Call.release (Option.some_inj.mp h).symm)

/-- A stream keeps its descriptor as long as it is not closed. -/
theorem always_entry (hUsed : t.entry fd = some b)
    (hCalls : ∀ c ∈ calls, c ≠ .close fd ∧ c ≠ .release b) :
    (callMachine α).Always (fun t => t.entry fd = some b) t calls := by
  refine Machine.always_of_invariant (C := fun _ c _ => c ≠ .close fd ∧ c ≠ .release b) ?_ hUsed
    (Machine.eachStep_of_mem fun c hc _ _ => hCalls c hc)
  rintro t c _ hEntry hStep ⟨hClose, hRelease⟩
  exact Option.some_inj.mp hStep ▸ Call.entry_run hEntry hClose hRelease

/-! ## What the calls open -/

/-- From any table with `before` open the calls lead to one with `after` open. -/
def Leads (before : Multiset α) (calls : List (Call α)) (after : Multiset α) : Prop :=
  ∀ t : Descriptors α, t.held = before → (runCalls t calls).held = after

variable {before middle after : Multiset α} {a : α} {more : List (Call α)}

theorem Leads.nil : Leads before [] before := fun _ h => h

theorem Leads.append (h : Leads before calls middle) (hMore : Leads middle more after) :
    Leads before (calls ++ more) after := by
  intro t ht
  rw [runCalls, List.foldl_append]
  exact hMore _ (h t ht)

theorem leads_openAs (a : α) : Leads before [.openAs a] (a ::ₘ before) := by
  intro t ht
  exact ht ▸ Descriptors.held_place a t

theorem leads_release (a : α) : Leads before [.release a] (before.filter (· ≠ a)) := by
  intro t ht
  exact ht ▸ Descriptors.held_drop a t

/-- A stream that is open for the time of calls that leave everything as it is. -/
theorem Leads.within (ha : a ∉ before) (h : Leads (a ::ₘ before) calls (a ::ₘ before)) :
    Leads before (.openAs a :: calls ++ [.release a]) before := by
  have hClosed : (a ::ₘ before).filter (· ≠ a) = before := by
    rw [Multiset.filter_cons_of_neg before fun hSelf => hSelf rfl, Multiset.filter_eq_self]
    exact fun b hb hEq => ha (hEq ▸ hb)
  have hRelease : Leads (a ::ₘ before) [.release a] _ := leads_release a
  rw [hClosed] at hRelease
  exact ((leads_openAs a).append h).append hRelease

theorem Leads.flatMap {β : Type u} {f : β → List (Call α)} {xs : List β}
    (h : ∀ x ∈ xs, Leads before (f x) before) : Leads before (xs.flatMap f) before := by
  induction xs with
  | nil => exact .nil
  | cons x rest ih =>
    obtain ⟨hHead, hRest⟩ := List.forall_mem_cons.mp h
    rw [List.flatMap_cons]
    exact hHead.append (ih hRest)

theorem leads_openAll (streams : List α) :
    Leads before (streams.map .openAs) (before + streams) := by
  induction streams generalizing before with
  | nil =>
    rw [Multiset.coe_nil, Multiset.add_zero]
    exact .nil
  | cons a rest ih =>
    have hEq : a ::ₘ before + (rest : Multiset α) = before + (a :: rest : List α) := by
      rw [← Multiset.cons_coe, Multiset.add_cons, Multiset.cons_add]
    exact hEq ▸ (leads_openAs a).append ih

theorem leads_releaseAll (streams : List α) :
    Leads before (streams.map .release) (before.filter (· ∉ streams)) := by
  induction streams generalizing before with
  | nil => simpa using Leads.nil
  | cons a rest ih =>
    have hEq : (before.filter (· ≠ a)).filter (· ∉ rest) = before.filter (· ∉ a :: rest) := by
      rw [Multiset.filter_filter]
      exact Multiset.filter_congr fun b _ => by simp [and_comm]
    exact hEq ▸ (leads_release a).append ih

end Library
