import Mathlib.Data.List.Infix
import Mathlib.Data.List.Induction

/-!
# A cell behind a cache that skips unchanged writes

Requests for values arrive one by one, and a write to the cell may fail. A plain controller
writes on every request. A cached one writes only a value that differs from the last one
requested, and takes a failed write for done. The two agree on runs in which a value is never
skipped while the cell holds another.
-/

namespace Library

universe u v

/-- A requested value. `written` tells whether a write attempted now succeeds. -/
structure Request (α : Type u) where
  value : α
  written : Bool

def Request.map {α : Type u} {β : Type v} (f : α → β) (r : Request α) : Request β :=
  ⟨f r.value, r.written⟩

structure Cached (α : Type u) where
  cached : α
  stored : α

variable {α : Type u} [DecidableEq α]

def Cached.request (c : Cached α) (r : Request α) : Cached α :=
  if c.cached = r.value then c else ⟨r.value, if r.written then r.value else c.stored⟩

def Cached.run (c : Cached α) (requests : List (Request α)) : Cached α :=
  requests.foldl Cached.request c

omit [DecidableEq α] in
/-- What the plain controller leaves in the cell: the last value whose write succeeds. -/
def plainRun (stored : α) (requests : List (Request α)) : α :=
  requests.foldl (fun stored r => if r.written then r.value else stored) stored

omit [DecidableEq α] in
def lastValue (value : α) (requests : List (Request α)) : α :=
  requests.foldl (fun _ r => r.value) value

/-- After each request for which a write would succeed the cell holds the requested value. -/
def Cached.Obeys (c : Cached α) (requests : List (Request α)) : Prop :=
  ∀ before r, before ++ [r] <+: requests → r.written = true →
    (c.run (before ++ [r])).stored = r.value

def Cached.AsPlain (c : Cached α) (requests : List (Request α)) : Prop :=
  ∀ before, before <+: requests → (c.run before).stored = plainRun c.stored before

omit [DecidableEq α] in
/-- A value that is requested again while writes succeed is the one a plain controller has
in the cell. -/
def Cached.Steady (c : Cached α) (requests : List (Request α)) : Prop :=
  ∀ before r, before ++ [r] <+: requests → r.written = true →
    lastValue c.cached before = r.value → plainRun c.stored before = r.value

variable {c : Cached α} {r : Request α} {requests : List (Request α)}

theorem Cached.run_concat : c.run (requests ++ [r]) = (c.run requests).request r :=
  List.foldl_concat _ _ _ _

omit [DecidableEq α] in
theorem plainRun_concat (stored : α) :
    plainRun stored (requests ++ [r]) = if r.written then r.value else plainRun stored requests :=
  List.foldl_concat _ _ _ _

theorem Cached.request_cached : (c.request r).cached = r.value := by
  by_cases hSame : c.cached = r.value
  · rw [Cached.request, if_pos hSame, hSame]
  · rw [Cached.request, if_neg hSame]

theorem Cached.request_stored_of_eq (h : c.cached = r.value) :
    (c.request r).stored = c.stored := by
  rw [Cached.request, if_pos h]

theorem Cached.request_stored_of_ne (h : c.cached ≠ r.value) :
    (c.request r).stored = if r.written then r.value else c.stored := by
  rw [Cached.request, if_neg h]

theorem Cached.run_cached : (c.run requests).cached = lastValue c.cached requests := by
  induction requests using List.reverseRecOn with
  | nil => rfl
  | append_singleton requests r _ =>
    rw [Cached.run_concat, Cached.request_cached, lastValue, List.foldl_concat]

omit [DecidableEq α] in
theorem forall_prefix_concat {P : List (Request α) → Request α → Prop} :
    (∀ before next, before ++ [next] <+: requests ++ [r] → P before next) ↔
      P requests r ∧ ∀ before next, before ++ [next] <+: requests → P before next := by
  constructor
  · intro h
    exact ⟨h requests r List.prefix_rfl, fun before next hPrefix =>
      h before next (hPrefix.trans (List.prefix_append requests [r]))⟩
  · rintro ⟨hLast, hRest⟩ before next hPrefix
    rcases List.prefix_concat_iff.mp hPrefix with hEq | hShorter
    · obtain ⟨rfl, hNext⟩ := List.append_inj' hEq rfl
      cases hNext
      exact hLast
    · exact hRest before next hShorter

omit [DecidableEq α] in
theorem forall_prefix_map {β : Type v} {f : β → α} {requests : List (Request β)}
    {P : List (Request α) → Prop} :
    (∀ before, before <+: requests.map (Request.map f) → P before) ↔
      ∀ before, before <+: requests → P (before.map (Request.map f)) := by
  constructor
  · intro h before hPrefix
    exact h _ (hPrefix.map _)
  · intro h before hPrefix
    obtain ⟨origin, hOrigin, rfl⟩ := List.prefix_map_iff.mp hPrefix
    exact h origin hOrigin

omit [DecidableEq α] in
theorem forall_prefix_concat_map {β : Type v} {f : β → α} {requests : List (Request β)}
    {P : List (Request α) → Request α → Prop} :
    (∀ before next, before ++ [next] <+: requests.map (Request.map f) → P before next) ↔
      ∀ before next, before ++ [next] <+: requests →
        P (before.map (Request.map f)) (next.map f) := by
  constructor
  · intro h before next hPrefix
    exact h _ _ (by simpa using hPrefix.map (Request.map f))
  · intro h before next hPrefix
    obtain ⟨origin, hOrigin, hMap⟩ := List.prefix_map_iff.mp hPrefix
    obtain ⟨l, last, rfl, rfl, hLast⟩ := List.map_eq_append_iff.mp hMap.symm
    obtain ⟨r, rfl, rfl⟩ := List.map_eq_singleton_iff.mp hLast
    exact h l r hOrigin

theorem Cached.Steady.run_stored (h : c.Steady requests) :
    (c.run requests).stored = plainRun c.stored requests := by
  induction requests using List.reverseRecOn with
  | nil => rfl
  | append_singleton requests r ih =>
    obtain ⟨hLast, hBefore⟩ := forall_prefix_concat.mp h
    have hStored := ih hBefore
    rw [Cached.run_concat, plainRun_concat]
    by_cases hSame : (c.run requests).cached = r.value
    · rw [Cached.request_stored_of_eq hSame, hStored]
      rw [Cached.run_cached] at hSame
      split_ifs with hWritten
      · exact hLast hWritten hSame
      · rfl
    · rw [Cached.request_stored_of_ne hSame, hStored]

theorem Cached.AsPlain.obeys (h : c.AsPlain requests) : c.Obeys requests := by
  intro before r hPrefix hWritten
  rw [h (before ++ [r]) hPrefix, plainRun_concat, if_pos hWritten]

/-- A cached value whose write failed is what the cached controller cannot see. -/
theorem Cached.Obeys.steady (h : c.Obeys requests) : c.Steady requests := by
  induction requests using List.reverseRecOn with
  | nil => exact fun before r hPrefix => absurd (List.prefix_nil.mp hPrefix) (by simp)
  | append_singleton requests r ih =>
    obtain ⟨hLast, hBefore⟩ := forall_prefix_concat.mp h
    have hSteady := ih hBefore
    refine forall_prefix_concat.mpr ⟨fun hWritten hSame => ?_, hSteady⟩
    have hStored := hLast hWritten
    rw [Cached.run_concat, Cached.request_stored_of_eq (by rw [Cached.run_cached, hSame]),
      hSteady.run_stored] at hStored
    exact hStored

theorem Cached.Steady.asPlain (h : c.Steady requests) : c.AsPlain requests := by
  intro before hBefore
  have hSteady : c.Steady before := fun first r hPrefix => h first r (hPrefix.trans hBefore)
  exact hSteady.run_stored

/-- The two laws of a cache say the same. -/
theorem Cached.obeys_and_asPlain_iff (c : Cached α) (requests : List (Request α)) :
    c.Obeys requests ∧ c.AsPlain requests ↔ c.Steady requests :=
  ⟨fun h => h.1.steady, fun h => ⟨h.asPlain.obeys, h.asPlain⟩⟩

end Library
