import Mbpfan.Library.Upsert
import Mathlib.Data.List.Nodup
import Mathlib.Data.List.Range

/-!
# Hash tables with chains

The entries of a table are spread over a list of buckets by the slots of their keys. Every
entry stands in the bucket of its slot, no key stands there twice, and a put keeps it that
way. Such a table is told by the list of its entries: putting them one by one into an empty
table gives the table back.
-/

namespace Library

universe u v

variable {α : Type u} {κ : Type v}

structure Placed (key : α → κ) (slot : κ → ℕ) (buckets : List (List α)) : Prop where
  inSlot : ∀ i bucket, buckets[i]? = some bucket → ∀ a ∈ bucket, slot (key a) = i
  once : ∀ bucket ∈ buckets, (bucket.map key).Nodup

variable {key : α → κ} {slot : κ → ℕ} {buckets : List (List α)} {a : α}

theorem placed_replicate (n : ℕ) : Placed key slot (List.replicate n []) where
  inSlot i bucket hBucket a ha := by
    rw [(List.mem_replicate.mp (List.mem_of_getElem? hBucket)).2] at ha
    cases ha
  once bucket hBucket := by
    rw [(List.mem_replicate.mp hBucket).2]
    exact List.nodup_nil

/-! ## The entries of a table -/

theorem Placed.mem_flatten_iff (h : Placed key slot buckets) :
    a ∈ buckets.flatten ↔ a ∈ buckets.getD (slot (key a)) [] := by
  rw [List.mem_flatten, List.getD_eq_getElem?_getD]
  constructor
  · rintro ⟨bucket, hBucket, ha⟩
    obtain ⟨i, hi⟩ := List.mem_iff_getElem?.mp hBucket
    rw [h.inSlot i bucket hi a ha, hi]
    exact ha
  · intro ha
    cases hBucket : buckets[slot (key a)]? with
    | none => simp [hBucket] at ha
    | some bucket => exact ⟨bucket, List.mem_of_getElem? hBucket, by simpa [hBucket] using ha⟩

theorem Placed.nodup (h : Placed key slot buckets) : (buckets.flatten.map key).Nodup := by
  rw [List.map_flatten, List.nodup_flatten]
  refine ⟨List.forall_mem_map.mpr h.once, List.pairwise_map.mpr ?_⟩
  rw [List.pairwise_iff_getElem]
  intro i j hi hj hLess
  rw [List.disjoint_left]
  intro k hLeft hRight
  obtain ⟨a, ha, rfl⟩ := List.mem_map.mp hLeft
  obtain ⟨b, hb, hSame⟩ := List.mem_map.mp hRight
  have hFirst := h.inSlot i _ (List.getElem?_eq_getElem hi) a ha
  have hSecond := h.inSlot j _ (List.getElem?_eq_getElem hj) b hb
  rw [hSame, hFirst] at hSecond
  exact hLess.ne hSecond

/-- The table read from an offset on. -/
theorem filter_flatten {k : ℕ}
    (h : ∀ j bucket, buckets[j]? = some bucket → ∀ a ∈ bucket, slot (key a) = k + j) (i : ℕ) :
    buckets.flatten.filter (fun a => slot (key a) = k + i) = buckets.getD i [] := by
  induction buckets generalizing k i with
  | nil => rfl
  | cons bucket rest ih =>
    have hHere : ∀ a ∈ bucket, slot (key a) = k := h 0 bucket rfl
    have hRest : ∀ j b, rest[j]? = some b → ∀ a ∈ b, slot (key a) = k + 1 + j := by
      intro j b hb a ha
      rw [Nat.add_assoc, Nat.add_comm 1 j]
      exact h (j + 1) b hb a ha
    rw [List.flatten_cons, List.filter_append]
    cases i with
    | zero =>
      have hWhole : bucket.filter (fun a => slot (key a) = k + 0) = bucket :=
        List.filter_eq_self.mpr fun a ha => decide_eq_true (hHere a ha)
      have hNothing : rest.flatten.filter (fun a => slot (key a) = k + 0) = [] := by
        rw [List.filter_eq_nil_iff]
        intro a ha hSlot
        obtain ⟨b, hb, haIn⟩ := List.mem_flatten.mp ha
        obtain ⟨j, hj⟩ := List.mem_iff_getElem?.mp hb
        have hLater := hRest j b hj a haIn
        have hNow := of_decide_eq_true hSlot
        omega
      rw [hWhole, hNothing, List.append_nil, List.getD_cons_zero]
    | succ i =>
      have hNothing : bucket.filter (fun a => slot (key a) = k + (i + 1)) = [] := by
        rw [List.filter_eq_nil_iff]
        intro a ha hSlot
        have hNow := of_decide_eq_true hSlot
        have hSlotHere := hHere a ha
        omega
      have hShift : k + (i + 1) = k + 1 + i := by omega
      rw [hNothing, List.nil_append, List.getD_cons_succ, hShift]
      exact ih hRest i

variable [DecidableEq κ]

theorem find?_eq_some_iff_of_nodup {l : List α} (h : (l.map key).Nodup) {k : κ} :
    l.find? (fun a => key a = k) = some a ↔ a ∈ l ∧ key a = k := by
  constructor
  · intro hFind
    have hKey : key a = k := by simpa using List.find?_some hFind
    exact ⟨List.mem_of_find?_eq_some hFind, hKey⟩
  · rintro ⟨ha, rfl⟩
    have hFound : (l.find? fun b => key b = key a).isSome :=
      List.find?_isSome.mpr ⟨a, ha, decide_eq_true rfl⟩
    obtain ⟨b, hFind⟩ := Option.isSome_iff_exists.mp hFound
    have hSame : key b = key a := by simpa using List.find?_some hFind
    rw [hFind, List.inj_on_of_nodup_map h (List.mem_of_find?_eq_some hFind) ha hSame]

/-- A search in the chain of a key finds the entry of the table that has the key. -/
theorem Placed.find?_eq_some_iff (h : Placed key slot buckets) {k : κ} :
    (buckets.getD (slot k) []).find? (fun a => key a = k) = some a ↔
      a ∈ buckets.flatten ∧ key a = k := by
  have hOnce : ((buckets.getD (slot k) []).map key).Nodup := by
    rw [List.getD_eq_getElem?_getD]
    cases hBucket : buckets[slot k]? with
    | none => exact List.nodup_nil
    | some bucket => exact h.once bucket (List.mem_of_getElem? hBucket)
  rw [find?_eq_some_iff_of_nodup hOnce]
  refine and_congr_left fun hKey => ?_
  rw [h.mem_flatten_iff, hKey]

/-! ## Putting entries -/

/-- The entry with the key of `new` is changed, or `new` is appended to its chain. -/
def putEntry (key : α → κ) (slot : κ → ℕ) (change : α → α → α) (buckets : List (List α))
    (new : α) : List (List α) :=
  buckets.modify (slot (key new)) (upsert (fun a => key a = key new) (change new) new)

variable {change : α → α → α} {new : α} {l : List α}

@[simp] theorem length_putEntry :
    (putEntry key slot change buckets new).length = buckets.length := by
  simp [putEntry]

theorem getElem?_putEntry_self :
    (putEntry key slot change buckets new)[slot (key new)]? =
      (buckets[slot (key new)]?).map (upsert (fun a => key a = key new) (change new) new) := by
  simp [putEntry]

theorem getElem?_putEntry_of_ne {i : ℕ} (h : i ≠ slot (key new)) :
    (putEntry key slot change buckets new)[i]? = buckets[i]? := by
  simp [putEntry, Ne.symm h]

theorem map_key_upsert (hChange : ∀ a b, key (change b a) = key a) (bucket : List α) :
    (upsert (fun a => key a = key new) (change new) new bucket).map key =
      if key new ∈ bucket.map key then bucket.map key else bucket.map key ++ [key new] := by
  induction bucket with
  | nil => simp [upsert]
  | cons a rest ih =>
    rw [upsert]
    rcases eq_or_ne (key a) (key new) with hSame | hSame
    · simp [hSame, hChange]
    · simp only [hSame, decide_false, Bool.false_eq_true, if_false, List.map_cons, ih,
        List.mem_cons, Ne.symm hSame, false_or]
      split_ifs <;> rfl

theorem nodup_upsert (hChange : ∀ a b, key (change b a) = key a) {bucket : List α}
    (h : (bucket.map key).Nodup) :
    ((upsert (fun a => key a = key new) (change new) new bucket).map key).Nodup := by
  rw [map_key_upsert hChange]
  split_ifs with hMem
  · exact h
  · exact h.append (List.nodup_singleton _) (by simpa using hMem)

theorem Placed.put (h : Placed key slot buckets) (hChange : ∀ a b, key (change b a) = key a) :
    Placed key slot (putEntry key slot change buckets new) where
  inSlot i bucket hBucket := by
    rcases eq_or_ne i (slot (key new)) with rfl | hNe
    · rw [getElem?_putEntry_self] at hBucket
      obtain ⟨old, hOld, rfl⟩ := Option.map_eq_some_iff.mp hBucket
      refine forall_upsert (P := fun a => slot (key a) = slot (key new)) rfl (fun a ha => ?_)
        (h.inSlot _ old hOld)
      rw [hChange, ha]
    · rw [getElem?_putEntry_of_ne hNe] at hBucket
      exact h.inSlot i bucket hBucket
  once bucket hBucket := by
    obtain ⟨i, hi⟩ := List.mem_iff_getElem?.mp hBucket
    rcases eq_or_ne i (slot (key new)) with rfl | hNe
    · rw [getElem?_putEntry_self] at hi
      obtain ⟨old, hOld, rfl⟩ := Option.map_eq_some_iff.mp hi
      exact nodup_upsert hChange (h.once old (List.mem_of_getElem? hOld))
    · rw [getElem?_putEntry_of_ne hNe] at hi
      exact h.once bucket (List.mem_of_getElem? hi)

/-! ## A table from the list of its entries -/

/-- Entries with different keys are appended, each to the chain of its slot. -/
theorem foldl_putEntry (n : ℕ) (h : (l.map key).Nodup) :
    l.foldl (putEntry key slot change) (List.replicate n []) =
      (List.range n).map fun i => l.filter fun a => slot (key a) = i := by
  induction l using List.reverseRecOn with
  | nil => simp
  | append_singleton l new ih =>
    rw [List.map_append, List.nodup_append] at h
    have hNew : ∀ a ∈ l, key a ≠ key new := fun a ha =>
      h.2.2 (key a) (List.mem_map_of_mem ha) (key new) (List.mem_singleton_self _)
    have hAppend : ∀ l', (∀ a ∈ l', a ∈ l) →
        upsert (fun a => key a = key new) (change new) new l' = l' ++ [new] := fun l' hSub =>
      upsert_of_forall_not fun a ha => decide_eq_false (hNew a (hSub a ha))
    rw [List.foldl_concat, ih h.1, putEntry]
    apply List.ext_getElem?
    intro i
    rw [List.getElem?_modify, List.getElem?_map, List.getElem?_map]
    by_cases hi : i < n
    · rw [List.getElem?_range hi, Option.map_some, Option.map_some, Option.map_eq_map,
        Option.map_some, List.filter_append]
      split_ifs with hSlot
      · rw [hAppend _ fun a ha => List.mem_of_mem_filter ha]
        simp [hSlot]
      · simp [hSlot]
    · rw [List.getElem?_eq_none (by simpa using hi)]
      rfl

/-- A table is what its entries lead to. -/
theorem Placed.foldl_flatten (h : Placed key slot buckets) :
    buckets.flatten.foldl (putEntry key slot change) (List.replicate buckets.length []) =
      buckets := by
  rw [foldl_putEntry _ h.nodup]
  apply List.ext_getElem?
  intro i
  have hBucket : buckets.flatten.filter (fun a => slot (key a) = 0 + i) = buckets.getD i [] :=
    filter_flatten (by simpa using h.inSlot) i
  rw [Nat.zero_add] at hBucket
  by_cases hi : i < buckets.length
  · rw [List.getElem?_map, List.getElem?_range hi, Option.map_some, hBucket,
      List.getD_eq_getElem?_getD, List.getElem?_eq_getElem hi, Option.getD_some]
  · rw [List.getElem?_eq_none (by simpa using hi), List.getElem?_eq_none (not_lt.mp hi)]

end Library
