import Mbpfan.Settings
import Mbpfan.Library.Upsert

/-!
# What the settings hold

The value of a key in a section, read through the list of sections, the bucket of the key and
the chain of the bucket. A put changes it for its own section and key, whatever else hashes
to the same bucket.
-/

namespace Mbpfan

open Library

variable {settings : Settings} {map : StrMap} {bucket : List Pair}
  {name key value name' key' : CString}

theorem putPair_eq_upsert (key value : CString) (bucket : List Pair) :
    putPair key value bucket =
      upsert (fun pair => pair.key = key) (fun pair => { pair with value := value }) ⟨key, value⟩
        bucket := by
  induction bucket with
  | nil => rfl
  | cons pair rest ih => simp only [putPair, upsert, ih, decide_eq_true_eq]

theorem putSection_eq_upsert (name key value : CString) (settings : Settings) :
    putSection name key value settings =
      upsert (fun s => s.name = name) (fun s => { s with map := smPut s.map key value })
        ⟨name, smPut (smNew defaultStrmapCapacity) key value⟩ settings := by
  induction settings with
  | nil => rfl
  | cons s rest ih => simp only [putSection, upsert, ih, decide_eq_true_eq]

/-! ## One map -/

def StrMap.lookup (map : StrMap) (key : CString) : Option CString :=
  (getPair (map.buckets.getD (bucketIndex map key) []) key).map Pair.value

theorem getPair_putPair_self (key value : CString) (bucket : List Pair) :
    (getPair (putPair key value bucket) key).map Pair.value = some value := by
  rw [getPair, putPair_eq_upsert, find?_upsert (by simp) (by simp)]
  cases bucket.find? fun pair => pair.key = key <;> rfl

theorem getPair_putPair_of_ne (h : key' ≠ key) (value : CString) (bucket : List Pair) :
    getPair (putPair key value bucket) key' = getPair bucket key' := by
  have hOther : ∀ pair : Pair, decide (pair.key = key) = true →
      decide (pair.key = key') = false := by
    intro pair hp
    rw [of_decide_eq_true hp]
    exact decide_eq_false h.symm
  rw [getPair, putPair_eq_upsert]
  apply find?_upsert_of_disjoint
  · exact decide_eq_false h.symm
  · exact hOther
  · exact hOther

@[simp] theorem bucketIndex_smPut (map : StrMap) (key value key' : CString) :
    bucketIndex (smPut map key value) key' = bucketIndex map key' := by
  simp [bucketIndex, smPut]

@[simp] theorem smPut_length (map : StrMap) (key value : CString) :
    (smPut map key value).buckets.length = map.buckets.length := by
  simp [smPut]

theorem lookup_smPut (hBuckets : 0 < map.buckets.length) (key value key' : CString) :
    (smPut map key value).lookup key' = if key' = key then some value else map.lookup key' := by
  have hIndex : bucketIndex map key < map.buckets.length := Nat.mod_lt _ hBuckets
  rw [StrMap.lookup, StrMap.lookup, bucketIndex_smPut]
  by_cases hBucket : bucketIndex map key' = bucketIndex map key
  · have hModified : (smPut map key value).buckets.getD (bucketIndex map key') [] =
        putPair key value (map.buckets.getD (bucketIndex map key') []) := by
      simp [smPut, hBucket, hIndex, List.getD_eq_getElem?_getD]
    rw [hModified]
    split_ifs with hKey
    · rw [hKey]
      exact getPair_putPair_self ..
    · rw [getPair_putPair_of_ne hKey]
  · have hKept : (smPut map key value).buckets.getD (bucketIndex map key') [] =
        map.buckets.getD (bucketIndex map key') [] := by
      simp [smPut, List.getD_eq_getElem?_getD, Ne.symm hBucket]
    rw [hKept, if_neg fun hKey => hBucket (congrArg _ hKey)]

theorem smGet_eq (map : StrMap) (key : CString) (size : ℕ) :
    smGet map key size = (map.lookup key).filter fun value => value.length < size := by
  rw [smGet, StrMap.lookup]
  cases getPair (map.buckets.getD (bucketIndex map key) []) key with
  | none => rfl
  | some pair =>
    dsimp only
    split_ifs with hLong
    · exact (if_neg (by simpa using hLong)).symm
    · exact (if_pos (by simpa using hLong)).symm

/-! ## All sections -/

def Settings.lookup (settings : Settings) (name key : CString) : Option CString :=
  (getSection settings name).bind fun s => s.map.lookup key

/-- Every map has its buckets. -/
def Allocated (settings : Settings) : Prop := ∀ s ∈ settings, 0 < s.map.buckets.length

theorem Allocated.putSection (h : Allocated settings) (name key value : CString) :
    Allocated (putSection name key value settings) := by
  rw [putSection_eq_upsert]
  refine forall_upsert ?_ (fun s hs => ?_) h
  · rw [smPut_length, smNew, List.length_replicate]
    decide
  · rwa [smPut_length]

theorem getSection_putSection_self (name key value : CString) (settings : Settings) :
    getSection (putSection name key value settings) name =
      some (((getSection settings name).map fun s => { s with map := smPut s.map key value }).getD
        ⟨name, smPut (smNew defaultStrmapCapacity) key value⟩) := by
  rw [getSection, putSection_eq_upsert, find?_upsert (by simp) (by simp)]
  rfl

theorem getSection_putSection_of_ne (h : name' ≠ name) (key value : CString)
    (settings : Settings) :
    getSection (putSection name key value settings) name' = getSection settings name' := by
  have hOther : ∀ s : Section, decide (s.name = name) = true → decide (s.name = name') = false := by
    intro s hs
    rw [of_decide_eq_true hs]
    exact decide_eq_false h.symm
  rw [getSection, putSection_eq_upsert]
  apply find?_upsert_of_disjoint
  · exact decide_eq_false h.symm
  · exact hOther
  · exact hOther

theorem lookup_smNew (capacity : ℕ) (key : CString) : (smNew capacity).lookup key = none := by
  have hEmpty : (List.replicate capacity ([] : List Pair)).getD (bucketIndex (smNew capacity) key)
      [] = [] := by
    rw [List.getD_eq_getElem?_getD, List.getElem?_replicate]
    split_ifs <;> rfl
  rw [StrMap.lookup, smNew]
  exact congrArg (fun bucket => (getPair bucket key).map Pair.value) hEmpty

theorem lookup_putSection (h : Allocated settings) (name key value name' key' : CString) :
    Settings.lookup (putSection name key value settings) name' key' =
      if name' = name ∧ key' = key then some value else Settings.lookup settings name' key' := by
  unfold Settings.lookup
  by_cases hName : name' = name
  · subst hName
    rw [getSection_putSection_self]
    cases hSection : getSection settings name' with
    | none =>
      have hNew : 0 < (smNew defaultStrmapCapacity).buckets.length := by
        rw [smNew, List.length_replicate]
        decide
      simp [lookup_smPut hNew, lookup_smNew]
    | some s =>
      have hBuckets := h s (List.mem_of_find?_eq_some hSection)
      simp [lookup_smPut hBuckets]
  · rw [getSection_putSection_of_ne hName, if_neg fun hBoth => hName hBoth.1]

theorem settingsGet_eq (settings : Settings) (name key : CString) (size : ℕ) :
    settingsGet settings name key size =
      (Settings.lookup settings name key).filter fun value => value.length < size := by
  rw [settingsGet, Settings.lookup]
  cases getSection settings name with
  | none => rfl
  | some s => exact smGet_eq s.map key size

end Mbpfan
