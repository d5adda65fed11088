import Mbpfan.Library.Buckets
import Mbpfan.Language
import Mathlib.Data.Set.Card

/-!
# The settings as a store

The rest of the interface of `strmap.c` and `settings.c`: existence, sizes, counts and
enumeration. After any calls of `settings_set` the settings are a finite map from sections and
keys to values, each association being counted and enumerated once, whatever the hash function
does with the keys.
-/

namespace Mbpfan

open Library

/-! ## strmap.c -/

/-- `sm_get` without a buffer: the bytes the value and its NUL take, 0 without a value. -/
def smGetSize (map : StrMap) (key : CString) : CInt :=
  match getPair (map.buckets.getD (bucketIndex map key) []) key with
  | none => CInt.zero
  | some pair => CInt.wrap (pair.value.length + 1)

def smExists (map : StrMap) (key : CString) : Bool :=
  (getPair (map.buckets.getD (bucketIndex map key) []) key).isSome

/-- The pairs are counted in an `unsigned int`. -/
def smGetCount (map : StrMap) : CInt :=
  CInt.wrap (map.buckets.foldl (fun count bucket => bucket.foldl (fun count _ => count + 1) count)
    (0 : UInt32)).toNat

/-- `obj` is what the callback reads and writes. -/
def smEnum {σ : Type} (map : StrMap) (enumFunc : CString → CString → σ → σ) (obj : σ) : σ :=
  map.buckets.foldl
    (fun obj bucket => bucket.foldl (fun obj pair => enumFunc pair.key pair.value obj) obj) obj

/-! ## settings.c -/

def settingsGetSize (settings : Settings) (sectionName key : CString) : CInt :=
  match getSection settings sectionName with
  | none => CInt.zero
  | some s => smGetSize s.map key

def settingsSectionGetCount (settings : Settings) (sectionName : CString) : CInt :=
  match getSection settings sectionName with
  | none => CInt.zero
  | some s => smGetCount s.map

def settingsSectionEnum {σ : Type} (settings : Settings) (sectionName : CString)
    (enumFunc : CString → CString → σ → σ) (obj : σ) : σ :=
  match getSection settings sectionName with
  | none => obj
  | some s => smEnum s.map enumFunc obj

/-- Calls of `settings_set`, of which a refused one leaves the settings as they are. -/
def settingsSetAll (settings : Settings) (calls : List Assignment) : Settings :=
  calls.foldl (fun settings a => (settingsSet settings a.sectionName a.key a.value).getD settings)
    settings

/-! ## What the settings stand for -/

/-- The value of a key in a section, if it has one. -/
abbrev Contents := CString → CString → Option CString

def Contents.set (contents : Contents) (a : Assignment) : Contents := fun name key =>
  if name = a.sectionName ∧ key = a.key then some a.value else contents name key

/-- A section without a name takes no keys. -/
def contentsAfter (calls : List Assignment) : Contents :=
  calls.foldl (fun contents a => if a.sectionName = [] then contents else contents.set a)
    fun _ _ => none

structure Implements (settings : Settings) (contents : Contents) : Prop where
  get : ∀ name key size,
    settingsGet settings name key size = (contents name key).filter fun value => value.length < size
  size : ∀ name key, settingsGetSize settings name key =
    ((contents name key).map fun value => CInt.wrap (value.length + 1)).getD CInt.zero
  present : ∀ s ∈ settings, ∀ key, smExists s.map key = (contents s.name key).isSome
  count : ∀ name, settingsSectionGetCount settings name =
    CInt.wrap {key | (contents name key).isSome}.ncard
  /-- The callback is called once for every association. -/
  enum : ∀ name, ∃ pairs : List (CString × CString), pairs.Nodup ∧
    (∀ key value, (key, value) ∈ pairs ↔ contents name key = some value) ∧
    ∀ (σ : Type) (enumFunc : CString → CString → σ → σ) (obj : σ),
      settingsSectionEnum settings name enumFunc obj =
        pairs.foldl (fun obj pair => enumFunc pair.1 pair.2 obj) obj

variable {settings : Settings} {map : StrMap} {name key value : CString}

/-! ## One map -/

def StrMap.pairs (map : StrMap) : List Pair := map.buckets.flatten

def slot (count : ℕ) (key : CString) : ℕ := (hash key).toNat % count

def Pair.replace (new old : Pair) : Pair := { old with value := new.value }

structure StrMap.Valid (map : StrMap) : Prop where
  allocated : 0 < map.buckets.length
  placed : Placed Pair.key (slot map.buckets.length) map.buckets

theorem smPut_eq (map : StrMap) (pair : Pair) :
    smPut map pair.key pair.value =
      ⟨putEntry Pair.key (slot map.buckets.length) Pair.replace map.buckets pair⟩ := by
  have hUpsert : putPair pair.key pair.value =
      upsert (fun old => old.key = pair.key) pair.replace pair :=
    funext fun bucket => putPair_eq_upsert pair.key pair.value bucket
  rw [smPut, hUpsert]
  rfl

theorem StrMap.Valid.put (h : map.Valid) (pair : Pair) : (smPut map pair.key pair.value).Valid where
  allocated := by
    rw [smPut_length]
    exact h.allocated
  placed := by
    rw [smPut_length, smPut_eq]
    exact h.placed.put fun _ _ => rfl

theorem smNew_valid {capacity : ℕ} (h : 0 < capacity) : (smNew capacity).Valid where
  allocated := by simpa [smNew] using h
  placed := placed_replicate capacity

theorem StrMap.Valid.getPair_eq_some_iff (h : map.Valid) {pair : Pair} :
    getPair (map.buckets.getD (bucketIndex map key) []) key = some pair ↔
      pair ∈ map.pairs ∧ pair.key = key :=
  h.placed.find?_eq_some_iff

theorem StrMap.Valid.lookup_eq_some_iff (h : map.Valid) {value : CString} :
    map.lookup key = some value ↔ ⟨key, value⟩ ∈ map.pairs := by
  rw [StrMap.lookup, Option.map_eq_some_iff]
  constructor
  · rintro ⟨pair, hPair, rfl⟩
    obtain ⟨hMem, rfl⟩ := h.getPair_eq_some_iff.mp hPair
    exact hMem
  · intro hMem
    exact ⟨⟨key, value⟩, h.getPair_eq_some_iff.mpr ⟨hMem, rfl⟩, rfl⟩

theorem smExists_eq (map : StrMap) (key : CString) : smExists map key = (map.lookup key).isSome := by
  rw [smExists, StrMap.lookup, Option.isSome_map]

theorem smGetSize_eq (map : StrMap) (key : CString) :
    smGetSize map key =
      ((map.lookup key).map fun value => CInt.wrap (value.length + 1)).getD CInt.zero := by
  rw [smGetSize, StrMap.lookup]
  cases getPair (map.buckets.getD (bucketIndex map key) []) key <;> rfl

theorem smEnum_eq {σ : Type} (map : StrMap) (enumFunc : CString → CString → σ → σ) (obj : σ) :
    smEnum map enumFunc obj =
      map.pairs.foldl (fun obj pair => enumFunc pair.key pair.value obj) obj :=
  List.foldl_flatten.symm

theorem wrap_emod (n : ℕ) : CInt.wrap ((n % 4294967296 : ℕ) : ℤ) = CInt.wrap n := by
  apply Subtype.ext
  simp only [CInt.wrap]
  omega

theorem foldl_count (l : List Pair) (count : UInt32) :
    l.foldl (fun count _ => count + 1) count = count + UInt32.ofNat l.length := by
  induction l generalizing count with
  | nil => simp
  | cons pair rest ih =>
    rw [List.foldl_cons, ih, List.length_cons, UInt32.ofNat_add, UInt32.add_assoc,
      UInt32.add_comm (UInt32.ofNat rest.length)]
    rfl

theorem smGetCount_eq (map : StrMap) : smGetCount map = CInt.wrap map.pairs.length := by
  rw [smGetCount, ← List.foldl_flatten, foldl_count, UInt32.zero_add, UInt32.toNat_ofNat']
  exact wrap_emod _

/-! ## All sections -/

structure Section.Valid (s : Section) : Prop where
  capacity : s.map.buckets.length = defaultStrmapCapacity
  placed : Placed Pair.key (slot defaultStrmapCapacity) s.map.buckets
  inhabited : s.map.pairs ≠ []

structure Settings.Valid (settings : Settings) : Prop where
  names : (settings.map Section.name).Nodup
  sections : ∀ s ∈ settings, s.Valid

theorem defaultStrmapCapacity_pos : 0 < defaultStrmapCapacity := by decide

theorem Section.Valid.mapValid {s : Section} (h : s.Valid) : s.map.Valid where
  allocated := by
    rw [h.capacity]
    exact defaultStrmapCapacity_pos
  placed := by
    rw [h.capacity]
    exact h.placed

theorem StrMap.Valid.section_put (h : map.Valid) (hCapacity : map.buckets.length = defaultStrmapCapacity)
    (name : CString) (pair : Pair) : (⟨name, smPut map pair.key pair.value⟩ : Section).Valid where
  capacity := by rw [smPut_length, hCapacity]
  placed := by
    have hPlaced := (h.put pair).placed
    rwa [smPut_length, hCapacity] at hPlaced
  inhabited := by
    have hLookup := lookup_smPut h.allocated pair.key pair.value pair.key
    rw [if_pos rfl, (h.put pair).lookup_eq_some_iff] at hLookup
    exact List.ne_nil_of_mem hLookup

theorem Settings.Valid.put (h : settings.Valid) (a : Assignment) : Settings.Valid (a.put settings) where
  names := by
    let fresh : Section := ⟨a.sectionName, smPut (smNew defaultStrmapCapacity) a.key a.value⟩
    have hName : ∀ s _ : Section, ({ s with map := smPut s.map a.key a.value } : Section).name =
        s.name := fun _ _ => rfl
    have hNames : ((upsert (fun s => s.name = fresh.name)
        (fun s => { s with map := smPut s.map a.key a.value }) fresh settings).map
          Section.name).Nodup := nodup_upsert hName h.names
    rw [Assignment.put, putSection_eq_upsert]
    exact hNames
  sections := by
    rw [Assignment.put, putSection_eq_upsert]
    refine forall_upsert ?_ (fun s hs => ?_) h.sections
    · exact (smNew_valid defaultStrmapCapacity_pos).section_put (by simp [smNew]) _ ⟨a.key, a.value⟩
    · exact hs.mapValid.section_put hs.capacity s.name ⟨a.key, a.value⟩

theorem Settings.Valid.foldl_put (h : settings.Valid) (as : List Assignment) :
    Settings.Valid (as.foldl Assignment.put settings) := by
  induction as generalizing settings with
  | nil => exact h
  | cons a as ih => exact ih (h.put a)

theorem Settings.Valid.allocated (h : settings.Valid) : Allocated settings :=
  fun s hs => (h.sections s hs).mapValid.allocated

theorem nil_valid : Settings.Valid [] := ⟨List.nodup_nil, by simp⟩

theorem StrMap.Valid.ncard_keys (h : map.Valid) :
    {key | (map.lookup key).isSome}.ncard = map.pairs.length := by
  have hKeys : {key | (map.lookup key).isSome} = ((map.pairs.map Pair.key).toFinset : Set CString) := by
    ext key
    simp only [Set.mem_ofPred_eq, Option.isSome_iff_exists, h.lookup_eq_some_iff, List.coe_toFinset,
      List.mem_map]
    constructor
    · rintro ⟨value, hMem⟩
      exact ⟨⟨key, value⟩, hMem, rfl⟩
    · rintro ⟨pair, hMem, rfl⟩
      exact ⟨pair.value, hMem⟩
  have hOnce : (map.pairs.map Pair.key).Nodup := h.placed.nodup
  rw [hKeys, Set.ncard_coe_finset, List.toFinset_card_of_nodup hOnce, List.length_map]

theorem Settings.Valid.getSection_eq_some (h : settings.Valid) {s : Section} (hs : s ∈ settings) :
    getSection settings s.name = some s :=
  (find?_eq_some_iff_of_nodup h.names).mpr ⟨hs, rfl⟩

/-- Settings that are valid stand for what can be looked up in them. -/
theorem Settings.Valid.implements (h : settings.Valid) :
    Implements settings (Settings.lookup settings) where
  get name key size := settingsGet_eq settings name key size
  size name key := by
    rw [settingsGetSize, Settings.lookup]
    cases getSection settings name with
    | none => rfl
    | some s => exact smGetSize_eq s.map key
  present s hs key := by
    have hSection : getSection settings s.name = some s := h.getSection_eq_some hs
    rw [smExists_eq, Settings.lookup, hSection]
    rfl
  count name := by
    simp only [settingsSectionGetCount, Settings.lookup]
    cases hSection : getSection settings name with
    | none => simp; rfl
    | some s =>
      have hMap := (h.sections s (List.mem_of_find?_eq_some hSection)).mapValid
      exact (smGetCount_eq s.map).trans (congrArg (fun n : ℕ => CInt.wrap n) hMap.ncard_keys.symm)
  enum name := by
    simp only [settingsSectionEnum, Settings.lookup]
    cases hSection : getSection settings name with
    | none => exact ⟨[], List.nodup_nil, by simp, fun σ enumFunc obj => rfl⟩
    | some s =>
      have hMap := (h.sections s (List.mem_of_find?_eq_some hSection)).mapValid
      refine ⟨s.map.pairs.map fun pair => (pair.key, pair.value), ?_, fun key value => ?_, ?_⟩
      · have hOnce : (s.map.pairs.map Pair.key).Nodup := hMap.placed.nodup
        refine List.Nodup.of_map Prod.fst ?_
        rwa [List.map_map]
      · refine Iff.trans ?_ hMap.lookup_eq_some_iff.symm
        constructor
        · intro hMem
          obtain ⟨pair, hPair, hEq⟩ := List.mem_map.mp hMem
          cases hEq
          exact hPair
        · exact fun hMem => List.mem_map.mpr ⟨⟨key, value⟩, hMem, rfl⟩
      · intro σ enumFunc obj
        rw [List.foldl_map]
        exact smEnum_eq s.map enumFunc obj

/-! ## All associations -/

def Section.assignments (s : Section) : List Assignment :=
  s.map.pairs.map fun pair => ⟨s.name, pair.key, pair.value⟩

/-- The associations in the order in which they are enumerated. -/
def Settings.assignments (settings : Settings) : List Assignment :=
  settings.flatMap Section.assignments

theorem Settings.Valid.lookup_eq_some_iff (h : settings.Valid) {a : Assignment} :
    Settings.lookup settings a.sectionName a.key = some a.value ↔
      a ∈ Settings.assignments settings := by
  rw [Settings.lookup, Option.bind_eq_some_iff, Settings.assignments, List.mem_flatMap]
  apply exists_congr
  intro s
  constructor
  · rintro ⟨hSection, hLookup⟩
    have hs : s ∈ settings := List.mem_of_find?_eq_some hSection
    have hName : s.name = a.sectionName := by simpa using List.find?_some hSection
    have hPair := (h.sections s hs).mapValid.lookup_eq_some_iff.mp hLookup
    exact ⟨hs, List.mem_map.mpr ⟨_, hPair, by rw [hName]⟩⟩
  · rintro ⟨hs, hMem⟩
    obtain ⟨pair, hPair, rfl⟩ := List.mem_map.mp hMem
    exact ⟨h.getSection_eq_some hs, (h.sections s hs).mapValid.lookup_eq_some_iff.mpr hPair⟩

theorem put_append {acc : Settings} {a : Assignment} (hNew : a.sectionName ∉ acc.map Section.name)
    (settings : Settings) : a.put (acc ++ settings) = acc ++ a.put settings := by
  rw [Assignment.put, Assignment.put, putSection_eq_upsert, putSection_eq_upsert]
  apply upsert_append
  exact fun s hs => decide_eq_false fun hEq => hNew (List.mem_map.mpr ⟨s, hs, hEq⟩)

/-- The pairs of one section go into its map, behind the other sections. -/
theorem foldl_put_section {acc : Settings} (hNew : name ∉ acc.map Section.name) (map : StrMap)
    (pairs : List Pair) :
    (pairs.map fun pair => (⟨name, pair.key, pair.value⟩ : Assignment)).foldl Assignment.put
        (acc ++ [⟨name, map⟩]) =
      acc ++ [⟨name, pairs.foldl (fun map pair => smPut map pair.key pair.value) map⟩] := by
  induction pairs generalizing map with
  | nil => rfl
  | cons pair rest ih =>
    have hPut : (⟨name, pair.key, pair.value⟩ : Assignment).put [⟨name, map⟩] =
        [⟨name, smPut map pair.key pair.value⟩] := if_pos rfl
    rw [List.map_cons, List.foldl_cons, List.foldl_cons, put_append hNew, hPut]
    exact ih _

theorem foldl_smPut (pairs : List Pair) (map : StrMap) :
    pairs.foldl (fun map pair => smPut map pair.key pair.value) map =
      ⟨pairs.foldl (putEntry Pair.key (slot map.buckets.length) Pair.replace) map.buckets⟩ := by
  induction pairs generalizing map with
  | nil => rfl
  | cons pair rest ih =>
    rw [List.foldl_cons, List.foldl_cons, ih, smPut_length, smPut_eq]

theorem Section.Valid.rebuild {s : Section} (h : s.Valid) :
    s.map.pairs.foldl (fun map pair => smPut map pair.key pair.value) (smNew defaultStrmapCapacity) =
      s.map := by
  have hTable : s.map.pairs.foldl (putEntry Pair.key (slot defaultStrmapCapacity) Pair.replace)
      (List.replicate s.map.buckets.length []) = s.map.buckets := h.placed.foldl_flatten
  have hNew : (smNew defaultStrmapCapacity).buckets = List.replicate s.map.buckets.length [] := by
    rw [h.capacity]
    rfl
  rw [foldl_smPut, hNew, List.length_replicate, h.capacity]
  rw [h.capacity] at hTable
  exact congrArg StrMap.mk hTable

/-- Settings are what the calls of `settings_set` for their associations lead to. -/
theorem Settings.Valid.rebuild_append {acc : Settings} (h : Settings.Valid (acc ++ settings)) :
    (Settings.assignments settings).foldl Assignment.put acc = acc ++ settings := by
  induction settings generalizing acc with
  | nil => exact (List.append_nil acc).symm
  | cons s rest ih =>
    have hSection := h.sections s (by simp)
    have hNew : s.name ∉ acc.map Section.name := by
      have hNames := h.names
      rw [List.map_append, List.map_cons] at hNames
      exact fun hMem => (List.nodup_append.mp hNames).2.2 _ hMem _ List.mem_cons_self rfl
    obtain ⟨pair, pairs, hPairs⟩ := List.exists_cons_of_ne_nil hSection.inhabited
    have hFirst : (⟨s.name, pair.key, pair.value⟩ : Assignment).put acc =
        acc ++ [⟨s.name, smPut (smNew defaultStrmapCapacity) pair.key pair.value⟩] := by
      have hAppend := put_append (a := ⟨s.name, pair.key, pair.value⟩) hNew []
      rwa [List.append_nil] at hAppend
    have hMap := hSection.rebuild
    rw [hPairs, List.foldl_cons] at hMap
    rw [Settings.assignments, List.flatMap_cons, List.foldl_append, Section.assignments, hPairs,
      List.map_cons, List.foldl_cons, hFirst, foldl_put_section hNew, hMap, ← Settings.assignments]
    have hRest : Settings.Valid (acc ++ [s] ++ rest) := by rwa [List.append_assoc]
    exact (ih hRest).trans (List.append_assoc ..)

theorem Settings.Valid.rebuild (h : settings.Valid) :
    (Settings.assignments settings).foldl Assignment.put [] = settings :=
  Settings.Valid.rebuild_append h

theorem mem_of_lastAssigned {as : List Assignment} (h : lastAssigned as name key = some value) :
    ⟨name, key, value⟩ ∈ as := by
  obtain ⟨a, hLast, rfl⟩ := Option.map_eq_some_iff.mp h
  have hMem := List.mem_filter.mp (List.mem_of_getLast? hLast)
  obtain ⟨rfl, rfl⟩ := of_decide_eq_true hMem.2
  exact hMem.1

/-! ## Runs of settings_set -/

theorem settingsSetAll_spec (calls : List Assignment) :
    (settingsSetAll [] calls).Valid ∧ Settings.lookup (settingsSetAll [] calls) = contentsAfter calls := by
  induction calls using List.reverseRecOn with
  | nil => exact ⟨nil_valid, rfl⟩
  | append_singleton calls a ih =>
    obtain ⟨hValid, hLookup⟩ := ih
    rw [settingsSetAll, contentsAfter, List.foldl_concat, List.foldl_concat, ← settingsSetAll,
      ← contentsAfter, settingsSet]
    rcases eq_or_ne a.sectionName [] with hName | hName
    · rw [if_pos (List.length_eq_zero_iff.mpr hName), if_pos hName]
      exact ⟨hValid, hLookup⟩
    · rw [if_neg (mt List.length_eq_zero_iff.mp hName), if_neg hName]
      refine ⟨hValid.put a, ?_⟩
      funext name key
      refine (lookup_putSection hValid.allocated ..).trans ?_
      rw [hLookup]
      rfl

/-- After any calls of `settings_set`, refused ones among them, the settings are the finite map
that the accepted calls describe. -/
theorem settingsSet_implements (calls : List Assignment) :
    Implements (settingsSetAll [] calls) (contentsAfter calls) := by
  obtain ⟨hValid, hLookup⟩ := settingsSetAll_spec calls
  rw [← hLookup]
  exact hValid.implements

end Mbpfan
