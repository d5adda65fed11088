import Mbpfan.Reload

/-!
# What a reload remembers

A reload starts from the values in force, and these hold what every earlier file has set.
What a history of files leaves behind is computed here from the files alone.
-/

namespace Mbpfan

open Library

/-- The value a file gives to a key, 0 if it gives none or cannot be read. -/
def given (file : ConfFile) (key : CString) : CInt :=
  match readSettings file with
  | none => CInt.zero
  | some settings => getGeneral settings key

/-- The value the last of the files that give the key gives to it, and the old one without
such a file. -/
def lastGiven (files : List ConfFile) (key : CString) (old : CInt) : CInt :=
  files.foldl (fun value file => override (given file key) value) old

/-- The last number other than 0 that one of the files gives to the key, or the old value. -/
def IsLastGiven (files : List ConfFile) (key : CString) (old value : CInt) : Prop :=
  (∃ before file after, files = before ++ file :: after ∧ given file key = value ∧
    value.val ≠ 0 ∧ ∀ later ∈ after, (given later key).val = 0) ∨
  value = old ∧ ∀ file ∈ files, (given file key).val = 0

structure FanLimits where
  fanId : ℕ
  minSpeed : CInt
  maxSpeed : CInt
  deriving DecidableEq

def Fan.limits (fan : Fan) : FanLimits := ⟨fan.fanId, fan.fanMinSpeed, fan.fanMaxSpeed⟩

structure InForce (files : List ConfFile) (p p' : Params) (fans fans' : List FanLimits) : Prop where
  low : IsLastGiven files (cstring "low_temp") p.lowTemp p'.lowTemp
  high : IsLastGiven files (cstring "high_temp") p.highTemp p'.highTemp
  max : IsLastGiven files (cstring "max_temp") p.maxTemp p'.maxTemp
  polling : IsLastGiven files (cstring "polling_interval") p.pollingInterval p'.pollingInterval
  limits : List.Forall₂ (fun fan fan' => fan'.fanId = fan.fanId ∧
    IsLastGiven files (minFanKey fan.fanId) fan.minSpeed fan'.minSpeed ∧
    IsLastGiven files (maxFanKey fan.fanId) fan.maxSpeed fan'.maxSpeed) fans fans'

/-- The variables `retrieve_settings` writes. -/
def Loop.stored (s : Loop) : Params × List FanLimits := (s.params, s.fans.map Fan.limits)

/-- A start of the daemon with the file it reads, its first reading, and its passes. -/
structure History where
  file : ConfFile
  first : Reading
  passes : List Pass

def History.files (h : History) : List ConfFile := h.file :: h.passes.filterMap Pass.reload

/-- The variables of the loop after the passes. -/
def History.loop (π : Platform) (probe : ℕ → Option FanFiles) (h : History) : Loop :=
  let (params, fans) := retrieveSettings h.file defaultParams (retrieveFans probe)
  h.passes.foldl (pass π) (startup π params fans h.first)

/-- The variables right after a reload that follows the passes. -/
def History.reloaded (π : Platform) (probe : ℕ → Option FanFiles) (h : History)
    (file : ConfFile) : Params × List FanLimits :=
  ((h.loop π probe).reloadIf (some file)).stored

/-- The variables of a daemon just started with the file. -/
def fresh (probe : ℕ → Option FanFiles) (file : ConfFile) : Params × List FanLimits :=
  let (params, fans) := retrieveSettings file defaultParams (retrieveFans probe)
  (params, fans.map Fan.limits)

/-- The file gives the key, or what the earlier files gave last is the default. -/
def ForgetsKey (files : List ConfFile) (file : ConfFile) (key : CString) (default : CInt) : Prop :=
  (given file key).val ≠ 0 ∨ lastGiven files key default = default

structure Forgets (probe : ℕ → Option FanFiles) (files : List ConfFile) (file : ConfFile) :
    Prop where
  low : ForgetsKey files file (cstring "low_temp") defaultParams.lowTemp
  high : ForgetsKey files file (cstring "high_temp") defaultParams.highTemp
  max : ForgetsKey files file (cstring "max_temp") defaultParams.maxTemp
  polling : ForgetsKey files file (cstring "polling_interval") defaultParams.pollingInterval
  minSpeed : ∀ fan ∈ retrieveFans probe, ForgetsKey files file (minFanKey fan.fanId) fan.fanMinSpeed
  maxSpeed : ∀ fan ∈ retrieveFans probe, ForgetsKey files file (maxFanKey fan.fanId) fan.fanMaxSpeed

variable {π : Platform} {probe : ℕ → Option FanFiles} {file : ConfFile} {files : List ConfFile}
  {key : CString} {old value : CInt}

/-! ## The values in force after a list of files -/

def paramsAfter (files : List ConfFile) (p : Params) : Params where
  lowTemp := lastGiven files (cstring "low_temp") p.lowTemp
  highTemp := lastGiven files (cstring "high_temp") p.highTemp
  maxTemp := lastGiven files (cstring "max_temp") p.maxTemp
  pollingInterval := lastGiven files (cstring "polling_interval") p.pollingInterval

def limitsAfter (files : List ConfFile) (limits : FanLimits) : FanLimits where
  fanId := limits.fanId
  minSpeed := lastGiven files (minFanKey limits.fanId) limits.minSpeed
  maxSpeed := lastGiven files (maxFanKey limits.fanId) limits.maxSpeed

def storedAfter (files : List ConfFile) (stored : Params × List FanLimits) :
    Params × List FanLimits :=
  (paramsAfter files stored.1, stored.2.map (limitsAfter files))

theorem given_of_none (h : readSettings file = none) (key : CString) :
    given file key = CInt.zero := by
  simp [given, h]

theorem given_of_some {settings : Settings} (h : readSettings file = some settings)
    (key : CString) : given file key = getGeneral settings key := by
  simp [given, h]

@[simp] theorem override_zero (old : CInt) : override CInt.zero old = old := rfl

@[simp] theorem storedAfter_nil (stored : Params × List FanLimits) :
    storedAfter [] stored = stored :=
  congrArg (Prod.mk stored.1) (List.map_id stored.2)

theorem storedAfter_append (more : List ConfFile) (stored : Params × List FanLimits) :
    storedAfter (files ++ more) stored = storedAfter more (storedAfter files stored) := by
  simp [storedAfter, paramsAfter, limitsAfter, lastGiven]

/-- The limits a file leaves a fan with. -/
def limited (file : ConfFile) (fan : Fan) : Fan :=
  { fan with
    fanMinSpeed := override (given file (minFanKey fan.fanId)) fan.fanMinSpeed
    fanMaxSpeed := override (given file (maxFanKey fan.fanId)) fan.fanMaxSpeed }

/-- What a file gives is all that `retrieve_settings` takes from it. -/
theorem retrieveSettings_eq (file : ConfFile) (p : Params) (fans : List Fan) :
    retrieveSettings file p fans = (paramsAfter [file] p, fans.map (limited file)) := by
  rw [retrieveSettings]
  cases hRead : readSettings file with
  | none =>
    have hKept : limited file = id := by
      funext fan
      rw [limited, given_of_none hRead, given_of_none hRead, override_zero, override_zero, id]
    rw [hKept, List.map_id]
    simp [applySettings, paramsAfter, lastGiven, given_of_none hRead]
  | some settings =>
    have hEach : overrideFan settings = limited file := by
      funext fan
      rw [overrideFan, limited, given_of_some hRead, given_of_some hRead]
    rw [← hEach]
    simp [applySettings, overrideParams, paramsAfter, lastGiven, given_of_some hRead]

theorem retrieveSettings_stored (p : Params) (fans : List Fan) :
    ((retrieveSettings file p fans).1, (retrieveSettings file p fans).2.map Fan.limits) =
      storedAfter [file] (p, fans.map Fan.limits) := by
  rw [retrieveSettings_eq, storedAfter, List.map_map, List.map_map]
  rfl

theorem fresh_eq :
    fresh probe file = storedAfter [file] (defaultParams, (retrieveFans probe).map Fan.limits) :=
  retrieveSettings_stored defaultParams (retrieveFans probe)

theorem reloadIf_stored (s : Loop) (file : ConfFile) :
    (s.reloadIf (some file)).stored = storedAfter [file] s.stored :=
  retrieveSettings_stored s.params s.fans

theorem controlIteration_stored (s : Loop) (newTemp : Reading) :
    (controlIteration π s newTemp).stored = s.stored := by
  refine congrArg (Prod.mk s.params) (List.map_map.trans (List.map_congr_left fun fan _ => ?_))
  obtain ⟨speed, hEq⟩ := controlFan_frame (π := π) s.params s.newTemp newTemp fan
  rw [Function.comp_apply, hEq]
  rfl

theorem startup_stored (p : Params) (fans : List Fan) (first : Reading) :
    (startup π p fans first).stored = (p, fans.map Fan.limits) := by
  refine congrArg (Prod.mk p) (List.map_map.trans (List.map_congr_left fun fan _ => ?_))
  obtain ⟨speed, hEq⟩ := startup_frame fan
  rw [Function.comp_apply, hEq]
  rfl

theorem pass_stored (s : Loop) (a : Pass) :
    (pass π s a).stored = (s.reloadIf a.reload).stored :=
  controlIteration_stored (s.reloadIf a.reload) a.reading

theorem passes_stored (s : Loop) (passes : List Pass) :
    (passes.foldl (pass π) s).stored = storedAfter (passes.filterMap Pass.reload) s.stored := by
  induction passes generalizing s with
  | nil => exact (storedAfter_nil s.stored).symm
  | cons a rest ih =>
    rw [List.foldl_cons, ih, pass_stored, List.filterMap_cons]
    cases hReload : a.reload with
    | none => rfl
    | some file => rw [reloadIf_stored, ← storedAfter_append]; rfl

/-- What a history leaves behind is what its files give, the last one first. -/
theorem History.loop_stored (h : History) :
    (h.loop π probe).stored =
      storedAfter h.files (defaultParams, (retrieveFans probe).map Fan.limits) := by
  rw [History.loop, passes_stored, startup_stored, retrieveSettings_stored, ← storedAfter_append]
  rfl

/-! ## The value last given -/

theorem lastGiven_of_zero (h : ∀ file ∈ files, (given file key).val = 0) :
    lastGiven files key old = old := by
  induction files with
  | nil => rfl
  | cons file rest ih =>
    obtain ⟨hFile, hRest⟩ := List.forall_mem_cons.mp h
    have hKept : override (given file key) old = old := if_neg (not_not.mpr hFile)
    rw [lastGiven, List.foldl_cons, hKept]
    exact ih hRest

theorem IsLastGiven.eq_lastGiven (h : IsLastGiven files key old value) :
    value = lastGiven files key old := by
  rcases h with ⟨before, file, after, rfl, rfl, hNonzero, hLater⟩ | ⟨rfl, hNone⟩
  · have hSplit : lastGiven (before ++ file :: after) key old =
        lastGiven after key (override (given file key) (lastGiven before key old)) :=
      List.foldl_append
    have hTaken : override (given file key) (lastGiven before key old) = given file key :=
      if_pos hNonzero
    rw [hSplit, hTaken]
    exact (lastGiven_of_zero hLater).symm
  · exact (lastGiven_of_zero hNone).symm

theorem isLastGiven_lastGiven (files : List ConfFile) (key : CString) (old : CInt) :
    IsLastGiven files key old (lastGiven files key old) := by
  induction files generalizing old with
  | nil => exact .inr ⟨rfl, nofun⟩
  | cons file rest ih =>
    rcases ih (override (given file key) old) with
      ⟨before, last, after, rfl, hGiven, hNonzero, hLater⟩ | ⟨hOld, hNone⟩
    · exact .inl ⟨file :: before, last, after, rfl, hGiven, hNonzero, hLater⟩
    · have hValue : lastGiven (file :: rest) key old = override (given file key) old := hOld
      rw [hValue]
      by_cases hZero : (given file key).val = 0
      · refine .inr ⟨if_neg (not_not.mpr hZero), List.forall_mem_cons.mpr ⟨hZero, hNone⟩⟩
      · have hTaken : override (given file key) old = given file key := if_pos hZero
        rw [hTaken]
        exact .inl ⟨[], file, rest, rfl, rfl, hZero, hNone⟩

theorem inForce_storedAfter (files : List ConfFile) (p : Params) (fans : List FanLimits) :
    InForce files p (storedAfter files (p, fans)).1 fans (storedAfter files (p, fans)).2 where
  low := isLastGiven_lastGiven files _ _
  high := isLastGiven_lastGiven files _ _
  max := isLastGiven_lastGiven files _ _
  polling := isLastGiven_lastGiven files _ _
  limits := by
    refine List.forall₂_map_right_iff.mpr (List.forall₂_same.mpr fun fan _ => ?_)
    exact ⟨rfl, isLastGiven_lastGiven files _ _, isLastGiven_lastGiven files _ _⟩

/-! ## Forgetting -/

theorem override_eq_iff {result old other : CInt} :
    override result old = override result other ↔ result.val ≠ 0 ∨ old = other := by
  unfold override
  split_ifs with hGiven
  · exact iff_of_true rfl (.inl hGiven)
  · exact (or_iff_right hGiven).symm

theorem forgetsKey_iff {key : CString} {default : CInt} :
    ForgetsKey files file key default ↔
      lastGiven [file] key (lastGiven files key default) = lastGiven [file] key default :=
  override_eq_iff.symm

theorem paramsAfter_forgets_iff {p : Params} :
    paramsAfter [file] (paramsAfter files p) = paramsAfter [file] p ↔
      ForgetsKey files file (cstring "low_temp") p.lowTemp ∧
      ForgetsKey files file (cstring "high_temp") p.highTemp ∧
      ForgetsKey files file (cstring "max_temp") p.maxTemp ∧
      ForgetsKey files file (cstring "polling_interval") p.pollingInterval := by
  simp only [paramsAfter, Params.mk.injEq, forgetsKey_iff]

theorem limitsAfter_forgets_iff {fan : Fan} :
    limitsAfter [file] (limitsAfter files fan.limits) = limitsAfter [file] fan.limits ↔
      ForgetsKey files file (minFanKey fan.fanId) fan.fanMinSpeed ∧
      ForgetsKey files file (maxFanKey fan.fanId) fan.fanMaxSpeed := by
  simp only [limitsAfter, FanLimits.mk.injEq, forgetsKey_iff, Fan.limits, true_and]

theorem storedAfter_forgets_iff :
    storedAfter [file] (storedAfter files (defaultParams, (retrieveFans probe).map Fan.limits)) =
        storedAfter [file] (defaultParams, (retrieveFans probe).map Fan.limits) ↔
      Forgets probe files file := by
  simp only [storedAfter, Prod.mk.injEq, List.map_map, List.map_inj_left, Function.comp_apply,
    paramsAfter_forgets_iff, limitsAfter_forgets_iff]
  constructor
  · rintro ⟨⟨hLow, hHigh, hMax, hPolling⟩, hLimits⟩
    exact ⟨hLow, hHigh, hMax, hPolling, fun fan hMem => (hLimits fan hMem).1,
      fun fan hMem => (hLimits fan hMem).2⟩
  · intro h
    exact ⟨⟨h.low, h.high, h.max, h.polling⟩, fun fan hMem => ⟨h.minSpeed fan hMem, h.maxSpeed fan hMem⟩⟩

theorem History.reloaded_eq_fresh_iff (h : History) :
    h.reloaded π probe file = fresh probe file ↔ Forgets probe h.files file := by
  rw [History.reloaded, reloadIf_stored, h.loop_stored, fresh_eq]
  exact storedAfter_forgets_iff

/-- After a reload of the same file two daemons on the same hardware have the values of a
fresh start exactly when, in both, every key the file leaves out was last given its default. -/
theorem forgets_iff (π : Platform) (probe : ℕ → Option FanFiles) (a b : History)
    (file : ConfFile) :
    (a.reloaded π probe file = b.reloaded π probe file ∧
        a.reloaded π probe file = fresh probe file) ↔
      Forgets probe a.files file ∧ Forgets probe b.files file := by
  rw [← a.reloaded_eq_fresh_iff (π := π), ← b.reloaded_eq_fresh_iff (π := π)]
  constructor
  · rintro ⟨hSame, hFresh⟩
    exact ⟨hFresh, hSame ▸ hFresh⟩
  · rintro ⟨hA, hB⟩
    exact ⟨hA.trans hB.symm, hA⟩

/-- A daemon that has reloaded a file with a minimum speed, which is then removed, and one
that never saw it. -/
theorem reload_remembers :
    ¬ ((⟨none, 64, [⟨some minSpeedFile, 64⟩]⟩ : History).reloaded Platform.wrap sampleProbe none =
        (⟨none, 64, []⟩ : History).reloaded Platform.wrap sampleProbe none ∧
      (⟨none, 64, [⟨some minSpeedFile, 64⟩]⟩ : History).reloaded Platform.wrap sampleProbe none =
        fresh sampleProbe none) := by
  decide +kernel

end Mbpfan
