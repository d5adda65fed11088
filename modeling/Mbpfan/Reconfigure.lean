import Mbpfan.Forgetting

/-!
# What a reload preserves

The startup refuses parameters that are out of order and derives two steps for each fan
from them. A reload repeats neither. Both laws of the startup hold along a run exactly as
long as the files that are read happen to respect them, each together with the files before it.
-/

namespace Mbpfan

open Library

variable {π : Platform} {s : Loop} {p : Params} {fans : List Fan} {settings : Settings}

/-! ## Parameters in order -/

/-- The numbers the files give, the last one for each key, are in order, where a number that
no file gives is the one of the startup. -/
structure Ordered (files : List ConfFile) (p : Params) (limits : List FanLimits) : Prop where
  lowHigh : ∀ low high, IsLastGiven files (cstring "low_temp") p.lowTemp low →
    IsLastGiven files (cstring "high_temp") p.highTemp high → low ≤ high
  highMax : ∀ high max, IsLastGiven files (cstring "high_temp") p.highTemp high →
    IsLastGiven files (cstring "max_temp") p.maxTemp max → high ≤ max
  speeds : ∀ fan ∈ limits, ∀ min max,
    IsLastGiven files (minFanKey fan.fanId) fan.minSpeed min →
    IsLastGiven files (maxFanKey fan.fanId) fan.maxSpeed max → min ≤ max

theorem forall_isLastGiven_le {files : List ConfFile} {key key' : CString} {old old' : CInt} :
    (∀ a b, IsLastGiven files key old a → IsLastGiven files key' old' b → a ≤ b) ↔
      lastGiven files key old ≤ lastGiven files key' old' := by
  constructor
  · intro h
    exact h _ _ (isLastGiven_lastGiven files key old) (isLastGiven_lastGiven files key' old')
  · intro h a b hLeft hRight
    rw [hLeft.eq_lastGiven, hRight.eq_lastGiven]
    exact h

/-- The checks on the values in force are checks on the files that left them. -/
theorem checked_iff_of_stored {files : List ConfFile} {limits : List FanLimits}
    (hStored : s.stored = storedAfter files (p, limits)) :
    s.Checked ↔ Ordered files p limits := by
  obtain ⟨hParams, hLimits⟩ := Prod.mk.inj hStored
  have hSpeeds : (∀ fan ∈ s.fans, ¬ fan.fanMinSpeed > fan.fanMaxSpeed) ↔
      ∀ fan ∈ limits, lastGiven files (minFanKey fan.fanId) fan.minSpeed ≤
        lastGiven files (maxFanKey fan.fanId) fan.maxSpeed := by
    have hEach : (∀ fan ∈ s.fans.map Fan.limits, fan.minSpeed ≤ fan.maxSpeed) ↔
        ∀ fan ∈ s.fans, ¬ fan.fanMinSpeed > fan.fanMaxSpeed := by
      simp [Fan.limits]
    rw [← hEach, hLimits, List.forall_mem_map]
    exact Iff.rfl
  rw [Loop.Checked, PassesChecks, hSpeeds, hParams]
  constructor
  · rintro ⟨hFans, hTemps⟩
    obtain ⟨hLow, hHigh⟩ := not_or.mp hTemps
    exact ⟨forall_isLastGiven_le.mpr (not_lt.mp hLow), forall_isLastGiven_le.mpr (not_lt.mp hHigh),
      fun fan hMem => forall_isLastGiven_le.mpr (hFans fan hMem)⟩
  · intro h
    exact ⟨fun fan hMem => forall_isLastGiven_le.mp (h.speeds fan hMem),
      not_or.mpr ⟨not_lt.mpr (forall_isLastGiven_le.mp h.lowHigh),
        not_lt.mpr (forall_isLastGiven_le.mp h.highMax)⟩⟩

theorem eachStep_checked_iff {before : List ConfFile} {limits : List FanLimits}
    (hStored : s.stored = storedAfter before (p, limits)) (hOrdered : Ordered before p limits)
    (passes : List Pass) :
    (loopMachine π).EachStep (fun s a _ => (s.reloadIf a.reload).Checked) s passes ↔
      ∀ read, read <+: passes.filterMap Pass.reload → Ordered (before ++ read) p limits := by
  induction passes generalizing s before with
  | nil =>
    refine iff_of_true trivial fun read hRead => ?_
    rw [List.prefix_nil.mp hRead, List.append_nil]
    exact hOrdered
  | cons a rest ih =>
    rw [Machine.eachStep_cons_of_step ((loopMachine_step a).mpr rfl)]
    cases hReload : a.reload with
    | none =>
      have hNext : (pass π s a).stored = storedAfter before (p, limits) := by
        rw [pass_stored, hReload]
        exact hStored
      rw [List.filterMap_cons_none hReload, ← ih hNext hOrdered]
      exact and_iff_right ((checked_iff_of_stored hStored).mpr hOrdered)
    | some file =>
      have hRead : (s.reloadIf (some file)).stored = storedAfter (before ++ [file]) (p, limits) := by
        rw [reloadIf_stored, hStored, storedAfter_append]
      have hNext : (pass π s a).stored = storedAfter (before ++ [file]) (p, limits) := by
        rw [pass_stored, hReload, hRead]
      rw [List.filterMap_cons_some hReload, checked_iff_of_stored hRead]
      constructor
      · rintro ⟨hFile, hRest⟩ read hPrefix
        rcases List.prefix_cons_iff.mp hPrefix with rfl | ⟨more, rfl, hMore⟩
        · rwa [List.append_nil]
        · have hAll := (ih hNext hFile).mp hRest more hMore
          rwa [List.append_assoc] at hAll
      · intro h
        have hFile := h [file] (List.prefix_cons_iff.mpr (.inr ⟨[], rfl, List.nil_prefix⟩))
        refine ⟨hFile, (ih hNext hFile).mpr fun more hMore => ?_⟩
        rw [List.append_assoc]
        exact h (file :: more) (List.prefix_cons_iff.mpr (.inr ⟨more, rfl, hMore⟩))

/-- Every iteration of a run controls with parameters in order exactly when, at every reload,
the numbers that the files read so far give last are in order. -/
theorem checked_iff_ordered (π : Platform) (h : PassesChecks p fans) (first : Reading)
    (passes : List Pass) :
    (loopMachine π).EachStep (fun s a _ => (s.reloadIf a.reload).Checked)
        (startup π p fans first) passes ↔
      ∀ read, read <+: passes.filterMap Pass.reload → Ordered read p (fans.map Fan.limits) := by
  have hStored : (startup π p fans first).stored = storedAfter [] (p, fans.map Fan.limits) := by
    rw [startup_stored, storedAfter_nil]
  have hOrdered := (checked_iff_of_stored hStored).mp (startup_checked h first)
  exact eachStep_checked_iff hStored hOrdered passes

theorem checked_iff_ordered_sample :
    (loopMachine Platform.wrap).EachStep (fun s a _ => (s.reloadIf a.reload).Checked)
        (sampleLoop 50) [⟨some lowTempFile, 60⟩] ↔
      ∀ read, read <+: [lowTempFile] →
        Ordered read defaultParams (sampleFans.map Fan.limits) :=
  checked_iff_ordered Platform.wrap (by decide) 50 [⟨some lowTempFile, 60⟩]

/-- The file is consistent alone, but 70 exceeds the `high_temp` of 66 in force. -/
theorem reload_not_checked :
    PassesChecks defaultParams sampleFans ∧
      ¬ (loopMachine Platform.wrap).EachStep (fun s a _ => (s.reloadIf a.reload).Checked)
        (sampleLoop 50) [⟨some lowTempFile, 60⟩] := by
  refine ⟨by decide, fun h => ?_⟩
  have hChecked := (h _ rfl).1
  revert hChecked
  decide +kernel

/-! ## Steps that belong to the parameters in force -/

/-- The state of a daemon started with the parameters in force, with the speeds and the
reading of this one. -/
def Loop.refit (π : Platform) (s : Loop) : Loop :=
  { s with fans := s.fans.map (setSteps π s.params) }

def KeepsSteps (π : Platform) (settings : Settings) (s : Loop) : Prop :=
  ∀ fan ∈ s.fans,
    stepUpFor π (overrideParams settings s.params) (overrideFan settings fan) =
        stepUpFor π s.params fan ∧
      stepDownFor π (overrideParams settings s.params) (overrideFan settings fan) =
        stepDownFor π s.params fan

/-- The iteration of a pass finds the steps of its parameters and decides as a daemon does
that was started with them. -/
def AsRestarted (π : Platform) (s : Loop) (a : Pass) : Prop :=
  (s.reloadIf a.reload).Current π ∧
    pass π s a = controlIteration π ((s.reloadIf a.reload).refit π) a.reading

theorem Fitted.setSteps_eq {fan : Fan} (h : Fitted π p fan) : setSteps π p fan = fan := by
  rw [setSteps, ← h.up, ← h.down]

theorem Loop.Current.refit_eq (h : s.Current π) : s.refit π = s := by
  have hFans : s.fans.map (setSteps π s.params) = s.fans :=
    (List.map_congr_left fun fan hMem => (h fan hMem).setSteps_eq).trans (List.map_id' s.fans)
  rw [Loop.refit, hFans]

theorem asRestarted_iff (a : Pass) : AsRestarted π s a ↔ (pass π s a).Current π := by
  refine Iff.trans ?_ (controlIteration_current a.reading).symm
  apply and_iff_left_of_imp
  intro hCurrent
  rw [pass, hCurrent.refit_eq]

theorem retrieve_current_iff (h : s.Current π) :
    (s.retrieve (some settings)).Current π ↔ KeepsSteps π settings s := by
  refine List.forall_mem_map.trans (forall_congr' fun fan => forall_congr' fun hMem => ?_)
  have hFitted := h fan hMem
  constructor
  · intro hNew
    exact ⟨hNew.up.symm.trans hFitted.up, hNew.down.symm.trans hFitted.down⟩
  · rintro ⟨hUp, hDown⟩
    exact ⟨hFitted.up.trans hUp.symm, hFitted.down.trans hDown.symm⟩

theorem pass_current_iff (h : s.Current π) (a : Pass) :
    (pass π s a).Current π ↔ ∀ settings, a.settings = some settings → KeepsSteps π settings s := by
  refine (controlIteration_current a.reading).trans ?_
  rw [reloadIf_eq]
  cases a.settings with
  | none => simpa using h
  | some settings => simpa using retrieve_current_iff h

/-- The steps belong to the parameters in force in all states of a run, and all its
iterations decide as after a restart, exactly when no file that is read changes a step. -/
theorem restarted_iff_keepsSteps (π : Platform) (p : Params) (fans : List Fan) (first : Reading)
    (passes : List Pass) :
    ((loopMachine π).Always (Loop.Current π) (startup π p fans first) passes ∧
        (loopMachine π).EachStep (fun s a _ => AsRestarted π s a)
          (startup π p fans first) passes) ↔
      (loopMachine π).EachStep
        (fun s a _ => ∀ settings, a.settings = some settings → KeepsSteps π settings s)
        (startup π p fans first) passes := by
  have hStart := startup_current (π := π) p fans first
  have hRestarted : (loopMachine π).Always (Loop.Current π) (startup π p fans first) passes ↔ _ :=
    Machine.always_iff_of_step (C := fun s a _ => AsRestarted π s a) hStart (by
      rintro s a t - hStep
      rw [← (loopMachine_step a).mp hStep]
      exact (asRestarted_iff a).symm)
  rw [← hRestarted, and_self]
  apply Machine.always_iff_of_step hStart
  rintro s a t hCurrent hStep
  rw [← (loopMachine_step a).mp hStep]
  exact pass_current_iff hCurrent a

/-- After the reload the fan climbs with `step_up` 20 to 5100. A daemon started with the new
minimum speed climbs with 15 to 4575. -/
theorem reload_not_as_restarted :
    ((sampleLoop 64).reloadIf minSpeedFile).Checked ∧
      ((sampleLoop 64).reloadIf minSpeedFile).params.highTemp <
        ((sampleLoop 64).reloadIf minSpeedFile).params.maxTemp ∧
      ¬ (loopMachine Platform.wrap).Always (Loop.Current Platform.wrap) (sampleLoop 64)
        [⟨some minSpeedFile, 80⟩] ∧
      ¬ (loopMachine Platform.wrap).EachStep (fun s a _ => AsRestarted Platform.wrap s a)
        (sampleLoop 64) [⟨some minSpeedFile, 80⟩] ∧
      (pass Platform.wrap (sampleLoop 64) ⟨some minSpeedFile, 80⟩).fans.map Fan.oldSpeed ≠
        (controlIteration Platform.wrap
          (((sampleLoop 64).reloadIf minSpeedFile).refit Platform.wrap) 80).fans.map
          Fan.oldSpeed := by
  have hDiffers : (pass Platform.wrap (sampleLoop 64) ⟨some minSpeedFile, 80⟩).fans.map
      Fan.oldSpeed ≠ (controlIteration Platform.wrap
        (((sampleLoop 64).reloadIf minSpeedFile).refit Platform.wrap) 80).fans.map
        Fan.oldSpeed := by
    decide +kernel
  have hNotRestarted : ¬ AsRestarted Platform.wrap (sampleLoop 64) ⟨some minSpeedFile, 80⟩ :=
    fun h => hDiffers (congrArg (fun s : Loop => s.fans.map Fan.oldSpeed) h.2)
  refine ⟨minSpeedFile_checked, by decide +kernel, fun h => ?_, fun h => ?_, hDiffers⟩
  · exact hNotRestarted ((asRestarted_iff _).mpr (h.2 _ rfl))
  · exact hNotRestarted (h _ rfl).1

end Mbpfan
