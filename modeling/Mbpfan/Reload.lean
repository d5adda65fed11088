import Mbpfan.Run
import Mbpfan.RetrieveSettings
import Mbpfan.Library.Machine

/-!
# The loop with reloads

A pass through the `while (1)` rereads the configuration when a signal has asked for it and
then controls the fans. The reload writes the limits and the thresholds. It leaves the
speeds, the readings and the steps as they are and makes none of the startup checks.
-/

namespace Mbpfan

open Library

structure Pass where
  reload : Option ConfFile
  reading : Reading

/-- `retrieve_settings` on the variables of the loop, once the file has been read. -/
def Loop.retrieve (s : Loop) (settings : Option Settings) : Loop :=
  let (params, fans) := applySettings settings s.params s.fans
  { s with params := params, fans := fans }

/-- The branch on `do_reload`. -/
def Loop.reloadIf (s : Loop) : Option ConfFile → Loop
  | none => s
  | some file =>
    let (params, fans) := retrieveSettings file s.params s.fans
    { s with params := params, fans := fans }

def pass (π : Platform) (s : Loop) (a : Pass) : Loop :=
  controlIteration π (s.reloadIf a.reload) a.reading

def loopMachine (π : Platform) : Machine Loop Pass where
  step s a := some (pass π s a)

/-- The settings a pass applies, if it applies any. -/
def Pass.settings (a : Pass) : Option Settings := a.reload.bind readSettings

def Loop.ids (s : Loop) : List ℕ := s.fans.map Fan.fanId

def Loop.Checked (s : Loop) : Prop := PassesChecks s.params s.fans

def Loop.Current (π : Platform) (s : Loop) : Prop := ∀ fan ∈ s.fans, Fitted π s.params fan

instance (s : Loop) : Decidable s.Checked := inferInstanceAs (Decidable (PassesChecks _ _))

variable {π : Platform} {s t : Loop} {p : Params} {fans : List Fan} {settings : Settings}

@[simp] theorem loopMachine_step (a : Pass) :
    (loopMachine π).step s a = some t ↔ pass π s a = t := Option.some_inj

theorem reloadIf_eq (a : Pass) : s.reloadIf a.reload = s.retrieve a.settings := by
  rw [Pass.settings]
  cases a.reload with
  | none => rfl
  | some file => rfl

@[simp] theorem retrieve_none : s.retrieve none = s := rfl

/-- Only a file that is read can break a law of the loop. -/
theorem reloadIf_of_file {P : Loop → Prop} {a : Pass} (h : P s)
    (hFile : a.settings.isSome → P (s.reloadIf a.reload)) : P (s.reloadIf a.reload) := by
  rw [reloadIf_eq] at hFile ⊢
  cases hSettings : a.settings with
  | none => exact h
  | some settings => exact hSettings ▸ hFile (by rw [hSettings]; rfl)

@[simp] theorem retrieve_some_params :
    (s.retrieve (some settings)).params = overrideParams settings s.params := rfl

@[simp] theorem retrieve_some_fans :
    (s.retrieve (some settings)).fans = s.fans.map (overrideFan settings) := rfl

theorem retrieve_opened (hOpened : ∀ fan ∈ s.fans, fan.file = true) (read : Option Settings) :
    ∀ fan ∈ (s.retrieve read).fans, fan.file = true := by
  cases read with
  | none => exact hOpened
  | some settings =>
    intro fan hMem
    obtain ⟨origin, hOrigin, rfl⟩ := List.mem_map.mp hMem
    exact hOpened origin hOrigin

@[simp] theorem retrieve_ids (read : Option Settings) : (s.retrieve read).ids = s.ids := by
  cases read with
  | none => rfl
  | some settings => exact List.map_map

/-! ## An iteration changes speeds only -/

theorem controlFan_frame (p : Params) (oldTemp newTemp : Reading) (fan : Fan) :
    ∃ speed, (controlFan π p oldTemp newTemp fan).1 = fan.withSpeed speed :=
  setFanSpeed_frame fan _

theorem forall_controlIteration {Q : Fan → Prop} (newTemp : Reading)
    (hQ : ∀ fan speed, Q (fan.withSpeed speed) ↔ Q fan) :
    (∀ fan ∈ (controlIteration π s newTemp).fans, Q fan) ↔ ∀ fan ∈ s.fans, Q fan := by
  refine List.forall_mem_map.trans (forall_congr' fun fan => forall_congr' fun _ => ?_)
  obtain ⟨speed, hEq⟩ := controlFan_frame (π := π) s.params s.newTemp newTemp fan
  rw [hEq]
  exact hQ fan speed

theorem controlIteration_checked (newTemp : Reading) :
    (controlIteration π s newTemp).Checked ↔ s.Checked :=
  and_congr_left' (forall_controlIteration newTemp fun _ _ => Iff.rfl)

theorem fitted_withSpeed (fan : Fan) (speed : CInt) :
    Fitted π p (fan.withSpeed speed) ↔ Fitted π p fan :=
  ⟨fun h => ⟨h.up, h.down⟩, fun h => ⟨h.up, h.down⟩⟩

theorem controlIteration_current (newTemp : Reading) :
    (controlIteration π s newTemp).Current π ↔ s.Current π :=
  forall_controlIteration newTemp fun fan speed => fitted_withSpeed fan speed

theorem controlIteration_opened (newTemp : Reading) :
    (∀ fan ∈ (controlIteration π s newTemp).fans, fan.file = true) ↔
      ∀ fan ∈ s.fans, fan.file = true :=
  forall_controlIteration newTemp fun _ _ => Iff.rfl

theorem startup_frame (fan : Fan) :
    ∃ speed, (setFanSpeed fan fan.fanMinSpeed).1 = fan.withSpeed speed :=
  setFanSpeed_frame fan _

@[simp] theorem controlIteration_ids (newTemp : Reading) :
    (controlIteration π s newTemp).ids = s.ids := by
  refine List.map_map.trans (List.map_congr_left fun fan _ => ?_)
  obtain ⟨speed, hEq⟩ := controlFan_frame (π := π) s.params s.newTemp newTemp fan
  have hId : (controlFan π s.params s.newTemp newTemp fan).1.fanId = fan.fanId := by rw [hEq]; rfl
  exact hId

@[simp] theorem startup_ids (s : Loop) (first : Reading) :
    (startup π s.params s.fans first).ids = s.ids := by
  refine List.map_map.trans (List.map_congr_left fun fan _ => ?_)
  obtain ⟨speed, hEq⟩ := startup_frame fan
  have hId : (setFanSpeed fan fan.fanMinSpeed).1.fanId = fan.fanId := by rw [hEq]; rfl
  exact hId

theorem startup_current (p : Params) (fans : List Fan) (first : Reading) :
    (startup π p fans first).Current π := by
  intro fan hMem
  obtain ⟨origin, _, rfl⟩ := List.mem_map.mp hMem
  exact ⟨rfl, rfl⟩

theorem startup_checked (h : PassesChecks p fans) (first : Reading) :
    (startup π p fans first).Checked := by
  refine ⟨fun fan hMem => ?_, h.2⟩
  obtain ⟨origin, hOrigin, rfl⟩ := List.mem_map.mp hMem
  obtain ⟨speed, hEq⟩ := startup_frame origin
  rw [hEq]
  exact h.1 origin hOrigin

theorem startup_opened (hOpened : ∀ fan ∈ fans, fan.file = true) (first : Reading) :
    ∀ fan ∈ (startup π p fans first).fans, fan.file = true := by
  rw [startup_fans hOpened]
  exact List.forall_mem_map.mpr hOpened

def sampleLoop (first : Reading) : Loop := startup Platform.wrap defaultParams sampleFans first

def minSpeedFile : ConfFile := some (cstring "[general]\nmin_fan1_speed = 3000\n")

theorem minSpeedFile_checked : ((sampleLoop 64).reloadIf minSpeedFile).Checked := by
  decide +kernel

def lowTempFile : ConfFile := some (cstring "[general]\nlow_temp = 70\n")

end Mbpfan
