import Mbpfan.Fans
import Mathlib.Logic.Function.Basic

/-!
# The fans as the hardware sees them

The manual flag and the speed of each fan, by the number in the names of its files. Whether
the write to a file takes effect is up to the environment.
-/

namespace Mbpfan

open Library

structure Registers where
  manual : Bool
  output : ℤ

abbrev Smc := ℕ → Registers

def Smc.setMode (smc : Smc) (fanId : ℕ) (mode : Bool) : Smc :=
  Function.update smc fanId { smc fanId with manual := mode }

def Smc.setOutput (smc : Smc) (fanId : ℕ) (speed : CInt) : Smc :=
  Function.update smc fanId { smc fanId with output := speed }

/-- What `set_fan_speed` does to the hardware. `written` tells whether `pwrite` succeeds. -/
def writeSpeed (fan : Fan) (speed : CInt) (written : Bool) (smc : Smc) : Smc :=
  match (setFanSpeed fan speed).2 with
  | none => smc
  | some value => if written then smc.setOutput fan.fanId value else smc

def writeSpeeds (speed : Fan → CInt) (written : ℕ → Bool) : List Fan → Smc → Smc
  | [], smc => smc
  | fan :: rest, smc =>
    writeSpeeds speed written rest (writeSpeed fan (speed fan) (written fan.fanId) smc)

variable {smc : Smc} {fan : Fan} {fans : List Fan} {speed : Fan → CInt} {written : ℕ → Bool}

@[simp] theorem setMode_manual (fanId : ℕ) (mode : Bool) :
    (smc.setMode fanId mode fanId).manual = mode := by
  simp [Smc.setMode]

theorem setMode_of_ne {fanId id : ℕ} (mode : Bool) (h : id ≠ fanId) :
    smc.setMode fanId mode id = smc id :=
  Function.update_of_ne h _ _

theorem setMode_pending {fanId id : ℕ} {rest : List ℕ} {mode : Bool}
    (h : id ∈ fanId :: rest ∨ (smc id).manual = mode) :
    id ∈ rest ∨ (smc.setMode fanId mode id).manual = mode := by
  rcases eq_or_ne id fanId with rfl | hNe
  · exact .inr (setMode_manual id mode)
  · rw [setMode_of_ne mode hNe]
    exact h.imp_left fun hMem => (List.mem_cons.mp hMem).resolve_left hNe

theorem writeSpeed_cases (fan : Fan) (value : CInt) (done : Bool) (smc : Smc) :
    writeSpeed fan value done smc = smc ∨
      ∃ speed, writeSpeed fan value done smc = smc.setOutput fan.fanId speed := by
  cases hWrite : (setFanSpeed fan value).2 with
  | none => exact .inl (by simp [writeSpeed, hWrite])
  | some speed =>
    cases done with
    | false => exact .inl (by simp [writeSpeed, hWrite])
    | true => exact .inr ⟨speed, by simp [writeSpeed, hWrite]⟩

theorem writeSpeed_of_ne {id : ℕ} (value : CInt) (done : Bool) (h : id ≠ fan.fanId) :
    writeSpeed fan value done smc id = smc id := by
  obtain hEq | ⟨speed, hEq⟩ := writeSpeed_cases fan value done smc
  · rw [hEq]
  · rw [hEq]
    exact Function.update_of_ne h _ _

theorem writeSpeed_manual (value : CInt) (done : Bool) (id : ℕ) :
    (writeSpeed fan value done smc id).manual = (smc id).manual := by
  rcases eq_or_ne id fan.fanId with rfl | hNe
  · obtain hEq | ⟨speed, hEq⟩ := writeSpeed_cases fan value done smc
    · rw [hEq]
    · simp [hEq, Smc.setOutput]
  · rw [writeSpeed_of_ne value done hNe]

theorem writeSpeed_output (hFile : fan.file = true) (value : CInt) :
    (writeSpeed fan value true smc fan.fanId).output =
      if fan.oldSpeed = value then (smc fan.fanId).output else value := by
  split_ifs with hEq
  · simp [writeSpeed, setFanSpeed_of_eq hEq]
  · simp [writeSpeed, setFanSpeed_snd_of_ne hFile hEq, Smc.setOutput]

theorem writeSpeeds_manual (id : ℕ) :
    (writeSpeeds speed written fans smc id).manual = (smc id).manual := by
  induction fans generalizing smc with
  | nil => rfl
  | cons fan rest ih => rw [writeSpeeds, ih, writeSpeed_manual]

theorem writeSpeeds_of_notMem {id : ℕ} (h : id ∉ fans.map Fan.fanId) :
    writeSpeeds speed written fans smc id = smc id := by
  induction fans generalizing smc with
  | nil => rfl
  | cons fan rest ih =>
    obtain ⟨hNe, hRest⟩ := not_or.mp (mt List.mem_cons.mpr h)
    rw [writeSpeeds, ih hRest, writeSpeed_of_ne _ _ hNe]

/-- When the write succeeds, a fan runs at its new speed afterwards, except that the cached
speed is not written. -/
theorem writeSpeeds_output (hDistinct : (fans.map Fan.fanId).Nodup) (hMem : fan ∈ fans)
    (hFile : fan.file = true) (hWritten : written fan.fanId = true) :
    (writeSpeeds speed written fans smc fan.fanId).output =
      if fan.oldSpeed = speed fan then (smc fan.fanId).output else speed fan := by
  induction fans generalizing smc with
  | nil => exact absurd hMem List.not_mem_nil
  | cons head rest ih =>
    obtain ⟨hHead, hDistinctRest⟩ := List.nodup_cons.mp hDistinct
    rcases List.mem_cons.mp hMem with rfl | hRest
    · rw [writeSpeeds, writeSpeeds_of_notMem hHead, hWritten, writeSpeed_output hFile]
    · have hNe : fan.fanId ≠ head.fanId := fun hEq => hHead (hEq ▸ List.mem_map_of_mem hRest)
      rw [writeSpeeds, ih hDistinctRest hRest, writeSpeed_of_ne _ _ hNe]

end Mbpfan
