import Mbpfan.Hardware
import Mbpfan.Library.WriteCache

/-!
# Unchanged speeds are not written

`set_fan_speed` compares with `old_speed`, which it also stores when `pwrite` has failed. It
is a cached write to the output file.
-/

namespace Mbpfan

open Library

/-- One call of `set_fan_speed`. -/
def requestSpeed (s : Fan × Smc) (r : Request CInt) : Fan × Smc :=
  ((setFanSpeed s.1 r.value).1, writeSpeed s.1 r.value r.written s.2)

def requestSpeeds (s : Fan × Smc) (requests : List (Request CInt)) : Fan × Smc :=
  requests.foldl requestSpeed s

/-- A `set_fan_speed` that writes on every call. -/
def requestAlways (fan : Fan) (smc : Smc) (r : Request CInt) : Smc :=
  if r.written then smc.setOutput fan.fanId r.value else smc

/-- The output of a fan after the calls. -/
def outputAfter (fan : Fan) (smc : Smc) (requests : List (Request CInt)) : ℤ :=
  ((requestSpeeds (fan, smc) requests).2 fan.fanId).output

def plainOutputAfter (fan : Fan) (smc : Smc) (requests : List (Request CInt)) : ℤ :=
  (requests.foldl (requestAlways fan) smc fan.fanId).output

/-- The speed of the call before, which is the cached speed. -/
def lastSpeed (fan : Fan) (requests : List (Request CInt)) : CInt :=
  lastValue fan.oldSpeed requests

variable {fan : Fan} {smc : Smc} {requests : List (Request CInt)}

def cachedSpeed (s : Fan × Smc) : Cached ℤ := ⟨s.1.oldSpeed, (s.2 s.1.fanId).output⟩

theorem requestSpeed_of_eq {s : Fan × Smc} {r : Request CInt} (h : s.1.oldSpeed = r.value) :
    requestSpeed s r = s := by
  simp [requestSpeed, writeSpeed, setFanSpeed_of_eq h]

theorem requestSpeed_of_ne {s : Fan × Smc} {r : Request CInt} (hFile : s.1.file = true)
    (h : s.1.oldSpeed ≠ r.value) :
    requestSpeed s r = ({ s.1 with oldSpeed := r.value }, requestAlways s.1 s.2 r) := by
  simp [requestSpeed, writeSpeed, requestAlways, setFanSpeed_fst hFile,
    setFanSpeed_snd_of_ne hFile h]

theorem requestSpeed_frame (s : Fan × Smc) (r : Request CInt) :
    ∃ old, (requestSpeed s r).1 = { s.1 with oldSpeed := old } :=
  setFanSpeed_frame s.1 r.value

theorem requestAlways_output (fan : Fan) (smc : Smc) (r : Request CInt) :
    (requestAlways fan smc r fan.fanId).output =
      if r.written then (r.value : ℤ) else (smc fan.fanId).output := by
  rw [requestAlways]
  split_ifs
  · simp [Smc.setOutput]
  · rfl

/-- `set_fan_speed` is a cached write. -/
theorem cachedSpeed_request {s : Fan × Smc} (hFile : s.1.file = true) (r : Request CInt) :
    cachedSpeed (requestSpeed s r) = (cachedSpeed s).request (r.map Subtype.val) := by
  by_cases hSame : s.1.oldSpeed = r.value
  · have hCached : (cachedSpeed s).cached = (r.map Subtype.val).value := congrArg Subtype.val hSame
    rw [requestSpeed_of_eq hSame, Cached.request, if_pos hCached]
  · have hCached : (cachedSpeed s).cached ≠ (r.map Subtype.val).value :=
      fun hEq => hSame (Subtype.ext hEq)
    rw [requestSpeed_of_ne hFile hSame, Cached.request, if_neg hCached, cachedSpeed,
      requestAlways_output]
    rfl

theorem cachedSpeed_requests {s : Fan × Smc} (hFile : s.1.file = true) :
    cachedSpeed (requestSpeeds s requests) =
      (cachedSpeed s).run (requests.map (Request.map Subtype.val)) := by
  induction requests generalizing s with
  | nil => rfl
  | cons r rest ih =>
    obtain ⟨old, hFrame⟩ := requestSpeed_frame s r
    have hNext := ih (s := requestSpeed s r) (by rw [hFrame]; exact hFile)
    rw [cachedSpeed_request hFile] at hNext
    exact hNext

theorem requestSpeeds_fanId (s : Fan × Smc) :
    (requestSpeeds s requests).1.fanId = s.1.fanId := by
  induction requests generalizing s with
  | nil => rfl
  | cons r rest ih =>
    obtain ⟨old, hFrame⟩ := requestSpeed_frame s r
    exact (ih (requestSpeed s r)).trans (by rw [hFrame])

theorem outputAfter_eq (hFile : fan.file = true) :
    outputAfter fan smc requests =
      ((cachedSpeed (fan, smc)).run (requests.map (Request.map Subtype.val))).stored := by
  rw [← cachedSpeed_requests hFile, cachedSpeed, requestSpeeds_fanId]
  rfl

theorem plainOutputAfter_eq :
    plainOutputAfter fan smc requests =
      plainRun (smc fan.fanId).output (requests.map (Request.map Subtype.val)) := by
  rw [plainOutputAfter]
  induction requests generalizing smc with
  | nil => rfl
  | cons r rest ih =>
    rw [List.foldl_cons, ih, requestAlways_output]
    rfl

theorem lastSpeed_eq :
    (lastSpeed fan requests : ℤ) =
      lastValue (fan.oldSpeed : ℤ) (requests.map (Request.map Subtype.val)) := by
  rw [lastSpeed]
  generalize fan.oldSpeed = old
  induction requests generalizing old with
  | nil => rfl
  | cons r rest ih => exact ih r.value

/-- `set_fan_speed` leaves the hardware as a version without the cache would exactly when no
speed is requested again, at a moment when writes succeed, that the hardware does not have. -/
theorem transparent_iff_steady (hFile : fan.file = true) (smc : Smc)
    (requests : List (Request CInt)) :
    ((∀ before r, before ++ [r] <+: requests → r.written = true →
        outputAfter fan smc (before ++ [r]) = r.value) ∧
      ∀ before, before <+: requests → outputAfter fan smc before = plainOutputAfter fan smc before) ↔
      ∀ before r, before ++ [r] <+: requests → r.written = true →
        lastSpeed fan before = r.value → plainOutputAfter fan smc before = r.value := by
  have hIff := Cached.obeys_and_asPlain_iff (cachedSpeed (fan, smc))
    (requests.map (Request.map Subtype.val))
  simp only [Cached.Obeys, Cached.AsPlain, Cached.Steady, forall_prefix_map,
    forall_prefix_concat_map] at hIff
  simp only [outputAfter_eq hFile, plainOutputAfter_eq, Subtype.ext_iff, lastSpeed_eq,
    List.map_append]
  exact hIff

/-- A climb to 4100 whose write fails, and the same speed again when writes succeed. -/
def lostClimb : List (Request CInt) :=
  [⟨sampleFan.fanMinSpeed, true⟩, ⟨⟨4100, by decide⟩, false⟩, ⟨⟨4100, by decide⟩, true⟩]

theorem transparent_iff_steady_sample :
    ((∀ before r, before ++ [r] <+: lostClimb → r.written = true →
        outputAfter sampleFan (fun _ => ⟨true, 0⟩) (before ++ [r]) = r.value) ∧
      ∀ before, before <+: lostClimb →
        outputAfter sampleFan (fun _ => ⟨true, 0⟩) before =
          plainOutputAfter sampleFan (fun _ => ⟨true, 0⟩) before) ↔
      ∀ before r, before ++ [r] <+: lostClimb → r.written = true →
        lastSpeed sampleFan before = r.value →
          plainOutputAfter sampleFan (fun _ => ⟨true, 0⟩) before = r.value :=
  transparent_iff_steady rfl (fun _ => ⟨true, 0⟩) lostClimb

/-- The fan is left at 2000. -/
theorem lost_climb_not_repeated :
    ¬ ((∀ before r, before ++ [r] <+: lostClimb → r.written = true →
        outputAfter sampleFan (fun _ => ⟨true, 0⟩) (before ++ [r]) = r.value) ∧
      ∀ before, before <+: lostClimb →
        outputAfter sampleFan (fun _ => ⟨true, 0⟩) before =
          plainOutputAfter sampleFan (fun _ => ⟨true, 0⟩) before) := by
  rintro ⟨hObeys, -⟩
  have hLast := hObeys [⟨sampleFan.fanMinSpeed, true⟩, ⟨⟨4100, by decide⟩, false⟩]
    ⟨⟨4100, by decide⟩, true⟩ List.prefix_rfl rfl
  exact absurd hLast (by decide)

end Mbpfan
