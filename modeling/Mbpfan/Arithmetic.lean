import Mbpfan.Run
import Mbpfan.Reload

/-!
# Where the arithmetic is defined

The formulas of the startup and of the loop body once more, each refused where an int
operation overflows, a divisor is zero or a quotient does not fit an int. The two checks of
the startup order the thresholds and the speeds; they bound no difference, and they let two
thresholds coincide.
-/

namespace Mbpfan

open Library

def stepForChecked (range width : CInt) : Option CInt := do
  let next ← CInt.checked (width + 1)
  let product ← CInt.checked (width * next)
  if float (product / 2) = 0 then none
  else CInt.checked (Platform.truncate (float (float range / float (product / 2))))

def stepUpForChecked (p : Params) (fan : Fan) : Option CInt := do
  let range ← CInt.checked (fan.fanMaxSpeed - fan.fanMinSpeed)
  let width ← CInt.checked (p.maxTemp - p.highTemp)
  stepForChecked range width

def stepDownForChecked (p : Params) (fan : Fan) : Option CInt := do
  let range ← CInt.checked (fan.fanMaxSpeed - fan.fanMinSpeed)
  let width ← CInt.checked (p.maxTemp - p.lowTemp)
  stepForChecked range width

def setStepsChecked (p : Params) (fan : Fan) : Option Fan := do
  let stepUp ← stepUpForChecked p fan
  let stepDown ← stepDownForChecked p fan
  return { fan with stepUp := stepUp, stepDown := stepDown }

def stepsForChecked (width : CInt) : Option ℤ := do
  let next ← CInt.checked (width + 1)
  let product ← CInt.checked (width * next)
  return (product : ℤ).tdiv 2

def rampUpChecked (p : Params) (newTemp : Reading) (fan : Fan) : Option CInt := do
  let width ← CInt.checked (newTemp.degrees - p.highTemp)
  let steps ← stepsForChecked width
  let climb ← CInt.checked (steps * fan.stepUp)
  CInt.checked (fan.fanMinSpeed + climb)

def rampDownChecked (p : Params) (newTemp : Reading) (fan : Fan) : Option CInt := do
  let width ← CInt.checked (p.maxTemp - newTemp.degrees)
  let steps ← stepsForChecked width
  let descent ← CInt.checked (steps * fan.stepDown)
  CInt.checked (fan.fanMaxSpeed - descent)

def fanSpeedChecked (p : Params) (oldTemp newTemp : Reading) (fan : Fan) : Option CInt :=
  let speed := fan.oldSpeed
  let speed :=
    if newTemp.degrees ≥ p.maxTemp ∧ fan.oldSpeed ≠ fan.fanMaxSpeed then fan.fanMaxSpeed
    else speed
  let speed :=
    if newTemp.degrees ≤ p.lowTemp ∧ speed ≠ fan.fanMinSpeed then fan.fanMinSpeed else speed
  (CInt.checked (newTemp.degrees - oldTemp.degrees)).bind fun tempChange =>
  let raised :=
    if (tempChange : ℤ) > 0 ∧ newTemp.degrees > p.highTemp ∧ newTemp.degrees < p.maxTemp then
      (rampUpChecked p newTemp fan).map (max speed)
    else some speed
  raised.bind fun speed =>
    if (tempChange : ℤ) < 0 ∧ newTemp.degrees > p.lowTemp ∧ newTemp.degrees < p.maxTemp then
      (rampDownChecked p newTemp fan).map (min speed)
    else some speed

/-- The startup computes the steps of the fan, and every iteration a speed for it. -/
def FanArithmeticSafe (p : Params) (fan : Fan) : Prop :=
  ∃ fitted, setStepsChecked p fan = some fitted ∧ ∀ (speed : CInt) (oldTemp newTemp : Reading),
    (fanSpeedChecked p oldTemp newTemp (fitted.withSpeed speed)).isSome

def ArithmeticSafe (p : Params) (fans : List Fan) : Prop :=
  (∀ fan ∈ fans, FanArithmeticSafe p fan) ∧ (CInt.checked (2 * p.pollingInterval)).isSome

structure FanSafeRegion (p : Params) (fan : Fan) : Prop where
  range : (fan.fanMaxSpeed : ℤ) - fan.fanMinSpeed ≤ 2147483647
  proper : p.highTemp < p.maxTemp
  width : (p.maxTemp : ℤ) - p.lowTemp ≤ 46340
  -- The whole range in one step: from here on it rounds to `2 ^ 31`.
  steep : (p.maxTemp : ℤ) - p.highTemp = 1 →
    (fan.fanMaxSpeed : ℤ) - fan.fanMinSpeed < 2147483584

def SafeRegion (p : Params) (fans : List Fan) : Prop :=
  (∀ fan ∈ fans, FanSafeRegion p fan) ∧
    -1073741824 ≤ (p.pollingInterval : ℤ) ∧ (p.pollingInterval : ℤ) ≤ 1073741823

variable {π : Platform} {p : Params} {fan fitted : Fan} {fans : List Fan}

/-! ## A result that is not refused is the result on every platform -/

theorem stepFor_of_checked {range width step : CInt}
    (h : stepForChecked range width = some step) (π : Platform) :
    stepFor π range width = step := by
  simp only [stepForChecked, Option.bind_eq_bind, Option.bind_eq_some_iff] at h
  obtain ⟨next, hNext, product, hProduct, hStep⟩ := h
  rw [stepFor, CInt.int_of_checked π hNext, CInt.int_of_checked π hProduct]
  split_ifs at hStep with hZero
  simp only [if_neg hZero]
  exact CInt.cast_of_checked π hStep

theorem setSteps_of_checked (h : setStepsChecked p fan = some fitted) (π : Platform) :
    setSteps π p fan = fitted := by
  simp only [setStepsChecked, stepUpForChecked, stepDownForChecked, Option.bind_eq_bind,
    Option.bind_eq_some_iff, Option.pure_def, Option.some_inj] at h
  obtain ⟨_, ⟨range, hRange, up, hUp, hStepUp⟩, _, ⟨_, hRange', down, hDown, hStepDown⟩, rfl⟩ := h
  obtain rfl := Option.some_inj.mp (hRange.symm.trans hRange')
  rw [setSteps, stepUpFor, stepDownFor, CInt.int_of_checked π hRange, CInt.int_of_checked π hUp,
    CInt.int_of_checked π hDown, stepFor_of_checked hStepUp, stepFor_of_checked hStepDown]

theorem stepsFor_of_checked {width : CInt} {steps : ℤ} (h : stepsForChecked width = some steps)
    (π : Platform) : stepsFor π width = steps := by
  simp only [stepsForChecked, Option.bind_eq_bind, Option.bind_eq_some_iff, Option.pure_def,
    Option.some_inj] at h
  obtain ⟨next, hNext, product, hProduct, rfl⟩ := h
  rw [stepsFor, CInt.int_of_checked π hNext, CInt.int_of_checked π hProduct]

theorem rampUp_of_checked {newTemp : Reading} {speed : CInt}
    (h : rampUpChecked p newTemp fan = some speed) (π : Platform) :
    rampUp π p newTemp fan = speed := by
  simp only [rampUpChecked, Option.bind_eq_bind, Option.bind_eq_some_iff] at h
  obtain ⟨width, hWidth, steps, hSteps, climb, hClimb, hSpeed⟩ := h
  rw [rampUp, CInt.int_of_checked π hWidth, stepsFor_of_checked hSteps,
    CInt.int_of_checked π hClimb, CInt.int_of_checked π hSpeed]

theorem rampDown_of_checked {newTemp : Reading} {speed : CInt}
    (h : rampDownChecked p newTemp fan = some speed) (π : Platform) :
    rampDown π p newTemp fan = speed := by
  simp only [rampDownChecked, Option.bind_eq_bind, Option.bind_eq_some_iff] at h
  obtain ⟨width, hWidth, steps, hSteps, descent, hDescent, hSpeed⟩ := h
  rw [rampDown, CInt.int_of_checked π hWidth, stepsFor_of_checked hSteps,
    CInt.int_of_checked π hDescent, CInt.int_of_checked π hSpeed]

theorem branch_of_checked {c : Prop} [Decidable c] {f : CInt → CInt} {checkedRamp : Option CInt}
    {ramp speed result : CInt} (hRamp : ∀ v, checkedRamp = some v → ramp = v)
    (h : (if c then checkedRamp.map f else some speed) = some result) :
    (if c then f ramp else speed) = result := by
  split_ifs at h ⊢
  · obtain ⟨v, hv, rfl⟩ := Option.map_eq_some_iff.mp h
    rw [hRamp v hv]
  · exact Option.some_inj.mp h

theorem fanSpeed_of_checked {oldTemp newTemp : Reading} {speed : CInt}
    (h : fanSpeedChecked p oldTemp newTemp fan = some speed) (π : Platform) :
    fanSpeed π p oldTemp newTemp fan = speed := by
  simp only [fanSpeedChecked, Option.bind_eq_some_iff] at h
  obtain ⟨tempChange, hChange, raised, hRaised, hSpeed⟩ := h
  have hRise := branch_of_checked (fun _ hRamp => rampUp_of_checked hRamp π) hRaised
  simp only [fanSpeed, CInt.int_of_checked π hChange, hRise]
  exact branch_of_checked (fun _ hRamp => rampDown_of_checked hRamp π) hSpeed

/-! ## The step sizes -/

theorem truncate_of_nonneg {q : ℚ} (hq : 0 ≤ q) : Platform.truncate q = ⌊q⌋ := if_pos hq

theorem product_inInt_iff {n : ℤ} (hn : 0 ≤ n) : InInt (n * (n + 1)) ↔ n ≤ 46340 := by
  constructor
  · intro h
    linarith [(inInt_of_product hn h).2.2]
  · intro hLe
    constructor <;> nlinarith

/-- The range divided by a single part is the range rounded to single precision. -/
theorem whole_range_inInt_iff {range : CInt} (hRange : 0 ≤ (range : ℤ)) :
    InInt ⌊float (float (range : ℤ) / float (tri 1))⌋ ↔ (range : ℤ) < 2147483584 := by
  have hOne : float (tri 1) = 1 := by
    exact_mod_cast roundFloat_intCast (p := 24) (k := 1) (by decide) (by decide)
  have hNonneg : (0 : ℚ) ≤ (range : ℤ) := by exact_mod_cast hRange
  have hLt : ((range : ℤ) : ℚ) < 2 ^ (31 : ℤ) := by
    have hTop := range.2.2
    have hLtInt : (range : ℤ) < 2 ^ 31 := by omega
    exact_mod_cast hLtInt
  have hRound : float (float (range : ℤ)) = float (range : ℤ) :=
    (representable_roundFloat 24 _).roundFloat_eq (by decide)
  have hIff := roundFloat_lt_two_zpow_iff (p := 24) (by decide) hNonneg hLt
  have hFloorNonneg : 0 ≤ ⌊float (range : ℤ)⌋ := Int.floor_nonneg.mpr (roundFloat_nonneg hNonneg)
  rw [hOne, div_one, hRound]
  constructor
  · intro hIn
    have hFloat : float (range : ℤ) < 2 ^ (31 : ℤ) := by
      have hFloor : ⌊float (range : ℤ)⌋ < 2147483648 := by linarith [hIn.2]
      have hRat := Int.floor_lt.mp hFloor
      norm_num at hRat ⊢
      exact hRat
    have hRat := hIff.mp hFloat
    norm_num at hRat
    exact_mod_cast hRat
  · intro hBelow
    have hRat : ((range : ℤ) : ℚ) < 2 ^ (31 : ℤ) - 2 ^ ((31 : ℤ) - (24 : ℕ)) / 2 := by
      norm_num
      exact_mod_cast hBelow
    have hFloat := hIff.mpr hRat
    have hFloor : ⌊float (range : ℤ)⌋ < 2147483648 := by
      apply Int.floor_lt.mpr
      norm_num at hFloat ⊢
      exact hFloat
    constructor <;> omega

theorem isSome_stepForChecked_iff {range width : CInt} (hRange : 0 ≤ (range : ℤ))
    (hWidth : 0 ≤ (width : ℤ)) :
    (stepForChecked range width).isSome ↔
      0 < (width : ℤ) ∧ (width : ℤ) ≤ 46340 ∧ ((width : ℤ) = 1 → (range : ℤ) < 2147483584) := by
  have hNonneg : (0 : ℚ) ≤ (range : ℤ) := by exact_mod_cast hRange
  have hSplit : (stepForChecked range width).isSome ↔
      InInt ((width : ℤ) + 1) ∧ InInt ((width : ℤ) * (width + 1)) ∧ float (tri width) ≠ 0 ∧
        InInt (Platform.truncate (float (float (range : ℤ) / float (tri width)))) := by
    rw [stepForChecked]
    simp only [CInt.isSome_checked_bind, exists_prop, half_product_eq]
    refine and_congr_right fun _ => and_congr_right fun _ => ?_
    split_ifs with hZero
    · simp [hZero]
    · simp [hZero]
  rcases hWidth.eq_or_lt with hZero | hPos
  · have hFloat : float (tri width) = 0 := by
      rw [← hZero]
      exact roundFloat_zero 24
    rw [hSplit]
    exact iff_of_false (fun h => h.2.2.1 hFloat) (fun h => by omega)
  have hTri : (0 : ℚ) < tri width := by exact_mod_cast tri_pos hPos
  have hFloat : float (tri width) ≠ 0 := (roundFloat_pos (by decide) hTri).ne'
  have hQuotient : 0 ≤ float (float (range : ℤ) / float (tri width)) :=
    roundFloat_nonneg (div_nonneg (roundFloat_nonneg hNonneg) (roundFloat_nonneg hTri.le))
  rw [hSplit, truncate_of_nonneg hQuotient, product_inInt_iff hWidth]
  constructor
  · rintro ⟨_, hLe, _, hIn⟩
    refine ⟨hPos, hLe, fun hOne => ?_⟩
    rw [hOne] at hIn
    exact (whole_range_inInt_iff hRange).mp hIn
  · rintro ⟨_, hLe, hSteep⟩
    refine ⟨⟨by omega, by omega⟩, hLe, hFloat, ?_⟩
    rcases (Int.add_one_le_iff.mpr hPos).eq_or_lt with hOne | hTwo
    · rw [← hOne]
      exact (whole_range_inInt_iff hRange).mpr (hSteep hOne.symm)
    · rw [← stepFor_eq_floor (π := Platform.wrap) hRange hTwo ((product_inInt_iff hWidth).mpr hLe)]
      exact (stepFor Platform.wrap range width).2

/-- The startup's division for one ramp, given its width before it is checked. -/
theorem isSome_step_iff {low high : CInt} (hSpeeds : fan.fanMinSpeed ≤ fan.fanMaxSpeed)
    (hTemps : low ≤ high) :
    (do
      let range ← CInt.checked (fan.fanMaxSpeed - fan.fanMinSpeed)
      let width ← CInt.checked (high - low)
      stepForChecked range width).isSome ↔
    (fan.fanMaxSpeed : ℤ) - fan.fanMinSpeed ≤ 2147483647 ∧
      low < high ∧ (high : ℤ) - low ≤ 46340 ∧
      ((high : ℤ) - low = 1 → (fan.fanMaxSpeed : ℤ) - fan.fanMinSpeed < 2147483584) := by
  have hRange : (0 : ℤ) ≤ fan.fanMaxSpeed - fan.fanMinSpeed := sub_nonneg.mpr hSpeeds
  have hWidth : (0 : ℤ) ≤ high - low := sub_nonneg.mpr hTemps
  have hLt : low < high ↔ (0 : ℤ) < high - low := (sub_pos (a := (high : ℤ)) (b := low)).symm
  simp only [CInt.isSome_checked_bind, hLt]
  constructor
  · rintro ⟨hRangeIn, hWidthIn, hStep⟩
    exact ⟨hRangeIn.2, (isSome_stepForChecked_iff hRange hWidth).mp hStep⟩
  · rintro ⟨hRangeLe, hWidths⟩
    have hWidthIn : InInt ((high : ℤ) - low) := ⟨by omega, by omega⟩
    exact ⟨⟨by omega, hRangeLe⟩, hWidthIn, (isSome_stepForChecked_iff hRange hWidth).mpr hWidths⟩

theorem FanSafeRegion.accepted (h : FanSafeRegion p fan) (hSpeeds : fan.fanMinSpeed ≤ fan.fanMaxSpeed)
    (hTemps : p.lowTemp ≤ p.highTemp) : Accepted p fan := by
  have hProper : (p.highTemp : ℤ) < p.maxTemp := h.proper
  have hLowHigh : (p.lowTemp : ℤ) ≤ p.highTemp := hTemps
  have hMinMax : (fan.fanMinSpeed : ℤ) ≤ fan.fanMaxSpeed := hSpeeds
  have hWidth := h.width
  refine ⟨hSpeeds, hTemps, h.proper, ⟨by omega, h.range⟩, ?_, ?_⟩
  · exact (product_inInt_iff (by omega)).mpr (by omega)
  · exact (product_inInt_iff (by omega)).mpr hWidth

theorem setStepsChecked_isSome_iff (hSpeeds : fan.fanMinSpeed ≤ fan.fanMaxSpeed)
    (hTemps : p.lowTemp ≤ p.highTemp) (hOrder : p.highTemp ≤ p.maxTemp) :
    (setStepsChecked p fan).isSome ↔ FanSafeRegion p fan := by
  have hUp := isSome_step_iff hSpeeds hOrder
  have hDown := isSome_step_iff hSpeeds (hTemps.trans hOrder)
  have hLowHigh : (p.lowTemp : ℤ) ≤ p.highTemp := hTemps
  have hBoth : (setStepsChecked p fan).isSome ↔
      (stepUpForChecked p fan).isSome ∧ (stepDownForChecked p fan).isSome := by
    rw [setStepsChecked]
    cases stepUpForChecked p fan <;> cases stepDownForChecked p fan <;> simp
  rw [hBoth, stepUpForChecked, stepDownForChecked, hUp, hDown]
  constructor
  · rintro ⟨⟨hRange, hProper, _, hSteep⟩, _, _, hWidth, _⟩
    exact ⟨hRange, hProper, hWidth, hSteep⟩
  · intro h
    have hProper : (p.highTemp : ℤ) < p.maxTemp := h.proper
    have hWidth := h.width
    refine ⟨⟨h.range, h.proper, by omega, h.steep⟩, h.range, hTemps.trans_lt h.proper, hWidth, ?_⟩
    intro hOne
    exact h.steep (by omega)

/-! ## The ramps -/

theorem stepsForChecked_eq {width : CInt} (hn : 0 ≤ (width : ℤ))
    (h : InInt ((width : ℤ) * (width + 1))) : stepsForChecked width = some (tri width) := by
  have hNext := (inInt_of_product hn h).2.1
  rw [stepsForChecked, CInt.checked_of_inInt hNext]
  simp only [Option.bind_eq_bind, Option.bind_some, CInt.checked_of_inInt h, Option.pure_def,
    Int.tdiv_eq_ediv_of_nonneg (mul_nonneg hn (show (0 : ℤ) ≤ width + 1 by omega)), tri]

theorem Accepted.isSome_rampUpChecked (h : Accepted p fan) (hf : Fitted π p fan)
    {newTemp : Reading} (hHigh : p.highTemp < newTemp.degrees)
    (hMax : newTemp.degrees < p.maxTemp) : (rampUpChecked p newTemp fan).isSome := by
  obtain ⟨hClimb, hRamp⟩ := h.upRamp_inInt hf hHigh hMax
  have hWidth : newTemp.degrees - p.highTemp ≤ 46340 := by
    have hLt := h.down_width_lt
    have hTemps := h.temps'
    omega
  have hNonneg : 0 ≤ newTemp.degrees - p.highTemp := by omega
  have hProduct := (product_inInt_iff hNonneg).mpr hWidth
  rw [rampUpChecked, CInt.isSome_checked_bind]
  refine ⟨(inInt_of_product hNonneg hProduct).1, ?_⟩
  rw [stepsForChecked_eq hNonneg hProduct, Option.bind_eq_bind, Option.bind_some, mul_comm,
    CInt.isSome_checked_bind]
  exact ⟨hClimb, CInt.isSome_checked.mpr hRamp⟩

theorem Accepted.isSome_rampDownChecked (h : Accepted p fan) (hf : Fitted π p fan)
    {newTemp : Reading} (hLow : p.lowTemp < newTemp.degrees)
    (hMax : newTemp.degrees < p.maxTemp) : (rampDownChecked p newTemp fan).isSome := by
  obtain ⟨hDescent, hRamp⟩ := h.downRamp_inInt hf hLow hMax
  have hWidth : p.maxTemp - newTemp.degrees ≤ 46340 := by
    have hLt := h.down_width_lt
    omega
  have hNonneg : 0 ≤ p.maxTemp - newTemp.degrees := by omega
  have hProduct := (product_inInt_iff hNonneg).mpr hWidth
  rw [rampDownChecked, CInt.isSome_checked_bind]
  refine ⟨(inInt_of_product hNonneg hProduct).1, ?_⟩
  rw [stepsForChecked_eq hNonneg hProduct, Option.bind_eq_bind, Option.bind_some, mul_comm,
    CInt.isSome_checked_bind]
  exact ⟨hDescent, CInt.isSome_checked.mpr hRamp⟩

theorem isSome_branch {c : Prop} [Decidable c] {f : CInt → CInt} {ramp : Option CInt}
    (speed : CInt) (h : c → ramp.isSome) : (if c then ramp.map f else some speed).isSome := by
  split_ifs with hc
  · rw [Option.isSome_map]
    exact h hc
  · rfl

theorem isSome_bind {x : Option CInt} {f : CInt → Option CInt} (hx : x.isSome)
    (hf : ∀ v, (f v).isSome) : (x.bind f).isSome := by
  obtain ⟨v, rfl⟩ := Option.isSome_iff_exists.mp hx
  exact hf v

theorem isSome_fanSpeedChecked {oldTemp newTemp : Reading}
    (hUp : Rises p oldTemp newTemp → (rampUpChecked p newTemp fan).isSome)
    (hDown : Falls p oldTemp newTemp → (rampDownChecked p newTemp fan).isSome) :
    (fanSpeedChecked p oldTemp newTemp fan).isSome := by
  have hChange : InInt (newTemp.degrees - oldTemp.degrees) := by
    rw [← tempChange_eq Platform.wrap]
    exact (Platform.wrap.int _).2
  simp only [fanSpeedChecked, CInt.checked_of_inInt hChange, Option.bind_some, gt_iff_lt, sub_pos,
    sub_neg]
  exact isSome_bind (isSome_branch _ hUp) fun raised => isSome_branch raised hDown

/-! ## The region -/

theorem fanArithmeticSafe_iff (hSpeeds : fan.fanMinSpeed ≤ fan.fanMaxSpeed)
    (hTemps : p.lowTemp ≤ p.highTemp) (hOrder : p.highTemp ≤ p.maxTemp) :
    FanArithmeticSafe p fan ↔ FanSafeRegion p fan := by
  rw [← setStepsChecked_isSome_iff hSpeeds hTemps hOrder]
  constructor
  · rintro ⟨fitted, hFitted, _⟩
    rw [hFitted]
    rfl
  · intro hSome
    obtain ⟨fitted, hFitted⟩ := Option.isSome_iff_exists.mp hSome
    have hRegion := (setStepsChecked_isSome_iff hSpeeds hTemps hOrder).mp hSome
    refine ⟨fitted, hFitted, fun speed oldTemp newTemp => ?_⟩
    have hEq := setSteps_of_checked hFitted Platform.wrap
    obtain ⟨hSpeeds, hTemps, hProper, hRange, hUp, hDown⟩ := hRegion.accepted hSpeeds hTemps
    have hAccepted : Accepted p (fitted.withSpeed speed) := by
      rw [← hEq]
      exact ⟨hSpeeds, hTemps, hProper, hRange, hUp, hDown⟩
    have hFits : Fitted Platform.wrap p (fitted.withSpeed speed) := by
      rw [← hEq]
      exact ⟨rfl, rfl⟩
    exact isSome_fanSpeedChecked
      (fun hRises => hAccepted.isSome_rampUpChecked hFits hRises.2.1 hRises.2.2)
      (fun hFalls => hAccepted.isSome_rampDownChecked hFits hFalls.2.1 hFalls.2.2)

/-- For parameters that pass the checks of the startup, the control arithmetic is defined
exactly on the safe region. -/
theorem arithmeticSafe_iff (h : PassesChecks p fans) :
    ArithmeticSafe p fans ↔ SafeRegion p fans := by
  obtain ⟨hSpeeds, hTemps⟩ := h
  obtain ⟨hLowHigh, hHighMax⟩ := not_or.mp hTemps
  rw [ArithmeticSafe, SafeRegion, CInt.isSome_checked]
  refine and_congr (forall₂_congr fun fan hMem => ?_) ?_
  · exact fanArithmeticSafe_iff (not_lt.mp (hSpeeds fan hMem)) (not_lt.mp hLowHigh)
      (not_lt.mp hHighMax)
  · rw [InInt]
    omega

theorem arithmeticSafe_iff_sample :
    ArithmeticSafe defaultParams sampleFans ↔ SafeRegion defaultParams sampleFans :=
  arithmeticSafe_iff (by decide)

def highTempFile : ConfFile := some (cstring "[general]\nhigh_temp = 86\n")

/-- A file that sets `high_temp` to the default of `max_temp` passes the checks, and the
startup divides by zero. -/
theorem equal_thresholds_not_safe :
    PassesChecks (retrieveSettings highTempFile defaultParams sampleFans).1
        (retrieveSettings highTempFile defaultParams sampleFans).2 ∧
      ¬ ArithmeticSafe (retrieveSettings highTempFile defaultParams sampleFans).1
        (retrieveSettings highTempFile defaultParams sampleFans).2 := by
  refine ⟨by decide +kernel, fun h => ?_⟩
  have hNone : ∀ fan ∈ (retrieveSettings highTempFile defaultParams sampleFans).2,
      setStepsChecked (retrieveSettings highTempFile defaultParams sampleFans).1 fan = none := by
    decide +kernel
  obtain ⟨fan, hMem⟩ := List.exists_mem_of_ne_nil
    (retrieveSettings highTempFile defaultParams sampleFans).2 (by decide +kernel)
  obtain ⟨fitted, hFitted, _⟩ := h.1 fan hMem
  rw [hNone fan hMem] at hFitted
  exact absurd hFitted (by simp)

end Mbpfan
