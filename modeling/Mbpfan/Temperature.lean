import Mbpfan.Decimal
import Mbpfan.Sensors

/-!
# The temperature of the hottest sensor

`get_temp` answers the maximum of the readings in whole degrees, narrowed to an
`unsigned short`: a maximum of 65536 degrees or more comes out as a cooler one.
-/

namespace Mbpfan

open Library

/-- A number ends where the text ends and at a blank. -/
def EndsNumber (rest : List UInt8) : Prop := ∀ c ∈ rest.head?, isSpace c = true

instance (rest : List UInt8) : Decidable (EndsNumber rest) :=
  inferInstanceAs (Decidable (∀ c ∈ rest.head?, _))

/-- What was read is the number in decimal, and it fits in an `unsigned int`. -/
structure Poll.Reports (poll : Poll) (n : ℕ) : Prop where
  text : ∃ digits rest, poll.returned = digits ++ rest ∧ digits ≠ [] ∧
    (∀ c ∈ digits, isDigit c = true) ∧ EndsNumber rest ∧ digitsValue digits = n
  fits : n < 2 ^ 32

def ReadsAs (read : Sensor × Poll) (n : ℕ) : Prop := read.1.file = true ∧ read.2.Reports n

/-- Every read succeeds, and the largest of the readings is `m`. -/
structure Hottest (sensors : List (Sensor × Poll)) (m : ℕ) : Prop where
  found : ∃ read ∈ sensors, ReadsAs read m
  highest : ∀ read ∈ sensors, ∃ n ≤ m, ReadsAs read n

/-- The sensors one by one, with readings that are not higher. -/
def NotHotter (cooler sensors : List (Sensor × Poll)) : Prop :=
  List.Forall₂ (fun low high => ∃ n n', n ≤ n' ∧ ReadsAs low n ∧ ReadsAs high n') cooler sensors

structure ExactTemp (wild : Option ℚ → UInt32) (sensors : List (Sensor × Poll)) (m : ℕ) : Prop where
  value : (getTemp wild sensors).degrees = ⌊(m / 1000 : ℚ)⌋
  order : ∀ other, other.Perm sensors → getTemp wild other = getTemp wild sensors
  monotone : ∀ cooler, NotHotter cooler sensors → getTemp wild cooler ≤ getTemp wild sensors

variable {wild : Option ℚ → UInt32} {poll : Poll} {sensors : List (Sensor × Poll)} {m n : ℕ}
  {digits rest : List UInt8}

/-! ## The conversion of a reading -/

theorem noNul_digits (hDigits : ∀ c ∈ digits, isDigit c = true) : 0 ∉ digits := by
  intro hMem
  have hLow := (isDigit_bounds (hDigits 0 hMem)).1
  exact absurd hLow (by decide)

theorem digitValue_eq {c : UInt8} (h : isDigit c = true) : (digitValue c : ℤ) = c.toNat - 48 := by
  have hLow : 48 ≤ c.toNat := (of_decide_eq_true h).1
  rw [digitValue, if_pos h]
  omega

theorem digitsValue_eq (hDigits : ∀ c ∈ digits, isDigit c = true) :
    digitsValue digits = (digits.foldl (fun n c => 10 * n + digitValue c) 0 : ℕ) := by
  have hFold : ∀ k : ℕ, digits.foldl (fun (n : ℤ) c => 10 * n + (c.toNat - 48)) k =
      (digits.foldl (fun n c => 10 * n + digitValue c) k : ℕ) := by
    induction digits with
    | nil => exact fun k => rfl
    | cons c digits ih =>
      intro k
      rw [List.foldl_cons, List.foldl_cons, ← digitValue_eq (hDigits c List.mem_cons_self)]
      exact_mod_cast ih (fun d hMem => hDigits d (List.mem_cons_of_mem c hMem)) _
  rw [digitsValue, List.takeWhile_eq_self_iff.mpr hDigits]
  exact hFold 0

theorem EndsNumber.endsDigits (h : EndsNumber rest) : EndsDigits rest := by
  intro c hHead
  have hSpace := isSpace_bounds (h c hHead)
  refine decide_eq_false fun hDigit => ?_
  have hLow : 48 ≤ c.toNat := hDigit.1
  omega

theorem EndsNumber.upToNul (h : EndsNumber rest) : EndsNumber (upToNul rest) := by
  intro c hHead
  cases rest with
  | nil => cases hHead
  | cons d rest =>
    rw [Mbpfan.upToNul, List.takeWhile_cons] at hHead
    split_ifs at hHead
    · exact h c hHead
    · cases hHead

theorem toLower_eq {c : UInt8} (h : c.toNat ≤ 57) : toLower c = c := by
  refine if_neg fun hUpper => ?_
  have hLow : 65 ≤ c.toNat := hUpper.1
  omega

theorem exponentPart_eq (h : EndsNumber rest) : exponentPart 'e' rest = 0 := by
  cases rest with
  | nil => rfl
  | cons c rest =>
    have hSpace := isSpace_bounds (h c rfl)
    have hLetter : c ≠ chr 'e' := by
      rintro rfl
      exact absurd hSpace (by decide)
    rw [exponentPart, toLower_eq (by omega), if_pos hLetter]

theorem numeral_digits (hDigits : ∀ c ∈ digits, isDigit c = true) (hRest : EndsNumber rest) :
    numeral 10 isDigit 10 'e' (digits ++ rest) = digitsValue digits := by
  have hPoint : ¬ rest.head? = some (chr '.') := fun hHead => absurd (hRest _ hHead) (by decide)
  simp only [numeral, takeWhile_digits hDigits hRest.endsDigits,
    dropWhile_digits hDigits hRest.endsDigits, if_neg hPoint, exponentPart_eq hRest,
    List.append_nil, List.length_nil, pow_zero, div_one, zpow_zero, mul_one,
    digitsValue_eq hDigits]
  norm_cast

theorem EndsNumber.head?_le (hRest : EndsNumber rest) (hDigits : ∀ c ∈ digits, isDigit c = true) :
    ∀ c ∈ (digits ++ rest).head?, c.toNat ≤ 57 := by
  cases digits with
  | nil => exact fun c hHead => (isSpace_bounds (hRest c hHead)).trans (by decide)
  | cons d digits =>
    rintro c ⟨⟩
    exact (isDigit_bounds (hDigits d List.mem_cons_self)).2

/-- Digits do not begin a name, nor a hexadecimal number. -/
theorem magnitude_digits (hNonempty : digits ≠ []) (hDigits : ∀ c ∈ digits, isDigit c = true)
    (hRest : EndsNumber rest) : magnitude (digits ++ rest) = some (digitsValue digits : ℚ) := by
  have hValue := numeral_digits hDigits hRest
  cases digits with
  | nil => exact absurd rfl hNonempty
  | cons d digits =>
    have hFirst := isDigit_bounds (hDigits d List.mem_cons_self)
    have hSecond := hRest.head?_le fun c hMem => hDigits c (List.mem_cons_of_mem d hMem)
    have hName : chr 'i' ≠ d ∧ chr 'n' ≠ d := by
      constructor <;> rintro rfl <;> exact absurd hFirst (by decide)
    have hHead {c : UInt8} {s : List UInt8} (h : c :: s <+: ((d :: digits) ++ rest).map toLower) :
        c = d ∧ s <+: (digits ++ rest).map toLower := by
      rw [List.cons_append, List.map_cons, toLower_eq hFirst.2] at h
      exact List.cons_prefix_cons.mp h
    have hInf : ¬ cstring "inf" <+: ((d :: digits) ++ rest).map toLower :=
      fun h => hName.1 (hHead h).1
    have hNan : ¬ cstring "nan" <+: ((d :: digits) ++ rest).map toLower :=
      fun h => hName.2 (hHead h).1
    have hHex : ¬ cstring "0x" <+: ((d :: digits) ++ rest).map toLower := by
      intro h
      obtain ⟨-, hMark⟩ := hHead h
      cases hTail : digits ++ rest with
      | nil =>
        rw [hTail] at hMark
        exact absurd hMark (by decide)
      | cons c tail =>
        have hLow : c.toNat ≤ 57 := hSecond c (by rw [hTail]; rfl)
        rw [hTail, List.map_cons, toLower_eq hLow] at hMark
        have hLetter : chr 'x' = c := (List.cons_prefix_cons.mp hMark).1
        exact absurd (hLetter ▸ hLow) (by decide)
    rw [magnitude, if_neg (not_or.mpr ⟨hInf, hNan⟩), if_neg hHex, hValue]

theorem strtod_digits (hNonempty : digits ≠ []) (hDigits : ∀ c ∈ digits, isDigit c = true)
    (hRest : EndsNumber rest) : strtod (digits ++ rest) = some (double (digitsValue digits)) := by
  have hMagnitude := magnitude_digits hNonempty hDigits hRest
  cases digits with
  | nil => exact absurd rfl hNonempty
  | cons d digits =>
    have hFirst := isDigit_bounds (hDigits d List.mem_cons_self)
    have hSpace : ¬ isSpace d = true := fun h => absurd (isSpace_bounds h) (by omega)
    have hSign : d ≠ chr '-' ∧ d ≠ chr '+' := by
      constructor <;> rintro rfl <;> exact absurd hFirst (by decide)
    rw [List.cons_append] at hMagnitude ⊢
    rw [strtod, List.dropWhile_cons_of_neg hSpace]
    simp only [if_neg hSign.1, if_neg hSign.2, hMagnitude, Option.map_some]

theorem Poll.text_of_returned (h : poll.returned ≠ []) : poll.text = upToNul poll.returned := by
  cases hResult : poll.result with
  | none => exact absurd (by rw [Poll.returned, hResult]) h
  | some bytes => rw [Poll.text_eq hResult, Poll.returned, hResult]

/-- The number goes through `double` and `unsigned int` unchanged. -/
theorem Poll.Reports.toUnsigned_eq (h : poll.Reports n) :
    toUnsigned wild (strtod poll.text) = UInt32.ofNat n := by
  obtain ⟨digits, rest, hReturned, hNonempty, hDigits, hRest, hValue⟩ := h.text
  have hText : poll.text = digits ++ upToNul rest := by
    rw [Poll.text_of_returned (by simp [hReturned, hNonempty]), hReturned,
      upToNul_append (noNul_digits hDigits)]
  have hExact : double (n : ℤ) = (n : ℤ) := by
    apply roundFloat_intCast (by decide)
    have hFits : (n : ℤ) < 2 ^ 32 := by exact_mod_cast h.fits
    rw [Nat.abs_cast]
    exact hFits.le.trans (by norm_num)
  have hTruncate : Platform.truncate ((n : ℤ) : ℚ) = n := by simp [Platform.truncate]
  rw [hText, strtod_digits hNonempty hDigits hRest.upToNul, hValue, hExact]
  have hFits : n < 4294967296 := h.fits
  simp only [toUnsigned, hTruncate]
  rw [if_pos ⟨Int.natCast_nonneg n, by exact_mod_cast hFits⟩, Int.toNat_natCast]

/-! ## The maximum -/

theorem toNat_max (a b : UInt32) : (max a b).toNat = max a.toNat b.toNat := by
  have hMax : (max a b).toNat = if a.toNat ≤ b.toNat then b.toNat else a.toNat :=
    apply_ite UInt32.toNat _ _ _
  rw [hMax, max_def]

theorem foldl_max_le_iff {sensors : List Sensor} {temp : UInt32} {bound : ℕ} :
    (sensors.foldl (fun temp (sensor : Sensor) => max temp sensor.temperature) temp).toNat ≤ bound ↔
      temp.toNat ≤ bound ∧ ∀ sensor ∈ sensors, sensor.temperature.toNat ≤ bound := by
  induction sensors generalizing temp with
  | nil => simp
  | cons sensor sensors ih =>
    rw [List.foldl_cons, ih, toNat_max, max_le_iff, List.forall_mem_cons, and_assoc]

def maxTemperature (wild : Option ℚ → UInt32) (sensors : List (Sensor × Poll)) : ℕ :=
  ((refreshSensors wild sensors).foldl
    (fun temp (sensor : Sensor) => max temp sensor.temperature) 0).toNat

theorem getTemp_toNat (wild : Option ℚ → UInt32) (sensors : List (Sensor × Poll)) :
    (getTemp wild sensors).toNat = maxTemperature wild sensors / 1000 % 65536 := by
  rw [getTemp, hottest, UInt16.toNat_ofNat', maxTemperature]

theorem maxTemperature_le_iff {bound : ℕ} : maxTemperature wild sensors ≤ bound ↔
    ∀ read ∈ sensors, (refreshSensor wild read.1 read.2).temperature.toNat ≤ bound := by
  rw [maxTemperature, foldl_max_le_iff, refreshSensors, List.forall_mem_map]
  exact and_iff_right (Nat.zero_le bound)

theorem ReadsAs.temperature_eq {read : Sensor × Poll} (h : ReadsAs read n) :
    (refreshSensor wild read.1 read.2).temperature.toNat = n := by
  rw [refreshSensor, if_pos h.1, h.2.toUnsigned_eq, UInt32.toNat_ofNat', Nat.mod_eq_of_lt h.2.fits]

theorem Hottest.maxTemperature_eq (h : Hottest sensors m) : maxTemperature wild sensors = m := by
  refine le_antisymm (maxTemperature_le_iff.mpr fun read hMem => ?_) ?_
  · obtain ⟨n, hLe, hReads⟩ := h.highest read hMem
    exact hReads.temperature_eq.trans_le hLe
  · obtain ⟨read, hMem, hReads⟩ := h.found
    have hValue : (refreshSensor wild read.1 read.2).temperature.toNat = m := hReads.temperature_eq
    rw [← hValue]
    exact maxTemperature_le_iff.mp le_rfl read hMem

theorem Hottest.perm {other : List (Sensor × Poll)} (h : Hottest sensors m)
    (hPerm : other.Perm sensors) : Hottest other m := by
  obtain ⟨read, hMem, hReads⟩ := h.found
  exact ⟨⟨read, hPerm.mem_iff.mpr hMem, hReads⟩, fun read hMem => h.highest read (hPerm.mem_iff.mp hMem)⟩

theorem NotHotter.maxTemperature_le {cooler : List (Sensor × Poll)} (h : NotHotter cooler sensors) :
    maxTemperature wild cooler ≤ maxTemperature wild sensors := by
  rw [maxTemperature_le_iff]
  have hSelf := maxTemperature_le_iff.mp (le_refl (maxTemperature wild sensors))
  generalize maxTemperature wild sensors = bound at hSelf
  induction h with
  | nil => simp
  | cons hHead _ ih =>
    obtain ⟨n, n', hLe, hLow, hHigh⟩ := hHead
    obtain ⟨hFirst, hRest⟩ := List.forall_mem_cons.mp hSelf
    rw [hHigh.temperature_eq] at hFirst
    rw [List.forall_mem_cons, hLow.temperature_eq]
    exact ⟨hLe.trans hFirst, ih hRest⟩

/-- The answer is the largest reading in whole degrees exactly when that is below 65536
degrees. -/
theorem exactTemp_iff (wild : Option ℚ → UInt32) (h : Hottest sensors m) :
    ExactTemp wild sensors m ↔ m < 65536000 := by
  have hMax : maxTemperature wild sensors = m := h.maxTemperature_eq
  have hFloor : ⌊(m / 1000 : ℚ)⌋ = (m / 1000 : ℕ) := by
    simpa using Rat.floor_natCast_div_natCast m 1000
  constructor
  · intro hExact
    have hValue := hExact.value
    rw [hFloor, Reading.degrees, getTemp_toNat, hMax] at hValue
    omega
  · intro hBound
    have hFits : m / 1000 < 65536 := by omega
    refine ⟨?_, fun other hPerm => ?_, fun cooler hCooler => ?_⟩
    · rw [hFloor, Reading.degrees, getTemp_toNat, hMax, Nat.mod_eq_of_lt hFits]
    · apply UInt16.toNat_inj.mp
      rw [getTemp_toNat, getTemp_toNat, hMax, (h.perm hPerm).maxTemperature_eq]
    · have hLe : maxTemperature wild cooler ≤ m := hMax ▸ hCooler.maxTemperature_le
      rw [UInt16.le_iff_toNat_le, getTemp_toNat, getTemp_toNat, hMax]
      omega

def digitsRead (digits : List UInt8) (h : digits.length < bufferSize) : Sensor × Poll :=
  (⟨true, 0⟩, ⟨some ⟨digits ++ [chr '\n'], by simpa [Nat.succ_le_iff] using h⟩, sampleMemory⟩)

theorem digitsRead_readsAs (h : digits.length < bufferSize) (hNonempty : digits ≠ [])
    (hDigits : ∀ c ∈ digits, isDigit c = true) (hValue : digitsValue digits = n)
    (hFits : n < 2 ^ 32) : ReadsAs (digitsRead digits h) n :=
  ⟨rfl, ⟨digits, [chr '\n'], rfl, hNonempty, hDigits, by decide +kernel, hValue⟩, hFits⟩

theorem exactTemp_iff_sample :
    ExactTemp (fun _ => 0) [digitsRead (cstring "66000") (by decide),
        digitsRead (cstring "71500") (by decide)] 71500 ↔ 71500 < 65536000 := by
  have hFirst : ReadsAs (digitsRead (cstring "66000") (by decide)) 66000 :=
    digitsRead_readsAs _ (by decide) (by decide +kernel) (by decide +kernel) (by decide)
  have hSecond : ReadsAs (digitsRead (cstring "71500") (by decide)) 71500 :=
    digitsRead_readsAs _ (by decide) (by decide +kernel) (by decide +kernel) (by decide)
  apply exactTemp_iff (fun _ => 0)
  refine ⟨⟨_, by simp, hSecond⟩, List.forall_mem_cons.mpr ⟨⟨66000, by decide, hFirst⟩, ?_⟩⟩
  exact List.forall_mem_singleton.mpr ⟨71500, le_rfl, hSecond⟩

/-- A reading of 65536 degrees comes out as 0. -/
theorem hot_reading_not_exact :
    Hottest [digitsRead (cstring "65536000") (by decide)] 65536000 ∧
      ¬ ExactTemp (fun _ => 0) [digitsRead (cstring "65536000") (by decide)] 65536000 := by
  have hReads : ReadsAs (digitsRead (cstring "65536000") (by decide)) 65536000 :=
    digitsRead_readsAs _ (by decide) (by decide +kernel) (by decide +kernel) (by decide)
  have hHottest : Hottest [digitsRead (cstring "65536000") (by decide)] 65536000 :=
    ⟨⟨_, by simp, hReads⟩, List.forall_mem_singleton.mpr ⟨_, le_rfl, hReads⟩⟩
  refine ⟨hHottest, fun hExact => ?_⟩
  have hValue := hExact.value
  rw [Reading.degrees, getTemp_toNat, hHottest.maxTemperature_eq] at hValue
  norm_num at hValue

end Mbpfan
