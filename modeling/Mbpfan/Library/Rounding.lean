import Mathlib.Data.Int.Log
import Mathlib.Data.Rat.Floor
import Mathlib.Algebra.Order.Field.Power
import Mathlib.Tactic.Linarith
import Mathlib.Tactic.FieldSimp
import Mathlib.Tactic.Ring

/-!
# Rounding to a binary floating point format

Rational numbers are rounded to the nearest number with a significand of `p` bits, ties
to the even significand. The exponent is unbounded, so this is the rounding of a format
wherever its numbers are normal.
-/

namespace Library

/-- The nearest integer, ties to even. -/
def roundEven (q : ℚ) : ℤ :=
  if 2 * (q - ⌊q⌋) < 1 then ⌊q⌋
  else if 1 < 2 * (q - ⌊q⌋) then ⌊q⌋ + 1
  else if ⌊q⌋ % 2 = 0 then ⌊q⌋ else ⌊q⌋ + 1

/-- The distance of neighbouring numbers with `p` bits at the magnitude of `q`. -/
def ulp (p : ℕ) (q : ℚ) : ℚ := 2 ^ (Int.log 2 |q| + 1 - p)

def roundFloat (p : ℕ) (q : ℚ) : ℚ := roundEven (q / ulp p q) * ulp p q

def Representable (p : ℕ) (x : ℚ) : Prop := ∃ m e : ℤ, |m| ≤ 2 ^ p ∧ x = m * 2 ^ e

variable {p : ℕ} {q : ℚ} {k : ℤ}

theorem roundEven_eq (q : ℚ) :
    (roundEven q = ⌊q⌋ ∧ q ≤ ⌊q⌋ + 1 / 2) ∨ (roundEven q = ⌊q⌋ + 1 ∧ ⌊q⌋ + 1 / 2 ≤ q) := by
  rw [roundEven]
  split_ifs with hLow hHigh hEven
  · exact .inl ⟨rfl, by linarith⟩
  · exact .inr ⟨rfl, by linarith⟩
  · exact .inl ⟨rfl, by linarith⟩
  · exact .inr ⟨rfl, by linarith⟩

theorem abs_roundEven_sub_le (q : ℚ) : |(roundEven q : ℚ) - q| ≤ 1 / 2 := by
  have hFloor := Int.floor_le q
  have hNext := Int.lt_floor_add_one q
  rw [abs_le]
  rcases roundEven_eq q with ⟨hEq, hHalf⟩ | ⟨hEq, hHalf⟩
  · rw [hEq]
    constructor <;> linarith
  · rw [hEq]
    push_cast
    constructor <;> linarith

theorem roundEven_intCast (k : ℤ) : roundEven (k : ℚ) = k := by
  simp [roundEven]

theorem le_roundEven (h : (k : ℚ) ≤ q) : k ≤ roundEven q := by
  have hFloor : k ≤ ⌊q⌋ := Int.le_floor.mpr h
  rcases roundEven_eq q with ⟨hEq, _⟩ | ⟨hEq, _⟩ <;> omega

theorem roundEven_le (h : q ≤ k) : roundEven q ≤ k := by
  rcases roundEven_eq q with ⟨hEq, _⟩ | ⟨hEq, hHalf⟩
  · rw [hEq]
    exact_mod_cast (Int.floor_le q).trans h
  · rw [hEq]
    have hLt : (⌊q⌋ : ℚ) < k := by linarith
    exact_mod_cast hLt

theorem ulp_pos (p : ℕ) (q : ℚ) : 0 < ulp p q := zpow_pos (by norm_num) _

theorem ulp_mul_two_pow (p : ℕ) (q : ℚ) : ulp p q * 2 ^ p = 2 * 2 ^ Int.log 2 |q| := by
  rw [ulp, ← zpow_natCast, ← zpow_add₀ (by norm_num), ← zpow_one_add₀ (by norm_num)]
  congr 1
  ring

theorem ulp_le (hq : q ≠ 0) : ulp p q * 2 ^ p ≤ 2 * |q| := by
  rw [ulp_mul_two_pow]
  have hLog : (2 : ℚ) ^ Int.log 2 |q| ≤ |q| := by
    exact_mod_cast Int.zpow_log_le_self (by decide) (abs_pos.mpr hq)
  linarith

@[simp] theorem roundFloat_zero (p : ℕ) : roundFloat p 0 = 0 := by
  have h : roundEven 0 = 0 := by exact_mod_cast roundEven_intCast 0
  rw [roundFloat, zero_div, h, Int.cast_zero, zero_mul]

theorem abs_roundFloat_sub_le (p : ℕ) (q : ℚ) : |roundFloat p q - q| * 2 ^ p ≤ |q| := by
  by_cases hq : q = 0
  · simp [hq]
  have hPos := ulp_pos p q
  have hScaled : roundFloat p q - q = ((roundEven (q / ulp p q) : ℚ) - q / ulp p q) * ulp p q := by
    rw [roundFloat, sub_mul, div_mul_cancel₀ _ hPos.ne']
  have hHalf := abs_roundEven_sub_le (q / ulp p q)
  calc
    |roundFloat p q - q| * 2 ^ p
        = |(roundEven (q / ulp p q) : ℚ) - q / ulp p q| * (ulp p q * 2 ^ p) := by
          rw [hScaled, abs_mul, abs_of_pos hPos, mul_assoc]
    _ ≤ 1 / 2 * (2 * |q|) :=
          mul_le_mul hHalf (ulp_le hq) (by positivity) (by norm_num)
    _ = |q| := by ring

theorem roundFloat_le (hq : 0 ≤ q) : roundFloat p q ≤ q + q / 2 ^ p := by
  have hErr := abs_roundFloat_sub_le p q
  rw [abs_of_nonneg hq, ← le_div_iff₀ (by positivity)] at hErr
  linarith [le_abs_self (roundFloat p q - q)]

theorem le_roundFloat (hq : 0 ≤ q) : q - q / 2 ^ p ≤ roundFloat p q := by
  have hErr := abs_roundFloat_sub_le p q
  rw [abs_of_nonneg hq, ← le_div_iff₀ (by positivity)] at hErr
  linarith [neg_abs_le (roundFloat p q - q)]

theorem roundFloat_of_div_eq (h : q / ulp p q = k) : roundFloat p q = q := by
  rw [roundFloat, h, roundEven_intCast, ← h, div_mul_cancel₀ _ (ulp_pos p q).ne']

/-- An integer of at most `p` bits, or the next power of two, is its own rounding. -/
theorem roundFloat_intCast (hp : 0 < p) (hk : |k| ≤ 2 ^ p) : roundFloat p (k : ℚ) = k := by
  by_cases hZero : k = 0
  · simp [hZero]
  have hAbs : 0 < |(k : ℚ)| := abs_pos.mpr (Int.cast_ne_zero.mpr hZero)
  have hLower : (2 : ℚ) ^ Int.log 2 |(k : ℚ)| ≤ |(k : ℚ)| := by
    exact_mod_cast Int.zpow_log_le_self (by decide) hAbs
  have hUpper : |(k : ℚ)| ≤ 2 ^ (p : ℤ) := by exact_mod_cast hk
  have hLog : Int.log 2 |(k : ℚ)| ≤ p :=
    (zpow_le_zpow_iff_right₀ (by norm_num)).mp (hLower.trans hUpper)
  rcases hLog.lt_or_eq with hLt | hEq
  · apply roundFloat_of_div_eq (k := k * 2 ^ (p - 1 - Int.log 2 |(k : ℚ)|).toNat)
    rw [ulp, div_eq_mul_inv, ← zpow_neg, Int.cast_mul, Int.cast_pow, Int.cast_ofNat, ← zpow_natCast]
    congr 2
    omega
  · have hPow : |(k : ℚ)| = 2 ^ p := by
      rw [hEq] at hLower
      exact le_antisymm (by exact_mod_cast hk) (by exact_mod_cast hLower)
    have hUlp : ulp p k = 2 := by
      rw [ulp, hEq, add_sub_cancel_left, zpow_one]
    have hHalf : (2 : ℚ) ^ p / 2 = ((2 ^ (p - 1) : ℤ) : ℚ) := by
      rw [← pow_sub_one_mul hp.ne']
      push_cast
      ring
    rcases abs_eq (by positivity) |>.mp hPow with hk | hk
    · exact roundFloat_of_div_eq (k := 2 ^ (p - 1)) (by rw [hUlp, hk, hHalf])
    · exact roundFloat_of_div_eq (k := -2 ^ (p - 1)) (by rw [hUlp, hk, neg_div, hHalf]; push_cast; rfl)

theorem two_zpow_le_roundFloat (hp : 0 < p) {e : ℤ} (h : (2 : ℚ) ^ e ≤ q) :
    (2 : ℚ) ^ e ≤ roundFloat p q := by
  have hPos : 0 < q := lt_of_lt_of_le (zpow_pos (by norm_num) e) h
  have hUlp := ulp_pos p q
  have hLog : e ≤ Int.log 2 |q| := by
    rw [abs_of_pos hPos]
    exact (Int.zpow_le_iff_le_log (by decide) hPos).mp (by exact_mod_cast h)
  have hSplit : (2 : ℚ) ^ Int.log 2 |q| = 2 ^ (p - 1) * ulp p q := by
    rw [ulp, ← zpow_natCast, ← zpow_add₀ (by norm_num)]
    congr 1
    omega
  have hScaled : (((2 ^ (p - 1) : ℤ)) : ℚ) ≤ q / ulp p q := by
    rw [le_div_iff₀ hUlp]
    push_cast
    rw [← hSplit, abs_of_pos hPos]
    exact_mod_cast Int.zpow_log_le_self (by decide) hPos
  have hRound : ((2 : ℚ)) ^ (p - 1) ≤ roundEven (q / ulp p q) := by
    exact_mod_cast le_roundEven hScaled
  calc
    (2 : ℚ) ^ e ≤ 2 ^ Int.log 2 |q| := zpow_le_zpow_right₀ (by norm_num) hLog
    _ = 2 ^ (p - 1) * ulp p q := hSplit
    _ ≤ roundFloat p q := mul_le_mul_of_nonneg_right hRound hUlp.le

theorem roundFloat_nonneg (hq : 0 ≤ q) : 0 ≤ roundFloat p q :=
  mul_nonneg (by exact_mod_cast le_roundEven (k := 0) (by
    simpa using div_nonneg hq (ulp_pos p q).le)) (ulp_pos p q).le

theorem representable_roundFloat (p : ℕ) (q : ℚ) : Representable p (roundFloat p q) := by
  refine ⟨roundEven (q / ulp p q), Int.log 2 |q| + 1 - p, ?_, rfl⟩
  have hUlp := ulp_pos p q
  have hBound : |q / ulp p q| ≤ 2 ^ p := by
    rw [abs_div, abs_of_pos hUlp, div_le_iff₀ hUlp, mul_comm, ulp_mul_two_pow]
    have hLt : |q| < (2 : ℚ) ^ (Int.log 2 |q| + 1) := by
      exact_mod_cast Int.lt_zpow_succ_log_self (by decide) |q|
    rw [zpow_add_one₀ (by norm_num)] at hLt
    linarith
  rw [abs_le] at hBound ⊢
  exact ⟨le_roundEven (by exact_mod_cast hBound.1), roundEven_le (by exact_mod_cast hBound.2)⟩

theorem mul_two_zpow_eq {e g : ℤ} (hge : g ≤ e) (m : ℤ) :
    (m : ℚ) * 2 ^ e = ((m * 2 ^ (e - g).toNat : ℤ) : ℚ) * 2 ^ g := by
  push_cast
  rw [mul_assoc, ← zpow_natCast, ← zpow_add₀ (by norm_num)]
  congr 2
  omega

theorem le_sub_mul_of_lt {m n b : ℤ} (hb : 2 ≤ b) (hm : m ≤ b) (hmn : m < n)
    (hEven : b < n → b + 2 ≤ n) : n ≤ (n - m) * b := by
  by_cases hn : n ≤ b
  · nlinarith
  · have hLarge := hEven (by omega)
    have hNonneg : 0 ≤ b := by omega
    have hGap : n - b ≤ n - m := by omega
    nlinarith [mul_le_mul_of_nonneg_right hGap hNonneg]

/-- A representable number below another one is below it by at least one part in `2 ^ p`. -/
theorem Representable.gap {x y : ℚ} (hp : 0 < p) (hx : Representable p x)
    (hy : Representable p y) (hxy : x < y) : y ≤ (y - x) * 2 ^ p := by
  obtain ⟨m, e, hm, rfl⟩ := hx
  obtain ⟨n, f, hn, rfl⟩ := hy
  have hPow : (2 : ℤ) ^ p = 2 * 2 ^ (p - 1) := (mul_pow_sub_one hp.ne' 2).symm
  have hPowPos : (0 : ℤ) < 2 ^ (p - 1) := by positivity
  -- Both numbers are multiples of the smaller of the two units.
  obtain ⟨g, M, N, hM, hN, hGap⟩ : ∃ g M N : ℤ, (m : ℚ) * 2 ^ e = M * 2 ^ g ∧
      (n : ℚ) * 2 ^ f = N * 2 ^ g ∧ (M < N → N ≤ (N - M) * 2 ^ p) := by
    rcases le_or_gt f e with hfe | hef
    · refine ⟨f, m * 2 ^ (e - f).toNat, n, mul_two_zpow_eq hfe m, rfl, fun hLt => ?_⟩
      have hnLe := (abs_le.mp hn).2
      have hApart : 1 ≤ n - m * 2 ^ (e - f).toNat := by omega
      have hScale : (0 : ℤ) ≤ 2 ^ p := by positivity
      nlinarith [mul_le_mul_of_nonneg_right hApart hScale]
    · refine ⟨e, m, n * 2 ^ (f - e).toNat, rfl, mul_two_zpow_eq hef.le n, fun hLt => ?_⟩
      have hShift : (2 : ℤ) ^ (f - e).toNat = 2 * 2 ^ ((f - e).toNat - 1) :=
        (mul_pow_sub_one (by omega) 2).symm
      apply le_sub_mul_of_lt (by omega) (abs_le.mp hm).2 hLt
      intro hLarge
      rw [hShift, hPow, mul_left_comm] at hLarge ⊢
      omega
  rw [hM, hN] at hxy ⊢
  have hUnit : (0 : ℚ) < 2 ^ g := zpow_pos (by norm_num) g
  have hLt : M < N := by exact_mod_cast lt_of_mul_lt_mul_right hxy hUnit.le
  have hCast : (N : ℚ) ≤ (N - M) * 2 ^ p := by exact_mod_cast hGap hLt
  calc
    (N : ℚ) * 2 ^ g ≤ (N - M) * 2 ^ p * 2 ^ g := mul_le_mul_of_nonneg_right hCast hUnit.le
    _ = (N * 2 ^ g - M * 2 ^ g) * 2 ^ p := by ring

/-! ## Powers of two -/

theorem le_roundEven_of_even {n : ℤ} (hn : Even n) (h : n - 1 / 2 ≤ q) : n ≤ roundEven q := by
  have hFloor := Int.floor_le q
  have hNext := Int.lt_floor_add_one q
  have hLower : n - 1 ≤ ⌊q⌋ := Int.le_floor.mpr (by push_cast; linarith)
  rcases hLower.lt_or_eq with hLt | hEq
  · exact (by omega : n ≤ ⌊q⌋).trans (le_roundEven (Int.floor_le q))
  · have hOdd : ¬ ⌊q⌋ % 2 = 0 := by
      rw [← hEq]
      obtain ⟨m, rfl⟩ := hn
      omega
    have hHalf : ¬ 2 * (q - ⌊q⌋) < 1 := by
      rw [← hEq]
      push_cast
      linarith
    rw [roundEven, if_neg hHalf, if_neg hOdd, ite_self]
    omega

theorem ulp_eq_of_log {e : ℤ} (hLower : (2 : ℚ) ^ (e - 1) ≤ q) (hUpper : q < 2 ^ e) :
    ulp p q = 2 ^ (e - p) := by
  have hPos : 0 < q := lt_of_lt_of_le (zpow_pos (by norm_num) _) hLower
  have hLe : e - 1 ≤ Int.log 2 q :=
    (Int.zpow_le_iff_le_log (by decide) hPos).mp (by exact_mod_cast hLower)
  have hLt : Int.log 2 q < e :=
    (Int.lt_zpow_iff_log_lt (by decide) hPos).mp (by exact_mod_cast hUpper)
  rw [ulp, abs_of_pos hPos]
  congr 1
  omega

theorem roundFloat_le_add_ulp (p : ℕ) (q : ℚ) : roundFloat p q ≤ q + ulp p q / 2 := by
  have hPos := ulp_pos p q
  have hHalf := (abs_le.mp (abs_roundEven_sub_le (q / ulp p q))).2
  calc
    roundFloat p q ≤ (q / ulp p q + 1 / 2) * ulp p q :=
        mul_le_mul_of_nonneg_right (by linarith) hPos.le
    _ = q + ulp p q / 2 := by
        rw [add_mul, div_mul_cancel₀ _ hPos.ne']
        ring

theorem two_zpow_split (p : ℕ) (e : ℤ) : (2 : ℚ) ^ e = 2 ^ p * 2 ^ (e - p) := by
  rw [← zpow_natCast, ← zpow_add₀ (by norm_num)]
  congr 1
  omega

/-- A number below `2 ^ e` rounds to `2 ^ e` from half a unit below it on. -/
theorem roundFloat_lt_two_zpow_iff (hp : 0 < p) {e : ℤ} (hq : 0 ≤ q) (hLt : q < 2 ^ e) :
    roundFloat p q < 2 ^ e ↔ q < 2 ^ e - 2 ^ (e - p) / 2 := by
  have hUnit : (0 : ℚ) < 2 ^ (e - p) := zpow_pos (by norm_num) _
  have hSplit := two_zpow_split p e
  have hTwo : (2 : ℚ) ≤ 2 ^ p := by exact_mod_cast Nat.pow_le_pow_right (n := 2) (by decide) hp
  have hHalves : (2 : ℚ) ^ e = 2 * 2 ^ (e - 1) := by
    rw [← zpow_one_add₀ (by norm_num)]
    congr 1
    omega
  rcases le_or_gt (2 ^ (e - 1)) q with hUpper | hLower
  · have hUlp : ulp p q = 2 ^ (e - p) := ulp_eq_of_log hUpper hLt
    constructor
    · intro hRound
      by_contra hAbove
      have hEven : Even ((2 : ℤ) ^ p) := (even_two).pow_of_ne_zero hp.ne'
      have hScaled : ((2 ^ p : ℤ) : ℚ) - 1 / 2 ≤ q / ulp p q := by
        rw [hUlp, le_div_iff₀ hUnit]
        push_cast
        linarith
      have hLe : (2 : ℚ) ^ p ≤ roundEven (q / ulp p q) := by
        exact_mod_cast le_roundEven_of_even hEven hScaled
      rw [roundFloat, hUlp, hSplit] at hRound
      rw [hUlp] at hLe
      exact absurd hRound (mul_le_mul_of_nonneg_right hLe hUnit.le).not_gt
    · intro hBelow
      have hLe := roundFloat_le_add_ulp p q
      rw [hUlp] at hLe
      linarith
  · have hHalf : (2 : ℚ) ^ (e - p) ≤ 2 ^ (e - 1) := by nlinarith
    have hPow : (1 : ℚ) < 2 ^ p := by linarith
    refine iff_of_true ?_ (by linarith)
    calc
      roundFloat p q ≤ q + q / 2 ^ p := roundFloat_le hq
      _ ≤ q + q := by gcongr; exact div_le_self hq hPow.le
      _ < 2 ^ e := by linarith

theorem ulp_mul_two_zpow (hq : q ≠ 0) (e : ℤ) : ulp p (q * 2 ^ e) = ulp p q * 2 ^ e := by
  have hAbs : 0 < |q| := abs_pos.mpr hq
  have hTwo : (0 : ℚ) < 2 ^ e := zpow_pos (by norm_num) e
  have hLower : (2 : ℚ) ^ Int.log 2 |q| ≤ |q| := by
    exact_mod_cast Int.zpow_log_le_self (by decide) hAbs
  have hUpper : |q| < (2 : ℚ) ^ (Int.log 2 |q| + 1) := by
    exact_mod_cast Int.lt_zpow_succ_log_self (by decide) |q|
  have hScaled : ulp p (|q| * 2 ^ e) = 2 ^ (Int.log 2 |q| + 1 + e - p) := by
    apply ulp_eq_of_log
    · rw [show Int.log 2 |q| + 1 + e - 1 = Int.log 2 |q| + e by ring, zpow_add₀ (by norm_num)]
      exact mul_le_mul_of_nonneg_right hLower hTwo.le
    · rw [zpow_add₀ (by norm_num)]
      exact mul_lt_mul_of_pos_right hUpper hTwo
  have hNorm : ulp p (q * 2 ^ e) = ulp p (|q| * 2 ^ e) := by
    rw [ulp, ulp, abs_mul, abs_mul, abs_abs]
  rw [hNorm, hScaled, ulp, ← zpow_add₀ (by norm_num)]
  congr 1
  ring

theorem Representable.roundFloat_eq (hp : 0 < p) {x : ℚ} (hx : Representable p x) :
    roundFloat p x = x := by
  obtain ⟨m, e, hm, rfl⟩ := hx
  have hTwo : (2 : ℚ) ^ e ≠ 0 := (zpow_pos (by norm_num) e).ne'
  by_cases hZero : (m : ℚ) = 0
  · simp [hZero]
  have hExact := roundFloat_intCast hp hm
  rw [roundFloat, ulp_mul_two_zpow hZero, mul_div_mul_right _ _ hTwo, ← mul_assoc]
  exact congrArg (· * (2 : ℚ) ^ e) hExact

/-! ## Rounded quotients of rounded numbers -/

theorem roundFloat_pos (hp : 0 < p) (hq : 0 < q) : 0 < roundFloat p q := by
  have hLower := le_roundFloat (p := p) hq.le
  have hLt : q / 2 ^ p < q := div_lt_self hq (one_lt_pow₀ (by norm_num) hp.ne')
  linarith

theorem roundFloat_div_mul_le (hp : 0 < p) {a b : ℚ} (ha : 0 ≤ a) (hb : 0 < b) :
    roundFloat p (roundFloat p a / roundFloat p b) * (b - b / 2 ^ p) ≤
      (a + a / 2 ^ p) * (1 + 1 / 2 ^ p) := by
  have hbPos := roundFloat_pos hp hb
  have haNonneg := roundFloat_nonneg (p := p) ha
  have hQuotient : 0 ≤ roundFloat p a / roundFloat p b := div_nonneg haNonneg hbPos.le
  calc
    roundFloat p (roundFloat p a / roundFloat p b) * (b - b / 2 ^ p)
        ≤ roundFloat p (roundFloat p a / roundFloat p b) * roundFloat p b :=
          mul_le_mul_of_nonneg_left (le_roundFloat hb.le) (roundFloat_nonneg hQuotient)
    _ ≤ (roundFloat p a / roundFloat p b + roundFloat p a / roundFloat p b / 2 ^ p) *
          roundFloat p b := mul_le_mul_of_nonneg_right (roundFloat_le hQuotient) hbPos.le
    _ = roundFloat p a * (1 + 1 / 2 ^ p) := by
          field_simp
    _ ≤ (a + a / 2 ^ p) * (1 + 1 / 2 ^ p) :=
          mul_le_mul_of_nonneg_right (roundFloat_le ha) (by positivity)

theorem roundFloat_div_lt_one_iff (hp : 0 < p) {a b : ℚ} (ha : 0 ≤ a) (hb : 0 < b) :
    roundFloat p (roundFloat p a / roundFloat p b) < 1 ↔ roundFloat p a < roundFloat p b := by
  have hbPos := roundFloat_pos hp hb
  constructor
  · intro hLt
    by_contra hLe
    have hOne : (2 : ℚ) ^ (0 : ℤ) ≤ roundFloat p a / roundFloat p b := by
      rw [zpow_zero, le_div_iff₀ hbPos, one_mul]
      exact not_lt.mp hLe
    have hRound := two_zpow_le_roundFloat hp hOne
    rw [zpow_zero] at hRound
    exact absurd hLt (not_lt.mpr hRound)
  · intro hLt
    have hGap := (representable_roundFloat p a).gap hp (representable_roundFloat p b) hLt
    have hQuotient : 0 ≤ roundFloat p a / roundFloat p b :=
      div_nonneg (roundFloat_nonneg ha) hbPos.le
    have hPow : (0 : ℚ) < 2 ^ p := by positivity
    have hBelow : roundFloat p a / roundFloat p b ≤ 1 - 1 / 2 ^ p := by
      rw [div_le_iff₀ hbPos, sub_mul, one_mul, div_mul_eq_mul_div, one_mul, le_sub_comm,
        div_le_iff₀ hPow]
      exact hGap
    calc
      roundFloat p (roundFloat p a / roundFloat p b)
          ≤ roundFloat p a / roundFloat p b * (1 + 1 / 2 ^ p) := by
            rw [mul_one_add, mul_one_div]
            exact roundFloat_le hQuotient
      _ ≤ (1 - 1 / 2 ^ p) * (1 + 1 / 2 ^ p) :=
            mul_le_mul_of_nonneg_right hBelow (by positivity)
      _ < 1 := by
            have hSquare : (0 : ℚ) < (1 / 2 ^ p) * (1 / 2 ^ p) := by positivity
            linarith [show (1 - 1 / (2 : ℚ) ^ p) * (1 + 1 / 2 ^ p) =
              1 - 1 / 2 ^ p * (1 / 2 ^ p) by ring]

/-- The integer part of the rounded quotient of two integers is their integer quotient,
when the dividend has at most `p` bits. -/
theorem floor_roundFloat_div (hp : 0 < p) {a b : ℤ} (ha : 0 ≤ a) (haLt : a < 2 ^ p)
    (hb : 0 < b) : ⌊roundFloat p (roundFloat p a / roundFloat p b)⌋ = a / b := by
  have hbRat : (0 : ℚ) < b := by exact_mod_cast hb
  have haRat : (0 : ℚ) ≤ a := by exact_mod_cast ha
  have hPow : (0 : ℚ) < 2 ^ p := by positivity
  have haExact : roundFloat p (a : ℚ) = a :=
    roundFloat_intCast hp (by rw [abs_of_nonneg ha]; exact haLt.le)
  rcases le_or_gt b (2 ^ p) with hSmall | hLarge
  · have hbExact : roundFloat p (b : ℚ) = b :=
      roundFloat_intCast hp (by rw [abs_of_pos hb]; exact hSmall)
    rw [haExact, hbExact]
    set k := a / b with hk
    have hDivMod : (a : ℚ) = b * k + (a % b : ℤ) := by
      exact_mod_cast (Int.mul_ediv_add_emod a b).symm
    have hErr : (a : ℚ) / b / 2 ^ p < 1 / b := by
      rw [div_right_comm]
      exact div_lt_div_of_pos_right ((div_lt_one hPow).mpr (by exact_mod_cast haLt)) hbRat
    have hQuotient : (0 : ℚ) ≤ a / b := by positivity
    rw [Int.floor_eq_iff]
    constructor
    · rcases (Int.emod_nonneg a hb.ne').eq_or_lt with hZero | hPos
      · have hEq : (a : ℚ) / b = (k : ℤ) := by
          rw [hDivMod, ← hZero, Int.cast_zero, add_zero, mul_div_cancel_left₀ _ hbRat.ne']
        have hkLe : |k| ≤ 2 ^ p := by
          rw [abs_of_nonneg (Int.ediv_nonneg ha hb.le)]
          exact (Int.ediv_le_self b ha).trans haLt.le
        rw [hEq, roundFloat_intCast hp hkLe]
      · have hAbove : (k : ℚ) + 1 / b ≤ a / b := by
          rw [le_div_iff₀ hbRat, add_mul, one_div, inv_mul_cancel₀ hbRat.ne', hDivMod]
          have hOne : (1 : ℚ) ≤ (a % b : ℤ) := by exact_mod_cast hPos
          linarith [mul_comm (k : ℚ) b]
        linarith [le_roundFloat (p := p) hQuotient]
    · have hBelow : (a : ℚ) / b ≤ k + 1 - 1 / b := by
        rw [div_le_iff₀ hbRat, sub_mul, one_div, inv_mul_cancel₀ hbRat.ne', hDivMod]
        have hLast : ((a % b : ℤ) : ℚ) ≤ b - 1 := by
          exact_mod_cast Int.le_sub_one_of_lt (Int.emod_lt_of_pos a hb)
        linarith [mul_comm (k : ℚ) b]
      linarith [roundFloat_le (p := p) hQuotient]
  · have hbLower : (2 : ℚ) ^ (p : ℤ) ≤ roundFloat p b :=
      two_zpow_le_roundFloat hp (by exact_mod_cast hLarge.le)
    have hOrder : roundFloat p (a : ℚ) < roundFloat p b := by
      rw [haExact]
      exact lt_of_lt_of_le (by exact_mod_cast haLt) hbLower
    rw [Int.ediv_eq_zero_of_lt ha (haLt.trans hLarge), Int.floor_eq_zero_iff]
    exact ⟨roundFloat_nonneg (div_nonneg (roundFloat_nonneg haRat) (roundFloat_pos hp hbRat).le),
      (roundFloat_div_lt_one_iff hp haRat hbRat).mpr hOrder⟩

end Library
