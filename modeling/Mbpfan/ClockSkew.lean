import Mbpfan.Daemon
import Mbpfan.Library.Ticks

/-!
# The clock around the sleep

The loop reads `time` before and after its sleep, and recalibrates when more than twice the
polling interval has passed. `time` shows whole seconds, so what the test sees depends on
where in a second the sleep begins. The sleep may take a second longer than asked: that is
the timer slack the daemon has requested.
-/

namespace Mbpfan

open Library

def time (t : ℚ) : ℤ := ⌊t⌋

/-- The argument of `prctl(PR_SET_TIMERSLACK)` in `go_daemon`, in nanoseconds. -/
def timerSlackNs : ℕ := 1000 * 1000 * 1000

def timerSlack : ℚ := timerSlackNs / 1000000000

def clockSkew (π : Platform) (p : Params) (beforeSleep afterSleep : ℤ) : Bool :=
  afterSleep - beforeSleep > (π.int (2 * p.pollingInterval) : ℤ)

/-- The sleep of an iteration that begins at `t` and takes `d` seconds. `smc` are the registers
after it. -/
def sleepFor (π : Platform) (p : Params) (t d : ℚ) (smc : Smc) : Action :=
  .slept (if clockSkew π p (time t) (time (t + d)) then some smc else none)

def Continues (s : Daemon) (next : Option Daemon) : Prop := next = some (s.goto .testExit)

/-- The process calls `set_fans_man` and goes to `recalibrate`. -/
def Recalibrates (s : Daemon) (smc : Smc) (next : Option Daemon) : Prop :=
  next = some { s with smc := smc, point := .setFansMan .loop s.loop.ids }

variable {π : Platform} {p : Params} {s : Daemon} {d : ℚ}

theorem clockSkew_iff (hTwice : InInt (2 * p.pollingInterval)) (t d : ℚ) :
    clockSkew π p (time t) (time (t + d)) = true ↔ 2 * (p.pollingInterval : ℤ) < ticks t d := by
  rw [clockSkew, π.int_of_inInt hTwice, decide_eq_true_iff]
  rfl

/-- The test cannot fire exactly when no more than twice the interval has passed. -/
theorem never_clockSkew_iff (hTwice : InInt (2 * p.pollingInterval)) :
    (∀ t, clockSkew π p (time t) (time (t + d)) = false) ↔ d ≤ 2 * (p.pollingInterval : ℤ) := by
  have hTicks := forall_ticks_le_iff (d := d) (n := 2 * (p.pollingInterval : ℤ))
  push_cast at hTicks
  rw [← hTicks]
  refine forall_congr' fun t => ?_
  rw [← not_lt, ← clockSkew_iff hTwice, Bool.not_eq_true]

/-- The test cannot fail to fire exactly when a second more than that has passed. -/
theorem always_clockSkew_iff (hTwice : InInt (2 * p.pollingInterval)) :
    (∀ t, clockSkew π p (time t) (time (t + d)) = true) ↔
      2 * (p.pollingInterval : ℤ) + 1 ≤ d := by
  have hTicks := forall_le_ticks_iff (d := d) (n := 2 * (p.pollingInterval : ℤ) + 1)
  push_cast at hTicks
  rw [← hTicks]
  refine forall_congr' fun t => ?_
  rw [clockSkew_iff hTwice, Int.add_one_le_iff]

theorem step_sleepFor (hPoint : s.point = .sleep) (t d : ℚ) (smc : Smc) :
    daemonStep π s (sleepFor π s.loop.params t d smc) =
      if clockSkew π s.loop.params (time t) (time (t + d)) then
        some { s with smc := smc, point := .setFansMan .loop s.loop.ids }
      else some (s.goto .testExit) := by
  rw [sleepFor]
  split_ifs <;> simp only [daemonStep, hPoint]

/-- A sleep that is late by no more than the timer slack does not recalibrate, and one of at
least twice the interval and a second does. -/
theorem sleep_recalibrates (hPoint : s.point = .sleep)
    (hInterval : 1 ≤ (s.loop.params.pollingInterval : ℤ))
    (hTwice : InInt (2 * s.loop.params.pollingInterval)) (t d : ℚ) (smc : Smc) :
    (d ≤ (s.loop.params.pollingInterval : ℤ) + timerSlack →
        Continues s (daemonStep π s (sleepFor π s.loop.params t d smc))) ∧
      (2 * (s.loop.params.pollingInterval : ℤ) + 1 ≤ d →
        Recalibrates s smc (daemonStep π s (sleepFor π s.loop.params t d smc))) := by
  rw [step_sleepFor hPoint]
  constructor
  · intro hSlack
    have hInTime : d ≤ 2 * (s.loop.params.pollingInterval : ℤ) := by
      have hOne : (1 : ℚ) ≤ (s.loop.params.pollingInterval : ℤ) := by exact_mod_cast hInterval
      have hSecond : timerSlack = 1 := by norm_num [timerSlack, timerSlackNs]
      linarith
    rw [(never_clockSkew_iff hTwice).mpr hInTime t]
    rfl
  · intro hLate
    rw [(always_clockSkew_iff hTwice).mpr hLate t]
    rfl

/-- A process with the default interval of one second that sleeps for two, almost from one
second to the next. -/
theorem sleep_recalibrates_sample :
    (2 ≤ ((sampleLaunch.loop.params.pollingInterval : ℤ) : ℚ) + timerSlack →
        Continues (sampleLaunch.goto .sleep) (daemonStep Platform.wrap (sampleLaunch.goto .sleep)
          (sleepFor Platform.wrap defaultParams (9 / 10) 2 sampleLaunch.smc))) ∧
      (2 * ((sampleLaunch.loop.params.pollingInterval : ℤ) : ℚ) + 1 ≤ 2 →
        Recalibrates (sampleLaunch.goto .sleep) sampleLaunch.smc
          (daemonStep Platform.wrap (sampleLaunch.goto .sleep)
            (sleepFor Platform.wrap defaultParams (9 / 10) 2 sampleLaunch.smc))) :=
  sleep_recalibrates (s := sampleLaunch.goto .sleep) rfl (by decide) (by decide) (9 / 10) 2
    sampleLaunch.smc

end Mbpfan
