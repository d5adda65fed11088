import Mbpfan.Transition

/-!
# Requests to reload

`do_reload` is a mailbox for one request. The loop empties it when the reload is over and
not before it reads the file, so a request that arrives in between is taken for served.
-/

namespace Mbpfan

open Library

/-- What the flag does not remember: how many times `SIGHUP` was delivered, how many of these
deliveries came before the last reading of the file began, and how many came before that of
the last reload that was completed. -/
structure Mail where
  hups : ℕ
  began : ℕ
  done : Option ℕ

def recordMail (mail : Mail) (s : Daemon) (a : Action) (_ : Daemon) : Mail :=
  match a, s.point with
  | .signal .hup, point =>
    if Signal.hup.handled point then { mail with hups := mail.hups + 1 } else mail
  | .file _, .openSettings _ => { mail with began := mail.hups }
  | .proceed, .applySettings .startup _ => { mail with done := some mail.began }
  | .proceed, .clearReload => { mail with done := some mail.began }
  | _, _ => mail

def Point.inProgress : Point → Bool
  | .applySettings _ _ => true
  | .clearReload => true
  | _ => false

def Point.asked : Point → Bool
  | .openSettings .loop => true
  | .applySettings .loop _ => true
  | .clearReload => true
  | _ => false

/-- The latest request is in the mailbox, or a reading begun after it is in progress, or the
last completed reload began its reading after it. -/
def NotLost (s : Daemon × Mail) : Prop :=
  0 < s.2.hups → s.1.doReload = true ∨
    (s.1.point.inProgress = true ∧ s.2.began = s.2.hups) ∨ s.2.done = some s.2.hups

instance (s : Daemon × Mail) : Decidable (NotLost s) := inferInstanceAs (Decidable (_ → _))

/-- When the step is the store of 0, no `SIGHUP` has come since the file was read. -/
def Undisturbed (s : Daemon × Mail) (a : Action) : Prop :=
  match a, s.1.point with
  | .proceed, .clearReload => s.2.began = s.2.hups
  | _, _ => True

structure Posted (s : Daemon × Mail) : Prop where
  flag : s.1.doReload = true → 0 < s.2.hups
  asked : s.1.point.asked = true → s.1.doReload = true
  began : s.2.began ≤ s.2.hups
  done : ∀ n, s.2.done = some n → n ≤ s.2.began

variable {π : Platform} {s t : Daemon} {a : Action} {mail : Mail}

theorem posted_iff : Posted (s, mail) ↔ (s.doReload = true → 0 < mail.hups) ∧
    (s.point.asked = true → s.doReload = true) ∧ mail.began ≤ mail.hups ∧
    ∀ n, mail.done = some n → n ≤ mail.began :=
  ⟨fun h => ⟨h.flag, h.asked, h.began, h.done⟩, fun h => ⟨h.1, h.2.1, h.2.2.1, h.2.2.2⟩⟩

theorem recordMail_start {next : Start} (hPoint : s.point = .start next)
    (h : startStep s next a = some t) : recordMail mail s a t = mail := by
  cases a <;> simp_all [recordMail]

theorem Posted.step (h : Posted (s, mail)) (hStep : daemonStep π s a = some t) :
    Posted (t, recordMail mail s a t) := by
  rw [posted_iff] at h ⊢
  obtain ⟨hFlag, hAsked, hBegan, hDone⟩ := h
  cases transition_of_step hStep with
  | hungUp hHandled =>
    simp only [recordMail, hHandled, if_true]
    exact ⟨fun _ => Nat.succ_pos _, fun _ => trivial, hBegan.trans (Nat.le_succ _), hDone⟩
  | @stopped sig hSig hHandled =>
    cases sig <;> simp_all [recordMail]
  | @killed sig _ hPoint hHandled =>
    cases sig <;> simp_all [recordMail, Point.asked, Daemon.goto]
  | starting hPoint hStart =>
    rw [recordMail_start hPoint hStart]
    obtain ⟨point, pidFile, rfl, hEarly⟩ := startStep_frame hStart
    cases hEarly <;> exact ⟨hFlag, nofun, hBegan, hDone⟩
  | @opened caller _ hPoint =>
    have hDoneLe : ∀ n, mail.done = some n → n ≤ mail.hups := fun n hn => (hDone n hn).trans hBegan
    cases caller <;> simp_all [recordMail, Daemon.goto, Point.asked]
  | noFans hPoint | foundFans hPoint | configured hPoint | reconfigured hPoint
  | refused hPoint hChecked | accepted hPoint hChecked | manual hPoint | allManual hPoint
  | allManualAgain hPoint | firstReading hPoint | recalibrated hPoint | exiting hPoint hExit
  | continuing hPoint hExit | reloading hPoint hReload | keeping hPoint hReload | cleared hPoint
  | controlled hPoint | slept hPoint | woke hPoint | pidDeleted hPoint | automatic hPoint
  | allAutomatic hPoint =>
    simp_all [recordMail, Daemon.goto, Point.asked]

theorem undisturbed_of_ne (h : s.point ≠ .clearReload) : Undisturbed (s, mail) a := by
  unfold Undisturbed
  split
  · exact absurd ‹_› h
  · trivial

theorem undisturbed_signal (sig : Signal) : Undisturbed (s, mail) (.signal sig) := trivial

/-- The store of 0 is the only step that can lose a request. -/
theorem Posted.notLost_step (h : Posted (s, mail)) (hKept : NotLost (s, mail))
    (hStep : daemonStep π s a = some t) :
    NotLost (t, recordMail mail s a t) ↔ Undisturbed (s, mail) a := by
  rw [posted_iff] at h
  obtain ⟨hFlag, hAsked, hBegan, hDone⟩ := h
  cases transition_of_step hStep with
  | cleared hPoint =>
    have hHups : 0 < mail.hups := hFlag (hAsked (by simp [hPoint, Point.asked]))
    simp [NotLost, Undisturbed, recordMail, hPoint, Point.inProgress, hHups]
  | hungUp hHandled =>
    exact iff_of_true (fun _ => .inl rfl) trivial
  | @stopped sig hSig hHandled =>
    refine iff_of_true ?_ (undisturbed_signal sig)
    cases sig <;> simp_all [NotLost, recordMail]
  | @killed sig _ hPoint hHandled =>
    refine iff_of_true ?_ (undisturbed_signal sig)
    cases sig <;> simp_all [NotLost, recordMail, Point.inProgress, Daemon.goto]
  | starting hPoint hStart =>
    refine iff_of_true ?_ (undisturbed_of_ne (by simp [hPoint]))
    rw [recordMail_start hPoint hStart]
    obtain ⟨point, pidFile, rfl, hEarly⟩ := startStep_frame hStart
    cases hEarly <;> simp_all [NotLost, Point.inProgress]
  | opened hPoint =>
    refine iff_of_true ?_ (undisturbed_of_ne (by simp [hPoint]))
    simp [NotLost, recordMail, hPoint, Daemon.goto, Point.inProgress]
  | configured hPoint =>
    refine iff_of_true ?_ (undisturbed_of_ne (by simp [hPoint]))
    simp only [NotLost, hPoint, Point.inProgress, recordMail, Option.some.injEq] at hKept ⊢
    intro hHups
    obtain hLeft | ⟨-, hEq⟩ | hSome := hKept hHups
    · exact .inl hLeft
    · exact .inr (.inr hEq)
    · exact .inr (.inr (le_antisymm hBegan (hDone _ hSome)))
  | noFans hPoint | foundFans hPoint | reconfigured hPoint
  | refused hPoint hChecked | accepted hPoint hChecked | manual hPoint | allManual hPoint
  | allManualAgain hPoint | firstReading hPoint | recalibrated hPoint | exiting hPoint hExit
  | continuing hPoint hExit | reloading hPoint hReload | keeping hPoint hReload
  | controlled hPoint | slept hPoint | woke hPoint | pidDeleted hPoint | automatic hPoint
  | allAutomatic hPoint =>
    refine iff_of_true ?_ (undisturbed_of_ne (by simp [hPoint]))
    simp_all [NotLost, recordMail, Point.inProgress, Daemon.goto]

/-- No request is lost in a run exactly when no `SIGHUP` is delivered between the reading of
the file by a reload and the store of 0 that ends it. -/
theorem notLost_iff_undisturbed (π : Platform) (daemonize : Bool) (pid : ℤ) (pidFile : Option ℤ)
    (smc : Smc) (actions : List Action) :
    ((daemonMachine π).observe recordMail).Always NotLost
        (launch daemonize pid pidFile smc, ⟨0, 0, none⟩) actions ↔
      ((daemonMachine π).observe recordMail).EachStep (fun s a _ => Undisturbed s a)
        (launch daemonize pid pidFile smc, ⟨0, 0, none⟩) actions := by
  refine Machine.always_iff_eachStep (I := Posted)
    (Machine.eachStep_of_forall (C := fun _ _ _ => True) fun _ _ _ _ => trivial)
    ⟨nofun, nofun, le_rfl, nofun⟩ (fun hHups => absurd hHups (lt_irrefl 0)) ?_ ?_
  · rintro ⟨s, mail⟩ a ⟨t, next⟩ hPosted hStep -
    obtain ⟨hTake, rfl⟩ := Machine.observe_step_eq_some.mp hStep
    exact hPosted.step hTake
  · rintro ⟨s, mail⟩ a ⟨t, next⟩ hPosted hKept hStep -
    obtain ⟨hTake, rfl⟩ := Machine.observe_step_eq_some.mp hStep
    exact hPosted.notLost_step hKept hTake

/-- The second request comes after the file was read and before 0 is stored. -/
theorem request_lost :
    ¬ ((daemonMachine Platform.wrap).observe recordMail).Always NotLost
      (sampleLaunch, ⟨0, 0, none⟩)
      (sampleStart 50 ++ [.proceed, .signal .hup, .proceed, .proceed, .file none, .signal .hup,
        .proceed, .proceed]) := by
  decide +kernel

end Mbpfan
