import Mbpfan.Daemon

/-!
# Several processes and one PID file

Each process reads the file, probes the recorded process, removes a stale file and writes
its own pid, one file operation at a time, and the operations of different processes
interleave. The reading is not repeated before the file is removed or written.
-/

namespace Mbpfan

open Library

/-- The file operation that comes next. A process in `cleanup` has called `delete_pid` and has
not ended. -/
inductive Stage
  | readPid
  | probePid (recorded : ℤ)
  | removePid (recorded : ℤ)
  | writePid
  | fanControl
  | cleanup
  deriving DecidableEq

inductive FileStep
  | start
  | read
  /-- Whether `kill` fails with `ESRCH`. -/
  | probe (gone : Bool)
  | remove (removed : Bool)
  | write (written : Bool)
  | delete (removed : Bool)
  | finish
  | die
  deriving DecidableEq

/-- The processes of the program by their pids, and the PID file. -/
structure Host where
  procs : ℕ → Option Stage
  pidFile : Option ℤ

namespace Host

def goto (s : Host) (pid : ℕ) (stage : Option Stage) : Host :=
  { s with procs := Function.update s.procs pid stage }

def setFile (s : Host) (pidFile : Option ℤ) : Host := { s with pidFile := pidFile }

/-- The recorded pid is that of a process of the program. Other processes may have it too. -/
def runs (s : Host) (recorded : ℤ) : Bool :=
  decide (0 ≤ recorded) && (s.procs recorded.toNat).isSome

def Inside (s : Host) (pid : ℕ) : Prop :=
  s.procs pid = some .fanControl ∨ s.procs pid = some .cleanup

def Exclusive (s : Host) : Prop := ∀ p q, s.Inside p → s.Inside q → p = q

end Host

/-- What `go_daemon` does with the result of `read_pid`. -/
def settle (recorded : ℤ) : Option Stage := if recorded = -1 then some .writePid else none

def procStep (s : Host) (pid : ℕ) : Option Stage → FileStep → Option Host
  | none, .start => some (s.goto pid (some .readPid))
  | some .readPid, .read =>
    match s.pidFile with
    | none => some (s.goto pid (some .writePid))
    | some recorded => some (s.goto pid (some (.probePid recorded)))
  | some (.probePid recorded), .probe gone =>
    if gone = false then some (s.goto pid (settle recorded))
    else if s.runs recorded then none
    else some (s.goto pid (some (.removePid recorded)))
  | some (.removePid recorded), .remove removed =>
    if removed = false then some (s.goto pid (settle recorded))
    else if s.pidFile = none then none
    else some ((s.goto pid (some .writePid)).setFile none)
  | some .writePid, .write written =>
    if written = false then some (s.goto pid none)
    else some ((s.goto pid (some .fanControl)).setFile (some pid))
  | some .fanControl, .delete removed =>
    if removed = false then some (s.goto pid (some .cleanup))
    else if s.pidFile = none then none
    else some ((s.goto pid (some .cleanup)).setFile none)
  | some .cleanup, .finish => some (s.goto pid none)
  | some _, .die => some (s.goto pid none)
  | _, _ => none

def hostStep (s : Host) (label : ℕ × FileStep) : Option Host :=
  procStep s label.1 (s.procs label.1) label.2

def hostMachine : Machine Host (ℕ × FileStep) where
  step := hostStep

def emptyHost (pidFile : Option ℤ) : Host := ⟨fun _ => none, pidFile⟩

/-! ## A process that nobody interrupts -/

variable {s t : Host} {pid p q : ℕ}

@[simp] theorem Host.goto_procs_self (stage : Option Stage) :
    (s.goto pid stage).procs pid = stage := Function.update_self ..

theorem Host.goto_procs_of_ne (stage : Option Stage) (h : p ≠ pid) :
    (s.goto pid stage).procs p = s.procs p := Function.update_of_ne h ..

/-- A stage that `pid` has not reached is that of another process. -/
theorem Host.of_goto_procs {stage other : Option Stage} (h : (s.goto pid stage).procs q = other)
    (hOther : stage ≠ other) : q ≠ pid ∧ s.procs q = other := by
  by_cases hSelf : q = pid
  · rw [hSelf, Host.goto_procs_self] at h
    exact absurd h hOther
  · exact ⟨hSelf, by rwa [Host.goto_procs_of_ne stage hSelf] at h⟩

@[simp] theorem Host.goto_pidFile (stage : Option Stage) :
    (s.goto pid stage).pidFile = s.pidFile := rfl

@[simp] theorem Host.setFile_procs (pidFile : Option ℤ) : (s.setFile pidFile).procs = s.procs := rfl

@[simp] theorem Host.setFile_pidFile (pidFile : Option ℤ) :
    (s.setFile pidFile).pidFile = pidFile := rfl

def Stage.point : Option Stage → Point
  | some .writePid => .start .writePid
  | _ => .exited

theorem readPid_kept {d : Daemon} {recorded : ℤ} (alive removed : Bool)
    (hFile : d.pidFile = some recorded) (hKept : alive = true ∨ removed = false) :
    some recorded = (readPid d alive removed).pidFile ∧
      (readPid d alive removed).point = Stage.point (settle recorded) := by
  have hNot : ¬ (alive = false ∧ removed = true) := by
    rintro ⟨hAlive, hRemoved⟩
    simp [hAlive, hRemoved] at hKept
  simp only [readPid, hFile, if_neg hNot, settle]
  split_ifs <;> exact ⟨hFile.symm, rfl⟩

theorem readPid_removed {d : Daemon} {recorded : ℤ} (hFile : d.pidFile = some recorded) :
    readPid d false true = { d with pidFile := none, point := .start .writePid } := by
  simp [readPid, hFile]

/-- The calls `read_pid` makes. -/
def readPidSteps (pidFile : Option ℤ) (alive removed : Bool) : List FileStep :=
  match pidFile with
  | none => [.read]
  | some _ => if alive then [.read, .probe false] else [.read, .probe true, .remove removed]

/-- The calls of `read_pid` in a row are the step of the daemon's machine. -/
theorem readPid_uninterrupted (hStage : s.procs pid = some .readPid) (d : Daemon)
    (hFile : d.pidFile = s.pidFile) (alive removed : Bool)
    (hAlive : ∀ recorded, s.pidFile = some recorded → s.runs recorded = true → alive = true) :
    ∃ t, hostMachine.run s ((readPidSteps s.pidFile alive removed).map fun a => (pid, a)) = some t ∧
      t.pidFile = (readPid d alive removed).pidFile ∧
      (readPid d alive removed).point = Stage.point (t.procs pid) := by
  cases hNone : s.pidFile with
  | none =>
    refine ⟨s.goto pid (some .writePid), ?_, ?_⟩
    · simp [readPidSteps, Machine.run, hostMachine, hostStep, procStep, hStage, hNone]
    · simp [readPid, hFile, hNone, Daemon.goto, Stage.point]
  | some recorded =>
    have hRecorded := hFile.trans hNone
    cases alive with
    | true =>
      refine ⟨(s.goto pid (some (.probePid recorded))).goto pid (settle recorded), ?_, ?_⟩
      · simp [readPidSteps, Machine.run, hostMachine, hostStep, procStep, hStage, hNone]
      · simpa [hNone] using readPid_kept true removed hRecorded (.inl rfl)
    | false =>
      have hRuns : (s.goto pid (some (.probePid recorded))).runs recorded = false := by
        have hNotRuns : ¬ s.runs recorded = true := fun h => by simpa using hAlive recorded hNone h
        have hOther : recorded.toNat ≠ pid ∨ ¬ 0 ≤ recorded := by
          by_contra hSelf
          obtain ⟨hSelf, hNonneg⟩ := not_or.mp hSelf
          apply hNotRuns
          simp [Host.runs, not_not.mp hSelf, not_not.mp hNonneg, hStage]
        cases hOther with
        | inl hOther => simpa [Host.runs, Host.goto_procs_of_ne _ hOther] using hNotRuns
        | inr hNegative => simp [Host.runs, hNegative]
      cases removed with
      | true =>
        refine ⟨(((s.goto pid (some (.probePid recorded))).goto pid
          (some (.removePid recorded))).goto pid (some .writePid)).setFile none, ?_, ?_⟩
        · simp [readPidSteps, Machine.run, hostMachine, hostStep, procStep, hStage, hNone, hRuns]
        · simp [readPid_removed hRecorded, Stage.point]
      | false =>
        refine ⟨((s.goto pid (some (.probePid recorded))).goto pid
          (some (.removePid recorded))).goto pid (settle recorded), ?_, ?_⟩
        · simp [readPidSteps, Machine.run, hostMachine, hostStep, procStep, hStage, hNone, hRuns]
        · simpa [hNone] using readPid_kept false false hRecorded (.inr rfl)

/-! ## What a file operation can do -/

inductive Operation (s : Host) (pid : ℕ) : FileStep → Host → Prop
  | started (hStage : s.procs pid = none) : Operation s pid .start (s.goto pid (some .readPid))
  | readNone (hStage : s.procs pid = some .readPid) (hFile : s.pidFile = none) :
      Operation s pid .read (s.goto pid (some .writePid))
  | read {recorded : ℤ} (hStage : s.procs pid = some .readPid) (hFile : s.pidFile = some recorded) :
      Operation s pid .read (s.goto pid (some (.probePid recorded)))
  | probed {recorded : ℤ} (hStage : s.procs pid = some (.probePid recorded)) :
      Operation s pid (.probe false) (s.goto pid (settle recorded))
  | gone {recorded : ℤ} (hStage : s.procs pid = some (.probePid recorded))
      (hRuns : s.runs recorded = false) :
      Operation s pid (.probe true) (s.goto pid (some (.removePid recorded)))
  | kept {recorded : ℤ} (hStage : s.procs pid = some (.removePid recorded)) :
      Operation s pid (.remove false) (s.goto pid (settle recorded))
  | removed {recorded : ℤ} (hStage : s.procs pid = some (.removePid recorded)) :
      Operation s pid (.remove true) ((s.goto pid (some .writePid)).setFile none)
  | written (hStage : s.procs pid = some .writePid) :
      Operation s pid (.write true) ((s.goto pid (some .fanControl)).setFile (some pid))
  | unwritten (hStage : s.procs pid = some .writePid) :
      Operation s pid (.write false) (s.goto pid none)
  | left (hStage : s.procs pid = some .fanControl) :
      Operation s pid (.delete false) (s.goto pid (some .cleanup))
  | deleted (hStage : s.procs pid = some .fanControl) :
      Operation s pid (.delete true) ((s.goto pid (some .cleanup)).setFile none)
  | finished (hStage : s.procs pid = some .cleanup) : Operation s pid .finish (s.goto pid none)
  | died {stage : Stage} (hStage : s.procs pid = some stage) :
      Operation s pid .die (s.goto pid none)

theorem operation_of_step {a : FileStep} (h : hostStep s (pid, a) = some t) :
    Operation s pid a t := by
  rw [hostStep] at h
  generalize hStage : s.procs pid = stage at h
  revert h
  fun_cases procStep s pid stage a <;> intro h <;> cases h
  case case1 => exact .started hStage
  case case2 hFile => exact .readNone hStage hFile
  case case3 recorded hFile => exact .read hStage hFile
  case case4 recorded => exact .probed hStage
  case case6 recorded gone hGone hRuns =>
    obtain rfl := Bool.eq_true_of_not_eq_false hGone
    exact .gone hStage (Bool.eq_false_of_not_eq_true hRuns)
  case case7 recorded => exact .kept hStage
  case case9 recorded removed hRemoved _ =>
    obtain rfl := Bool.eq_true_of_not_eq_false hRemoved
    exact .removed hStage
  case case10 => exact .unwritten hStage
  case case11 written hWritten =>
    obtain rfl := Bool.eq_true_of_not_eq_false hWritten
    exact .written hStage
  case case12 => exact .left hStage
  case case14 removed hRemoved _ =>
    obtain rfl := Bool.eq_true_of_not_eq_false hRemoved
    exact .deleted hStage
  case case15 => exact .finished hStage
  case case16 stage => exact .died hStage

/-! ## Readings that a write outdates -/

/-- For a reader and a writer, whether the writer has written the file since it was read. -/
abbrev WriteLog := ℕ → ℕ → Bool

def recordWrite (log : WriteLog) (_ : Host) (label : ℕ × FileStep) (_ : Host) : WriteLog :=
  match label with
  | (pid, .read) => Function.update log pid fun _ => false
  | (pid, .write true) => fun reader => Function.update (log reader) pid true
  | _ => log

/-- A process that removes or writes the file acts on a reading that no process in
`fan_control` has outdated, and none is about to end when it writes. -/
def Timely (s : Host × WriteLog) (label : ℕ × FileStep) : Prop :=
  match label with
  | (pid, .remove true) => ∀ q, s.1.procs q = some .fanControl → s.2 pid q = false
  | (pid, .write true) => ∀ q, s.1.procs q ≠ some .cleanup ∧
      (s.1.procs q = some .fanControl → s.2 pid q = false)
  | _ => True

/-- What a process between its reading and its write knows of a process in `fan_control`. -/
def Informed (s : Host) (outdated : ℕ → Bool) : Option Stage → Prop
  | some (.probePid recorded) =>
    ∀ q, s.procs q = some .fanControl → outdated q = false → recorded = q
  | some (.removePid _) | some .writePid => ∀ q, s.procs q = some .fanControl → outdated q = true
  | _ => True

structure Guarded (s : Host × WriteLog) : Prop where
  exclusive : s.1.Exclusive
  recorded : ∀ q, s.1.procs q = some .fanControl → s.1.pidFile = some q
  informed : ∀ p, Informed s.1 (s.2 p) (s.1.procs p)

variable {log next : WriteLog} {stage : Option Stage}

theorem Informed.mono {outdated : ℕ → Bool}
    (hFewer : ∀ q, t.procs q = some .fanControl → s.procs q = some .fanControl)
    (h : Informed s outdated stage) : Informed t outdated stage := by
  unfold Informed at h ⊢
  split
  · exact fun q hq => h q (hFewer q hq)
  · exact fun q hq => h q (hFewer q hq)
  · exact fun q hq => h q (hFewer q hq)
  · trivial

theorem informed_settle {recorded : ℤ} {outdated : ℕ → Bool}
    (h : Informed s outdated (some (.probePid recorded)) ∨
      Informed s outdated (some (.removePid recorded))) :
    Informed s outdated (settle recorded) := by
  rw [settle]
  split_ifs with hNoNumber
  · intro q hControl
    cases h with
    | inl hProbe =>
      by_contra hFresh
      have hRecorded := hProbe q hControl (Bool.eq_false_of_not_eq_true hFresh)
      omega
    | inr hRemove => exact hRemove q hControl
  · trivial

theorem settle_outside (recorded : ℤ) :
    settle recorded ≠ some .fanControl ∧ settle recorded ≠ some .cleanup := by
  rw [settle]
  split_ifs <;> exact ⟨nofun, nofun⟩

namespace Guarded

/-- A step that brings nobody into `fan_control` leaves the others as they are. -/
theorem goto (h : Guarded (s, log)) (hControl : stage ≠ some .fanControl)
    (hCleanup : stage = some .cleanup → s.Inside pid) (hLog : ∀ p ≠ pid, next p = log p)
    (hInformed : Informed s (next pid) stage) : Guarded (s.goto pid stage, next) := by
  have hFewer : ∀ q, (s.goto pid stage).procs q = some .fanControl →
      s.procs q = some .fanControl :=
    fun q hq => (Host.of_goto_procs hq hControl).2
  have hInside : ∀ q, (s.goto pid stage).Inside q → s.Inside q := by
    rintro q (hq | hq)
    · exact .inl (hFewer q hq)
    · by_cases hSelf : q = pid
      · rw [hSelf, Host.goto_procs_self] at hq
        exact hSelf ▸ hCleanup hq
      · exact .inr (by rwa [Host.goto_procs_of_ne stage hSelf] at hq)
  refine ⟨fun p q hp hq => h.exclusive p q (hInside p hp) (hInside q hq),
    fun q hq => h.recorded q (hFewer q hq), fun p => ?_⟩
  by_cases hSelf : p = pid
  · rw [hSelf]
    dsimp only
    rw [Host.goto_procs_self]
    exact hInformed.mono hFewer
  · dsimp only
    rw [Host.goto_procs_of_ne stage hSelf, hLog p hSelf]
    exact (h.informed p).mono hFewer

theorem setFile_none (h : Guarded (s, log)) (hNone : ∀ q, s.procs q ≠ some .fanControl) :
    Guarded (s.setFile none, log) :=
  ⟨h.exclusive, fun q hq => absurd hq (hNone q), h.informed⟩

theorem enter (h : Guarded (s, log)) (hStage : s.procs pid = some .writePid)
    (hTimely : Timely (s, log) (pid, .write true)) :
    Guarded ((s.goto pid (some .fanControl)).setFile (some pid),
      recordWrite log s (pid, .write true) t) := by
  have hInformed := h.informed pid
  dsimp only at hInformed
  rw [hStage] at hInformed
  have hNone : ∀ q, ¬ s.Inside q := by
    rintro q (hControl | hCleanup)
    · exact Bool.false_ne_true (((hTimely q).2 hControl).symm.trans (hInformed q hControl))
    · exact (hTimely q).1 hCleanup
  have hSelf : ∀ q, ((s.goto pid (some .fanControl)).setFile (some pid)).Inside q → q = pid := by
    intro q hq
    by_contra hOther
    rw [Host.Inside, Host.setFile_procs, Host.goto_procs_of_ne _ hOther] at hq
    exact hNone q hq
  refine ⟨fun p q hp hq => (hSelf p hp).trans (hSelf q hq).symm, ?_, fun p => ?_⟩
  · intro q hq
    rw [hSelf q (.inl hq)]
    rfl
  · -- The only process in `fan_control` has just written.
    have hWritten : ∀ q, ((s.goto pid (some .fanControl)).setFile (some pid)).procs q =
        some .fanControl → recordWrite log s (pid, .write true) t p q = true := by
      intro q hq
      rw [hSelf q (.inl hq)]
      exact Function.update_self ..
    unfold Informed
    split
    · exact fun q hq hFresh => absurd (hFresh.symm.trans (hWritten q hq)) Bool.false_ne_true
    · exact hWritten
    · exact hWritten
    · trivial

theorem step (h : Guarded (s, log)) {label : ℕ × FileStep} (hStep : hostStep s label = some t)
    (hTimely : Timely (s, log) label) : Guarded (t, recordWrite log s label t) := by
  obtain ⟨pid, a⟩ := label
  have hInformed := h.informed pid
  dsimp only at hInformed
  cases operation_of_step hStep with
  | started hStage => exact h.goto nofun nofun (fun _ _ => rfl) trivial
  | readNone hStage hFile =>
    refine h.goto nofun nofun (fun p hp => Function.update_of_ne hp ..) fun q hq => ?_
    exact absurd (hFile.symm.trans (h.recorded q hq)) (Option.some_ne_none _).symm
  | read hStage hFile =>
    refine h.goto nofun nofun (fun p hp => Function.update_of_ne hp ..) fun q hq _ => ?_
    exact Option.some_inj.mp (hFile.symm.trans (h.recorded q hq))
  | probed hStage =>
    rw [hStage] at hInformed
    exact h.goto (settle_outside _).1 (fun hEq => absurd hEq (settle_outside _).2) (fun _ _ => rfl)
      (informed_settle (.inl hInformed))
  | gone hStage hRuns =>
    rw [hStage] at hInformed
    refine h.goto nofun nofun (fun _ _ => rfl) fun q hq => ?_
    by_contra hFresh
    have hRecorded := hInformed q hq (Bool.eq_false_of_not_eq_true hFresh)
    simp [hRecorded, Host.runs, hq] at hRuns
  | kept hStage =>
    rw [hStage] at hInformed
    exact h.goto (settle_outside _).1 (fun hEq => absurd hEq (settle_outside _).2) (fun _ _ => rfl)
      (informed_settle (.inr hInformed))
  | removed hStage =>
    rw [hStage] at hInformed
    have hNone : ∀ q, s.procs q ≠ some .fanControl := fun q hq =>
      Bool.false_ne_true ((hTimely q hq).symm.trans (hInformed q hq))
    have hMoved : Guarded (s.goto pid (some .writePid), log) :=
      h.goto nofun nofun (fun _ _ => rfl) hInformed
    exact hMoved.setFile_none fun q hq => hNone q (Host.of_goto_procs hq nofun).2
  | written hStage => exact h.enter hStage hTimely
  | unwritten hStage => exact h.goto nofun nofun (fun _ _ => rfl) trivial
  | left hStage => exact h.goto nofun (fun _ => .inl hStage) (fun _ _ => rfl) trivial
  | deleted hStage =>
    have hMoved : Guarded (s.goto pid (some .cleanup), log) :=
      h.goto nofun (fun _ => .inl hStage) (fun _ _ => rfl) trivial
    apply hMoved.setFile_none
    intro q hq
    obtain ⟨hOther, hControl⟩ := Host.of_goto_procs hq nofun
    exact hOther (h.exclusive q pid (.inl hControl) (.inl hStage))
  | finished hStage => exact h.goto nofun nofun (fun _ _ => rfl) trivial
  | died hStage => exact h.goto nofun nofun (fun _ _ => rfl) trivial

end Guarded

/-- A write that is not timely breaks the exclusion at once. -/
theorem timely_write {a : ℕ × FileStep} (hWrite : a.2 = .write true)
    (hStep : hostStep s a = some t) (h : t.Exclusive) : Timely (s, log) a := by
  obtain ⟨pid, a⟩ := a
  obtain rfl : a = .write true := hWrite
  cases operation_of_step hStep with
  | written hStage =>
    have hEntered : ((s.goto pid (some .fanControl)).setFile (some pid)).Inside pid :=
      .inl (Host.goto_procs_self _)
    have hNone : ∀ q, ¬ s.Inside q := by
      intro q hq
      have hOther : q ≠ pid := by
        rintro rfl
        rw [Host.Inside, hStage] at hq
        obtain hq | hq := hq <;> exact absurd hq nofun
      refine hOther (h q pid ?_ hEntered)
      rwa [Host.Inside, Host.setFile_procs, Host.goto_procs_of_ne _ hOther]
    exact fun q => ⟨fun hq => hNone q (.inr hq), fun hq => absurd (.inl hq) (hNone q)⟩

/-- In every run whose removals and writes are timely, at most one process is in
`fan_control`. -/
theorem exclusive_of_timely (pidFile : Option ℤ) (steps : List (ℕ × FileStep))
    (h : (hostMachine.observe recordWrite).EachStep (fun s a _ => Timely s a)
      (emptyHost pidFile, fun _ _ => false) steps) :
    hostMachine.Always Host.Exclusive (emptyHost pidFile) steps := by
  have hEmpty : ∀ q, ¬ (emptyHost pidFile).Inside q := by
    rintro q (hq | hq) <;> exact absurd hq nofun
  have hInit : Guarded (emptyHost pidFile, fun _ _ => false) :=
    ⟨fun p q hp => absurd hp (hEmpty p), fun q hq => absurd (.inl hq) (hEmpty q), fun _ => trivial⟩
  have hGuarded := Machine.observe_always (J := Guarded)
    (fun _ _ _ _ hBefore hStep hTimely => hBefore.step hStep hTimely) hInit h
  exact Machine.observe_always_fst.mp (hGuarded.mono fun s hs => hs.exclusive)

/-- One process that takes over the file of a dead one. -/
theorem exclusive_of_timely_sample :
    hostMachine.Always Host.Exclusive (emptyHost (some 77))
      [(4242, .start), (4242, .read), (4242, .probe true), (4242, .remove true),
        (4242, .write true)] := by
  apply exclusive_of_timely (some 77)
  refine (Machine.eachStep_cons_of_step rfl).mpr ⟨trivial, ?_⟩
  refine (Machine.eachStep_cons_of_step rfl).mpr ⟨trivial, ?_⟩
  refine (Machine.eachStep_cons_of_step rfl).mpr ⟨trivial, ?_⟩
  refine (Machine.eachStep_cons_of_step rfl).mpr ⟨fun q hq => ?_, ?_⟩
  · by_cases hSelf : q = 4242
    · simp [hSelf] at hq
    · simp [Host.goto_procs_of_ne _ hSelf, emptyHost] at hq
  · refine (Machine.eachStep_cons_of_step rfl).mpr ⟨fun q => ?_, trivial⟩
    by_cases hSelf : q = 4242
    · simp [hSelf]
    · simp [Host.goto_procs_of_ne _ hSelf, emptyHost]

/-- Two processes find no PID file, and then both write theirs. -/
theorem two_in_fan_control :
    ¬ hostMachine.Always Host.Exclusive (emptyHost none)
      [(1, .start), (2, .start), (1, .read), (2, .read), (1, .write true), (2, .write true)] := by
  intro h
  have hExclusive : Host.Exclusive _ := h.last rfl
  exact absurd (hExclusive 1 2 (.inl rfl) (.inl rfl)) (by decide)

end Mbpfan
