import Mbpfan.Decimal

/-!
# From the command line to the daemon

`main` reads the options as glibc's `getopt` hands them out, checks the requirements and
enters `go_daemon`. The order of the options and what stands between them does not matter,
and the files of the fans that are found have names of their own.
-/

namespace Mbpfan

/-! ## main.c -/

def optString : CString := cstring "hfv|help"

def optLetter (c : UInt8) : UInt8 :=
  if c ∈ optString ∧ c ≠ chr ':' ∧ c ≠ chr ';' then c else chr '?'

/-- The values `getopt` returns one after the other until it returns -1. Arguments that are no
options are passed over, unless `POSIXLY_CORRECT` is set. -/
def getopt (posixlyCorrect : Bool) : List CString → List UInt8
  | [] => []
  | arg :: rest =>
    if arg = cstring "--" then []
    else if arg.head? = some (chr '-') ∧ arg.tail ≠ [] then
      arg.tail.map optLetter ++ getopt posixlyCorrect rest
    else if posixlyCorrect then []
    else getopt posixlyCorrect rest

structure Flags where
  daemonize : Bool
  verbose : Bool
  deriving DecidableEq

def defaultFlags : Flags := ⟨true, false⟩

/-- The `while` loop of `main`, `none` when it prints the usage and returns. -/
def readOptions (flags : Flags) : List UInt8 → Option Flags
  | [] => some flags
  | c :: rest =>
    if c = chr 'h' then none
    else if c = chr 'f' then readOptions { flags with daemonize := false } rest
    else if c = chr 'v' then readOptions { flags with verbose := true } rest
    else none

/-! ## check_requirements -/

/-- `entries` is what `opendir` and `readdir` find under a path. -/
structure Environment where
  uid : ℕ
  euid : ℕ
  entries : CString → Option (List CString)

def coretempPath : CString := cstring "/sys/devices/platform/coretemp.0"
def applesmcPath : CString := cstring "/sys/devices/platform/applesmc.768"
def altApplesmcPath : CString := cstring "/sys/bus/acpi/drivers/applesmc"
def pathMax : ℕ := 4096

/-- The variable `applesmc_path`, empty when no device is found. -/
def findApplesmc (env : Environment) : CString :=
  match env.entries applesmcPath with
  | some _ => applesmcPath
  | none =>
    match env.entries altApplesmcPath with
    | none => []
    | some names =>
      match names.find? fun name => name.take 3 = cstring "APP" with
      | none => []
      | some name => (altApplesmcPath ++ [chr '/'] ++ name).take (pathMax - 1)

/-- The variable `applesmc_fan_path`, `none` when the process exits. -/
def checkRequirements (env : Environment) : Option CString :=
  if env.uid ≠ 0 ∨ env.euid ≠ 0 then none
  else
    match env.entries coretempPath with
    | none => none
    | some _ => if findApplesmc env = [] then none else some (findApplesmc env ++ cstring "/fan")

inductive Outcome
  | usage
  | refused
  | goDaemon (flags : Flags) (fanPath : CString)

/-- `args` are the arguments behind the name of the program. -/
def main (posixlyCorrect : Bool) (args : List CString) (env : Environment) : Outcome :=
  match readOptions defaultFlags (getopt posixlyCorrect args) with
  | none => .usage
  | some flags =>
    match checkRequirements env with
    | none => .refused
    | some fanPath => .goDaemon flags fanPath

/-! ## The files of a fan -/

inductive FanFile
  | output
  | label
  | manual
  | max
  | min
  deriving DecidableEq

def FanFile.ending : FanFile → CString
  | .output => cstring "_output"
  | .label => cstring "_label"
  | .manual => cstring "_manual"
  | .max => cstring "_max"
  | .min => cstring "_min"

/-- `smprintf("%s%d%s", path_begin, counter, path_end)` -/
def fanFilePath (fanPath : CString) (counter : ℕ) (file : FanFile) : CString :=
  fanPath ++ decimal counter ++ file.ending

variable {flags : Flags} {letters : List UInt8} {args : List CString} {env : Environment}
variable {fanPath : CString}

/-! ## Options -/

theorem letters_ne : chr 'f' ≠ chr 'h' ∧ chr 'v' ≠ chr 'h' ∧ chr 'v' ≠ chr 'f' := by decide

/-- Only which letters there are matters. -/
theorem readOptions_eq (flags : Flags) (letters : List UInt8) :
    readOptions flags letters =
      if letters.all fun c => c = chr 'f' ∨ c = chr 'v' then
        some ⟨flags.daemonize && !decide (chr 'f' ∈ letters),
          flags.verbose || decide (chr 'v' ∈ letters)⟩
      else none := by
  obtain ⟨hfh, hvh, hvf⟩ := letters_ne
  induction letters generalizing flags with
  | nil => simp [readOptions]
  | cons c rest ih =>
    rw [readOptions]
    rcases eq_or_ne c (chr 'f') with rfl | hf
    · rw [if_neg hfh, if_pos rfl, ih]
      simp [hvf]
    rcases eq_or_ne c (chr 'v') with rfl | hv
    · rw [if_neg hvh, if_neg hvf, if_pos rfl, ih]
      simp [Ne.symm hvf]
    · have hOther : ¬ ((c :: rest).all fun d => d = chr 'f' ∨ d = chr 'v') = true := by
        simp [hf, hv]
      rw [if_neg hf, if_neg hv, if_neg hOther, ite_self]

def argLetters (arg : CString) : List UInt8 :=
  if arg.head? = some (chr '-') ∧ arg.tail ≠ [] then arg.tail.map optLetter else []

theorem getopt_eq (hNoEnd : cstring "--" ∉ args) : getopt false args = args.flatMap argLetters := by
  induction args with
  | nil => rfl
  | cons arg rest ih =>
    obtain ⟨hArg, hRest⟩ := not_or.mp (mt List.mem_cons.mpr hNoEnd)
    rw [getopt, if_neg (Ne.symm hArg), if_neg Bool.false_ne_true, List.flatMap_cons, argLetters,
      ih hRest]
    split_ifs
    · rfl
    · rfl

/-- The order of the arguments has no influence. -/
theorem main_perm {others : List CString} (hPerm : args.Perm others) (hNoEnd : cstring "--" ∉ args)
    (env : Environment) : main false args env = main false others env := by
  have hOthers : cstring "--" ∉ others := fun hMem => hNoEnd (hPerm.mem_iff.mpr hMem)
  have hLetters : ∀ c, c ∈ getopt false args ↔ c ∈ getopt false others := by
    intro c
    rw [getopt_eq hNoEnd, getopt_eq hOthers]
    exact (hPerm.flatMap_right argLetters).mem_iff
  have hFlags : readOptions defaultFlags (getopt false args) =
      readOptions defaultFlags (getopt false others) := by
    simp only [readOptions_eq, List.all_eq_true, hLetters]
  rw [main, main, hFlags]

/-! ## Files -/

theorem ending_head (file : FanFile) : file.ending.head? = some (chr '_') := by
  cases file <;> rfl

theorem ending_endsDigits (file : FanFile) : EndsDigits file.ending := by
  intro c hHead
  rw [ending_head] at hHead
  cases hHead
  decide

theorem ending_injective : Function.Injective FanFile.ending := by
  intro a b hEq
  cases a <;> cases b <;> first | rfl | exact absurd hEq (by decide)

/-- No two files of the fans have the same path. -/
theorem fanFilePath_inj {i j : ℕ} {a b : FanFile} :
    fanFilePath fanPath i a = fanFilePath fanPath j b ↔ i = j ∧ a = b := by
  rw [fanFilePath, fanFilePath, List.append_assoc, List.append_assoc, List.append_cancel_left_eq,
    decimal_append_inj (ending_endsDigits a) (ending_endsDigits b), ending_injective.eq_iff]

def sampleEnvironment : Environment where
  uid := 0
  euid := 0
  entries path := if path = coretempPath ∨ path = applesmcPath then some [] else none

theorem main_perm_sample :
    main false [cstring "-v", cstring "x", cstring "-f"] sampleEnvironment =
      main false [cstring "-f", cstring "-v", cstring "x"] sampleEnvironment :=
  main_perm (by decide +kernel) (by decide +kernel) sampleEnvironment

end Mbpfan
