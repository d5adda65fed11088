import Mbpfan.Hardware
import Mbpfan.Reload

/-!
# The life of the daemon

`go_daemon`, `mbpfan` and `cleanup_and_exit` as a machine whose points lie between two
actions of the process. The label of a step carries what the environment answers. A signal
may be delivered at every point: it stores a flag once its handler is installed and ends the
process before that.
-/

namespace Mbpfan

open Library

inductive Signal
  | hup
  | term
  | quit
  | int

inductive Start
  | signalHup
  | signalTerm
  | signalQuit
  | signalInt
  | fork
  | setsid
  | chdir
  | readPid
  | writePid
  | retrieveSensors

/-- Who has called `retrieve_settings` or `set_fans_man`. -/
inductive Caller
  | startup
  | loop

/-- The action that comes next. `rest` lists the fans whose manual files are still to be
written. -/
inductive Point
  | start (next : Start)
  | retrieveFans
  | openSettings (caller : Caller)
  | applySettings (caller : Caller) (settings : Option Settings)
  | checks
  | setFansMan (caller : Caller) (rest : List ℕ)
  | firstReading
  | recalibrate
  | testExit
  | testReload
  | clearReload
  | control
  | sleep
  | deletePid
  | setFansAuto (rest : List ℕ)
  | exited
  | killed

/-- `pidFile` is the number in the PID file, `-1` for a file that holds none. -/
structure Daemon where
  point : Point
  daemonize : Bool
  pid : ℤ
  doExit : Bool
  doReload : Bool
  pidFile : Option ℤ
  loop : Loop
  smc : Smc

inductive Action
  | signal (sig : Signal)
  | proceed
  /-- The outcome of a call that may fail. -/
  | returned (ok : Bool)
  /-- `fork` succeeds and the parent or the child goes on. -/
  | forked (child : Bool)
  /-- Whether a process has the recorded pid, and whether `remove` succeeds. -/
  | probed (alive removed : Bool)
  | fans (probe : ℕ → Option FanFiles)
  | file (content : ConfFile)
  | reading (newTemp : Reading) (written : ℕ → Bool)
  /-- The sleep of an iteration, with the registers found after a suspend. The test for clock skew
  is taken to detect every suspend, so that the registers stay as they are without one. -/
  | slept (wake : Option Smc)

def Daemon.goto (s : Daemon) (next : Point) : Daemon := { s with point := next }

def Signal.handled (sig : Signal) : Point → Bool
  | .start .signalHup => false
  | .start .signalTerm => (sig matches .hup)
  | .start .signalQuit => (sig matches .hup | .term)
  | .start .signalInt => (sig matches .hup | .term | .quit)
  | _ => true

def Daemon.deliver (s : Daemon) (sig : Signal) : Daemon :=
  if sig.handled s.point then
    match sig with
    | .hup => { s with doReload := true }
    | _ => { s with doExit := true }
  else s.goto .killed

/-- `read_pid`, with the branch of `go_daemon` on its result. -/
def readPid (s : Daemon) (alive removed : Bool) : Daemon :=
  match s.pidFile with
  | none => s.goto (.start .writePid)
  | some pid =>
    if alive = false ∧ removed = true then { s with pidFile := none, point := .start .writePid }
    else if pid = -1 then s.goto (.start .writePid)
    else s.goto .exited

def startStep (s : Daemon) : Start → Action → Option Daemon
  | .signalHup, .proceed => some (s.goto (.start .signalTerm))
  | .signalTerm, .proceed => some (s.goto (.start .signalQuit))
  | .signalQuit, .proceed => some (s.goto (.start .signalInt))
  | .signalInt, .proceed => some (s.goto (.start (if s.daemonize then .fork else .readPid)))
  | .fork, .returned false => some (s.goto .exited)
  | .fork, .forked child => some (s.goto (if child then .start .setsid else .exited))
  | .setsid, .returned ok => some (s.goto (if ok then .start .chdir else .exited))
  | .chdir, .returned ok => some (s.goto (if ok then .start .readPid else .exited))
  | .readPid, .probed alive removed => some (readPid s alive removed)
  | .writePid, .returned true =>
    some { s with pidFile := some s.pid, point := .start .retrieveSensors }
  | .writePid, .returned false => some (s.goto .exited)
  | .retrieveSensors, .returned found => some (s.goto (if found then .retrieveFans else .exited))
  | _, _ => none

def daemonStep (π : Platform) (s : Daemon) (a : Action) : Option Daemon :=
  match s.point, a with
  | .exited, _ => none
  | .killed, _ => none
  | _, .signal sig => some (s.deliver sig)
  | .start next, a => startStep s next a
  | .retrieveFans, .fans probe =>
    let fans := retrieveFans probe
    some (if fans = [] then s.goto .exited
      else { s with loop := { s.loop with fans := fans }, point := .openSettings .startup })
  | .openSettings caller, .file content =>
    some (s.goto (.applySettings caller (readSettings content)))
  | .applySettings .startup settings, .proceed =>
    some { s with loop := s.loop.retrieve settings, point := .checks }
  | .applySettings .loop settings, .proceed =>
    some { s with loop := s.loop.retrieve settings, point := .clearReload }
  | .checks, .proceed =>
    some (s.goto (if s.loop.Checked then .setFansMan .startup s.loop.ids else .exited))
  | .setFansMan caller (fanId :: rest), .returned ok =>
    some { s with
      smc := if ok then s.smc.setMode fanId true else s.smc
      point := .setFansMan caller rest }
  | .setFansMan .startup [], .proceed => some (s.goto .firstReading)
  | .setFansMan .loop [], .proceed => some (s.goto .recalibrate)
  | .firstReading, .reading newTemp written =>
    some { s with
      loop := startup π s.loop.params s.loop.fans newTemp
      smc := writeSpeeds Fan.fanMinSpeed written s.loop.fans s.smc
      point := .recalibrate }
  | .recalibrate, .proceed => some (s.goto .testExit)
  | .testExit, .proceed => some (s.goto (if s.doExit then .deletePid else .testReload))
  | .testReload, .proceed => some (s.goto (if s.doReload then .openSettings .loop else .control))
  | .clearReload, .proceed => some { s with doReload := false, point := .control }
  | .control, .reading newTemp written =>
    some { s with
      loop := controlIteration π s.loop newTemp
      smc := writeSpeeds (fanSpeed π s.loop.params s.loop.newTemp newTemp) written s.loop.fans s.smc
      point := .sleep }
  | .sleep, .slept none => some (s.goto .testExit)
  | .sleep, .slept (some smc) =>
    some { s with smc := smc, point := .setFansMan .loop s.loop.ids }
  | .deletePid, .returned removed =>
    some { s with
      pidFile := if removed then none else s.pidFile
      point := .setFansAuto s.loop.ids }
  | .setFansAuto (fanId :: rest), .returned ok =>
    some { s with
      smc := if ok then s.smc.setMode fanId false else s.smc
      point := .setFansAuto rest }
  | .setFansAuto [], .proceed => some (s.goto .exited)
  | _, _ => none

def daemonMachine (π : Platform) : Machine Daemon Action where
  step := daemonStep π

/-- A process that has just entered `go_daemon`. -/
def launch (daemonize : Bool) (pid : ℤ) (pidFile : Option ℤ) (smc : Smc) : Daemon where
  point := .start .signalHup
  daemonize := daemonize
  pid := pid
  doExit := false
  doReload := false
  pidFile := pidFile
  loop := ⟨defaultParams, [], 0⟩
  smc := smc

/-! ## A sample process -/

/-- A process in the foreground without a configuration file, on the hardware of the sample,
up to the first point `recalibrate`. -/
def sampleStart (first : Reading) : List Action :=
  [.proceed, .proceed, .proceed, .proceed, .probed false false, .returned true, .returned true,
    .fans sampleProbe, .file none, .proceed, .proceed, .returned true, .proceed,
    .reading first fun _ => true]

def samplePass (newTemp : Reading) : List Action :=
  [.proceed, .proceed, .reading newTemp fun _ => true]

/-- Two iterations with a sleep between them, up to the second sleep. -/
def sampleSleeps (first second third : Reading) : List Action :=
  sampleStart first ++ .proceed :: samplePass second ++ .slept none :: samplePass third

def sampleLaunch : Daemon := launch false 4242 none fun _ => ⟨false, 0⟩

end Mbpfan
