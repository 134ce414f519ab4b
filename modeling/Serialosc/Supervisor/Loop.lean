import Serialosc.Ipc.Dispatch
import Serialosc.Supervisor.Callbacks
import Serialosc.Support.Runs

/-!
# The supervisor in its event loop

The callbacks as steps of a system.  An iteration of the loop runs the idle
watcher, polls, runs the check watcher, and completes the closes that were
requested before its closing phase.  Within the poll phase any callback may
run any number of times, in any order; within the closing phase the closes
complete in any order.

Reading is a step for each message, whatever buffer it came in.
-/

namespace Serialosc

open ByteMemory Runs

/-- A message that one of the OSC methods of the supervisor accepts. -/
inductive OscRequest
  | list (host : CString) (port : ℤ)
  | notify (host : CString) (port : ℤ)
  | enable
  | disable
  | status (host : CString) (port : ℤ)
  | version (host : CString) (port : ℤ)
  deriving DecidableEq

/-- What can happen next in the loop. -/
inductive Event
  | idle
  | osc (req : OscRequest)
  | detectorRead (msg : IpcMsg)
  | deviceRead (d : ℕ) (msg : IpcMsg)
  | exit (who : ProcessId)
  | check
  | closed (h : HandleId)
  | endIteration
  deriving DecidableEq

/-- The methods that `init_osc_server` registers. -/
def oscPollCb (env : Env) (self : SoscSupervisor) : OscRequest → SoscSupervisor
  | .list host port => oscListDevices env self host port
  | .notify host port => oscAddNotificationEndpoint self host port
  | .enable => (supervisorEnable env self).1
  | .disable => (supervisorDisable env self).1
  | .status host port => oscReportStatus env self host port
  | .version host port => oscReportVersion env self host port

/-- The process handle stops, and its exit callback runs. -/
def processExit (env : Env) (self : SoscSupervisor) (who : ProcessId) : SoscSupervisor :=
  let self := (self.modifySubprocess who fun sub => sub.modify .proc Uv.Handle.stop).emit
    (.processExited who)
  match who with
  | .detector => detectorExitCb self
  | .device d =>
      match self.devices[d]? with
      | none => self
      | some dev => deviceExitCb env self d dev

/-- The closing phase takes over the closes requested so far. -/
def beginClosing (self : SoscSupervisor) : SoscSupervisor :=
  { self.enter .closing with
    detector := self.detector.map Uv.Handle.beginClosing
    devices := self.devices.map fun dev =>
      { dev with subprocess := dev.subprocess.map Uv.Handle.beginClosing } }

/-- A handle leaves the loop, and its close callback runs. -/
def closeCompleted (self : SoscSupervisor) (h : HandleId) : SoscSupervisor :=
  let self := self.modifySubprocess h.who fun sub => sub.modify h.member Uv.Handle.finishClose
  match h with
  | ⟨.detector, .fromProc⟩ => detectorPipeCloseCb self
  | ⟨.device d, .fromProc⟩ => devicePipeCloseCb self d
  | ⟨.device d, .proc⟩ => deviceProcCloseCb self d
  | _ => self

/-- Some close is still to complete in this closing phase. -/
def SoscSubprocess.Finishing (sub : SoscSubprocess) : Prop :=
  sub.proc.stage = .finishing ∨ sub.toProc.stage = .finishing ∨
    sub.fromProc.stage = .finishing

instance (sub : SoscSubprocess) : Decidable sub.Finishing :=
  inferInstanceAs (Decidable (_ ∨ _ ∨ _))

/-- The next state of the loop, if the event can happen. -/
def step (env : Env) (self : SoscSupervisor) : Event → Option SoscSupervisor
  | .idle =>
      if self.phase = .idle then
        some ((if self.checkActive then stateChangeCheckCb self else self).enter .poll)
      else none
  | .osc req =>
      if self.phase = .poll then some (oscPollCb env self req) else none
  | .detectorRead msg =>
      if self.phase = .poll ∧ (self.subprocess .detector).fromProc.active = true then
        some (handleDetectorMsg env self msg)
      else none
  | .deviceRead d msg =>
      if self.phase = .poll ∧ (self.subprocess (.device d)).fromProc.active = true then
        some (handleDeviceMsg env self d msg)
      else none
  | .exit who =>
      if self.phase = .poll ∧ (self.subprocess who).proc.active = true then
        some (processExit env self who)
      else none
  | .check =>
      if self.phase = .poll then
        some (beginClosing (if self.drainActive then drainNotificationsCb self else self))
      else none
  | .closed h =>
      if self.phase = .closing ∧ (self.handle h).stage = .finishing then
        some (closeCompleted self h)
      else none
  | .endIteration =>
      if self.phase = .closing ∧ ∀ who ∈ self.processes, ¬ (self.subprocess who).Finishing then
        some (self.enter .idle)
      else none

/-- `cache_paths`: the programs next to the supervisor's own. -/
def siblingPath (exeDir : CString) (name : String) : CString :=
  CString.ofBytes (exeDir.bytes ++ (CString.ofString name).bytes)

/-- The supervisor before `main` first enables it. -/
def supervisorInit (exeDir : CString) (configDir : Option CString) : SoscSupervisor where
  phase := .idle
  state := .disabled
  detectorExePath := siblingPath exeDir "/serialosc-detector"
  deviceExePath := siblingPath exeDir "/serialosc-device"
  configDir := configDir
  detector := {}
  checkActive := false
  pending := .disabled
  notifications := []
  drainActive := false
  devices := []
  calls := 0
  log := []

/-- The supervisor as `main` enters `uv_run`, unless the detector cannot be
started. -/
def supervisorMain (env : Env) (exeDir : CString) (configDir : Option CString) :
    Option SoscSupervisor :=
  let r := supervisorEnable env (supervisorInit exeDir configDir)
  if r.2 ≠ 0 then none else some r.1

/-- The runs of the supervisor. -/
def supervisor (env : Env) : EventSystem SoscSupervisor Event where
  init self := ∃ exeDir configDir, supervisorMain env exeDir configDir = some self
  step := step env

/-- What an enabled event has done, guards included. -/
inductive Stepped (env : Env) (self : SoscSupervisor) : Event → SoscSupervisor → Prop
  | idle (hphase : self.phase = .idle) :
      Stepped env self .idle
        ((if self.checkActive then stateChangeCheckCb self else self).enter .poll)
  | osc (req : OscRequest) (hphase : self.phase = .poll) :
      Stepped env self (.osc req) (oscPollCb env self req)
  | detectorRead (msg : IpcMsg) (hphase : self.phase = .poll)
      (hread : (self.subprocess .detector).fromProc.active = true) :
      Stepped env self (.detectorRead msg) (handleDetectorMsg env self msg)
  | deviceRead (d : ℕ) (msg : IpcMsg) (hphase : self.phase = .poll)
      (hread : (self.subprocess (.device d)).fromProc.active = true) :
      Stepped env self (.deviceRead d msg) (handleDeviceMsg env self d msg)
  | exit (who : ProcessId) (hphase : self.phase = .poll)
      (halive : (self.subprocess who).proc.active = true) :
      Stepped env self (.exit who) (processExit env self who)
  | check (hphase : self.phase = .poll) :
      Stepped env self .check
        (beginClosing (if self.drainActive then drainNotificationsCb self else self))
  | closed (h : HandleId) (hphase : self.phase = .closing)
      (hfinishing : (self.handle h).stage = .finishing) :
      Stepped env self (.closed h) (closeCompleted self h)
  | endIteration (hphase : self.phase = .closing)
      (hdone : ∀ who ∈ self.processes, ¬ (self.subprocess who).Finishing) :
      Stepped env self .endIteration (self.enter .idle)

theorem stepped_of_step {env : Env} {self self' : SoscSupervisor} {e : Event}
    (h : step env self e = some self') : Stepped env self e self' := by
  cases e with
  | idle =>
    obtain ⟨hphase, ⟨⟩⟩ := Option.ite_none_right_eq_some.mp h
    exact .idle hphase
  | osc req =>
    obtain ⟨hphase, ⟨⟩⟩ := Option.ite_none_right_eq_some.mp h
    exact .osc req hphase
  | detectorRead msg =>
    obtain ⟨⟨hphase, hread⟩, ⟨⟩⟩ := Option.ite_none_right_eq_some.mp h
    exact .detectorRead msg hphase hread
  | deviceRead d msg =>
    obtain ⟨⟨hphase, hread⟩, ⟨⟩⟩ := Option.ite_none_right_eq_some.mp h
    exact .deviceRead d msg hphase hread
  | exit who =>
    obtain ⟨⟨hphase, halive⟩, ⟨⟩⟩ := Option.ite_none_right_eq_some.mp h
    exact .exit who hphase halive
  | check =>
    obtain ⟨hphase, ⟨⟩⟩ := Option.ite_none_right_eq_some.mp h
    exact .check hphase
  | closed h' =>
    obtain ⟨⟨hphase, hfinishing⟩, ⟨⟩⟩ := Option.ite_none_right_eq_some.mp h
    exact .closed h' hphase hfinishing
  | endIteration =>
    obtain ⟨⟨hphase, hdone⟩, ⟨⟩⟩ := Option.ite_none_right_eq_some.mp h
    exact .endIteration hphase hdone

end Serialosc
