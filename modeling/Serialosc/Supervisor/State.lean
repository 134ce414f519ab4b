import Serialosc.Ipc.Message
import Serialosc.Support.UvHandle

/-!
# The state of the supervisor

`SoscSupervisor` is `struct sosc_supervisor` together with what the program
leaves to its surroundings: the device records it has allocated, the phase its
event loop is in, and a log of what it does to the outside.  Device records
stay in the list, marked, after they are freed, so that a device keeps its
number.

The supervisor's own idle, check and poll watchers stay in the loop for the
whole run and carry no tag; of them only whether they are started matters.
-/

namespace Serialosc

open ByteMemory

/-- The address a handle's `data` member holds: `&detector_type` or
`&device_type`. -/
inductive SubprocessType
  | detectorType
  | deviceType
  deriving DecidableEq, Repr

/-- `sosc_supervisor_state_t`. -/
inductive SoscSupervisorState
  | disabled
  | enabled
  deriving DecidableEq, Repr

/-- The value of an enumerator, as `/serialosc/status` reports it. -/
def SoscSupervisorState.toInt : SoscSupervisorState → ℤ
  | .disabled => 0
  | .enabled => 1

/-! ## Subprocesses -/

/-- The three handles of a `struct sosc_subprocess`. -/
inductive SubprocessMember
  | proc
  | toProc
  | fromProc
  deriving DecidableEq, Repr

/-- `struct sosc_subprocess`. -/
structure SoscSubprocess where
  proc : Uv.Handle SubprocessType := {}
  toProc : Uv.Handle SubprocessType := {}
  fromProc : Uv.Handle SubprocessType := {}
  deriving DecidableEq, Repr

namespace SoscSubprocess

/-- The handle that is a member of the structure. -/
def handle (sub : SoscSubprocess) : SubprocessMember → Uv.Handle SubprocessType
  | .proc => sub.proc
  | .toProc => sub.toProc
  | .fromProc => sub.fromProc

/-- Change one of the handles. -/
def modify (sub : SoscSubprocess) (member : SubprocessMember)
    (f : Uv.Handle SubprocessType → Uv.Handle SubprocessType) : SoscSubprocess :=
  match member with
  | .proc => { sub with proc := f sub.proc }
  | .toProc => { sub with toProc := f sub.toProc }
  | .fromProc => { sub with fromProc := f sub.fromProc }

/-- Change all of the handles. -/
def map (sub : SoscSubprocess)
    (f : Uv.Handle SubprocessType → Uv.Handle SubprocessType) : SoscSubprocess where
  proc := f sub.proc
  toProc := f sub.toProc
  fromProc := f sub.fromProc

end SoscSubprocess

/-- `struct sosc_device_subprocess`, as `calloc` returns it.  All devices have
the same supervisor.  `freed` marks a record that is no longer allocated. -/
structure SoscDeviceSubprocess where
  subprocess : SoscSubprocess := {}
  ready : Bool := false
  port : ℤ := 0
  serial : Option CString := none
  friendly : Option CString := none
  freed : Bool := false
  deriving DecidableEq

/-- A subprocess of the supervisor: the detector, or the device that was
allocated as number `d`. -/
inductive ProcessId
  | detector
  | device (d : ℕ)
  deriving DecidableEq, Repr

/-- A handle of a subprocess. -/
structure HandleId where
  who : ProcessId
  member : SubprocessMember
  deriving DecidableEq, Repr

/-! ## What the supervisor sends -/

/-- `struct sosc_notification_endpoint`: two character arrays, each with room
for its terminator. -/
structure SoscNotificationEndpoint where
  host : CString
  port : CString
  host_lt : host.length < 128
  port_lt : port.length < 6
  deriving DecidableEq

/-- The host and the port that an address was allocated for. -/
structure LoAddress where
  host : CString
  port : CString
  deriving DecidableEq

def SoscNotificationEndpoint.address (n : SoscNotificationEndpoint) : LoAddress :=
  { host := n.host, port := n.port }

/-- An argument of an OSC message; a string may be `NULL`. -/
inductive OscArg
  | s (value : Option CString)
  | i (value : ℤ)
  deriving DecidableEq

/-- What the supervisor does to the outside, and what happens to it there.  A
message about a device is logged with the number of that device. -/
inductive Effect
  | uvSpawn (who : ProcessId) (file : CString) (args : List CString) (err : ℤ)
  | uvProcessKill (who : ProcessId) (signum : ℤ)
  | uvWrite (d : ℕ) (msg : IpcMsg)
  | processExited (who : ProcessId)
  | oscNotify (type : SoscIpcType) (d : ℕ) (entry : List OscArg)
  | loSendFrom (dev : Option ℕ) (dst : LoAddress) (path : String) (args : List OscArg)
  | subscribed (n : SoscNotificationEndpoint)
  | drained
  deriving DecidableEq

/-! ## The supervisor -/

/-- The phases of a loop iteration in which callbacks of the supervisor run. -/
inductive Phase
  | idle
  | poll
  | closing
  deriving DecidableEq, Repr

/-- `struct sosc_supervisor`.  `calls` counts the calls whose outcome the
surroundings decide. -/
structure SoscSupervisor where
  phase : Phase
  state : SoscSupervisorState
  detectorExePath : CString
  deviceExePath : CString
  configDir : Option CString
  detector : SoscSubprocess
  checkActive : Bool
  pending : SoscSupervisorState
  notifications : List SoscNotificationEndpoint
  drainActive : Bool
  devices : List SoscDeviceSubprocess
  calls : ℕ
  log : List Effect
  deriving DecidableEq

/-- The surroundings: the outcome of the `n`-th call.  libuv versions differ in
whether a failing `uv_spawn` leaves its process handle in the loop. -/
structure Env where
  uvSpawn : ℕ → ℤ
  calloc : ℕ → Bool
  loAddressNew : ℕ → Bool
  failedSpawnInits : Bool
  version : CString
  gitCommit : CString

namespace SoscSupervisor

variable (self : SoscSupervisor)

def emit (effect : Effect) : SoscSupervisor :=
  { self with log := self.log ++ [effect] }

/-- One more call has been answered. -/
def tick : SoscSupervisor := { self with calls := self.calls + 1 }

/-- The loop moves on to another phase. -/
def enter (phase : Phase) : SoscSupervisor := { self with phase := phase }

def modifyDevice (d : ℕ) (f : SoscDeviceSubprocess → SoscDeviceSubprocess) :
    SoscSupervisor :=
  { self with devices := self.devices.modify d f }

/-- Change the subprocess structure of the detector or of a device. -/
def modifySubprocess (who : ProcessId) (f : SoscSubprocess → SoscSubprocess) :
    SoscSupervisor :=
  match who with
  | .detector => { self with detector := f self.detector }
  | .device d => self.modifyDevice d fun dev => { dev with subprocess := f dev.subprocess }

/-- The subprocess structure of the detector or of a device. -/
def subprocess : ProcessId → SoscSubprocess
  | .detector => self.detector
  | .device d => (self.devices[d]?).elim {} SoscDeviceSubprocess.subprocess

def handle (h : HandleId) : Uv.Handle SubprocessType :=
  (self.subprocess h.who).handle h.member

/-- `uv_close` on a handle of a subprocess. -/
def uvClose (h : HandleId) : SoscSupervisor :=
  self.modifySubprocess h.who fun sub => sub.modify h.member Uv.Handle.close

/-- The handles of a subprocess, for a walk. -/
def subprocessHandles (who : ProcessId) : List HandleId :=
  [⟨who, .toProc⟩, ⟨who, .fromProc⟩, ⟨who, .proc⟩]

/-- All subprocesses there have ever been. -/
def processes : List ProcessId :=
  .detector :: (List.range self.devices.length).map .device

/-- The handles that `uv_walk` visits. -/
def uvWalk : List HandleId :=
  (self.processes.flatMap subprocessHandles).filter fun h => (self.handle h).InLoop

end SoscSupervisor

end Serialosc
