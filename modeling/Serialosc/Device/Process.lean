import Serialosc.Announcements
import Serialosc.Device.LedMethods
import Serialosc.Device.Restore
import Serialosc.Ipc.Pipe

/-!
# A device process

`sosc_server_run` from its first statement to its last, with its event loop in
between.  The program is the list of statements that are still to be executed:
a `goto` replaces it by the statements after the label, and the loop stays at
its head until it is left.

Outside are whether something can be allocated or opened, what `poll` or `select`
reports, what there is to be read then, and the bytes that the supervisor writes.
A process that aborts, crashes or is killed has no statements left.
-/

namespace Serialosc

open ByteMemory

/-! ## Events of the device -/

/-- `monome_event_t`. -/
inductive MonomeEvent
  | buttonDown (x y : Int32)
  | buttonUp (x y : Int32)
  | encoderDelta (number delta : Int32)
  | encoderKeyDown (number : Int32)
  | encoderKeyUp (number : Int32)
  | tilt (sensor x y z : Int32)
  deriving DecidableEq

/-- What a device process does. -/
inductive ProcessEffect
  /-- The server asks something of the device, or sends a `/sys` message. -/
  | does (effect : DeviceEffect)
  /-- A message about an event of the device is sent. -/
  | sends (dst : OscAddress) (path : OscString) (args : List Int32)
  /-- A function of libmonome is called. -/
  | calls (call : Leds.MonomeCall)
  /-- A message is written to the supervisor. -/
  | writes (msg : IpcMsg)
  /-- The configuration file is written. -/
  | saves (contents : List UInt8)
  deriving DecidableEq

/-- `lo_send_from` with the arguments of an event. -/
def DeviceServer.eventMessage (server : DeviceServer) (path : String) (args : List Int32) :
    ProcessEffect :=
  .sends server.outgoing (oscPath path server.osc.oscPrefix) args

/-- An `int` that is a truth value. -/
def truth (b : Bool) : Int32 := if b then 1 else 0

/-- `handle_press`, where `e->event_type == MONOME_BUTTON_DOWN` is `down`. -/
def handlePress (server : DeviceServer) (x y : Int32) (down : Bool) : ProcessEffect :=
  server.eventMessage "grid/key" [x, y, truth down]

/-- `handle_enc_delta`. -/
def handleEncDelta (server : DeviceServer) (number delta : Int32) : ProcessEffect :=
  server.eventMessage "enc/delta" [number, delta]

/-- `handle_enc_key`. -/
def handleEncKey (server : DeviceServer) (number : Int32) (down : Bool) : ProcessEffect :=
  server.eventMessage "enc/key" [number, truth down]

/-- `handle_tilt`. -/
def handleTilt (server : DeviceServer) (sensor x y z : Int32) : ProcessEffect :=
  server.eventMessage "tilt" [sensor, x, y, z]

/-- The handler that is registered for an event. -/
def handleEvent (server : DeviceServer) : MonomeEvent → ProcessEffect
  | .buttonDown x y => handlePress server x y true
  | .buttonUp x y => handlePress server x y false
  | .encoderDelta number delta => handleEncDelta server number delta
  | .encoderKeyDown number => handleEncKey server number true
  | .encoderKeyUp number => handleEncKey server number false
  | .tilt sensor x y z => handleTilt server sensor x y z

/-! ## The program -/

/-- The statements of `sosc_server_run`. -/
inductive ServerStmt
  | soscConfigRead
  | loServerNew
  | loAddressNew
  | svcName
  | monomeSetRotation
  | monomeLedAll
  | oscRegisterSysMethods
  | oscRegisterMethods
  | sendDeviceInfo
  | sendOscPortChange
  | sendDeviceReady
  | soscZeroconfRegister
  | freeSvcName
  | sendConnect
  /-- `state->running = 1`, where the loop begins. -/
  | setRunning
  | soscEventLoop
  | sendDisconnect
  | soscZeroconfUnregister
  | sendDeviceDisconnection
  | soscConfigWrite
  | loAddressFree
  | loServerFree
  | freeConfig
  deriving DecidableEq, Repr

/-- From the label `err_server_new` on. -/
def errServerNew : List ServerStmt := [.freeConfig]

/-- From the label `err_lo_addr` on. -/
def errLoAddr : List ServerStmt := .loServerFree :: errServerNew

/-- From the label `err_svc_name` on. -/
def errSvcName : List ServerStmt := .loAddressFree :: errLoAddr

/-- What follows the event loop. -/
def afterEventLoop : List ServerStmt :=
  .sendDisconnect :: .soscZeroconfUnregister :: .sendDeviceDisconnection :: .soscConfigWrite ::
    errSvcName

/-- `sosc_server_run`. -/
def soscServerRunBody : List ServerStmt :=
  [.soscConfigRead, .loServerNew, .loAddressNew, .svcName, .monomeSetRotation, .monomeLedAll,
    .oscRegisterSysMethods, .oscRegisterMethods, .sendDeviceInfo, .sendOscPortChange,
    .sendDeviceReady, .soscZeroconfRegister, .freeSvcName, .sendConnect, .setRunning,
    .soscEventLoop] ++ afterEventLoop

/-- What the process allocates and frees. -/
inductive Resource
  | config
  | server
  | address
  | svcName
  /-- What has been registered with zeroconf. -/
  | service
  /-- The `cfg_t` of `sosc_config_write`. -/
  | cfg
  deriving DecidableEq, Repr

/-- What is reported about the descriptors, as far as the loop looks at it. -/
structure Revents where
  monomeGone : Bool
  monomeIn : Bool
  oscIn : Bool
  ipcIn : Bool
  deriving DecidableEq

/-- The errors of `poll` and `select` that the loops tell apart. -/
inductive PollErrno
  | ebadf
  | einval
  | eintr
  | eagain
  | other
  deriving DecidableEq, Repr

/-- What `poll` or `select` does. -/
inductive PollResult
  | ready (revents : Revents)
  | fails (errno : PollErrno)
  deriving DecidableEq

/-- The two event loops. -/
inductive EventLoop
  | poll
  | select
  deriving DecidableEq, Repr

/-- What a device process is started with.  `stale` is what the array `fds` holds
before it is set. -/
structure ProcessEnv where
  identity : DeviceIdentity
  getRotation : UInt32 → UInt32
  getCols : UInt32 → ℤ
  getRows : UInt32 → ℤ
  lo : Leds.LoCoerce
  status : Leds.MonomeCall → ℤ
  garbage : ℕ → UInt8
  getenv : Confuse.Environment
  /-- The configuration file, if there is one. -/
  saved : Option (List UInt8)
  /-- Standard input is not a terminal. -/
  ipcIn : Bool
  /-- Standard output is not a terminal. -/
  ipcOut : Bool
  eventLoop : EventLoop
  stale : Revents

/-- The device as libmonome gives it to the server. -/
def ProcessEnv.monome (env : ProcessEnv) : Monome where
  serial := some ⟨env.identity.serial.bytes, env.identity.serial.nulFree⟩
  getRotation := env.getRotation
  getCols := env.getCols
  getRows := env.getRows

/-- A device process.  `held` is what it has allocated and not freed. -/
structure DeviceProcess where
  todo : List ServerStmt
  aborted : Bool
  config : SoscConfig
  server : DeviceServer
  held : List Resource
  running : Bool
  revents : Revents
  stdin : Sys
  log : List ProcessEffect

namespace DeviceProcess

def emit (self : DeviceProcess) (effect : ProcessEffect) : DeviceProcess :=
  { self with log := self.log ++ [effect] }

/-- The server goes on to a state, and what it does is done by the process. -/
def serve (self : DeviceProcess) (server : DeviceServer) : DeviceProcess :=
  { self with
    server := server
    log := self.log ++ (server.log.drop self.server.log.length).map .does }

def hold (self : DeviceProcess) (resource : Resource) : DeviceProcess :=
  { self with held := resource :: self.held }

def free (self : DeviceProcess) (resource : Resource) : DeviceProcess :=
  { self with held := self.held.erase resource }

/-- The process is no more. -/
def abort (self : DeviceProcess) : DeviceProcess := { self with todo := [], aborted := true }

/-- `sosc_ipc_msg_write` to a pipe that takes the message whole.  One that is too long is
refused, but for those that overrun the buffer they are encoded in. -/
def soscIpcMsgWrite (self : DeviceProcess) (msg : IpcMsg) : DeviceProcess :=
  if ipcMsgFits msg then self.emit (.writes msg)
  else if msg.Overruns then self.abort
  else self

variable (env : ProcessEnv)

/-- A statement that is not the event loop.  `ok` is whether what it asks for can be
allocated or opened. -/
def exec (ok : Bool) (self : DeviceProcess) : ServerStmt → DeviceProcess
  | .soscConfigRead =>
      let config := soscConfigReadFile env.getenv env.saved
      { self with
        config := config
        server := { self.server with osc := { oscPrefix := config.oscPrefix, methods := [] } }
        }.hold .config
  | .loServerNew => if ok then self.hold .server else { self with todo := errServerNew }
  | .loAddressNew =>
      if ok then
        { self with
          server := { self.server with
            outgoing := ⟨self.config.host, nullIfZero self.config.port⟩ } }.hold .address
      else { self with todo := errLoAddr }
  | .svcName => if ok then self.hold .svcName else { self with todo := errSvcName }
  | .monomeSetRotation => self.serve (self.server.monomeSetRotation self.config.rotation)
  | .monomeLedAll => self.emit (.calls (.ints ⟨.ledAll, [0]⟩))
  | .oscRegisterSysMethods =>
      self.serve { self.server with osc := Serialosc.oscRegisterSysMethods self.server.osc }
  | .oscRegisterMethods =>
      self.serve { self.server with osc := Serialosc.oscRegisterMethods self.server.osc }
  | .sendDeviceInfo =>
      if env.ipcOut then
        self.soscIpcMsgWrite (.deviceInfo env.identity.serial env.identity.friendly)
      else self
  | .sendOscPortChange =>
      if env.ipcOut then self.soscIpcMsgWrite (.oscPortChange env.identity.port) else self
  | .sendDeviceReady => if env.ipcOut then self.soscIpcMsgWrite .deviceReady else self
  | .soscZeroconfRegister => if ok then self.hold .service else self
  | .freeSvcName => self.free .svcName
  | .sendConnect => self.serve (self.server.loSendFrom self.server.outgoing "/sys/connect" [])
  | .setRunning =>
      { self with running := true, revents := { env.stale with ipcIn := false } }
  | .soscEventLoop => self
  | .sendDisconnect =>
      self.serve (self.server.loSendFrom self.server.outgoing "/sys/disconnect" [])
  -- without a registration, there is nothing to deallocate
  | .soscZeroconfUnregister => self.free .service
  | .sendDeviceDisconnection =>
      if env.ipcOut then self.soscIpcMsgWrite .deviceDisconnection else self
  | .soscConfigWrite =>
      if ok then
        match savedValues env.monome env.identity.port.toNat.toInt32 self.server with
        | some cfg => self.emit (.saves (cfgPrint cfg))
        -- `fopen` has emptied the file, and `strtol` is given `NULL`
        | none => (self.emit (.saves [])).abort
      -- the early return leaves out `cfg_free`
      else self.hold .cfg
  | .loAddressFree => self.free .address
  | .loServerFree => self.free .server
  | .freeConfig => self.free .config

/-! ## The event loop -/

/-- What liblo calls for a message that came in. -/
inductive OscCall
  | sys (e : Device.SysEvent)
  | mext (method : Leds.MextMethod) (msg : Leds.LoMessage)

/-- A handler is called, in which the program may crash. -/
def handleOsc (self : DeviceProcess) : OscCall → DeviceProcess
  | .sys e => (Device.handle env.monome self.server e).elim self.abort self.serve
  | .mext method msg =>
      (method.run env.lo env.status env.garbage msg).elim self.abort fun r =>
        { self with log := self.log ++ r.2.map .calls }

/-- `lo_server_recv_noblock`, which may call several handlers for a message. -/
def loServerRecvNoblock (self : DeviceProcess) : List OscCall → DeviceProcess
  | [] => self
  | call :: calls =>
      let self := handleOsc env self call
      if self.aborted then self else loServerRecvNoblock self calls

/-- `recv_msg`, whose result the loop does not look at.  The structure and the locals of
`read_strdata` are not initialised. -/
def recvMsg (self : DeviceProcess) (msg : SoscIpcMsg) (slen : BitVec 64) (magic : BitVec 16) :
    DeviceProcess :=
  let r := soscIpcMsgRead msg slen magic self.stdin
  let self := { self with stdin := r.sys }
  if r.ret ≤ 0 then self
  else
    match SoscIpcType.ofRaw r.msg.type with
    | some .processShouldExit => { self with running := false }
    | _ => self

/-- A round of the event loop: what `poll` or `select` does, the event that
`monome_event_handle_next` finds, the calls of liblo, and what the locals that a message is
read into hold. -/
structure Round where
  result : PollResult
  event : Option MonomeEvent
  calls : List OscCall
  msg : SoscIpcMsg
  slen : BitVec 64
  magic : BitVec 16

/-- What a round goes by after `poll` or `select`. -/
inductive Polled
  | leaves
  | again
  | reports (revents : Revents)

/-- The descriptor of the supervisor is only looked at if there is one. -/
def looked (revents : Revents) : Polled :=
  .reports { revents with ipcIn := env.ipcIn && revents.ipcIn }

/-- After `poll`.  An error that the loop does not know leaves what was reported the last
time. -/
def afterPoll (self : DeviceProcess) : PollResult → Polled
  | .ready revents => looked env revents
  | .fails .einval => .leaves
  | .fails .eintr | .fails .eagain => .again
  | .fails .ebadf | .fails .other => .reports self.revents

/-- After `select`.  An error that the loop does not know leaves the sets as they were put
together. -/
def afterSelect : PollResult → Polled
  | .ready revents => looked env revents
  | .fails .ebadf | .fails .einval => .leaves
  | .fails .eintr => .again
  | .fails .eagain | .fails .other => looked env ⟨true, true, true, true⟩

/-- After the call that the event loop is built with. -/
def polled (self : DeviceProcess) (result : PollResult) : Polled :=
  match env.eventLoop with
  | .poll => afterPoll env self result
  | .select => afterSelect env result

/-- The device may have an event. -/
def recvEvent (self : DeviceProcess) (round : Round) : DeviceProcess :=
  if self.revents.monomeIn then
    round.event.elim self fun e => self.emit (handleEvent self.server e)
  else self

/-- There may be a message for liblo. -/
def recvOsc (self : DeviceProcess) (round : Round) : DeviceProcess :=
  if self.revents.oscIn then loServerRecvNoblock env self round.calls else self

/-- There may be a message from the supervisor. -/
def recvIpc (self : DeviceProcess) (round : Round) : DeviceProcess :=
  if self.revents.ipcIn ∧ self.aborted = false then
    recvMsg self round.msg round.slen round.magic
  else self

/-- A round of `sosc_event_loop`, and whether there is another one. -/
def eventLoopRound (self : DeviceProcess) (round : Round) : DeviceProcess × Bool :=
  match polled env self round.result with
  | .leaves => (self, false)
  | .again => (self, self.running)
  | .reports revents =>
      let self := { self with revents := revents }
      if revents.monomeGone then (self, false)
      else
        let self := recvIpc (recvOsc env (recvEvent self round) round) round
        (self, self.running)

/-! ## The process -/

/-- What can happen to a device process. -/
inductive ProcessEvent
  | run (ok : Bool)
  | round (round : Round)
  | stdin (bytes : List UInt8)
  | killed

/-- The next state of the process, if the event can happen. -/
def step (self : DeviceProcess) : ProcessEvent → Option DeviceProcess
  | .run ok =>
      match self.todo with
      | [] => none
      | .soscEventLoop :: _ => none
      | stmt :: rest => some (exec env ok { self with todo := rest } stmt)
  | .round round =>
      match self.todo with
      | .soscEventLoop :: rest =>
          let r := eventLoopRound env self round
          some (if r.1.aborted ∨ r.2 then r.1 else { r.1 with todo := rest })
      | _ => none
  | .stdin bytes =>
      some { self with stdin := { self.stdin with stream := self.stdin.stream ++ bytes } }
  | .killed => if self.todo = [] then none else some self.abort

/-- A process that has just been started, with nothing on its standard input.  What its
variables hold does not matter. -/
structure Fresh (a : DeviceProcess) : Prop where
  todo : a.todo = soscServerRunBody
  aborted : a.aborted = false
  held : a.held = []
  stdin : a.stdin.stream = []
  log : a.log = []

/-- The runs of a device process. -/
def system : Runs.EventSystem DeviceProcess ProcessEvent where
  init := Fresh
  step := step env

/-! ## A run -/

/-- A device that is started by a supervisor, without a configuration file. -/
def sampleEnv : ProcessEnv where
  identity := sampleDevice
  getRotation := id
  getCols _ := 8
  getRows _ := 8
  lo := Leds.sampleCoerce
  status _ := 0
  garbage _ := 0
  getenv _ := none
  saved := none
  ipcIn := true
  ipcOut := true
  eventLoop := .poll
  stale := ⟨false, false, false, false⟩

/-- The process as it is started. -/
def sampleProcess : DeviceProcess where
  todo := soscServerRunBody
  aborted := false
  config := soscConfigRead .default
  server := Device.serverRun (soscConfigRead .default)
  held := []
  running := false
  revents := ⟨false, false, false, false⟩
  stdin := { stream := [], reads := fun _ => .delivers (2 ^ 63), callocs := fun _ => true }
  log := []

/-- A round in which a key is pressed. -/
def samplePress : Round where
  result := .ready ⟨false, true, false, false⟩
  event := some (.buttonDown 3 4)
  calls := []
  msg := connectionMsg
  slen := 0
  magic := 0

/-- A round in which the device is unplugged. -/
def sampleUnplug : Round := { samplePress with result := .ready ⟨true, false, false, false⟩ }

/-- A process that starts, hears a key and is left. -/
def sampleRun : List ProcessEvent :=
  List.replicate 15 (.run true) ++ [.round samplePress, .round sampleUnplug] ++
    List.replicate 7 (.run true)

theorem fresh_sampleProcess : Fresh sampleProcess := ⟨rfl, rfl, rfl, rfl, rfl⟩

end DeviceProcess

end Serialosc
