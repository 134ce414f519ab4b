import Serialosc.Supervisor.State

/-!
# The callbacks of the supervisor

The functions of the supervisor, in the order of the source.  A callback that
libuv hands a handle gets the owner of the handle here, which is what
`container_of` recovers.  Functions with a result return it next to the new
state.
-/

namespace Serialosc

open ByteMemory

/-! ## Datastructures and utilities -/

/-- `launch_subprocess`.  The pipes are in the loop before `uv_spawn` is
called, and stay there when it fails. -/
def launchSubprocess (env : Env) (self : SoscSupervisor) (proc : SoscSubprocess)
    (who : ProcessId) (exePath : CString) (args : List CString) :
    SoscSupervisor × SoscSubprocess × ℤ :=
  let err := env.uvSpawn self.calls
  let procHandle :=
    if err = 0 then proc.proc.spawn
    else if env.failedSpawnInits then proc.proc.init
    else proc.proc
  (self.tick.emit (.uvSpawn who exePath args err),
    { proc := procHandle, toProc := proc.toProc.init, fromProc := proc.fromProc.init },
    err)

/-! ## Supervisor state changes -/

/-- `remaining_subprocesses_walk_cb`. -/
def remainingSubprocessesWalkCb (self : SoscSupervisor) (subprocsRemaining : ℕ)
    (h : HandleId) : ℕ :=
  if (self.handle h).data = some .deviceType ∨
      (self.handle h).data = some .detectorType then
    subprocsRemaining + 1
  else
    subprocsRemaining

/-- The count that `state_change_check_cb` takes. -/
def subprocsRemaining (self : SoscSupervisor) : ℕ :=
  self.uvWalk.foldl (remainingSubprocessesWalkCb self) 0

/-- `state_change_check_cb`. -/
def stateChangeCheckCb (self : SoscSupervisor) : SoscSupervisor :=
  match self.pending with
  | .enabled => { self with state := self.pending, checkActive := false }
  | .disabled =>
      if subprocsRemaining self = 0 then
        { self with state := self.pending, checkActive := false }
      else
        self

/-- `write_ipc_msg_to_stream`, on the stream to device `d`. -/
def writeIpcMsgToStream (self : SoscSupervisor) (d : ℕ) (msg : IpcMsg) :
    SoscSupervisor :=
  if msg.wireSize ≤ soscIpcMsgBufferSize then self.emit (.uvWrite d msg) else self

/-- `kill_devices_walk_cb`. -/
def killDevicesWalkCb (self : SoscSupervisor) (h : HandleId) : SoscSupervisor :=
  if (self.handle h).data ≠ some .deviceType then
    self
  else
    match h.who with
    | .device d => writeIpcMsgToStream self d .processShouldExit
    | .detector => self

/-- `SIGTERM`. -/
def sigterm : ℤ := 15

/-- `supervisor__change_state`. -/
def supervisorChangeState (env : Env) (self : SoscSupervisor)
    (newState : SoscSupervisorState) : SoscSupervisor × ℤ :=
  if self.state = newState ∨ self.checkActive = true then
    (self, -1)
  else
    match newState with
    | .enabled =>
        let r := launchSubprocess env self self.detector .detector
          self.detectorExePath [self.detectorExePath]
        if r.2.2 ≠ 0 then
          ({ r.1 with detector := r.2.1 }, -1)
        else
          let detector : SoscSubprocess :=
            { r.2.1 with
              proc := { r.2.1.proc with data := some .detectorType }
              fromProc := r.2.1.fromProc.start }
          ({ r.1 with detector := detector, pending := newState, checkActive := true }, 0)
    | .disabled =>
        let self := self.emit (.uvProcessKill .detector sigterm)
        let self := self.uvWalk.foldl killDevicesWalkCb self
        ({ self with pending := newState, checkActive := true }, 0)

/-- `supervisor_enable`. -/
def supervisorEnable (env : Env) (self : SoscSupervisor) : SoscSupervisor × ℤ :=
  supervisorChangeState env self .enabled

/-- `supervisor_disable`. -/
def supervisorDisable (env : Env) (self : SoscSupervisor) : SoscSupervisor × ℤ :=
  supervisorChangeState env self .disabled

/-! ## OSC -/

/-- `portstr`: the decimal digits, cut off at the size of the buffer. -/
def portstr (src : ℤ) : CString := (CString.ofString (toString src)).truncate 5

/-- `lo_address_new`, which may fail. -/
def loAddressNew (env : Env) (self : SoscSupervisor) (host port : CString) :
    SoscSupervisor × Option LoAddress :=
  (self.tick, if env.loAddressNew self.calls then some ⟨host, port⟩ else none)

/-- The `"ssi"` arguments of every message about a device. -/
def SoscDeviceSubprocess.entry (dev : SoscDeviceSubprocess) : List OscArg :=
  [.s dev.serial, .s dev.friendly, .i dev.port]

/-- `list_devices_walk_cb`. -/
def listDevicesWalkCb (dst : LoAddress) (self : SoscSupervisor) (h : HandleId) :
    SoscSupervisor :=
  if (self.handle h).data ≠ some .deviceType then
    self
  else
    match h.who with
    | .detector => self
    | .device d =>
        match self.devices[d]? with
        | none => self
        | some dev =>
            if !dev.ready then self
            else self.emit (.loSendFrom (some d) dst "/serialosc/device" dev.entry)

/-- `osc_list_devices`. -/
def oscListDevices (env : Env) (self : SoscSupervisor) (host : CString) (port : ℤ) :
    SoscSupervisor :=
  let r := loAddressNew env self host (portstr port)
  match r.2 with
  | none => r.1
  | some dst => r.1.uvWalk.foldl (listDevicesWalkCb dst) r.1

/-- The endpoint that `osc_add_notification_endpoint` fills in. -/
def notificationEndpoint (host : CString) (port : ℤ) : SoscNotificationEndpoint where
  host := host.truncate 127
  port := portstr port
  host_lt := Nat.lt_succ_of_le (host.length_truncate_le 127)
  port_lt := Nat.lt_succ_of_le ((CString.ofString (toString port)).length_truncate_le 5)

/-- `osc_add_notification_endpoint`. -/
def oscAddNotificationEndpoint (self : SoscSupervisor) (host : CString) (port : ℤ) :
    SoscSupervisor :=
  let n := notificationEndpoint host port
  { self with notifications := self.notifications ++ [n] }.emit (.subscribed n)

/-- `osc_report_status`. -/
def oscReportStatus (env : Env) (self : SoscSupervisor) (host : CString) (port : ℤ) :
    SoscSupervisor :=
  let r := loAddressNew env self host (portstr port)
  match r.2 with
  | none => r.1
  | some dst => r.1.emit (.loSendFrom none dst "/serialosc/status" [.i self.state.toInt])

/-- `osc_report_version`. -/
def oscReportVersion (env : Env) (self : SoscSupervisor) (host : CString) (port : ℤ) :
    SoscSupervisor :=
  let r := loAddressNew env self host (portstr port)
  match r.2 with
  | none => r.1
  | some dst =>
      r.1.emit (.loSendFrom none dst "/serialosc/version"
        [.s (some env.version), .s (some env.gitCommit)])

/-- `drain_notifications_cb`. -/
def drainNotificationsCb (self : SoscSupervisor) : SoscSupervisor :=
  { self with notifications := [], drainActive := false }.emit .drained

/-- The path that `osc_notify` announces an event under. -/
def notifyPath : SoscIpcType → Option String
  | .deviceConnection => some "/serialosc/add"
  | .deviceDisconnection => some "/serialosc/remove"
  | _ => none

/-- One round of the loop of `osc_notify`. -/
def notifyEndpoint (env : Env) (path : String) (d : ℕ) (entry : List OscArg)
    (self : SoscSupervisor) (n : SoscNotificationEndpoint) : SoscSupervisor :=
  let r := loAddressNew env self n.host n.port
  match r.2 with
  | none => r.1
  | some dst => r.1.emit (.loSendFrom (some d) dst path entry)

/-- `osc_notify`, for device `d`. -/
def oscNotify (env : Env) (self : SoscSupervisor) (d : ℕ) (dev : SoscDeviceSubprocess)
    (type : SoscIpcType) : SoscSupervisor :=
  match notifyPath type with
  | none => self
  | some path =>
      let raised := self.emit (.oscNotify type d dev.entry)
      let sent := raised.notifications.foldl (notifyEndpoint env path d dev.entry) raised
      { sent with drainActive := true }

/-! ## Device lifecycle -/

/-- The arguments `device_init` starts a device with. -/
def deviceArgs (self : SoscSupervisor) (devnode : CString) : List CString :=
  match self.configDir with
  | some configDir =>
      [self.deviceExePath, CString.ofString "-c", configDir, devnode]
  | none => [self.deviceExePath, devnode]

/-- `device_init`, for the record allocated as number `d`. -/
def deviceInit (env : Env) (self : SoscSupervisor) (d : ℕ) (dev : SoscDeviceSubprocess)
    (devnode : CString) : SoscSupervisor × SoscDeviceSubprocess × ℤ :=
  let r := launchSubprocess env self dev.subprocess (.device d) self.deviceExePath
    (deviceArgs self devnode)
  if r.2.2 ≠ 0 then
    (r.1, { dev with subprocess := r.2.1 }, -1)
  else
    let subprocess : SoscSubprocess :=
      { r.2.1 with proc := { r.2.1.proc with data := some .deviceType } }
    (r.1, { dev with subprocess := subprocess }, 0)

/-- `device_fini`. -/
def deviceFini (dev : SoscDeviceSubprocess) : SoscDeviceSubprocess :=
  { dev with serial := none, friendly := none }

/-- `device_proc_close_cb`. -/
def deviceProcCloseCb (self : SoscSupervisor) (d : ℕ) : SoscSupervisor :=
  self.modifyDevice d fun dev => { deviceFini dev with freed := true }

/-- `device_pipe_close_cb`. -/
def devicePipeCloseCb (self : SoscSupervisor) (d : ℕ) : SoscSupervisor :=
  self.uvClose ⟨.device d, .proc⟩

/-- `device_exit_cb`. -/
def deviceExitCb (env : Env) (self : SoscSupervisor) (d : ℕ)
    (dev : SoscDeviceSubprocess) : SoscSupervisor :=
  let self :=
    if dev.ready then oscNotify env self d dev .deviceDisconnection else self
  (self.uvClose ⟨.device d, .toProc⟩).uvClose ⟨.device d, .fromProc⟩

/-! ## Device communication -/

/-- `handle_device_msg`. -/
def handleDeviceMsg (env : Env) (self : SoscSupervisor) (d : ℕ) (msg : IpcMsg) :
    SoscSupervisor :=
  match msg with
  | .deviceConnection _ | .processShouldExit => self
  | .oscPortChange port =>
      self.modifyDevice d fun dev => { dev with port := port.toNat }
  | .deviceInfo serial friendly =>
      self.modifyDevice d fun dev =>
        { dev with serial := some serial, friendly := some friendly }
  | .deviceReady =>
      let self := self.modifyDevice d fun dev => { dev with ready := true }
      match self.devices[d]? with
      | none => self
      | some dev => oscNotify env self d dev .deviceConnection
  | .deviceDisconnection => self

/-! ## Detector communication -/

/-- `handle_connection`. -/
def handleConnection (env : Env) (self : SoscSupervisor) (devnode : CString) :
    SoscSupervisor × ℤ :=
  if env.calloc self.calls then
    let r := deviceInit env self.tick self.devices.length {} devnode
    if r.2.2 ≠ 0 then
      ({ r.1 with devices := r.1.devices ++ [{ r.2.1 with freed := true }] }, -1)
    else
      let subprocess : SoscSubprocess :=
        { r.2.1.subprocess with fromProc := r.2.1.subprocess.fromProc.start }
      ({ r.1 with devices := r.1.devices ++ [{ r.2.1 with subprocess := subprocess }] }, 0)
  else
    (self.tick, -1)

/-- `handle_detector_msg`. -/
def handleDetectorMsg (env : Env) (self : SoscSupervisor) (msg : IpcMsg) :
    SoscSupervisor :=
  match msg with
  | .deviceConnection devnode => (handleConnection env self devnode).1
  | .oscPortChange _ | .deviceInfo _ _ | .deviceReady | .deviceDisconnection
  | .processShouldExit => self

/-- `detector_pipe_close_cb`. -/
def detectorPipeCloseCb (self : SoscSupervisor) : SoscSupervisor :=
  self.uvClose ⟨.detector, .proc⟩

/-- `detector_exit_cb`. -/
def detectorExitCb (self : SoscSupervisor) : SoscSupervisor :=
  (self.uvClose ⟨.detector, .toProc⟩).uvClose ⟨.detector, .fromProc⟩

end Serialosc
