import Serialosc.Supervisor.Specs

/-!
# What each step adds to the log

`NewEffects` lists, event by event, the effects that a step can have.  A
property of the log is proved along these cases, without a look at the
callbacks.
-/

namespace Serialosc

open ByteMemory Runs

/-- A message to a client is not an event of its own. -/
def Effect.IsSend : Effect → Prop
  | .loSendFrom _ _ _ _ => True
  | _ => False

/-- The announcement of an event to the subscribers `ns`: what `osc_notify`
logs. -/
def Announcement (env : Env) (ns : List SoscNotificationEndpoint) (d : ℕ)
    (type : SoscIpcType) (path : String) (entry : List OscArg) (effects : List Effect) :
    Prop :=
  ∃ sends, effects = .oscNotify type d entry :: sends ∧
    (∀ e ∈ sends, ∃ n ∈ ns, e = notifySend d path entry n) ∧
    ((∀ k, env.loAddressNew k = true) → ∀ n ∈ ns, notifySend d path entry n ∈ sends)

/-- The request only asks for a reply. -/
def OscRequest.IsQuery : OscRequest → Prop
  | .list _ _ | .status _ _ | .version _ _ => True
  | .notify _ _ | .enable | .disable => False

/-- The event may leave no trace in the log. -/
def Silent (env : Env) (self : SoscSupervisor) : Event → Prop
  | .exit _ | .osc (.notify _ _) => False
  | .osc .enable => self.state = .enabled ∨ self.checkActive = true
  | .osc .disable => self.state = .disabled ∨ self.checkActive = true
  | .detectorRead (.deviceConnection _) => env.calloc self.calls = false
  | .deviceRead d .deviceReady => self.devices[d]? = none
  | .check => self.drainActive = false
  | _ => True

/-- The walk of a list request finds the device, and it is ready. -/
def Listed (self : SoscSupervisor) (d : ℕ) : Prop :=
  (∃ dev, self.devices[d]? = some dev ∧ dev.ready = true) ∧
    ∃ id : HandleId, id.who = .device d ∧ (self.handle id).InLoop ∧
      (self.handle id).data = some .deviceType

/-- The effects that an event can have in a given state. -/
inductive NewEffects (env : Env) (self : SoscSupervisor) : Event → List Effect → Prop
  | silent (e : Event) (hsilent : Silent env self e) : NewEffects env self e []
  | replied (req : OscRequest) (effects : List Effect) (hquery : req.IsQuery)
      (hsends : ∀ e ∈ effects, e.IsSend)
      (hlist : ∀ e ∈ effects, ∀ d dst path args, e = .loSendFrom (some d) dst path args →
        path = "/serialosc/device" ∧ Listed self d ∧
          ∃ dev, self.devices[d]? = some dev ∧ args = dev.entry) :
      NewEffects env self (.osc req) effects
  | subscribed (host : CString) (port : ℤ) :
      NewEffects env self (.osc (.notify host port))
        [.subscribed (notificationEndpoint host port)]
  | detectorSpawn (hstate : self.state = .disabled) (hcheck : self.checkActive = false) :
      NewEffects env self (.osc .enable) [detectorSpawn env self]
  | disabling (hstate : self.state = .enabled) (hcheck : self.checkActive = false) :
      NewEffects env self (.osc .disable)
        (.uvProcessKill .detector sigterm :: self.uvWalk.flatMap (killWrites self))
  | deviceSpawn (devnode : CString) (hcalloc : env.calloc self.calls = true) :
      NewEffects env self (.detectorRead (.deviceConnection devnode))
        [deviceSpawn env self devnode]
  | added (d : ℕ) (dev : SoscDeviceSubprocess) (effects : List Effect)
      (hdev : self.devices[d]? = some dev)
      (hannounce : Announcement env self.notifications d .deviceConnection
        "/serialosc/add" dev.entry effects) :
      NewEffects env self (.deviceRead d .deviceReady) effects
  | exited (who : ProcessId)
      (hquiet : ∀ d dev, who = .device d → self.devices[d]? = some dev → dev.ready = false) :
      NewEffects env self (.exit who) [.processExited who]
  | removed (d : ℕ) (dev : SoscDeviceSubprocess) (effects : List Effect)
      (hdev : self.devices[d]? = some dev) (hready : dev.ready = true)
      (hannounce : Announcement env self.notifications d .deviceDisconnection
        "/serialosc/remove" dev.entry effects) :
      NewEffects env self (.exit (.device d)) (.processExited (.device d) :: effects)
  | drained (hdrain : self.drainActive = true) : NewEffects env self .check [.drained]

theorem oscNotify_log (env : Env) (self : SoscSupervisor) (d : ℕ) (dev : SoscDeviceSubprocess)
    (type : SoscIpcType) {path : String} (hpath : notifyPath type = some path) :
    ∃ effects, (oscNotify env self d dev type).log = self.log ++ effects ∧
      Announcement env self.notifications d type path dev.entry effects := by
  obtain ⟨sends, heq, hfrom, hall⟩ := oscNotify_spec env self d dev hpath
  rw [heq]
  exact ⟨_, rfl, sends, rfl, hfrom, hall⟩

section

variable {env : Env} {self : SoscSupervisor}

@[simp] theorem log_uvClose (h : HandleId) : (self.uvClose h).log = self.log := by
  obtain ⟨who, member⟩ := h
  cases who <;> rfl

theorem mem_listSends {dst : LoAddress} {h : HandleId} {e : Effect}
    (he : e ∈ listSends self dst h) :
    ∃ d dev, h.who = .device d ∧ self.devices[d]? = some dev ∧ dev.ready = true ∧
      (self.handle h).data = some .deviceType ∧
      e = .loSendFrom (some d) dst "/serialosc/device" dev.entry := by
  unfold listSends at he
  by_cases htag : (self.handle h).data = some .deviceType
  · rw [if_pos htag] at he
    cases hwho : h.who with
    | detector => simp [hwho] at he
    | device d =>
      cases hdev : self.devices[d]? with
      | none => simp [hwho, hdev] at he
      | some dev =>
        cases hready : dev.ready with
        | false => simp [hwho, hdev, hready] at he
        | true =>
          have heq : e = .loSendFrom (some d) dst "/serialosc/device" dev.entry := by
            simpa [hwho, hdev, hready] using he
          exact ⟨d, dev, rfl, hdev, hready, htag, heq⟩
  · rw [if_neg htag] at he
    exact absurd he List.not_mem_nil

/-- Every reply of a list request is about a ready device with a tagged handle
in the loop. -/
theorem newEffects_oscListDevices (host : CString) (port : ℤ) :
    ∃ effects, (oscListDevices env self host port).log = self.log ++ effects ∧
      NewEffects env self (.osc (.list host port)) effects := by
  rw [oscListDevices_spec]
  split
  · refine ⟨_, rfl, .replied _ _ trivial ?_ ?_⟩
    · intro e he
      obtain ⟨h, -, he⟩ := List.mem_flatMap.mp he
      obtain ⟨d, dev, -, -, -, -, rfl⟩ := mem_listSends he
      exact trivial
    · intro e he d dst path args heq
      obtain ⟨h, hwalk, he⟩ := List.mem_flatMap.mp he
      obtain ⟨d', dev, hwho, hdev, hready, hdata, rfl⟩ := mem_listSends he
      obtain ⟨rfl, rfl, rfl, rfl⟩ : d' = d ∧ _ = dst ∧ _ = path ∧ dev.entry = args := by
        simpa using heq
      exact ⟨rfl, ⟨⟨dev, hdev, hready⟩, h, hwho, SoscSupervisor.mem_uvWalk.mp hwalk, hdata⟩,
        dev, hdev, rfl⟩
  · exact ⟨[], by simp [SoscSupervisor.tick], .silent _ trivial⟩

theorem newEffects_reply (req : OscRequest) (effect : Effect) (hquery : req.IsQuery)
    (heffect : ∃ dst path args, effect = .loSendFrom none dst path args) :
    NewEffects env self (.osc req) [effect] := by
  obtain ⟨dst, path, args, rfl⟩ := heffect
  refine .replied req _ hquery ?_ ?_
  · intro e he
    obtain rfl := List.mem_singleton.mp he
    exact trivial
  · intro e he d dst' path' args' heq
    obtain rfl := List.mem_singleton.mp he
    simp at heq

theorem newEffects_osc (req : OscRequest) :
    ∃ effects, (oscPollCb env self req).log = self.log ++ effects ∧
      NewEffects env self (.osc req) effects := by
  have hnothing : self.tick.log = self.log ++ [] := by simp [SoscSupervisor.tick]
  cases req with
  | list host port => exact newEffects_oscListDevices host port
  | notify host port => exact ⟨_, rfl, .subscribed host port⟩
  | enable =>
    have hspec := supervisorChangeState_spec env self .enabled
    simp only [oscPollCb, supervisorEnable]
    generalize supervisorChangeState env self .enabled = r at hspec
    cases hspec with
    | rejected hreject => exact ⟨[], by simp, .silent _ hreject⟩
    | launchFailed hstate hcheck herr => exact ⟨_, rfl, .detectorSpawn hstate hcheck⟩
    | launched hstate hcheck herr => exact ⟨_, rfl, .detectorSpawn hstate hcheck⟩
  | disable =>
    have hspec := supervisorChangeState_spec env self .disabled
    simp only [oscPollCb, supervisorDisable]
    generalize supervisorChangeState env self .disabled = r at hspec
    cases hspec with
    | rejected hreject => exact ⟨[], by simp, .silent _ hreject⟩
    | disabling hstate hcheck => exact ⟨_, rfl, .disabling hstate hcheck⟩
  | status host port =>
    cases halloc : env.loAddressNew self.calls with
    | false =>
      simp only [oscPollCb, oscReportStatus, loAddressNew, halloc]
      exact ⟨[], hnothing, .silent _ trivial⟩
    | true =>
      simp only [oscPollCb, oscReportStatus, loAddressNew, halloc]
      exact ⟨_, rfl, newEffects_reply _ _ trivial ⟨_, _, _, rfl⟩⟩
  | version host port =>
    cases halloc : env.loAddressNew self.calls with
    | false =>
      simp only [oscPollCb, oscReportVersion, loAddressNew, halloc]
      exact ⟨[], hnothing, .silent _ trivial⟩
    | true =>
      simp only [oscPollCb, oscReportVersion, loAddressNew, halloc]
      exact ⟨_, rfl, newEffects_reply _ _ trivial ⟨_, _, _, rfl⟩⟩

theorem newEffects_detectorRead (msg : IpcMsg) :
    ∃ effects, (handleDetectorMsg env self msg).log = self.log ++ effects ∧
      NewEffects env self (.detectorRead msg) effects := by
  cases msg with
  | deviceConnection devnode =>
    have hspec := handleConnection_spec env self devnode
    simp only [handleDetectorMsg]
    generalize handleConnection env self devnode = r at hspec
    cases hspec with
    | noMemory hcalloc => exact ⟨[], by simp [SoscSupervisor.tick], .silent _ hcalloc⟩
    | launchFailed hcalloc herr => exact ⟨_, rfl, .deviceSpawn devnode hcalloc⟩
    | launched hcalloc herr => exact ⟨_, rfl, .deviceSpawn devnode hcalloc⟩
  | _ => exact ⟨[], by simp [handleDetectorMsg], .silent _ trivial⟩

theorem newEffects_deviceRead (d : ℕ) (msg : IpcMsg) :
    ∃ effects, (handleDeviceMsg env self d msg).log = self.log ++ effects ∧
      NewEffects env self (.deviceRead d msg) effects := by
  cases msg with
  | deviceReady =>
    cases hdev : self.devices[d]? with
    | none =>
      refine ⟨[], ?_, .silent _ hdev⟩
      rw [handleDeviceMsg_of_none hdev, List.append_nil]
      rfl
    | some dev =>
      obtain ⟨effects, hlog, hannounce⟩ := oscNotify_log env (self.marked d) d
        { dev with ready := true } .deviceConnection rfl
      refine ⟨effects, ?_, .added d dev effects hdev hannounce⟩
      rw [handleDeviceMsg_of_some hdev]
      exact hlog
  | _ => exact ⟨[], by simp [handleDeviceMsg, SoscSupervisor.modifyDevice], .silent _ trivial⟩

theorem newEffects_exit (who : ProcessId) :
    ∃ effects, (processExit env self who).log = self.log ++ effects ∧
      NewEffects env self (.exit who) effects := by
  cases who with
  | detector => exact ⟨_, rfl, .exited _ fun d dev h => by cases h⟩
  | device d =>
    have hstopped : (self.stopped (.device d)).log =
        self.log ++ [.processExited (.device d)] := rfl
    cases hdev : self.devices[d]? with
    | none =>
      refine ⟨[.processExited (.device d)], ?_, .exited _ ?_⟩
      · rw [processExit_of_none hdev, hstopped]
      · intro d' dev hd hdev'
        cases hd
        rw [hdev] at hdev'
        cases hdev'
    | some dev =>
      rw [processExit_of_some hdev]
      cases hready : dev.ready with
      | false =>
        have hquiet : dev.stopped.ready = false := hready
        refine ⟨[.processExited (.device d)], ?_, .exited _ ?_⟩
        · rw [deviceExitCb, log_uvClose, log_uvClose, hquiet]
          exact hstopped
        · intro d' dev' hd hdev'
          cases hd
          rw [hdev] at hdev'
          cases hdev'
          exact hready
      | true =>
        have hquiet : dev.stopped.ready = true := hready
        obtain ⟨effects, hlog, hannounce⟩ := oscNotify_log env (self.stopped (.device d)) d
          dev.stopped .deviceDisconnection rfl
        refine ⟨.processExited (.device d) :: effects, ?_,
          .removed d dev effects hdev hready hannounce⟩
        rw [deviceExitCb, log_uvClose, log_uvClose, if_pos hquiet, hlog, hstopped,
          List.append_assoc]
        rfl

/-- What a step adds to the log. -/
theorem step_log {e : Event} {self' : SoscSupervisor} (h : step env self e = some self') :
    ∃ effects, self'.log = self.log ++ effects ∧ NewEffects env self e effects := by
  cases stepped_of_step h with
  | idle hphase =>
    refine ⟨[], ?_, .silent _ trivial⟩
    rw [List.append_nil]
    split
    · rcases stateChangeCheckCb_cases self with heq | ⟨heq, -⟩
      · rw [heq]
        rfl
      · rw [heq]
        rfl
    · rfl
  | osc req hphase => exact newEffects_osc req
  | detectorRead msg hphase hread => exact newEffects_detectorRead msg
  | deviceRead d msg hphase hread => exact newEffects_deviceRead d msg
  | exit who hphase halive => exact newEffects_exit who
  | check hphase =>
    cases hdrain : self.drainActive with
    | false => exact ⟨[], by rw [List.append_nil]; rfl, .silent _ hdrain⟩
    | true => exact ⟨[.drained], rfl, .drained hdrain⟩
  | closed h' hphase hfinishing =>
    refine ⟨[], ?_, .silent _ trivial⟩
    obtain ⟨who, member⟩ := h'
    rw [List.append_nil]
    cases who with
    | detector =>
      cases member
      all_goals rfl
    | device d =>
      cases member
      all_goals rfl
  | endIteration hphase hdone => exact ⟨[], by rw [List.append_nil]; rfl, .silent _ trivial⟩

/-! ## Where an effect comes from -/

theorem mem_killWrites {h : HandleId} {x : Effect} (hx : x ∈ killWrites self h) :
    ∃ d, x = .uvWrite d .processShouldExit ∧ h.who = .device d ∧
      (self.handle h).data = some .deviceType := by
  unfold killWrites at hx
  by_cases htag : (self.handle h).data = some .deviceType
  · rw [if_pos htag] at hx
    cases hwho : h.who with
    | detector => simp [hwho] at hx
    | device d => exact ⟨d, by simpa [hwho] using hx, rfl, htag⟩
  · rw [if_neg htag] at hx
    exact absurd hx List.not_mem_nil

theorem Announcement.mem_cases {ns : List SoscNotificationEndpoint} {d : ℕ}
    {type : SoscIpcType} {path : String} {entry : List OscArg} {effects : List Effect}
    (h : Announcement env ns d type path entry effects) {x : Effect} (hx : x ∈ effects) :
    x = .oscNotify type d entry ∨ ∃ n ∈ ns, x = notifySend d path entry n := by
  obtain ⟨sends, rfl, hfrom, -⟩ := h
  rcases List.mem_cons.mp hx with heq | hmem
  · exact Or.inl heq
  · exact Or.inr (hfrom x hmem)

/-- The event, and the state before it, that an effect can come from. -/
inductive Origin (env : Env) (self : SoscSupervisor) : Event → Effect → Prop
  | send (e : Event) (dev : Option ℕ) (dst : LoAddress) (path : String)
      (args : List OscArg) : Origin env self e (.loSendFrom dev dst path args)
  | subscribed (host : CString) (port : ℤ) :
      Origin env self (.osc (.notify host port))
        (.subscribed (notificationEndpoint host port))
  | detectorSpawn (hstate : self.state = .disabled) (hcheck : self.checkActive = false) :
      Origin env self (.osc .enable)
        (.uvSpawn .detector self.detectorExePath [self.detectorExePath]
          (env.uvSpawn self.calls))
  | kill (hstate : self.state = .enabled) (hcheck : self.checkActive = false) :
      Origin env self (.osc .disable) (.uvProcessKill .detector sigterm)
  | write (d : ℕ) (id : HandleId) (hstate : self.state = .enabled)
      (hcheck : self.checkActive = false) (hwho : id.who = .device d)
      (hin : (self.handle id).InLoop) (hdata : (self.handle id).data = some .deviceType) :
      Origin env self (.osc .disable) (.uvWrite d .processShouldExit)
  | deviceSpawn (devnode : CString) (hcalloc : env.calloc self.calls = true) :
      Origin env self (.detectorRead (.deviceConnection devnode))
        (.uvSpawn (.device self.devices.length) self.deviceExePath (deviceArgs self devnode)
          (env.uvSpawn (self.calls + 1)))
  | added (d : ℕ) (dev : SoscDeviceSubprocess) (hdev : self.devices[d]? = some dev) :
      Origin env self (.deviceRead d .deviceReady)
        (.oscNotify .deviceConnection d dev.entry)
  | exited (who : ProcessId) : Origin env self (.exit who) (.processExited who)
  | removed (d : ℕ) (dev : SoscDeviceSubprocess) (hdev : self.devices[d]? = some dev)
      (hready : dev.ready = true) :
      Origin env self (.exit (.device d)) (.oscNotify .deviceDisconnection d dev.entry)
  | drained (hdrain : self.drainActive = true) : Origin env self .check .drained

/-- Every effect of a step is accounted for. -/
theorem NewEffects.origin {e : Event} {effects : List Effect}
    (h : NewEffects env self e effects) {x : Effect} (hx : x ∈ effects) :
    Origin env self e x := by
  cases h with
  | silent e hsilent => exact absurd hx List.not_mem_nil
  | replied req effects hquery hsends hlist =>
    have hsend := hsends x hx
    cases x with
    | loSendFrom dev dst path args => exact .send _ dev dst path args
    | _ => exact absurd hsend id
  | subscribed host port =>
    obtain rfl := List.mem_singleton.mp hx
    exact .subscribed host port
  | detectorSpawn hstate hcheck =>
    obtain rfl := List.mem_singleton.mp hx
    exact .detectorSpawn hstate hcheck
  | disabling hstate hcheck =>
    rcases List.mem_cons.mp hx with rfl | hmem
    · exact .kill hstate hcheck
    · obtain ⟨id, hid, hmem⟩ := List.mem_flatMap.mp hmem
      obtain ⟨d, rfl, hwho, hdata⟩ := mem_killWrites hmem
      exact .write d id hstate hcheck hwho (SoscSupervisor.mem_uvWalk.mp hid) hdata
  | deviceSpawn devnode hcalloc =>
    obtain rfl := List.mem_singleton.mp hx
    exact .deviceSpawn devnode hcalloc
  | added d dev effects hdev hannounce =>
    rcases hannounce.mem_cases hx with rfl | ⟨n, -, rfl⟩
    · exact .added d dev hdev
    · exact .send _ _ _ _ _
  | exited who hquiet =>
    obtain rfl := List.mem_singleton.mp hx
    exact .exited who
  | removed d dev effects hdev hready hannounce =>
    rcases List.mem_cons.mp hx with rfl | hmem
    · exact .exited _
    · rcases hannounce.mem_cases hmem with rfl | ⟨n, -, rfl⟩
      · exact .removed d dev hdev hready
      · exact .send _ _ _ _ _
  | drained hdrain =>
    obtain rfl := List.mem_singleton.mp hx
    exact .drained hdrain

end

end Serialosc
