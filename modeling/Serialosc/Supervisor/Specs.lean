import Serialosc.Supervisor.Loop

/-!
# What each callback changes

One statement for each callback, as a record update wherever the callback
leaves most of the state alone.  The invariants are proved from these, so that
a change to a callback is met here.

Subprocesses are looked up through `SoscSupervisor.subprocess`, which treats
the detector and the devices alike; a device that was never allocated reads as
three handles outside the loop.

The read callbacks work on buffers where the steps of the loop work on
messages.  `detectorReadCb_exec` and `deviceReadCb_exec` show that a buffer of
whole messages amounts to one read step after the other.
-/

namespace Serialosc

open ByteMemory Runs

/-! ## Looking up subprocesses -/

namespace SoscSupervisor

variable {self : SoscSupervisor} {who : ProcessId}

/-- The record of the subprocess exists. -/
def Has (self : SoscSupervisor) : ProcessId → Prop
  | .detector => True
  | .device d => d < self.devices.length

theorem subprocess_eq_of_not_has (h : ¬ self.Has who) : self.subprocess who = {} := by
  cases who with
  | detector => exact absurd trivial h
  | device d =>
    have hnone : self.devices[d]? = none := List.getElem?_eq_none (Nat.le_of_not_lt h)
    simp [subprocess, hnone]

theorem has_of_active (member : SubprocessMember)
    (h : ((self.subprocess who).handle member).active = true) : self.Has who := by
  by_contra hnot
  rw [subprocess_eq_of_not_has hnot] at h
  cases member <;> exact Bool.noConfusion h

theorem has_of_inLoop {member : SubprocessMember}
    (h : ((self.subprocess who).handle member).InLoop) : self.Has who := by
  by_contra hnot
  rw [subprocess_eq_of_not_has hnot] at h
  cases member <;> exact h rfl

theorem mem_processes : who ∈ self.processes ↔ self.Has who := by
  cases who <;> simp [processes, Has]

theorem subprocess_modifySubprocess (f : SoscSubprocess → SoscSubprocess)
    (hhas : self.Has who) (who' : ProcessId) :
    (self.modifySubprocess who f).subprocess who' =
      if who' = who then f (self.subprocess who) else self.subprocess who' := by
  cases who with
  | detector =>
    cases who' <;> simp [modifySubprocess, subprocess]
  | device d =>
    cases who' with
    | detector => simp [modifySubprocess, modifyDevice, subprocess]
    | device d' =>
      have hget : self.devices[d]? = some self.devices[d] := List.getElem?_eq_getElem hhas
      by_cases hd : d' = d
      · subst hd
        simp [modifySubprocess, modifyDevice, subprocess, hget]
      · have hd' : d ≠ d' := fun h => hd h.symm
        simp [modifySubprocess, modifyDevice, subprocess, hd, hd']

theorem mem_uvWalk {h : HandleId} : h ∈ self.uvWalk ↔ (self.handle h).InLoop := by
  constructor
  · intro hmem
    simpa using (List.mem_filter.mp hmem).2
  · intro hloop
    refine List.mem_filter.mpr ⟨?_, by simpa using hloop⟩
    refine List.mem_flatMap.mpr ⟨h.who, mem_processes.mpr (has_of_inLoop hloop), ?_⟩
    obtain ⟨who, member⟩ := h
    cases member <;> simp [subprocessHandles]

/-- The log grows by `effects`. -/
def emits (self : SoscSupervisor) (effects : List Effect) : SoscSupervisor :=
  { self with log := self.log ++ effects }

/-- A walk whose callback only adds to the log, by looking at anything else. -/
theorem foldl_emits {α : Type} {cb : SoscSupervisor → α → SoscSupervisor}
    {effects : α → List Effect}
    (hcb : ∀ log x, cb { self with log := log } x =
      { self with log := log ++ effects x }) (xs : List α) :
    xs.foldl cb self = self.emits (xs.flatMap effects) := by
  have hlog : ∀ log, xs.foldl cb { self with log := log } =
      { self with log := log ++ xs.flatMap effects } := by
    induction xs with
    | nil => simp
    | cons x xs ih =>
      intro log
      rw [List.foldl_cons, hcb, ih, List.flatMap_cons, List.append_assoc]
  exact hlog self.log

end SoscSupervisor

/-! ## Launching -/

/-- The handles of a subprocess after a successful launch by one of the two
callers, which tag the process and read from it. -/
def SoscSubprocess.launched (sub : SoscSubprocess) (tag : SubprocessType) :
    SoscSubprocess where
  proc := { sub.proc.spawn with data := some tag }
  toProc := sub.toProc.init
  fromProc := sub.fromProc.init.start

/-- The handles of a subprocess after a failed launch. -/
def SoscSubprocess.launchFailed (env : Env) (sub : SoscSubprocess) : SoscSubprocess where
  proc := if env.failedSpawnInits then sub.proc.init else sub.proc
  toProc := sub.toProc.init
  fromProc := sub.fromProc.init

section

variable (env : Env) (self : SoscSupervisor)

/-- The logged call of `uv_spawn` that launches the detector. -/
def detectorSpawn : Effect :=
  .uvSpawn .detector self.detectorExePath [self.detectorExePath] (env.uvSpawn self.calls)

/-- The logged call of `uv_spawn` that launches the next device. -/
def deviceSpawn (devnode : CString) : Effect :=
  .uvSpawn (.device self.devices.length) self.deviceExePath (deviceArgs self devnode)
    (env.uvSpawn (self.calls + 1))

/-- The logged writes of `kill_devices_walk_cb`. -/
def killWrites (h : HandleId) : List Effect :=
  if (self.handle h).data = some .deviceType then
    match h.who with
    | .device d => [.uvWrite d .processShouldExit]
    | .detector => []
  else []

theorem foldl_killDevicesWalkCb (hs : List HandleId) :
    hs.foldl killDevicesWalkCb self = self.emits (hs.flatMap (killWrites self)) := by
  refine SoscSupervisor.foldl_emits (fun log h => ?_) hs
  have hhandle : (({ self with log := log } : SoscSupervisor).handle h).data =
      (self.handle h).data := rfl
  have hsize : IpcMsg.processShouldExit.wireSize ≤ soscIpcMsgBufferSize := by decide
  by_cases htag : (self.handle h).data = some .deviceType
  · cases hwho : h.who with
    | detector => simp [killDevicesWalkCb, killWrites, htag, hhandle, hwho]
    | device d =>
      simp [killDevicesWalkCb, killWrites, htag, hhandle, hwho, writeIpcMsgToStream, hsize,
        SoscSupervisor.emit]
  · simp [killDevicesWalkCb, killWrites, htag, hhandle]

/-- The outcomes of `supervisor__change_state`. -/
inductive ChangedState : SoscSupervisorState → SoscSupervisor × ℤ → Prop
  | rejected {newState : SoscSupervisorState}
      (hreject : self.state = newState ∨ self.checkActive = true) :
      ChangedState newState (self, -1)
  | launchFailed (hstate : self.state = .disabled) (hcheck : self.checkActive = false)
      (herr : env.uvSpawn self.calls ≠ 0) :
      ChangedState .enabled
        ({ self.tick.emit (detectorSpawn env self) with
           detector := self.detector.launchFailed env }, -1)
  | launched (hstate : self.state = .disabled) (hcheck : self.checkActive = false)
      (herr : env.uvSpawn self.calls = 0) :
      ChangedState .enabled
        ({ self.tick.emit (detectorSpawn env self) with
           detector := self.detector.launched .detectorType
           pending := .enabled
           checkActive := true }, 0)
  | disabling (hstate : self.state = .enabled) (hcheck : self.checkActive = false) :
      ChangedState .disabled
        ({ self.emits (.uvProcessKill .detector sigterm ::
             self.uvWalk.flatMap (killWrites self)) with
           pending := .disabled
           checkActive := true }, 0)

theorem supervisorChangeState_spec (newState : SoscSupervisorState) :
    ChangedState env self newState (supervisorChangeState env self newState) := by
  by_cases hreject : self.state = newState ∨ self.checkActive = true
  · unfold supervisorChangeState
    rw [if_pos hreject]
    exact .rejected hreject
  · obtain ⟨hstate, hcheck⟩ := not_or.mp hreject
    have hcheck' : self.checkActive = false := Bool.eq_false_of_not_eq_true hcheck
    cases newState with
    | enabled =>
      have hdisabled : self.state = .disabled := by
        cases h : self.state with
        | disabled => rfl
        | enabled => exact absurd h hstate
      by_cases herr : env.uvSpawn self.calls = 0
      · have hspec : ChangedState env self _ _ := .launched hdisabled hcheck' herr
        rw [supervisorChangeState, if_neg hreject]
        simpa [launchSubprocess, herr, SoscSubprocess.launched, detectorSpawn] using hspec
      · have hspec := ChangedState.launchFailed hdisabled hcheck' herr
        rw [supervisorChangeState, if_neg hreject]
        simpa [launchSubprocess, herr, SoscSubprocess.launchFailed, detectorSpawn] using hspec
    | disabled =>
      have henabled : self.state = .enabled := by
        cases h : self.state with
        | enabled => rfl
        | disabled => exact absurd h hstate
      rw [supervisorChangeState, if_neg hreject]
      have hwalk : (self.emit (.uvProcessKill .detector sigterm)).uvWalk = self.uvWalk := rfl
      have hwrites : killWrites (self.emit (.uvProcessKill .detector sigterm)) =
          killWrites self := rfl
      simp only [foldl_killDevicesWalkCb, hwalk, hwrites]
      have hspec : ChangedState env self _ _ := .disabling henabled hcheck'
      simpa [SoscSupervisor.emits, SoscSupervisor.emit] using hspec

/-- The outcomes of `handle_connection`. -/
inductive Connected (devnode : CString) : SoscSupervisor × ℤ → Prop
  | noMemory (hcalloc : env.calloc self.calls = false) :
      Connected devnode (self.tick, -1)
  | launchFailed (hcalloc : env.calloc self.calls = true)
      (herr : env.uvSpawn (self.calls + 1) ≠ 0) :
      Connected devnode
        ({ self.tick.tick.emit (deviceSpawn env self devnode) with
           devices := self.devices ++
             [{ subprocess := ({} : SoscSubprocess).launchFailed env, freed := true }] }, -1)
  | launched (hcalloc : env.calloc self.calls = true)
      (herr : env.uvSpawn (self.calls + 1) = 0) :
      Connected devnode
        ({ self.tick.tick.emit (deviceSpawn env self devnode) with
           devices := self.devices ++
             [{ subprocess := ({} : SoscSubprocess).launched .deviceType }] }, 0)

theorem handleConnection_spec (devnode : CString) :
    Connected env self devnode (handleConnection env self devnode) := by
  cases hcalloc : env.calloc self.calls with
  | false =>
    have hspec : Connected env self devnode _ := .noMemory hcalloc
    simpa [handleConnection, hcalloc] using hspec
  | true =>
    by_cases herr : env.uvSpawn (self.calls + 1) = 0
    · have hspec : Connected env self devnode _ := .launched hcalloc herr
      simpa [handleConnection, hcalloc, deviceInit, launchSubprocess, herr,
        SoscSubprocess.launched, deviceSpawn, SoscSupervisor.tick, SoscSupervisor.emit,
        deviceArgs] using hspec
    · have hspec : Connected env self devnode _ := .launchFailed hcalloc herr
      simpa [handleConnection, hcalloc, deviceInit, launchSubprocess, herr,
        SoscSubprocess.launchFailed, deviceSpawn, SoscSupervisor.tick, SoscSupervisor.emit,
        deviceArgs] using hspec

end

/-! ## Announcing and listing -/

section

variable (env : Env) (self : SoscSupervisor) (d : ℕ) (dev : SoscDeviceSubprocess)

/-- The logged send that tells `n` about device `d`. -/
def notifySend (path : String) (entry : List OscArg) (n : SoscNotificationEndpoint) : Effect :=
  .loSendFrom (some d) n.address path entry

theorem foldl_notifyEndpoint (path : String) (entry : List OscArg)
    (ns : List SoscNotificationEndpoint) :
    ∃ sends, ns.foldl (notifyEndpoint env path d entry) self =
        { self with log := self.log ++ sends, calls := self.calls + ns.length } ∧
      (∀ e ∈ sends, ∃ n ∈ ns, e = notifySend d path entry n) ∧
      ((∀ k, env.loAddressNew k = true) → ∀ n ∈ ns, notifySend d path entry n ∈ sends) := by
  induction ns generalizing self with
  | nil => exact ⟨[], by simp, by simp, by simp⟩
  | cons n ns ih =>
    obtain ⟨sends, heq, hfrom, hall⟩ := ih (notifyEndpoint env path d entry self n)
    cases halloc : env.loAddressNew self.calls with
    | false =>
      refine ⟨sends, ?_, ?_, ?_⟩
      · rw [List.foldl_cons, heq]
        simp [notifyEndpoint, loAddressNew, halloc, SoscSupervisor.tick, Nat.add_assoc,
          Nat.add_comm 1]
      · intro e he
        obtain ⟨n', hn', rfl⟩ := hfrom e he
        exact ⟨n', List.mem_cons_of_mem n hn', rfl⟩
      · intro hok
        rw [hok] at halloc
        exact Bool.noConfusion halloc
    | true =>
      refine ⟨notifySend d path entry n :: sends, ?_, ?_, ?_⟩
      · rw [List.foldl_cons, heq]
        simp [notifyEndpoint, loAddressNew, halloc, SoscSupervisor.tick, SoscSupervisor.emit,
          notifySend, SoscNotificationEndpoint.address, Nat.add_assoc, Nat.add_comm 1]
      · intro e he
        rcases List.mem_cons.mp he with rfl | he
        · exact ⟨n, List.mem_cons_self, rfl⟩
        · obtain ⟨n', hn', rfl⟩ := hfrom e he
          exact ⟨n', List.mem_cons_of_mem n hn', rfl⟩
      · intro hok n' hn'
        rcases List.mem_cons.mp hn' with rfl | hn'
        · exact List.mem_cons_self
        · exact List.mem_cons_of_mem _ (hall hok n' hn')

/-- `osc_notify` raises the event, sends it to whoever is subscribed, and asks
for the subscriptions to be dropped. -/
theorem oscNotify_spec {type : SoscIpcType} {path : String}
    (hpath : notifyPath type = some path) :
    ∃ sends, oscNotify env self d dev type =
        { self with
          log := self.log ++ .oscNotify type d dev.entry :: sends
          calls := self.calls + self.notifications.length
          drainActive := true } ∧
      (∀ e ∈ sends, ∃ n ∈ self.notifications, e = notifySend d path dev.entry n) ∧
      ((∀ k, env.loAddressNew k = true) →
        ∀ n ∈ self.notifications, notifySend d path dev.entry n ∈ sends) := by
  obtain ⟨sends, heq, hfrom, hall⟩ := foldl_notifyEndpoint env
    (self.emit (.oscNotify type d dev.entry)) d path dev.entry self.notifications
  refine ⟨sends, ?_, hfrom, hall⟩
  simp only [oscNotify, hpath]
  have hns : (self.emit (.oscNotify type d dev.entry)).notifications =
      self.notifications := rfl
  rw [hns, heq]
  simp [SoscSupervisor.emit]

/-- The logged sends of `list_devices_walk_cb`. -/
def listSends (dst : LoAddress) (h : HandleId) : List Effect :=
  if (self.handle h).data = some .deviceType then
    match h.who with
    | .detector => []
    | .device d =>
        match self.devices[d]? with
        | none => []
        | some dev =>
            if dev.ready then [.loSendFrom (some d) dst "/serialosc/device" dev.entry]
            else []
  else []

theorem foldl_listDevicesWalkCb (dst : LoAddress) (hs : List HandleId) :
    hs.foldl (listDevicesWalkCb dst) self =
      self.emits (hs.flatMap (listSends self dst)) := by
  refine SoscSupervisor.foldl_emits (fun log h => ?_) hs
  have hhandle : (({ self with log := log } : SoscSupervisor).handle h).data =
      (self.handle h).data := rfl
  by_cases htag : (self.handle h).data = some .deviceType
  · cases hwho : h.who with
    | detector => simp [listDevicesWalkCb, listSends, htag, hhandle, hwho]
    | device d =>
      cases hdev : self.devices[d]? with
      | none => simp [listDevicesWalkCb, listSends, htag, hhandle, hwho, hdev]
      | some dev =>
        cases hready : dev.ready <;>
          simp [listDevicesWalkCb, listSends, htag, hhandle, hwho, hdev, hready,
            SoscSupervisor.emit]
  · simp [listDevicesWalkCb, listSends, htag, hhandle]

theorem oscListDevices_spec (host : CString) (port : ℤ) :
    oscListDevices env self host port =
      if env.loAddressNew self.calls then
        self.tick.emits
          (self.uvWalk.flatMap (listSends self ⟨host, portstr port⟩))
      else self.tick := by
  cases halloc : env.loAddressNew self.calls with
  | false => simp [oscListDevices, loAddressNew, halloc]
  | true =>
    have hwalk : self.tick.uvWalk = self.uvWalk := rfl
    have hsends (dst : LoAddress) : listSends self.tick dst = listSends self dst := rfl
    simp [oscListDevices, loAddressNew, halloc, foldl_listDevicesWalkCb, hwalk, hsends]

end

/-! ## Callbacks that leave the handles alone -/

/-- The two states agree on what drives the loop: phase, transition, and the
handles of every subprocess. -/
structure SameLoop (before after : SoscSupervisor) : Prop where
  phase : after.phase = before.phase
  state : after.state = before.state
  pending : after.pending = before.pending
  checkActive : after.checkActive = before.checkActive
  has : ∀ who, after.Has who ↔ before.Has who
  subprocess : ∀ who, after.subprocess who = before.subprocess who

namespace SameLoop

variable {self self₁ self₂ : SoscSupervisor}

theorem refl (self : SoscSupervisor) : SameLoop self self :=
  ⟨rfl, rfl, rfl, rfl, fun _ => Iff.rfl, fun _ => rfl⟩

theorem trans (h₁ : SameLoop self self₁) (h₂ : SameLoop self₁ self₂) :
    SameLoop self self₂ :=
  ⟨h₂.phase.trans h₁.phase, h₂.state.trans h₁.state, h₂.pending.trans h₁.pending,
    h₂.checkActive.trans h₁.checkActive, fun who => (h₂.has who).trans (h₁.has who),
    fun who => (h₂.subprocess who).trans (h₁.subprocess who)⟩

theorem modifyDevice (self : SoscSupervisor) (d : ℕ)
    {f : SoscDeviceSubprocess → SoscDeviceSubprocess}
    (hf : ∀ dev, (f dev).subprocess = dev.subprocess) :
    SameLoop self (self.modifyDevice d f) := by
  refine ⟨rfl, rfl, rfl, rfl, fun who => ?_, fun who => ?_⟩
  · cases who <;> simp [SoscSupervisor.Has, SoscSupervisor.modifyDevice]
  cases who with
  | detector => rfl
  | device d' =>
    have hmap (o : Option SoscDeviceSubprocess) :
        (o.map f).elim {} SoscDeviceSubprocess.subprocess =
          o.elim {} SoscDeviceSubprocess.subprocess := by
      cases o with
      | none => rfl
      | some dev => exact hf dev
    by_cases hd : d = d'
    · simp [SoscSupervisor.subprocess, SoscSupervisor.modifyDevice, hd, hmap]
    · simp [SoscSupervisor.subprocess, SoscSupervisor.modifyDevice, hd]

variable (env : Env) (self : SoscSupervisor)

theorem oscNotify (d : ℕ) (dev : SoscDeviceSubprocess) (type : SoscIpcType) :
    SameLoop self (oscNotify env self d dev type) := by
  cases hpath : notifyPath type with
  | none =>
    simp only [Serialosc.oscNotify, hpath]
    exact refl self
  | some path =>
    obtain ⟨sends, heq, -, -⟩ := oscNotify_spec env self d dev hpath
    rw [heq]
    exact ⟨rfl, rfl, rfl, rfl, fun _ => Iff.rfl, fun _ => rfl⟩

theorem handleDeviceMsg (d : ℕ) (msg : IpcMsg) :
    SameLoop self (handleDeviceMsg env self d msg) := by
  cases msg with
  | deviceConnection devnode => exact refl self
  | deviceInfo serial friendly => exact modifyDevice self d fun _ => rfl
  | deviceReady =>
    have hready : SameLoop self (self.modifyDevice d fun dev => { dev with ready := true }) :=
      modifyDevice self d fun _ => rfl
    simp only [Serialosc.handleDeviceMsg]
    split
    · exact hready
    · exact hready.trans (oscNotify env _ d _ _)
  | deviceDisconnection => exact refl self
  | oscPortChange port => exact modifyDevice self d fun _ => rfl
  | processShouldExit => exact refl self

theorem oscListDevices (host : CString) (port : ℤ) :
    SameLoop self (oscListDevices env self host port) := by
  rw [oscListDevices_spec]
  split
  · exact ⟨rfl, rfl, rfl, rfl, fun _ => Iff.rfl, fun _ => rfl⟩
  · exact ⟨rfl, rfl, rfl, rfl, fun _ => Iff.rfl, fun _ => rfl⟩

theorem oscReportStatus (host : CString) (port : ℤ) :
    SameLoop self (oscReportStatus env self host port) := by
  cases halloc : env.loAddressNew self.calls <;>
    simp only [Serialosc.oscReportStatus, loAddressNew, halloc] <;>
    exact ⟨rfl, rfl, rfl, rfl, fun _ => Iff.rfl, fun _ => rfl⟩

theorem oscReportVersion (host : CString) (port : ℤ) :
    SameLoop self (oscReportVersion env self host port) := by
  cases halloc : env.loAddressNew self.calls <;>
    simp only [Serialosc.oscReportVersion, loAddressNew, halloc] <;>
    exact ⟨rfl, rfl, rfl, rfl, fun _ => Iff.rfl, fun _ => rfl⟩

theorem oscAddNotificationEndpoint (host : CString) (port : ℤ) :
    SameLoop self (oscAddNotificationEndpoint self host port) :=
  ⟨rfl, rfl, rfl, rfl, fun _ => Iff.rfl, fun _ => rfl⟩

end SameLoop

/-! ## Callbacks that move handles -/

/-- The handles of a subprocess after its exit callback. -/
def SoscSubprocess.exited (sub : SoscSubprocess) : SoscSubprocess where
  proc := sub.proc.stop
  toProc := sub.toProc.close
  fromProc := sub.fromProc.close

/-- The handles of a subprocess after one of them has left the loop.  The
close of the reading pipe is followed by the close of the process. -/
def SoscSubprocess.closed (sub : SoscSubprocess) : SubprocessMember → SoscSubprocess
  | .proc => { sub with proc := sub.proc.finishClose }
  | .toProc => { sub with toProc := sub.toProc.finishClose }
  | .fromProc => { sub with fromProc := sub.fromProc.finishClose, proc := sub.proc.close }

/-- The two states agree on what drives the loop, except for the handles of
one subprocess. -/
structure SameLoopBut (who : ProcessId) (before after : SoscSupervisor)
    (sub : SoscSubprocess) : Prop where
  phase : after.phase = before.phase
  state : after.state = before.state
  pending : after.pending = before.pending
  checkActive : after.checkActive = before.checkActive
  has : ∀ who', after.Has who' ↔ before.Has who'
  changed : after.subprocess who = sub
  others : ∀ who', who' ≠ who → after.subprocess who' = before.subprocess who'

namespace SameLoopBut

variable {who : ProcessId} {self self₁ self₂ : SoscSupervisor} {sub sub₁ : SoscSubprocess}

theorem has_modifySubprocess (f : SoscSubprocess → SoscSubprocess) (who' : ProcessId) :
    (self.modifySubprocess who f).Has who' ↔ self.Has who' := by
  cases who <;> cases who' <;>
    simp [SoscSupervisor.modifySubprocess, SoscSupervisor.modifyDevice, SoscSupervisor.Has]

theorem modifySubprocess (f : SoscSubprocess → SoscSubprocess) (hhas : self.Has who) :
    SameLoopBut who self (self.modifySubprocess who f) (f (self.subprocess who)) := by
  have hsub := SoscSupervisor.subprocess_modifySubprocess f hhas who
  refine ⟨?_, ?_, ?_, ?_, has_modifySubprocess f, by rw [hsub, if_pos rfl],
    fun who' hne => ?_⟩
  · cases who <;> rfl
  · cases who <;> rfl
  · cases who <;> rfl
  · cases who <;> rfl
  · rw [SoscSupervisor.subprocess_modifySubprocess f hhas, if_neg hne]

theorem trans_same (h₁ : SameLoopBut who self self₁ sub) (h₂ : SameLoop self₁ self₂) :
    SameLoopBut who self self₂ sub where
  phase := h₂.phase.trans h₁.phase
  state := h₂.state.trans h₁.state
  pending := h₂.pending.trans h₁.pending
  checkActive := h₂.checkActive.trans h₁.checkActive
  has who' := (h₂.has who').trans (h₁.has who')
  changed := (h₂.subprocess who).trans h₁.changed
  others who' hne := (h₂.subprocess who').trans (h₁.others who' hne)

theorem trans (h₁ : SameLoopBut who self self₁ sub)
    (h₂ : SameLoopBut who self₁ self₂ sub₁) : SameLoopBut who self self₂ sub₁ where
  phase := h₂.phase.trans h₁.phase
  state := h₂.state.trans h₁.state
  pending := h₂.pending.trans h₁.pending
  checkActive := h₂.checkActive.trans h₁.checkActive
  has who' := (h₂.has who').trans (h₁.has who')
  changed := h₂.changed
  others who' hne := (h₂.others who' hne).trans (h₁.others who' hne)

/-- `uv_close` on one handle. -/
theorem uvClose (h : HandleId) (hhas : self.Has h.who) :
    SameLoopBut h.who self (self.uvClose h)
      ((self.subprocess h.who).modify h.member Uv.Handle.close) :=
  modifySubprocess _ hhas

end SameLoopBut

section

variable {env : Env} {self : SoscSupervisor} {who : ProcessId}

/-- Closing the two pipes of a subprocess. -/
theorem sameLoopBut_closePipes (hhas : self.Has who) :
    SameLoopBut who self ((self.uvClose ⟨who, .toProc⟩).uvClose ⟨who, .fromProc⟩)
      { self.subprocess who with
        toProc := (self.subprocess who).toProc.close
        fromProc := (self.subprocess who).fromProc.close } := by
  have h₁ := SameLoopBut.uvClose ⟨who, .toProc⟩ hhas
  have h₂ := SameLoopBut.uvClose ⟨who, .fromProc⟩ ((h₁.has who).mpr hhas)
  have h := h₁.trans h₂
  rw [h₁.changed] at h
  exact h

/-- The supervisor when the process handle of `who` has stopped and its exit
callback is about to run. -/
def SoscSupervisor.stopped (self : SoscSupervisor) (who : ProcessId) : SoscSupervisor :=
  (self.modifySubprocess who fun sub => sub.modify .proc Uv.Handle.stop).emit
    (.processExited who)

/-- The device record with its process handle stopped. -/
def SoscDeviceSubprocess.stopped (dev : SoscDeviceSubprocess) : SoscDeviceSubprocess :=
  { dev with subprocess := dev.subprocess.modify .proc Uv.Handle.stop }

theorem devices_stopped (self : SoscSupervisor) (d : ℕ) :
    (self.stopped (.device d)).devices[d]? =
      (self.devices[d]?).map SoscDeviceSubprocess.stopped := by
  simp only [SoscSupervisor.stopped, SoscSupervisor.emit, SoscSupervisor.modifySubprocess,
    SoscSupervisor.modifyDevice, List.getElem?_modify_eq]
  rfl

theorem processExit_of_none {d : ℕ} (hdev : self.devices[d]? = none) :
    processExit env self (.device d) = self.stopped (.device d) := by
  have hnone := devices_stopped self d
  rw [hdev, Option.map_none] at hnone
  simp only [SoscSupervisor.stopped] at hnone
  simp only [processExit, hnone, SoscSupervisor.stopped]

theorem processExit_of_some {d : ℕ} {dev : SoscDeviceSubprocess}
    (hdev : self.devices[d]? = some dev) :
    processExit env self (.device d) =
      deviceExitCb env (self.stopped (.device d)) d dev.stopped := by
  have hsome := devices_stopped self d
  rw [hdev, Option.map_some] at hsome
  simp only [SoscSupervisor.stopped] at hsome
  simp only [processExit, hsome, SoscSupervisor.stopped]

/-- The supervisor when `handle_device_msg` has marked the device as ready. -/
def SoscSupervisor.marked (self : SoscSupervisor) (d : ℕ) : SoscSupervisor :=
  self.modifyDevice d fun dev => { dev with ready := true }

theorem handleDeviceMsg_of_none {d : ℕ} (hdev : self.devices[d]? = none) :
    handleDeviceMsg env self d .deviceReady = self.marked d := by
  simp [handleDeviceMsg, SoscSupervisor.marked, SoscSupervisor.modifyDevice, hdev]

theorem handleDeviceMsg_of_some {d : ℕ} {dev : SoscDeviceSubprocess}
    (hdev : self.devices[d]? = some dev) :
    handleDeviceMsg env self d .deviceReady =
      oscNotify env (self.marked d) d { dev with ready := true } .deviceConnection := by
  simp [handleDeviceMsg, SoscSupervisor.marked, SoscSupervisor.modifyDevice, hdev]

/-- An exit stops the process and begins the close of its two pipes. -/
theorem processExit_spec (halive : (self.subprocess who).proc.active = true) :
    SameLoopBut who self (processExit env self who) (self.subprocess who).exited := by
  have hhas : self.Has who :=
    SoscSupervisor.has_of_active .proc halive
  have hstop : SameLoopBut who self (self.stopped who)
      ((self.subprocess who).modify .proc Uv.Handle.stop) :=
    (SameLoopBut.modifySubprocess (fun sub => sub.modify .proc Uv.Handle.stop) hhas).trans_same
      ⟨rfl, rfl, rfl, rfl, fun _ => Iff.rfl, fun _ => rfl⟩
  have hhas₁ : (self.stopped who).Has who := (hstop.has who).mpr hhas
  -- whatever the exit callback announces first, it then closes the pipes
  have hclose {notified : SoscSupervisor} (hsame : SameLoop (self.stopped who) notified) :
      SameLoopBut who self
        ((notified.uvClose ⟨who, .toProc⟩).uvClose ⟨who, .fromProc⟩)
        (self.subprocess who).exited := by
    have hstop' := hstop.trans_same hsame
    have h := hstop'.trans (sameLoopBut_closePipes ((hsame.has who).mpr hhas₁))
    rw [hstop'.changed] at h
    exact h
  cases who with
  | detector => exact hclose (SameLoop.refl _)
  | device d =>
    rw [processExit_of_some (List.getElem?_eq_getElem hhas), deviceExitCb]
    split
    · exact hclose (SameLoop.oscNotify env _ d _ _)
    · exact hclose (SameLoop.refl _)

/-- A completed close changes the handles as its callback says. -/
theorem closeCompleted_spec (h : HandleId) (hloop : (self.handle h).InLoop) :
    SameLoopBut h.who self (closeCompleted self h)
      ((self.subprocess h.who).closed h.member) := by
  obtain ⟨who, member⟩ := h
  have hhas : self.Has who := SoscSupervisor.has_of_inLoop hloop
  have hgone := SameLoopBut.modifySubprocess
    (fun sub => sub.modify member Uv.Handle.finishClose) hhas
  cases member with
  | proc =>
    cases who with
    | detector => exact hgone
    | device d => exact hgone.trans_same (SameLoop.modifyDevice _ d fun _ => rfl)
  | toProc =>
    cases who with
    | detector => exact hgone
    | device d => exact hgone
  | fromProc =>
    have hchain := hgone.trans (SameLoopBut.uvClose ⟨who, .proc⟩ ((hgone.has who).mpr hhas))
    rw [hgone.changed] at hchain
    cases who with
    | detector => exact hchain
    | device d => exact hchain

theorem subprocess_beginClosing (who : ProcessId) :
    (beginClosing self).subprocess who =
      (self.subprocess who).map Uv.Handle.beginClosing := by
  cases who with
  | detector => rfl
  | device d =>
    cases hdev : self.devices[d]? with
    | none => simp [beginClosing, SoscSupervisor.enter, SoscSupervisor.subprocess, hdev,
        SoscSubprocess.map, Uv.Handle.beginClosing]
    | some dev => simp [beginClosing, SoscSupervisor.enter, SoscSupervisor.subprocess, hdev]

end

theorem foldl_remainingSubprocessesWalkCb (self : SoscSupervisor) (hs : List HandleId)
    (n : ℕ) :
    hs.foldl (remainingSubprocessesWalkCb self) n =
      n + hs.countP fun h => decide ((self.handle h).data ≠ none) := by
  induction hs generalizing n with
  | nil => rfl
  | cons h hs ih =>
    rw [List.foldl_cons, ih, remainingSubprocessesWalkCb, List.countP_cons]
    cases hdata : (self.handle h).data with
    | none => simp
    | some tag => cases tag <;> simp [Nat.add_assoc, Nat.add_comm 1]

/-- The count of remaining subprocesses is zero when no handle in the loop has
a tag. -/
theorem subprocsRemaining_eq_zero (self : SoscSupervisor) :
    subprocsRemaining self = 0 ↔
      ∀ h, (self.handle h).InLoop → (self.handle h).data = none := by
  rw [subprocsRemaining, foldl_remainingSubprocessesWalkCb, Nat.zero_add, List.countP_eq_zero]
  constructor
  · intro hnone h hloop
    simpa using hnone h (SoscSupervisor.mem_uvWalk.mpr hloop)
  · intro hnone h hmem
    simpa using hnone h (SoscSupervisor.mem_uvWalk.mp hmem)

/-- The idle watcher ends a transition, or leaves everything as it is. -/
theorem stateChangeCheckCb_cases (self : SoscSupervisor) :
    stateChangeCheckCb self = self ∨
      stateChangeCheckCb self = { self with state := self.pending, checkActive := false } ∧
        (self.pending = .disabled → subprocsRemaining self = 0) := by
  unfold stateChangeCheckCb
  cases hpending : self.pending with
  | enabled => exact Or.inr ⟨rfl, fun h => SoscSupervisorState.noConfusion h⟩
  | disabled =>
    by_cases hcount : subprocsRemaining self = 0
    · simp only [hcount, if_true]
      exact Or.inr ⟨trivial, fun _ => trivial⟩
    · simp only [hcount, if_false]
      exact Or.inl trivial

/-- `main` reaches the loop when the first launch succeeds. -/
theorem supervisor_init_iff {env : Env} {self : SoscSupervisor} :
    (supervisor env).init self ↔
      ∃ exeDir configDir, env.uvSpawn 0 = 0 ∧
        self = { (supervisorInit exeDir configDir).tick.emit
                   (detectorSpawn env (supervisorInit exeDir configDir)) with
                 detector := ({} : SoscSubprocess).launched .detectorType
                 pending := .enabled
                 checkActive := true } := by
  have hmain (exeDir : CString) (configDir : Option CString) :
      supervisorMain env exeDir configDir = some self ↔ env.uvSpawn 0 = 0 ∧
        self = { (supervisorInit exeDir configDir).tick.emit
                   (detectorSpawn env (supervisorInit exeDir configDir)) with
                 detector := ({} : SoscSubprocess).launched .detectorType
                 pending := .enabled
                 checkActive := true } := by
    have hspec := supervisorChangeState_spec env (supervisorInit exeDir configDir) .enabled
    unfold supervisorMain supervisorEnable
    generalize supervisorChangeState env (supervisorInit exeDir configDir) .enabled = r at hspec
    cases hspec with
    | rejected hreject => simp [supervisorInit] at hreject
    | launchFailed hstate hcheck herr =>
      have herr' : ¬ env.uvSpawn 0 = 0 := herr
      simp [herr']
    | launched hstate hcheck herr =>
      have herr' : env.uvSpawn 0 = 0 := herr
      simp only [herr', ne_eq, not_true_eq_false, if_false, Option.some.injEq, true_and]
      exact eq_comm
  constructor
  · rintro ⟨exeDir, configDir, h⟩
    exact ⟨exeDir, configDir, (hmain exeDir configDir).mp h⟩
  · rintro ⟨exeDir, configDir, h⟩
    exact ⟨exeDir, configDir, (hmain exeDir configDir).mpr h⟩

/-! ## Read callbacks -/

/-- `detector_read_cb`, on a buffer of `nbytes` bytes. -/
def detectorReadCb (env : Env) (malloc : ℕ → Addr) (fuel : ℕ) (self : SoscSupervisor)
    (h : Heap) (buf : Addr) (nbytes : BitVec 64) : Option (Dispatched SoscSupervisor) :=
  dispatchIpcMsgs malloc (handleDetectorMsg env) fuel h buf nbytes self

/-- `device_read_cb`, for device `d`. -/
def deviceReadCb (env : Env) (malloc : ℕ → Addr) (fuel : ℕ) (self : SoscSupervisor) (d : ℕ)
    (h : Heap) (buf : Addr) (nbytes : BitVec 64) : Option (Dispatched SoscSupervisor) :=
  dispatchIpcMsgs malloc (fun self msg => handleDeviceMsg env self d msg) fuel h buf nbytes
    self

/-- Events that stay enabled until all of them have been taken. -/
theorem exec_map_eq_foldl {α : Type} {env : Env} (event : α → Event)
    (cb : SoscSupervisor → α → SoscSupervisor) (ready : SoscSupervisor → Prop)
    (hstep : ∀ s x, ready s → step env s (event x) = some (cb s x))
    (hready : ∀ s x, ready s → ready (cb s x)) {self : SoscSupervisor} (hself : ready self)
    (xs : List α) :
    (supervisor env).exec self (xs.map event) = some (xs.foldl cb self) := by
  induction xs generalizing self with
  | nil => rfl
  | cons x xs ih =>
    refine ((supervisor env).exec_cons_some).mpr ⟨cb self x, hstep self x hself, ?_⟩
    exact ih (hready self x hself)

section

variable (env : Env) (malloc : ℕ → Addr) {self : SoscSupervisor} {h : Heap} {p : Addr}
  {os : List Outgoing} {fuel : ℕ}

theorem handleDetectorMsg_keeps (self : SoscSupervisor) (msg : IpcMsg) :
    (handleDetectorMsg env self msg).phase = self.phase ∧
      (handleDetectorMsg env self msg).detector = self.detector ∧
      (handleDetectorMsg env self msg).state = self.state ∧
      (handleDetectorMsg env self msg).pending = self.pending ∧
      (handleDetectorMsg env self msg).checkActive = self.checkActive := by
  cases msg with
  | deviceConnection devnode =>
    have hspec := handleConnection_spec env self devnode
    simp only [handleDetectorMsg]
    generalize handleConnection env self devnode = r at hspec
    cases hspec <;> exact ⟨rfl, rfl, rfl, rfl, rfl⟩
  | _ => exact ⟨rfl, rfl, rfl, rfl, rfl⟩

/-- A read of whole messages from the detector is one read step for each. -/
theorem detectorReadCb_exec
    (hphase : self.phase = .poll) (hread : self.detector.fromProc.active = true)
    (hm : HasBytes h.mem p (os.flatMap Outgoing.bytes))
    (hsize : (os.flatMap Outgoing.bytes).length < 2 ^ 63) (hfuel : os.length < fuel) :
    ∃ h' self', detectorReadCb env malloc fuel self h p
        (BitVec.ofNat 64 (os.flatMap Outgoing.bytes).length) =
        some { heap := h', self := self', nbytes := 0#64, freed := true } ∧
      (supervisor env).exec self ((os.map Outgoing.contents).map .detectorRead) =
        some self' := by
  obtain ⟨h', hdispatch⟩ :=
    dispatchIpcMsgs_messages malloc (handleDetectorMsg env) os self hm hsize hfuel
  refine ⟨h', _, hdispatch, ?_⟩
  refine exec_map_eq_foldl .detectorRead (handleDetectorMsg env)
    (fun s => s.phase = .poll ∧ s.detector.fromProc.active = true)
    (fun s msg hs => if_pos hs) (fun s msg hs => ?_) ⟨hphase, hread⟩ _
  obtain ⟨hphase', hdetector, -⟩ := handleDetectorMsg_keeps env s msg
  rw [hphase', hdetector]
  exact hs

/-- A read of whole messages from a device is one read step for each. -/
theorem deviceReadCb_exec (d : ℕ)
    (hphase : self.phase = .poll)
    (hread : (self.subprocess (.device d)).fromProc.active = true)
    (hm : HasBytes h.mem p (os.flatMap Outgoing.bytes))
    (hsize : (os.flatMap Outgoing.bytes).length < 2 ^ 63) (hfuel : os.length < fuel) :
    ∃ h' self', deviceReadCb env malloc fuel self d h p
        (BitVec.ofNat 64 (os.flatMap Outgoing.bytes).length) =
        some { heap := h', self := self', nbytes := 0#64, freed := true } ∧
      (supervisor env).exec self ((os.map Outgoing.contents).map (.deviceRead d)) =
        some self' := by
  obtain ⟨h', hdispatch⟩ :=
    dispatchIpcMsgs_messages malloc (fun self msg => handleDeviceMsg env self d msg) os self
      hm hsize hfuel
  refine ⟨h', _, hdispatch, ?_⟩
  refine exec_map_eq_foldl (.deviceRead d) (fun self msg => handleDeviceMsg env self d msg)
    (fun s => s.phase = .poll ∧ (s.subprocess (.device d)).fromProc.active = true)
    (fun s msg hs => if_pos hs) (fun s msg hs => ?_) ⟨hphase, hread⟩ _
  have hsame := SameLoop.handleDeviceMsg env s d msg
  rw [hsame.phase, hsame.subprocess]
  exact hs

end

end Serialosc
