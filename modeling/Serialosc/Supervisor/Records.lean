import Serialosc.Supervisor.Running

/-!
# Device records and announced events

`DeviceRecord` is a device record without its handles: what the messages of
the device have filled in, and whether the record has been freed.
`record_step` says how each event changes it.  `raised` is the sequence of
events that `osc_notify` has announced about a device.
-/

namespace Serialosc

open ByteMemory Runs

/-! ## Device records -/

/-- `struct sosc_device_subprocess` without the subprocess. -/
structure DeviceRecord where
  ready : Bool := false
  port : ℤ := 0
  serial : Option CString := none
  friendly : Option CString := none
  freed : Bool := false
  deriving DecidableEq

namespace DeviceRecord

/-- What a message stores. -/
def receive (r : DeviceRecord) : IpcMsg → DeviceRecord
  | .oscPortChange port => { r with port := port.toNat }
  | .deviceInfo serial friendly => { r with serial := some serial, friendly := some friendly }
  | .deviceReady => { r with ready := true }
  | .deviceConnection _ | .deviceDisconnection | .processShouldExit => r

/-- What `device_proc_close_cb` leaves. -/
def closed (r : DeviceRecord) : DeviceRecord :=
  { r with serial := none, friendly := none, freed := true }

/-- The arguments of a message about the device. -/
def entry (r : DeviceRecord) : List OscArg := [.s r.serial, .s r.friendly, .i r.port]

end DeviceRecord

def SoscDeviceSubprocess.record (dev : SoscDeviceSubprocess) : DeviceRecord where
  ready := dev.ready
  port := dev.port
  serial := dev.serial
  friendly := dev.friendly
  freed := dev.freed

namespace SoscSupervisor

/-- The record of device `d`, once it has been allocated. -/
def record (self : SoscSupervisor) (d : ℕ) : Option DeviceRecord :=
  (self.devices[d]?).map SoscDeviceSubprocess.record

/-- The device has sent `SOSC_DEVICE_READY`. -/
def Ready (self : SoscSupervisor) (d : ℕ) : Prop :=
  ∃ r, self.record d = some r ∧ r.ready = true

end SoscSupervisor

/-- The record of device `d` after an event. -/
def nextRecord (env : Env) (self : SoscSupervisor) (d : ℕ) : Event → Option DeviceRecord
  | .deviceRead d' msg =>
      if d' = d then (self.record d).map fun r => r.receive msg else self.record d
  | .closed ⟨.device d', .proc⟩ =>
      if d' = d then (self.record d).map DeviceRecord.closed else self.record d
  | .detectorRead (.deviceConnection _) =>
      if env.calloc self.calls = true ∧ d = self.devices.length then
        some { freed := decide (env.uvSpawn (self.calls + 1) ≠ 0) }
      else self.record d
  | _ => self.record d

section

variable {env : Env} {self self' : SoscSupervisor} {d : ℕ}

theorem record_eq_none_iff : self.record d = none ↔ self.devices.length ≤ d := by
  rw [SoscSupervisor.record, Option.map_eq_none_iff, List.getElem?_eq_none_iff]

theorem ready_iff :
    self.Ready d ↔ ∃ dev, self.devices[d]? = some dev ∧ dev.ready = true := by
  constructor
  · rintro ⟨r, hr, hready⟩
    obtain ⟨dev, hdev, rfl⟩ := Option.map_eq_some_iff.mp hr
    exact ⟨dev, hdev, hready⟩
  · rintro ⟨dev, hdev, hready⟩
    exact ⟨dev.record, Option.map_eq_some_iff.mpr ⟨dev, hdev, rfl⟩, hready⟩

theorem record_modifyDevice (self : SoscSupervisor) (d d' : ℕ)
    {f : SoscDeviceSubprocess → SoscDeviceSubprocess} {g : DeviceRecord → DeviceRecord}
    (hf : ∀ dev, (f dev).record = g dev.record) :
    (self.modifyDevice d' f).record d =
      if d' = d then (self.record d).map g else self.record d := by
  by_cases hd : d' = d
  · have hcomp : SoscDeviceSubprocess.record ∘ f = g ∘ SoscDeviceSubprocess.record :=
      funext hf
    simp [SoscSupervisor.record, SoscSupervisor.modifyDevice, hd, hcomp]
  · simp [SoscSupervisor.record, SoscSupervisor.modifyDevice, hd]

theorem record_modifyDevice_of_eq (self : SoscSupervisor) (d d' : ℕ)
    {f : SoscDeviceSubprocess → SoscDeviceSubprocess}
    (hf : ∀ dev, (f dev).record = dev.record) :
    (self.modifyDevice d' f).record d = self.record d := by
  have hid (dev : SoscDeviceSubprocess) : (f dev).record = id dev.record := hf dev
  rw [record_modifyDevice self d d' hid, Option.map_id, id, ite_self]

@[simp] theorem record_modifySubprocess (who : ProcessId)
    (f : SoscSubprocess → SoscSubprocess) :
    (self.modifySubprocess who f).record d = self.record d := by
  cases who with
  | detector => rfl
  | device d' => exact record_modifyDevice_of_eq self d d' fun _ => rfl

@[simp] theorem record_uvClose (h : HandleId) :
    (self.uvClose h).record d = self.record d :=
  record_modifySubprocess h.who _

@[simp] theorem record_oscNotify (d' : ℕ) (dev : SoscDeviceSubprocess) (type : SoscIpcType) :
    (oscNotify env self d' dev type).record d = self.record d := by
  cases hpath : notifyPath type with
  | none => simp only [oscNotify, hpath]
  | some path =>
    obtain ⟨sends, heq, -, -⟩ := oscNotify_spec env self d' dev hpath
    rw [heq]
    rfl

theorem record_osc (req : OscRequest) :
    (oscPollCb env self req).record d = self.record d := by
  cases req with
  | list host port =>
    rw [oscPollCb, oscListDevices_spec]
    split <;> rfl
  | notify host port => rfl
  | enable =>
    have hspec := supervisorChangeState_spec env self .enabled
    simp only [oscPollCb, supervisorEnable]
    generalize supervisorChangeState env self .enabled = r at hspec
    cases hspec <;> rfl
  | disable =>
    have hspec := supervisorChangeState_spec env self .disabled
    simp only [oscPollCb, supervisorDisable]
    generalize supervisorChangeState env self .disabled = r at hspec
    cases hspec <;> rfl
  | status host port =>
    cases halloc : env.loAddressNew self.calls <;>
      simp only [oscPollCb, oscReportStatus, loAddressNew, halloc] <;> rfl
  | version host port =>
    cases halloc : env.loAddressNew self.calls <;>
      simp only [oscPollCb, oscReportVersion, loAddressNew, halloc] <;> rfl

theorem record_append (dev : SoscDeviceSubprocess) :
    ({ self with devices := self.devices ++ [dev] } : SoscSupervisor).record d =
      if d = self.devices.length then some dev.record else self.record d := by
  rcases Nat.lt_trichotomy d self.devices.length with hlt | rfl | hgt
  · have hne : d ≠ self.devices.length := Nat.ne_of_lt hlt
    simp [SoscSupervisor.record, List.getElem?_append_left hlt, hne]
  · simp [SoscSupervisor.record]
  · have hne : d ≠ self.devices.length := Nat.ne_of_gt hgt
    rw [if_neg hne, record_eq_none_iff.mpr (Nat.le_of_lt hgt), record_eq_none_iff,
      List.length_append]
    exact hgt

theorem record_detectorRead (msg : IpcMsg) :
    (handleDetectorMsg env self msg).record d =
      nextRecord env self d (.detectorRead msg) := by
  cases msg with
  | deviceConnection devnode =>
    have hspec := handleConnection_spec env self devnode
    simp only [handleDetectorMsg, nextRecord]
    generalize handleConnection env self devnode = r at hspec
    have happend (dev : SoscDeviceSubprocess) :
        ({ self.tick.tick.emit (deviceSpawn env self devnode) with
           devices := self.devices ++ [dev] } : SoscSupervisor).record d =
          if d = self.devices.length then some dev.record else self.record d :=
      record_append dev
    cases hspec with
    | noMemory hcalloc =>
      rw [hcalloc, if_neg fun h => Bool.noConfusion h.1]
      rfl
    | launchFailed hcalloc herr =>
      simpa [hcalloc, herr, SoscDeviceSubprocess.record] using
        happend { subprocess := ({} : SoscSubprocess).launchFailed env, freed := true }
    | launched hcalloc herr =>
      simpa [hcalloc, herr, SoscDeviceSubprocess.record] using
        happend { subprocess := ({} : SoscSubprocess).launched .deviceType }
  | _ => rfl

theorem record_deviceRead (d' : ℕ) (msg : IpcMsg) :
    (handleDeviceMsg env self d' msg).record d =
      nextRecord env self d (.deviceRead d' msg) := by
  have hkept : (if d' = d then (self.record d).map id else self.record d) =
      self.record d := by
    rw [Option.map_id, id, ite_self]
  cases msg with
  | deviceReady =>
    have hready : (self.modifyDevice d' fun dev => { dev with ready := true }).record d =
        nextRecord env self d (.deviceRead d' .deviceReady) :=
      record_modifyDevice self d d' fun _ => rfl
    rw [← hready]
    simp only [handleDeviceMsg]
    split
    · rfl
    · rw [record_oscNotify]
  | oscPortChange port => exact record_modifyDevice self d d' fun _ => rfl
  | deviceInfo serial friendly => exact record_modifyDevice self d d' fun _ => rfl
  | deviceConnection devnode => exact hkept.symm
  | deviceDisconnection => exact hkept.symm
  | processShouldExit => exact hkept.symm

theorem record_exit (who : ProcessId) :
    (processExit env self who).record d = self.record d := by
  have hstopped : ((self.modifySubprocess who fun sub => sub.modify .proc Uv.Handle.stop).emit
      (.processExited who)).record d = self.record d :=
    record_modifySubprocess who _
  rw [← hstopped]
  cases who with
  | detector => simp [processExit, detectorExitCb]
  | device d' =>
    simp only [processExit]
    split
    · rfl
    · rw [deviceExitCb, record_uvClose, record_uvClose]
      split
      · rw [record_oscNotify]
      · rfl

theorem record_closed (id : HandleId) :
    (closeCompleted self id).record d = nextRecord env self d (.closed id) := by
  obtain ⟨who, member⟩ := id
  cases who with
  | detector => cases member <;> rfl
  | device d' =>
    have hgone (f : SoscSubprocess → SoscSubprocess) :
        (self.modifySubprocess (.device d') f).record d = self.record d :=
      record_modifySubprocess _ _
    cases member with
    | proc =>
      rw [nextRecord, ← hgone fun sub => sub.modify .proc Uv.Handle.finishClose]
      exact record_modifyDevice _ d d' fun _ => rfl
    | toProc => exact hgone _
    | fromProc => exact (record_uvClose _).trans (hgone _)

/-- How each event changes a device record. -/
theorem record_step {e : Event} (hstep : step env self e = some self') :
    self'.record d = nextRecord env self d e := by
  cases stepped_of_step hstep with
  | idle hphase =>
    split
    · rcases stateChangeCheckCb_cases self with heq | ⟨heq, -⟩
      · rw [heq]
        rfl
      · rw [heq]
        rfl
    · rfl
  | osc req hphase => exact record_osc req
  | detectorRead msg hphase hread => exact record_detectorRead msg
  | deviceRead d' msg hphase hread => exact record_deviceRead d' msg
  | exit who hphase halive => exact record_exit who
  | check hphase =>
    have hbegin (s : SoscSupervisor) : (beginClosing s).record d = s.record d := by
      have hcomp : (SoscDeviceSubprocess.record ∘ fun dev =>
          { dev with subprocess := dev.subprocess.map Uv.Handle.beginClosing }) =
          SoscDeviceSubprocess.record := rfl
      simp [SoscSupervisor.record, beginClosing, hcomp]
    rw [hbegin]
    split <;> rfl
  | closed id hphase hfinishing => exact record_closed id
  | endIteration hphase hdone => rfl

/-- A record changes with the launch, the messages and the end of its device. -/
theorem record_of_kept {e : Event} (hstep : step env self e = some self')
    (hlaunch : ¬ MayLaunch self (.device d) e) (hread : ∀ msg, e ≠ .deviceRead d msg)
    (hclosed : e ≠ .closed ⟨.device d, .proc⟩) : self'.record d = self.record d := by
  rw [record_step hstep]
  cases e with
  | deviceRead d' msg => exact if_neg fun hd => hread msg (by rw [hd])
  | closed id =>
    obtain ⟨who, member⟩ := id
    cases who with
    | detector => rfl
    | device d' =>
      cases member with
      | proc => exact if_neg fun hd => hclosed (by rw [hd])
      | toProc => rfl
      | fromProc => rfl
  | detectorRead msg =>
    cases msg with
    | deviceConnection devnode => exact if_neg fun hand => hlaunch hand.2
    | _ => rfl
  | _ => rfl

theorem ready_map_iff {f : DeviceRecord → DeviceRecord}
    (h : self'.record d = (self.record d).map f) (hf : ∀ r, (f r).ready = r.ready) :
    self'.Ready d ↔ self.Ready d := by
  rw [SoscSupervisor.Ready, SoscSupervisor.Ready, h]
  cases self.record d with
  | none => simp
  | some r => simp [hf]

theorem not_ready_of_none (h : self.record d = none) : ¬ self.Ready d := by
  rintro ⟨r, hr, -⟩
  cases h.symm.trans hr

/-- A device that may just be launched is not ready. -/
theorem not_ready_of_launch {e : Event} (hstep : step env self e = some self')
    (hlaunch : MayLaunch self (.device d) e) : ¬ self'.Ready d ∧ ¬ self.Ready d := by
  have hnext := record_step (d := d) hstep
  cases e with
  | detectorRead msg =>
    have hnone : self.record d = none := record_eq_none_iff.mpr (Nat.le_of_eq hlaunch.symm)
    refine ⟨?_, not_ready_of_none hnone⟩
    rintro ⟨r, hr, hready⟩
    rw [hr] at hnext
    cases msg with
    | deviceConnection devnode =>
      rw [nextRecord] at hnext
      split at hnext
      · obtain rfl := Option.some.inj hnext
        exact Bool.noConfusion hready
      · cases hnext.trans hnone
    | _ => cases hnext.trans hnone
  | _ => exact absurd hlaunch id

/-- A device becomes ready by its message, and stays so. -/
theorem ready_step {e : Event} (hstep : step env self e = some self') :
    self'.Ready d ↔
      self.Ready d ∨ e = .deviceRead d .deviceReady ∧ (self.record d).isSome := by
  have hother (hne : e ≠ .deviceRead d .deviceReady) (h : self'.Ready d ↔ self.Ready d) :
      self'.Ready d ↔
        self.Ready d ∨ e = .deviceRead d .deviceReady ∧ (self.record d).isSome := by
    rw [h]
    exact ⟨Or.inl, fun hor => hor.resolve_right fun hand => hne hand.1⟩
  by_cases hlaunch : MayLaunch self (.device d) e
  · obtain ⟨hnot', hnot⟩ := not_ready_of_launch hstep hlaunch
    refine hother ?_ (iff_of_false hnot' hnot)
    rintro rfl
    exact hlaunch
  by_cases hread : ∃ msg, e = .deviceRead d msg
  · obtain ⟨msg, rfl⟩ := hread
    have hnext : self'.record d = (self.record d).map fun r => r.receive msg :=
      (record_step hstep).trans (if_pos rfl)
    cases msg with
    | deviceReady =>
      rw [SoscSupervisor.Ready, SoscSupervisor.Ready, hnext]
      cases self.record d with
      | none => simp
      | some r => simp [DeviceRecord.receive]
    | _ => exact hother (fun heq => by cases heq) (ready_map_iff hnext fun _ => rfl)
  have hne (msg : IpcMsg) : e ≠ .deviceRead d msg := fun heq => hread ⟨msg, heq⟩
  refine hother (hne _) ?_
  by_cases hclosed : e = .closed ⟨.device d, .proc⟩
  · subst hclosed
    exact ready_map_iff ((record_step hstep).trans (if_pos rfl)) fun _ => rfl
  · rw [SoscSupervisor.Ready, SoscSupervisor.Ready, record_of_kept hstep hlaunch hne hclosed]

end

/-! ## Announced events -/

/-- The events that `osc_notify` has announced about device `d`. -/
def raised (d : ℕ) (log : List Effect) : List SoscIpcType :=
  log.filterMap fun
    | .oscNotify type d' _ => if d' = d then some type else none
    | _ => none

/-- What an event makes `osc_notify` announce about device `d`. -/
def raisedBy (self : SoscSupervisor) (d : ℕ) : Event → List SoscIpcType
  | .deviceRead d' .deviceReady =>
      if d' = d ∧ (self.record d).isSome then [.deviceConnection] else []
  | .exit (.device d') =>
      if d' = d ∧ (self.record d).any DeviceRecord.ready then [.deviceDisconnection] else []
  | _ => []

theorem raised_append (d : ℕ) (log effects : List Effect) :
    raised d (log ++ effects) = raised d log ++ raised d effects :=
  List.filterMap_append

section

variable {env : Env} {self self' : SoscSupervisor} {d : ℕ}

theorem raised_eq_nil {effects : List Effect}
    (h : ∀ type entry, .oscNotify type d entry ∉ effects) : raised d effects = [] := by
  refine List.filterMap_eq_nil_iff.mpr fun x hx => ?_
  cases x with
  | oscNotify type d' entry =>
    by_cases hd : d' = d
    · exact absurd (hd ▸ hx) (h type entry)
    · exact if_neg hd
  | _ => rfl

theorem Announcement.raised_eq {ns : List SoscNotificationEndpoint} {d' : ℕ}
    {type : SoscIpcType} {path : String} {entry : List OscArg} {effects : List Effect}
    (h : Announcement env ns d' type path entry effects) :
    raised d effects = if d' = d then [type] else [] := by
  obtain ⟨sends, rfl, hfrom, -⟩ := h
  have hsends : raised d sends = [] := by
    refine raised_eq_nil fun type' entry' hmem => ?_
    obtain ⟨n, -, heq⟩ := hfrom _ hmem
    cases heq
  by_cases hd : d' = d
  · rw [if_pos hd, ← List.singleton_append, raised_append, hsends]
    simp [raised, hd]
  · rw [if_neg hd, ← List.singleton_append, raised_append, hsends]
    simp [raised, hd]

theorem NewEffects.raised_eq {e : Event} {effects : List Effect}
    (h : NewEffects env self e effects) : raised d effects = raisedBy self d e := by
  have horigin {x : Effect} (hx : x ∈ effects) : Origin env self e x := h.origin hx
  have hnone (hne : raisedBy self d e = []) (hno : ∀ type entry,
      .oscNotify type d entry ∉ effects) : raised d effects = raisedBy self d e := by
    rw [hne, raised_eq_nil hno]
  cases h with
  | silent e hsilent =>
    refine hnone ?_ fun _ _ => List.not_mem_nil
    cases e with
    | deviceRead d' msg =>
      cases msg with
      | deviceReady =>
        refine if_neg fun h => ?_
        obtain ⟨rfl, hsome⟩ := h
        rw [SoscSupervisor.record, show self.devices[d']? = none from hsilent] at hsome
        exact Bool.noConfusion hsome
      | _ => rfl
    | exit who => exact absurd hsilent id
    | _ => rfl
  | added d' dev effects hdev hannounce =>
    rw [hannounce.raised_eq]
    by_cases hd : d' = d
    · subst hd
      simp [raisedBy, SoscSupervisor.record, hdev]
    · simp [raisedBy, hd]
  | exited who hquiet =>
    refine hnone ?_ fun type entry hmem => Effect.noConfusion (List.mem_singleton.mp hmem)
    cases who with
    | detector => rfl
    | device d' =>
      refine if_neg fun h => ?_
      obtain ⟨rfl, hready⟩ := h
      obtain ⟨r, hr, hready⟩ := (Option.any_eq_true _ _).mp hready
      obtain ⟨dev, hdev, rfl⟩ := Option.map_eq_some_iff.mp hr
      exact Bool.noConfusion ((hquiet d' dev rfl hdev).symm.trans hready)
  | removed d' dev effects hdev hready hannounce =>
    rw [← List.singleton_append, raised_append, hannounce.raised_eq]
    by_cases hd : d' = d
    · subst hd
      simp [raised, raisedBy, SoscSupervisor.record, hdev, SoscDeviceSubprocess.record,
        hready]
    · simp [raised, raisedBy, hd]
  | _ => exact hnone rfl fun type entry hmem => nomatch horigin hmem

/-- What each event makes `osc_notify` announce. -/
theorem raised_step {e : Event} (hstep : step env self e = some self') :
    raised d self'.log = raised d self.log ++ raisedBy self d e := by
  obtain ⟨effects, hlog, hnew⟩ := step_log hstep
  rw [hlog, raised_append, hnew.raised_eq]

/-! ## What is said about a device -/

/-- The device that an effect tells someone about, and the arguments. -/
def Effect.about : Effect → Option (ℕ × List OscArg)
  | .oscNotify _ d entry => some (d, entry)
  | .loSendFrom (some d) _ _ args => some (d, args)
  | _ => none

/-- Whatever is said about a device is said out of its record: to a list
request that finds it, when it becomes ready, or when it exits. -/
theorem NewEffects.about {e : Event} {effects : List Effect}
    (h : NewEffects env self e effects) {x : Effect} (hx : x ∈ effects)
    {entry : List OscArg} (habout : x.about = some (d, entry)) :
    ∃ r, self.record d = some r ∧ entry = r.entry ∧
      (Listed self d ∨ e = .deviceRead d .deviceReady ∨
        e = .exit (.device d) ∧ r.ready = true) := by
  have hnone (hno : x.about = none) : False := by
    cases hno.symm.trans habout
  have hannounced {d' : ℕ} {type : SoscIpcType} {path : String}
      {dev : SoscDeviceSubprocess} {ns : List SoscNotificationEndpoint} {sent : List Effect}
      (hannounce : Announcement env ns d' type path dev.entry sent) (hx : x ∈ sent) :
      d' = d ∧ entry = dev.record.entry := by
    rcases hannounce.mem_cases hx with rfl | ⟨n, -, rfl⟩
    · obtain ⟨rfl, rfl⟩ := Prod.mk.inj (Option.some.inj habout)
      exact ⟨rfl, rfl⟩
    · obtain ⟨rfl, rfl⟩ := Prod.mk.inj (Option.some.inj habout)
      exact ⟨rfl, rfl⟩
  have hrecord {d' : ℕ} {dev : SoscDeviceSubprocess} (hdev : self.devices[d']? = some dev) :
      self.record d' = some dev.record := by
    rw [SoscSupervisor.record, hdev, Option.map_some]
  cases h with
  | silent e hsilent => exact absurd hx List.not_mem_nil
  | replied req effects hquery hsends hlist =>
    cases x with
    | loSendFrom d' dst path args =>
      cases d' with
      | none => exact (hnone rfl).elim
      | some d' =>
        obtain ⟨rfl, rfl⟩ := Prod.mk.inj (Option.some.inj habout)
        obtain ⟨-, hlisted, dev, hdev, rfl⟩ := hlist _ hx d' dst path args rfl
        exact ⟨dev.record, hrecord hdev, rfl, Or.inl hlisted⟩
    | _ => exact (hsends _ hx).elim
  | disabling hstate hcheck =>
    rcases List.mem_cons.mp hx with rfl | hmem
    · exact (hnone rfl).elim
    · obtain ⟨id, -, hmem⟩ := List.mem_flatMap.mp hmem
      obtain ⟨d', rfl, -, -⟩ := mem_killWrites hmem
      exact (hnone rfl).elim
  | added d' dev effects hdev hannounce =>
    obtain ⟨rfl, hentry⟩ := hannounced hannounce hx
    exact ⟨dev.record, hrecord hdev, hentry, Or.inr (Or.inl rfl)⟩
  | removed d' dev effects hdev hready hannounce =>
    rcases List.mem_cons.mp hx with rfl | hmem
    · exact (hnone rfl).elim
    · obtain ⟨rfl, hentry⟩ := hannounced hannounce hmem
      exact ⟨dev.record, hrecord hdev, hentry, Or.inr (Or.inr ⟨rfl, hready⟩)⟩
  | _ =>
    obtain rfl := List.mem_singleton.mp hx
    exact (hnone rfl).elim

end

end Serialosc
