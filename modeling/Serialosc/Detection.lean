import Serialosc.Announcements
import Serialosc.Detector.Startup
import Serialosc.Ipc.EncodeBounds
import Serialosc.Supervisor.FailedLaunch

/-!
# From the ports to the device processes

The detector and the supervisor together.  The detector writes the names of the devices
that it finds into a pipe, and the supervisor starts a process for each name that it reads.
The detector runs while its handle is active; when the supervisor launches it again, it
starts from the beginning, with an empty pipe.

What is written is written as a whole, and without waiting for the reader.
-/

namespace Serialosc

open ByteMemory Runs

/-- The names that calls of `send_connect` write to a pipe that takes them whole, and
whether the process survives the calls.  A name that is too long is refused or overruns the
buffer it is encoded in, and `NULL` has no length. -/
def sendConnects : List (ℕ × Option CString) → List CString × Bool
  | [] => ([], true)
  | (_, none) :: _ => ([], false)
  | (_, some devnode) :: calls =>
      if ipcMsgFits (.deviceConnection devnode) then
        (devnode :: (sendConnects calls).1, (sendConnects calls).2)
      else if (IpcMsg.deviceConnection devnode).Overruns then ([], false)
      else sendConnects calls

/-- The detector, and the devices around it, before its first step. -/
def Detector.restarted (self : Detector) : Detector := { self with phase := .start, log := [] }

/-- The supervisor, the detector, and the names that the pipe between them holds. -/
structure Detection where
  supervisor : SoscSupervisor
  detector : Detector
  pipe : List CString

/-- A step of the supervisor, or of the detector and the devices around it. -/
inductive DetectionEvent
  | supervisor (e : Event)
  | detector (e : DetectorEvent)

namespace Detection

variable (env : Env) (udev : UdevEnv)

/-- A message is read from the detector when it is the next one. -/
def allows (s : Detection) : Event → Bool
  | .detectorRead (.deviceConnection devnode) => s.pipe.head? = some devnode
  | .detectorRead _ => false
  | _ => true

/-- What the pipe holds after an event of the supervisor that does not launch the detector. -/
def unread (s : Detection) : Event → List CString
  | .detectorRead _ => s.pipe.tail
  | _ => s.pipe

/-- A step of the supervisor. -/
def supervisorStep (s : Detection) (e : Event) : Option Detection :=
  if s.allows e then
    (Serialosc.step env s.supervisor e).map fun supervisor =>
      if launchedBy env s.supervisor .detector e = [] then
        { s with supervisor := supervisor, pipe := s.unread e }
      else { supervisor := supervisor, detector := s.detector.restarted, pipe := [] }
  else none

/-- A step of the detector, which runs while it is active and has survived, or of the
devices. -/
def detectorStep (s : Detection) (e : DetectorEvent) : Option Detection :=
  if e.isMain → s.supervisor.detector.proc.active ∧ (sendConnects s.detector.log).2 then
    ((Serialosc.detector udev).step s.detector e).map fun d =>
      { s with
        detector := d
        pipe := s.pipe ++
          (sendConnects d.log).1.drop (sendConnects s.detector.log).1.length }
  else none

/-- The next state, if the event can happen. -/
def step (s : Detection) : DetectionEvent → Option Detection
  | .supervisor e => supervisorStep env s e
  | .detector e => detectorStep udev s e

/-- The runs of the supervisor and its detector. -/
def system : EventSystem Detection DetectionEvent where
  init s := (Serialosc.supervisor env).init s.supervisor ∧
    (Serialosc.detector udev).init s.detector ∧ s.pipe = []
  step := step env udev

end Detection

/-! ## What the detector says -/

theorem sendConnects_append (calls more : List (ℕ × Option CString)) :
    sendConnects (calls ++ more) =
      if (sendConnects calls).2 then
        ((sendConnects calls).1 ++ (sendConnects more).1, (sendConnects more).2)
      else sendConnects calls := by
  induction calls with
  | nil => rfl
  | cons call calls ih =>
    obtain ⟨i, _ | devnode⟩ := call
    · rfl
    · rw [List.cons_append, sendConnects, sendConnects, ih]
      by_cases hfits : ipcMsgFits (.deviceConnection devnode) = true
      · rw [if_pos hfits, if_pos hfits]
        by_cases hsurvives : (sendConnects calls).2 = true
        · rw [if_pos hsurvives, if_pos hsurvives]
          rfl
        · rw [if_neg hsurvives, if_neg hsurvives]
      · rw [if_neg hfits, if_neg hfits]
        by_cases habort : (IpcMsg.deviceConnection devnode).Overruns
        · rw [if_pos habort, if_pos habort]
          exact (if_neg Bool.false_ne_true).symm
        · rw [if_neg habort, if_neg habort]

/-- What has been said is not taken back. -/
theorem sendConnects_isPrefix (calls more : List (ℕ × Option CString)) :
    (sendConnects calls).1 <+: (sendConnects (calls ++ more)).1 := by
  rw [sendConnects_append]
  split_ifs
  · exact List.prefix_append _ _
  · exact List.prefix_refl _

/-- A name is said in a call. -/
theorem mem_of_mem_sendConnects {calls : List (ℕ × Option CString)} {devnode : CString}
    (h : devnode ∈ (sendConnects calls).1) : ∃ i, (i, some devnode) ∈ calls := by
  induction calls with
  | nil => exact absurd h List.not_mem_nil
  | cons call calls ih =>
    obtain ⟨i, _ | devnode'⟩ := call
    · exact absurd h List.not_mem_nil
    · have hrest (hmem : devnode ∈ (sendConnects calls).1) :
          ∃ j, (j, some devnode) ∈ (i, some devnode') :: calls := by
        obtain ⟨j, hj⟩ := ih hmem
        exact ⟨j, List.mem_cons_of_mem _ hj⟩
      rw [sendConnects] at h
      split_ifs at h
      · rcases List.mem_cons.mp h with rfl | hmem
        · exact ⟨i, List.mem_cons_self⟩
        · exact hrest hmem
      · exact absurd h List.not_mem_nil
      · exact hrest h

namespace Detector

/-- The device with this number. -/
def IsDevice (s : Detector) (i : ℕ) (ud : UdevDevice) : Prop :=
  ∃ present, s.devices[i]? = some ⟨ud, present⟩

/-- The device with this number is a compatible tty with this name. -/
def IsFound (s : Detector) (i : ℕ) (devnode : Option CString) : Prop :=
  ∃ ud, s.IsDevice i ud ∧ ud.IsTty ∧ ud.isDeviceCompatible = true ∧ ud.devnode = devnode

/-- Only compatible ttys are reported. -/
structure Finds (s : Detector) : Prop where
  queue : ∀ queue, s.phase = .receiving queue → ∀ e ∈ queue, ∃ ud,
    s.IsDevice e.device ud ∧ ud.IsTty
  log : ∀ i devnode, (i, devnode) ∈ s.log → s.IsFound i devnode

variable {udev : UdevEnv} {s s' : Detector} {i : ℕ} {ud : UdevDevice} {devnode : Option CString}

theorem IsFound.congr (h : s.IsFound i devnode) (hdevices : s'.devices = s.devices) :
    s'.IsFound i devnode := by
  obtain ⟨ud, hud, hrest⟩ := h
  rw [IsDevice, ← hdevices] at hud
  exact ⟨ud, hud, hrest⟩

/-- The detector ends where the devices cannot be listed.  Everywhere else it does not
matter whether they can be. -/
theorem mainStep_cases (udev : UdevEnv) (s : Detector) :
    s.mainStep udev = { s with phase := .exited 1 } ∨ MainStepped udev s (s.mainStep udev) := by
  by_cases hudev : udev.enumerateNew = true
  · exact .inr (mainStepped hudev s)
  · obtain ⟨phase, devices, log⟩ := s
    by_cases hphase : phase = .start
    · subst hphase
      exact .inl (if_neg hudev)
    · have hsame : mainStep udev ⟨phase, devices, log⟩ =
          mainStep { udev with enumerateNew := true } ⟨phase, devices, log⟩ := by
        cases phase with
        | start => exact absurd rfl hphase
        | receiving queue => cases queue <;> rfl
        | _ => rfl
      have hmain : MainStepped { udev with enumerateNew := true } ⟨phase, devices, log⟩
          (mainStep { udev with enumerateNew := true } ⟨phase, devices, log⟩) := mainStepped rfl _
      rw [← hsame] at hmain
      refine .inr ?_
      generalize mainStep udev ⟨phase, devices, log⟩ = s' at hmain
      cases hmain with
      | scan hstart => exact absurd hstart hphase
      | receive e queue hreceiving => exact .receive e queue hreceiving
      | quiet phase' hstart hqueue hstart' hqueue' =>
        exact .quiet phase' hstart hqueue hstart' hqueue'

/-- A step adds calls to the log. -/
theorem log_step {e : DetectorEvent} (hstep : (detector udev).step s e = some s') :
    ∃ calls, s'.log = s.log ++ calls := by
  cases e with
  | plug ud =>
    obtain rfl := Option.some.inj hstep
    exact ⟨[], by rw [plug, log_deliver, List.append_nil]⟩
  | unplug j =>
    obtain ⟨slot, -, -, rfl⟩ := unplug_spec hstep
    exact ⟨[], by rw [log_deliver, List.append_nil]⟩
  | main =>
    obtain rfl := Option.some.inj hstep
    rcases mainStep_cases udev s with heq | hmain
    · exact ⟨[], by rw [heq, List.append_nil]⟩
    · generalize s.mainStep udev = s' at hmain
      cases hmain with
      | scan hphase => exact ⟨_, rfl⟩
      | receive e queue hphase => exact ⟨_, rfl⟩
      | quiet phase => exact ⟨[], (List.append_nil _).symm⟩

theorem devices_main (s : Detector) : (s.mainStep udev).devices = s.devices := by
  rcases mainStep_cases udev s with heq | hmain
  · rw [heq]
  · generalize s.mainStep udev = s' at hmain ⊢
    cases hmain <;> rfl

theorem isDevice_plug (hud : s.IsDevice i ud) (ud' : UdevDevice) :
    IsDevice { s with devices := s.devices ++ [⟨ud', true⟩] } i ud := by
  obtain ⟨present, hget⟩ := hud
  exact ⟨present, (List.getElem?_append_left (List.getElem?_eq_some_iff.mp hget).1).trans hget⟩

theorem isDevice_unplug {j : ℕ} {slot : DeviceSlot} (hslot : s.devices[j]? = some slot)
    (hud : s.IsDevice i ud) :
    IsDevice { s with devices := s.devices.set j { slot with present := false } } i ud := by
  obtain ⟨present, hget⟩ := hud
  by_cases hij : j = i
  · subst hij
    obtain rfl := Option.some.inj (hslot.symm.trans hget)
    exact ⟨false, List.getElem?_set_self (List.getElem?_eq_some_iff.mp hget).1⟩
  · exact ⟨present, (List.getElem?_set_ne hij).trans hget⟩

theorem isDevice_deliver {ud' : UdevDevice} {e : UdevEvent} :
    (s.deliver ud' e).IsDevice i ud ↔ s.IsDevice i ud := by
  rw [IsDevice, devices_deliver, IsDevice]

/-- A device keeps its number. -/
theorem IsDevice.step {e : DetectorEvent} (h : s.IsDevice i ud)
    (hstep : (detector udev).step s e = some s') : s'.IsDevice i ud := by
  cases e with
  | plug ud' =>
    obtain rfl := Option.some.inj hstep
    exact isDevice_deliver.mpr (isDevice_plug h ud')
  | unplug j =>
    obtain ⟨slot, hslot, -, rfl⟩ := unplug_spec hstep
    exact isDevice_deliver.mpr (isDevice_unplug hslot h)
  | main =>
    obtain rfl := Option.some.inj hstep
    rw [IsDevice, devices_main]
    exact h

theorem IsFound.step {e : DetectorEvent} (h : s.IsFound i devnode)
    (hstep : (detector udev).step s e = some s') : s'.IsFound i devnode := by
  obtain ⟨ud, hud, hrest⟩ := h
  exact ⟨ud, hud.step hstep, hrest⟩

/-- What is listed is a compatible tty. -/
theorem isFound_of_scan {calls : List ℕ} (hcalls : ∀ j ∈ calls, j ∈ s.presentTtys)
    (hmem : (i, devnode) ∈ calls.flatMap (scanEntries s.devices)) : s.IsFound i devnode := by
  obtain ⟨j, hj, hentry⟩ := List.mem_flatMap.mp hmem
  obtain ⟨-, hpresent⟩ := List.mem_filter.mp (hcalls j hj)
  rw [scanEntries] at hentry
  cases hslot : s.devices[j]? with
  | none =>
    rw [hslot] at hentry
    exact absurd hentry List.not_mem_nil
  | some slot =>
    rw [hslot] at hentry hpresent
    dsimp only at hentry
    split_ifs at hentry with hcond
    · obtain ⟨rfl, rfl⟩ := Prod.mk.inj (List.mem_singleton.mp hentry)
      have htty := of_decide_eq_true hpresent
      exact ⟨slot.ud, ⟨slot.present, hslot⟩, htty.2, hcond.1, rfl⟩
    · exact absurd hentry List.not_mem_nil

/-- What the monitor reports is a compatible tty. -/
theorem isFound_of_receive {e : UdevEvent} (he : ∃ ud, s.IsDevice e.device ud ∧ ud.IsTty)
    (hmem : (i, devnode) ∈ receiveEntries s.devices e) : s.IsFound i devnode := by
  obtain ⟨ud, ⟨present, hget⟩, htty⟩ := he
  rw [receiveEntries, hget] at hmem
  dsimp only at hmem
  split_ifs at hmem with hcond
  · obtain ⟨rfl, rfl⟩ := Prod.mk.inj (List.mem_singleton.mp hmem)
    exact ⟨ud, ⟨present, hget⟩, htty, hcond.2, rfl⟩
  · exact absurd hmem List.not_mem_nil

theorem deliver_of_not_isTty {e : UdevEvent} (h : ¬ ud.IsTty) : s.deliver ud e = s := by
  rw [Detector.deliver]
  split
  · exact if_neg h
  all_goals rfl

/-- The kernel reports on devices that there are, and on ttys alone. -/
theorem Finds.deliver {e : UdevEvent} (h : s.Finds) (he : s.IsDevice e.device ud) :
    (s.deliver ud e).Finds := by
  by_cases htty : ud.IsTty
  · refine ⟨fun queue hqueue f hf => ?_, fun i devnode hmem => ?_⟩
    · simp only [isDevice_deliver]
      rcases phase_deliver s ud e with hphase | ⟨queue', hphase, hphase'⟩
      · exact h.queue queue (hphase.symm.trans hqueue) f hf
      · obtain rfl := DetectorPhase.receiving.inj (hphase'.symm.trans hqueue)
        rcases List.mem_append.mp hf with hold | hnew
        · exact h.queue queue' hphase f hold
        · obtain rfl := List.mem_singleton.mp hnew
          exact ⟨ud, he, htty⟩
    · rw [log_deliver] at hmem
      exact (h.log i devnode hmem).congr (devices_deliver s ud e)
  · rw [deliver_of_not_isTty htty]
    exact h

/-- What is known is known of the same phase and calls as well. -/
theorem Finds.of_devices (h : s.Finds) (hphase : s'.phase = s.phase) (hlog : s'.log = s.log)
    (hdevices : ∀ i ud, s.IsDevice i ud → s'.IsDevice i ud) : s'.Finds := by
  refine ⟨fun queue hqueue f hf => ?_, fun i devnode hmem => ?_⟩
  · obtain ⟨ud, hud, htty⟩ := h.queue queue (hphase ▸ hqueue) f hf
    exact ⟨ud, hdevices _ _ hud, htty⟩
  · obtain ⟨ud, hud, hrest⟩ := h.log i devnode (hlog ▸ hmem)
    exact ⟨ud, hdevices _ _ hud, hrest⟩

theorem Finds.step {e : DetectorEvent} (h : s.Finds)
    (hstep : (detector udev).step s e = some s') : s'.Finds := by
  cases e with
  | plug ud =>
    obtain rfl := Option.some.inj hstep
    refine Finds.deliver (h.of_devices rfl rfl fun i ud' hud' => isDevice_plug hud' ud) ?_
    exact ⟨true, List.getElem?_concat_length⟩
  | unplug j =>
    obtain ⟨slot, hslot, -, rfl⟩ := unplug_spec hstep
    refine Finds.deliver (h.of_devices rfl rfl fun i ud' hud' => isDevice_unplug hslot hud') ?_
    exact isDevice_unplug hslot ⟨slot.present, hslot⟩
  | main =>
    obtain rfl := Option.some.inj hstep
    rcases mainStep_cases udev s with heq | hmain
    · rw [heq]
      exact ⟨fun queue hqueue => DetectorPhase.noConfusion hqueue, h.log⟩
    · generalize s.mainStep udev = s' at hmain
      cases hmain with
      | scan hphase =>
        refine ⟨fun queue hqueue => DetectorPhase.noConfusion hqueue, fun i devnode hmem => ?_⟩
        rcases List.mem_append.mp hmem with hold | hnew
        · exact h.log i devnode hold
        · exact isFound_of_scan (fun j hj => (udev.perm _).mem_iff.mp hj) hnew
      | receive e queue hphase =>
        refine ⟨fun queue' hqueue f hf => ?_, fun i devnode hmem => ?_⟩
        · obtain rfl := DetectorPhase.receiving.inj hqueue
          exact h.queue _ hphase f (List.mem_cons_of_mem _ hf)
        · rcases List.mem_append.mp hmem with hold | hnew
          · exact h.log i devnode hold
          · exact isFound_of_receive (h.queue _ hphase e List.mem_cons_self) hnew
      | quiet phase hstart hqueue hstart' hqueue' =>
        refine ⟨fun queue hreceiving f hf => ?_, h.log⟩
        cases queue with
        | nil => exact absurd hf List.not_mem_nil
        | cons e queue => exact absurd hreceiving (hqueue' e queue)

end Detector

/-! ## What the supervisor starts -/

/-- The names of the devices that have been started since the detector was, with one more
effect.  A call of `uv_spawn` that fails starts nothing. -/
def startedStep (names : List CString) : Effect → List CString
  | .uvSpawn .detector _ _ _ => []
  | .uvSpawn (.device _) _ args err => if err = 0 then names ++ args.getLast?.toList else names
  | _ => names

/-- The names of the devices that have been started since the detector was. -/
def devicesStarted (log : List Effect) : List CString := log.foldl startedStep []

/-- The name of the device that is started in an event. -/
def startedBy (env : Env) (self : SoscSupervisor) : Event → List CString
  | .detectorRead (.deviceConnection devnode) =>
      if env.calloc self.calls ∧ env.uvSpawn (self.calls + 1) = 0 then [devnode] else []
  | _ => []

/-- There is memory for every device, and every process can be started. -/
structure Env.Starts (env : Env) : Prop where
  calloc : ∀ k, env.calloc k = true
  uvSpawn : ∀ k, env.uvSpawn k = 0

section

variable {env : Env} {self self' : SoscSupervisor} {e : Event}

theorem getLast?_deviceArgs (self : SoscSupervisor) (devnode : CString) :
    (deviceArgs self devnode).getLast? = some devnode := by
  rw [deviceArgs]
  cases self.configDir <;> rfl

theorem foldl_startedStep {effects : List Effect} (names : List CString)
    (hquiet : ∀ who file args err, .uvSpawn who file args err ∉ effects) :
    effects.foldl startedStep names = names := by
  induction effects with
  | nil => rfl
  | cons x effects ih =>
    have hx : startedStep names x = names := by
      cases x with
      | uvSpawn who file args err => exact absurd List.mem_cons_self (hquiet who file args err)
      | _ => rfl
    rw [List.foldl_cons, hx]
    exact ih fun who file args err hmem => hquiet who file args err (List.mem_cons_of_mem _ hmem)

/-- What a launch of the detector and the start of a device change. -/
theorem devicesStarted_step (hstep : step env self e = some self') :
    devicesStarted self'.log =
      if launchedBy env self .detector e = [] then
        devicesStarted self.log ++ startedBy env self e
      else [] := by
  obtain ⟨effects, hlog, hnew⟩ := step_log hstep
  rw [hlog, devicesStarted, List.foldl_append, ← devicesStarted]
  by_cases hspawns : ∀ who file args err, .uvSpawn who file args err ∉ effects
  · have hlaunched : launchedBy env self .detector e = [] := by
      rw [← hnew.launches_eq]
      exact launches_eq_nil fun file args err => hspawns _ file args err
    have hstarted : startedBy env self e = [] := by
      cases hnew with
      | silent e hsilent =>
        cases e with
        | detectorRead msg =>
          cases msg with
          | deviceConnection devnode =>
            have hcalloc : env.calloc self.calls = false := hsilent
            rw [startedBy, if_neg fun h => ne_true_of_eq_false hcalloc h.1]
          | _ => rfl
        | _ => rfl
      | deviceSpawn devnode => exact absurd List.mem_cons_self (hspawns _ _ _ _)
      | _ => rfl
    rw [foldl_startedStep _ hspawns, if_pos hlaunched, hstarted, List.append_nil]
  · simp only [not_forall, not_not] at hspawns
    obtain ⟨who, file, args, err, hmem⟩ := hspawns
    cases hnew.origin hmem with
    | detectorSpawn hstate hcheck =>
      have hlaunched : launchedBy env self .detector (.osc .enable) = [env.uvSpawn self.calls] :=
        if_pos ⟨rfl, hstate, hcheck⟩
      rw [if_neg (by rw [hlaunched]; exact List.cons_ne_nil _ _)]
      cases hnew with
      | silent e => exact absurd hmem List.not_mem_nil
      | replied req effects hquery => exact absurd hquery id
      | detectorSpawn => rfl
    | deviceSpawn devnode hcalloc =>
      have hlaunched : launchedBy env self .detector (.detectorRead (.deviceConnection devnode)) =
          [] := by
        rw [launchedBy]
        exact if_neg fun h => ProcessId.noConfusion h.1
      rw [if_pos hlaunched]
      simp only [startedBy, hcalloc, true_and]
      cases hnew with
      | silent e => exact absurd hmem List.not_mem_nil
      | deviceSpawn =>
        rw [List.foldl_cons, List.foldl_nil, Serialosc.deviceSpawn, startedStep,
          getLast?_deviceArgs, Option.toList_some]
        split_ifs
        · rfl
        · rw [List.append_nil]

/-- Who starts a device has read its name. -/
theorem mem_log_step {d : ℕ} {file : CString} {args : List CString} {err : ℤ}
    (hstep : step env self e = some self')
    (hmem : .uvSpawn (.device d) file args err ∈ self'.log) :
    .uvSpawn (.device d) file args err ∈ self.log ∨
      ∃ devnode, e = .detectorRead (.deviceConnection devnode) ∧
        args = deviceArgs self devnode := by
  obtain ⟨effects, hlog, hnew⟩ := step_log hstep
  rw [hlog] at hmem
  rcases List.mem_append.mp hmem with hold | hin
  · exact .inl hold
  · cases hnew.origin hin with
    | deviceSpawn devnode hcalloc => exact .inr ⟨devnode, rfl, rfl⟩

end

namespace Detection

variable {env : Env} {udev : UdevEnv} {s s' : Detection}

/-! ## In order -/

theorem step_supervisor {e : Event} (h : supervisorStep env s e = some s') :
    s.allows e = true ∧ Serialosc.step env s.supervisor e = some s'.supervisor ∧
      (launchedBy env s.supervisor .detector e = [] ∧ s'.detector = s.detector ∧
          s'.pipe = s.unread e ∨
        launchedBy env s.supervisor .detector e ≠ [] ∧ s'.detector = s.detector.restarted ∧
          s'.pipe = []) := by
  obtain ⟨hallows, h⟩ := Option.ite_none_right_eq_some.mp h
  obtain ⟨supervisor, hstep, heq⟩ := Option.map_eq_some_iff.mp h
  split_ifs at heq with hlaunched
  · subst heq
    exact ⟨hallows, hstep, .inl ⟨hlaunched, rfl, rfl⟩⟩
  · subst heq
    exact ⟨hallows, hstep, .inr ⟨hlaunched, rfl, rfl⟩⟩

theorem step_detector {e : DetectorEvent} (h : detectorStep udev s e = some s') :
    (e.isMain → s.supervisor.detector.proc.active = true ∧
        (sendConnects s.detector.log).2 = true) ∧
      (Serialosc.detector udev).step s.detector e = some s'.detector ∧
      s'.supervisor = s.supervisor ∧
      s'.pipe = s.pipe ++
        (sendConnects s'.detector.log).1.drop (sendConnects s.detector.log).1.length := by
  obtain ⟨hruns, h⟩ := Option.ite_none_right_eq_some.mp h
  obtain ⟨d, hstep, rfl⟩ := Option.map_eq_some_iff.mp h
  exact ⟨hruns, hstep, rfl, rfl⟩

/-- What the supervisor has read and what is in the pipe is what the detector has written. -/
def Reads (env : Env) (s : Detection) : Prop :=
  ∃ read, read ++ s.pipe = (sendConnects s.detector.log).1 ∧
    (devicesStarted s.supervisor.log).Sublist read ∧
    (env.Starts → devicesStarted s.supervisor.log = read)

theorem Reads.detector_step {e : DetectorEvent} (h : s.Reads env)
    (hstep : detectorStep udev s e = some s') : s'.Reads env := by
  obtain ⟨-, hd, hsupervisor, hpipe⟩ := step_detector hstep
  obtain ⟨read, hread, hsub, hall⟩ := h
  obtain ⟨calls, hlog⟩ := Detector.log_step hd
  obtain ⟨more, hmore⟩ := sendConnects_isPrefix s.detector.log calls
  rw [← hlog] at hmore
  refine ⟨read, ?_, ?_, ?_⟩
  · rw [hpipe, ← List.append_assoc, hread, ← hmore, List.drop_left]
  · rw [hsupervisor]
    exact hsub
  · rw [hsupervisor]
    exact hall

theorem Reads.supervisor_step {e : Event} (h : s.Reads env)
    (hstep : supervisorStep env s e = some s') : s'.Reads env := by
  obtain ⟨hallows, hs, hrest⟩ := step_supervisor hstep
  have hstarted := devicesStarted_step hs
  rcases hrest with ⟨hlaunched, hdetector, hpipe⟩ | ⟨hlaunched, hdetector, hpipe⟩
  · rw [if_pos hlaunched] at hstarted
    obtain ⟨read, hread, hsub, hall⟩ := h
    by_cases hreads : ∃ devnode, e = .detectorRead (.deviceConnection devnode)
    · obtain ⟨devnode, rfl⟩ := hreads
      obtain ⟨rest, hrest⟩ := List.head?_eq_some_iff.mp (of_decide_eq_true hallows)
      refine ⟨read ++ [devnode], ?_, ?_, fun hstarts => ?_⟩
      · rw [hpipe, unread, hrest, List.tail_cons, hdetector, List.append_assoc,
          List.singleton_append, ← hrest, hread]
      · rw [hstarted, startedBy]
        split_ifs
        · exact hsub.append (List.Sublist.refl _)
        · rw [List.append_nil]
          exact hsub.trans (List.sublist_append_left _ _)
      · rw [hstarted, startedBy, if_pos ⟨hstarts.calloc _, hstarts.uvSpawn _⟩, hall hstarts]
    · have hkept : s.unread e = s.pipe ∧ startedBy env s.supervisor e = [] := by
        cases e with
        | detectorRead msg =>
          cases msg with
          | deviceConnection devnode => exact absurd ⟨devnode, rfl⟩ hreads
          | _ => cases hallows
        | _ => exact ⟨rfl, rfl⟩
      rw [hkept.2, List.append_nil] at hstarted
      refine ⟨read, ?_, ?_, ?_⟩
      · rw [hpipe, hkept.1, hdetector, hread]
      · rw [hstarted]
        exact hsub
      · rw [hstarted]
        exact hall
  · rw [if_neg hlaunched] at hstarted
    refine ⟨[], ?_, ?_, fun _ => hstarted⟩
    · rw [hpipe, hdetector]
      rfl
    · rw [hstarted]

/-- Devices have been started for compatible ttys alone. -/
structure Starts (s : Detection) : Prop where
  finds : s.detector.Finds
  pipe : ∀ devnode ∈ s.pipe, ∃ i, s.detector.IsFound i (some devnode)
  started : ∀ d file args err, .uvSpawn (.device d) file args err ∈ s.supervisor.log →
    ∃ i devnode, s.detector.IsFound i (some devnode) ∧ args.getLast? = some devnode

theorem Starts.detector_step {e : DetectorEvent} (h : s.Starts)
    (hstep : detectorStep udev s e = some s') : s'.Starts := by
  obtain ⟨-, hd, hsupervisor, hpipe⟩ := step_detector hstep
  have hfinds := h.finds.step hd
  refine ⟨hfinds, fun devnode hmem => ?_, fun d file args err hmem => ?_⟩
  · rw [hpipe] at hmem
    rcases List.mem_append.mp hmem with hold | hnew
    · obtain ⟨i, hi⟩ := h.pipe devnode hold
      exact ⟨i, hi.step hd⟩
    · obtain ⟨i, hi⟩ := mem_of_mem_sendConnects (List.mem_of_mem_drop hnew)
      exact ⟨i, hfinds.log i _ hi⟩
  · rw [hsupervisor] at hmem
    obtain ⟨i, devnode, hi, hargs⟩ := h.started d file args err hmem
    exact ⟨i, devnode, hi.step hd, hargs⟩

theorem Starts.supervisor_step {e : Event} (h : s.Starts)
    (hstep : supervisorStep env s e = some s') : s'.Starts := by
  obtain ⟨hallows, hs, hrest⟩ := step_supervisor hstep
  have hfound {i : ℕ} {devnode : Option CString} (hi : s.detector.IsFound i devnode) :
      s'.detector.IsFound i devnode := by
    refine hi.congr ?_
    rcases hrest with ⟨-, hdetector, -⟩ | ⟨-, hdetector, -⟩
    · rw [hdetector]
    · rw [hdetector]
      rfl
  refine ⟨?_, fun devnode hmem => ?_, fun d file args err hmem => ?_⟩
  · rcases hrest with ⟨-, hdetector, -⟩ | ⟨-, hdetector, -⟩
    · rw [hdetector]
      exact h.finds
    · rw [hdetector]
      refine ⟨fun queue hqueue => DetectorPhase.noConfusion hqueue, fun i devnode hmem => ?_⟩
      exact absurd hmem List.not_mem_nil
  · have hold : devnode ∈ s.pipe := by
      rcases hrest with ⟨-, -, hpipe⟩ | ⟨-, -, hpipe⟩
      · rw [hpipe] at hmem
        cases e with
        | detectorRead msg => exact List.mem_of_mem_tail hmem
        | _ => exact hmem
      · rw [hpipe] at hmem
        exact absurd hmem List.not_mem_nil
    obtain ⟨i, hi⟩ := h.pipe devnode hold
    exact ⟨i, hfound hi⟩
  · rcases mem_log_step hs hmem with hold | ⟨devnode, rfl, rfl⟩
    · obtain ⟨i, devnode, hi, hargs⟩ := h.started d file args err hold
      exact ⟨i, devnode, hfound hi, hargs⟩
    · obtain ⟨rest, hrest⟩ := List.head?_eq_some_iff.mp (of_decide_eq_true hallows)
      obtain ⟨i, hi⟩ := h.pipe devnode (hrest ▸ List.mem_cons_self)
      exact ⟨i, devnode, hfound hi, getLast?_deviceArgs _ _⟩

theorem started_invariant (env : Env) (udev : UdevEnv) :
    (system env udev).Invariant fun s => s.Reads env ∧ s.Starts where
  init s hs := by
    obtain ⟨hsupervisor, ⟨hphase, hlog⟩, hpipe⟩ := hs
    obtain ⟨exeDir, configDir, -, heq⟩ := supervisor_init_iff.mp hsupervisor
    refine ⟨⟨[], ?_, ?_, fun _ => ?_⟩, ⟨?_, ?_⟩, ?_, ?_⟩
    · rw [hpipe, hlog]
      rfl
    · rw [heq]
      exact List.Sublist.refl _
    · rw [heq]
      rfl
    · intro queue hqueue
      exact DetectorPhase.noConfusion (hphase.symm.trans hqueue)
    · intro i devnode hmem
      rw [hlog] at hmem
      exact absurd hmem List.not_mem_nil
    · intro devnode hmem
      rw [hpipe] at hmem
      exact absurd hmem List.not_mem_nil
    · intro d file args err hmem
      rw [heq] at hmem
      obtain ⟨⟩ | ⟨_, ⟨⟩⟩ := hmem
  step s e s' hs he := by
    cases e with
    | supervisor e => exact ⟨hs.1.supervisor_step he, hs.2.supervisor_step he⟩
    | detector e => exact ⟨hs.1.detector_step he, hs.2.detector_step he⟩

/-- However the detector, the supervisor and the devices take their turns: the devices that
have been started since the detector was are among those that it has named, in its order, and
the ones that are missing are still in the pipe, if all of them could be started.  And
no device has ever been started that is not a compatible tty. -/
theorem started_inOrder (env : Env) (udev : UdevEnv) (hs : (system env udev).Reachable s) :
    (∃ read, read ++ s.pipe = (sendConnects s.detector.log).1 ∧
      (devicesStarted s.supervisor.log).Sublist read ∧
      (env.Starts → devicesStarted s.supervisor.log = read)) ∧
    ∀ d file args err, .uvSpawn (.device d) file args err ∈ s.supervisor.log →
      ∃ (slot : DeviceSlot) (devnode : CString), slot ∈ s.detector.devices ∧ slot.ud.IsTty ∧
        slot.ud.isDeviceCompatible = true ∧ slot.ud.devnode = some devnode ∧
        args.getLast? = some devnode := by
  obtain ⟨hreads, hstarts⟩ := (started_invariant env udev).reachable hs
  refine ⟨hreads, fun d file args err hmem => ?_⟩
  obtain ⟨i, devnode, ⟨ud, ⟨present, hget⟩, htty, hcompatible, hnode⟩, hargs⟩ :=
    hstarts.started d file args err hmem
  exact ⟨⟨ud, present⟩, devnode, List.mem_of_getElem? hget, htty, hcompatible, hnode, hargs⟩

/-- A converter is plugged in before the supervisor is started. -/
def sampleDetection : Detection where
  supervisor := reliableStart
  detector := Detector.started [Detector.sampleTty]
  pipe := []

/-- The converter is found, and its process is started. -/
def sampleDetectionEvents : List DetectionEvent :=
  [.detector .main, .supervisor .idle,
    .supervisor (.detectorRead (.deviceConnection (.ofString "/dev/ttyUSB0")))]

theorem init_sampleDetection :
    (system Env.reliable Detector.reliableUdev).init sampleDetection :=
  ⟨init_reliableStart, ⟨rfl, rfl⟩, rfl⟩

theorem started_inOrder_sampleDetection :
    ∃ s, (system Env.reliable Detector.reliableUdev).exec sampleDetection sampleDetectionEvents =
        some s ∧
      (∃ read, read ++ s.pipe = (sendConnects s.detector.log).1 ∧
        (devicesStarted s.supervisor.log).Sublist read ∧
        (Env.reliable.Starts → devicesStarted s.supervisor.log = read)) ∧
      devicesStarted s.supervisor.log = [.ofString "/dev/ttyUSB0"] :=
  ⟨_, rfl, (started_inOrder Env.reliable Detector.reliableUdev
    ⟨sampleDetection, sampleDetectionEvents, init_sampleDetection, rfl⟩).1, rfl⟩

end Detection

end Serialosc
