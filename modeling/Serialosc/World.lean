import Serialosc.Discovery
import Serialosc.Readiness

/-!
# From the ports to the applications

The three programs together: the detector names the devices, the supervisor starts a process
for each name, and the processes say what the supervisor announces.  `World` has `Detection`
and `Network` as its parts, which share the supervisor, and what is known of these is brought
together here: only what is plugged in is announced, and what is plugged in is announced.
-/

namespace Serialosc

open ByteMemory Runs

/-- The supervisor, its device processes, its detector, and the pipes from all of them. -/
structure World where
  network : Network
  detector : Detector
  pipe : List CString

/-- A step of one of the programs, or of the devices. -/
inductive WorldEvent
  | supervisor (e : Event) (raws : ℕ → SoscIpcMsg)
  | detector (e : DetectorEvent)
  | device (d : ℕ) (e : DeviceProcess.ProcessEvent)

namespace World

/-- The supervisor and its detector. -/
def detection (w : World) : Detection := ⟨w.network.supervisor, w.detector, w.pipe⟩

variable (env : Env) (udev : UdevEnv) (devices : ℕ → ProcessEnv)

/-- The next state, if the event can happen.  The supervisor takes a step with the detector and
with the processes at the same time. -/
def step (w : World) : WorldEvent → Option World
  | .supervisor e raws =>
      (Detection.supervisorStep env w.detection e).bind fun s =>
        (Network.supervisorStep env w.network e raws).map fun n => ⟨n, s.detector, s.pipe⟩
  | .detector e =>
      (Detection.detectorStep udev w.detection e).map fun s =>
        { w with detector := s.detector, pipe := s.pipe }
  | .device d e =>
      (Network.step env devices w.network (.device d e)).map fun n => { w with network := n }

/-- The runs of the three programs. -/
def system : EventSystem World WorldEvent where
  init w := (Network.system env devices).init w.network ∧
    (Detection.system env udev).init w.detection
  step := step env udev devices

/-! ## The two parts -/

/-- What the network sees of an event. -/
def networkEvent : WorldEvent → Option NetworkEvent
  | .supervisor e raws => some (.supervisor e raws)
  | .detector _ => none
  | .device d e => some (.device d e)

/-- What the supervisor and the detector see of an event. -/
def detectionEvent : WorldEvent → Option DetectionEvent
  | .supervisor e _ => some (.supervisor e)
  | .detector e => some (.detector e)
  | .device _ _ => none

theorem network_projection :
    EventSystem.Projection (system env udev devices) (Network.system env devices) World.network
      networkEvent where
  init _ hw := hw.1
  step w e w' hstep := by
    cases e with
    | supervisor e raws =>
      obtain ⟨s, -, hstep⟩ := Option.bind_eq_some_iff.mp hstep
      obtain ⟨n, hn, rfl⟩ := Option.map_eq_some_iff.mp hstep
      exact (EventSystem.exec_cons_some _).mpr ⟨n, hn, rfl⟩
    | detector e =>
      obtain ⟨s, -, rfl⟩ := Option.map_eq_some_iff.mp hstep
      rfl
    | device d e =>
      obtain ⟨n, hn, rfl⟩ := Option.map_eq_some_iff.mp hstep
      exact (EventSystem.exec_cons_some _).mpr ⟨n, hn, rfl⟩

theorem detection_projection :
    EventSystem.Projection (system env udev devices) (Detection.system env udev) detection
      detectionEvent where
  init _ hw := hw.2
  step w e w' hstep := by
    cases e with
    | supervisor e raws =>
      obtain ⟨s, hs, hstep⟩ := Option.bind_eq_some_iff.mp hstep
      obtain ⟨n, hn, rfl⟩ := Option.map_eq_some_iff.mp hstep
      -- both have taken the same step of the supervisor
      obtain ⟨-, hsupervisor, -⟩ := Detection.step_supervisor hs
      obtain ⟨-, hsupervisor', -⟩ := Network.step_supervisor hn
      have hsame : s.supervisor = n.supervisor :=
        Option.some.inj (hsupervisor.symm.trans hsupervisor')
      refine (EventSystem.exec_cons_some _).mpr ⟨s, hs, ?_⟩
      rw [detection, ← hsame]
      rfl
    | detector e =>
      obtain ⟨s, hs, rfl⟩ := Option.map_eq_some_iff.mp hstep
      obtain ⟨-, -, hsupervisor, -⟩ := Detection.step_detector hs
      refine (EventSystem.exec_cons_some _).mpr ⟨s, hs, ?_⟩
      have hkept : s.supervisor = w.network.supervisor := hsupervisor
      rw [detection, ← hkept]
      rfl
    | device d e =>
      obtain ⟨n, hn, rfl⟩ := Option.map_eq_some_iff.mp hstep
      obtain ⟨-, -, p, -, hsupervisor, -, -⟩ := Network.step_device hn
      rw [detection, detection, ← hsupervisor]
      rfl

end World

/-! ## Only what is plugged in is announced -/

namespace Network

/-- Only what has been started has written something. -/
theorem spawned_invariant (env : Env) (devices : ℕ → ProcessEnv) :
    (system env devices).Invariant fun n => Known n.supervisor ∧
      ∀ d, DeviceProcess.written (n.process d).log ≠ [] →
        ∃ file args, .uvSpawn (.device d) file args 0 ∈ n.supervisor.log := by
  refine (supervisor_invariant (known_invariant env)).and_of (fun n hn d hwritten => ?_)
    (fun n e n' hknown hspawned hstep d hwritten => ?_)
  · rw [(hn.2.1 d).1.log] at hwritten
    exact absurd rfl hwritten
  · cases e with
    | supervisor e raws =>
      obtain ⟨-, hs, hprocess, -⟩ := step_supervisor hstep
      rw [hprocess d] at hwritten
      obtain ⟨effects, hlog, -⟩ := step_log hs
      obtain ⟨file, args, hmem⟩ := hspawned d hwritten
      rw [hlog]
      exact ⟨file, args, List.mem_append_left _ hmem⟩
    | device d' e =>
      obtain ⟨-, hactive, p, -, hsupervisor, hprocess, -⟩ := step_device hstep
      rw [hsupervisor]
      by_cases hd : d = d'
      · subst hd
        obtain ⟨before, file, args, after, hlog, -⟩ := (hknown.logTells (.device d)).mp hactive
        rw [hlog]
        exact ⟨file, args, List.mem_append_right _ List.mem_cons_self⟩
      · rw [hprocess, Function.update_of_ne hd] at hwritten
        exact hspawned d hwritten

end Network

theorem mem_raised {d : ℕ} {type : SoscIpcType} {log : List Effect} :
    type ∈ raised d log ↔ ∃ entry, .oscNotify type d entry ∈ log := by
  rw [raised, List.mem_filterMap]
  constructor
  · rintro ⟨x, hx, hsome⟩
    cases x with
    | oscNotify type' d' entry =>
      obtain ⟨rfl, heq⟩ := Option.ite_none_right_eq_some.mp hsome
      obtain rfl := Option.some.inj heq
      exact ⟨entry, hx⟩
    | _ => cases hsome
  · rintro ⟨entry, hmem⟩
    exact ⟨_, hmem, if_pos rfl⟩

namespace World

variable {env : Env} {udev : UdevEnv} {devices : ℕ → ProcessEnv} {w : World} {i d : ℕ}

/-- Whatever the three programs do, and in whatever order: whoever is told about a device is told
the names and the port that its process has sent.  This process has been started for a device
node, and said that it is ready; and the node belongs to a compatible tty that has been plugged
in. -/
theorem announced_found (env : Env) (udev : UdevEnv) (devices : ℕ → ProcessEnv)
    (hfits : ∀ d, (IpcMsg.deviceInfo (devices d).identity.serial
      (devices d).identity.friendly).wireSize ≤ soscIpcMsgBufferSize)
    (hw : (system env udev devices).Reachable w) {type : SoscIpcType} {entry : List OscArg}
    (htold : .oscNotify type d entry ∈ w.network.supervisor.log) :
    entry = (devices d).identity.entry ∧
      .deviceReady ∈ DeviceProcess.written (w.network.process d).log ∧
      ∃ file args devnode slot, .uvSpawn (.device d) file args 0 ∈ w.network.supervisor.log ∧
        args.getLast? = some devnode ∧ slot ∈ w.detector.devices ∧ slot.ud.IsTty ∧
        slot.ud.isDeviceCompatible = true ∧ slot.ud.devnode = some devnode := by
  have hnetwork := (network_projection env udev devices).reachable hw
  have hdetection := (detection_projection env udev devices).reachable hw
  obtain ⟨seen, hseen, hread⟩ := Network.told_of_reachable hfits hnetwork d
  have hready : .deviceReady ∈ DeviceProcess.written (w.network.process d).log := by
    have hraised : type ∈ raised d w.network.supervisor.log := mem_raised.mpr ⟨entry, htold⟩
    rw [hread.raised] at hraised
    rw [← hseen]
    refine List.mem_append_left _ ?_
    by_contra hnot
    rw [announcedSoFar, if_neg hnot] at hraised
    exact absurd hraised List.not_mem_nil
  refine ⟨hread.about _ htold entry rfl, hready, ?_⟩
  obtain ⟨-, hspawned⟩ := (Network.spawned_invariant env devices).reachable hnetwork
  obtain ⟨file, args, hspawn⟩ := hspawned d (List.ne_nil_of_mem hready)
  obtain ⟨-, hstarts⟩ := (Detection.started_invariant env udev).reachable hdetection
  obtain ⟨i, devnode, ⟨ud, ⟨present, hget⟩, htty, hcompatible, hnode⟩, hargs⟩ :=
    hstarts.started d file args 0 hspawn
  exact ⟨file, args, devnode, ⟨ud, present⟩, hspawn, hargs, List.mem_of_getElem? hget, htty,
    hcompatible, hnode⟩

/-- A converter is plugged in before the programs are started. -/
def sampleWorld : World where
  network := Network.sampleNetwork
  detector := Detector.started [Detector.sampleTty]
  pipe := []

theorem init_sampleWorld :
    (system Env.reliable Detector.reliableUdev fun _ => DeviceProcess.sampleEnv).init
      sampleWorld :=
  ⟨Network.init_sampleNetwork, Detection.init_sampleDetection⟩

/-- A step of the supervisor, whose messages are zeroed. -/
def sampleStep (e : Event) : WorldEvent := .supervisor e fun _ => connectionMsg

/-- The converter is found, and its process says that it is ready. -/
def sampleEvents : List WorldEvent :=
  [.detector .main, sampleStep .idle,
      sampleStep (.detectorRead (.deviceConnection (.ofString "/dev/ttyUSB0")))] ++
    List.replicate 11 (.device 0 (.run true)) ++
    [sampleStep (.deviceRead 0 (.deviceInfo sampleDevice.serial sampleDevice.friendly)),
      sampleStep (.deviceRead 0 (.oscPortChange sampleDevice.port)),
      sampleStep (.deviceRead 0 .deviceReady)]

theorem announced_found_sampleEvents :
    ∃ w, (system Env.reliable Detector.reliableUdev fun _ => DeviceProcess.sampleEnv).exec
        sampleWorld sampleEvents = some w ∧
      raised 0 w.network.supervisor.log = [.deviceConnection] ∧
      .deviceReady ∈ DeviceProcess.written (w.network.process 0).log := by
  obtain ⟨w, hrun, hraised⟩ : ∃ w, (system Env.reliable Detector.reliableUdev fun _ =>
      DeviceProcess.sampleEnv).exec sampleWorld sampleEvents = some w ∧
      raised 0 w.network.supervisor.log = [.deviceConnection] := ⟨_, rfl, rfl⟩
  have hmem : .deviceConnection ∈ raised 0 w.network.supervisor.log :=
    hraised ▸ List.mem_cons_self
  obtain ⟨entry, htold⟩ := mem_raised.mp hmem
  exact ⟨w, hrun, hraised, (announced_found Env.reliable Detector.reliableUdev
    (fun _ => DeviceProcess.sampleEnv) (fun _ => by decide)
    ⟨sampleWorld, sampleEvents, init_sampleWorld, hrun⟩ htold).2.1⟩

end World

/-! ## What is plugged in is announced -/

/-- Device `d` has been started for this name, as number `p` since the detector was. -/
def StartedAt (p d : ℕ) (devnode : CString) (log : List Effect) : Prop :=
  ∃ before file args after, log = before ++ .uvSpawn (.device d) file args 0 :: after ∧
    args.getLast? = some devnode ∧ (devicesStarted before).length = p ∧
    ∀ file args err, .uvSpawn .detector file args err ∉ after

/-- Every name has its start. -/
theorem exists_startedAt {p : ℕ} {devnode : CString} {log : List Effect}
    (h : (devicesStarted log)[p]? = some devnode) : ∃ d, StartedAt p d devnode log := by
  induction log using List.reverseRecOn with
  | nil => cases h
  | append_singleton log x ih =>
    rw [devicesStarted, List.foldl_append, ← devicesStarted, List.foldl_cons, List.foldl_nil] at h
    have hkeep (hx : ∀ file args err, x ≠ .uvSpawn .detector file args err)
        (hold : (devicesStarted log)[p]? = some devnode) :
        ∃ d, StartedAt p d devnode (log ++ [x]) := by
      obtain ⟨d, before, file, args, after, rfl, hargs, hlength, hafter⟩ := ih hold
      refine ⟨d, before, file, args, after ++ [x], ?_, hargs, hlength, ?_⟩
      · rw [List.append_assoc, List.cons_append]
      · intro file args err hmem
        rcases List.mem_append.mp hmem with hin | hin
        · exact hafter file args err hin
        · exact hx file args err (List.mem_singleton.mp hin).symm
    cases x with
    | uvSpawn who file args err =>
      cases who with
      | detector => cases h
      | device d =>
        rw [startedStep] at h
        split_ifs at h with hstarted
        · subst hstarted
          by_cases hlt : p < (devicesStarted log).length
          · rw [List.getElem?_append_left hlt] at h
            exact hkeep (fun _ _ _ heq => by cases heq) h
          · rw [List.getElem?_append_right (Nat.le_of_not_lt hlt)] at h
            have hlast : args.getLast? = some devnode :=
              Option.mem_toList.mp (List.mem_of_getElem? h)
            rw [hlast] at h
            have hp : p - (devicesStarted log).length < 1 := (List.getElem?_eq_some_iff.mp h).1
            refine ⟨d, log, file, args, [], rfl, hlast, ?_, fun _ _ _ => List.not_mem_nil⟩
            exact Nat.le_antisymm (Nat.le_of_not_lt hlt)
              (Nat.le_of_sub_eq_zero (Nat.lt_one_iff.mp hp))
        · exact hkeep (fun _ _ _ heq => by cases heq) h
    | _ => exact hkeep (fun _ _ _ heq => by cases heq) h

namespace World

/-- A step of the detector's own. -/
def isMain (e : WorldEvent) : Bool := (detectionEvent e).any Detection.isMain

/-- The supervisor reads a message of the detector. -/
def isRead (e : WorldEvent) : Bool := (detectionEvent e).any Detection.isRead

/-- The event leaves device `i` where it is and the detector alive, and brings no device with a
name that is too long. -/
def Spares (i : ℕ) (e : WorldEvent) : Prop := ∀ f, detectionEvent e = some f → Detection.Spares i f

/-- A statement of the process of device `d` is executed. -/
def runs (d : ℕ) (e : WorldEvent) : Bool := (networkEvent e).any (Network.runs d)

/-- The process of device `d` does not fail. -/
def Succeeds (d : ℕ) (e : WorldEvent) : Prop :=
  ∀ f, networkEvent e = some f → Network.Succeeds d f

/-- The supervisor reads a message of device `d`. -/
def readsFrom (d : ℕ) (e : WorldEvent) : Bool := (networkEvent e).any (Network.readsFrom d)

section

variable (env : Env) (udev : UdevEnv) (devices : ℕ → ProcessEnv)

/-- The applications are told about device `d` as soon as what its pipe holds has been read. -/
def Announceable (d : ℕ) (w : World) : Prop :=
  (system env udev devices).LeadsTo (readsFrom d) (fun _ => True)
    (fun v => .oscNotify .deviceConnection d (devices d).identity.entry ∈ v.network.supervisor.log)
    (w.network.fromProc d).length w

/-- The report of device `i` has become a process, and its device will be announced, as long as
it has not failed and does not fail. -/
def Announcing (i : ℕ) (devnode : CString) (w : World) : Prop :=
  ∃ p d, w.detector.log[p]? = some (i, some devnode) ∧
    StartedAt p d devnode w.network.supervisor.log ∧
    ∀ j, DeviceProcess.Readies j (w.network.process d) →
      (system env udev devices).LeadsTo (runs d) (Succeeds d) (Announceable env udev devices d) j w

end

variable {env : Env} {udev : UdevEnv} {devices : ℕ → ProcessEnv} {w : World} {i d : ℕ}

/-- What can be announced in the network can be announced in the whole. -/
theorem announceable_of_network
    (hfits : ∀ d, (IpcMsg.deviceInfo (devices d).identity.serial
      (devices d).identity.friendly).wireSize ≤ soscIpcMsgBufferSize)
    (hw : (system env udev devices).Reachable w)
    (h : Network.Announceable env devices d w.network) : Announceable env udev devices d w := by
  have hproj := network_projection env udev devices
  have hleads : (system env udev devices).LeadsTo (readsFrom d) (fun _ => True)
      (fun v => .deviceConnection ∈ raised d v.network.supervisor.log)
      (w.network.fromProc d).length w :=
    fun es v hrun _ hn => hproj.leadsTo h es v hrun (fun _ _ _ _ => trivial) hn
  refine hleads.imp hw fun v hv hraised => ?_
  obtain ⟨entry, hmem⟩ := mem_raised.mp hraised
  obtain ⟨seen, -, htold⟩ := Network.told_of_reachable hfits (hproj.reachable hv) d
  rw [← htold.about _ hmem entry rfl]
  exact hmem

/-- A device that the detector has in view is announced, in three parts: after some number of
steps of the detector and as many reads as there are then names in its pipe, the report of this
very device has become a process.  Unless this process fails, it says that it is ready after
as many statements as are missing; and the applications are told the names and the port of the
device as soon as the supervisor has read what is then in the pipe of the process. -/
theorem announced_of_pending (env : Env) (udev : UdevEnv) (devices : ℕ → ProcessEnv)
    (hudev : udev.enumerateNew = true) (hstarts : env.Starts)
    (hdevices : ∀ d, (IpcMsg.deviceInfo (devices d).identity.serial
      (devices d).identity.friendly).wireSize ≤ soscIpcMsgBufferSize)
    (hw : (system env udev devices).Reachable w)
    (hactive : w.network.supervisor.detector.proc.active = true)
    (hfits : Detection.Fits w.detector.devices) (hawaited : w.detector.Awaited i)
    (hpending : w.detector.Pending i) :
    ∃ ud devnode, w.detector.devices[i]? = some ⟨ud, true⟩ ∧ ud.devnode = some devnode ∧
      ∃ n, (system env udev devices).LeadsTo isMain (Spares i)
        (fun t => (system env udev devices).LeadsTo isRead (Spares i)
          (Announcing env udev devices i devnode) t.pipe.length t) n w := by
  have hnetwork := network_projection env udev devices
  have hdetection := detection_projection env udev devices
  obtain ⟨ud, devnode, hget, hnode, n, hleads⟩ :=
    Detection.leadsTo_of_awaited (s := w.detection) hudev hstarts
      ⟨hdetection.reachable hw, hactive, hfits⟩ hawaited hpending
  refine ⟨ud, devnode, hget, hnode, n, (hdetection.leadsTo hleads).imp hw fun t ht hnamed => ?_⟩
  refine (hdetection.leadsTo hnamed).imp ht fun u hu hstarted => ?_
  obtain ⟨p, hp, hname⟩ := hstarted
  obtain ⟨d, hd⟩ := exists_startedAt hname
  refine ⟨p, d, hp, hd, fun j hready => ?_⟩
  have hreadying : Network.Readying env devices d j u.network :=
    ⟨hnetwork.reachable hu, hready⟩
  refine (hnetwork.leadsTo (hreadying.leadsTo_announceable hdevices)).imp hu fun v hv hsaid => ?_
  exact announceable_of_network hdevices hv hsaid

theorem announced_of_pending_sampleWorld :
    ∃ ud devnode, sampleWorld.detector.devices[0]? = some ⟨ud, true⟩ ∧
      ud.devnode = some devnode ∧
      ∃ n, (system Env.reliable Detector.reliableUdev fun _ => DeviceProcess.sampleEnv).LeadsTo
        isMain (Spares 0)
        (fun t => (system Env.reliable Detector.reliableUdev fun _ =>
            DeviceProcess.sampleEnv).LeadsTo isRead (Spares 0)
          (Announcing Env.reliable Detector.reliableUdev (fun _ => DeviceProcess.sampleEnv) 0
            devnode) t.pipe.length t) n sampleWorld := by
  refine announced_of_pending Env.reliable Detector.reliableUdev (fun _ => DeviceProcess.sampleEnv)
    rfl ⟨fun _ => rfl, fun _ => rfl⟩ (fun _ => by decide)
    ⟨sampleWorld, [], init_sampleWorld, rfl⟩ rfl ?_
    ⟨Detector.sampleTty, rfl, rfl, by decide⟩ (.inr (.inl rfl))
  intro slot hslot devnode hnode
  obtain rfl := List.mem_singleton.mp hslot
  obtain rfl := Option.some.inj hnode
  decide

end World

end Serialosc
