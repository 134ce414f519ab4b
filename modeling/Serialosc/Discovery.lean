import Serialosc.Detection

/-!
# A device that is plugged in gets its process

`started_of_pending` takes a device from the port to its process: the detector, when it has
the device in view, names it after so many steps of its own, and the supervisor starts a
process for the name after so many reads, whatever else happens in between.  Nothing here
says what becomes of the process; the modules on devices do.
-/

namespace Serialosc

open ByteMemory Runs

namespace Detection

variable {env : Env} {udev : UdevEnv} {s s' : Detection} {i : ℕ} {devnode : CString}

/-- Every name of a device fits a message. -/
def Fits (devices : List DeviceSlot) : Prop :=
  ∀ slot ∈ devices, ∀ devnode, slot.ud.devnode = some devnode →
    ipcMsgFits (.deviceConnection devnode) = true

/-- The event leaves device `i` where it is and the detector alive, and brings no device
with a name that is too long. -/
def Spares (i : ℕ) : DetectionEvent → Prop
  | .detector (.unplug j) => j ≠ i
  | .detector (.plug ud) => Fits [⟨ud, true⟩]
  | .supervisor (.exit .detector) => False
  | _ => True

/-- A step of the detector's own. -/
def isMain : DetectionEvent → Bool
  | .detector .main => true
  | _ => false

/-- The supervisor reads a message of the detector. -/
def isRead : DetectionEvent → Bool
  | .supervisor (.detectorRead _) => true
  | _ => false

/-- The detector is at work. -/
structure Working (env : Env) (udev : UdevEnv) (s : Detection) : Prop where
  reachable : (system env udev).Reachable s
  active : s.supervisor.detector.proc.active = true
  fits : Fits s.detector.devices

/-! ## The detector stays at work -/

theorem known_supervisor (hs : (system env udev).Reachable s) : Known s.supervisor := by
  have hknown : (system env udev).Invariant fun s => Known s.supervisor := by
    refine ⟨fun s hs => (known_invariant env).init _ hs.1, fun s e s' hs he => ?_⟩
    cases e with
    | supervisor e =>
      obtain ⟨-, hstep, -⟩ := step_supervisor he
      exact (known_invariant env).step _ e _ hs hstep
    | detector e =>
      obtain ⟨-, -, hsupervisor, -⟩ := step_detector he
      rw [hsupervisor]
      exact hs
  exact hknown.reachable hs

/-- The detector is not launched while it is running. -/
theorem launchedBy_of_active {self : SoscSupervisor} (hK : Known self)
    (hactive : self.detector.proc.active = true) (e : Event) :
    launchedBy env self .detector e = [] := by
  cases e with
  | osc req =>
    cases req with
    | enable =>
      rw [launchedBy]
      refine if_neg fun hlaunch => ?_
      have hstopped := hK.settled.settled hlaunch.2.1 hlaunch.2.2 .detector
      exact Bool.noConfusion (hstopped.symm.trans hactive)
    | _ => rfl
  | detectorRead msg =>
    cases msg with
    | deviceConnection devnode =>
      rw [launchedBy]
      exact if_neg fun h => ProcessId.noConfusion h.1
    | _ => rfl
  | _ => rfl

/-- The detector that is running keeps running. -/
theorem active_of_step {self self' : SoscSupervisor} {e : Event} (hK : Known self)
    (hstep : Serialosc.step env self e = some self') (hexit : e ≠ .exit .detector)
    (hactive : self.detector.proc.active = true) : self'.detector.proc.active = true := by
  by_cases hlaunch : MayLaunch self .detector e
  · have hby : launchedBy env self .detector e = [] := launchedBy_of_active hK hactive e
    cases launch_step hstep hlaunch with
    | unchanged _ hsub => exact (congrArg (fun sub => sub.proc.active) hsub).trans hactive
    | launched hby' => exact absurd (hby'.symm.trans hby) (List.cons_ne_nil _ _)
    | failed k _ hby' => exact absurd (hby'.symm.trans hby) (List.cons_ne_nil _ _)
  · exact (active_step hK.sub .detector hstep hlaunch hexit).trans hactive

theorem fits_step {d d' : Detector} {e : DetectorEvent} (h : Fits d.devices)
    (he : Spares i (.detector e)) (hstep : (Serialosc.detector udev).step d e = some d') :
    Fits d'.devices := by
  cases e with
  | plug ud =>
    obtain rfl := Option.some.inj hstep
    intro slot hslot
    rw [Detector.plug, Detector.devices_deliver] at hslot
    rcases List.mem_append.mp hslot with hold | hnew
    · exact h slot hold
    · exact he slot hnew
  | unplug j =>
    obtain ⟨slot', hslot', -, rfl⟩ := Detector.unplug_spec hstep
    intro slot hslot
    rw [Detector.devices_deliver] at hslot
    rcases List.mem_or_eq_of_mem_set hslot with hold | rfl
    · exact h slot hold
    · exact h slot' (List.mem_of_getElem? hslot')
  | main =>
    obtain rfl := Option.some.inj hstep
    rw [Detector.devices_main]
    exact h

/-- Nothing but an exit stops a detector at work, and no step of the supervisor touches
it. -/
theorem Working.step {e : DetectionEvent} (h : Working env udev s) (he : Spares i e)
    (hstep : (system env udev).step s e = some s') : Working env udev s' := by
  refine ⟨h.reachable.step hstep, ?_, ?_⟩
  · cases e with
    | supervisor e =>
      obtain ⟨-, hs, -⟩ := step_supervisor hstep
      refine active_of_step (known_supervisor h.reachable) hs ?_ h.active
      rintro rfl
      exact he
    | detector e =>
      obtain ⟨-, -, hsupervisor, -⟩ := step_detector hstep
      rw [hsupervisor]
      exact h.active
  · cases e with
    | supervisor e =>
      obtain ⟨-, -, ⟨-, hdetector, -⟩ | ⟨-, hdetector, -⟩⟩ := step_supervisor hstep
      · rw [hdetector]
        exact h.fits
      · rw [hdetector]
        exact h.fits
    | detector e =>
      obtain ⟨-, hd, -, -⟩ := step_detector hstep
      exact fits_step h.fits he hd

theorem Working.supervisor_step {e : Event} (h : Working env udev s)
    (hstep : supervisorStep env s e = some s') :
    s'.detector = s.detector ∧ s'.pipe = s.unread e := by
  obtain ⟨-, -, ⟨-, hsame⟩ | ⟨hlaunched, -⟩⟩ := step_supervisor hstep
  · exact hsame
  · exact absurd (launchedBy_of_active (known_supervisor h.reachable) h.active e) hlaunched

/-! ## From the port to the pipe -/

/-- Calls with names that fit are written, every one of them. -/
theorem sendConnects_of_fits {calls : List (ℕ × Option CString)}
    (hfits : ∀ call ∈ calls, ∃ devnode, call.2 = some devnode ∧
      ipcMsgFits (.deviceConnection devnode) = true) :
    (sendConnects calls).1.map some = calls.map Prod.snd := by
  induction calls with
  | nil => rfl
  | cons call calls ih =>
    obtain ⟨j, found⟩ := call
    obtain ⟨devnode, rfl, hfits'⟩ : ∃ devnode, found = some devnode ∧
        ipcMsgFits (.deviceConnection devnode) = true := hfits _ List.mem_cons_self
    rw [sendConnects, if_pos hfits', List.map_cons, List.map_cons]
    rw [ih fun call hcall => hfits call (List.mem_cons_of_mem _ hcall)]

/-- The detector has written a name for each of its calls. -/
theorem Working.written (h : Working env udev s) :
    (sendConnects s.detector.log).1.map some = s.detector.log.map Prod.snd := by
  obtain ⟨-, hstarts⟩ := (started_invariant env udev).reachable h.reachable
  refine sendConnects_of_fits fun ⟨j, found⟩ hfound => ?_
  obtain ⟨ud, ⟨present, hget⟩, htty, -, rfl⟩ := hstarts.finds.log j found hfound
  obtain ⟨devnode, hdevnode⟩ := Option.ne_none_iff_exists'.mp (ud.node_of_tty htty)
  exact ⟨devnode, hdevnode, h.fits _ (List.mem_of_getElem? hget) _ hdevnode⟩

/-- A device is reported under its name. -/
theorem Working.mem_log (h : Working env udev s) {ud : UdevDevice}
    (hud : s.detector.IsDevice i ud) (hnode : ud.devnode = some devnode)
    (hreported : s.detector.Reported i) : (i, some devnode) ∈ s.detector.log := by
  obtain ⟨-, hstarts⟩ := (started_invariant env udev).reachable h.reachable
  obtain ⟨node, hmem⟩ := hreported
  obtain ⟨ud', ⟨present', hget'⟩, -, -, hnode'⟩ := hstarts.finds.log i _ hmem
  obtain ⟨present, hget⟩ := hud
  obtain ⟨rfl, -⟩ := DeviceSlot.mk.inj (Option.some.inj (hget.symm.trans hget'))
  obtain rfl := Option.some.inj (hnode.symm.trans hnode')
  exact hmem

/-- At most `n` steps of the detector are missing until it has named the device. -/
structure Naming (env : Env) (udev : UdevEnv) (i : ℕ) (devnode : CString) (n : ℕ)
    (s : Detection) : Prop where
  working : Working env udev s
  named : ∃ ud, s.detector.IsDevice i ud ∧ ud.devnode = some devnode
  within : s.detector.Within i n

theorem Naming.keep {n : ℕ} {e : DetectionEvent} (hudev : udev.enumerateNew = true)
    (h : Naming env udev i devnode n s) (he : Spares i e)
    (hstep : (system env udev).step s e = some s') : Naming env udev i devnode n s' := by
  have hworking := h.working.step he hstep
  cases e with
  | supervisor e =>
    obtain ⟨hdetector, -⟩ := h.working.supervisor_step hstep
    refine ⟨hworking, ?_, ?_⟩
    · rw [hdetector]
      exact h.named
    · rw [hdetector]
      exact h.within
  | detector e =>
    obtain ⟨-, hd, -, -⟩ := step_detector hstep
    obtain ⟨ud, hud, hnode⟩ := h.named
    refine ⟨hworking, ⟨ud, hud.step hd, hnode⟩, ?_⟩
    refine Detector.within_step hudev h.within ?_ hd
    rintro rfl
    exact he rfl

theorem Naming.own {n : ℕ} {e : DetectionEvent} (hudev : udev.enumerateNew = true)
    (h : Naming env udev i devnode (n + 1) s) (he : Spares i e) (howned : isMain e = true)
    (hstep : (system env udev).step s e = some s') : Naming env udev i devnode n s' := by
  have hkept := h.keep hudev he hstep
  cases e with
  | supervisor e => exact absurd howned Bool.false_ne_true
  | detector e =>
    cases e with
    | main =>
      obtain ⟨-, hd, -, -⟩ := step_detector hstep
      refine ⟨hkept.working, hkept.named, ?_⟩
      rw [← Option.some.inj hd]
      exact h.within.mainStep hudev
    | _ => exact absurd howned Bool.false_ne_true

/-! ## From the pipe to the process -/

/-- The report of the device has become a process: both stand at the same place, counted
from the launch of the detector. -/
def StartedFor (i : ℕ) (devnode : CString) (s : Detection) : Prop :=
  ∃ p : ℕ, s.detector.log[p]? = some (i, some devnode) ∧
    (devicesStarted s.supervisor.log)[p]? = some devnode

/-- At most `m` reads are missing until the report of the device has become a process. -/
structure Starting (env : Env) (udev : UdevEnv) (i : ℕ) (devnode : CString) (m : ℕ)
    (s : Detection) : Prop where
  working : Working env udev s
  within : ∃ p : ℕ, s.detector.log[p]? = some (i, some devnode) ∧
    p < (devicesStarted s.supervisor.log).length + m

/-- Every read starts one device, and nothing else does. -/
theorem Working.length_started {e : DetectionEvent} (hstarts : env.Starts)
    (h : Working env udev s) (hstep : (system env udev).step s e = some s') :
    (devicesStarted s'.supervisor.log).length =
      (devicesStarted s.supervisor.log).length + if isRead e then 1 else 0 := by
  cases e with
  | detector e =>
    obtain ⟨-, -, hsupervisor, -⟩ := step_detector hstep
    rw [hsupervisor]
    rfl
  | supervisor e =>
    obtain ⟨hallows, hs, -⟩ := step_supervisor hstep
    have hstarted := devicesStarted_step hs
    rw [if_pos (launchedBy_of_active (known_supervisor h.reachable) h.active e)] at hstarted
    rw [hstarted, List.length_append]
    cases e with
    | detectorRead msg =>
      cases msg with
      | deviceConnection first =>
        rw [startedBy, if_pos ⟨hstarts.calloc _, hstarts.uvSpawn _⟩]
        rfl
      | _ => cases hallows
    | _ => rfl

/-- What the detector has reported stays where it is. -/
theorem Working.log_step {e : DetectionEvent} (h : Working env udev s)
    (hstep : (system env udev).step s e = some s') :
    ∃ calls, s'.detector.log = s.detector.log ++ calls := by
  cases e with
  | detector e =>
    obtain ⟨-, hd, -, -⟩ := step_detector hstep
    exact Detector.log_step hd
  | supervisor e =>
    obtain ⟨hdetector, -⟩ := h.supervisor_step hstep
    exact ⟨[], by rw [hdetector, List.append_nil]⟩

/-- The bound after an event is lower by the reads that the event is. -/
theorem Starting.step {m m' : ℕ} {e : DetectionEvent} (hstarts : env.Starts)
    (h : Starting env udev i devnode m s) (he : Spares i e)
    (hstep : (system env udev).step s e = some s') (hm : m ≤ m' + if isRead e then 1 else 0) :
    Starting env udev i devnode m' s' := by
  obtain ⟨calls, hlog⟩ := h.working.log_step hstep
  obtain ⟨p, hp, hlt⟩ := h.within
  refine ⟨h.working.step he hstep, p, ?_, ?_⟩
  · rw [hlog]
    exact (List.getElem?_append_left (List.getElem?_eq_some_iff.mp hp).1).trans hp
  · rw [h.working.length_started hstarts hstep]
    omega

/-- Reports and processes agree in their order. -/
theorem Starting.startedFor (hstarts : env.Starts)
    (h : Starting env udev i devnode 0 s) : StartedFor i devnode s := by
  obtain ⟨⟨read, hread, -, hall⟩, -⟩ := (started_invariant env udev).reachable h.working.reachable
  obtain ⟨p, hp, hlt⟩ := h.within
  refine ⟨p, hp, ?_⟩
  have hcall : ((sendConnects s.detector.log).1.map some)[p]? = some (some devnode) := by
    rw [h.working.written, List.getElem?_map, hp]
    rfl
  obtain ⟨name, hname, heq⟩ := Option.map_eq_some_iff.mp (List.getElem?_map.symm.trans hcall)
  obtain rfl := Option.some.inj heq
  rw [← hread, ← hall hstarts] at hname
  exact (List.getElem?_append_left hlt).symm.trans hname

/-- Once the detector has named the device, its process is as many reads away as there are names
in the pipe. -/
theorem leadsTo_startedFor (hstarts : env.Starts)
    (h : Naming env udev i devnode 0 s) :
    (system env udev).LeadsTo isRead (Spares i) (StartedFor i devnode) s.pipe.length s := by
  have hreported : s.detector.Reported i := by
    rcases h.within.2 with hreported | ⟨hpos, -⟩ | ⟨_, k, -, -, hlt⟩
    · exact hreported
    · exact absurd hpos (Nat.lt_irrefl 0)
    · exact absurd hlt (Nat.not_lt_zero k)
  obtain ⟨ud, hud, hnode⟩ := h.named
  obtain ⟨p, hp⟩ := List.mem_iff_getElem?.mp (h.working.mem_log hud hnode hreported)
  have hstarting : Starting env udev i devnode s.pipe.length s := by
    obtain ⟨⟨read, hread, -, hall⟩, -⟩ :=
      (started_invariant env udev).reachable h.working.reachable
    refine ⟨h.working, p, hp, ?_⟩
    rw [hall hstarts, ← List.length_append, hread, ← List.length_map some, h.working.written,
      List.length_map]
    exact (List.getElem?_eq_some_iff.mp hp).1
  refine EventSystem.leadsTo_of_within (W := Starting env udev i devnode) ?_ ?_ ?_ hstarting
  · exact fun u hu => hu.startedFor hstarts
  · exact fun m u e u' hu he hstep => hu.step hstarts he hstep (Nat.le_add_right _ _)
  · intro m u e u' hu he howned hstep
    refine hu.step hstarts he hstep ?_
    rw [if_pos howned]

/-- A device in view is named, and then started. -/
theorem leadsTo_of_awaited (hudev : udev.enumerateNew = true) (hstarts : env.Starts)
    (h : Working env udev s) (hawaited : s.detector.Awaited i) (hpending : s.detector.Pending i) :
    ∃ ud devnode, s.detector.devices[i]? = some ⟨ud, true⟩ ∧ ud.devnode = some devnode ∧
      ∃ n, (system env udev).LeadsTo isMain (Spares i)
        (fun t => (system env udev).LeadsTo isRead (Spares i) (StartedFor i devnode)
          t.pipe.length t) n s := by
  obtain ⟨ud, devnode, hget, -, hnode⟩ := hawaited.node
  obtain ⟨n, hwithin⟩ := Detector.Within.of_pending hawaited hpending
  refine ⟨ud, devnode, hget, hnode, n, ?_⟩
  refine EventSystem.leadsTo_of_within (W := Naming env udev i devnode) ?_ ?_ ?_
    ⟨h, ⟨ud, ⟨true, hget⟩, hnode⟩, hwithin⟩
  · exact fun t ht => leadsTo_startedFor hstarts ht
  · exact fun n t e t' ht he hstep => ht.keep hudev he hstep
  · exact fun n t e t' ht he howned hstep => ht.own hudev he howned hstep

/-- A device that the detector has in view gets its process.  After some number of steps of
the detector, and as soon as the supervisor has read what is then in the pipe, the report of
this very device has become a process, whatever else happens, for as long as the device stays
where it is, the detector is not ended, and the names fit. -/
theorem started_of_pending (env : Env) (udev : UdevEnv) (hudev : udev.enumerateNew = true)
    (hstarts : env.Starts) (hs : (system env udev).Reachable s)
    (hactive : s.supervisor.detector.proc.active = true) (hfits : Fits s.detector.devices)
    (hawaited : s.detector.Awaited i) (hpending : s.detector.Pending i) :
    ∃ ud devnode, s.detector.devices[i]? = some ⟨ud, true⟩ ∧ ud.devnode = some devnode ∧
      ∃ n, (system env udev).LeadsTo isMain (Spares i)
        (fun t => (system env udev).LeadsTo isRead (Spares i) (StartedFor i devnode)
          t.pipe.length t) n s :=
  leadsTo_of_awaited hudev hstarts ⟨hs, hactive, hfits⟩ hawaited hpending

/-- A device that is there when the detector starts. -/
theorem started_of_pending_sampleDetection :
    ∃ ud devnode, sampleDetection.detector.devices[0]? = some ⟨ud, true⟩ ∧
      ud.devnode = some devnode ∧
      ∃ n, (system Env.reliable Detector.reliableUdev).LeadsTo isMain (Spares 0)
        (fun t => (system Env.reliable Detector.reliableUdev).LeadsTo isRead (Spares 0)
          (StartedFor 0 devnode) t.pipe.length t) n sampleDetection := by
  refine started_of_pending Env.reliable Detector.reliableUdev rfl ⟨fun _ => rfl, fun _ => rfl⟩
    ⟨sampleDetection, [], init_sampleDetection, rfl⟩ rfl ?_
    ⟨Detector.sampleTty, rfl, rfl, by decide⟩ (.inr (.inl rfl))
  intro slot hslot devnode hnode
  obtain rfl := List.mem_singleton.mp hslot
  obtain rfl := Option.some.inj hnode
  decide

end Detection

end Serialosc
