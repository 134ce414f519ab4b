import Serialosc.Support.Channels
import Serialosc.Supervisor.FailedLaunch

/-!
# Device processes and their announcements

A device process tells the supervisor its names and its port, says that it is
ready, and says goodbye, in this order and over a pipe of its own.  It may
exit at any point, and what it has written by then may stay unread.

`deviceNetwork` is the supervisor together with any number of such processes.
What the supervisor announces about a device, and when, is then determined by
the messages it has read from that device and by whether the device has
exited; `announcements_paired` draws the conclusions.
-/

namespace Serialosc

open ByteMemory Runs

/-! ## Devices -/

/-- What a device process knows of itself. -/
structure DeviceIdentity where
  serial : CString
  friendly : CString
  port : BitVec 16

namespace DeviceIdentity

/-- What `sosc_server_run` sends to the supervisor. -/
def messages (self : DeviceIdentity) : List IpcMsg :=
  [.deviceInfo self.serial self.friendly, .oscPortChange self.port, .deviceReady,
    .deviceDisconnection]

/-- The arguments of a message about the device. -/
def entry (self : DeviceIdentity) : List OscArg :=
  [.s (some self.serial), .s (some self.friendly), .i self.port.toNat]

end DeviceIdentity

/-- `sosc_ipc_msg_write` writes the message. -/
def ipcMsgFits (msg : IpcMsg) : Bool := msg.wireSize ≤ soscIpcMsgBufferSize

/-- The message that an event reads from a device. -/
def Event.deviceMsg : Event → Option (ℕ × IpcMsg)
  | .deviceRead d msg => some (d, msg)
  | _ => none

/-- The supervisor and the device processes. -/
def deviceNetwork (env : Env) (devices : ℕ → DeviceIdentity) :
    EventSystem (SoscSupervisor × (ℕ → Channel IpcMsg)) (Event ⊕ ℕ) :=
  (supervisor env).feed (fun s d => (s.subprocess (.device d)).proc.active) ipcMsgFits
    Event.deviceMsg fun d => (devices d).messages

/-! ## What the messages of a device amount to -/

section

variable {identity : DeviceIdentity} {seen : List IpcMsg}

/-- The record that a sequence of messages fills in. -/
def recordOf (seen : List IpcMsg) : DeviceRecord := seen.foldl DeviceRecord.receive {}

theorem recordOf_append (seen : List IpcMsg) (msg : IpcMsg) :
    recordOf (seen ++ [msg]) = (recordOf seen).receive msg := by
  rw [recordOf, List.foldl_append]
  rfl

theorem ready_foldl (r : DeviceRecord) (seen : List IpcMsg) :
    (seen.foldl DeviceRecord.receive r).ready = true ↔
      r.ready = true ∨ .deviceReady ∈ seen := by
  induction seen generalizing r with
  | nil => simp
  | cons msg seen ih =>
    rw [List.foldl_cons, ih, List.mem_cons]
    cases msg <;> simp [DeviceRecord.receive]

theorem ready_recordOf : (recordOf seen).ready = true ↔ .deviceReady ∈ seen := by
  rw [recordOf, ready_foldl]
  simp

theorem nodup_messages (identity : DeviceIdentity) : identity.messages.Nodup := by
  simp [DeviceIdentity.messages]

/-- Once the device is ready, its names and its port are set. -/
theorem entry_of_ready (h : seen <+: identity.messages) (hready : .deviceReady ∈ seen) :
    (recordOf seen).entry = identity.entry := by
  have htake : seen = identity.messages.take seen.length := List.prefix_iff_eq_take.mp h
  generalize seen.length = n at htake
  subst htake
  match n with
  | 0 => exact absurd hready List.not_mem_nil
  | 1 => simp [DeviceIdentity.messages] at hready
  | 2 => simp [DeviceIdentity.messages] at hready
  | 3 => rfl
  | n + 4 =>
    rw [List.take_of_length_le (Nat.le_add_left 4 n)]
    rfl

/-- When `SOSC_DEVICE_READY` comes next, it comes for the first time, and the
names and the port are set. -/
theorem entry_before_ready (h : seen ++ [.deviceReady] <+: identity.messages) :
    .deviceReady ∉ seen ∧ (recordOf seen).entry = identity.entry := by
  refine ⟨fun hmem => ?_, ?_⟩
  · have hnodup := (nodup_messages identity).sublist h.sublist
    exact (List.nodup_append.mp hnodup).2.2 _ hmem _ (List.mem_singleton.mpr rfl) rfl
  · rw [← entry_of_ready h (List.mem_append_right _ (List.mem_singleton.mpr rfl)), recordOf_append]
    rfl

end

/-! ## What the supervisor has been told -/

/-- The events that have been announced about a device, as far as it has been
read. -/
def announcedSoFar (seen : List IpcMsg) (running : Bool) : List SoscIpcType :=
  if .deviceReady ∈ seen then
    .deviceConnection :: if running then [] else [.deviceDisconnection]
  else []

/-- What the messages read from device `d` tell about the state and the log. -/
structure Told (identity : DeviceIdentity) (s : SoscSupervisor) (d : ℕ)
    (seen : List IpcMsg) : Prop where
  isPrefix : seen <+: identity.messages
  fresh : s.record d = none → seen = []
  failed : LastLaunchFailed (.device d) s.log → seen = [] ∧ ¬ s.Ready d
  record : lastLaunch (.device d) s.log = some 0 → ¬ Gone (s.subprocess (.device d)) →
    s.record d = some (recordOf seen)
  raised : raised d s.log =
    announcedSoFar seen (s.subprocess (.device d)).proc.active
  about : ∀ x ∈ s.log, ∀ entry, x.about = some (d, entry) → entry = identity.entry

section

variable {env : Env} {self self' : SoscSupervisor} {d : ℕ} {e : Event}
  {identity : DeviceIdentity} {seen : List IpcMsg}

/-- A device in the loop that is running, or ready, has been launched. -/
theorem lastLaunch_of_active (htells : LaunchTells env self (.device d))
    (hactive : (self.subprocess (.device d)).proc.active = true) :
    lastLaunch (.device d) self.log = some 0 := by
  cases hlast : lastLaunch (.device d) self.log with
  | none =>
    rw [htells.absent hlast] at hactive
    exact Bool.noConfusion hactive
  | some err =>
    by_cases hzero : err = 0
    · rw [hzero]
    · have hdead := (htells.failed ⟨err, hlast, hzero⟩).dead
      exact Bool.noConfusion (hdead.symm.trans hactive)

theorem not_gone_of_active (hK : Known self)
    (hactive : (self.subprocess (.device d)).proc.active = true) :
    ¬ Gone (self.subprocess (.device d)) := by
  refine not_not.mpr ?_
  rw [Uv.Handle.InLoop, show (self.subprocess (.device d)).proc.stage = .registered from
    (hK.sub (.device d)).registered hactive .proc]
  exact Uv.Stage.noConfusion

/-- The record of a running device holds what it has sent. -/
theorem Told.record_of_active (hK : Known self) (htells : LaunchTells env self (.device d))
    (h : Told identity self d seen)
    (hactive : (self.subprocess (.device d)).proc.active = true) :
    self.record d = some (recordOf seen) :=
  h.record (lastLaunch_of_active htells hactive) (not_gone_of_active hK hactive)

/-- The record of a device that a list request finds holds what it has sent. -/
theorem Told.record_of_listed (hK : Known self) (htells : LaunchTells env self (.device d))
    (h : Told identity self d seen) (hlisted : Listed self d) :
    self.record d = some (recordOf seen) := by
  obtain ⟨hready, id, hwho, hin, hdata⟩ := hlisted
  obtain rfl := proc_of_tagged hK hwho hdata
  refine h.record ?_ (not_not.mpr hin)
  cases hlast : lastLaunch (.device d) self.log with
  | none =>
    have hin' : (self.subprocess (.device d)).proc.InLoop := hin
    rw [htells.absent hlast] at hin'
    exact absurd rfl hin'
  | some err =>
    by_cases hzero : err = 0
    · rw [hzero]
    · exact absurd (ready_iff.mpr hready) (h.failed ⟨err, hlast, hzero⟩).2

/-- A message is read from a running device only. -/
theorem active_of_deviceRead (hK : Known self) {msg : IpcMsg}
    (hstep : step env self (.deviceRead d msg) = some self') :
    (self.subprocess (.device d)).proc.active = true := by
  cases stepped_of_step hstep with
  | deviceRead d msg hphase hread => exact (hK.sub (.device d)).reading hread

theorem readFrom_eq_nil (hne : ∀ msg, e ≠ .deviceRead d msg) :
    EventSystem.readFrom Event.deviceMsg d e = [] := by
  cases e with
  | deviceRead d' msg =>
    have hd : d' ≠ d := fun heq => hne msg (by rw [heq])
    simp [EventSystem.readFrom, Event.deviceMsg, hd]
  | _ => rfl

theorem readFrom_deviceRead (msg : IpcMsg) :
    EventSystem.readFrom Event.deviceMsg d (.deviceRead d msg) = [msg] := by
  simp [EventSystem.readFrom, Event.deviceMsg]

theorem Told.about_step (hK : Known self) (htells : LaunchTells env self (.device d))
    (h : Told identity self d seen) (hstep : step env self e = some self')
    (hinit : seen ++ EventSystem.readFrom Event.deviceMsg d e <+: identity.messages) :
    ∀ x ∈ self'.log, ∀ entry, x.about = some (d, entry) → entry = identity.entry := by
  intro x hx entry habout
  obtain ⟨effects, hlog, hnew⟩ := step_log hstep
  rw [hlog] at hx
  rcases List.mem_append.mp hx with hx | hx
  · exact h.about x hx entry habout
  · obtain ⟨r, hr, rfl, hlisted | rfl | ⟨rfl, hready⟩⟩ := hnew.about hx habout
    · have hrecord := h.record_of_listed hK htells hlisted
      obtain ⟨r', hr', hready⟩ := ready_iff.mpr hlisted.1
      obtain rfl : r = recordOf seen := Option.some.inj (hr.symm.trans hrecord)
      obtain rfl : recordOf seen = r' := Option.some.inj (hr.symm.trans hr')
      exact entry_of_ready h.isPrefix (ready_recordOf.mp hready)
    · rw [readFrom_deviceRead] at hinit
      have hrecord := h.record_of_active hK htells (active_of_deviceRead hK hstep)
      obtain rfl : r = recordOf seen := Option.some.inj (hr.symm.trans hrecord)
      exact (entry_before_ready hinit).2
    · have hactive : (self.subprocess (.device d)).proc.active = true := by
        cases stepped_of_step hstep with
        | exit who hphase halive => exact halive
      have hrecord := h.record_of_active hK htells hactive
      obtain rfl : r = recordOf seen := Option.some.inj (hr.symm.trans hrecord)
      exact entry_of_ready h.isPrefix (ready_recordOf.mp hready)

/-- A record does not disappear. -/
theorem record_eq_none_of_step (hstep : step env self e = some self')
    (hnone : self'.record d = none) : self.record d = none := by
  rw [record_eq_none_iff] at hnone ⊢
  refine Nat.le_of_not_lt fun hlt => Nat.not_lt_of_le hnone ?_
  exact has_step hstep (show self.Has (.device d) from hlt)

theorem record_eq_none_of_mayLaunch (hlaunch : MayLaunch self (.device d) e) :
    self.record d = none ∧ ∀ msg, e ≠ .deviceRead d msg := by
  cases e with
  | detectorRead msg =>
    exact ⟨record_eq_none_iff.mpr (Nat.le_of_eq hlaunch.symm), fun _ => Event.noConfusion⟩
  | _ => exact absurd hlaunch id

theorem Told.fresh_step (hK : Known self) (htells : LaunchTells env self (.device d))
    (h : Told identity self d seen) (hstep : step env self e = some self')
    (hnone : self'.record d = none) :
    seen ++ EventSystem.readFrom Event.deviceMsg d e = [] := by
  have hnone₀ := record_eq_none_of_step hstep hnone
  rw [h.fresh hnone₀, List.nil_append]
  refine readFrom_eq_nil fun msg heq => ?_
  subst heq
  have hrecord := h.record_of_active hK htells (active_of_deviceRead hK hstep)
  cases hnone₀.symm.trans hrecord

theorem Told.failed_step (hK : Known self) (htells : LaunchTells env self (.device d))
    (h : Told identity self d seen) (hstep : step env self e = some self')
    (hfailed : LastLaunchFailed (.device d) self'.log) :
    seen ++ EventSystem.readFrom Event.deviceMsg d e = [] ∧ ¬ self'.Ready d := by
  have hbefore : seen = [] ∧ ¬ self.Ready d ∧ ∀ msg, e ≠ .deviceRead d msg := by
    by_cases hlaunch : MayLaunch self (.device d) e
    · obtain ⟨hnone, hne⟩ := record_eq_none_of_mayLaunch hlaunch
      exact ⟨h.fresh hnone, not_ready_of_none hnone, hne⟩
    · rw [LastLaunchFailed, lastLaunch_of_nil hstep (launchedBy_eq_nil hlaunch)] at hfailed
      obtain ⟨hseen, hready⟩ := h.failed hfailed
      refine ⟨hseen, hready, fun msg heq => ?_⟩
      subst heq
      have hdead := (htells.failed hfailed).dead
      exact Bool.noConfusion (hdead.symm.trans (active_of_deviceRead hK hstep))
  obtain ⟨rfl, hready, hne⟩ := hbefore
  refine ⟨readFrom_eq_nil hne, fun hready' => ?_⟩
  exact ((ready_step hstep).mp hready').elim hready fun hand => hne _ hand.1

/-- A device that has just been launched starts with an empty record. -/
theorem Told.record_launch_step (h : Told identity self d seen)
    (hstep : step env self e = some self') (hlaunch : MayLaunch self (.device d) e)
    (hlast : lastLaunch (.device d) self'.log = some 0)
    (hgone : ¬ Gone (self'.subprocess (.device d))) :
    self'.record d =
      some (recordOf (seen ++ EventSystem.readFrom Event.deviceMsg d e)) := by
  obtain ⟨hnone, hne⟩ := record_eq_none_of_mayLaunch hlaunch
  obtain rfl := h.fresh hnone
  rw [readFrom_eq_nil hne]
  cases launch_step hstep hlaunch with
  | unchanged hby hsub =>
    rw [lastLaunch_of_nil hstep hby] at hlast
    have hrecord := h.record hlast (hsub ▸ hgone)
    cases hnone.symm.trans hrecord
  | launched hby hsub =>
    cases e with
    | detectorRead msg =>
      cases msg with
      | deviceConnection devnode =>
        rw [launchedBy] at hby
        split at hby
        · next hcond =>
          have herr : env.uvSpawn (self.calls + 1) = 0 := List.singleton_inj.mp hby
          rw [Serialosc.record_step hstep, nextRecord, if_pos ⟨hcond.2, hlaunch⟩, herr]
          rfl
        · cases hby
      | _ => cases hby
    | _ => exact absurd hlaunch id
  | failed k herr hby hsub =>
    exact absurd (Option.some.inj ((lastLaunch_of_singleton hstep hby).symm.trans hlast)) herr

theorem Told.record_step (h : Told identity self d seen)
    (htells : LaunchTells env self (.device d)) (hstep : step env self e = some self')
    (hlast : lastLaunch (.device d) self'.log = some 0)
    (hgone : ¬ Gone (self'.subprocess (.device d))) :
    self'.record d =
      some (recordOf (seen ++ EventSystem.readFrom Event.deviceMsg d e)) := by
  by_cases hlaunch : MayLaunch self (.device d) e
  · exact h.record_launch_step hstep hlaunch hlast hgone
  · rw [lastLaunch_of_nil hstep (launchedBy_eq_nil hlaunch)] at hlast
    have hgone₀ : ¬ Gone (self.subprocess (.device d)) := fun hgone₀ =>
      hgone (gone_step (htells.succeeded hlast) hgone₀ hstep hlaunch)
    have hrecord := h.record hlast hgone₀
    by_cases hread : ∃ msg, e = .deviceRead d msg
    · obtain ⟨msg, rfl⟩ := hread
      rw [readFrom_deviceRead, recordOf_append, Serialosc.record_step hstep, nextRecord,
        if_pos rfl, hrecord]
      rfl
    · have hne (msg : IpcMsg) : e ≠ .deviceRead d msg := fun heq => hread ⟨msg, heq⟩
      have hclosed : e ≠ .closed ⟨.device d, .proc⟩ := by
        rintro rfl
        rw [subprocess_step _ hstep hlaunch, SoscSubprocess.moved, if_pos rfl] at hgone
        exact hgone fun hin => hin rfl
      rw [readFrom_eq_nil hne, List.append_nil, record_of_kept hstep hlaunch hne hclosed,
        hrecord]

theorem Told.raised_step (hK : Known self) (htells : LaunchTells env self (.device d))
    (h : Told identity self d seen) (hstep : step env self e = some self')
    (hinit : seen ++ EventSystem.readFrom Event.deviceMsg d e <+: identity.messages) :
    Serialosc.raised d self'.log =
      announcedSoFar (seen ++ EventSystem.readFrom Event.deviceMsg d e)
        (self'.subprocess (.device d)).proc.active := by
  have hraised := Serialosc.raised_step (d := d) hstep
  rw [h.raised] at hraised
  by_cases hlaunch : MayLaunch self (.device d) e
  · -- nothing has been read from the device yet
    obtain ⟨hnone, hne⟩ := record_eq_none_of_mayLaunch hlaunch
    have hby : raisedBy self d e = [] := by
      cases e with
      | detectorRead msg => rfl
      | _ => exact absurd hlaunch id
    rw [hraised, hby, h.fresh hnone, readFrom_eq_nil hne]
    rfl
  · by_cases hexit : e = .exit (.device d)
    · subst hexit
      have hactive : (self.subprocess (.device d)).proc.active = true ∧
          (self'.subprocess (.device d)).proc.active = false := by
        cases stepped_of_step hstep with
        | exit who hphase halive =>
          exact ⟨halive, by rw [(processExit_spec halive).changed]; rfl⟩
      have hrecord := h.record_of_active hK htells hactive.1
      rw [hraised, hactive.1, hactive.2, readFrom_eq_nil fun _ => Event.noConfusion,
        List.append_nil, raisedBy, hrecord, Option.any_some, announcedSoFar, announcedSoFar]
      by_cases hready : .deviceReady ∈ seen
      · simp [ready_recordOf.mpr hready, hready]
      · have hnot : (recordOf seen).ready ≠ true := fun h => hready (ready_recordOf.mp h)
        simp [hnot, hready]
    · have hactive := active_step hK.sub (.device d) hstep hlaunch hexit
      by_cases hread : ∃ msg, e = .deviceRead d msg
      · obtain ⟨msg, rfl⟩ := hread
        have halive := active_of_deviceRead hK hstep
        have hrecord := h.record_of_active hK htells halive
        rw [readFrom_deviceRead] at hinit ⊢
        rw [hraised, hactive, halive]
        cases msg with
        | deviceReady =>
          have hnot := (entry_before_ready hinit).1
          simp [announcedSoFar, raisedBy, hrecord, hnot]
        | _ => simp [announcedSoFar, raisedBy]
      · have hne (msg : IpcMsg) : e ≠ .deviceRead d msg := fun heq => hread ⟨msg, heq⟩
        have hby : raisedBy self d e = [] := by
          cases e with
          | deviceRead d' msg =>
            cases msg with
            | deviceReady => exact if_neg fun hand => hne .deviceReady (by rw [hand.1])
            | _ => rfl
          | exit who =>
            cases who with
            | detector => rfl
            | device d' => exact if_neg fun hand => hexit (by rw [hand.1])
          | _ => rfl
        rw [hraised, hby, hactive, readFrom_eq_nil hne, List.append_nil, List.append_nil]

theorem Told.step (hK : Known self) (htells : LaunchTells env self (.device d))
    (h : Told identity self d seen) (hstep : Serialosc.step env self e = some self')
    (hinit : seen ++ EventSystem.readFrom Event.deviceMsg d e <+: identity.messages) :
    Told identity self' d (seen ++ EventSystem.readFrom Event.deviceMsg d e) where
  isPrefix := hinit
  fresh := h.fresh_step hK htells hstep
  failed := h.failed_step hK htells hstep
  record := h.record_step htells hstep
  raised := h.raised_step hK htells hstep hinit
  about := h.about_step hK htells hstep hinit

theorem told_init (hinit : (supervisor env).init self) : Told identity self d [] := by
  obtain ⟨exeDir, configDir, herr, rfl⟩ := supervisor_init_iff.mp hinit
  refine ⟨List.nil_prefix, fun _ => rfl, fun hfailed => ?_, fun hlast => ?_, rfl,
    fun x hx entry habout => ?_⟩
  · obtain ⟨err, herr', -⟩ := hfailed
    cases herr'
  · cases hlast
  · obtain rfl := List.mem_singleton.mp hx
    cases habout

end

/-! ## The announcements of a device -/

/-- If the names of a device fit into a message, everything it sends is
written. -/
theorem messages_fit {identity : DeviceIdentity}
    (hfits : (IpcMsg.deviceInfo identity.serial identity.friendly).wireSize ≤
      soscIpcMsgBufferSize) : ∀ msg ∈ identity.messages, ipcMsgFits msg = true := by
  intro msg hmsg
  simp only [DeviceIdentity.messages, List.mem_cons, List.not_mem_nil, or_false] at hmsg
  rcases hmsg with rfl | rfl | rfl | rfl
  · exact decide_eq_true hfits
  · rfl
  · rfl
  · rfl

/-- What holds in every reachable state of the network. -/
theorem told_invariant (env : Env) (devices : ℕ → DeviceIdentity)
    (hfits : ∀ d, (IpcMsg.deviceInfo (devices d).serial (devices d).friendly).wireSize ≤
      soscIpcMsgBufferSize) :
    (deviceNetwork env devices).Invariant fun n =>
      (Known n.1 ∧ (∀ who, LaunchTells env n.1 who) ∧ ∀ d, FreedTells n.1 d) ∧
        (∀ d, (n.2 d).Whole (devices d).messages) ∧
        ∀ d, Told (devices d) n.1 d (n.2 d).seen := by
  refine EventSystem.feed_seen (Q := fun s d seen => Told (devices d) s d seen)
    (fun d => messages_fit (hfits d)) (launchTells_invariant env) (fun s d => told_init) ?_
  exact fun s e s' d seen hs htold hstep hinit =>
    htold.step hs.1 (hs.2.1 (.device d)) hstep hinit

theorem connection_mem_announcedSoFar {seen : List IpcMsg} {running : Bool} :
    .deviceConnection ∈ announcedSoFar seen running ↔ .deviceReady ∈ seen := by
  rw [announcedSoFar]
  split
  · next hready => exact iff_of_true List.mem_cons_self hready
  · next hready => exact iff_of_false List.not_mem_nil hready

theorem announcedSoFar_cases (seen : List IpcMsg) (running : Bool) :
    announcedSoFar seen running = [] ∨ announcedSoFar seen running = [.deviceConnection] ∨
      announcedSoFar seen running = [.deviceConnection, .deviceDisconnection] := by
  rw [announcedSoFar]
  split
  · cases running with
    | true => exact Or.inr (Or.inl rfl)
    | false => exact Or.inr (Or.inr rfl)
  · exact Or.inl rfl

/-- A removal is announced when a device exits whose addition has been. -/
theorem disconnection_mem_raisedBy_iff {env : Env} {self self' : SoscSupervisor} {d : ℕ}
    {e : Event} {identity : DeviceIdentity} {seen : List IpcMsg} (hK : Known self)
    (htells : LaunchTells env self (.device d)) (h : Told identity self d seen)
    (hstep : step env self e = some self') :
    .deviceDisconnection ∈ raisedBy self d e ↔
      e = .exit (.device d) ∧ .deviceConnection ∈ raised d self.log := by
  by_cases hexit : e = .exit (.device d)
  · subst hexit
    have hactive : (self.subprocess (.device d)).proc.active = true := by
      cases stepped_of_step hstep with
      | exit who hphase halive => exact halive
    rw [h.raised, connection_mem_announcedSoFar, raisedBy, h.record_of_active hK htells hactive,
      Option.any_some]
    simp only [ready_recordOf]
    by_cases hready : .deviceReady ∈ seen
    · simp [hready]
    · simp [hready]
  · refine iff_of_false (fun hmem => ?_) fun hand => hexit hand.1
    cases e with
    | deviceRead d' msg =>
      cases msg with
      | deviceReady =>
        rw [raisedBy] at hmem
        split at hmem
        · cases List.mem_singleton.mp hmem
        · exact List.not_mem_nil hmem
      | _ => exact List.not_mem_nil hmem
    | exit who =>
      cases who with
      | detector => exact List.not_mem_nil hmem
      | device d' =>
        rw [raisedBy] at hmem
        split at hmem
        · next hcond => exact hexit (by rw [hcond.1])
        · exact List.not_mem_nil hmem
    | _ => exact List.not_mem_nil hmem

/-- Announcements are complete and paired.  Whatever the order of messages,
exits and closes: about each device nothing is announced, or its addition, or
its addition and then its removal; the addition once `SOSC_DEVICE_READY` has
been read, and the removal when a device exits whose addition has been
announced; and everything that is said about a device, list entries included,
carries the names and the port that this device has sent. -/
theorem announcements_paired (env : Env) (devices : ℕ → DeviceIdentity)
    (hfits : ∀ d, (IpcMsg.deviceInfo (devices d).serial (devices d).friendly).wireSize ≤
      soscIpcMsgBufferSize)
    {n : SoscSupervisor × (ℕ → Channel IpcMsg)}
    (hn : (deviceNetwork env devices).Reachable n) (d : ℕ) :
    (raised d n.1.log = [] ∨ raised d n.1.log = [.deviceConnection] ∨
      raised d n.1.log = [.deviceConnection, .deviceDisconnection]) ∧
    (.deviceConnection ∈ raised d n.1.log ↔ .deviceReady ∈ (n.2 d).seen) ∧
    (∀ e n', (deviceNetwork env devices).step n e = some n' →
      (.deviceDisconnection ∈ (raised d n'.1.log).drop (raised d n.1.log).length ↔
        e = .inl (.exit (.device d)) ∧ .deviceConnection ∈ raised d n.1.log)) ∧
    (∀ type entry, .oscNotify type d entry ∈ n.1.log → entry = (devices d).entry) ∧
    ∀ dst path args, .loSendFrom (some d) dst path args ∈ n.1.log →
      args = (devices d).entry := by
  have hI := told_invariant env devices hfits
  obtain ⟨⟨hK, htells, -⟩, hwhole, htold⟩ := hI.reachable hn
  refine ⟨?_, ?_, fun e n' hstep => ?_, fun type entry hmem => ?_, fun dst path args hmem => ?_⟩
  · rw [(htold d).raised]
    exact announcedSoFar_cases _ _
  · rw [(htold d).raised]
    exact connection_mem_announcedSoFar
  · have hfits' (d : ℕ) : ∀ msg ∈ (devices d).messages, ipcMsgFits msg = true :=
      messages_fit (hfits d)
    obtain ⟨-, ⟨e₀, rfl, hs, -⟩ | ⟨⟨d', rfl⟩, hs, -⟩⟩ :=
      EventSystem.feed_cases hfits' hwhole hstep
    · rw [raised_step hs, List.drop_left,
        disconnection_mem_raisedBy_iff hK (htells (.device d)) (htold d) hs, Sum.inl.injEq]
    · rw [hs, List.drop_length]
      exact iff_of_false List.not_mem_nil fun hand => by cases hand.1
  · exact (htold d).about _ hmem entry rfl
  · exact (htold d).about _ hmem args rfl

/-- A device as its process describes it. -/
def sampleDevice : DeviceIdentity where
  serial := .ofString "m1000042"
  friendly := .ofString "monome 64"
  port := 15432

/-- A device becomes ready, is listed and exits. -/
theorem announcements_paired_sampleDevice :
    ∃ n, (deviceNetwork Env.reliable fun _ => sampleDevice).exec
        (reliableStart, fun _ => { script := sampleDevice.messages })
        [.inl .idle, .inl (.detectorRead (.deviceConnection sampleDevnode)),
          .inr 0, .inr 0, .inr 0,
          .inl (.deviceRead 0 (.deviceInfo sampleDevice.serial sampleDevice.friendly)),
          .inl (.deviceRead 0 (.oscPortChange sampleDevice.port)),
          .inl (.deviceRead 0 .deviceReady), .inl (.osc (.list default 12000)),
          .inl (.exit (.device 0))] = some n ∧
      raised 0 n.1.log = [.deviceConnection, .deviceDisconnection] ∧
      (∀ type entry, .oscNotify type 0 entry ∈ n.1.log → entry = sampleDevice.entry) ∧
      ∀ dst path args, .loSendFrom (some 0) dst path args ∈ n.1.log →
        args = sampleDevice.entry := by
  obtain ⟨n, hrun, hraised⟩ : ∃ n, (deviceNetwork Env.reliable fun _ => sampleDevice).exec
      (reliableStart, fun _ => { script := sampleDevice.messages })
      [.inl .idle, .inl (.detectorRead (.deviceConnection sampleDevnode)),
        .inr 0, .inr 0, .inr 0,
        .inl (.deviceRead 0 (.deviceInfo sampleDevice.serial sampleDevice.friendly)),
        .inl (.deviceRead 0 (.oscPortChange sampleDevice.port)),
        .inl (.deviceRead 0 .deviceReady), .inl (.osc (.list default 12000)),
        .inl (.exit (.device 0))] = some n ∧
      raised 0 n.1.log = [.deviceConnection, .deviceDisconnection] := ⟨_, rfl, rfl⟩
  have hreach : (deviceNetwork Env.reliable fun _ => sampleDevice).Reachable n :=
    ⟨_, _, ⟨init_reliableStart, fun _ => rfl⟩, hrun⟩
  exact ⟨n, hrun, hraised, (announcements_paired Env.reliable (fun _ => sampleDevice)
    (fun _ => by decide) hreach 0).2.2.2⟩

end Serialosc
