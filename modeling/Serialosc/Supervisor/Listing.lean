import Serialosc.Supervisor.Disable
import Serialosc.Supervisor.Records

/-!
# The reply to a list request

A list request walks the handles for the tag of a device.  The tag stays on
the process handle until its close completes, two closing phases after the
exit callback has announced the removal.  In between a removed device is still
listed, and `listsAgree_iff` says that nothing else makes the list disagree
with the announcements.
-/

namespace Serialosc

open ByteMemory Runs

/-- The addition of the device has been announced, and its removal has not. -/
def Announced (d : ℕ) (log : List Effect) : Prop :=
  .deviceConnection ∈ raised d log ∧ .deviceDisconnection ∉ raised d log

/-- What `osc_list_devices` sends. -/
def listReply (env : Env) (s : SoscSupervisor) (host : CString) (port : ℤ) : List Effect :=
  (oscListDevices env s host port).log.drop s.log.length

/-- If the event is a list request that is answered, then the answer names the
announced devices. -/
def ListAgrees (env : Env) (s : SoscSupervisor) (e : Event) : Prop :=
  ∀ host port, e = .osc (.list host port) → env.loAddressNew s.calls = true →
    ∀ d, (∃ dst path args, .loSendFrom (some d) dst path args ∈ listReply env s host port) ↔
      Announced d s.log

/-- The process of every device that is ready is running, or its handle has
left the loop. -/
def NoneLeaving (s : SoscSupervisor) : Prop :=
  ∀ d, s.Ready d → (s.handle ⟨.device d, .proc⟩).InLoop →
    (s.subprocess (.device d)).proc.active = true

/-- If the event is a list request that is answered, then no device is
leaving. -/
def ListsNoneLeaving (env : Env) (s : SoscSupervisor) (e : Event) : Prop :=
  ∀ host port, e = .osc (.list host port) → env.loAddressNew s.calls = true →
    NoneLeaving s

/-- What has been announced about a device tells whether it is ready and
whether it is running. -/
structure AnnouncementTells (s : SoscSupervisor) (d : ℕ) : Prop where
  added : .deviceConnection ∈ raised d s.log ↔ s.Ready d
  removed : .deviceDisconnection ∈ raised d s.log ↔
    s.Ready d ∧ (s.subprocess (.device d)).proc.active = false
  tagged : s.Ready d → (s.subprocess (.device d)).proc.data = some .deviceType

section

variable {env : Env} {self self' : SoscSupervisor} {d : ℕ} {e : Event}

/-- Only its own `SOSC_DEVICE_READY` makes a device ready. -/
theorem ready_iff_of_ne (hstep : Serialosc.step env self e = some self')
    (hne : e ≠ .deviceRead d .deviceReady) : self'.Ready d ↔ self.Ready d := by
  rw [ready_step (d := d) hstep]
  exact ⟨fun hor => hor.resolve_right fun hand => hne hand.1, Or.inl⟩

/-- Nothing but becoming ready and exiting is announced. -/
theorem raisedBy_of_ne (hread : e ≠ .deviceRead d .deviceReady) (hexit : e ≠ .exit (.device d)) :
    raisedBy self d e = [] := by
  cases e with
  | deviceRead d' msg =>
    cases msg with
    | deviceReady => exact if_neg fun hand => hread (by rw [hand.1])
    | _ => rfl
  | exit who =>
    cases who with
    | detector => rfl
    | device d' => exact if_neg fun hand => hexit (by rw [hand.1])
  | _ => rfl

/-- The device is about to be allocated. -/
theorem AnnouncementTells.launch_step (h : AnnouncementTells self d)
    (hstep : Serialosc.step env self e = some self') (hlaunch : MayLaunch self (.device d) e) :
    AnnouncementTells self' d := by
  have hnew : d = self.devices.length ∧ e ≠ .deviceRead d .deviceReady ∧
      e ≠ .exit (.device d) := by
    cases e with
    | detectorRead msg => exact ⟨hlaunch, Event.noConfusion, Event.noConfusion⟩
    | _ => exact absurd hlaunch id
  obtain ⟨hd, hread, hexit⟩ := hnew
  have hraised := raised_step (d := d) hstep
  rw [raisedBy_of_ne hread hexit, List.append_nil] at hraised
  have hnot : ¬ self.Ready d :=
    not_ready_of_none (record_eq_none_iff.mpr (Nat.le_of_eq hd.symm))
  have hnot' : ¬ self'.Ready d := by
    rwa [ready_iff_of_ne hstep hread]
  refine ⟨?_, ?_, fun hr => absurd hr hnot'⟩
  · rw [hraised, h.added]
    exact iff_of_false hnot hnot'
  · rw [hraised, h.removed]
    exact iff_of_false (fun hand => hnot hand.1) fun hand => hnot' hand.1

/-- The process of the device exits. -/
theorem AnnouncementTells.exit_step (h : AnnouncementTells self d)
    (hstep : Serialosc.step env self (.exit (.device d)) = some self') :
    AnnouncementTells self' d := by
  have hactive : (self.subprocess (.device d)).proc.active = true ∧
      (self'.subprocess (.device d)).proc.active = false := by
    cases stepped_of_step hstep with
    | exit who hphase halive =>
      exact ⟨halive, by rw [(processExit_spec halive).changed]; rfl⟩
  have hdata : (self'.subprocess (.device d)).proc.data =
      (self.subprocess (.device d)).proc.data := data_step (.device d) hstep id
  have hsame : self'.Ready d ↔ self.Ready d := ready_iff_of_ne hstep Event.noConfusion
  have hraised := raised_step (d := d) hstep
  refine ⟨?_, ?_, fun hr => hdata.trans (h.tagged (hsame.mp hr))⟩
  · rw [hraised, hsame, ← h.added, List.mem_append]
    refine ⟨fun hor => hor.resolve_right fun hmem => ?_, Or.inl⟩
    rw [raisedBy] at hmem
    split at hmem
    · cases List.mem_singleton.mp hmem
    · exact List.not_mem_nil hmem
  · rw [hraised, hsame, List.mem_append, h.removed, hactive.1, hactive.2, raisedBy]
    have hany : (self.record d).any DeviceRecord.ready = true ↔ self.Ready d :=
      Option.any_eq_true _ _
    by_cases hr : self.Ready d
    · simp [hr, hany]
    · simp [hr, hany]

/-- The process of the device says that it is ready. -/
theorem AnnouncementTells.ready_step (hK : Known self) (h : AnnouncementTells self d)
    (hstep : Serialosc.step env self (.deviceRead d .deviceReady) = some self') :
    AnnouncementTells self' d := by
  have halive : (self.subprocess (.device d)).proc.active = true := by
    cases stepped_of_step hstep with
    | deviceRead d' msg hphase hread => exact (hK.sub (.device d)).reading hread
  have hactive : (self'.subprocess (.device d)).proc.active =
      (self.subprocess (.device d)).proc.active :=
    active_step hK.sub (.device d) hstep id Event.noConfusion
  have hdata : (self'.subprocess (.device d)).proc.data =
      (self.subprocess (.device d)).proc.data := data_step (.device d) hstep id
  have hsome : (self.record d).isSome := by
    have hhas : d < self.devices.length := SoscSupervisor.has_of_active .proc halive
    rw [Option.isSome_iff_ne_none, ne_eq, record_eq_none_iff]
    exact Nat.not_le_of_lt hhas
  have hready : self'.Ready d := (Serialosc.ready_step hstep).mpr (Or.inr ⟨rfl, hsome⟩)
  have hby : raisedBy self d (.deviceRead d .deviceReady) = [.deviceConnection] :=
    if_pos ⟨rfl, hsome⟩
  have hraised := raised_step (d := d) hstep
  refine ⟨?_, ?_, fun _ => hdata.trans ((hK.sub (.device d)).tagged halive)⟩
  · rw [hraised, hby]
    exact iff_of_true (List.mem_append_right _ (List.mem_singleton.mpr rfl)) hready
  · rw [hraised, hby, hactive, halive, List.mem_append, h.removed, halive]
    simp

theorem AnnouncementTells.step (hK : Known self) (h : AnnouncementTells self d)
    (hstep : Serialosc.step env self e = some self') : AnnouncementTells self' d := by
  by_cases hlaunch : MayLaunch self (.device d) e
  · exact h.launch_step hstep hlaunch
  by_cases hexit : e = .exit (.device d)
  · subst hexit
    exact h.exit_step hstep
  by_cases hread : e = .deviceRead d .deviceReady
  · subst hread
    exact h.ready_step hK hstep
  · -- nothing is announced about the device
    have hactive := active_step hK.sub (.device d) hstep hlaunch hexit
    have hsame : self'.Ready d ↔ self.Ready d := ready_iff_of_ne hstep hread
    have hraised := raised_step (d := d) hstep
    rw [raisedBy_of_ne hread hexit, List.append_nil] at hraised
    refine ⟨?_, ?_, fun hr => ?_⟩
    · rw [hraised, hsame]
      exact h.added
    · rw [hraised, hsame, hactive]
      exact h.removed
    · exact (data_step (.device d) hstep hlaunch).trans (h.tagged (hsame.mp hr))

theorem announcementTells_invariant (env : Env) :
    (supervisor env).Invariant fun s => Known s ∧ ∀ d, AnnouncementTells s d := by
  refine (known_invariant env).and_of (fun s hs d => ?_) fun s e s' hK htells hstep d =>
    (htells d).step hK hstep
  obtain ⟨exeDir, configDir, herr, rfl⟩ := supervisor_init_iff.mp hs
  exact ⟨iff_of_false List.not_mem_nil (not_ready_of_none rfl),
    iff_of_false List.not_mem_nil fun h => not_ready_of_none rfl h.1,
    fun h => absurd h (not_ready_of_none rfl)⟩

theorem announced_iff (h : AnnouncementTells self d) :
    Announced d self.log ↔
      self.Ready d ∧ (self.subprocess (.device d)).proc.active = true := by
  rw [Announced, h.added, h.removed]
  cases (self.subprocess (.device d)).proc.active <;> simp

/-! ## The reply -/

theorem mem_listReply_iff {host : CString} {port : ℤ}
    (halloc : env.loAddressNew self.calls = true) :
    (∃ dst path args, .loSendFrom (some d) dst path args ∈ listReply env self host port) ↔
      Listed self d := by
  have hreply : listReply env self host port =
      self.uvWalk.flatMap (listSends self ⟨host, portstr port⟩) := by
    rw [listReply, oscListDevices_spec, halloc, if_pos rfl]
    exact List.drop_left
  rw [hreply]
  constructor
  · rintro ⟨dst, path, args, hmem⟩
    obtain ⟨id, hwalk, hmem⟩ := List.mem_flatMap.mp hmem
    obtain ⟨d', dev, hwho, hdev, hready, hdata, heq⟩ := mem_listSends hmem
    obtain rfl : d = d' := by
      simp only [Effect.loSendFrom.injEq, Option.some.injEq] at heq
      exact heq.1
    exact ⟨⟨dev, hdev, hready⟩, id, hwho, SoscSupervisor.mem_uvWalk.mp hwalk, hdata⟩
  · rintro ⟨⟨dev, hdev, hready⟩, id, hwho, hin, hdata⟩
    refine ⟨⟨host, portstr port⟩, "/serialosc/device", dev.entry, ?_⟩
    refine List.mem_flatMap.mpr ⟨id, SoscSupervisor.mem_uvWalk.mpr hin, ?_⟩
    simp [listSends, hdata, hwho, hdev, hready]

theorem listed_iff (hK : Known self) (h : AnnouncementTells self d) :
    Listed self d ↔ self.Ready d ∧ (self.handle ⟨.device d, .proc⟩).InLoop := by
  rw [Listed, ← ready_iff]
  refine and_congr_right fun hready => ?_
  constructor
  · rintro ⟨id, hwho, hin, hdata⟩
    obtain rfl := proc_of_tagged hK hwho hdata
    exact hin
  · exact fun hin => ⟨_, rfl, hin, h.tagged hready⟩

/-- The reply agrees with the announcements when no device is leaving, and
then only. -/
theorem listAgrees_iff (hK : Known self) (h : ∀ d, AnnouncementTells self d) :
    ListAgrees env self e ↔ ListsNoneLeaving env self e := by
  refine forall₄_congr fun host port _ halloc => ?_
  refine forall_congr' fun d => ?_
  rw [mem_listReply_iff halloc, listed_iff hK (h d), announced_iff (h d)]
  constructor
  · exact fun hiff hready hin => (hiff.mp ⟨hready, hin⟩).2
  · refine fun hnone => ⟨fun hand => ⟨hand.1, hnone hand.1 hand.2⟩, fun hand => ⟨hand.1, ?_⟩⟩
    rw [Uv.Handle.InLoop, show (self.handle ⟨.device d, .proc⟩).stage = .registered from
      (hK.sub (.device d)).registered hand.2 .proc]
    exact Uv.Stage.noConfusion

/-- Along any run, every answered list request names the announced devices if
and only if none is answered while a device is leaving. -/
theorem listsAgree_iff (env : Env) {s₀ : SoscSupervisor} (es : List Event)
    (hinit : (supervisor env).init s₀) :
    (supervisor env).StepsMeet (ListAgrees env) s₀ es ↔
      (supervisor env).StepsMeet (ListsNoneLeaving env) s₀ es := by
  have hI := announcementTells_invariant env
  exact EventSystem.stepsMeet_congr hI (fun s e hs => listAgrees_iff hs.1 hs.2)
    (hI.init s₀ hinit)

end

/-- A device has exited and its removal has been announced, and it is listed
all the same. -/
theorem listsAgree_fails :
    ∃ s, (supervisor Env.reliable).exec reliableStart
        [.idle, .detectorRead (.deviceConnection sampleDevnode), .deviceRead 0 .deviceReady,
          .exit (.device 0)] = some s ∧
      ¬ ListAgrees Env.reliable s (.osc (.list default 12000)) := by
  refine ⟨_, rfl, fun h => ?_⟩
  have hiff := h default 12000 rfl rfl 0
  have hlisted := hiff.mp ⟨_, _, _, List.mem_singleton.mpr rfl⟩
  exact hlisted.2 (by decide)

theorem listsAgree_iff_running :
    (supervisor Env.reliable).StepsMeet (ListAgrees Env.reliable) reliableStart
      [.idle, .detectorRead (.deviceConnection sampleDevnode), .deviceRead 0 .deviceReady,
        .osc (.list default 12000)] := by
  refine (listsAgree_iff Env.reliable _ init_reliableStart).mpr ?_
  refine .cons rfl (fun _ _ heq => Event.noConfusion heq) ?_
  refine .cons rfl (fun _ _ heq => Event.noConfusion heq) ?_
  refine .cons rfl (fun _ _ heq => Event.noConfusion heq) ?_
  refine .cons rfl (fun _ _ _ _ d hready _ => ?_) trivial
  cases d with
  | zero => rfl
  | succ d => exact absurd hready (not_ready_of_none rfl)

end Serialosc
