import Serialosc.Supervisor.FailedLaunch

/-!
# The memory of a device

A device record is freed by the close callback of its process handle, and its
three handles lie inside it.  `Event.handed` and `visited` list the handles
that the callbacks of an event get to see: those that libuv hands to a read,
exit or close callback, and those that a walk of the loop comes across.  A
record is touched when one of its handles is among them.

Only the reading pipe drives the teardown.  The writing pipe is closed without
a callback, and is out of the loop in time because both pipes are closed in the
same iteration and the process handle in the next.
-/

namespace Serialosc

open ByteMemory Runs

/-- The handles that libuv hands to the callback of an event. -/
def Event.handed : Event → List HandleId
  | .detectorRead _ => [⟨.detector, .fromProc⟩]
  | .deviceRead d _ => [⟨.device d, .fromProc⟩]
  | .exit who => [⟨who, .proc⟩]
  | .closed id => [id]
  | .idle | .osc _ | .check | .endIteration => []

/-- The handles on which an event calls `remaining_subprocesses_walk_cb`,
`list_devices_walk_cb` or `kill_devices_walk_cb`. -/
def visited (env : Env) (s : SoscSupervisor) : Event → List HandleId
  | .idle => if s.checkActive = true ∧ s.pending = .disabled then s.uvWalk else []
  | .osc (.list _ _) => if env.loAddressNew s.calls = true then s.uvWalk else []
  | .osc .disable =>
      if s.state = .enabled ∧ s.checkActive = false then s.uvWalk else []
  | _ => []

/-- A callback or a walk gets to see the record of device `d`. -/
def Touches (env : Env) (s : SoscSupervisor) (e : Event) (d : ℕ) : Prop :=
  ∃ id ∈ e.handed ++ visited env s e, id.who = .device d

/-- The record of device `d` is freed: its process handle has been closed, or
its launch has failed. -/
def Frees (env : Env) (s : SoscSupervisor) (e : Event) (d : ℕ) : Prop :=
  e = .closed ⟨.device d, .proc⟩ ∨ ∃ err, err ≠ 0 ∧ launchedBy env s (.device d) e = [err]

/-- Whenever the record of device `d` is freed in the run of `es` from `s₀`, all
of its handles have completed closing, and later events neither free it nor
touch it. -/
def SafelyFreed (env : Env) (s₀ : SoscSupervisor) (es : List Event) (d : ℕ) : Prop :=
  ∀ before e after s, es = before ++ e :: after →
    (supervisor env).exec s₀ before = some s → Frees env s e d →
    (∀ member, .closed ⟨.device d, member⟩ ∈ before ++ [e]) ∧
    ∀ between e' rest s', after = between ++ e' :: rest →
      (supervisor env).exec s₀ (before ++ e :: between) = some s' →
      ¬ Frees env s' e' d ∧ ¬ Touches env s' e' d

section

variable {env : Env} {self self' : SoscSupervisor} {who : ProcessId} {d : ℕ} {e : Event}

/-! ## Nothing else changes a record -/

/-- An event that does not touch the record of a device leaves it as it was;
only the closing phase takes over what has been asked for before. -/
theorem device_eq_of_not_touches (hstep : step env self e = some self')
    (hhas : self.Has (.device d)) (hnot : ¬ Touches env self e d) :
    self'.record d = self.record d ∧
      (e ≠ .check → self'.subprocess (.device d) = self.subprocess (.device d)) := by
  have hlaunch : ¬ MayLaunch self (.device d) e := by
    cases e with
    | detectorRead msg => exact fun hlen => Nat.lt_irrefl d (Nat.lt_of_lt_of_eq hhas hlen.symm)
    | _ => exact id
  have hhanded (id : HandleId) (hid : id ∈ e.handed) : id.who ≠ .device d := fun heq =>
    hnot ⟨id, List.mem_append_left _ hid, heq⟩
  have hkept : self'.record d = self.record d := by
    refine record_of_kept hstep hlaunch ?_ ?_
    · rintro msg rfl
      exact hhanded _ List.mem_cons_self rfl
    · rintro rfl
      exact hhanded _ List.mem_cons_self rfl
  refine ⟨hkept, fun hcheck => ?_⟩
  rw [subprocess_step (.device d) hstep hlaunch]
  cases e with
  | exit who' => exact if_neg (hhanded _ List.mem_cons_self)
  | closed id => exact if_neg (hhanded _ List.mem_cons_self)
  | check => exact absurd rfl hcheck
  | _ => rfl

/-! ## What has happened to a device -/

/-- A handle leaves the loop when its close completes. -/
theorem closed_of_unregistered (hstep : step env self e = some self')
    (hlaunch : ¬ MayLaunch self who e) {member : SubprocessMember}
    (hout : (self'.handle ⟨who, member⟩).stage = .unregistered) :
    (self.handle ⟨who, member⟩).stage = .unregistered ∨ e = .closed ⟨who, member⟩ := by
  rw [SoscSupervisor.handle, subprocess_step who hstep hlaunch] at hout
  cases e with
  | exit who' =>
    left
    rw [SoscSubprocess.moved] at hout
    split at hout
    · cases member with
      | proc => exact hout
      | toProc => cases hout
      | fromProc => cases hout
    · exact hout
  | check =>
    left
    have hstage (h : Uv.Handle SubprocessType) (hbegun : h.beginClosing.stage = .unregistered) :
        h.stage = .unregistered := by
      rw [Uv.Handle.stage_beginClosing] at hbegun
      split at hbegun
      · cases hbegun
      · exact hbegun
    cases member <;> exact hstage _ hout
  | closed id =>
    obtain ⟨who', member'⟩ := id
    rw [SoscSubprocess.moved] at hout
    split at hout
    · next heq =>
      obtain rfl : who' = who := heq
      by_cases hmember : member' = member
      · exact Or.inr (by rw [hmember])
      · left
        cases member' with
        | proc =>
          cases member with
          | proc => exact absurd rfl hmember
          | toProc => exact hout
          | fromProc => exact hout
        | toProc =>
          cases member with
          | proc => exact hout
          | toProc => exact absurd rfl hmember
          | fromProc => exact hout
        | fromProc =>
          cases member with
          | proc => cases hout
          | toProc => exact hout
          | fromProc => exact absurd rfl hmember
    · exact Or.inl hout
  | _ => exact Or.inl hout

/-- What the events so far tell of device `d`. -/
structure DeviceHistory (d : ℕ) (past : List Event) (s : SoscSupervisor) : Prop where
  launched : launches (.device d) s.log = [] ∨
    s.Has (.device d) ∧ ∃ err, launches (.device d) s.log = [err]
  completed : launches (.device d) s.log = [0] → ∀ member,
    (s.handle ⟨.device d, member⟩).stage = .unregistered →
      .closed ⟨.device d, member⟩ ∈ past
  gone : .closed ⟨.device d, .proc⟩ ∈ past → s.Has (.device d) ∧
    (launches (.device d) s.log = [0] → Gone (s.subprocess (.device d)))

theorem not_has_of_mayLaunch (hlaunch : MayLaunch self (.device d) e) :
    ¬ self.Has (.device d) := by
  cases e with
  | detectorRead msg => exact fun hhas => Nat.lt_irrefl d (Nat.lt_of_lt_of_eq hhas hlaunch.symm)
  | _ => exact absurd hlaunch id

theorem lastLaunch_of_launches {err : ℤ} (h : launches who self.log = [err]) :
    lastLaunch who self.log = some err := by
  rw [lastLaunch, h]
  rfl

/-- The step in which a device is launched. -/
theorem DeviceHistory.launch_step {past : List Event} (h : DeviceHistory d past self)
    (hstep : step env self e = some self') (hlaunch : MayLaunch self (.device d) e) :
    DeviceHistory d (past ++ [e]) self' := by
  have hnot := not_has_of_mayLaunch hlaunch
  have hnone : launches (.device d) self.log = [] :=
    h.launched.resolve_right fun hand => hnot hand.1
  have hlaunches : launches (.device d) self'.log =
      launches (.device d) self.log ++ launchedBy env self (.device d) e := launches_step hstep
  rw [hnone, List.nil_append] at hlaunches
  have hgone (hmem : .closed ⟨.device d, .proc⟩ ∈ past ++ [e]) : False := by
    rcases List.mem_append.mp hmem with hpast | hnow
    · exact hnot (h.gone hpast).1
    · rw [← List.mem_singleton.mp hnow] at hlaunch
      exact hlaunch
  cases Serialosc.launch_step hstep hlaunch with
  | unchanged hby hsub =>
    rw [hby] at hlaunches
    refine ⟨Or.inl hlaunches, fun hzero => ?_, fun hmem => (hgone hmem).elim⟩
    cases hlaunches.symm.trans hzero
  | launched hby hsub =>
    rw [hby] at hlaunches
    have hstage (member : SubprocessMember) :
        (self'.handle ⟨.device d, member⟩).stage = .registered := by
      rw [SoscSupervisor.handle, hsub]
      cases member <;> rfl
    have hin : (self'.handle ⟨.device d, .proc⟩).InLoop := by
      rw [Uv.Handle.InLoop, hstage .proc]
      exact Uv.Stage.noConfusion
    refine ⟨Or.inr ⟨SoscSupervisor.has_of_inLoop hin, 0, hlaunches⟩, fun _ member hout => ?_,
      fun hmem => (hgone hmem).elim⟩
    cases (hstage member).symm.trans hout
  | failed k herr hby hsub =>
    rw [hby] at hlaunches
    have hin : (self'.handle ⟨.device d, .toProc⟩).InLoop := by
      rw [SoscSupervisor.handle, hsub]
      exact Uv.Stage.noConfusion
    refine ⟨Or.inr ⟨SoscSupervisor.has_of_inLoop hin, _, hlaunches⟩, fun hzero => ?_,
      fun hmem => (hgone hmem).elim⟩
    exact absurd (List.singleton_inj.mp (hlaunches.symm.trans hzero)) herr

theorem DeviceHistory.step {past : List Event} (htells : LaunchTells env self (.device d))
    (h : DeviceHistory d past self) (hstep : Serialosc.step env self e = some self') :
    DeviceHistory d (past ++ [e]) self' := by
  by_cases hlaunch : MayLaunch self (.device d) e
  · exact h.launch_step hstep hlaunch
  · have hlaunches : launches (.device d) self'.log = launches (.device d) self.log := by
      rw [launches_step hstep, launchedBy_eq_nil hlaunch, List.append_nil]
    refine ⟨?_, fun hzero member hout => ?_, fun hmem => ?_⟩
    · rw [hlaunches]
      exact h.launched.imp_right fun hand => ⟨has_step hstep hand.1, hand.2⟩
    · rcases closed_of_unregistered hstep hlaunch hout with hbefore | hnow
      · rw [hlaunches] at hzero
        exact List.mem_append_left _ (h.completed hzero member hbefore)
      · exact List.mem_append_right _ (List.mem_singleton.mpr hnow.symm)
    · rw [hlaunches]
      rcases List.mem_append.mp hmem with hpast | hnow
      · obtain ⟨hhas, hgone⟩ := h.gone hpast
        refine ⟨has_step hstep hhas, fun hzero => ?_⟩
        exact gone_step (htells.succeeded (lastLaunch_of_launches hzero)) (hgone hzero) hstep
          hlaunch
      · obtain rfl := List.mem_singleton.mp hnow
        have hhas : self.Has (.device d) := by
          cases stepped_of_step hstep with
          | closed id hphase hfinishing =>
            exact SoscSupervisor.has_of_inLoop (inLoop_of_finishing hfinishing)
        refine ⟨has_step hstep hhas, fun _ => ?_⟩
        rw [subprocess_step (.device d) hstep hlaunch, SoscSubprocess.moved, if_pos rfl]
        exact fun hin => hin rfl

/-- What the events of a run tell of a device, in the state it ends in. -/
theorem deviceHistory_of_exec {s₀ s : SoscSupervisor} {es : List Event}
    (hinit : (supervisor env).init s₀) (hrun : (supervisor env).exec s₀ es = some s) (d : ℕ) :
    DeviceHistory d es s := by
  refine (launchTells_invariant env).history (fun s hs => ?_)
    (fun past s e s' hI h hstep => h.step (hI.2.1 (.device d)) hstep) hinit hrun
  obtain ⟨exeDir, configDir, herr, rfl⟩ := supervisor_init_iff.mp hs
  refine ⟨Or.inl rfl, fun hzero => ?_, fun hmem => absurd hmem List.not_mem_nil⟩
  cases hzero

/-! ## Freeing -/

/-- A process handle leaves the loop after the two pipes. -/
theorem Teardown.pipes_closed {phase : Phase} {sub : SoscSubprocess} (h : Teardown phase sub)
    (hproc : sub.proc.stage = .finishing) :
    sub.toProc.stage = .unregistered ∧ sub.fromProc.stage = .unregistered := by
  cases h with
  | procFinishing _ _ hto hfrom _ _ => exact ⟨hto, hfrom⟩
  | _ => simp_all

/-- Nothing gets to see a subprocess whose process handle has left the loop. -/
theorem not_touches_of_gone (hstep : step env self e = some self')
    (horderly : Orderly self.phase (.device d) (self.subprocess (.device d)))
    (hgone : Gone (self.subprocess (.device d))) : ¬ Touches env self e d := by
  rintro ⟨⟨who, member⟩, hid, hwho⟩
  obtain rfl : who = .device d := hwho
  have hout : ¬ (self.handle ⟨.device d, member⟩).InLoop := horderly.1.not_inLoop hgone member
  rcases List.mem_append.mp hid with hhanded | hvisited
  · cases stepped_of_step hstep with
    | deviceRead d' msg hphase hread =>
      obtain ⟨hd, -⟩ := HandleId.mk.inj (List.mem_singleton.mp hhanded)
      rw [← hd, horderly.1.quiet hgone] at hread
      cases hread
    | exit who' hphase halive =>
      obtain ⟨hd, -⟩ := HandleId.mk.inj (List.mem_singleton.mp hhanded)
      rw [← hd, horderly.1.dead hgone] at halive
      cases halive
    | closed id hphase hfinishing =>
      rw [← List.mem_singleton.mp hhanded] at hfinishing
      exact hout (inLoop_of_finishing hfinishing)
    | detectorRead msg hphase hread =>
      cases (HandleId.mk.inj (List.mem_singleton.mp hhanded)).1
    | _ => exact absurd hhanded List.not_mem_nil
  · have hwalk : (⟨.device d, member⟩ : HandleId) ∈ self.uvWalk := by
      unfold visited at hvisited
      split at hvisited
      · split at hvisited
        · exact hvisited
        · exact absurd hvisited List.not_mem_nil
      · split at hvisited
        · exact hvisited
        · exact absurd hvisited List.not_mem_nil
      · split at hvisited
        · exact hvisited
        · exact absurd hvisited List.not_mem_nil
      · exact absurd hvisited List.not_mem_nil
    exact hout (SoscSupervisor.mem_uvWalk.mp hwalk)

theorem launches_exec (who : ProcessId) {s s' : SoscSupervisor} {es : List Event}
    (hrun : (supervisor env).exec s es = some s') :
    launches who s.log <+: launches who s'.log := by
  induction es generalizing s with
  | nil =>
    obtain rfl : s = s' := Option.some.inj hrun
    exact List.prefix_rfl
  | cons e es ih =>
    obtain ⟨s₁, hstep, hrest⟩ := ((supervisor env).exec_cons_some).mp hrun
    have hone : launches who s₁.log = launches who s.log ++ launchedBy env s who e :=
      launches_step hstep
    exact (hone ▸ List.prefix_append _ _).trans (ih hrest)

/-- In a run that has launched device `d` once, and successfully, only the close
of its process handle frees its record. -/
theorem closed_of_frees {s : SoscSupervisor} {es : List Event}
    (hlast : launches (.device d) s.log = [0])
    (hstep : step env self e = some self') (hrun : (supervisor env).exec self' es = some s)
    (hfrees : Frees env self e d) : e = .closed ⟨.device d, .proc⟩ := by
  rcases hfrees with hclosed | ⟨err, hne, hby⟩
  · exact hclosed
  · -- a failed launch would be on record
    have hrest := launches_exec (.device d) hrun
    rw [launches_step hstep, hby, hlast] at hrest
    have herr : err ∈ [0] := hrest.subset (List.mem_append_right _ List.mem_cons_self)
    exact absurd (List.mem_singleton.mp herr) hne

/-- A handle whose close completes has left the loop in the same iteration. -/
theorem finishing_of_closed {id : HandleId} (hstep : step env self (.closed id) = some self') :
    (self.handle id).stage = .finishing := by
  cases stepped_of_step hstep with
  | closed _ hphase hfinishing => exact hfinishing

/-- A device whose process handle completes closing has been launched. -/
theorem launches_of_closed (htells : LaunchTells env self (.device d))
    (hstep : step env self (.closed ⟨.device d, .proc⟩) = some self')
    (hle : launches (.device d) self.log <+: [0]) : launches (.device d) self.log = [0] := by
  rcases List.prefix_cons_iff.mp hle with hnil | ⟨rest, hzero, hrest⟩
  · have habsent := htells.absent (by rw [lastLaunch, hnil]; rfl)
    have hfinishing : (self.subprocess (.device d)).proc.stage = .finishing :=
      finishing_of_closed hstep
    rw [habsent] at hfinishing
    cases hfinishing
  · rw [hzero, List.prefix_nil.mp hrest]

/-- When the process handle of a device completes closing, the pipes have. -/
theorem DeviceHistory.all_closed {past : List Event} (h : DeviceHistory d past self)
    (htells : LaunchTells env self (.device d)) (hlaunches : launches (.device d) self.log = [0])
    (hstep : Serialosc.step env self (.closed ⟨.device d, .proc⟩) = some self')
    (member : SubprocessMember) :
    .closed ⟨.device d, member⟩ ∈ past ++ [.closed ⟨.device d, .proc⟩] := by
  have horderly := htells.succeeded (lastLaunch_of_launches hlaunches)
  obtain ⟨hto, hfrom⟩ := horderly.1.pipes_closed (finishing_of_closed hstep)
  cases member with
  | proc => exact List.mem_append_right _ List.mem_cons_self
  | toProc => exact List.mem_append_left _ (h.completed hlaunches .toProc hto)
  | fromProc => exact List.mem_append_left _ (h.completed hlaunches .fromProc hfrom)

/-- Once the process handle of a device has completed closing, nothing touches
its record. -/
theorem DeviceHistory.not_touches {past : List Event} (h : DeviceHistory d past self)
    (htells : LaunchTells env self (.device d)) (hlaunches : launches (.device d) self.log = [0])
    (hclosed : .closed ⟨.device d, .proc⟩ ∈ past) (hstep : Serialosc.step env self e = some self') :
    ¬ Touches env self e d :=
  not_touches_of_gone hstep (htells.succeeded (lastLaunch_of_launches hlaunches))
    ((h.gone hclosed).2 hlaunches)

theorem DeviceHistory.launches_of_succeeded {past : List Event} (h : DeviceHistory d past self)
    {file : CString} {args : List CString}
    (hmem : .uvSpawn (.device d) file args 0 ∈ self.log) :
    launches (.device d) self.log = [0] := by
  have hzero : (0 : ℤ) ∈ launches (.device d) self.log :=
    List.mem_filterMap.mpr ⟨_, hmem, if_pos rfl⟩
  rcases h.launched with hnil | ⟨-, err, hone⟩
  · rw [hnil] at hzero
    exact absurd hzero List.not_mem_nil
  · rw [hone] at hzero ⊢
    rw [List.mem_singleton.mp hzero]

end

/-- In every run, the record of a device whose launch has succeeded is freed at
most once, after its three handles have completed closing, and is not touched
afterwards. -/
theorem teardown_safe (env : Env) {s₀ s : SoscSupervisor} {es : List Event} {d : ℕ}
    (hinit : (supervisor env).init s₀) (hrun : (supervisor env).exec s₀ es = some s)
    (hlaunched : ∃ file args, .uvSpawn (.device d) file args 0 ∈ s.log) :
    SafelyFreed env s₀ es d := by
  have htells {past : List Event} {s' : SoscSupervisor}
      (hpast : (supervisor env).exec s₀ past = some s') : LaunchTells env s' (.device d) :=
    ((launchTells_invariant env).reachable ⟨s₀, past, hinit, hpast⟩).2.1 (.device d)
  have hlast : launches (.device d) s.log = [0] := by
    obtain ⟨file, args, hmem⟩ := hlaunched
    exact (deviceHistory_of_exec hinit hrun d).launches_of_succeeded hmem
  intro before e after s₁ hes hbefore hfrees
  subst hes
  obtain ⟨s₂, hstep, hafter⟩ : ∃ s₂, (supervisor env).step s₁ e = some s₂ ∧
      (supervisor env).exec s₂ after = some s :=
    (supervisor env).exec_append_cons_some hbefore hrun
  obtain rfl := closed_of_frees hlast hstep hafter hfrees
  have hlaunches : launches (.device d) s₁.log = [0] := by
    refine launches_of_closed (htells hbefore) hstep ?_
    rw [← hlast]
    exact launches_exec _ (((supervisor env).exec_cons_some).mpr ⟨s₂, hstep, hafter⟩)
  refine ⟨(deviceHistory_of_exec hinit hbefore d).all_closed (htells hbefore) hlaunches hstep,
    fun between e' rest s' hsplit hbetween => ?_⟩
  subst hsplit
  obtain ⟨s₃, hstep', hrest⟩ : ∃ s₃, (supervisor env).step s' e' = some s₃ ∧
      (supervisor env).exec s₃ rest = some s := by
    rw [← List.cons_append, ← List.append_assoc] at hrun
    exact (supervisor env).exec_append_cons_some hbetween hrun
  -- the log only grows, and says the same before and after
  have hlaunches' : launches (.device d) s'.log = [0] := by
    have hgrown : launches (.device d) s₁.log <+: launches (.device d) s'.log := by
      obtain ⟨s₂', hstep₂, hmid⟩ := (supervisor env).exec_append_cons_some hbefore hbetween
      exact launches_exec _ (((supervisor env).exec_cons_some).mpr ⟨s₂', hstep₂, hmid⟩)
    have hgrows : launches (.device d) s'.log <+: launches (.device d) s.log :=
      launches_exec _ (((supervisor env).exec_cons_some).mpr ⟨s₃, hstep', hrest⟩)
    rw [hlaunches] at hgrown
    rw [hlast] at hgrows
    exact hgrows.eq_of_length_le hgrown.length_le
  have hnot : ¬ Touches env s' e' d :=
    (deviceHistory_of_exec hinit hbetween d).not_touches (htells hbetween) hlaunches'
      (List.mem_append_right _ List.mem_cons_self) hstep'
  refine ⟨fun hfrees' => ?_, hnot⟩
  -- another close of the process handle would touch the record
  obtain rfl := closed_of_frees hlast hstep' hrest hfrees'
  exact hnot ⟨⟨.device d, .proc⟩, List.mem_append_left _ List.mem_cons_self, rfl⟩

/-- A run in which a device is unplugged. -/
def unplugged : List Event :=
  iteration [.detectorRead (.deviceConnection sampleDevnode)] [] ++
    iteration [.deviceRead 0 .deviceReady, .exit (.device 0)]
      [⟨.device 0, .fromProc⟩, ⟨.device 0, .toProc⟩] ++
    iteration [.osc .disable] [⟨.device 0, .proc⟩] ++ [.idle]

theorem teardown_safe_unplugged :
    Frees Env.reliable reliableStart (.closed ⟨.device 0, .proc⟩) 0 ∧
      .closed ⟨.device 0, .proc⟩ ∈ unplugged ∧
      SafelyFreed Env.reliable reliableStart unplugged 0 := by
  obtain ⟨s, hrun, file, args, hmem⟩ :
      ∃ s, (supervisor Env.reliable).exec reliableStart unplugged = some s ∧
        ∃ file args, .uvSpawn (.device 0) file args 0 ∈ s.log :=
    ⟨_, rfl, _, _, List.mem_cons_of_mem _ List.mem_cons_self⟩
  exact ⟨Or.inl rfl, by decide,
    teardown_safe Env.reliable init_reliableStart hrun ⟨file, args, hmem⟩⟩

end Serialosc
