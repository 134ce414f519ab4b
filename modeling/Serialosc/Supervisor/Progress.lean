import Serialosc.Supervisor.FailedLaunch

/-!
# A disable request is completed

While a disable request is pending and no process runs any more, the handles that are left
close in at most two iterations of the loop: the pipes in the first, the process handles in
the second.  `disabled_of_stopped` says that the second idle phase at the latest finds nothing
to count, whatever the clients ask for meanwhile.
-/

namespace Serialosc

open ByteMemory Runs

/-! ## Handles that are counted -/

/-- Only what has been started is counted: a device that has not been launched has no tag,
and the detector has been launched whenever the supervisor is enabled or about to change. -/
structure CountTells (s : SoscSupervisor) : Prop where
  untagged : ∀ d, LastLaunchFailed (.device d) s.log →
    (s.subprocess (.device d)).proc.data = none
  detector : s.state = .enabled ∨ s.checkActive = true → lastLaunch .detector s.log = some 0

section

variable {env : Env} {self self' : SoscSupervisor} {e : Event} {who : ProcessId}

theorem CountTells.untagged_step (h : CountTells self) (hstep : step env self e = some self')
    {d : ℕ} (hfailed : LastLaunchFailed (.device d) self'.log) :
    (self'.subprocess (.device d)).proc.data = none := by
  by_cases hlaunch : MayLaunch self (.device d) e
  · cases launch_step hstep hlaunch with
    | unchanged hby hsub =>
      rw [LastLaunchFailed, lastLaunch_of_nil hstep hby] at hfailed
      rw [hsub]
      exact h.untagged d hfailed
    | launched hby hsub =>
      exact absurd hfailed (not_lastLaunchFailed (lastLaunch_of_singleton hstep hby))
    | failed k herr hby hsub =>
      have hnone : self.subprocess (.device d) = {} := by
        refine SoscSupervisor.subprocess_eq_of_not_has fun hhas => ?_
        cases e with
        | detectorRead msg => exact Nat.lt_irrefl d (Nat.lt_of_lt_of_eq hhas hlaunch.symm)
        | _ => exact hlaunch
      rw [hsub, hnone, SoscSubprocess.launchFailed]
      dsimp only
      split_ifs
      · rfl
      · rfl
  · rw [LastLaunchFailed, lastLaunch_of_nil hstep (launchedBy_eq_nil hlaunch)] at hfailed
    rw [data_step _ hstep hlaunch]
    exact h.untagged d hfailed

/-- A detector is launched on an enable request only. -/
theorem launchedBy_detector (hne : e ≠ .osc .enable) :
    launchedBy env self .detector e = [] := by
  refine launchedBy_eq_nil fun hlaunch => ?_
  cases e with
  | osc req =>
    cases req with
    | enable => exact hne rfl
    | _ => exact hlaunch
  | _ => exact hlaunch

theorem CountTells.detector_step (h : CountTells self) (hstep : step env self e = some self')
    (hcontrol : self'.state = .enabled ∨ self'.checkActive = true) :
    lastLaunch .detector self'.log = some 0 := by
  by_cases henable : e = .osc .enable
  · subst henable
    cases control_step hstep with
    | kept hstate _ hcheck =>
      rw [hstate, hcheck] at hcontrol
      have hnone : launchedBy env self .detector (.osc .enable) = [] := by
        refine if_neg fun hand => ?_
        rcases hcontrol with henabled | hactive
        · exact SoscSupervisorState.noConfusion (hand.2.1.symm.trans henabled)
        · exact Bool.noConfusion (hand.2.2.symm.trans hactive)
      rw [lastLaunch_of_nil hstep hnone]
      exact h.detector hcontrol
    | enabling hstate hcheck herr _ _ =>
      refine lastLaunch_of_singleton hstep ?_
      rw [launchedBy, if_pos ⟨rfl, hstate, hcheck⟩, herr]
  · rw [lastLaunch_of_nil hstep (launchedBy_detector henable)]
    refine h.detector ?_
    cases control_step hstep with
    | kept hstate _ hcheck =>
      rw [hstate, hcheck] at hcontrol
      exact hcontrol
    | enabling => exact absurd rfl henable
    | disabling hstate => exact .inl hstate
    | ended hcheck => exact .inr hcheck

theorem countTells_invariant (env : Env) : (supervisor env).Invariant CountTells where
  init s hs := by
    obtain ⟨exeDir, configDir, herr, rfl⟩ := supervisor_init_iff.mp hs
    refine ⟨fun d hfailed => rfl, fun _ => ?_⟩
    have hlast : lastLaunch .detector [detectorSpawn env (supervisorInit exeDir configDir)] =
        some (env.uvSpawn 0) := rfl
    rw [herr] at hlast
    exact hlast
  step s e s' hs he := ⟨fun _ => hs.untagged_step he, hs.detector_step he⟩

/-! ## Subprocesses that are on their way out -/

/-- The process handle is out of the loop by the next idle phase. -/
def Late (phase : Phase) (sub : SoscSubprocess) : Prop :=
  Gone sub ∨ phase = .poll ∧ sub.proc.stage = .closing ∨
    phase = .closing ∧ sub.proc.stage = .finishing

/-- A subprocess that does not run, and is out of the loop by the next idle phase. -/
structure Leaving (phase : Phase) (who : ProcessId) (sub : SoscSubprocess) : Prop where
  orderly : Orderly phase who sub
  dead : sub.proc.active = false
  late : Late phase sub

/-- Before the next idle phase the handle moves on. -/
theorem leaving_subMoves : SubMoves Leaving where
  exited _ _ h halive := Bool.noConfusion (h.dead.symm.trans halive)
  poll who sub h := by
    refine ⟨orderly_subMoves.poll who sub h.orderly, h.dead, .inl ?_⟩
    rcases h.late with hgone | ⟨hphase, -⟩ | ⟨hphase, -⟩
    · exact hgone
    · cases hphase
    · cases hphase
  beginClosing who sub h := by
    refine ⟨orderly_subMoves.beginClosing who sub h.orderly, h.dead, ?_⟩
    rcases h.late with hgone | ⟨-, hclosing⟩ | ⟨hphase, -⟩
    · exact .inl fun hin => hgone ((Uv.Handle.inLoop_beginClosing _).mp hin)
    · exact .inr (.inr ⟨rfl, by rw [SoscSubprocess.map, Uv.Handle.stage_beginClosing,
        if_pos hclosing]⟩)
    · cases hphase
  closed who sub member h hfinishing := by
    refine ⟨orderly_subMoves.closed who sub member h.orderly hfinishing,
      active_closed h.dead member, .inl ?_⟩
    rcases h.late with hgone | ⟨hphase, -⟩ | ⟨-, hproc⟩
    · exact absurd (inLoop_of_finishing hfinishing) (h.orderly.1.not_inLoop hgone member)
    · cases hphase
    · cases h.orderly.1 with
      | procFinishing _ _ hto hfrom =>
        cases member with
        | proc => exact fun hin => hin rfl
        | toProc => cases hto.symm.trans hfinishing
        | fromProc => cases hfrom.symm.trans hfinishing
      | absent hproc' => cases hproc'.symm.trans hproc
      | running hproc' => cases hproc'.symm.trans hproc
      | exited _ hproc' => cases hproc'.symm.trans hproc
      | pipesClosing _ hproc' => cases hproc'.symm.trans hproc
      | procClosing hproc' => cases hproc'.symm.trans hproc
  endIteration who sub h hdone := by
    refine ⟨orderly_subMoves.endIteration who sub h.orderly hdone, h.dead, .inl ?_⟩
    rcases h.late with hgone | ⟨hphase, -⟩ | ⟨-, hproc⟩
    · exact hgone
    · cases hphase
    · exact absurd (Or.inl hproc) hdone

/-- In the idle phase only a process handle can still be closing. -/
theorem leaving_of_idle {sub : SoscSubprocess} (h : Orderly .idle who sub)
    (hdead : sub.proc.active = false) : Leaving .poll who sub := by
  refine ⟨orderly_subMoves.poll who sub h, hdead, ?_⟩
  cases h.1 with
  | absent hproc => exact .inl (not_not.mpr hproc)
  | running _ _ _ halive => exact Bool.noConfusion (hdead.symm.trans halive)
  | exited hphase => cases hphase
  | pipesClosing hphase => cases hphase
  | procClosing hproc => exact .inr (.inl ⟨rfl, hproc⟩)
  | procFinishing hphase => cases hphase

/-! ## The pending request -/

/-- A disable request is pending, and no process runs. -/
structure Emptying (s : SoscSupervisor) : Prop where
  check : s.checkActive = true
  pending : s.pending = .disabled
  stopped : ∀ who, (s.subprocess who).proc.active = false

/-- The supervisor is disabled, and no change is pending. -/
def IsDisabled (s : SoscSupervisor) : Prop := s.state = .disabled ∧ s.checkActive = false

/-- Everything that was started is out of the loop by the next idle phase. -/
def AllLeaving (s : SoscSupervisor) : Prop :=
  ∀ who, lastLaunch who s.log = some 0 → Leaving s.phase who (s.subprocess who)

/-- What is known of a reachable state. -/
theorem told_of_reachable (h : (supervisor env).Reachable self) :
    Known self ∧ (∀ who, LaunchTells env self who) ∧ CountTells self := by
  obtain ⟨hK, htells, -⟩ := (launchTells_invariant env).reachable h
  exact ⟨hK, htells, (countTells_invariant env).reachable h⟩

theorem Emptying.not_mayLaunch (hK : Known self) (h : Emptying self)
    (hstep : step env self e = some self') (hallowed : e ≠ .osc .enable) (who : ProcessId) :
    ¬ MayLaunch self who e := by
  intro hlaunch
  cases stepped_of_step hstep with
  | osc req hphase =>
    cases who with
    | detector =>
      cases req with
      | enable => exact hallowed rfl
      | _ => exact hlaunch
    | device d => cases req <;> exact hlaunch
  | detectorRead msg hphase hread =>
    have halive := (hK.sub .detector).reading hread
    exact Bool.noConfusion ((h.stopped .detector).symm.trans halive)
  | _ => cases who <;> exact hlaunch

theorem Emptying.active_step (hK : Known self) (h : Emptying self)
    (hstep : step env self e = some self') (hallowed : e ≠ .osc .enable) (who : ProcessId) :
    (self'.subprocess who).proc.active = false := by
  have hexit : e ≠ .exit who := by
    rintro rfl
    cases stepped_of_step hstep with
    | exit who hphase halive => exact Bool.noConfusion ((h.stopped who).symm.trans halive)
  rw [Serialosc.active_step hK.sub who hstep (h.not_mayLaunch hK hstep hallowed who) hexit]
  exact h.stopped who

/-- The request stays pending, or it is completed. -/
theorem Emptying.step (hK : Known self) (h : Emptying self)
    (hstep : Serialosc.step env self e = some self') (hallowed : e ≠ .osc .enable) :
    Emptying self' ∨ e = .idle ∧ IsDisabled self' := by
  have hstopped := h.active_step hK hstep hallowed
  cases control_step hstep with
  | kept _ hpending hcheck =>
    exact .inl ⟨hcheck.trans h.check, hpending.trans h.pending, hstopped⟩
  | enabling => exact absurd rfl hallowed
  | disabling _ hcheck => exact Bool.noConfusion (hcheck.symm.trans h.check)
  | ended _ _ hstate' hcheck' => exact .inr ⟨rfl, hstate'.trans h.pending, hcheck'⟩

/-- When nothing that was started is in the loop, nothing is counted. -/
theorem subprocsRemaining_of_gone (hK : Known self) (htells : ∀ who, LaunchTells env self who)
    (hcount : CountTells self) (hcheck : self.checkActive = true)
    (hgone : ∀ who, lastLaunch who self.log = some 0 → Gone (self.subprocess who)) :
    subprocsRemaining self = 0 := by
  refine (subprocsRemaining_eq_zero self).mpr fun id hin => ?_
  obtain ⟨who, member⟩ := id
  cases member with
  | toProc => exact (hK.sub who).untagged.1
  | fromProc => exact (hK.sub who).untagged.2
  | proc =>
    have hin : (self.subprocess who).proc.InLoop := hin
    change (self.subprocess who).proc.data = none
    cases hlast : lastLaunch who self.log with
    | none =>
      rw [(htells who).absent hlast]
    | some err =>
      by_cases hzero : err = 0
      · rw [hzero] at hlast
        exact absurd hin (hgone who hlast)
      · cases who with
        | device d => exact hcount.untagged d ⟨err, hlast, hzero⟩
        | detector =>
          have hlast' := hcount.detector (.inr hcheck)
          exact absurd (Option.some.inj (hlast.symm.trans hlast')) hzero

theorem stateChangeCheckCb_of_zero (hpending : self.pending = .disabled)
    (hzero : subprocsRemaining self = 0) :
    stateChangeCheckCb self = { self with state := .disabled, checkActive := false } := by
  rw [stateChangeCheckCb, hpending]
  exact if_pos hzero

/-- The idle phase that finds nothing to count completes the request. -/
theorem settled_of_allLeaving (hreach : (supervisor env).Reachable self) (h : Emptying self)
    (hleaving : AllLeaving self) (hstep : step env self .idle = some self') :
    IsDisabled self' := by
  obtain ⟨hK, htells, hcount⟩ := told_of_reachable hreach
  cases stepped_of_step hstep with
  | idle hphase =>
    have hgone (who : ProcessId) (hlast : lastLaunch who self.log = some 0) :
        Gone (self.subprocess who) := by
      rcases (hleaving who hlast).late with hgone | ⟨hpoll, -⟩ | ⟨hclosing, -⟩
      · exact hgone
      · cases hphase.symm.trans hpoll
      · cases hphase.symm.trans hclosing
    have hzero := subprocsRemaining_of_gone hK htells hcount h.check hgone
    rw [if_pos h.check, stateChangeCheckCb_of_zero h.pending hzero]
    exact ⟨rfl, rfl⟩

theorem allLeaving_step (hK : Known self) (h : Emptying self) (hleaving : AllLeaving self)
    (hstep : step env self e = some self') (hallowed : e ≠ .osc .enable) :
    AllLeaving self' := by
  intro who hlast
  have hlaunch := h.not_mayLaunch hK hstep hallowed who
  rw [lastLaunch_of_nil hstep (launchedBy_eq_nil hlaunch)] at hlast
  exact leaving_subMoves.step (hleaving who hlast) hstep hlaunch

/-- From an idle phase on, whatever does not run is on its way out. -/
theorem allLeaving_of_idle (hreach : (supervisor env).Reachable self) (h : Emptying self)
    (hstep : step env self .idle = some self') : AllLeaving self' := by
  obtain ⟨hK, htells, -⟩ := told_of_reachable hreach
  intro who hlast
  have hlaunch := h.not_mayLaunch hK hstep Event.noConfusion who
  rw [lastLaunch_of_nil hstep (launchedBy_eq_nil hlaunch)] at hlast
  have horderly := (htells who).succeeded hlast
  rw [subprocess_step who hstep hlaunch, phase_step hstep]
  cases stepped_of_step hstep with
  | idle hphase =>
    rw [hphase] at horderly
    exact leaving_of_idle horderly (h.stopped who)

/-- The request is completed within `n` idle phases. -/
structure Completing (env : Env) (n : ℕ) (s : SoscSupervisor) : Prop where
  reachable : (supervisor env).Reachable s
  within : IsDisabled s ∨ Emptying s ∧ 0 < n ∧ (n = 1 → AllLeaving s)

theorem IsDisabled.keep (h : IsDisabled self) (hstep : step env self e = some self')
    (hallowed : e ≠ .osc .enable) : IsDisabled self' := by
  cases control_step hstep with
  | kept hstate _ hcheck => exact ⟨hstate.trans h.1, hcheck.trans h.2⟩
  | enabling => exact absurd rfl hallowed
  | disabling hstate => cases hstate.symm.trans h.1
  | ended hcheck => cases hcheck.symm.trans h.2

theorem Completing.keep {n : ℕ} (h : Completing env n self)
    (hstep : step env self e = some self') (hallowed : e ≠ .osc .enable) :
    Completing env n self' := by
  refine ⟨h.reachable.step hstep, ?_⟩
  rcases h.within with hsettled | ⟨hempty, hpos, hleaving⟩
  · exact .inl (hsettled.keep hstep hallowed)
  · obtain ⟨hK, -, -⟩ := told_of_reachable h.reachable
    rcases hempty.step hK hstep hallowed with hempty' | ⟨-, hsettled⟩
    · exact .inr ⟨hempty', hpos, fun hone =>
        allLeaving_step hK hempty (hleaving hone) hstep hallowed⟩
    · exact .inl hsettled

theorem Completing.own {n : ℕ} (h : Completing env (n + 1) self)
    (hstep : step env self .idle = some self') : Completing env n self' := by
  refine ⟨h.reachable.step (e := .idle) hstep, ?_⟩
  rcases h.within with hsettled | ⟨hempty, -, hleaving⟩
  · exact .inl (hsettled.keep hstep Event.noConfusion)
  · obtain ⟨hK, -, -⟩ := told_of_reachable h.reachable
    by_cases hzero : n = 0
    · subst hzero
      exact .inl (settled_of_allLeaving h.reachable hempty (hleaving rfl) hstep)
    · rcases hempty.step hK hstep Event.noConfusion with hempty' | ⟨-, hsettled⟩
      · exact .inr ⟨hempty', Nat.pos_of_ne_zero hzero, fun _ =>
          allLeaving_of_idle h.reachable hempty hstep⟩
      · exact .inl hsettled

/-- A pending disable request, once no process runs any more, is completed in the second idle
phase at the latest, whatever else happens, unless the supervisor is enabled again; and then
nothing that was started is left in the loop. -/
theorem disabled_of_stopped (env : Env) (hreach : (supervisor env).Reachable self)
    (hcheck : self.checkActive = true) (hpending : self.pending = .disabled)
    (hstopped : ∀ who, (self.subprocess who).proc.active = false) :
    (supervisor env).LeadsTo (fun e => e = .idle) (fun e => e ≠ .osc .enable)
      (fun s => s.state = .disabled ∧ s.checkActive = false ∧
        ∀ who, lastLaunch who s.log = some 0 → ∀ member,
          ¬ ((s.subprocess who).handle member).InLoop) 2 self := by
  have hcompleting : Completing env 2 self :=
    ⟨hreach, .inr ⟨⟨hcheck, hpending, hstopped⟩, Nat.two_pos, fun hone => by cases hone⟩⟩
  refine EventSystem.leadsTo_of_within (W := Completing env) (fun s hs => ?_) ?_ ?_ hcompleting
  · obtain ⟨hstate, hcheck⟩ := hs.within.resolve_right fun hand => Nat.lt_irrefl 0 hand.2.1
    refine ⟨hstate, hcheck, fun who hlast => ?_⟩
    obtain ⟨-, htells, -⟩ := told_of_reachable hs.reachable
    have horderly := (htells who).succeeded hlast
    exact horderly.1.not_inLoop ((htells who).settled hlast hstate hcheck)
  · exact fun n s e s' hs hallowed hstep => hs.keep hstep hallowed
  · intro n s e s' hs _ hidle hstep
    obtain rfl := of_decide_eq_true hidle
    exact hs.own hstep

end

/-- A device and the detector exit on a disable request. -/
theorem disabled_of_stopped_reliable :
    ∃ s, (supervisor Env.reliable).exec reliableStart
        [.idle, .detectorRead (.deviceConnection sampleDevnode), .osc .disable,
          .exit (.device 0), .exit .detector] = some s ∧
      (supervisor Env.reliable).LeadsTo (fun e => e = .idle) (fun e => e ≠ .osc .enable)
        (fun s => s.state = .disabled ∧ s.checkActive = false ∧
          ∀ who, lastLaunch who s.log = some 0 → ∀ member,
            ¬ ((s.subprocess who).handle member).InLoop) 2 s := by
  obtain ⟨s, hrun, hcheck, hpending, hdetector, hdevices⟩ : ∃ s,
      (supervisor Env.reliable).exec reliableStart
        [.idle, .detectorRead (.deviceConnection sampleDevnode), .osc .disable,
          .exit (.device 0), .exit .detector] = some s ∧
      s.checkActive = true ∧ s.pending = .disabled ∧
      (s.subprocess .detector).proc.active = false ∧
      ∀ d, (s.subprocess (.device d)).proc.active = false := by
    refine ⟨_, rfl, rfl, rfl, rfl, fun d => ?_⟩
    cases d with
    | zero => rfl
    | succ d => rfl
  refine ⟨s, hrun, disabled_of_stopped Env.reliable ⟨_, _, init_reliableStart, hrun⟩ hcheck
    hpending fun who => ?_⟩
  cases who with
  | detector => exact hdetector
  | device d => exact hdevices d

end Serialosc
