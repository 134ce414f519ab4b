import Serialosc.Supervisor.Log

/-!
# Properties of each subprocess

A subprocess moves in few ways: it is launched, it exits, its handles leave
the loop, and the loop goes through its phases around it.  A property that
these moves preserve holds of every subprocess in every reachable state, and
this is proved once, in `SubInvariant.invariant`.

`SettledInvariant` does the same for what holds while the supervisor is
disabled and no transition is under way.
-/

namespace Serialosc

open ByteMemory Runs

/-- The tag that the process handle of a launched subprocess carries. -/
def ProcessId.tag : ProcessId → SubprocessType
  | .detector => .detectorType
  | .device _ => .deviceType

/-- The moves of a subprocess after its launch preserve `P`. -/
structure SubMoves (P : Phase → ProcessId → SoscSubprocess → Prop) : Prop where
  exited : ∀ who sub, P .poll who sub → sub.proc.active = true → P .poll who sub.exited
  poll : ∀ who sub, P .idle who sub → P .poll who sub
  beginClosing : ∀ who sub, P .poll who sub →
    P .closing who (sub.map Uv.Handle.beginClosing)
  closed : ∀ who sub member, P .closing who sub →
    (sub.handle member).stage = .finishing → P .closing who (sub.closed member)
  endIteration : ∀ who sub, P .closing who sub → ¬ sub.Finishing → P .idle who sub

/-- All moves of a subprocess preserve `P`. -/
structure SubInvariant (env : Env) (P : Phase → ProcessId → SoscSubprocess → Prop) : Prop
    extends SubMoves P where
  absent : ∀ phase who, P phase who {}
  launched : ∀ phase who sub, P phase who sub → P phase who (sub.launched who.tag)
  launchFailed : (∃ k, env.uvSpawn k ≠ 0) →
    ∀ phase who sub, P phase who sub → P phase who (sub.launchFailed env)

/-- The events that can start a process `who`. -/
def MayLaunch (s : SoscSupervisor) : ProcessId → Event → Prop
  | .detector, .osc .enable => True
  | .device d, .detectorRead _ => d = s.devices.length
  | _, _ => False

/-- What `uv_spawn` returns for the subprocess `who` in an event, if it is
called. -/
def launchedBy (env : Env) (self : SoscSupervisor) (who : ProcessId) : Event → List ℤ
  | .osc .enable =>
      if who = .detector ∧ self.state = .disabled ∧ self.checkActive = false then
        [env.uvSpawn self.calls]
      else []
  | .detectorRead (.deviceConnection _) =>
      if who = .device self.devices.length ∧ env.calloc self.calls = true then
        [env.uvSpawn (self.calls + 1)]
      else []
  | _ => []

/-- The handles of the subprocess `who` after an event that may launch it. -/
inductive LaunchOutcome (env : Env) (self : SoscSupervisor) (who : ProcessId) (e : Event)
    (after : SoscSubprocess) : Prop
  | unchanged (hby : launchedBy env self who e = []) (hsub : after = self.subprocess who)
  | launched (hby : launchedBy env self who e = [0])
      (hsub : after = (self.subprocess who).launched who.tag)
  | failed (k : ℕ) (herr : env.uvSpawn k ≠ 0)
      (hby : launchedBy env self who e = [env.uvSpawn k])
      (hsub : after = (self.subprocess who).launchFailed env)

/-- What an event does to the handles of the subprocess `who`, if it does not
launch it. -/
def SoscSubprocess.moved (sub : SoscSubprocess) (who : ProcessId) : Event → SoscSubprocess
  | .exit who' => if who' = who then sub.exited else sub
  | .check => sub.map Uv.Handle.beginClosing
  | .closed id => if id.who = who then sub.closed id.member else sub
  | _ => sub

/-- The phase after an event. -/
def Phase.next (phase : Phase) : Event → Phase
  | .idle => .poll
  | .check => .closing
  | .endIteration => .idle
  | _ => phase

/-- Every subprocess satisfies `P`. -/
def EachSub (P : Phase → ProcessId → SoscSubprocess → Prop) (s : SoscSupervisor) : Prop :=
  ∀ who, P s.phase who (s.subprocess who)

section

variable {env : Env} {P : Phase → ProcessId → SoscSubprocess → Prop}
  {self self' : SoscSupervisor}

/-- Whether a subprocess is still `{}` or has just been appended. -/
theorem subprocess_append (self : SoscSupervisor) (dev : SoscDeviceSubprocess)
    (who : ProcessId) :
    ({ self with devices := self.devices ++ [dev] } : SoscSupervisor).subprocess who =
      if who = .device self.devices.length then dev.subprocess else self.subprocess who := by
  cases who with
  | detector => simp [SoscSupervisor.subprocess]
  | device d =>
    rcases Nat.lt_trichotomy d self.devices.length with hlt | heq | hgt
    · have hne : d ≠ self.devices.length := Nat.ne_of_lt hlt
      simp [SoscSupervisor.subprocess, List.getElem?_append_left hlt, hne]
    · subst heq
      simp [SoscSupervisor.subprocess]
    · have hne : d ≠ self.devices.length := Nat.ne_of_gt hgt
      have hnone : self.devices[d]? = none := List.getElem?_eq_none (Nat.le_of_lt hgt)
      have hnone' : (self.devices ++ [dev])[d]? = none :=
        List.getElem?_eq_none (by rw [List.length_append]; exact hgt)
      simp [SoscSupervisor.subprocess, hnone, hnone', hne]

/-- A message from the detector affects the next device at most. -/
theorem handleDetectorMsg_others (env : Env) (self : SoscSupervisor) (msg : IpcMsg)
    {who : ProcessId} (hne : who ≠ .device self.devices.length) :
    (handleDetectorMsg env self msg).subprocess who = self.subprocess who := by
  cases msg with
  | deviceConnection devnode =>
    have hspec := handleConnection_spec env self devnode
    have happend (dev : SoscDeviceSubprocess) :=
      subprocess_append (self.tick.tick.emit (deviceSpawn env self devnode)) dev who
    simp only [handleDetectorMsg]
    generalize handleConnection env self devnode = r at hspec
    cases hspec with
    | noMemory hcalloc => rfl
    | launchFailed hcalloc herr => exact (happend _).trans (if_neg hne)
    | launched hcalloc herr => exact (happend _).trans (if_neg hne)
  | _ => rfl

/-- The idle watcher does not touch a handle. -/
theorem stateChangeCheck_sub (self : SoscSupervisor) (who : ProcessId) :
    ((if self.checkActive then stateChangeCheckCb self else self).enter .poll).subprocess who =
      self.subprocess who := by
  split
  · rcases stateChangeCheckCb_cases self with heq | ⟨heq, -⟩ <;> rw [heq] <;> rfl
  · rfl

/-- Draining and then closing: what the subprocesses see of the check phase. -/
theorem check_sub (self : SoscSupervisor) (who : ProcessId) :
    (beginClosing (if self.drainActive then drainNotificationsCb self else self)).subprocess
        who = (self.subprocess who).map Uv.Handle.beginClosing := by
  rw [subprocess_beginClosing]
  split <;> rfl

theorem inLoop_of_finishing {h : Uv.Handle SubprocessType} (hstage : h.stage = .finishing) :
    h.InLoop := by
  rw [Uv.Handle.InLoop, hstage]
  exact Uv.Stage.noConfusion

theorem not_finishing (hdone : ∀ who ∈ self.processes, ¬ (self.subprocess who).Finishing)
    (who : ProcessId) : ¬ (self.subprocess who).Finishing := by
  by_cases hhas : self.Has who
  · exact hdone who (SoscSupervisor.mem_processes.mpr hhas)
  · rw [SoscSupervisor.subprocess_eq_of_not_has hhas]
    simp [SoscSubprocess.Finishing]

/-- No record of a subprocess is ever dropped. -/
theorem has_step {e : Event} (hstep : step env self e = some self') {who : ProcessId}
    (hhas : self.Has who) : self'.Has who := by
  cases stepped_of_step hstep with
  | idle hphase =>
    split
    · rcases stateChangeCheckCb_cases self with heq | ⟨heq, -⟩ <;> rw [heq] <;> exact hhas
    · exact hhas
  | osc req hphase =>
    cases req with
    | list host port => exact ((SameLoop.oscListDevices env self host port).has who).mpr hhas
    | notify host port => exact hhas
    | enable =>
      have hspec := supervisorChangeState_spec env self .enabled
      simp only [oscPollCb, supervisorEnable]
      generalize supervisorChangeState env self .enabled = r at hspec
      cases hspec <;> exact hhas
    | disable =>
      have hspec := supervisorChangeState_spec env self .disabled
      simp only [oscPollCb, supervisorDisable]
      generalize supervisorChangeState env self .disabled = r at hspec
      cases hspec <;> exact hhas
    | status host port => exact ((SameLoop.oscReportStatus env self host port).has who).mpr hhas
    | version host port =>
      exact ((SameLoop.oscReportVersion env self host port).has who).mpr hhas
  | detectorRead msg hphase hread =>
    cases who with
    | detector => exact trivial
    | device d =>
      cases msg with
      | deviceConnection devnode =>
        have hspec := handleConnection_spec env self devnode
        have hgrow (dev : SoscDeviceSubprocess) : d < (self.devices ++ [dev]).length := by
          rw [List.length_append]
          exact Nat.lt_add_right _ hhas
        simp only [handleDetectorMsg]
        generalize handleConnection env self devnode = r at hspec
        cases hspec with
        | noMemory hcalloc => exact hhas
        | launchFailed hcalloc herr => exact hgrow _
        | launched hcalloc herr => exact hgrow _
      | _ => exact hhas
  | deviceRead d msg hphase hread =>
    exact ((SameLoop.handleDeviceMsg env self d msg).has who).mpr hhas
  | exit who' hphase halive => exact ((processExit_spec halive).has who).mpr hhas
  | check hphase =>
    cases who with
    | detector => exact trivial
    | device d =>
      have hlen : (beginClosing (if self.drainActive then drainNotificationsCb self
          else self)).devices.length = self.devices.length := by
        split <;> exact List.length_map _
      rw [SoscSupervisor.Has, hlen]
      exact hhas
  | closed id hphase hfinishing =>
    exact ((closeCompleted_spec id (inLoop_of_finishing hfinishing)).has who).mpr hhas
  | endIteration hphase hdone => exact hhas

theorem phase_step {e : Event} (hstep : step env self e = some self') :
    self'.phase = self.phase.next e := by
  cases stepped_of_step hstep with
  | idle hphase => rfl
  | osc req hphase =>
    cases req with
    | list host port => exact (SameLoop.oscListDevices env self host port).phase
    | notify host port => rfl
    | enable =>
      have hspec := supervisorChangeState_spec env self .enabled
      simp only [oscPollCb, supervisorEnable]
      generalize supervisorChangeState env self .enabled = r at hspec
      cases hspec <;> rfl
    | disable =>
      have hspec := supervisorChangeState_spec env self .disabled
      simp only [oscPollCb, supervisorDisable]
      generalize supervisorChangeState env self .disabled = r at hspec
      cases hspec <;> rfl
    | status host port => exact (SameLoop.oscReportStatus env self host port).phase
    | version host port => exact (SameLoop.oscReportVersion env self host port).phase
  | detectorRead msg hphase hread => exact (handleDetectorMsg_keeps env self msg).1
  | deviceRead d msg hphase hread => exact (SameLoop.handleDeviceMsg env self d msg).phase
  | exit who hphase halive => exact (processExit_spec halive).phase
  | check hphase => rfl
  | closed id hphase hfinishing =>
    exact (closeCompleted_spec id (inLoop_of_finishing hfinishing)).phase
  | endIteration hphase hdone => rfl

/-- What an event does to the state of the supervisor and to a transition of it:
one is begun by a request, and ended by the idle watcher. -/
inductive ControlStep (env : Env) (self self' : SoscSupervisor) : Event → Prop
  | kept {e : Event} (hstate : self'.state = self.state) (hpending : self'.pending = self.pending)
      (hcheck : self'.checkActive = self.checkActive) : ControlStep env self self' e
  | enabling (hstate : self.state = .disabled) (hcheck : self.checkActive = false)
      (herr : env.uvSpawn self.calls = 0) (hpending' : self'.pending = .enabled)
      (hcheck' : self'.checkActive = true) : ControlStep env self self' (.osc .enable)
  | disabling (hstate : self.state = .enabled) (hcheck : self.checkActive = false)
      (hpending' : self'.pending = .disabled) (hcheck' : self'.checkActive = true) :
      ControlStep env self self' (.osc .disable)
  | ended (hcheck : self.checkActive = true)
      (hcount : self.pending = .disabled → subprocsRemaining self = 0)
      (hstate' : self'.state = self.pending) (hcheck' : self'.checkActive = false) :
      ControlStep env self self' .idle

theorem SameLoop.control {e : Event} (h : SameLoop self self') : ControlStep env self self' e :=
  .kept h.state h.pending h.checkActive

theorem SameLoopBut.control {who : ProcessId} {sub : SoscSubprocess} {e : Event}
    (h : SameLoopBut who self self' sub) : ControlStep env self self' e :=
  .kept h.state h.pending h.checkActive

theorem control_step {e : Event} (hstep : step env self e = some self') :
    ControlStep env self self' e := by
  cases stepped_of_step hstep with
  | idle hphase =>
    cases hcheck : self.checkActive with
    | false => exact .kept rfl rfl rfl
    | true =>
      rw [if_pos rfl]
      rcases stateChangeCheckCb_cases self with heq | ⟨heq, hcount⟩
      · rw [heq]
        exact .kept rfl rfl rfl
      · rw [heq]
        exact .ended hcheck hcount rfl rfl
  | osc req hphase =>
    cases req with
    | list host port => exact (SameLoop.oscListDevices env self host port).control
    | notify host port => exact .kept rfl rfl rfl
    | enable =>
      have hspec := supervisorChangeState_spec env self .enabled
      simp only [oscPollCb, supervisorEnable]
      generalize supervisorChangeState env self .enabled = r at hspec
      cases hspec with
      | rejected hreject => exact .kept rfl rfl rfl
      | launchFailed hstate hcheck herr => exact .kept rfl rfl rfl
      | launched hstate hcheck herr => exact .enabling hstate hcheck herr rfl rfl
    | disable =>
      have hspec := supervisorChangeState_spec env self .disabled
      simp only [oscPollCb, supervisorDisable]
      generalize supervisorChangeState env self .disabled = r at hspec
      cases hspec with
      | rejected hreject => exact .kept rfl rfl rfl
      | disabling hstate hcheck => exact .disabling hstate hcheck rfl rfl
    | status host port => exact (SameLoop.oscReportStatus env self host port).control
    | version host port => exact (SameLoop.oscReportVersion env self host port).control
  | detectorRead msg hphase hread =>
    obtain ⟨-, -, hstate, hpending, hcheck⟩ := handleDetectorMsg_keeps env self msg
    exact .kept hstate hpending hcheck
  | deviceRead d msg hphase hread => exact (SameLoop.handleDeviceMsg env self d msg).control
  | exit who hphase halive =>
    exact (processExit_spec halive : SameLoopBut who self (processExit env self who) _).control
  | check hphase =>
    split
    · exact .kept rfl rfl rfl
    · exact .kept rfl rfl rfl
  | closed id hphase hfinishing =>
    exact (closeCompleted_spec id (inLoop_of_finishing hfinishing)).control
  | endIteration hphase hdone => exact .kept rfl rfl rfl

theorem phase_of_mayLaunch {who : ProcessId} {e : Event}
    (hstep : step env self e = some self') (hlaunch : MayLaunch self who e) :
    self'.phase = self.phase := by
  rw [phase_step hstep]
  cases e with
  | osc req => rfl
  | detectorRead msg => rfl
  | _ => cases who <;> exact absurd hlaunch id

theorem launchedBy_eq_nil {who : ProcessId} {e : Event} (hlaunch : ¬ MayLaunch self who e) :
    launchedBy env self who e = [] := by
  cases e with
  | osc req =>
    cases req with
    | enable =>
      refine if_neg fun h => hlaunch ?_
      rw [h.1]
      exact trivial
    | _ => rfl
  | detectorRead msg =>
    cases msg with
    | deviceConnection devnode =>
      refine if_neg fun h => hlaunch ?_
      rw [h.1]
      exact rfl
    | _ => rfl
  | _ => rfl

/-- What a step that may launch a subprocess does to its handles. -/
theorem launch_step {who : ProcessId} {e : Event} (hstep : step env self e = some self')
    (hlaunch : MayLaunch self who e) : LaunchOutcome env self who e (self'.subprocess who) := by
  cases stepped_of_step hstep with
  | osc req hphase =>
    cases who with
    | device d => cases req <;> exact absurd hlaunch id
    | detector =>
      cases req with
      | enable =>
        have hspec := supervisorChangeState_spec env self .enabled
        simp only [oscPollCb, supervisorEnable]
        generalize supervisorChangeState env self .enabled = r at hspec
        cases hspec with
        | rejected hreject =>
          refine .unchanged (if_neg ?_) rfl
          rintro ⟨-, hstate, hcheck⟩
          rw [hstate, hcheck] at hreject
          exact hreject.elim SoscSupervisorState.noConfusion Bool.noConfusion
        | launchFailed hstate hcheck herr =>
          exact .failed _ herr (if_pos ⟨rfl, hstate, hcheck⟩) rfl
        | launched hstate hcheck herr =>
          refine .launched ?_ rfl
          rw [launchedBy, if_pos ⟨rfl, hstate, hcheck⟩, herr]
      | _ => exact absurd hlaunch id
  | detectorRead msg hphase hread =>
    cases who with
    | detector => exact absurd hlaunch id
    | device d =>
      obtain rfl : d = self.devices.length := hlaunch
      cases msg with
      | deviceConnection devnode =>
        have habsent : self.subprocess (.device self.devices.length) = {} :=
          SoscSupervisor.subprocess_eq_of_not_has (Nat.lt_irrefl _)
        have hspec := handleConnection_spec env self devnode
        have happend (dev : SoscDeviceSubprocess) :=
          subprocess_append (self.tick.tick.emit (deviceSpawn env self devnode)) dev
            (.device self.devices.length)
        simp only [handleDetectorMsg]
        generalize handleConnection env self devnode = r at hspec
        cases hspec with
        | noMemory hcalloc =>
          refine .unchanged (if_neg ?_) rfl
          rintro ⟨-, hcalloc'⟩
          exact Bool.noConfusion (hcalloc.symm.trans hcalloc')
        | launchFailed hcalloc herr =>
          refine .failed _ herr (if_pos ⟨rfl, hcalloc⟩) ?_
          rw [habsent]
          exact (happend _).trans (if_pos rfl)
        | launched hcalloc herr =>
          refine .launched ?_ ?_
          · rw [launchedBy, if_pos ⟨rfl, hcalloc⟩, herr]
          · rw [habsent]
            exact (happend _).trans (if_pos rfl)
      | _ => exact .unchanged rfl rfl
  | _ => cases who <;> exact absurd hlaunch id

/-- What a step that does not launch a subprocess does to its handles. -/
theorem subprocess_step (who : ProcessId) {e : Event} (hstep : step env self e = some self')
    (hlaunch : ¬ MayLaunch self who e) :
    self'.subprocess who = (self.subprocess who).moved who e := by
  cases stepped_of_step hstep with
  | idle hphase => exact stateChangeCheck_sub self who
  | osc req hphase =>
    cases req with
    | list host port => exact (SameLoop.oscListDevices env self host port).subprocess who
    | notify host port => exact (SameLoop.oscAddNotificationEndpoint self host port).subprocess who
    | enable =>
      cases who with
      | detector => exact absurd trivial hlaunch
      | device d =>
        have hspec := supervisorChangeState_spec env self .enabled
        simp only [oscPollCb, supervisorEnable]
        generalize supervisorChangeState env self .enabled = r at hspec
        cases hspec <;> rfl
    | disable =>
      have hspec := supervisorChangeState_spec env self .disabled
      simp only [oscPollCb, supervisorDisable]
      generalize supervisorChangeState env self .disabled = r at hspec
      cases hspec <;> rfl
    | status host port => exact (SameLoop.oscReportStatus env self host port).subprocess who
    | version host port => exact (SameLoop.oscReportVersion env self host port).subprocess who
  | detectorRead msg hphase hread =>
    have hne : who ≠ .device self.devices.length := by
      rintro rfl
      exact hlaunch rfl
    exact handleDetectorMsg_others env self msg hne
  | deviceRead d msg hphase hread => exact (SameLoop.handleDeviceMsg env self d msg).subprocess who
  | exit who' hphase halive =>
    rw [SoscSubprocess.moved]
    split
    · next heq =>
      rw [← heq]
      exact (processExit_spec halive).changed
    · next hne => exact (processExit_spec halive).others who (Ne.symm hne)
  | check hphase => exact check_sub self who
  | closed id hphase hfinishing =>
    have hspec := closeCompleted_spec id (inLoop_of_finishing hfinishing)
    rw [SoscSubprocess.moved]
    split
    · next heq =>
      rw [← heq]
      exact hspec.changed
    · next hne => exact hspec.others who (Ne.symm hne)
  | endIteration hphase hdone => rfl

/-- A step that does not launch a subprocess moves it at most. -/
theorem SubMoves.step (hP : SubMoves P) {who : ProcessId} {e : Event}
    (h : P self.phase who (self.subprocess who)) (hstep : step env self e = some self')
    (hlaunch : ¬ MayLaunch self who e) : P self'.phase who (self'.subprocess who) := by
  rw [subprocess_step who hstep hlaunch, phase_step hstep]
  cases stepped_of_step hstep with
  | idle hphase => exact hP.poll who _ (hphase ▸ h)
  | exit who' hphase halive =>
    rw [hphase] at h
    rw [hphase, SoscSubprocess.moved]
    split
    · next heq => exact hP.exited who _ h (heq ▸ halive)
    · exact h
  | check hphase => exact hP.beginClosing who _ (hphase ▸ h)
  | closed id hphase hfinishing =>
    rw [hphase] at h
    rw [hphase, SoscSubprocess.moved]
    split
    · next heq =>
      subst heq
      exact hP.closed id.who _ id.member h hfinishing
    · exact h
  | endIteration hphase hdone =>
    exact hP.endIteration who _ (hphase ▸ h) (not_finishing hdone who)
  | _ => exact h

namespace SubInvariant

theorem step (hP : SubInvariant env P) (h : EachSub P self) {e : Event}
    (hstep : step env self e = some self') : EachSub P self' := by
  intro who
  by_cases hlaunch : MayLaunch self who e
  · rw [phase_of_mayLaunch hstep hlaunch]
    cases launch_step hstep hlaunch with
    | unchanged hby hsub => exact hsub ▸ h who
    | launched hby hsub => exact hsub ▸ hP.launched _ _ _ (h who)
    | failed k herr hby hsub => exact hsub ▸ hP.launchFailed ⟨k, herr⟩ _ _ _ (h who)
  · exact hP.toSubMoves.step (h who) hstep hlaunch

/-- What the moves preserve holds of every subprocess in every reachable
state. -/
theorem invariant (hP : SubInvariant env P) : (supervisor env).Invariant (EachSub P) where
  init s hs := by
    obtain ⟨exeDir, configDir, herr, rfl⟩ := supervisor_init_iff.mp hs
    intro who
    cases who with
    | detector => exact hP.launched _ .detector _ (hP.absent _ _)
    | device d => exact hP.absent _ _
  step s e s' hs he := hP.step hs he

end SubInvariant

/-! ## While the supervisor is disabled -/

/-- What `R` says of a subprocess can be read off a count of zero, excludes
reading, and is not undone by what can happen without a transition. -/
structure SettledInvariant (env : Env) (P : Phase → ProcessId → SoscSubprocess → Prop)
    (R : SoscSubprocess → Prop) : Prop where
  sub : SubInvariant env P
  counted : ∀ phase who sub, P phase who sub → (sub.proc.InLoop → sub.proc.data = none) →
    R sub
  quiet : ∀ phase who sub, P phase who sub → R sub → sub.fromProc.active = false
  launchFailed : (∃ k, env.uvSpawn k ≠ 0) → ∀ sub, R sub → R (sub.launchFailed env)
  exited : ∀ who sub, P .poll who sub → R sub → sub.proc.active = true → R sub.exited
  beginClosing : ∀ sub, R sub → R (sub.map Uv.Handle.beginClosing)
  closed : ∀ who sub member, P .closing who sub → R sub →
    (sub.handle member).stage = .finishing → R (sub.closed member)

/-- `R` holds of every subprocess while the supervisor is disabled and no
transition is under way; and a transition always goes to the other state. -/
structure Settled (R : SoscSubprocess → Prop) (s : SoscSupervisor) : Prop where
  pending_ne : s.checkActive = true → s.pending ≠ s.state
  settled : s.state = .disabled → s.checkActive = false → ∀ who, R (s.subprocess who)

variable {R : SoscSubprocess → Prop}

theorem Settled.of_same (h : Settled R self) (hsame : SameLoop self self') :
    Settled R self' where
  pending_ne := by
    rw [hsame.checkActive, hsame.pending, hsame.state]
    exact h.pending_ne
  settled hstate hcheck who := by
    rw [hsame.state] at hstate
    rw [hsame.checkActive] at hcheck
    rw [hsame.subprocess]
    exact h.settled hstate hcheck who

theorem Settled.of_but {who : ProcessId} {sub : SoscSubprocess} (h : Settled R self)
    (hbut : SameLoopBut who self self' sub) (hsub : R (self.subprocess who) → R sub) :
    Settled R self' where
  pending_ne := by
    rw [hbut.checkActive, hbut.pending, hbut.state]
    exact h.pending_ne
  settled hstate hcheck who' := by
    rw [hbut.state] at hstate
    rw [hbut.checkActive] at hcheck
    by_cases heq : who' = who
    · rw [heq, hbut.changed]
      exact hsub (h.settled hstate hcheck who)
    · rw [hbut.others who' heq]
      exact h.settled hstate hcheck who'

namespace SettledInvariant

theorem idle (hR : SettledInvariant env P R) (hsub : EachSub P self) (h : Settled R self) :
    Settled R ((if self.checkActive then stateChangeCheckCb self else self).enter .poll) := by
  cases hcheck : self.checkActive with
  | false => exact ⟨h.pending_ne, h.settled⟩
  | true =>
    rw [if_pos rfl]
    rcases stateChangeCheckCb_cases self with heq | ⟨heq, hcount⟩
    · rw [heq]
      exact ⟨h.pending_ne, h.settled⟩
    · rw [heq]
      refine ⟨fun hactive => Bool.noConfusion hactive, fun hpending _ who => ?_⟩
      -- the count is zero, and a tagged process handle would be counted
      have hnone := (subprocsRemaining_eq_zero self).mp (hcount hpending) ⟨who, .proc⟩
      exact hR.counted _ who _ (hsub who) hnone

theorem osc (hR : SettledInvariant env P R) (h : Settled R self) (req : OscRequest) :
    Settled R (oscPollCb env self req) := by
  cases req with
  | list host port => exact h.of_same (SameLoop.oscListDevices env self host port)
  | notify host port => exact h.of_same (SameLoop.oscAddNotificationEndpoint self host port)
  | enable =>
    have hspec := supervisorChangeState_spec env self .enabled
    simp only [oscPollCb, supervisorEnable]
    generalize supervisorChangeState env self .enabled = r at hspec
    cases hspec with
    | rejected hreject => exact h
    | launchFailed hstate hcheck herr =>
      refine ⟨h.pending_ne, fun _ _ who => ?_⟩
      cases who with
      | detector => exact hR.launchFailed ⟨_, herr⟩ _ (h.settled hstate hcheck .detector)
      | device d => exact h.settled hstate hcheck (.device d)
    | launched hstate hcheck herr =>
      exact ⟨fun _ hpending => SoscSupervisorState.noConfusion (hpending.trans hstate),
        fun _ hactive => Bool.noConfusion hactive⟩
  | disable =>
    have hspec := supervisorChangeState_spec env self .disabled
    simp only [oscPollCb, supervisorDisable]
    generalize supervisorChangeState env self .disabled = r at hspec
    cases hspec with
    | rejected hreject => exact h
    | disabling hstate hcheck =>
      exact ⟨fun _ hpending => SoscSupervisorState.noConfusion (hpending.trans hstate),
        fun _ hactive => Bool.noConfusion hactive⟩
  | status host port => exact h.of_same (SameLoop.oscReportStatus env self host port)
  | version host port => exact h.of_same (SameLoop.oscReportVersion env self host port)

/-- Something is read only while the supervisor is not settled. -/
theorem busy_of_read (hR : SettledInvariant env P R) (hsub : EachSub P self)
    (h : Settled R self) {who : ProcessId}
    (hread : (self.subprocess who).fromProc.active = true) (hstate : self.state = .disabled) :
    self.checkActive = true := by
  by_contra hcheck
  have hgone := h.settled hstate (Bool.eq_false_of_not_eq_true hcheck) who
  rw [hR.quiet _ who _ (hsub who) hgone] at hread
  exact Bool.noConfusion hread

theorem detectorRead (hR : SettledInvariant env P R) (hsub : EachSub P self)
    (h : Settled R self) (hread : (self.subprocess .detector).fromProc.active = true)
    (msg : IpcMsg) : Settled R (handleDetectorMsg env self msg) := by
  have hbusy := hR.busy_of_read hsub h hread
  have hunsettled {s : SoscSupervisor} (hstate : s.state = self.state)
      (hcheck : s.checkActive = self.checkActive) (hpending : s.pending = self.pending) :
      Settled R s := by
    refine ⟨?_, fun hdisabled hidle => ?_⟩
    · rw [hcheck, hpending, hstate]
      exact h.pending_ne
    · rw [hcheck, hbusy (hstate ▸ hdisabled)] at hidle
      exact Bool.noConfusion hidle
  cases msg with
  | deviceConnection devnode =>
    have hspec := handleConnection_spec env self devnode
    simp only [handleDetectorMsg]
    generalize handleConnection env self devnode = r at hspec
    cases hspec with
    | noMemory hcalloc => exact hunsettled rfl rfl rfl
    | launchFailed hcalloc herr => exact hunsettled rfl rfl rfl
    | launched hcalloc herr => exact hunsettled rfl rfl rfl
  | _ => exact h

theorem step (hR : SettledInvariant env P R) (hsub : EachSub P self) (h : Settled R self)
    {e : Event} (hstep : step env self e = some self') : Settled R self' := by
  cases stepped_of_step hstep with
  | idle hphase => exact hR.idle hsub h
  | osc req hphase => exact hR.osc h req
  | detectorRead msg hphase hread => exact hR.detectorRead hsub h hread msg
  | deviceRead d msg hphase hread => exact h.of_same (SameLoop.handleDeviceMsg env self d msg)
  | exit who hphase halive =>
    exact h.of_but (processExit_spec halive) fun hgone =>
      hR.exited who _ (hphase ▸ hsub who) hgone halive
  | check hphase =>
    refine ⟨?_, fun hstate hcheck who => ?_⟩
    · split <;> exact h.pending_ne
    · rw [check_sub]
      refine hR.beginClosing _ (h.settled ?_ ?_ who)
      · rw [← hstate]
        split <;> rfl
      · rw [← hcheck]
        split <;> rfl
  | closed id hphase hfinishing =>
    exact h.of_but (closeCompleted_spec id (inLoop_of_finishing hfinishing)) fun hgone =>
      hR.closed id.who _ id.member (hphase ▸ hsub id.who) hgone hfinishing
  | endIteration hphase hdone => exact ⟨h.pending_ne, h.settled⟩

theorem invariant (hR : SettledInvariant env P R) :
    (supervisor env).Invariant fun s => EachSub P s ∧ Settled R s := by
  refine hR.sub.invariant.and_of (fun s hs => ?_) fun s e s' hsub h he => hR.step hsub h he
  obtain ⟨exeDir, configDir, herr, rfl⟩ := supervisor_init_iff.mp hs
  exact ⟨fun _ => SoscSupervisorState.noConfusion, fun _ hactive => Bool.noConfusion hactive⟩

end SettledInvariant

end

end Serialosc
