import Serialosc.Supervisor.Subprocess

/-!
# Running processes

What an active process handle tells, in every run: its pipes are open, it is
tagged, and the log has its launch but not yet its exit.
-/

namespace Serialosc

open ByteMemory Runs

/-- An active process has its three handles open and its tag set, and only
active processes are read from.  The pipes never get a tag. -/
structure Sound (_phase : Phase) (who : ProcessId) (sub : SoscSubprocess) : Prop where
  registered : sub.proc.active = true → ∀ member, (sub.handle member).stage = .registered
  tagged : sub.proc.active = true → sub.proc.data = some who.tag
  reading : sub.fromProc.active = true → sub.proc.active = true
  untagged : sub.toProc.data = none ∧ sub.fromProc.data = none

/-- Nothing of an active process can be finishing its close. -/
theorem Sound.dead {phase : Phase} {who : ProcessId} {sub : SoscSubprocess}
    (h : Sound phase who sub) {member : SubprocessMember}
    (hfinishing : (sub.handle member).stage = .finishing) : sub.proc.active = false := by
  by_contra halive
  have hreg := h.registered (Bool.eq_true_of_not_eq_false halive) member
  rw [hfinishing] at hreg
  cases hreg

/-- Closing a handle does not revive a process. -/
theorem active_closed {sub : SoscSubprocess} (hdead : sub.proc.active = false)
    (member : SubprocessMember) : (sub.closed member).proc.active = false := by
  cases member with
  | proc => exact hdead
  | toProc => exact hdead
  | fromProc => rfl

theorem active_launchFailed {env : Env} {sub : SoscSubprocess}
    (hactive : (sub.launchFailed env).proc.active = true) :
    sub.proc.active = true ∧ (sub.launchFailed env).proc = sub.proc := by
  cases hinit : env.failedSpawnInits with
  | false =>
    have heq : (sub.launchFailed env).proc = sub.proc := by
      simp [SoscSubprocess.launchFailed, hinit]
    exact ⟨heq ▸ hactive, heq⟩
  | true =>
    simp [SoscSubprocess.launchFailed, hinit] at hactive

theorem sound_subInvariant (env : Env) : SubInvariant env Sound where
  absent _ _ := ⟨Bool.noConfusion, Bool.noConfusion, Bool.noConfusion, rfl, rfl⟩
  launched _ _ _ h :=
    ⟨fun _ member => by cases member <;> rfl, fun _ => rfl, fun _ => rfl, h.untagged⟩
  launchFailed _ _ _ sub h := by
    refine ⟨fun hactive member => ?_, fun hactive => ?_, Bool.noConfusion, h.untagged⟩
    · obtain ⟨hactive', heq⟩ := active_launchFailed hactive
      cases member with
      | proc => exact (congrArg Uv.Handle.stage heq).trans (h.registered hactive' .proc)
      | toProc => rfl
      | fromProc => rfl
    · obtain ⟨hactive', heq⟩ := active_launchFailed hactive
      exact (congrArg Uv.Handle.data heq).trans (h.tagged hactive')
  exited _ _ h _ := ⟨Bool.noConfusion, Bool.noConfusion, Bool.noConfusion, h.untagged⟩
  poll _ _ h := ⟨h.registered, h.tagged, h.reading, h.untagged⟩
  beginClosing _ sub h := by
    refine ⟨fun hactive member => ?_, h.tagged, h.reading, h.untagged⟩
    have hreg := h.registered hactive member
    cases member with
    | proc => exact (Uv.Handle.stage_beginClosing_of_registered _ hreg)
    | toProc => exact (Uv.Handle.stage_beginClosing_of_registered _ hreg)
    | fromProc => exact (Uv.Handle.stage_beginClosing_of_registered _ hreg)
  closed who sub member h hfinishing := by
    have hdead := h.dead hfinishing
    have hdead' := active_closed hdead member
    refine ⟨fun hactive => ?_, fun hactive => ?_, fun hread => ?_, ?_⟩
    · exact Bool.noConfusion (hdead'.symm.trans hactive)
    · exact Bool.noConfusion (hdead'.symm.trans hactive)
    · have hread' : sub.fromProc.active = true := by
        cases member <;> exact hread
      exact Bool.noConfusion (hdead.symm.trans (h.reading hread'))
    · cases member <;> exact h.untagged
  endIteration _ _ h _ := ⟨h.registered, h.tagged, h.reading, h.untagged⟩

/-- The process is not running. -/
def Stopped (sub : SoscSubprocess) : Prop := sub.proc.active = false

theorem stopped_settledInvariant (env : Env) : SettledInvariant env Sound Stopped where
  sub := sound_subInvariant env
  counted _ who sub h hcount := by
    by_contra halive
    have halive' : sub.proc.active = true := Bool.eq_true_of_not_eq_false halive
    have hin : sub.proc.InLoop := by
      rw [Uv.Handle.InLoop, show sub.proc.stage = .registered from h.registered halive' .proc]
      exact Uv.Stage.noConfusion
    have hnone := hcount hin
    rw [h.tagged halive'] at hnone
    cases hnone
  quiet _ _ sub h hstopped := by
    by_contra hread
    rw [Stopped, h.reading (Bool.eq_true_of_not_eq_false hread)] at hstopped
    cases hstopped
  launchFailed _ sub hstopped := by
    by_contra halive
    have halive' := (active_launchFailed (Bool.eq_true_of_not_eq_false halive)).1
    rw [Stopped, halive'] at hstopped
    cases hstopped
  exited _ _ _ _ _ := rfl
  beginClosing _ h := h
  closed _ _ member _ h _ := active_closed h member

/-! ## Launches and exits -/

section

variable {env : Env} {self self' : SoscSupervisor}

/-- Between its launch and its exit, a process just runs. -/
theorem active_step (h : EachSub Sound self) (who : ProcessId) {e : Event}
    (hstep : step env self e = some self')
    (hlaunch : ¬ MayLaunch self who e) (hexit : e ≠ .exit who) :
    (self'.subprocess who).proc.active = (self.subprocess who).proc.active := by
  rw [subprocess_step who hstep hlaunch]
  cases stepped_of_step hstep with
  | exit who' hphase halive => rw [SoscSubprocess.moved, if_neg fun heq => hexit (by rw [heq])]
  | closed id hphase hfinishing =>
    by_cases heq : id.who = who
    · subst heq
      have hdead : (self.subprocess id.who).proc.active = false := (h id.who).dead hfinishing
      rw [SoscSubprocess.moved, if_pos rfl, active_closed hdead, hdead]
    · rw [SoscSubprocess.moved, if_neg heq]
  | _ => rfl

/-- The tag stays. -/
theorem data_step (who : ProcessId) {e : Event} (hstep : step env self e = some self')
    (hlaunch : ¬ MayLaunch self who e) :
    (self'.subprocess who).proc.data = (self.subprocess who).proc.data := by
  rw [subprocess_step who hstep hlaunch]
  cases e with
  | exit who' =>
    rw [SoscSubprocess.moved]
    split <;> rfl
  | closed id =>
    obtain ⟨who', member⟩ := id
    rw [SoscSubprocess.moved]
    split
    · cases member <;> rfl
    · rfl
  | _ => rfl

/-- The log has a successful launch of the process, and no exit after it. -/
def StillRunning (who : ProcessId) (log : List Effect) : Prop :=
  ∃ before file args after, log = before ++ .uvSpawn who file args 0 :: after ∧
    .processExited who ∉ after

theorem StillRunning.append {who : ProcessId} {log effects : List Effect}
    (h : StillRunning who log) (hexit : .processExited who ∉ effects) :
    StillRunning who (log ++ effects) := by
  obtain ⟨before, file, args, after, rfl, hafter⟩ := h
  refine ⟨before, file, args, after ++ effects, by simp, fun hmem => ?_⟩
  rcases List.mem_append.mp hmem with hmem | hmem
  · exact hafter hmem
  · exact hexit hmem

/-- An element of an appended list lies in one of the two parts. -/
theorem append_eq_split {log effects before after : List Effect} {x : Effect}
    (h : log ++ effects = before ++ x :: after) :
    (∃ mid, log = before ++ x :: mid ∧ after = mid ++ effects) ∨
      ∃ mid, before = log ++ mid ∧ effects = mid ++ x :: after := by
  rcases List.append_eq_append_iff.mp h with ⟨mid, hbefore, heffects⟩ | ⟨mid, hlog, hrest⟩
  · exact Or.inr ⟨mid, hbefore, heffects⟩
  · cases mid with
    | nil => exact Or.inr ⟨[], by simpa using hlog.symm, hrest.symm⟩
    | cons y mid =>
      obtain ⟨rfl, rfl⟩ : x = y ∧ after = mid ++ effects := by simpa using hrest
      exact Or.inl ⟨mid, hlog, rfl⟩

theorem StillRunning.of_append {who : ProcessId} {log effects : List Effect}
    (h : StillRunning who (log ++ effects))
    (hspawn : ∀ file args, .uvSpawn who file args 0 ∉ effects) :
    StillRunning who log ∧ .processExited who ∉ effects := by
  obtain ⟨before, file, args, after, heq, hafter⟩ := h
  rcases append_eq_split heq with ⟨mid, hlog, rfl⟩ | ⟨mid, hbefore, heffects⟩
  · exact ⟨⟨before, file, args, mid, hlog, fun hmem =>
      hafter (List.mem_append_left _ hmem)⟩, fun hmem =>
      hafter (List.mem_append_right _ hmem)⟩
  · exact absurd (heffects ▸ List.mem_append_right mid List.mem_cons_self) (hspawn file args)

/-- The log tells which processes are active. -/
def LogTells (s : SoscSupervisor) : Prop :=
  ∀ who, (s.subprocess who).proc.active = true ↔ StillRunning who s.log

/-- A launch is logged by an event that may launch. -/
theorem Origin.mayLaunch {e : Event} {who : ProcessId} {file : CString}
    {args : List CString} {err : ℤ} (h : Origin env self e (.uvSpawn who file args err)) :
    MayLaunch self who e := by
  cases h with
  | detectorSpawn hstate hcheck => exact trivial
  | deviceSpawn devnode hcalloc => exact rfl

theorem Origin.deviceLaunch {e : Event} {d : ℕ} {file : CString} {args : List CString}
    {err : ℤ} (h : Origin env self e (.uvSpawn (.device d) file args err)) :
    (∃ devnode, e = .detectorRead (.deviceConnection devnode)) ∧
      env.calloc self.calls = true ∧ err = env.uvSpawn (self.calls + 1) := by
  cases h with
  | deviceSpawn devnode hcalloc => exact ⟨⟨devnode, rfl⟩, hcalloc, rfl⟩

theorem NewEffects.exited_mem {who : ProcessId} {effects : List Effect}
    (h : NewEffects env self (.exit who) effects) : .processExited who ∈ effects := by
  cases h with
  | silent e hsilent => exact absurd hsilent id
  | exited who hquiet => exact List.mem_singleton.mpr rfl
  | removed d dev effects hdev hready hannounce => exact List.mem_cons_self

theorem stillRunning_append_iff {who : ProcessId} {log effects : List Effect}
    (hspawn : ∀ file args, .uvSpawn who file args 0 ∉ effects)
    (hexit : .processExited who ∉ effects) :
    StillRunning who (log ++ effects) ↔ StillRunning who log :=
  ⟨fun h => (h.of_append hspawn).1, fun h => h.append hexit⟩

theorem stillRunning_spawned (who : ProcessId) (log : List Effect) (file : CString)
    (args : List CString) : StillRunning who (log ++ [.uvSpawn who file args 0]) :=
  ⟨log, file, args, [], rfl, List.not_mem_nil⟩

theorem not_stillRunning_failed {who : ProcessId} {log : List Effect} {file : CString}
    {args : List CString} {err : ℤ} (herr : err ≠ 0) (hlog : ¬ StillRunning who log) :
    ¬ StillRunning who (log ++ [.uvSpawn who file args err]) := by
  intro hrun
  refine hlog (hrun.of_append fun file' args' hmem => herr ?_).1
  simp only [List.mem_singleton, Effect.uvSpawn.injEq] at hmem
  exact hmem.2.2.2.symm

theorem logTells_enable (hsettled : Settled Stopped self) (h : LogTells self) :
    ((supervisorEnable env self).1.subprocess .detector).proc.active = true ↔
      StillRunning .detector (supervisorEnable env self).1.log := by
  have hspec := supervisorChangeState_spec env self .enabled
  unfold supervisorEnable
  generalize supervisorChangeState env self .enabled = r at hspec
  cases hspec with
  | rejected hreject => exact h .detector
  | launchFailed hstate hcheck herr =>
    have hstopped : (self.subprocess .detector).proc.active = false :=
      hsettled.settled hstate hcheck .detector
    have hnot : ¬ StillRunning .detector self.log := by
      rw [← h .detector, hstopped]
      exact Bool.noConfusion
    refine iff_of_false (fun hactive => ?_) (not_stillRunning_failed herr hnot)
    exact Bool.noConfusion (hstopped.symm.trans (active_launchFailed hactive).1)
  | launched hstate hcheck herr =>
    refine iff_of_true rfl ?_
    have hrun := stillRunning_spawned .detector self.log self.detectorExePath
      [self.detectorExePath]
    rw [← herr] at hrun
    exact hrun

theorem logTells_detectorRead (h : LogTells self) (msg : IpcMsg) :
    ((handleDetectorMsg env self msg).subprocess (.device self.devices.length)).proc.active =
        true ↔
      StillRunning (.device self.devices.length) (handleDetectorMsg env self msg).log := by
  have habsent : self.subprocess (.device self.devices.length) = {} :=
    SoscSupervisor.subprocess_eq_of_not_has (Nat.lt_irrefl _)
  have hnot : ¬ StillRunning (.device self.devices.length) self.log := by
    rw [← h, habsent]
    exact Bool.noConfusion
  cases msg with
  | deviceConnection devnode =>
    have hspec := handleConnection_spec env self devnode
    have happend (dev : SoscDeviceSubprocess) :=
      subprocess_append (self.tick.tick.emit (deviceSpawn env self devnode)) dev
        (.device self.devices.length)
    simp only [handleDetectorMsg]
    generalize handleConnection env self devnode = r at hspec
    cases hspec with
    | noMemory hcalloc => exact h (.device self.devices.length)
    | launchFailed hcalloc herr =>
      refine iff_of_false (fun hactive => ?_) (not_stillRunning_failed herr hnot)
      have hsub := (happend { subprocess := ({} : SoscSubprocess).launchFailed env,
                              freed := true }).trans (if_pos rfl)
      have hactive' := (congrArg (fun sub : SoscSubprocess => sub.proc.active) hsub).symm.trans
        hactive
      exact Bool.noConfusion (active_launchFailed hactive').1
    | launched hcalloc herr =>
      have hsub := (happend { subprocess := ({} : SoscSubprocess).launched .deviceType }).trans
        (if_pos rfl)
      refine iff_of_true (congrArg (fun sub : SoscSubprocess => sub.proc.active) hsub) ?_
      have hrun := stillRunning_spawned (.device self.devices.length) self.log
        self.deviceExePath (deviceArgs self devnode)
      rw [← herr] at hrun
      exact hrun
  | _ => exact h (.device self.devices.length)

theorem LogTells.step (hsub : EachSub Sound self) (hsettled : Settled Stopped self)
    (h : LogTells self) {e : Event} (hstep : Serialosc.step env self e = some self') :
    LogTells self' := by
  intro who
  by_cases hexit : e = .exit who
  · subst hexit
    obtain ⟨effects, hlog, hnew⟩ := step_log hstep
    cases stepped_of_step hstep with
    | exit who hphase halive =>
      refine iff_of_false ?_ fun hrun => ?_
      · rw [(processExit_spec halive).changed]
        exact Bool.noConfusion
      · rw [hlog] at hrun
        refine (hrun.of_append fun file args hmem => ?_).2 hnew.exited_mem
        have hlaunch := (hnew.origin hmem).mayLaunch
        cases who <;> exact hlaunch
  · by_cases hlaunch : MayLaunch self who e
    · cases who with
      | detector =>
        cases stepped_of_step hstep with
        | osc req hphase =>
          cases req with
          | enable => exact logTells_enable hsettled h
          | _ => exact absurd hlaunch id
        | _ => exact absurd hlaunch id
      | device d =>
        cases stepped_of_step hstep with
        | detectorRead msg hphase hread =>
          have hd : d = self.devices.length := hlaunch
          subst hd
          exact logTells_detectorRead h msg
        | _ => exact absurd hlaunch id
    · obtain ⟨effects, hlog, hnew⟩ := step_log hstep
      rw [active_step hsub who hstep hlaunch hexit, hlog, stillRunning_append_iff, h who]
      · exact fun file args hmem => hlaunch (hnew.origin hmem).mayLaunch
      · intro hmem
        cases hnew.origin hmem with
        | exited who => exact hexit rfl

/-- What is known of every reachable state, whatever the calls return. -/
structure Known (s : SoscSupervisor) : Prop where
  sub : EachSub Sound s
  settled : Settled Stopped s
  logTells : LogTells s

/-- The log tells which processes are active, in every reachable state. -/
theorem known_invariant (env : Env) : (supervisor env).Invariant Known where
  init s hs := by
    obtain ⟨hsub, hsettled⟩ := (stopped_settledInvariant env).invariant.init s hs
    refine ⟨hsub, hsettled, ?_⟩
    obtain ⟨exeDir, configDir, herr, rfl⟩ := supervisor_init_iff.mp hs
    intro who
    cases who with
    | detector =>
      refine iff_of_true rfl ?_
      have hrun := stillRunning_spawned .detector []
        (supervisorInit exeDir configDir).detectorExePath
        [(supervisorInit exeDir configDir).detectorExePath]
      rw [← herr] at hrun
      exact hrun
    | device d =>
      refine iff_of_false Bool.noConfusion ?_
      rintro ⟨before, file, args, after, heq, -⟩
      have hmem : Effect.uvSpawn (.device d) file args 0 ∈
          before ++ .uvSpawn (.device d) file args 0 :: after :=
        List.mem_append_right before List.mem_cons_self
      rw [← heq] at hmem
      simp [SoscSupervisor.emit, SoscSupervisor.tick, supervisorInit, detectorSpawn] at hmem
  step s e s' hs he := by
    obtain ⟨hsub, hsettled⟩ :=
      (stopped_settledInvariant env).invariant.step s e s' ⟨hs.sub, hs.settled⟩ he
    exact ⟨hsub, hsettled, hs.logTells.step hs.sub hs.settled he⟩

end

end Serialosc
