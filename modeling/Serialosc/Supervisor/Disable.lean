import Serialosc.Supervisor.Lifecycle

/-!
# What a disable request tells the subprocesses

An accepted disable request signals the detector and asks the devices that a
walk finds to exit.  The detector's pipe stays open until its exit callback,
so a device can still be launched after the walk; `noneUnasked_iff` says that
this is the only way in which a device remains that nobody has asked.

The walk goes by tags, and tags outlive the process.  `signalsLive_iff` says
when the signal and the requests reach live processes only.
-/

namespace Serialosc

open ByteMemory Runs

/-! ## Devices that were not asked to exit -/

/-- Since the last accepted disable request, device `d` has been asked to
exit. -/
def AskedToExit (d : ℕ) (log : List Effect) : Prop :=
  ∃ before after, log = before ++ .uvProcessKill .detector sigterm :: after ∧
    .uvProcessKill .detector sigterm ∉ after ∧ .uvWrite d .processShouldExit ∈ after

/-- While the supervisor is being disabled, it waits for no running device
that has not been asked to exit. -/
def NoneUnasked (s : SoscSupervisor) : Prop :=
  s.checkActive = true → s.pending = .disabled →
    ∀ d, StillRunning (.device d) s.log → AskedToExit d s.log

/-- A message of the detector launches a device while the supervisor is being
disabled. -/
def LaunchesWhileDisabling (env : Env) (s : SoscSupervisor) (e : Event) : Prop :=
  s.checkActive = true ∧ s.pending = .disabled ∧
    (∃ devnode, e = .detectorRead (.deviceConnection devnode)) ∧
    env.calloc s.calls = true ∧ env.uvSpawn (s.calls + 1) = 0

section

variable {env : Env} {self self' : SoscSupervisor}

theorem AskedToExit.append {d : ℕ} {log effects : List Effect} (h : AskedToExit d log)
    (hkill : .uvProcessKill .detector sigterm ∉ effects) : AskedToExit d (log ++ effects) := by
  obtain ⟨before, after, rfl, hafter, hwrite⟩ := h
  refine ⟨before, after ++ effects, by simp, fun hmem => ?_, List.mem_append_left _ hwrite⟩
  rcases List.mem_append.mp hmem with hmem | hmem
  · exact hafter hmem
  · exact hkill hmem

/-- The walk of an accepted disable request finds every running device. -/
theorem mem_killWrites_of_active (hK : Known self) {d : ℕ}
    (halive : (self.subprocess (.device d)).proc.active = true) :
    .uvWrite d .processShouldExit ∈ self.uvWalk.flatMap (killWrites self) := by
  have hsound := hK.sub (.device d)
  have hdata : (self.handle ⟨.device d, .proc⟩).data = some .deviceType :=
    hsound.tagged halive
  have hin : (self.handle ⟨.device d, .proc⟩).InLoop := by
    rw [Uv.Handle.InLoop, show (self.handle ⟨.device d, .proc⟩).stage = .registered from
      hsound.registered halive .proc]
    exact Uv.Stage.noConfusion
  refine List.mem_flatMap.mpr ⟨_, SoscSupervisor.mem_uvWalk.mpr hin, ?_⟩
  rw [killWrites, if_pos hdata]
  exact List.mem_singleton.mpr rfl

theorem kill_notMem_killWrites (who : ProcessId) (signum : ℤ) :
    .uvProcessKill who signum ∉ self.uvWalk.flatMap (killWrites self) := by
  intro hmem
  obtain ⟨id, -, hmem⟩ := List.mem_flatMap.mp hmem
  obtain ⟨d, heq, -, -⟩ := mem_killWrites hmem
  cases heq

/-- A transition to disabled begins with an accepted request and is otherwise
only waited for. -/
theorem disabling_step {e : Event} (hstep : step env self e = some self')
    (hcheck : self'.checkActive = true) (hpending : self'.pending = .disabled) :
    (self.checkActive = true ∧ self.pending = .disabled) ∨
      e = .osc .disable ∧ self.state = .enabled ∧ self.checkActive = false := by
  cases control_step hstep with
  | kept _ hpending' hcheck' => exact Or.inl ⟨hcheck' ▸ hcheck, hpending' ▸ hpending⟩
  | enabling _ _ _ hpending' _ => cases hpending'.symm.trans hpending
  | disabling hstate hcheck₀ _ _ => exact Or.inr ⟨rfl, hstate, hcheck₀⟩
  | ended _ _ _ hcheck' => cases hcheck'.symm.trans hcheck

/-- Only devices that have been allocated are written to. -/
def WritesKnown (s : SoscSupervisor) : Prop :=
  ∀ d msg, .uvWrite d msg ∈ s.log → d < s.devices.length

theorem writesKnown_invariant (env : Env) :
    (supervisor env).Invariant fun s => Known s ∧ WritesKnown s := by
  refine (known_invariant env).and_of (fun s hs => ?_) fun s e s' hK hknown hstep => ?_
  · obtain ⟨exeDir, configDir, herr, rfl⟩ := supervisor_init_iff.mp hs
    intro d msg hmem
    simp [SoscSupervisor.emit, SoscSupervisor.tick, supervisorInit, detectorSpawn] at hmem
  · intro d msg hmem
    obtain ⟨effects, hlog, hnew⟩ := step_log hstep
    have hhas : s.Has (.device d) := by
      rw [hlog] at hmem
      rcases List.mem_append.mp hmem with hmem | hmem
      · exact hknown d msg hmem
      · cases hnew.origin hmem with
        | write d id hstate hcheck hwho hin hdata =>
          rw [← hwho]
          exact SoscSupervisor.has_of_inLoop hin
    exact has_step hstep hhas

theorem noneUnasked_step (hK : Known self) (h : NoneUnasked self) {e : Event}
    (hgood : ¬ LaunchesWhileDisabling env self e)
    (hstep : step env self e = some self') : NoneUnasked self' := by
  intro hcheck hpending d hrun
  obtain ⟨effects, hlog, hnew⟩ := step_log hstep
  rw [hlog] at hrun ⊢
  rcases disabling_step hstep hcheck hpending with ⟨hcheck₀, hpending₀⟩ | ⟨rfl, hstate, hidle⟩
  · -- the transition was pending: nothing is launched, and no signal is sent
    have hspawn (file : CString) (args : List CString) :
        .uvSpawn (.device d) file args 0 ∉ effects := by
      intro hmem
      obtain ⟨hevent, hcalloc, herr⟩ := (hnew.origin hmem).deviceLaunch
      exact hgood ⟨hcheck₀, hpending₀, hevent, hcalloc, herr.symm⟩
    have hkill : .uvProcessKill .detector sigterm ∉ effects := by
      intro hmem
      cases hnew.origin hmem with
      | kill hstate hidle => exact Bool.noConfusion (hidle.symm.trans hcheck₀)
    exact (h hcheck₀ hpending₀ d (hrun.of_append hspawn).1).append hkill
  · -- the request has just been accepted: its walk finds every running device
    cases hnew with
    | silent e hsilent =>
      rcases hsilent with hdisabled | hactive
      · exact SoscSupervisorState.noConfusion (hdisabled.symm.trans hstate)
      · exact Bool.noConfusion (hidle.symm.trans hactive)
    | replied req effects hquery hsends hlist => exact absurd hquery id
    | disabling hstate hidle =>
      have hrun₀ : StillRunning (.device d) self.log := by
        refine (hrun.of_append fun file args hmem => ?_).1
        rcases List.mem_cons.mp hmem with heq | hmem
        · cases heq
        · obtain ⟨id, -, hmem⟩ := List.mem_flatMap.mp hmem
          obtain ⟨d', heq, -, -⟩ := mem_killWrites hmem
          cases heq
      exact ⟨self.log, _, rfl, kill_notMem_killWrites _ _,
        mem_killWrites_of_active hK ((hK.logTells (.device d)).mpr hrun₀)⟩

theorem noneUnasked_broken (hknown : WritesKnown self) {e : Event}
    (hbad : LaunchesWhileDisabling env self e)
    (hstep : step env self e = some self') : ¬ NoneUnasked self' := by
  obtain ⟨hcheck, hpending, ⟨devnode, rfl⟩, hcalloc, herr⟩ := hbad
  intro h
  cases stepped_of_step hstep with
  | detectorRead msg hphase hread =>
    have hspec := handleConnection_spec env self devnode
    simp only [handleDetectorMsg] at h
    generalize handleConnection env self devnode = r at hspec h
    cases hspec with
    | noMemory hcalloc' => exact Bool.noConfusion (hcalloc'.symm.trans hcalloc)
    | launchFailed hcalloc' herr' => exact absurd herr herr'
    | launched hcalloc' herr' =>
      have hrun := stillRunning_spawned (.device self.devices.length) self.log
        self.deviceExePath (deviceArgs self devnode)
      rw [← herr] at hrun
      obtain ⟨before, after, hlog, -, hwrite⟩ := h hcheck hpending self.devices.length hrun
      -- the device is new, so nothing can have been written to it
      have hmem : .uvWrite self.devices.length .processShouldExit ∈
          self.log ++ [deviceSpawn env self devnode] := by
        have hlog' : self.log ++ [deviceSpawn env self devnode] =
            before ++ .uvProcessKill .detector sigterm :: after := hlog
        rw [hlog']
        exact List.mem_append_right _ (List.mem_cons_of_mem _ hwrite)
      rcases List.mem_append.mp hmem with hmem | hmem
      · exact Nat.lt_irrefl _ (hknown _ _ hmem)
      · cases List.mem_singleton.mp hmem

/-- Along any run, no running device is left unasked if and only if no step
launches a device while the supervisor is being disabled. -/
theorem noneUnasked_iff (env : Env) {s₀ s : SoscSupervisor} {es : List Event}
    (hinit : (supervisor env).init s₀) (hrun : (supervisor env).exec s₀ es = some s) :
    (supervisor env).Along NoneUnasked s₀ es ↔
      (supervisor env).StepsMeet (fun s e => ¬ LaunchesWhileDisabling env s e) s₀ es := by
  have hI := writesKnown_invariant env
  refine EventSystem.along_iff_stepsMeet hI (fun s e s' hs hP hgood hstep => ?_)
    (fun s e s' hs _ hbad hstep => ?_) (hI.init s₀ hinit) ?_ hrun
  · exact noneUnasked_step hs.1 hP hgood hstep
  · exact noneUnasked_broken hs.2 (not_not.mp hbad) hstep
  · obtain ⟨exeDir, configDir, herr, rfl⟩ := supervisor_init_iff.mp hinit
    exact fun _ hpending => SoscSupervisorState.noConfusion hpending

/-- A device node, as a detector reports it. -/
def sampleDevnode : CString := .ofString "/dev/ttyUSB0"

/-- A device that is reported after the disable request is launched all the
same, and nobody asks it to exit. -/
theorem noneUnasked_fails :
    ∃ s, (supervisor Env.reliable).exec reliableStart
        [.idle, .osc .disable, .detectorRead (.deviceConnection sampleDevnode)] = some s ∧
      s.checkActive = true ∧ s.pending = .disabled ∧
      StillRunning (.device 0) s.log ∧ ¬ AskedToExit 0 s.log := by
  refine ⟨_, rfl, rfl, rfl, ⟨_, _, _, [], rfl, List.not_mem_nil⟩, ?_⟩
  rintro ⟨before, after, hlog, -, hwrite⟩
  have hmem : Effect.uvWrite 0 .processShouldExit ∈
      before ++ .uvProcessKill .detector sigterm :: after :=
    List.mem_append_right _ (List.mem_cons_of_mem _ hwrite)
  rw [← hlog] at hmem
  revert hmem
  decide

/-- A device that is reported before the disable request is asked to exit. -/
theorem noneUnasked_iff_disabling :
    (supervisor Env.reliable).Along NoneUnasked reliableStart
      [.idle, .detectorRead (.deviceConnection sampleDevnode), .osc .disable] := by
  refine (noneUnasked_iff Env.reliable init_reliableStart rfl).mpr
    ⟨?_, fun s hs => ⟨?_, fun _ _ => ⟨?_, fun _ _ => trivial⟩⟩⟩
  · rintro ⟨-, -, ⟨devnode, heq⟩, -⟩
    cases heq
  · rintro ⟨hcheck, -⟩
    obtain rfl := Option.some.inj hs
    cases hcheck
  · rintro ⟨-, -, ⟨devnode, heq⟩, -⟩
    cases heq

/-! ## Signals to the dead -/

/-- Every signal and every request to exit in the log went to a process that
had not exited. -/
def SignalsLive (log : List Effect) : Prop :=
  (∀ before after who signum, log = before ++ .uvProcessKill who signum :: after →
    StillRunning who before) ∧
  ∀ before after d msg, log = before ++ .uvWrite d msg :: after →
    StillRunning (.device d) before

/-- The detector is running, and so is every device that a walk still finds. -/
def AllRunning (s : SoscSupervisor) : Prop :=
  s.detector.proc.active = true ∧
    ∀ d, (s.subprocess (.device d)).proc.InLoop →
      (s.subprocess (.device d)).proc.data = some .deviceType →
        (s.subprocess (.device d)).proc.active = true

/-- If the event is a disable request that will be accepted, then all
subprocesses are running. -/
def DisablesRunning (s : SoscSupervisor) (e : Event) : Prop :=
  e = .osc .disable → s.state = .enabled → s.checkActive = false → AllRunning s

/-- A tagged handle that belongs to a device is its process handle. -/
theorem proc_of_tagged (hK : Known self) {id : HandleId} {d : ℕ} (hwho : id.who = .device d)
    (hdata : (self.handle id).data = some .deviceType) : id = ⟨.device d, .proc⟩ := by
  obtain ⟨who, member⟩ := id
  obtain rfl : who = .device d := hwho
  obtain ⟨hto, hfrom⟩ := (hK.sub (.device d)).untagged
  cases member with
  | proc => rfl
  | toProc => cases hto.symm.trans hdata
  | fromProc => cases hfrom.symm.trans hdata

theorem signalsLive_step (hK : Known self) (h : SignalsLive self.log) {e : Event}
    (hgood : DisablesRunning self e) (hstep : step env self e = some self') :
    SignalsLive self'.log := by
  obtain ⟨effects, hlog, hnew⟩ := step_log hstep
  rw [hlog]
  -- what comes before in the same step does not include an exit
  have hlive {who : ProcessId} {mid after : List Effect} {x : Effect}
      (heffects : effects = mid ++ x :: after) (hdisable : e = .osc .disable)
      (halive : (self.subprocess who).proc.active = true) :
      StillRunning who (self.log ++ mid) := by
    refine ((hK.logTells who).mp halive).append fun hmem => ?_
    have hmem' : .processExited who ∈ effects := heffects ▸ List.mem_append_left _ hmem
    subst hdisable
    cases hnew.origin hmem'
  refine ⟨fun before after who signum heq => ?_, fun before after d msg heq => ?_⟩
  · rcases append_eq_split heq with ⟨mid, hbefore, -⟩ | ⟨mid, rfl, heffects⟩
    · exact h.1 before mid who signum hbefore
    · have hmem : .uvProcessKill who signum ∈ effects :=
        heffects ▸ List.mem_append_right mid List.mem_cons_self
      have hdisable : e = .osc .disable ∧ self.state = .enabled ∧
          self.checkActive = false ∧ who = .detector := by
        cases hnew.origin hmem with
        | kill hstate hcheck => exact ⟨rfl, hstate, hcheck, rfl⟩
      obtain ⟨hevent, hstate, hcheck, rfl⟩ := hdisable
      exact hlive heffects hevent (hgood hevent hstate hcheck).1
  · rcases append_eq_split heq with ⟨mid, hbefore, -⟩ | ⟨mid, rfl, heffects⟩
    · exact h.2 before mid d msg hbefore
    · have hmem : .uvWrite d msg ∈ effects :=
        heffects ▸ List.mem_append_right mid List.mem_cons_self
      have hdisable : e = .osc .disable ∧ self.state = .enabled ∧
          self.checkActive = false ∧ ∃ id : HandleId, id.who = .device d ∧
            (self.handle id).InLoop ∧ (self.handle id).data = some .deviceType := by
        cases hnew.origin hmem with
        | write d id hstate hcheck hwho hin hdata =>
          exact ⟨rfl, hstate, hcheck, id, hwho, hin, hdata⟩
      obtain ⟨hevent, hstate, hcheck, id, hwho, hin, hdata⟩ := hdisable
      obtain rfl := proc_of_tagged hK hwho hdata
      exact hlive heffects hevent ((hgood hevent hstate hcheck).2 d hin hdata)

theorem signalsLive_broken (hK : Known self) {e : Event}
    (hbad : ¬ DisablesRunning self e) (hstep : step env self e = some self') :
    ¬ SignalsLive self'.log := by
  simp only [DisablesRunning, not_forall] at hbad
  obtain ⟨rfl, hstate, hcheck, hbad⟩ := hbad
  intro h
  obtain ⟨effects, hlog, hnew⟩ := step_log hstep
  cases hnew with
  | silent e hsilent =>
    rcases hsilent with hdisabled | hactive
    · exact SoscSupervisorState.noConfusion (hdisabled.symm.trans hstate)
    · exact Bool.noConfusion (hcheck.symm.trans hactive)
  | replied req effects hquery hsends hlist => exact hquery
  | disabling _ _ =>
    refine hbad ⟨?_, fun d hin hdata => ?_⟩
    · exact (hK.logTells .detector).mpr (h.1 self.log _ .detector sigterm hlog)
    · have hwrite : .uvWrite d .processShouldExit ∈ self.uvWalk.flatMap (killWrites self) := by
        refine List.mem_flatMap.mpr ⟨⟨.device d, .proc⟩, SoscSupervisor.mem_uvWalk.mpr hin, ?_⟩
        rw [killWrites, if_pos (show (self.handle ⟨.device d, .proc⟩).data = _ from hdata)]
        exact List.mem_singleton.mpr rfl
      obtain ⟨pre, post, hsplit⟩ := List.append_of_mem hwrite
      have hrun := h.2 (self.log ++ .uvProcessKill .detector sigterm :: pre) post d
        .processShouldExit (by rw [hlog, hsplit]; simp)
      refine (hK.logTells (.device d)).mpr (hrun.of_append fun file args hmem => ?_).1
      rcases List.mem_cons.mp hmem with heq | hmem
      · cases heq
      · have hmem' : .uvSpawn (.device d) file args 0 ∈
            self.uvWalk.flatMap (killWrites self) := hsplit ▸ List.mem_append_left _ hmem
        obtain ⟨id, -, hmem'⟩ := List.mem_flatMap.mp hmem'
        obtain ⟨d', heq, -, -⟩ := mem_killWrites hmem'
        cases heq

/-- Along any run, only live processes are signalled and asked to exit if and
only if every accepted disable request finds all subprocesses running. -/
theorem signalsLive_iff (env : Env) {s₀ s : SoscSupervisor} {es : List Event}
    (hinit : (supervisor env).init s₀) (hrun : (supervisor env).exec s₀ es = some s) :
    (supervisor env).Along (fun s => SignalsLive s.log) s₀ es ↔
      (supervisor env).StepsMeet DisablesRunning s₀ es := by
  have hI := known_invariant env
  refine EventSystem.along_iff_stepsMeet hI (fun s e s' hs hP hgood hstep => ?_)
    (fun s e s' hs _ hbad hstep => ?_) (hI.init s₀ hinit) ?_ hrun
  · exact signalsLive_step hs hP hgood hstep
  · exact signalsLive_broken hs hbad hstep
  · obtain ⟨exeDir, configDir, herr, rfl⟩ := supervisor_init_iff.mp hinit
    refine ⟨fun before after who signum heq => ?_, fun before after d msg heq => ?_⟩
    · have hmem : Effect.uvProcessKill who signum ∈ before ++ .uvProcessKill who signum :: after :=
        List.mem_append_right before List.mem_cons_self
      rw [← heq] at hmem
      cases List.mem_singleton.mp hmem
    · have hmem : Effect.uvWrite d msg ∈ before ++ .uvWrite d msg :: after :=
        List.mem_append_right before List.mem_cons_self
      rw [← heq] at hmem
      cases List.mem_singleton.mp hmem

/-- A detector that has exited by itself is signalled all the same. -/
theorem signalsLive_fails :
    ∃ s, (supervisor Env.reliable).exec reliableStart
        [.idle, .exit .detector, .osc .disable] = some s ∧ ¬ SignalsLive s.log := by
  refine ⟨_, rfl, fun h => ?_⟩
  have hexit : ¬ StillRunning .detector
      (reliableStart.log ++ [.processExited .detector]) := by
    intro hrun
    refine (hrun.of_append fun file args hmem => ?_).2 List.mem_cons_self
    cases List.mem_singleton.mp hmem
  exact hexit (h.1 (reliableStart.log ++ [.processExited .detector]) [] .detector sigterm rfl)

/-- A disable request ends the detector and a device, both of which are running. -/
theorem signalsLive_iff_disabling :
    (supervisor Env.reliable).Along (fun s => SignalsLive s.log) reliableStart
      [.idle, .detectorRead (.deviceConnection sampleDevnode), .osc .disable] := by
  refine (signalsLive_iff Env.reliable init_reliableStart rfl).mpr
    ⟨?_, fun s₁ hs₁ => ⟨?_, fun s₂ hs₂ => ⟨?_, fun _ _ => trivial⟩⟩⟩
  · exact fun heq => Event.noConfusion heq
  · exact fun heq => Event.noConfusion heq
  · obtain rfl := Option.some.inj hs₁
    obtain rfl := Option.some.inj hs₂
    refine fun _ _ _ => ⟨rfl, fun d hin _ => ?_⟩
    cases d with
    | zero => rfl
    | succ d => exact absurd rfl hin

end

end Serialosc
