import Serialosc.Supervisor.Running

/-!
# Enabling and disabling do not overlap

A subprocess is torn down in stages: its exit callback closes the pipes, the
close of the reading pipe closes the process handle, and that handle is the
last to leave the loop.  `Teardown` names the stages.  The idle watcher counts
tagged process handles, so once the count is zero nothing of any subprocess is
left.

All of this supposes that `uv_spawn` succeeds; what a failure leaves behind is
a subject of its own.
-/

namespace Serialosc

open ByteMemory Runs

/-! ## Stages of a teardown -/

/-- Where a subprocess stands between its launch and its last close. -/
inductive Teardown (phase : Phase) (sub : SoscSubprocess) : Prop
  | absent (hproc : sub.proc.stage = .unregistered)
      (hto : sub.toProc.stage = .unregistered) (hfrom : sub.fromProc.stage = .unregistered)
      (hdead : sub.proc.active = false) (hquiet : sub.fromProc.active = false)
  | running (hproc : sub.proc.stage = .registered)
      (hto : sub.toProc.stage = .registered) (hfrom : sub.fromProc.stage = .registered)
      (halive : sub.proc.active = true)
  | exited (hphase : phase = .poll) (hproc : sub.proc.stage = .registered)
      (hto : sub.toProc.stage = .closing) (hfrom : sub.fromProc.stage = .closing)
      (hdead : sub.proc.active = false) (hquiet : sub.fromProc.active = false)
  | pipesClosing (hphase : phase = .closing) (hproc : sub.proc.stage = .registered)
      (hto : sub.toProc.stage = .finishing ∨ sub.toProc.stage = .unregistered)
      (hfrom : sub.fromProc.stage = .finishing)
      (hdead : sub.proc.active = false) (hquiet : sub.fromProc.active = false)
  | procClosing (hproc : sub.proc.stage = .closing)
      (hto : sub.toProc.stage = .unregistered ∨
        phase = .closing ∧ sub.toProc.stage = .finishing)
      (hfrom : sub.fromProc.stage = .unregistered)
      (hdead : sub.proc.active = false) (hquiet : sub.fromProc.active = false)
  | procFinishing (hphase : phase = .closing) (hproc : sub.proc.stage = .finishing)
      (hto : sub.toProc.stage = .unregistered) (hfrom : sub.fromProc.stage = .unregistered)
      (hdead : sub.proc.active = false) (hquiet : sub.fromProc.active = false)

namespace Teardown

variable {phase : Phase} {sub : SoscSubprocess}

/-- The process handle is the last to leave the loop. -/
theorem not_inLoop (h : Teardown phase sub) (hproc : ¬ sub.proc.InLoop)
    (member : SubprocessMember) : ¬ (sub.handle member).InLoop := by
  have hgone : sub.proc.stage = .unregistered := not_not.mp hproc
  cases h with
  | absent _ hto hfrom _ _ =>
    cases member with
    | proc => exact hproc
    | toProc => exact not_not.mpr hto
    | fromProc => exact not_not.mpr hfrom
  | _ => simp_all

theorem dead (h : Teardown phase sub) (hproc : ¬ sub.proc.InLoop) :
    sub.proc.active = false := by
  have hgone : sub.proc.stage = .unregistered := not_not.mp hproc
  cases h with
  | absent _ _ _ hdead _ => exact hdead
  | _ => simp_all

theorem quiet (h : Teardown phase sub) (hproc : ¬ sub.proc.InLoop) :
    sub.fromProc.active = false := by
  have hgone : sub.proc.stage = .unregistered := not_not.mp hproc
  cases h with
  | absent _ _ _ _ hquiet => exact hquiet
  | _ => simp_all

theorem launched (sub : SoscSubprocess) (tag : SubprocessType) :
    Teardown phase (sub.launched tag) :=
  .running rfl rfl rfl rfl

theorem exit (h : Teardown .poll sub) (halive : sub.proc.active = true) :
    Teardown .poll sub.exited := by
  cases h with
  | running hproc hto hfrom _ => exact .exited rfl hproc rfl rfl rfl rfl
  | _ => simp_all

theorem poll (h : Teardown .idle sub) : Teardown .poll sub := by
  cases h with
  | absent hproc hto hfrom hdead hquiet => exact .absent hproc hto hfrom hdead hquiet
  | running hproc hto hfrom halive => exact .running hproc hto hfrom halive
  | exited hphase => exact Phase.noConfusion hphase
  | pipesClosing hphase => exact Phase.noConfusion hphase
  | procClosing hproc hto hfrom hdead hquiet =>
    exact .procClosing hproc (hto.imp_right fun h => Phase.noConfusion h.1) hfrom hdead hquiet
  | procFinishing hphase => exact Phase.noConfusion hphase

theorem beginClosing (h : Teardown .poll sub) :
    Teardown .closing (sub.map Uv.Handle.beginClosing) := by
  cases h with
  | absent hproc hto hfrom hdead hquiet =>
    exact .absent (by simp [SoscSubprocess.map, Uv.Handle.stage_beginClosing, hproc])
      (by simp [SoscSubprocess.map, Uv.Handle.stage_beginClosing, hto])
      (by simp [SoscSubprocess.map, Uv.Handle.stage_beginClosing, hfrom]) hdead hquiet
  | running hproc hto hfrom halive =>
    exact .running (by simp [SoscSubprocess.map, Uv.Handle.stage_beginClosing, hproc])
      (by simp [SoscSubprocess.map, Uv.Handle.stage_beginClosing, hto])
      (by simp [SoscSubprocess.map, Uv.Handle.stage_beginClosing, hfrom]) halive
  | exited _ hproc hto hfrom hdead hquiet =>
    exact .pipesClosing rfl
      (by simp [SoscSubprocess.map, Uv.Handle.stage_beginClosing, hproc])
      (Or.inl (by simp [SoscSubprocess.map, Uv.Handle.stage_beginClosing, hto]))
      (by simp [SoscSubprocess.map, Uv.Handle.stage_beginClosing, hfrom]) hdead hquiet
  | pipesClosing hphase => exact Phase.noConfusion hphase
  | procClosing hproc hto hfrom hdead hquiet =>
    have hto' : sub.toProc.stage = .unregistered :=
      hto.resolve_right fun h => Phase.noConfusion h.1
    exact .procFinishing rfl
      (by simp [SoscSubprocess.map, Uv.Handle.stage_beginClosing, hproc])
      (by simp [SoscSubprocess.map, Uv.Handle.stage_beginClosing, hto'])
      (by simp [SoscSubprocess.map, Uv.Handle.stage_beginClosing, hfrom]) hdead hquiet
  | procFinishing hphase => exact Phase.noConfusion hphase

theorem closed (h : Teardown .closing sub) (member : SubprocessMember)
    (hfinishing : (sub.handle member).stage = .finishing) :
    Teardown .closing (sub.closed member) := by
  cases member with
  | proc =>
    have hproc' : sub.proc.stage = .finishing := hfinishing
    cases h with
    | procFinishing _ hproc hto hfrom hdead hquiet => exact .absent rfl hto hfrom hdead hquiet
    | _ => simp_all
  | toProc =>
    have hto' : sub.toProc.stage = .finishing := hfinishing
    cases h with
    | pipesClosing _ hproc hto hfrom hdead hquiet =>
      exact .pipesClosing rfl hproc (Or.inr rfl) hfrom hdead hquiet
    | procClosing hproc hto hfrom hdead hquiet =>
      exact .procClosing hproc (Or.inl rfl) hfrom hdead hquiet
    | _ => simp_all
  | fromProc =>
    have hfrom' : sub.fromProc.stage = .finishing := hfinishing
    cases h with
    | pipesClosing _ hproc hto hfrom hdead hquiet =>
      exact .procClosing rfl (hto.symm.imp_right fun h => ⟨rfl, h⟩) rfl rfl hquiet
    | _ => simp_all

theorem endIteration (h : Teardown .closing sub) (hdone : ¬ sub.Finishing) :
    Teardown .idle sub := by
  obtain ⟨hproc', hrest⟩ := not_or.mp hdone
  obtain ⟨hto', hfrom'⟩ := not_or.mp hrest
  cases h with
  | absent hproc hto hfrom hdead hquiet => exact .absent hproc hto hfrom hdead hquiet
  | running hproc hto hfrom halive => exact .running hproc hto hfrom halive
  | exited hphase => exact Phase.noConfusion hphase
  | pipesClosing _ _ _ hfrom => exact absurd hfrom hfrom'
  | procClosing hproc hto hfrom hdead hquiet =>
    exact .procClosing hproc (hto.imp_right fun h => absurd h.2 hto') hfrom hdead hquiet
  | procFinishing _ hproc => exact absurd hproc hproc'

end Teardown

/-! ## The invariant -/

/-- A subprocess is somewhere in its teardown, and tagged as long as its
process handle is in the loop. -/
def Orderly (phase : Phase) (who : ProcessId) (sub : SoscSubprocess) : Prop :=
  Teardown phase sub ∧ (sub.proc.InLoop → sub.proc.data = some who.tag)

/-- The process handle has left the loop. -/
def Gone (sub : SoscSubprocess) : Prop := ¬ sub.proc.InLoop

theorem orderly_subMoves : SubMoves Orderly where
  exited _ _ h halive := ⟨h.1.exit halive, h.2⟩
  poll _ _ h := ⟨h.1.poll, h.2⟩
  beginClosing _ _ h :=
    ⟨h.1.beginClosing, fun hin => h.2 ((Uv.Handle.inLoop_beginClosing _).mp hin)⟩
  closed who sub member h hfinishing := by
    refine ⟨h.1.closed member hfinishing, fun _ => ?_⟩
    have hin : sub.proc.InLoop := by
      by_contra hgone
      exact h.1.not_inLoop hgone member (inLoop_of_finishing hfinishing)
    rw [← h.2 hin]
    cases member <;> rfl
  endIteration _ _ h hdone := ⟨h.1.endIteration hdone, h.2⟩

section

variable {env : Env} (hspawn : ∀ k, env.uvSpawn k = 0)

include hspawn

theorem orderly_subInvariant : SubInvariant env Orderly where
  toSubMoves := orderly_subMoves
  absent _ _ := ⟨.absent rfl rfl rfl rfl rfl, fun hin => absurd rfl hin⟩
  launched _ who sub _ := ⟨Teardown.launched sub who.tag, fun _ => rfl⟩
  launchFailed := by
    rintro ⟨k, herr⟩
    exact absurd (hspawn k) herr

theorem gone_settledInvariant : SettledInvariant env Orderly Gone where
  sub := orderly_subInvariant hspawn
  counted _ _ _ h hcount hin := by
    have hnone := hcount hin
    rw [h.2 hin] at hnone
    cases hnone
  quiet _ _ sub h hgone := h.1.quiet hgone
  launchFailed := by
    rintro ⟨k, herr⟩
    exact absurd (hspawn k) herr
  exited _ _ h hgone halive := by
    rw [h.1.dead hgone] at halive
    cases halive
  beginClosing _ hgone hin := hgone ((Uv.Handle.inLoop_beginClosing _).mp hin)
  closed _ _ member h hgone hfinishing :=
    absurd (inLoop_of_finishing hfinishing) (h.1.not_inLoop hgone member)

end

/-- The transitions keep step with the teardowns. -/
def InStep (s : SoscSupervisor) : Prop := EachSub Orderly s ∧ Settled Gone s

theorem InStep.invariant {env : Env} (hspawn : ∀ k, env.uvSpawn k = 0) :
    (supervisor env).Invariant InStep :=
  (gone_settledInvariant hspawn).invariant

/-- Settled in the disabled state, nothing at all is left in the loop. -/
theorem InStep.nothing_inLoop {self : SoscSupervisor} (h : InStep self)
    (hstate : self.state = .disabled) (hcheck : self.checkActive = false) (id : HandleId) :
    ¬ (self.handle id).InLoop :=
  (h.1 id.who).1.not_inLoop (h.2.settled hstate hcheck id.who) id.member

/-! ## Detector processes -/

/-- A detector process has been started. -/
def Effect.isDetectorStart : Effect → Bool
  | .uvSpawn .detector _ _ err => err = 0
  | _ => false

/-- The exit of a detector process has been reported. -/
def Effect.isDetectorExit : Effect → Bool
  | .processExited .detector => true
  | _ => false

/-- The detector processes that have been started but not reported to have
exited. -/
def OneDetector (s : SoscSupervisor) : Prop :=
  s.log.countP Effect.isDetectorStart =
    s.log.countP Effect.isDetectorExit + if s.detector.proc.active then 1 else 0

section

variable {env : Env} {self self' : SoscSupervisor}


theorem Origin.not_detector {e : Event} {x : Effect} (h : Origin env self e x)
    (henable : e ≠ .osc .enable) (hexit : e ≠ .exit .detector) :
    x.isDetectorStart = false ∧ x.isDetectorExit = false := by
  cases h with
  | detectorSpawn hstate hcheck => exact absurd rfl henable
  | exited who =>
    cases who with
    | detector => exact absurd rfl hexit
    | device d => exact ⟨rfl, rfl⟩
  | _ => exact ⟨rfl, rfl⟩

theorem OneDetector.of_append {effects : List Effect} (h : OneDetector self)
    (hlog : self'.log = self.log ++ effects)
    (hnone : ∀ x ∈ effects, x.isDetectorStart = false ∧ x.isDetectorExit = false)
    (hactive : self'.detector.proc.active = self.detector.proc.active) :
    OneDetector self' := by
  have hstart : effects.countP Effect.isDetectorStart = 0 :=
    List.countP_eq_zero.mpr fun x hx => by rw [(hnone x hx).1]; exact Bool.noConfusion
  have hexit : effects.countP Effect.isDetectorExit = 0 :=
    List.countP_eq_zero.mpr fun x hx => by rw [(hnone x hx).2]; exact Bool.noConfusion
  rw [OneDetector, hlog, hactive, List.countP_append, List.countP_append, hstart, hexit]
  exact h

theorem OneDetector.step (hK : Known self) (h : OneDetector self) {e : Event}
    (hstep : Serialosc.step env self e = some self') : OneDetector self' := by
  by_cases henable : e = .osc .enable
  · subst henable
    cases stepped_of_step hstep with
    | osc req hphase =>
      have hspec := supervisorChangeState_spec env self .enabled
      simp only [oscPollCb, supervisorEnable]
      generalize supervisorChangeState env self .enabled = r at hspec
      cases hspec with
      | rejected hreject => exact h
      | launchFailed hstate hcheck herr =>
        have hdead : self.detector.proc.active = false :=
          hK.settled.settled hstate hcheck .detector
        have hdead' : (self.detector.launchFailed env).proc.active = false := by
          by_contra hactive
          have halive := (active_launchFailed (Bool.eq_true_of_not_eq_false hactive)).1
          exact Bool.noConfusion (hdead.symm.trans halive)
        refine h.of_append rfl (fun x hx => ?_) (hdead'.trans hdead.symm)
        obtain rfl := List.mem_singleton.mp hx
        exact ⟨decide_eq_false herr, rfl⟩
      | launched hstate hcheck herr =>
        have hdead : self.detector.proc.active = false :=
          hK.settled.settled hstate hcheck .detector
        have hstart : (detectorSpawn env self).isDetectorStart = true := decide_eq_true herr
        have hexit : (detectorSpawn env self).isDetectorExit = false := rfl
        rw [OneDetector, hdead] at h
        simp [OneDetector, SoscSupervisor.emit, SoscSupervisor.tick, List.countP_append,
          hstart, hexit, SoscSubprocess.launched, h]
  · by_cases hexit : e = .exit .detector
    · subst hexit
      cases stepped_of_step hstep with
      | exit who hphase halive =>
        have hlog : (processExit env self .detector).log =
            self.log ++ [.processExited .detector] := rfl
        have hdead : (processExit env self .detector).detector.proc.active = false := rfl
        have halive' : self.detector.proc.active = true := halive
        rw [OneDetector, halive'] at h
        simp [OneDetector, hlog, hdead, List.countP_append, Effect.isDetectorStart,
          Effect.isDetectorExit, h]
    · obtain ⟨effects, hlog, hnew⟩ := step_log hstep
      have hactive := active_step hK.sub .detector hstep (fun hlaunch => henable ?_) hexit
      · exact h.of_append hlog (fun x hx => (hnew.origin hx).not_detector henable hexit) hactive
      · cases e with
        | osc req =>
          cases req with
          | enable => rfl
          | _ => exact absurd hlaunch id
        | _ => exact absurd hlaunch id

theorem oneDetector_invariant (env : Env) :
    (supervisor env).Invariant fun s => Known s ∧ OneDetector s := by
  refine (known_invariant env).and_of (fun s hs => ?_)
    fun s e s' hK hone hstep => hone.step hK hstep
  obtain ⟨exeDir, configDir, herr, rfl⟩ := supervisor_init_iff.mp hs
  have hstart : (detectorSpawn env (supervisorInit exeDir configDir)).isDetectorStart = true :=
    decide_eq_true herr
  have hexit : (detectorSpawn env (supervisorInit exeDir configDir)).isDetectorExit = false :=
    rfl
  have hlog : (supervisorInit exeDir configDir).log = [] := rfl
  simp [OneDetector, SoscSupervisor.emit, SoscSupervisor.tick, SoscSubprocess.launched,
    hlog, hstart, hexit]

end

/-- The first launch, by `main`, happens in an empty loop. -/
theorem nothing_inLoop_supervisorInit (exeDir : CString) (configDir : Option CString)
    (id : HandleId) : ¬ ((supervisorInit exeDir configDir).handle id).InLoop := by
  obtain ⟨who, member⟩ := id
  cases who <;> cases member <;> exact fun h => h rfl

/-- Enabling never overlaps with an unfinished teardown.  When every process
can be started, the detector is launched only when no subprocess has a handle
in the loop; so there is never more than one detector process that has not
been reported to have exited; and once the supervisor is disabled, with no
transition under way, no subprocess has a handle in the loop. -/
theorem launch_after_teardown (env : Env) (hspawn : ∀ k, env.uvSpawn k = 0) :
    (∀ exeDir configDir id,
      ¬ ((supervisorInit exeDir configDir).handle id).InLoop) ∧
    ∀ s, (supervisor env).Reachable s →
      (∀ e s', step env s e = some s' →
        (∃ file args err, .uvSpawn .detector file args err ∈ s'.log.drop s.log.length) →
        ∀ id, ¬ (s.handle id).InLoop) ∧
      s.log.countP Effect.isDetectorStart ≤ s.log.countP Effect.isDetectorExit + 1 ∧
      (s.state = .disabled → s.checkActive = false → ∀ id, ¬ (s.handle id).InLoop) := by
  refine ⟨nothing_inLoop_supervisorInit, fun s hs => ?_⟩
  have hI := (InStep.invariant hspawn).reachable hs
  have hone := ((oneDetector_invariant env).reachable hs).2
  refine ⟨fun e s' hstep hlaunch => ?_, ?_, hI.nothing_inLoop⟩
  · obtain ⟨file, args, err, hmem⟩ := hlaunch
    obtain ⟨effects, hlog, hnew⟩ := step_log hstep
    rw [hlog, List.drop_left] at hmem
    cases hnew.origin hmem with
    | detectorSpawn hstate hcheck => exact hI.nothing_inLoop hstate hcheck
  · rw [hone]
    split
    · exact Nat.le_refl _
    · exact Nat.le_succ _

/-- Surroundings in which every call succeeds. -/
def Env.reliable : Env where
  uvSpawn _ := 0
  calloc _ := true
  loAddressNew _ := true
  failedSpawnInits := false
  version := default
  gitCommit := default

/-- The supervisor that `main` starts in reliable surroundings. -/
def reliableStart : SoscSupervisor :=
  (supervisorEnable Env.reliable (supervisorInit default none)).1

theorem init_reliableStart : (supervisor Env.reliable).init reliableStart :=
  ⟨default, none, rfl⟩

/-- One iteration that polls `es` and then completes the closes of `ids`. -/
def iteration (es : List Event) (ids : List HandleId) : List Event :=
  .idle :: es ++ .check :: ids.map .closed ++ [.endIteration]

/-- A run through disabling: both stages of the detector's teardown complete,
and the idle watcher then ends the transition. -/
theorem launch_after_teardown_disabled :
    ∃ s, (supervisor Env.reliable).exec reliableStart
        (iteration [.osc .disable, .exit .detector]
            [⟨.detector, .fromProc⟩, ⟨.detector, .toProc⟩] ++
          iteration [] [⟨.detector, .proc⟩] ++ [.idle]) = some s ∧
      s.state = .disabled ∧ s.checkActive = false ∧ ∀ id, ¬ (s.handle id).InLoop := by
  obtain ⟨s, hrun, hstate, hcheck⟩ : ∃ s, (supervisor Env.reliable).exec reliableStart
      (iteration [.osc .disable, .exit .detector]
          [⟨.detector, .fromProc⟩, ⟨.detector, .toProc⟩] ++
        iteration [] [⟨.detector, .proc⟩] ++ [.idle]) = some s ∧
      s.state = .disabled ∧ s.checkActive = false := ⟨_, rfl, rfl, rfl⟩
  exact ⟨s, hrun, hstate, hcheck,
    ((launch_after_teardown Env.reliable fun _ => rfl).2 s
      ⟨_, _, init_reliableStart, hrun⟩).2.2 hstate hcheck⟩

end Serialosc
