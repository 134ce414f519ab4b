import Serialosc.Supervisor.Disable
import Serialosc.Supervisor.Records

/-!
# Launches that fail

`launch_subprocess` initialises two pipes before it calls `uv_spawn`, and
neither of its callers closes them when that fails.  After a failed device
launch they are registered with the loop inside a record that has been freed;
after a failed detector launch they stay registered until a later launch
initialises them again.

So a failed launch can leave the supervisor as it was only where an earlier
one has left the same handles behind, which is what `failedLaunch_iff` says.
-/

namespace Serialosc

open ByteMemory Runs

/-! ## Launches in the log -/

/-- What `uv_spawn` has returned for a subprocess, launch by launch. -/
def launches (who : ProcessId) (log : List Effect) : List ℤ :=
  log.filterMap fun
    | .uvSpawn who' _ _ err => if who' = who then some err else none
    | _ => none

/-- What `uv_spawn` has returned for the last launch of a subprocess. -/
def lastLaunch (who : ProcessId) (log : List Effect) : Option ℤ := (launches who log).getLast?

/-- The last launch of a subprocess has failed. -/
def LastLaunchFailed (who : ProcessId) (log : List Effect) : Prop :=
  ∃ err, lastLaunch who log = some err ∧ err ≠ 0

section

variable {env : Env} {self self' : SoscSupervisor} {who : ProcessId} {e : Event}

theorem launches_append (who : ProcessId) (log effects : List Effect) :
    launches who (log ++ effects) = launches who log ++ launches who effects :=
  List.filterMap_append

theorem launches_eq_nil {effects : List Effect}
    (h : ∀ file args err, .uvSpawn who file args err ∉ effects) : launches who effects = [] := by
  refine List.filterMap_eq_nil_iff.mpr fun x hx => ?_
  cases x with
  | uvSpawn who' file args err =>
    by_cases hwho : who' = who
    · exact absurd (hwho ▸ hx) (h file args err)
    · exact if_neg hwho
  | _ => rfl

theorem NewEffects.launches_eq {effects : List Effect} (h : NewEffects env self e effects) :
    launches who effects = launchedBy env self who e := by
  by_cases hlaunch : MayLaunch self who e
  · cases h with
    | silent e hsilent =>
      cases e with
      | osc req =>
        cases req with
        | enable =>
          refine (if_neg ?_).symm
          rintro ⟨-, hstate, hcheck⟩
          rcases hsilent with henabled | hactive
          · exact SoscSupervisorState.noConfusion (hstate.symm.trans henabled)
          · exact Bool.noConfusion (hcheck.symm.trans hactive)
        | _ => cases who <;> exact absurd hlaunch id
      | detectorRead msg =>
        cases msg with
        | deviceConnection devnode =>
          refine (if_neg ?_).symm
          rintro ⟨-, hcalloc⟩
          exact Bool.noConfusion (Eq.trans (Eq.symm hsilent) hcalloc)
        | _ => rfl
      | _ => cases who <;> exact absurd hlaunch id
    | detectorSpawn hstate hcheck =>
      cases who with
      | device d => exact absurd hlaunch id
      | detector =>
        rw [launchedBy, if_pos ⟨rfl, hstate, hcheck⟩]
        rfl
    | deviceSpawn devnode hcalloc =>
      cases who with
      | detector => exact absurd hlaunch id
      | device d =>
        obtain rfl : d = self.devices.length := hlaunch
        rw [launchedBy, if_pos ⟨rfl, hcalloc⟩]
        simp [launches, Serialosc.deviceSpawn]
    | replied req effects hquery hsends hlist =>
      cases req with
      | enable => exact absurd hquery id
      | _ => cases who <;> exact absurd hlaunch id
    | _ => cases who <;> exact absurd hlaunch id
  · rw [launchedBy_eq_nil hlaunch]
    exact launches_eq_nil fun file args err hmem => hlaunch (h.origin hmem).mayLaunch

theorem launches_step (hstep : step env self e = some self') :
    launches who self'.log = launches who self.log ++ launchedBy env self who e := by
  obtain ⟨effects, hlog, hnew⟩ := step_log hstep
  rw [hlog, launches_append, hnew.launches_eq]

theorem lastLaunch_of_nil (hstep : step env self e = some self')
    (hby : launchedBy env self who e = []) :
    lastLaunch who self'.log = lastLaunch who self.log := by
  rw [lastLaunch, launches_step hstep, hby, List.append_nil, lastLaunch]

theorem lastLaunch_of_singleton {err : ℤ} (hstep : step env self e = some self')
    (hby : launchedBy env self who e = [err]) : lastLaunch who self'.log = some err := by
  rw [lastLaunch, launches_step hstep, hby, List.getLast?_concat]

end

/-! ## Handles that stay open -/

/-- The handles of a subprocess from a failed launch to the next launch. -/
structure LeftOpen (env : Env) (sub : SoscSubprocess) : Prop where
  proc : sub.proc.stage = if env.failedSpawnInits then .registered else .unregistered
  toProc : sub.toProc.stage = .registered
  fromProc : sub.fromProc.stage = .registered
  dead : sub.proc.active = false

/-- A subprocess that has exited completely, or that has failed to launch. -/
theorem LeftOpen.of_launchFailed {env : Env} {sub : SoscSubprocess}
    (hproc : ¬ sub.proc.InLoop ∨ LeftOpen env sub) (hdead : sub.proc.active = false) :
    LeftOpen env (sub.launchFailed env) := by
  refine ⟨?_, rfl, rfl, ?_⟩
  · cases hinit : env.failedSpawnInits with
    | true => simp [SoscSubprocess.launchFailed, hinit]
    | false =>
      have hgone : sub.proc.stage = .unregistered := by
        rcases hproc with hgone | hopen
        · exact not_not.mp hgone
        · rw [hopen.proc, hinit]
          rfl
      simp [SoscSubprocess.launchFailed, hinit, hgone]
  · by_contra hactive
    have halive := (active_launchFailed (Bool.eq_true_of_not_eq_false hactive)).1
    exact Bool.noConfusion (hdead.symm.trans halive)

theorem LeftOpen.not_finishing {env : Env} {sub : SoscSubprocess} (h : LeftOpen env sub)
    (member : SubprocessMember) : (sub.handle member).stage ≠ .finishing := by
  cases member with
  | proc =>
    rw [show (sub.handle .proc).stage = _ from h.proc]
    split <;> exact Uv.Stage.noConfusion
  | toProc =>
    rw [show (sub.handle .toProc).stage = _ from h.toProc]
    exact Uv.Stage.noConfusion
  | fromProc =>
    rw [show (sub.handle .fromProc).stage = _ from h.fromProc]
    exact Uv.Stage.noConfusion

theorem leftOpen_subMoves (env : Env) : SubMoves fun _ _ => LeftOpen env where
  exited _ _ h halive := Bool.noConfusion (h.dead.symm.trans halive)
  poll _ _ h := h
  beginClosing _ sub h := by
    refine ⟨?_, ?_, ?_, h.dead⟩
    · rw [SoscSubprocess.map, Uv.Handle.stage_beginClosing, h.proc]
      split <;> rfl
    · exact Uv.Handle.stage_beginClosing_of_registered _ h.toProc
    · exact Uv.Handle.stage_beginClosing_of_registered _ h.fromProc
  closed _ _ member h hfinishing := absurd hfinishing (h.not_finishing member)
  endIteration _ _ h _ := h

theorem absent_subMoves : SubMoves fun _ _ sub => sub = {} where
  exited := by
    rintro _ _ rfl halive
    exact Bool.noConfusion halive
  poll _ _ h := h
  beginClosing := by
    rintro _ _ rfl
    rfl
  closed := by
    rintro _ _ member rfl hfinishing
    cases member <;> exact Uv.Stage.noConfusion hfinishing
  endIteration _ _ h _ := h

/-! ## What the last launch tells -/

/-- What is known of a subprocess by the outcome of its last launch. -/
structure LaunchTells (env : Env) (s : SoscSupervisor) (who : ProcessId) : Prop where
  absent : lastLaunch who s.log = none → s.subprocess who = {}
  succeeded : lastLaunch who s.log = some 0 → Orderly s.phase who (s.subprocess who)
  failed : LastLaunchFailed who s.log → LeftOpen env (s.subprocess who)
  settled : lastLaunch who s.log = some 0 → s.state = .disabled → s.checkActive = false →
    Gone (s.subprocess who)

/-- What is known of a freed device record by the outcome of its launch. -/
structure FreedTells (s : SoscSupervisor) (d : ℕ) : Prop where
  succeeded : ∀ r, s.record d = some r → lastLaunch (.device d) s.log = some 0 →
    r.freed = true → Gone (s.subprocess (.device d))
  failed : ∀ r, s.record d = some r → LastLaunchFailed (.device d) s.log → r.freed = true

section

variable {env : Env} {self self' : SoscSupervisor} {who : ProcessId} {d : ℕ} {e : Event}

theorem not_lastLaunchFailed (h : lastLaunch who self.log = some 0) :
    ¬ LastLaunchFailed who self.log := by
  rintro ⟨err, herr, hne⟩
  exact hne (Option.some.inj (herr.symm.trans h))

/-- The supervisor settles in the disabled state when the count is zero. -/
theorem settled_of_step (hstep : step env self e = some self')
    (hstate : self'.state = .disabled) (hcheck : self'.checkActive = false) :
    (self.state = .disabled ∧ self.checkActive = false) ∨
      e = .idle ∧ subprocsRemaining self = 0 := by
  cases control_step hstep with
  | kept hstate' _ hcheck' => exact Or.inl ⟨hstate' ▸ hstate, hcheck' ▸ hcheck⟩
  | enabling _ _ _ _ hcheck' => cases hcheck'.symm.trans hcheck
  | disabling _ _ _ hcheck' => cases hcheck'.symm.trans hcheck
  | ended _ hcount hstate' _ => exact Or.inr ⟨rfl, hcount (hstate'.symm.trans hstate)⟩

/-- While the supervisor is settled in the disabled state, only a detector can
be launched, and a success unsettles it. -/
theorem not_launched_of_settled (hK : Known self) (hstate : self.state = .disabled)
    (hcheck : self.checkActive = false) (hstep : step env self e = some self')
    (hcheck' : self'.checkActive = false) : launchedBy env self who e ≠ [0] := by
  intro hby
  cases stepped_of_step hstep with
  | osc req hphase =>
    cases req with
    | enable =>
      rw [launchedBy] at hby
      split at hby
      · have herr : env.uvSpawn self.calls = 0 := List.singleton_inj.mp hby
        have hspec := supervisorChangeState_spec env self .enabled
        simp only [oscPollCb, supervisorEnable] at hcheck'
        generalize supervisorChangeState env self .enabled = r at hspec hcheck'
        cases hspec with
        | rejected hreject =>
          rw [hstate, hcheck] at hreject
          exact hreject.elim SoscSupervisorState.noConfusion Bool.noConfusion
        | launchFailed _ _ hne => exact hne herr
        | launched _ _ _ => cases hcheck'
      · cases hby
    | _ => cases hby
  | detectorRead msg hphase hread =>
    have hstopped := hK.settled.settled hstate hcheck .detector
    have halive := (hK.sub .detector).reading hread
    exact Bool.noConfusion (Eq.trans (Eq.symm hstopped) halive)
  | _ => cases hby

/-- A subprocess whose process handle has left the loop does not come back
without a launch. -/
theorem gone_step (horderly : Orderly self.phase who (self.subprocess who))
    (hgone : Gone (self.subprocess who)) (hstep : step env self e = some self')
    (hlaunch : ¬ MayLaunch self who e) : Gone (self'.subprocess who) := by
  rw [subprocess_step who hstep hlaunch]
  cases stepped_of_step hstep with
  | exit who' hphase halive =>
    by_cases heq : who' = who
    · subst heq
      exact Bool.noConfusion ((horderly.1.dead hgone).symm.trans halive)
    · rw [SoscSubprocess.moved, if_neg heq]
      exact hgone
  | check hphase => exact fun hin => hgone ((Uv.Handle.inLoop_beginClosing _).mp hin)
  | closed id hphase hfinishing =>
    by_cases heq : id.who = who
    · subst heq
      exact absurd (inLoop_of_finishing hfinishing) (horderly.1.not_inLoop hgone id.member)
    · rw [SoscSubprocess.moved, if_neg heq]
      exact hgone
  | _ => exact hgone

theorem LaunchTells.settled_step (hK : Known self) (h : LaunchTells env self who)
    (hstep : step env self e = some self') (hlast : lastLaunch who self'.log = some 0)
    (hstate : self'.state = .disabled) (hcheck : self'.checkActive = false) :
    Gone (self'.subprocess who) := by
  rcases settled_of_step hstep hstate hcheck with ⟨hstate₀, hcheck₀⟩ | ⟨rfl, hcount⟩
  · by_cases hlaunch : MayLaunch self who e
    · cases launch_step hstep hlaunch with
      | unchanged hby hsub =>
        rw [lastLaunch_of_nil hstep hby] at hlast
        exact hsub ▸ h.settled hlast hstate₀ hcheck₀
      | launched hby hsub =>
        exact absurd hby (not_launched_of_settled hK hstate₀ hcheck₀ hstep hcheck)
      | failed k herr hby hsub =>
        rw [lastLaunch_of_singleton hstep hby] at hlast
        exact absurd (Option.some.inj hlast) herr
    · rw [lastLaunch_of_nil hstep (launchedBy_eq_nil hlaunch)] at hlast
      exact gone_step (h.succeeded hlast) (h.settled hlast hstate₀ hcheck₀) hstep hlaunch
  · -- a tagged process handle would have been counted
    have hlaunch : ¬ MayLaunch self who .idle := by
      cases who <;> exact id
    rw [lastLaunch_of_nil hstep (launchedBy_eq_nil hlaunch)] at hlast
    rw [subprocess_step who hstep hlaunch]
    intro hin
    have hnone := (subprocsRemaining_eq_zero self).mp hcount ⟨who, .proc⟩ hin
    have htagged := (h.succeeded hlast).2 hin
    cases htagged.symm.trans hnone

/-- A launch that fails has found nothing of the subprocess, or what an
earlier failure has left. -/
theorem LaunchTells.of_launchFailed {err : ℤ} (hK : Known self) (h : LaunchTells env self who)
    (hlaunch : MayLaunch self who e) (hby : launchedBy env self who e = [err]) :
    LeftOpen env ((self.subprocess who).launchFailed env) := by
  cases who with
  | device d =>
    have habsent : self.subprocess (.device d) = {} := by
      refine SoscSupervisor.subprocess_eq_of_not_has fun hhas => ?_
      cases e with
      | detectorRead msg => exact Nat.lt_irrefl d (Nat.lt_of_lt_of_eq hhas hlaunch.symm)
      | _ => exact hlaunch
    rw [habsent]
    exact .of_launchFailed (Or.inl fun hin => hin rfl) rfl
  | detector =>
    have hsettled : self.state = .disabled ∧ self.checkActive = false := by
      cases e with
      | osc req =>
        cases req with
        | enable =>
          rw [launchedBy] at hby
          split at hby
          · next hcond => exact hcond.2
          · cases hby
        | _ => cases hby
      | _ => exact absurd hlaunch id
    refine .of_launchFailed ?_ (hK.settled.settled hsettled.1 hsettled.2 .detector)
    cases hlast : lastLaunch .detector self.log with
    | none =>
      rw [h.absent hlast]
      exact Or.inl fun hin => hin rfl
    | some err' =>
      by_cases hzero : err' = 0
      · subst hzero
        exact Or.inl (h.settled hlast hsettled.1 hsettled.2)
      · exact Or.inr (h.failed ⟨err', hlast, hzero⟩)

theorem LaunchTells.step (hK : Known self) (h : LaunchTells env self who)
    (hstep : Serialosc.step env self e = some self') : LaunchTells env self' who := by
  have hsettled := h.settled_step hK hstep
  by_cases hlaunch : MayLaunch self who e
  · have hphase := phase_of_mayLaunch hstep hlaunch
    cases launch_step hstep hlaunch with
    | unchanged hby hsub =>
      have hlast := lastLaunch_of_nil hstep hby
      refine ⟨fun hnone => ?_, fun hzero => ?_, fun hfailed => ?_, hsettled⟩
      · exact hsub.trans (h.absent (hlast ▸ hnone))
      · rw [hsub, hphase]
        exact h.succeeded (hlast ▸ hzero)
      · rw [LastLaunchFailed, hlast] at hfailed
        exact hsub ▸ h.failed hfailed
    | launched hby hsub =>
      have hlast := lastLaunch_of_singleton hstep hby
      refine ⟨fun hnone => ?_, fun _ => ?_, fun hfailed => ?_, hsettled⟩
      · cases hlast.symm.trans hnone
      · rw [hsub]
        exact ⟨Teardown.launched _ who.tag, fun _ => rfl⟩
      · exact absurd hfailed (not_lastLaunchFailed hlast)
    | failed k herr hby hsub =>
      have hlast := lastLaunch_of_singleton hstep hby
      refine ⟨fun hnone => ?_, fun hzero => ?_, fun _ => ?_, hsettled⟩
      · cases hlast.symm.trans hnone
      · exact absurd (Option.some.inj (hlast.symm.trans hzero)) herr
      · exact hsub ▸ h.of_launchFailed hK hlaunch hby
  · have hlast := lastLaunch_of_nil hstep (launchedBy_eq_nil hlaunch)
    refine ⟨fun hnone => ?_, fun hzero => ?_, fun hfailed => ?_, hsettled⟩
    · exact absent_subMoves.step (h.absent (hlast ▸ hnone)) hstep hlaunch
    · exact orderly_subMoves.step (h.succeeded (hlast ▸ hzero)) hstep hlaunch
    · rw [LastLaunchFailed, hlast] at hfailed
      exact (leftOpen_subMoves env).step (h.failed hfailed) hstep hlaunch

/-- A record is freed when its process handle has been closed. -/
theorem freed_step (hstep : step env self e = some self')
    (hlaunch : ¬ MayLaunch self (.device d) e) {r' : DeviceRecord}
    (hr' : self'.record d = some r') :
    ∃ r, self.record d = some r ∧
      (r'.freed = r.freed ∨ e = .closed ⟨.device d, .proc⟩ ∧ r'.freed = true) := by
  rw [record_step hstep] at hr'
  cases e with
  | deviceRead d' msg =>
    rw [nextRecord] at hr'
    split at hr'
    · obtain ⟨r, hr, rfl⟩ := Option.map_eq_some_iff.mp hr'
      exact ⟨r, hr, Or.inl (by cases msg <;> rfl)⟩
    · exact ⟨r', hr', Or.inl rfl⟩
  | closed id =>
    obtain ⟨who, member⟩ := id
    cases who with
    | detector => exact ⟨r', hr', Or.inl rfl⟩
    | device d' =>
      cases member with
      | proc =>
        rw [nextRecord] at hr'
        split at hr'
        · next heq =>
          obtain ⟨r, hr, rfl⟩ := Option.map_eq_some_iff.mp hr'
          exact ⟨r, hr, Or.inr ⟨by rw [heq], rfl⟩⟩
        · exact ⟨r', hr', Or.inl rfl⟩
      | toProc => exact ⟨r', hr', Or.inl rfl⟩
      | fromProc => exact ⟨r', hr', Or.inl rfl⟩
  | detectorRead msg =>
    cases msg with
    | deviceConnection devnode =>
      rw [nextRecord, if_neg fun hand => hlaunch hand.2] at hr'
      exact ⟨r', hr', Or.inl rfl⟩
    | _ => exact ⟨r', hr', Or.inl rfl⟩
  | _ => exact ⟨r', hr', Or.inl rfl⟩

theorem FreedTells.step (htells : LaunchTells env self (.device d)) (h : FreedTells self d)
    (hstep : Serialosc.step env self e = some self') : FreedTells self' d := by
  by_cases hlaunch : MayLaunch self (.device d) e
  · cases e with
    | detectorRead msg =>
      obtain rfl : d = self.devices.length := hlaunch
      have hnone : self.record self.devices.length = none :=
        record_eq_none_iff.mpr (Nat.le_refl _)
      have hnext := record_step (d := self.devices.length) hstep
      cases msg with
      | deviceConnection devnode =>
        cases hcalloc : env.calloc self.calls with
        | false =>
          rw [nextRecord, hcalloc, if_neg fun hand => Bool.noConfusion hand.1, hnone] at hnext
          refine ⟨fun r hr => ?_, fun r hr => ?_⟩
          · cases hnext.symm.trans hr
          · cases hnext.symm.trans hr
        | true =>
          rw [nextRecord, if_pos ⟨hcalloc, rfl⟩] at hnext
          have hlast := lastLaunch_of_singleton hstep (if_pos ⟨rfl, hcalloc⟩)
          refine ⟨fun r hr hzero hfreed => ?_, fun r hr hfailed => ?_⟩
          · cases hnext.symm.trans hr
            exact absurd (Option.some.inj (hlast.symm.trans hzero)) (of_decide_eq_true hfreed)
          · cases hnext.symm.trans hr
            obtain ⟨err, herr, hne⟩ := hfailed
            rw [Option.some.inj (hlast.symm.trans herr)]
            exact decide_eq_true hne
      | _ =>
        refine ⟨fun r hr => ?_, fun r hr => ?_⟩
        · cases hnone.symm.trans (hnext.symm.trans hr)
        · cases hnone.symm.trans (hnext.symm.trans hr)
    | _ => exact absurd hlaunch id
  · have hlast := lastLaunch_of_nil hstep (launchedBy_eq_nil hlaunch)
    refine ⟨fun r' hr' hzero hfreed => ?_, fun r' hr' hfailed => ?_⟩
    · obtain ⟨r, hr, hsame | ⟨rfl, -⟩⟩ := freed_step hstep hlaunch hr'
      · have hzero₀ := hlast.symm.trans hzero
        have hgone := h.succeeded r hr hzero₀ (hsame.symm.trans hfreed)
        exact gone_step (htells.succeeded hzero₀) hgone hstep hlaunch
      · rw [subprocess_step (.device d) hstep hlaunch, SoscSubprocess.moved, if_pos rfl]
        exact fun hin => hin rfl
    · obtain ⟨r, hr, hsame | ⟨-, hfreed⟩⟩ := freed_step hstep hlaunch hr'
      · rw [LastLaunchFailed, hlast] at hfailed
        exact hsame.trans (h.failed r hr hfailed)
      · exact hfreed

/-- What the log tells of launches, in every reachable state. -/
theorem launchTells_invariant (env : Env) :
    (supervisor env).Invariant fun s =>
      Known s ∧ (∀ who, LaunchTells env s who) ∧ ∀ d, FreedTells s d := by
  refine (known_invariant env).and_of (fun s hs => ?_) fun s e s' hK htells hstep =>
    ⟨fun who => (htells.1 who).step hK hstep,
      fun d => (htells.2 d).step (htells.1 (.device d)) hstep⟩
  obtain ⟨exeDir, configDir, herr, rfl⟩ := supervisor_init_iff.mp hs
  refine ⟨fun who => ?_, fun d => ⟨fun r hr => ?_, fun r hr => ?_⟩⟩
  · cases who with
    | detector =>
      have hlast : lastLaunch .detector
          [detectorSpawn env (supervisorInit exeDir configDir)] = some 0 := by
        rw [← herr]
        rfl
      refine ⟨fun hnone => ?_, fun _ => ?_, fun hfailed => ?_, fun _ _ hcheck => ?_⟩
      · cases hlast.symm.trans hnone
      · exact ⟨Teardown.launched _ .detectorType, fun _ => rfl⟩
      · obtain ⟨err, herr', hne⟩ := hfailed
        exact absurd (Option.some.inj (herr'.symm.trans hlast)) hne
      · cases hcheck
    | device d =>
      refine ⟨fun _ => rfl, fun hzero => ?_, fun hfailed => ?_, fun hzero => ?_⟩
      · cases hzero
      · obtain ⟨err, herr', -⟩ := hfailed
        cases herr'
      · cases hzero
  · cases hr
  · cases hr

end

/-! ## What a failed launch leaves -/

/-- The event launches a subprocess, and `uv_spawn` fails. -/
def LaunchFails (env : Env) (s : SoscSupervisor) : Event → Prop
  | .osc .enable =>
      s.state = .disabled ∧ s.checkActive = false ∧ env.uvSpawn s.calls ≠ 0
  | .detectorRead (.deviceConnection _) =>
      env.calloc s.calls = true ∧ env.uvSpawn (s.calls + 1) ≠ 0
  | _ => False

/-- The operation has left the loop and the transition as they were, and no
handle of a freed record is registered. -/
structure LeftAsItWas (before after : SoscSupervisor) : Prop where
  handles : ∀ id, (after.handle id).InLoop ↔ (before.handle id).InLoop
  state : after.state = before.state
  pending : after.pending = before.pending ∧ after.checkActive = before.checkActive
  remaining : subprocsRemaining after = subprocsRemaining before
  freed : ∀ (d : ℕ) (dev : SoscDeviceSubprocess), after.devices[d]? = some dev →
    dev.freed = true → ∀ member, ¬ (dev.subprocess.handle member).InLoop

section

variable {env : Env} {self self' : SoscSupervisor}

theorem subprocsRemaining_congr (hlength : self'.devices.length = self.devices.length)
    (hloop : ∀ id, (self'.handle id).InLoop ↔ (self.handle id).InLoop)
    (hdata : ∀ id, (self'.handle id).data = (self.handle id).data) :
    subprocsRemaining self' = subprocsRemaining self := by
  have hwalk : self'.uvWalk = self.uvWalk := by
    rw [SoscSupervisor.uvWalk, SoscSupervisor.uvWalk, SoscSupervisor.processes,
      SoscSupervisor.processes, hlength]
    exact List.filter_congr fun id _ => decide_eq_decide.mpr (hloop id)
  rw [subprocsRemaining, subprocsRemaining, hwalk, foldl_remainingSubprocessesWalkCb,
    foldl_remainingSubprocessesWalkCb]
  simp only [hdata]

/-- Failing again changes nothing. -/
theorem LeftOpen.launchFailed {sub : SoscSubprocess} (h : LeftOpen env sub)
    (member : SubprocessMember) :
    (((sub.launchFailed env).handle member).InLoop ↔ (sub.handle member).InLoop) ∧
      ((sub.launchFailed env).handle member).data = (sub.handle member).data := by
  cases member with
  | proc =>
    have hproc := h.proc
    cases hinit : env.failedSpawnInits with
    | false =>
      rw [SoscSubprocess.launchFailed, hinit]
      exact ⟨Iff.rfl, rfl⟩
    | true =>
      rw [hinit, if_pos rfl] at hproc
      rw [SoscSubprocess.launchFailed, hinit]
      refine ⟨iff_of_true Uv.Stage.noConfusion ?_, rfl⟩
      rw [Uv.Handle.InLoop, show (sub.handle .proc).stage = .registered from hproc]
      exact Uv.Stage.noConfusion
  | toProc =>
    refine ⟨iff_of_true Uv.Stage.noConfusion ?_, rfl⟩
    rw [Uv.Handle.InLoop, show (sub.handle .toProc).stage = .registered from h.toProc]
    exact Uv.Stage.noConfusion
  | fromProc =>
    refine ⟨iff_of_true Uv.Stage.noConfusion ?_, rfl⟩
    rw [Uv.Handle.InLoop, show (sub.handle .fromProc).stage = .registered from h.fromProc]
    exact Uv.Stage.noConfusion

/-- The record of a device that failed to launch has been freed, and its pipes
are registered. -/
theorem freed_of_lastLaunchFailed {d : ℕ} (htells : LaunchTells env self (.device d))
    (hfreed : FreedTells self d) (hfailed : LastLaunchFailed (.device d) self.log) :
    ∃ dev, self.devices[d]? = some dev ∧ dev.freed = true ∧
      (dev.subprocess.handle .toProc).InLoop := by
  have hin : ((self.subprocess (.device d)).handle .toProc).InLoop := by
    rw [Uv.Handle.InLoop, show ((self.subprocess (.device d)).handle .toProc).stage =
      .registered from (htells.failed hfailed).toProc]
    exact Uv.Stage.noConfusion
  have hhas : d < self.devices.length := SoscSupervisor.has_of_inLoop hin
  have hdev : self.devices[d]? = some self.devices[d] := List.getElem?_eq_getElem hhas
  have hrecord : self.record d = some self.devices[d].record := by
    rw [SoscSupervisor.record, hdev, Option.map_some]
  refine ⟨_, hdev, hfreed.failed _ hrecord hfailed, ?_⟩
  rw [SoscSupervisor.subprocess, hdev] at hin
  exact hin

/-- When no launch of a device has failed, a freed record has nothing in the
loop. -/
theorem not_inLoop_of_freed {d : ℕ} {dev : SoscDeviceSubprocess}
    (htells : LaunchTells env self (.device d)) (hfreed : FreedTells self d)
    (hnone : ¬ LastLaunchFailed (.device d) self.log) (hdev : self.devices[d]? = some dev)
    (hdead : dev.freed = true) (member : SubprocessMember) :
    ¬ (dev.subprocess.handle member).InLoop := by
  have hsub : self.subprocess (.device d) = dev.subprocess := by
    rw [SoscSupervisor.subprocess, hdev]
    rfl
  have hrecord : self.record d = some dev.record := by
    rw [SoscSupervisor.record, hdev, Option.map_some]
  rw [← hsub]
  cases hlast : lastLaunch (.device d) self.log with
  | none =>
    rw [htells.absent hlast]
    cases member <;> exact fun hin => hin rfl
  | some err =>
    by_cases hzero : err = 0
    · subst hzero
      have hgone := hfreed.succeeded _ hrecord hlast hdead
      exact (htells.succeeded hlast).1.not_inLoop hgone member
    · exact absurd ⟨err, hlast, hzero⟩ hnone

theorem not_leftAsItWas_device {devnode : CString}
    (hfail : LaunchFails env self (.detectorRead (.deviceConnection devnode)))
    (hstep : step env self (.detectorRead (.deviceConnection devnode)) = some self') :
    ¬ LeftAsItWas self self' := by
  intro h
  have hby : launchedBy env self (.device self.devices.length)
      (.detectorRead (.deviceConnection devnode)) = [env.uvSpawn (self.calls + 1)] :=
    if_pos ⟨rfl, hfail.1⟩
  have hin : (self'.handle ⟨.device self.devices.length, .toProc⟩).InLoop := by
    cases launch_step hstep (show MayLaunch self (.device self.devices.length) _ from rfl) with
    | unchanged hnil hsub => cases hnil.symm.trans hby
    | launched hzero hsub => exact absurd (List.singleton_inj.mp (hby.symm.trans hzero)) hfail.2
    | failed k herr hby' hsub =>
      rw [SoscSupervisor.handle, hsub]
      exact Uv.Stage.noConfusion
  exact Nat.lt_irrefl _ (SoscSupervisor.has_of_inLoop ((h.handles _).mp hin))

theorem leftAsItWas_detector_iff (htells : ∀ who, LaunchTells env self who)
    (hfreed : ∀ d, FreedTells self d) (hfail : LaunchFails env self (.osc .enable))
    (hstep : step env self (.osc .enable) = some self') :
    LeftAsItWas self self' ↔
      LastLaunchFailed .detector self.log ∧
        ∀ d, ¬ LastLaunchFailed (.device d) self.log := by
  obtain ⟨hstate, hcheck, herr⟩ := hfail
  obtain rfl : self' = { self.tick.emit (detectorSpawn env self) with
      detector := self.detector.launchFailed env } := by
    cases stepped_of_step hstep with
    | osc req hphase =>
      have hspec := supervisorChangeState_spec env self .enabled
      simp only [oscPollCb, supervisorEnable]
      generalize supervisorChangeState env self .enabled = r at hspec
      cases hspec with
      | rejected hreject =>
        rw [hstate, hcheck] at hreject
        exact hreject.elim SoscSupervisorState.noConfusion Bool.noConfusion
      | launchFailed _ _ _ => rfl
      | launched _ _ hzero => exact absurd hzero herr
  constructor
  · intro h
    refine ⟨?_, fun d hfailed => ?_⟩
    · have hin : (self.detector.handle .toProc).InLoop :=
        (h.handles ⟨.detector, .toProc⟩).mp Uv.Stage.noConfusion
      cases hlast : lastLaunch .detector self.log with
      | none =>
        have habsent : self.detector = {} := (htells .detector).absent hlast
        rw [habsent] at hin
        exact absurd rfl hin
      | some err =>
        by_cases hzero : err = 0
        · subst hzero
          have hgone := (htells .detector).settled hlast hstate hcheck
          exact absurd hin (((htells .detector).succeeded hlast).1.not_inLoop hgone .toProc)
        · exact ⟨err, hlast, hzero⟩
    · obtain ⟨dev, hdev, hdead, hin⟩ :=
        freed_of_lastLaunchFailed (htells (.device d)) (hfreed d) hfailed
      exact h.freed d dev hdev hdead .toProc hin
  · rintro ⟨hfailed, hnone⟩
    have hagain := ((htells .detector).failed hfailed).launchFailed
    have hkept (id : HandleId) :
        ((({ self.tick.emit (detectorSpawn env self) with
            detector := self.detector.launchFailed env } : SoscSupervisor).handle id).InLoop ↔
          (self.handle id).InLoop) ∧
        (({ self.tick.emit (detectorSpawn env self) with
            detector := self.detector.launchFailed env } : SoscSupervisor).handle id).data =
          (self.handle id).data := by
      obtain ⟨who, member⟩ := id
      cases who with
      | detector => exact hagain member
      | device d => exact ⟨Iff.rfl, rfl⟩
    refine ⟨fun id => (hkept id).1, rfl, ⟨rfl, rfl⟩, ?_, fun d dev hdev hdead => ?_⟩
    · exact subprocsRemaining_congr rfl (fun id => (hkept id).1) fun id => (hkept id).2
    · exact not_inLoop_of_freed (htells (.device d)) (hfreed d) (hnone d) hdev hdead

/-- In any reachable state, a launch that fails leaves the supervisor as it was
if and only if it is a launch of the detector, the last launch of the detector
before it has failed too, and no launch of a device has ever failed. -/
theorem failedLaunch_iff (env : Env) {s s' : SoscSupervisor} {e : Event}
    (hs : (supervisor env).Reachable s) (hfail : LaunchFails env s e)
    (hstep : step env s e = some s') :
    LeftAsItWas s s' ↔
      e = .osc .enable ∧ LastLaunchFailed .detector s.log ∧
        ∀ d, ¬ LastLaunchFailed (.device d) s.log := by
  obtain ⟨-, htells, hfreed⟩ := (launchTells_invariant env).reachable hs
  cases e with
  | osc req =>
    cases req with
    | enable =>
      rw [leftAsItWas_detector_iff htells hfreed hfail hstep]
      exact ⟨fun h => ⟨rfl, h⟩, fun h => h.2⟩
    | _ => exact absurd hfail id
  | detectorRead msg =>
    cases msg with
    | deviceConnection devnode =>
      exact iff_of_false (not_leftAsItWas_device hfail hstep) fun h => Event.noConfusion h.1
    | _ => exact absurd hfail id
  | _ => exact absurd hfail id

end

/-- Surroundings in which only the first `uv_spawn` succeeds. -/
def Env.spawnsOnce : Env := { Env.reliable with uvSpawn := fun k => if k = 0 then 0 else -1 }

/-- A device cannot be launched: its pipes stay registered, in a record that
has been freed. -/
theorem failedLaunch_device :
    ∃ s₀ s s', (supervisor Env.spawnsOnce).init s₀ ∧
      (supervisor Env.spawnsOnce).exec s₀ [.idle] = some s ∧
      step Env.spawnsOnce s (.detectorRead (.deviceConnection sampleDevnode)) = some s' ∧
      LaunchFails Env.spawnsOnce s (.detectorRead (.deviceConnection sampleDevnode)) ∧
      ¬ LeftAsItWas s s' := by
  refine ⟨_, _, _, ⟨default, none, rfl⟩, rfl, rfl, ⟨rfl, by decide⟩, fun h => ?_⟩
  exact h.freed 0 _ rfl rfl .toProc (by decide)

/-- The detector fails to launch for the second time. -/
theorem failedLaunch_iff_again :
    ∃ s₀ s s', (supervisor Env.spawnsOnce).init s₀ ∧
      (supervisor Env.spawnsOnce).exec s₀
        (iteration [.osc .disable, .exit .detector]
            [⟨.detector, .fromProc⟩, ⟨.detector, .toProc⟩] ++
          iteration [] [⟨.detector, .proc⟩] ++ [.idle, .osc .enable]) = some s ∧
      step Env.spawnsOnce s (.osc .enable) = some s' ∧ LeftAsItWas s s' := by
  obtain ⟨s₀, s, s', hinit, hrun, hstep, hfail, hlast, hnone⟩ :
      ∃ s₀ s s', (supervisor Env.spawnsOnce).init s₀ ∧
        (supervisor Env.spawnsOnce).exec s₀
          (iteration [.osc .disable, .exit .detector]
              [⟨.detector, .fromProc⟩, ⟨.detector, .toProc⟩] ++
            iteration [] [⟨.detector, .proc⟩] ++ [.idle, .osc .enable]) = some s ∧
        step Env.spawnsOnce s (.osc .enable) = some s' ∧
        LaunchFails Env.spawnsOnce s (.osc .enable) ∧
        lastLaunch .detector s.log = some (-1) ∧
        ∀ d, lastLaunch (.device d) s.log = none :=
    ⟨_, _, _, ⟨default, none, rfl⟩, rfl, rfl, ⟨rfl, rfl, by decide⟩, rfl, fun _ => rfl⟩
  refine ⟨s₀, s, s', hinit, hrun, hstep, ?_⟩
  refine (failedLaunch_iff Env.spawnsOnce ⟨s₀, _, hinit, hrun⟩ hfail hstep).mpr ⟨rfl, ?_, ?_⟩
  · exact ⟨-1, hlast, by decide⟩
  · rintro d ⟨err, herr, -⟩
    cases (hnone d).symm.trans herr

end Serialosc
