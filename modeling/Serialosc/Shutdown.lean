import Serialosc.Network
import Serialosc.Supervisor.Disable

/-!
# How the devices are shut down

A disable request that is accepted asks every device process that is running to exit.
`todo_of_disable` says that they all do, in the midst of whatever else happens.  A device may
be gone for other reasons as well; `cause_of_disconnection` says that there are no more than
the program knows of.
-/

namespace Serialosc

open ByteMemory Runs

/-! ## Requests that are written -/

theorem ofRaw_code (type : SoscIpcType) :
    SoscIpcType.ofRaw (BitVec.ofNat 32 type.code) = some type := by
  cases type <;> rfl

theorem DeviceProcess.receive_append (self : DeviceProcess) (bytes bytes' : List UInt8) :
    self.receive (bytes ++ bytes') = (self.receive bytes).receive bytes' := by
  rw [receive, receive, receive, List.append_assoc]

theorem wireStream_cons (raw : SoscIpcMsg) (msg : IpcMsg) (msgs : List IpcMsg) :
    wireStream raw (msg :: msgs) = wireBytes (raw.typed msg) msg ++ wireStream raw msgs :=
  List.flatMap_cons

namespace DeviceProcess

variable {env : ProcessEnv} {self : DeviceProcess} {raw : SoscIpcMsg} {raws : List SoscIpcMsg}
  {msgs : List IpcMsg}

/-- What the supervisor writes is only requests. -/
theorem Obeys.receive (h : Obeys self raws) (hmsgs : ∀ msg ∈ msgs, msg = .processShouldExit) :
    Obeys (self.receive (wireStream raw msgs))
      (raws ++ msgs.map fun _ => raw.typed .processShouldExit) := by
  induction msgs generalizing self raws with
  | nil =>
    rw [List.map_nil, List.append_nil]
    have hsame : self.receive (wireStream raw []) = self := by
      rw [DeviceProcess.receive, wireStream, List.flatMap_nil, List.append_nil]
    rw [hsame]
    exact h
  | cons msg msgs ih =>
    obtain ⟨hmsg, hrest⟩ := List.forall_mem_cons.mp hmsgs
    subst hmsg
    have htype : SoscIpcType.ofRaw (raw.typed .processShouldExit).type =
        some .processShouldExit := ofRaw_code .processShouldExit
    have hstep : step sampleEnv self (.stdin (wireBytes (raw.typed .processShouldExit) _)) =
        some (self.receive (wireBytes (raw.typed .processShouldExit) .processShouldExit)) := rfl
    have hhead := (h.stdin htype hstep).1
    rw [wireStream_cons, receive_append, List.map_cons, List.append_cons]
    exact ih hhead hrest

theorem Ending.receive {k : ℕ} (h : Ending env k self)
    (hmsgs : ∀ msg ∈ msgs, msg = .processShouldExit) :
    Ending env k (self.receive (wireStream raw msgs)) := by
  obtain ⟨raws, hobeys, hwill⟩ := h.obeys
  refine ⟨(kept_invariant env).step _ (.stdin _) _ h.kept rfl, ⟨_, hobeys.receive hmsgs, ?_⟩,
    h.within⟩
  exact hwill.imp_left fun hne => List.append_ne_nil_of_left_ne_nil hne _

end DeviceProcess

namespace Network

variable {env : Env} {devices : ℕ → ProcessEnv} {n n' : Network} {d : ℕ}

theorem mem_uvWrites {effects : List Effect} {msg : IpcMsg} :
    msg ∈ uvWrites d effects ↔ .uvWrite d msg ∈ effects := by
  rw [uvWrites, List.mem_filterMap]
  constructor
  · rintro ⟨x, hx, hmsg⟩
    cases x with
    | uvWrite d' msg' =>
      obtain ⟨hd, heq⟩ := Option.ite_none_right_eq_some.mp hmsg
      rw [← hd, ← Option.some.inj heq]
      exact hx
    | _ => cases hmsg
  · intro hmem
    exact ⟨_, hmem, if_pos rfl⟩

/-- The supervisor does not write anything but requests to exit. -/
theorem uvWrites_step (d : ℕ) {self self' : SoscSupervisor} {e : Event}
    (hstep : Serialosc.step env self e = some self') :
    ∀ msg ∈ uvWrites d (self'.log.drop self.log.length), msg = .processShouldExit := by
  intro msg hmsg
  obtain ⟨effects, hlog, hnew⟩ := step_log hstep
  rw [hlog, List.drop_left] at hmsg
  cases hnew.origin (mem_uvWrites.mp hmsg) with
  | write => rfl

/-- The processes as the supervisor knows that it has asked them. -/
def Asked (devices : ℕ → ProcessEnv) (n : Network) (d : ℕ) : Prop :=
  DeviceProcess.Kept (devices d).launched (n.process d) ∧
    ∃ raws, DeviceProcess.Obeys (n.process d) raws ∧
      (raws ≠ [] → .uvWrite d .processShouldExit ∈ n.supervisor.log)

theorem asked_invariant (env : Env) (devices : ℕ → ProcessEnv) :
    (system env devices).Invariant fun n => ∀ d, Asked devices n d where
  init n hn d := by
    obtain ⟨hfresh, hserves⟩ := hn.2.1 d
    refine ⟨(DeviceProcess.kept_invariant _).init _ hfresh, [], ⟨⟨hserves, ?_, ?_⟩, ?_⟩, ?_⟩
    · exact fun _ hraw => absurd hraw List.not_mem_nil
    · exact hfresh.stdin
    · rw [hfresh.todo]
      exact fun hhead => by cases hhead
    · exact fun hne => absurd rfl hne
  step n e n' hn he d := by
    obtain ⟨hkept, raws, hobeys, hwritten⟩ := hn d
    cases e with
    | supervisor e raws' =>
      obtain ⟨-, hs, hprocess, -⟩ := step_supervisor he
      obtain ⟨effects, hlog, -⟩ := step_log hs
      have hreceived : DeviceProcess.Obeys
          ((n.process d).receive (wireStream (raws' d) _)) _ := hobeys.receive (uvWrites_step d hs)
      rw [Asked, hprocess d]
      refine ⟨(DeviceProcess.kept_invariant _).step _ (.stdin _) _ hkept rfl, _, hreceived,
        fun hne => ?_⟩
      by_cases hraws : raws = []
      · rw [hraws, List.nil_append] at hne
        obtain ⟨msg, hmsg⟩ := List.exists_mem_of_ne_nil _ (mt List.map_eq_nil_iff.mpr hne)
        obtain rfl := uvWrites_step d hs msg hmsg
        exact List.mem_of_mem_drop (mem_uvWrites.mp hmsg)
      · rw [hlog]
        exact List.mem_append_left _ (hwritten hraws)
    | device d' e =>
      obtain ⟨hown, -, p, hp, hsupervisor, hprocess, -⟩ := step_device he
      rw [Asked, hsupervisor, hprocess]
      by_cases hd : d = d'
      · subst hd
        rw [Function.update_self]
        refine ⟨(DeviceProcess.kept_invariant _).step _ e p hkept hp, ?_⟩
        cases DeviceProcess.stepEnds hkept hobeys hown hp with
        | ends hobeys' => exact ⟨raws, hobeys', hwritten⟩
        | runs hobeys' => exact ⟨raws, hobeys', hwritten⟩
        | waits hobeys' => exact ⟨raws, hobeys', hwritten⟩
        | asked raw raws' heq hobeys' =>
          refine ⟨raws', hobeys', fun _ => hwritten ?_⟩
          rw [heq]
          exact List.cons_ne_nil _ _
      · rw [Function.update_of_ne hd]
        exact ⟨hkept, raws, hobeys, hwritten⟩

/-! ## A device that is announced to be gone -/

/-- The process of the device goes on as it should. -/
def GoesWell (devices : ℕ → ProcessEnv) (d : ℕ) (n : Network) (e : NetworkEvent) : Prop :=
  ∀ e' p, e = .device d e' →
    DeviceProcess.step (devices d).launched (n.process d) e' = some p →
      ¬ DeviceProcess.Fails (devices d).launched (n.process d) e' p

/-- Where nothing goes wrong, a process is in its loop or has been asked. -/
theorem inSession_or_asked {e : NetworkEvent} (hasked : Asked devices n d)
    (hn : DeviceProcess.InSession (n.process d) ∨
      .uvWrite d .processShouldExit ∈ n.supervisor.log)
    (hwell : GoesWell devices d n e) (he : (system env devices).step n e = some n') :
    DeviceProcess.InSession (n'.process d) ∨
      .uvWrite d .processShouldExit ∈ n'.supervisor.log := by
  cases e with
  | supervisor e raws' =>
    obtain ⟨-, hs, hprocess, -⟩ := step_supervisor he
    obtain ⟨effects, hlog, -⟩ := step_log hs
    rw [hprocess d, hlog]
    exact hn.imp_right (List.mem_append_left _)
  | device d' e =>
    obtain ⟨hown, -, p, hp, hsupervisor, hprocess, -⟩ := step_device he
    rw [hsupervisor, hprocess]
    by_cases hd : d = d'
    · subst hd
      rw [Function.update_self]
      obtain ⟨hkept, raws, hobeys, hwritten⟩ := hasked
      cases DeviceProcess.stepEnds hkept hobeys hown hp with
      | ends _ hfails => exact absurd hfails (hwell e p rfl hp)
      | runs _ hsession => exact hn.imp_left hsession.mpr
      | waits _ htodo =>
        rw [DeviceProcess.InSession, htodo]
        exact hn
      | asked raw raws' heq =>
        refine .inr (hwritten ?_)
        rw [heq]
        exact List.cons_ne_nil _ _
    · rw [Function.update_of_ne hd]
      exact hn

/-- No device vanishes for no reason: when it is announced to be gone, the supervisor, on a
disable request, has asked it to exit, or there was a step at which the device was unplugged,
the process was not given what it asked for, or it crashed or was killed. -/
theorem cause_of_disconnection (env : Env) (devices : ℕ → ProcessEnv) {es : List NetworkEvent}
    (hinit : (system env devices).init n) (hrun : (system env devices).exec n es = some n')
    (hmem : .deviceDisconnection ∈ raised d n'.supervisor.log) :
    .uvWrite d .processShouldExit ∈ n'.supervisor.log ∨
      ∃ fs e gs m p, es = fs ++ .device d e :: gs ∧ (system env devices).exec n fs = some m ∧
        DeviceProcess.step (devices d).launched (m.process d) e = some p ∧
          DeviceProcess.Fails (devices d).launched (m.process d) e p := by
  by_cases hwell : (system env devices).StepsMeet (GoesWell devices d) n es
  · have hI := asked_invariant env devices
    have hstart : DeviceProcess.InSession (n.process d) := by
      rw [DeviceProcess.InSession, (hinit.2.1 d).1.todo]
      decide
    have halong := EventSystem.along_of_stepsMeet hI
      (fun _ _ _ hm hP hC he => inSession_or_asked (hm d) hP hC he) (hI.init n hinit)
      (.inl hstart) hwell
    refine .inl ((halong.last hrun).resolve_left fun hsession => ?_)
    have hover := (over_invariant env devices).reachable ⟨n, es, hinit, hrun⟩ d hmem
    rw [DeviceProcess.InSession, hover] at hsession
    exact List.not_mem_nil hsession
  · obtain ⟨fs, e, gs, m, heq, hfs, hnot⟩ := EventSystem.exists_of_not_stepsMeet hwell
    have hcause : ∃ e' p, e = .device d e' ∧
        DeviceProcess.step (devices d).launched (m.process d) e' = some p ∧
          DeviceProcess.Fails (devices d).launched (m.process d) e' p := by
      by_contra hnone
      exact hnot fun e' p he hp hfails => hnone ⟨e', p, he, hp, hfails⟩
    obtain ⟨e', p, rfl, hp, hfails⟩ := hcause
    exact .inr ⟨fs, e', gs, m, p, heq, hfs, hp, hfails⟩

theorem cause_of_disconnection_sampleEvents :
    ∃ n', (system Env.reliable fun _ => DeviceProcess.sampleEnv).exec sampleNetwork sampleEvents =
        some n' ∧
      (.uvWrite 0 .processShouldExit ∈ n'.supervisor.log ∨
        ∃ fs e gs m p, sampleEvents = fs ++ .device 0 e :: gs ∧
          (system Env.reliable fun _ => DeviceProcess.sampleEnv).exec sampleNetwork fs = some m ∧
          DeviceProcess.step DeviceProcess.sampleEnv.launched (m.process 0) e = some p ∧
            DeviceProcess.Fails DeviceProcess.sampleEnv.launched (m.process 0) e p) := by
  obtain ⟨n', hrun, hraised⟩ : ∃ n', (system Env.reliable fun _ => DeviceProcess.sampleEnv).exec
      sampleNetwork sampleEvents = some n' ∧
      raised 0 n'.supervisor.log = [.deviceConnection, .deviceDisconnection] := ⟨_, rfl, rfl⟩
  have hmem : .deviceDisconnection ∈ raised 0 n'.supervisor.log := by
    rw [hraised]
    exact List.mem_cons_of_mem _ List.mem_cons_self
  exact ⟨n', hrun, cause_of_disconnection Env.reliable (fun _ => DeviceProcess.sampleEnv)
    init_sampleNetwork hrun hmem⟩

/-! ## A disable request -/

/-- The step lets the process of the device go on. -/
def lets (d : ℕ) : NetworkEvent → Bool
  | .device d' e => d' = d && DeviceProcess.goesOn e
  | .supervisor _ _ => false

/-- The process of the device is over, or going to be. -/
def Ending (devices : ℕ → ProcessEnv) (d k : ℕ) (n : Network) : Prop :=
  DeviceProcess.Ending (devices d).launched k (n.process d)

theorem Ending.keep {k : ℕ} {e : NetworkEvent} (h : Ending devices d k n)
    (he : (system env devices).step n e = some n') : Ending devices d k n' := by
  cases e with
  | supervisor e raws =>
    obtain ⟨-, hs, hprocess, -⟩ := step_supervisor he
    rw [Ending, hprocess d]
    exact DeviceProcess.Ending.receive h (uvWrites_step d hs)
  | device d' e =>
    obtain ⟨hown, -, p, hp, -, hprocess, -⟩ := step_device he
    rw [Ending, hprocess]
    by_cases hd : d = d'
    · subst hd
      rw [Function.update_self]
      exact DeviceProcess.Ending.keep h (fun bytes heq => absurd heq (hown bytes)) hp
    · rw [Function.update_of_ne hd]
      exact h

theorem Ending.own {k : ℕ} {e : NetworkEvent} (h : Ending devices d (k + 1) n)
    (hlets : lets d e = true) (he : (system env devices).step n e = some n') :
    Ending devices d k n' := by
  cases e with
  | supervisor e raws => cases hlets
  | device d' e =>
    obtain ⟨hd, hgoes⟩ := Bool.and_eq_true_iff.mp hlets
    obtain rfl := of_decide_eq_true hd
    obtain ⟨-, -, p, hp, -, hprocess, -⟩ := step_device he
    rw [Ending, hprocess, Function.update_self]
    exact DeviceProcess.Ending.own rfl h hgoes hp

/-- The supervisor accepts a disable request. -/
def Accepts (self : SoscSupervisor) : Prop := self.state = .enabled ∧ self.checkActive = false

theorem mem_uvWrites_of_accepts {self self' : SoscSupervisor} (hK : Known self)
    (haccepts : Accepts self) (hs : Serialosc.step env self (.osc .disable) = some self')
    (hactive : (self.subprocess (.device d)).proc.active = true) :
    .processShouldExit ∈ uvWrites d (self'.log.drop self.log.length) := by
  obtain ⟨effects, hlog, hnew⟩ := step_log hs
  rw [hlog, List.drop_left]
  cases hnew with
  | silent _ hsilent =>
    rcases hsilent with hstate | hcheck
    · cases haccepts.1.symm.trans hstate
    · cases haccepts.2.symm.trans hcheck
  | replied _ _ hquery => exact absurd hquery id
  | disabling =>
    exact mem_uvWrites.mpr (List.mem_cons_of_mem _ (mem_killWrites_of_active hK hactive))

/-- A disable request that is accepted ends every device process that is running: each of
them is over after as many steps of its own as it has statements left, a round of its event
loop counting if it looks at the supervisor, whatever else happens in between. -/
theorem todo_of_disable (hn : (system env devices).Reachable n)
    (haccepts : Accepts n.supervisor) {raws : ℕ → SoscIpcMsg}
    (he : (system env devices).step n (.supervisor (.osc .disable) raws) = some n')
    (hactive : (n.supervisor.subprocess (.device d)).proc.active = true) :
    (system env devices).LeadsTo (lets d) (fun _ => True) (fun m => (m.process d).todo = [])
      (n.process d).todo.length n' := by
  obtain ⟨hkept, raws₀, hobeys, -⟩ := (asked_invariant env devices).reachable hn d
  have hstep : supervisorStep env n (.osc .disable) raws = some n' := he
  obtain ⟨-, hs, hprocess, -⟩ := step_supervisor hstep
  have hknown := (supervisor_invariant (known_invariant env)).reachable hn
  have hasked := mem_uvWrites_of_accepts hknown haccepts hs hactive
  have hending : Ending devices d (n.process d).todo.length n' := by
    have hreceived : DeviceProcess.Obeys ((n.process d).receive (wireStream (raws d) _)) _ :=
      hobeys.receive (uvWrites_step d hs)
    rw [Ending, hprocess d]
    refine ⟨(DeviceProcess.kept_invariant _).step _ (.stdin _) _ hkept rfl,
      ⟨_, hreceived, .inl ?_⟩, le_rfl⟩
    refine List.append_ne_nil_of_right_ne_nil _ fun hnil => ?_
    rw [List.map_eq_nil_iff.mp hnil] at hasked
    exact List.not_mem_nil hasked
  refine EventSystem.leadsTo_of_within (W := Ending devices d) (fun m hm => ?_) ?_ ?_ hending
  · exact List.length_eq_zero_iff.mp (Nat.le_zero.mp hm.within)
  · exact fun k m e m' hm _ hstep => hm.keep hstep
  · exact fun k m e m' hm _ hlets hstep => hm.own hlets hstep

/-- A device that has just been launched is shut down. -/
theorem todo_of_disable_sampleNetwork :
    ∃ n n', (system Env.reliable fun _ => DeviceProcess.sampleEnv).exec sampleNetwork
        [sampleStep .idle, sampleStep (.detectorRead (.deviceConnection sampleDevnode))] =
          some n ∧
      (system Env.reliable fun _ => DeviceProcess.sampleEnv).step n
        (sampleStep (.osc .disable)) = some n' ∧
      (system Env.reliable fun _ => DeviceProcess.sampleEnv).LeadsTo (lets 0) (fun _ => True)
        (fun m => (m.process 0).todo = []) 23 n' := by
  obtain ⟨n, n', hrun, haccepts, hstep, hactive, hlength⟩ : ∃ n n',
      (system Env.reliable fun _ => DeviceProcess.sampleEnv).exec sampleNetwork
        [sampleStep .idle, sampleStep (.detectorRead (.deviceConnection sampleDevnode))] =
          some n ∧
      Accepts n.supervisor ∧
      (system Env.reliable fun _ => DeviceProcess.sampleEnv).step n
        (sampleStep (.osc .disable)) = some n' ∧
      (n.supervisor.subprocess (.device 0)).proc.active = true ∧
      (n.process 0).todo.length = 23 :=
    ⟨_, _, rfl, ⟨rfl, rfl⟩, rfl, rfl, rfl⟩
  refine ⟨n, n', hrun, hstep, ?_⟩
  rw [← hlength]
  exact todo_of_disable ⟨_, _, init_sampleNetwork, hrun⟩ haccepts hstep hactive

end Network

end Serialosc
