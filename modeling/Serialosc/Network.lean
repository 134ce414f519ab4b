import Serialosc.Device.Exit
import Serialosc.Support.Simulations

/-!
# The supervisor and its device processes

`Network` puts the supervisor and the programs that it starts together: each of them is
`sosc_server_run`, with a pipe to the supervisor and one from it.  A process runs while
its handle is active, and it is only reported to have exited once it is over.

`deviceNetwork` knows of a device just what it says; `simulation` shows that the programs
say no more than this, whatever becomes of them.
-/

namespace Serialosc

open ByteMemory Runs

/-- The environment of a process that `launch_subprocess` has started: both ends are pipes. -/
def ProcessEnv.launched (env : ProcessEnv) : ProcessEnv :=
  { env with ipcIn := true, ipcOut := true }

/-- The supervisor, its device processes, and what the pipes from them hold. -/
structure Network where
  supervisor : SoscSupervisor
  process : ℕ → DeviceProcess
  fromProc : ℕ → List IpcMsg

/-- A step of the supervisor or of the process of a device.  What the supervisor writes to
device `d` is put together in `raws d`, of which only the type is set. -/
inductive NetworkEvent
  | supervisor (e : Event) (raws : ℕ → SoscIpcMsg)
  | device (d : ℕ) (e : DeviceProcess.ProcessEvent)

/-- The messages to device `d` among some effects. -/
def uvWrites (d : ℕ) (effects : List Effect) : List IpcMsg :=
  effects.filterMap fun
    | .uvWrite d' msg => if d' = d then some msg else none
    | _ => none

/-- The structure with the type of a message. -/
def SoscIpcMsg.typed (raw : SoscIpcMsg) (msg : IpcMsg) : SoscIpcMsg :=
  { raw with type := BitVec.ofNat 32 msg.type.code }

/-- The bytes of some messages. -/
def wireStream (raw : SoscIpcMsg) (msgs : List IpcMsg) : List UInt8 :=
  msgs.flatMap fun msg => wireBytes (raw.typed msg) msg

/-- More bytes are put into the standard input. -/
def DeviceProcess.receive (self : DeviceProcess) (bytes : List UInt8) : DeviceProcess :=
  { self with stdin := { self.stdin with stream := self.stdin.stream ++ bytes } }

namespace Network

variable (env : Env) (devices : ℕ → ProcessEnv)

/-- A message is read when it is the next one, and an exit is noticed when the process is
over. -/
def allows (n : Network) : Event → Bool
  | .deviceRead d msg => (n.fromProc d).head? = some msg
  | .exit (.device d) => (n.process d).todo = []
  | _ => true

/-- What the pipes hold after an event of the supervisor. -/
def unread (n : Network) : Event → ℕ → List IpcMsg
  | .deviceRead d _ => Function.update n.fromProc d (n.fromProc d).tail
  | _ => n.fromProc

/-- A step of the supervisor: what it writes is there to be read. -/
def supervisorStep (n : Network) (e : Event) (raws : ℕ → SoscIpcMsg) : Option Network :=
  if n.allows e then
    (Serialosc.step env n.supervisor e).map fun s =>
      { supervisor := s
        process := fun d => (n.process d).receive
          (wireStream (raws d) (uvWrites d (s.log.drop n.supervisor.log.length)))
        fromProc := n.unread e }
  else none

/-- A step of a device process of its own accord, while it runs. -/
def deviceStep (n : Network) (d : ℕ) (e : DeviceProcess.ProcessEvent) : Option Network :=
  if (n.supervisor.subprocess (.device d)).proc.active then
    (DeviceProcess.step (devices d).launched (n.process d) e).map fun p =>
      { n with
        process := Function.update n.process d p
        fromProc := Function.update n.fromProc d (n.fromProc d ++
          (DeviceProcess.written p.log).drop (DeviceProcess.written (n.process d).log).length) }
  else none

/-- The next state of the network, if the event can happen. -/
def step (n : Network) : NetworkEvent → Option Network
  | .supervisor e raws => supervisorStep env n e raws
  | .device _ (.stdin _) => none
  | .device d e => deviceStep devices n d e

/-- The runs of the network.  Reading from a pipe does not fail. -/
def system : EventSystem Network NetworkEvent where
  init n := (Serialosc.supervisor env).init n.supervisor ∧
    (∀ d, DeviceProcess.Fresh (n.process d) ∧ (n.process d).stdin.Serves) ∧
      ∀ d, n.fromProc d = []
  step := step env devices

variable {env : Env} {devices : ℕ → ProcessEnv} {n n' : Network}

theorem step_supervisor {e : Event} {raws : ℕ → SoscIpcMsg}
    (h : supervisorStep env n e raws = some n') :
    n.allows e = true ∧ Serialosc.step env n.supervisor e = some n'.supervisor ∧
      (∀ d, n'.process d = (n.process d).receive
        (wireStream (raws d) (uvWrites d (n'.supervisor.log.drop n.supervisor.log.length)))) ∧
      n'.fromProc = n.unread e := by
  obtain ⟨hallows, h⟩ := Option.ite_none_right_eq_some.mp h
  obtain ⟨s, hs, rfl⟩ := Option.map_eq_some_iff.mp h
  exact ⟨hallows, hs, fun _ => rfl, rfl⟩

theorem step_device {d : ℕ} {e : DeviceProcess.ProcessEvent}
    (h : step env devices n (.device d e) = some n') :
    (∀ bytes, e ≠ .stdin bytes) ∧ (n.supervisor.subprocess (.device d)).proc.active = true ∧
      ∃ p, DeviceProcess.step (devices d).launched (n.process d) e = some p ∧
        n'.supervisor = n.supervisor ∧ n'.process = Function.update n.process d p ∧
        n'.fromProc = Function.update n.fromProc d (n.fromProc d ++
          (DeviceProcess.written p.log).drop
            (DeviceProcess.written (n.process d).log).length) := by
  have hdevice : (∀ bytes, e ≠ .stdin bytes) ∧ deviceStep devices n d e = some n' := by
    cases e with
    | stdin bytes => cases h
    | run ok => exact ⟨fun _ => DeviceProcess.ProcessEvent.noConfusion, h⟩
    | round round => exact ⟨fun _ => DeviceProcess.ProcessEvent.noConfusion, h⟩
    | killed => exact ⟨fun _ => DeviceProcess.ProcessEvent.noConfusion, h⟩
  obtain ⟨hown, h⟩ := hdevice
  obtain ⟨hactive, h⟩ := Option.ite_none_right_eq_some.mp h
  obtain ⟨p, hp, rfl⟩ := Option.map_eq_some_iff.mp h
  exact ⟨hown, hactive, p, hp, rfl, rfl, rfl⟩

/-- What holds of the supervisor by itself holds of it in the network. -/
theorem supervisor_invariant {P : SoscSupervisor → Prop}
    (hP : (Serialosc.supervisor env).Invariant P) :
    (system env devices).Invariant fun n => P n.supervisor where
  init n hn := hP.init _ hn.1
  step n e n' hn he := by
    cases e with
    | supervisor e raws =>
      obtain ⟨-, hs, -⟩ := step_supervisor he
      exact hP.step _ e _ hn hs
    | device d e =>
      obtain ⟨-, -, p, -, hsupervisor, -⟩ := step_device he
      rw [hsupervisor]
      exact hn

/-- What holds of a process after every step of its own, and after the supervisor has
written to it, holds of the processes of the network. -/
theorem process_invariant {P : ℕ → DeviceProcess → Prop}
    (hP : ∀ d, (DeviceProcess.system (devices d).launched).Invariant (P d)) :
    (system env devices).Invariant fun n => ∀ d, P d (n.process d) where
  init n hn d := (hP d).init _ (hn.2.1 d).1
  step n e n' hn he d := by
    cases e with
    | supervisor e raws =>
      obtain ⟨-, -, hprocess, -⟩ := step_supervisor he
      rw [hprocess d]
      exact (hP d).step _ (.stdin _) _ (hn d) rfl
    | device d' e =>
      obtain ⟨-, -, p, hp, -, hprocess, -⟩ := step_device he
      rw [hprocess]
      by_cases hd : d = d'
      · subst hd
        rw [Function.update_self]
        exact (hP d).step _ e p (hn d) hp
      · rw [Function.update_of_ne hd]
        exact hn d

/-! ## The programs say what their devices say -/

/-- The devices as `deviceNetwork` knows them. -/
def identities (devices : ℕ → ProcessEnv) (d : ℕ) : DeviceIdentity := (devices d).identity

/-- What the processes have written and what their pipes hold is what the channels tell. -/
structure Matches (devices : ℕ → ProcessEnv) (n : Network)
    (m : SoscSupervisor × (ℕ → Channel IpcMsg)) : Prop where
  supervisor : m.1 = n.supervisor
  pipe : ∀ d, (m.2 d).pipe = n.fromProc d
  script : ∀ d, DeviceProcess.written (n.process d).log ++ (m.2 d).script =
    (identities devices d).messages

/-- The messages that a step of a process writes. -/
def newlyWritten (devices : ℕ → ProcessEnv) (n : Network) (d : ℕ)
    (e : DeviceProcess.ProcessEvent) : List IpcMsg :=
  (DeviceProcess.step (devices d).launched (n.process d) e).elim [] fun p =>
    (DeviceProcess.written p.log).drop (DeviceProcess.written (n.process d).log).length

/-- A step of the supervisor is matched by itself, a step of a process by the messages that
it writes. -/
def matched (devices : ℕ → ProcessEnv) (n : Network) : NetworkEvent → List (Event ⊕ ℕ)
  | .supervisor e _ => [.inl e]
  | .device d e => (newlyWritten devices n d e).map fun _ => .inr d

end Network

namespace DeviceProcess

variable {env : ProcessEnv} {self self' : DeviceProcess} {e : ProcessEvent}

/-- A process does not take back what it has written. -/
theorem written_step (hkept : Kept env self) (hstep : step env self e = some self') :
    ∃ msgs, written self'.log = written self.log ++ msgs := by
  cases e with
  | run ok =>
    obtain ⟨stmt, rest, htodo, -, rfl⟩ := step_run hstep
    have hexec : Executed env ok stmt { self with todo := rest } _ := executed_exec ok stmt _
    generalize exec env ok { self with todo := rest } stmt = next at hexec ⊢
    cases hexec with
    | aborts => exact ⟨[], (List.append_nil _).symm⟩
    | crashes => exact ⟨[], written_append _ _⟩
    | jumps => exact ⟨[], (List.append_nil _).symm⟩
    | goes _ hgoes => exact ⟨_, hgoes.written⟩
  | round round =>
    obtain ⟨rest, htodo, rfl⟩ := step_round hstep
    have hlive := hkept.live htodo
    have hheeds : Heeds env (round.heard env self) self _ := heeds_eventLoopRound hlive round
    have hwritten := hheeds.written hlive
    refine ⟨[], ?_⟩
    rw [List.append_nil]
    dsimp only
    split_ifs
    · exact hwritten
    · exact hwritten
  | stdin bytes =>
    obtain rfl := Option.some.inj hstep
    exact ⟨[], (List.append_nil _).symm⟩
  | killed =>
    obtain ⟨-, hstep⟩ := Option.ite_none_left_eq_some.mp hstep
    obtain rfl := Option.some.inj hstep
    exact ⟨[], (List.append_nil _).symm⟩

/-- What a launched process has written is what its device has to say, as far as it came. -/
theorem written_of_kept
    (hfits : (IpcMsg.deviceInfo env.identity.serial env.identity.friendly).wireSize ≤
      soscIpcMsgBufferSize) (hkept : Kept env.launched self) :
    ∃ rest, written self.log ++ rest = env.identity.messages := by
  obtain ⟨rest, hall, -⟩ := hkept.told
  refine ⟨rest, hall.trans ?_⟩
  have hbody : pending env.launched soscServerRunBody =
      env.identity.messages.filter ipcMsgFits := rfl
  rw [hbody]
  exact List.filter_eq_self.mpr (messages_fit hfits)

end DeviceProcess

namespace Network

variable {env : Env} {devices : ℕ → ProcessEnv} {n n' : Network}

/-- A step of the supervisor is a step of the supervisor of `deviceNetwork`. -/
theorem Matches.supervisor_step {m : SoscSupervisor × (ℕ → Channel IpcMsg)} {e : Event}
    {raws : ℕ → SoscIpcMsg} (h : Matches devices n m)
    (hstep : step env devices n (.supervisor e raws) = some n') :
    ∃ m', (deviceNetwork env (identities devices)).step m (.inl e) = some m' ∧
      Matches devices n' m' := by
  obtain ⟨hallows, hs, hprocess, hunread⟩ := step_supervisor hstep
  have hscript (d : ℕ) : DeviceProcess.written (n'.process d).log ++ (m.2 d).script =
      (identities devices d).messages := by
    rw [hprocess d]
    exact h.script d
  rw [← h.supervisor] at hs
  by_cases hread : ∃ d msg, e = .deviceRead d msg
  · obtain ⟨d, msg, rfl⟩ := hread
    have hhead : (m.2 d).pipe.head? = some msg := by
      rw [h.pipe d]
      exact of_decide_eq_true hallows
    obtain ⟨rest, hpipe⟩ := List.head?_eq_some_iff.mp hhead
    let c : Channel IpcMsg := { m.2 d with pipe := rest, seen := (m.2 d).seen ++ [msg] }
    have hc : (m.2 d).read msg = some c := by
      rw [Channel.read, hpipe]
      exact if_pos rfl
    refine ⟨(n'.supervisor, Function.update m.2 d c), ?_, rfl, fun d' => ?_, fun d' => ?_⟩
    · change ((m.2 d).read msg).bind _ = _
      rw [hc, Option.bind_some]
      change (Serialosc.step env m.1 (.deviceRead d msg)).map _ = _
      rw [hs]
      rfl
    · dsimp only
      rw [hunread, unread]
      by_cases hd : d' = d
      · subst hd
        rw [Function.update_self, Function.update_self, ← h.pipe d', hpipe]
        rfl
      · rw [Function.update_of_ne hd, Function.update_of_ne hd]
        exact h.pipe d'
    · dsimp only
      by_cases hd : d' = d
      · subst hd
        rw [Function.update_self]
        exact hscript d'
      · rw [Function.update_of_ne hd]
        exact hscript d'
  · have hmsg : Event.deviceMsg e = none ∧ n.unread e = n.fromProc := by
      cases e with
      | deviceRead d msg => exact absurd ⟨d, msg, rfl⟩ hread
      | _ => exact ⟨rfl, rfl⟩
    refine ⟨(n'.supervisor, m.2), ?_, rfl, fun d => ?_, hscript⟩
    · rw [deviceNetwork, EventSystem.feed]
      simp only [hmsg.1]
      change (Serialosc.step env m.1 e).map _ = _
      rw [hs]
      rfl
    · rw [hunread, hmsg.2]
      exact h.pipe d

/-- A step of a process is matched by the messages that it writes. -/
theorem Matches.device_step {m : SoscSupervisor × (ℕ → Channel IpcMsg)} {d : ℕ}
    {e : DeviceProcess.ProcessEvent}
    (hfits : (IpcMsg.deviceInfo (identities devices d).serial
      (identities devices d).friendly).wireSize ≤ soscIpcMsgBufferSize)
    (hkept : ∀ d, DeviceProcess.Kept (devices d).launched (n.process d))
    (h : Matches devices n m) (hstep : step env devices n (.device d e) = some n') :
    ∃ m', (deviceNetwork env (identities devices)).exec m (matched devices n (.device d e)) =
      some m' ∧ Matches devices n' m' := by
  obtain ⟨-, hactive, p, hp, hsupervisor, hprocess, hpipes⟩ := step_device hstep
  obtain ⟨msgs, hmsgs⟩ := DeviceProcess.written_step (hkept d) hp
  obtain ⟨rest, hrest⟩ := DeviceProcess.written_of_kept hfits
    ((DeviceProcess.kept_invariant _).step _ e p (hkept d) hp)
  have hscript : (m.2 d).script = msgs ++ rest := by
    rw [hmsgs, List.append_assoc] at hrest
    exact List.append_cancel_left ((h.script d).trans hrest.symm)
  have hdrop : (DeviceProcess.written p.log).drop
      (DeviceProcess.written (n.process d).log).length = msgs := by
    rw [hmsgs, List.drop_left]
  have hnew : newlyWritten devices n d e = msgs := by
    rw [newlyWritten, hp]
    exact hdrop
  have hall : ∀ msg ∈ msgs, ipcMsgFits msg = true := by
    intro msg hmsg
    refine messages_fit hfits msg ?_
    rw [identities, ← hrest, hmsgs]
    exact List.mem_append_left _ (List.mem_append_right _ hmsg)
  rw [← h.supervisor] at hactive
  let c : Channel IpcMsg := { m.2 d with script := rest, pipe := (m.2 d).pipe ++ msgs }
  refine ⟨(m.1, Function.update m.2 d c), ?_, ?_, fun d' => ?_, fun d' => ?_⟩
  · rw [matched, hnew]
    exact EventSystem.feed_writes hactive hscript hall
  · rw [hsupervisor]
    exact h.supervisor
  · dsimp only
    rw [hpipes, hdrop]
    by_cases hd : d' = d
    · subst hd
      rw [Function.update_self, Function.update_self, ← h.pipe d']
    · rw [Function.update_of_ne hd, Function.update_of_ne hd]
      exact h.pipe d'
  · dsimp only
    rw [hprocess]
    by_cases hd : d' = d
    · subst hd
      rw [Function.update_self, Function.update_self]
      exact hrest
    · rw [Function.update_of_ne hd, Function.update_of_ne hd]
      exact h.script d'

/-- The network simulates `deviceNetwork`. -/
theorem simulation (env : Env) (devices : ℕ → ProcessEnv)
    (hfits : ∀ d, (IpcMsg.deviceInfo (identities devices d).serial
      (identities devices d).friendly).wireSize ≤ soscIpcMsgBufferSize) :
    EventSystem.Simulation (system env devices) (deviceNetwork env (identities devices))
      (fun n => ∀ d, DeviceProcess.Kept (devices d).launched (n.process d)) (Matches devices)
      (matched devices) where
  known := process_invariant fun d => DeviceProcess.kept_invariant (devices d).launched
  init n hn := by
    let start (d : ℕ) : Channel IpcMsg := { script := (identities devices d).messages }
    refine ⟨(n.supervisor, start), ⟨hn.1, fun _ => rfl⟩, rfl, fun d => ?_, fun d => ?_⟩
    · exact (hn.2.2 d).symm
    · rw [(hn.2.1 d).1.log]
      rfl
  step n m e n' hkept hmatches hstep := by
    cases e with
    | supervisor e raws =>
      obtain ⟨m', hm', hmatches'⟩ := hmatches.supervisor_step hstep
      exact ⟨m', (EventSystem.exec_cons_some _).mpr ⟨m', hm', rfl⟩, hmatches'⟩
    | device d e => exact hmatches.device_step (hfits d) hkept hstep

/-! ## Removals -/

theorem exit_of_mem_raisedBy {self : SoscSupervisor} {d : ℕ} {e : Event}
    (h : .deviceDisconnection ∈ raisedBy self d e) : e = .exit (.device d) := by
  cases e with
  | deviceRead d' msg =>
    cases msg with
    | deviceReady =>
      rw [raisedBy] at h
      split at h
      · cases List.mem_singleton.mp h
      · exact absurd h List.not_mem_nil
    | _ => exact absurd h List.not_mem_nil
  | exit who =>
    cases who with
    | detector => exact absurd h List.not_mem_nil
    | device d' =>
      rw [raisedBy] at h
      split at h
      · next hand => rw [hand.1]
      · exact absurd h List.not_mem_nil
  | _ => exact absurd h List.not_mem_nil

end Network

/-- A process that is over does nothing. -/
theorem DeviceProcess.step_of_over {env : ProcessEnv} {self : DeviceProcess} {e : ProcessEvent}
    (htodo : self.todo = []) (hown : ∀ bytes, e ≠ .stdin bytes) : step env self e = none := by
  cases e with
  | run ok => simp only [step, htodo]
  | round round => simp only [step, htodo]
  | stdin bytes => exact absurd rfl (hown bytes)
  | killed => exact if_pos htodo

namespace Network

variable {env : Env} {devices : ℕ → ProcessEnv} {n n' : Network}

/-- The processes of the devices that have been announced to be gone are over. -/
theorem over_invariant (env : Env) (devices : ℕ → ProcessEnv) :
    (system env devices).Invariant fun n =>
      ∀ d, .deviceDisconnection ∈ raised d n.supervisor.log → (n.process d).todo = [] where
  init n hn d hmem := by
    obtain ⟨exeDir, configDir, -, heq⟩ := supervisor_init_iff.mp hn.1
    rw [heq] at hmem
    exact absurd hmem List.not_mem_nil
  step n e n' hn he d hmem := by
    cases e with
    | supervisor e raws =>
      obtain ⟨hallows, hs, hprocess, -⟩ := step_supervisor he
      rw [hprocess d]
      rw [raised_step hs] at hmem
      rcases List.mem_append.mp hmem with hmem | hmem
      · exact hn d hmem
      · obtain rfl := exit_of_mem_raisedBy hmem
        exact of_decide_eq_true hallows
    | device d' e =>
      obtain ⟨hown, -, p, hp, hsupervisor, hprocess, -⟩ := step_device he
      rw [hsupervisor] at hmem
      have htodo := hn d hmem
      rw [hprocess]
      by_cases hd : d = d'
      · subst hd
        rw [DeviceProcess.step_of_over htodo hown] at hp
        cases hp
      · rw [Function.update_of_ne hd]
        exact htodo

/-- What the supervisor has read of a device and what is in the pipe is what the process has
written. -/
theorem told_of_reachable
    (hfits : ∀ d, (IpcMsg.deviceInfo (devices d).identity.serial
      (devices d).identity.friendly).wireSize ≤ soscIpcMsgBufferSize)
    (hn : (system env devices).Reachable n) (d : ℕ) :
    ∃ seen, seen ++ n.fromProc d = DeviceProcess.written (n.process d).log ∧
      Told (devices d).identity n.supervisor d seen := by
  obtain ⟨m, hm, hmatches⟩ := (simulation env devices hfits).reachable hn
  obtain ⟨-, hwhole, htold⟩ := (told_invariant env (identities devices) hfits).reachable hm
  have hall : (m.2 d).seen ++ (m.2 d).pipe ++ (m.2 d).script =
      (identities devices d).messages := hwhole d
  rw [hmatches.pipe d] at hall
  refine ⟨(m.2 d).seen, List.append_cancel_right (hall.trans (hmatches.script d).symm), ?_⟩
  rw [← hmatches.supervisor]
  exact htold d

/-- Whatever the programs and the supervisor do, and in whatever order: about each device
nothing is announced, or its addition, or its addition and then its removal.  The addition
is announced when the supervisor has read that the process is ready, and the removal when
the process is over; and whatever is said about a device carries the names and the port of
this device. -/
theorem announced_of_processes (env : Env) (devices : ℕ → ProcessEnv)
    (hfits : ∀ d, (IpcMsg.deviceInfo (devices d).identity.serial
      (devices d).identity.friendly).wireSize ≤ soscIpcMsgBufferSize)
    (hn : (system env devices).Reachable n) (d : ℕ) :
    (raised d n.supervisor.log = [] ∨ raised d n.supervisor.log = [.deviceConnection] ∨
      raised d n.supervisor.log = [.deviceConnection, .deviceDisconnection]) ∧
    (∃ seen, seen ++ n.fromProc d = DeviceProcess.written (n.process d).log ∧
      (.deviceConnection ∈ raised d n.supervisor.log ↔ .deviceReady ∈ seen)) ∧
    (.deviceDisconnection ∈ raised d n.supervisor.log → (n.process d).todo = []) ∧
    (∀ type entry, .oscNotify type d entry ∈ n.supervisor.log →
      entry = (devices d).identity.entry) ∧
    ∀ dst path args, .loSendFrom (some d) dst path args ∈ n.supervisor.log →
      args = (devices d).identity.entry := by
  obtain ⟨seen, hseen, htold⟩ := told_of_reachable hfits hn d
  refine ⟨?_, ⟨seen, hseen, ?_⟩, ?_, fun type entry hmem => ?_, fun dst path args hmem => ?_⟩
  · rw [htold.raised]
    exact announcedSoFar_cases _ _
  · rw [htold.raised]
    exact connection_mem_announcedSoFar
  · exact (over_invariant env devices).reachable hn d
  · exact htold.about _ hmem entry rfl
  · exact htold.about _ hmem args rfl

/-- The supervisor and a device as they are started. -/
def sampleNetwork : Network where
  supervisor := reliableStart
  process _ := DeviceProcess.sampleProcess
  fromProc _ := []

theorem init_sampleNetwork :
    (system Env.reliable fun _ => DeviceProcess.sampleEnv).init sampleNetwork :=
  ⟨init_reliableStart,
    fun _ => ⟨DeviceProcess.fresh_sampleProcess, fun _ => ⟨2 ^ 63, rfl, le_rfl⟩, fun _ => rfl⟩,
    fun _ => rfl⟩

/-- A step of the supervisor, whose messages are zeroed. -/
def sampleStep (e : Event) : NetworkEvent := .supervisor e fun _ => connectionMsg

/-- A device is connected, becomes ready, is unplugged and exits. -/
def sampleEvents : List NetworkEvent :=
  [sampleStep .idle, sampleStep (.detectorRead (.deviceConnection sampleDevnode))] ++
    List.replicate 15 (.device 0 (.run true)) ++
    [sampleStep (.deviceRead 0 (.deviceInfo sampleDevice.serial sampleDevice.friendly)),
      sampleStep (.deviceRead 0 (.oscPortChange sampleDevice.port)),
      sampleStep (.deviceRead 0 .deviceReady),
      .device 0 (.round DeviceProcess.sampleUnplug)] ++
    List.replicate 7 (.device 0 (.run true)) ++ [sampleStep (.exit (.device 0))]

/-- The supervisor has read that the device is ready, has announced that it has come and that
it is gone, and has told nothing but its names and its port. -/
theorem announced_of_processes_sampleEvents :
    ∃ n, (system Env.reliable fun _ => DeviceProcess.sampleEnv).exec sampleNetwork sampleEvents =
        some n ∧
      raised 0 n.supervisor.log = [.deviceConnection, .deviceDisconnection] ∧
      (∃ seen, seen ++ n.fromProc 0 = DeviceProcess.written (n.process 0).log ∧
        .deviceReady ∈ seen) ∧
      (n.process 0).todo = [] ∧
      (∀ type entry, .oscNotify type 0 entry ∈ n.supervisor.log → entry = sampleDevice.entry) ∧
      ∀ dst path args, .loSendFrom (some 0) dst path args ∈ n.supervisor.log →
        args = sampleDevice.entry := by
  obtain ⟨n, hrun, hraised⟩ : ∃ n, (system Env.reliable fun _ => DeviceProcess.sampleEnv).exec
      sampleNetwork sampleEvents = some n ∧
      raised 0 n.supervisor.log = [.deviceConnection, .deviceDisconnection] := ⟨_, rfl, rfl⟩
  obtain ⟨-, ⟨seen, hseen, hready⟩, hover, hnotified, hsent⟩ :=
    announced_of_processes Env.reliable (fun _ => DeviceProcess.sampleEnv) (fun _ => by decide)
      ⟨_, _, init_sampleNetwork, hrun⟩ 0
  rw [hraised] at hready hover
  exact ⟨n, hrun, hraised, ⟨seen, hseen, hready.mp (by decide)⟩, hover (by decide), hnotified,
    hsent⟩

end Network

end Serialosc
