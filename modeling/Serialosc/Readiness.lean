import Serialosc.Network

/-!
# A device that has been started is announced

A device process that does not fail says within its first statements that it is ready, and
the supervisor announces the device as soon as it has read this.  `announced_of_started`
counts the steps of the process, and then the reads of the supervisor, in the midst of
whatever the supervisor and the other processes do.
-/

namespace Serialosc

open ByteMemory Runs

namespace DeviceProcess

variable {env : ProcessEnv} {self self' : DeviceProcess}

/-- A statement that has what it asks for, and whose message fits, goes on. -/
theorem goes_exec (stmt : ServerStmt) (hsave : stmt ≠ .soscConfigWrite)
    (hfits : ∀ msg, stmt.message env.identity = some msg → ipcMsgFits msg = true) :
    Goes env true stmt self (exec env true self stmt) := by
  have hexec : Executed env true stmt self _ := executed_exec true stmt self
  generalize exec env true self stmt = next at hexec
  cases hexec with
  | aborts msg hmsg hlong => exact Bool.noConfusion ((hfits msg hmsg).symm.trans hlong)
  | crashes heq => exact absurd heq hsave
  | jumps label hlabel hok => cases hok
  | goes _ hgoes => exact hgoes

/-- The messages of the statements are those of the device. -/
theorem message_mem {stmt : ServerStmt} {identity : DeviceIdentity} {msg : IpcMsg}
    (h : stmt.message identity = some msg) : msg ∈ identity.messages := by
  cases stmt <;> cases h <;> simp [DeviceIdentity.messages]

/-- At most `j` statements are missing until the process has said that it is ready. -/
def Readies (j : ℕ) (self : DeviceProcess) : Prop :=
  .deviceReady ∈ written self.log ∨
    ∃ front rest, self.todo = front ++ .sendDeviceReady :: rest ∧ front.length < j

/-- Saving the settings, and the event loop, come later. -/
theorem sendDeviceReady_notMem {stmt : ServerStmt} (h : stmt = .soscConfigWrite ∨
    stmt = .soscEventLoop) : .sendDeviceReady ∉ stmt.following := by
  rcases h with rfl | rfl <;> decide

theorem Readies.mono {j j' : ℕ} (hj : j ≤ j') (h : Readies j self) : Readies j' self := by
  refine h.imp_right ?_
  rintro ⟨front, rest, htodo, hlt⟩
  exact ⟨front, rest, htodo, hlt.trans_le hj⟩

/-- A statement less is missing after a step of the process. -/
theorem Readies.run {j : ℕ} (hout : env.ipcOut = true) (hkept : Kept env self)
    (hfits : ∀ msg ∈ env.identity.messages, ipcMsgFits msg = true) (h : Readies j self)
    (hstep : step env self (.run true) = some self') : Readies (j - 1) self' := by
  obtain ⟨msgs, hmsgs⟩ := written_step hkept hstep
  obtain ⟨stmt, rest, htodo, -, rfl⟩ := step_run hstep
  rcases h with hsaid | ⟨front, after, htodo', hlt⟩
  · refine .inl ?_
    rw [hmsgs]
    exact List.mem_append_left _ hsaid
  · have hsuffix : stmt :: rest <:+ soscServerRunBody := htodo ▸ hkept.todo
    have hmem : .sendDeviceReady ∈ stmt :: rest := by
      rw [← htodo, htodo']
      exact List.mem_append_right _ List.mem_cons_self
    have hsave : stmt ≠ .soscConfigWrite := by
      rintro rfl
      rw [rest_of_suffix hsuffix] at hmem
      rcases List.mem_cons.mp hmem with heq | hin
      · cases heq
      · exact sendDeviceReady_notMem (.inl rfl) hin
    have hgoes : Goes env true stmt { self with todo := rest } _ :=
      goes_exec stmt hsave fun msg hmsg => hfits msg (message_mem hmsg)
    rw [htodo] at htodo'
    cases front with
    | nil =>
      obtain ⟨rfl, -⟩ := List.cons.inj htodo'
      have hready : ServerStmt.sendDeviceReady.message env.identity = some .deviceReady := rfl
      refine .inl ?_
      rw [hgoes.written, pending_of_message hready, if_pos ⟨hout, hfits _ (message_mem hready)⟩]
      exact List.mem_append_right _ (List.mem_singleton_self _)
    | cons first front =>
      obtain ⟨rfl, rfl⟩ := List.cons.inj htodo'
      exact .inr ⟨front, after, hgoes.todo, Nat.lt_sub_of_add_lt hlt⟩

/-- The process does not fail in this step. -/
def Succeeds : ProcessEvent → Prop
  | .run ok => ok = true
  | .killed => False
  | .round _ | .stdin _ => True

/-- Nothing else that happens makes the way longer. -/
theorem Readies.keep {j : ℕ} {e : ProcessEvent} (hout : env.ipcOut = true)
    (hkept : Kept env self) (hfits : ∀ msg ∈ env.identity.messages, ipcMsgFits msg = true)
    (h : Readies j self) (he : Succeeds e) (hstep : step env self e = some self') :
    Readies j self' := by
  cases e with
  | run ok =>
    obtain rfl : ok = true := he
    exact (h.run hout hkept hfits hstep).mono (Nat.sub_le j 1)
  | stdin bytes =>
    obtain rfl := Option.some.inj hstep
    exact h
  | killed => exact absurd he id
  | round round =>
    obtain ⟨msgs, hmsgs⟩ := written_step hkept hstep
    obtain ⟨rest, htodo, -⟩ := step_round hstep
    rcases h with hsaid | ⟨front, after, htodo', -⟩
    · refine .inl ?_
      rw [hmsgs]
      exact List.mem_append_left _ hsaid
    · -- the event loop comes after the statement
      have hsuffix : .soscEventLoop :: rest <:+ soscServerRunBody := htodo ▸ hkept.todo
      have hmem : .sendDeviceReady ∈ ServerStmt.soscEventLoop :: rest := by
        rw [← htodo, htodo']
        exact List.mem_append_right _ List.mem_cons_self
      rw [rest_of_suffix hsuffix] at hmem
      rcases List.mem_cons.mp hmem with heq | hin
      · cases heq
      · exact absurd hin (sendDeviceReady_notMem (.inr rfl))

end DeviceProcess

namespace Network

variable {env : Env} {devices : ℕ → ProcessEnv} {n n' : Network} {d : ℕ}

/-- A statement of the process of device `d` is executed. -/
def runs (d : ℕ) : NetworkEvent → Bool
  | .device d' (.run _) => d' = d
  | _ => false

/-- The process of device `d` does not fail. -/
def Succeeds (d : ℕ) : NetworkEvent → Prop
  | .device d' e => d' = d → DeviceProcess.Succeeds e
  | .supervisor _ _ => True

/-- The supervisor reads a message of device `d`. -/
def readsFrom (d : ℕ) : NetworkEvent → Bool
  | .supervisor (.deviceRead d' _) _ => d' = d
  | _ => false

/-! ## The process says that it is ready -/

/-- At most `j` statements are missing until the process of the device has said that it is
ready. -/
structure Readying (env : Env) (devices : ℕ → ProcessEnv) (d j : ℕ) (n : Network) : Prop where
  reachable : (system env devices).Reachable n
  readies : DeviceProcess.Readies j (n.process d)

theorem Readying.keep {j : ℕ} {e : NetworkEvent}
    (hfits : ∀ msg ∈ (devices d).identity.messages, ipcMsgFits msg = true)
    (h : Readying env devices d j n) (he : Succeeds d e)
    (hstep : (system env devices).step n e = some n') : Readying env devices d j n' := by
  refine ⟨h.reachable.step hstep, ?_⟩
  have hkept := (process_invariant fun d =>
    DeviceProcess.kept_invariant (devices d).launched).reachable h.reachable d
  cases e with
  | supervisor e raws =>
    obtain ⟨-, -, hprocess, -⟩ := step_supervisor hstep
    rw [hprocess d]
    exact h.readies
  | device d' e =>
    obtain ⟨-, -, p, hp, -, hprocess, -⟩ := step_device hstep
    rw [hprocess]
    by_cases hd : d' = d
    · subst hd
      rw [Function.update_self]
      exact h.readies.keep rfl hkept hfits (he rfl) hp
    · rw [Function.update_of_ne (Ne.symm hd)]
      exact h.readies

theorem Readying.own {j : ℕ} {e : NetworkEvent}
    (hfits : ∀ msg ∈ (devices d).identity.messages, ipcMsgFits msg = true)
    (h : Readying env devices d (j + 1) n) (he : Succeeds d e) (howned : runs d e = true)
    (hstep : (system env devices).step n e = some n') : Readying env devices d j n' := by
  refine ⟨h.reachable.step hstep, ?_⟩
  have hkept := (process_invariant fun d =>
    DeviceProcess.kept_invariant (devices d).launched).reachable h.reachable d
  cases e with
  | supervisor e raws => exact absurd howned Bool.false_ne_true
  | device d' e =>
    cases e with
    | run ok =>
      obtain rfl : d' = d := of_decide_eq_true howned
      obtain rfl : ok = true := he rfl
      have hrun : step env devices n (.device d' (.run true)) = some n' := hstep
      obtain ⟨-, -, p, hp, -, hprocess, -⟩ := step_device hrun
      rw [hprocess, Function.update_self]
      exact h.readies.run rfl hkept hfits hp
    | _ => exact absurd howned Bool.false_ne_true

/-! ## The supervisor reads it -/

/-- At most `k` reads are missing until the device has been announced. -/
structure Announcing (env : Env) (devices : ℕ → ProcessEnv) (d k : ℕ) (n : Network) : Prop where
  reachable : (system env devices).Reachable n
  within : .deviceConnection ∈ raised d n.supervisor.log ∨
    ∃ j, (n.fromProc d)[j]? = some .deviceReady ∧ j < k

theorem Announcing.mono {k k' : ℕ} (hk : k ≤ k') (h : Announcing env devices d k n) :
    Announcing env devices d k' n := by
  refine ⟨h.reachable, h.within.imp_right ?_⟩
  rintro ⟨j, hj, hlt⟩
  exact ⟨j, hj, hlt.trans_le hk⟩

/-- What has been announced stays so. -/
theorem mem_raised_step {e : NetworkEvent} {type : SoscIpcType}
    (h : type ∈ raised d n.supervisor.log)
    (hstep : (system env devices).step n e = some n') : type ∈ raised d n'.supervisor.log := by
  cases e with
  | supervisor e raws =>
    obtain ⟨-, hs, -, -⟩ := step_supervisor hstep
    rw [raised_step hs]
    exact List.mem_append_left _ h
  | device d' e =>
    obtain ⟨-, -, p, -, hsupervisor, -, -⟩ := step_device hstep
    rw [hsupervisor]
    exact h

/-- A read brings every message in the pipe one place forward. -/
theorem Announcing.read {k : ℕ} {msg : IpcMsg} {raws : ℕ → SoscIpcMsg}
    (hfits : ∀ d, (IpcMsg.deviceInfo (devices d).identity.serial
      (devices d).identity.friendly).wireSize ≤ soscIpcMsgBufferSize)
    (h : Announcing env devices d k n)
    (hstep : (system env devices).step n (.supervisor (.deviceRead d msg) raws) = some n') :
    Announcing env devices d (k - 1) n' := by
  have hreachable := h.reachable.step hstep
  refine ⟨hreachable, ?_⟩
  rcases h.within with hin | ⟨j, hj, hlt⟩
  · exact .inl (mem_raised_step hin hstep)
  · obtain ⟨hallows, -, hprocess, hunread⟩ := step_supervisor hstep
    obtain ⟨rest, hrest⟩ := List.head?_eq_some_iff.mp (of_decide_eq_true hallows)
    have hnext : n'.fromProc d = rest := by
      rw [hunread, unread, Function.update_self, hrest, List.tail_cons]
    rw [hrest] at hj
    cases j with
    | succ j => exact .inr ⟨j, hnext ▸ hj, Nat.lt_sub_of_add_lt hlt⟩
    | zero =>
      obtain rfl := Option.some.inj hj
      obtain ⟨seen, hseen, -⟩ := told_of_reachable hfits h.reachable d
      obtain ⟨seen', hseen', htold⟩ := told_of_reachable hfits hreachable d
      have hlog : (n'.process d).log = (n.process d).log := by
        rw [hprocess d]
        rfl
      refine .inl ?_
      rw [htold.raised, connection_mem_announcedSoFar]
      rw [hnext, hlog, ← hseen, hrest, List.append_cons] at hseen'
      rw [List.append_cancel_right hseen']
      exact List.mem_append_right _ (List.mem_singleton_self _)

theorem Announcing.keep {k : ℕ} {e : NetworkEvent}
    (hfits : ∀ d, (IpcMsg.deviceInfo (devices d).identity.serial
      (devices d).identity.friendly).wireSize ≤ soscIpcMsgBufferSize)
    (h : Announcing env devices d k n) (hstep : (system env devices).step n e = some n') :
    Announcing env devices d k n' := by
  by_cases hread : ∃ msg raws, e = .supervisor (.deviceRead d msg) raws
  · obtain ⟨msg, raws, rfl⟩ := hread
    exact (h.read hfits hstep).mono (Nat.sub_le k 1)
  · refine ⟨h.reachable.step hstep, ?_⟩
    rcases h.within with hin | ⟨j, hj, hlt⟩
    · exact .inl (mem_raised_step hin hstep)
    · refine .inr ⟨j, ?_, hlt⟩
      cases e with
      | supervisor e raws =>
        obtain ⟨-, -, -, hunread⟩ := step_supervisor hstep
        rw [hunread]
        cases e with
        | deviceRead d' msg =>
          have hd : d ≠ d' := fun heq => hread ⟨msg, raws, by rw [heq]⟩
          rw [unread, Function.update_of_ne hd]
          exact hj
        | _ => exact hj
      | device d' e =>
        obtain ⟨-, -, p, -, -, -, hpipes⟩ := step_device hstep
        rw [hpipes]
        by_cases hd : d = d'
        · subst hd
          rw [Function.update_self]
          exact (List.getElem?_append_left (List.getElem?_eq_some_iff.mp hj).1).trans hj
        · rw [Function.update_of_ne hd]
          exact hj

theorem Announcing.own {k : ℕ} {e : NetworkEvent}
    (hfits : ∀ d, (IpcMsg.deviceInfo (devices d).identity.serial
      (devices d).identity.friendly).wireSize ≤ soscIpcMsgBufferSize)
    (h : Announcing env devices d (k + 1) n) (howned : readsFrom d e = true)
    (hstep : (system env devices).step n e = some n') : Announcing env devices d k n' := by
  cases e with
  | device d' e => exact absurd howned Bool.false_ne_true
  | supervisor e raws =>
    cases e with
    | deviceRead d' msg =>
      obtain rfl : d' = d := of_decide_eq_true howned
      exact h.read hfits hstep
    | _ => exact absurd howned Bool.false_ne_true

/-- A message that has been written is in the pipe, unless it has been read. -/
theorem announcing_of_written
    (hfits : ∀ d, (IpcMsg.deviceInfo (devices d).identity.serial
      (devices d).identity.friendly).wireSize ≤ soscIpcMsgBufferSize)
    (hn : (system env devices).Reachable n)
    (hsaid : .deviceReady ∈ DeviceProcess.written (n.process d).log) :
    Announcing env devices d (n.fromProc d).length n := by
  obtain ⟨seen, hseen, htold⟩ := told_of_reachable hfits hn d
  rw [← hseen] at hsaid
  refine ⟨hn, ?_⟩
  rcases List.mem_append.mp hsaid with hin | hin
  · refine .inl ?_
    rw [htold.raised]
    exact connection_mem_announcedSoFar.mpr hin
  · obtain ⟨j, hj⟩ := List.mem_iff_getElem?.mp hin
    exact .inr ⟨j, hj, (List.getElem?_eq_some_iff.mp hj).1⟩

/-- The device is announced as soon as what its pipe holds has been read. -/
def Announceable (env : Env) (devices : ℕ → ProcessEnv) (d : ℕ) (n : Network) : Prop :=
  (system env devices).LeadsTo (readsFrom d) (fun _ => True)
    (fun m => .deviceConnection ∈ raised d m.supervisor.log) (n.fromProc d).length n

/-- A process on its way to say that it is ready has its device announced. -/
theorem Readying.leadsTo_announceable {j : ℕ}
    (hfits : ∀ d, (IpcMsg.deviceInfo (devices d).identity.serial
      (devices d).identity.friendly).wireSize ≤ soscIpcMsgBufferSize)
    (h : Readying env devices d j n) :
    (system env devices).LeadsTo (runs d) (Succeeds d) (Announceable env devices d) j n := by
  have hmessages := messages_fit (hfits d)
  refine EventSystem.leadsTo_of_within (W := Readying env devices d) (fun m hm => ?_)
    (fun j m e m' hm he hstep => hm.keep hmessages he hstep)
    (fun j m e m' hm he howned hstep => hm.own hmessages he howned hstep) h
  have hsaid : .deviceReady ∈ DeviceProcess.written (m.process d).log := by
    rcases hm.readies with hsaid | ⟨front, rest, -, hlt⟩
    · exact hsaid
    · exact absurd hlt (Nat.not_lt_zero _)
  refine EventSystem.leadsTo_of_within (W := Announcing env devices d) (fun u hu => ?_)
    (fun k u e u' hu _ hstep => hu.keep hfits hstep)
    (fun k u e u' hu _ howned hstep => hu.own hfits howned hstep)
    (announcing_of_written hfits hm.reachable hsaid)
  rcases hu.within with hin | ⟨j, -, hlt⟩
  · exact hin
  · exact absurd hlt (Nat.not_lt_zero j)

/-- A device process that has not yet said that it is ready, and does not fail, gets its device
announced, whatever else happens: as soon as it has executed its statements up to the one that
says so, and the supervisor has read what is then in the pipe. -/
theorem announced_of_started (env : Env) (devices : ℕ → ProcessEnv)
    (hfits : ∀ d, (IpcMsg.deviceInfo (devices d).identity.serial
      (devices d).identity.friendly).wireSize ≤ soscIpcMsgBufferSize)
    (hn : (system env devices).Reachable n) {front rest : List ServerStmt}
    (hahead : (n.process d).todo = front ++ .sendDeviceReady :: rest) :
    (system env devices).LeadsTo (runs d) (Succeeds d) (Announceable env devices d)
      (front.length + 1) n :=
  Readying.leadsTo_announceable hfits
    ⟨hn, .inr ⟨front, rest, hahead, Nat.lt_succ_self front.length⟩⟩

/-- A device is connected. -/
def connectionEvents : List NetworkEvent :=
  [sampleStep .idle, sampleStep (.detectorRead (.deviceConnection sampleDevnode))]

theorem announced_of_started_sampleNetwork :
    ∃ n, (system Env.reliable fun _ => DeviceProcess.sampleEnv).exec sampleNetwork
        connectionEvents = some n ∧
      (system Env.reliable fun _ => DeviceProcess.sampleEnv).LeadsTo (runs 0) (Succeeds 0)
        (Announceable Env.reliable (fun _ => DeviceProcess.sampleEnv) 0) 11 n := by
  obtain ⟨n, hrun, rest, hahead⟩ : ∃ n, (system Env.reliable fun _ => DeviceProcess.sampleEnv).exec
      sampleNetwork connectionEvents = some n ∧
      ∃ rest, (n.process 0).todo = soscServerRunBody.take 10 ++ .sendDeviceReady :: rest :=
    ⟨_, rfl, _, rfl⟩
  exact ⟨n, hrun, announced_of_started Env.reliable (fun _ => DeviceProcess.sampleEnv)
    (fun _ => by decide) ⟨sampleNetwork, _, init_sampleNetwork, hrun⟩ hahead⟩

end Network

end Serialosc
