import Serialosc.Device.Cleanup

/-!
# How a device process ends

The supervisor asks a device to exit by a message on its standard input.  `StepEnds` lists
what a step does with the requests that are waiting, and `todo_of_asked` concludes that one
request is enough: from then on the process ends within as many steps as it has statements
left, where a round of the event loop counts that looks at the supervisor.
-/

namespace Serialosc

open ByteMemory Runs

namespace DeviceProcess

/-! ## Reading the request -/

/-- The standard input holds requests to exit, written through these structures, and
serves. -/
structure Asks (stdin : Sys) (raws : List SoscIpcMsg) : Prop where
  serves : stdin.Serves
  type : ∀ raw ∈ raws, SoscIpcType.ofRaw raw.type = some .processShouldExit
  stream : stdin.stream = raws.flatMap fun raw => wireBytes raw .processShouldExit

variable {env : ProcessEnv} {self self' : DeviceProcess} {raw : SoscIpcMsg}
  {raws : List SoscIpcMsg}

theorem Asks.append {stdin : Sys} (h : Asks stdin raws)
    (htype : SoscIpcType.ofRaw raw.type = some .processShouldExit) :
    Asks { stdin with stream := stdin.stream ++ wireBytes raw .processShouldExit }
      (raws ++ [raw]) where
  serves := ⟨h.serves.reads, h.serves.callocs⟩
  type := by
    intro r hr
    rcases List.mem_append.mp hr with hr | hr
    · exact h.type r hr
    · rw [List.mem_singleton.mp hr]
      exact htype
  stream := by
    rw [h.stream, List.flatMap_append]
    simp

/-- A request is read and makes the loop stop. -/
theorem recvMsg_asked (h : Asks self.stdin (raw :: raws)) (msg : SoscIpcMsg) (slen : BitVec 64)
    (magic : BitVec 16) :
    (recvMsg self msg slen magic).running = false ∧
      Asks (recvMsg self msg slen magic).stdin raws := by
  have htype := h.type raw List.mem_cons_self
  have hc : raw.contents (fun _ => .ofString "") = some .processShouldExit := by
    rw [SoscIpcMsg.contents, htype]
  have hstream := h.stream
  rw [List.flatMap_cons] at hstream
  obtain ⟨hret, hmsg, -, hrest, hserves⟩ :=
    soscIpcMsgRead_served h.serves hc hstream msg slen magic
  have hpos : ¬ (soscIpcMsgRead msg slen magic self.stdin).ret ≤ 0 := by
    rw [hret]
    decide
  have hread : SoscIpcType.ofRaw (soscIpcMsgRead msg slen magic self.stdin).msg.type =
      some .processShouldExit := by
    rw [hmsg]
    exact htype
  have hrecv : recvMsg self msg slen magic =
      { self with stdin := (soscIpcMsgRead msg slen magic self.stdin).sys, running := false } := by
    rw [recvMsg]
    simp only [if_neg hpos, hread]
  rw [hrecv]
  exact ⟨rfl, hserves, fun r hr => h.type r (List.mem_cons_of_mem _ hr), hrest⟩

/-- Where there is nothing to read, nothing happens. -/
theorem recvMsg_nothing (h : Asks self.stdin []) (msg : SoscIpcMsg) (slen : BitVec 64)
    (magic : BitVec 16) :
    (recvMsg self msg slen magic).running = self.running ∧
      Asks (recvMsg self msg slen magic).stdin [] := by
  have hstream : self.stdin.stream = [] := h.stream
  have hread : self.stdin.read (BitVec.ofNat 64 sizeofMsg) =
      (some [], { self.stdin with reads := fun i => self.stdin.reads (i + 1) }) := by
    obtain ⟨k, hk, -⟩ := h.serves.reads 0
    rw [Sys.read, hk]
    simp only [hstream, List.take_nil, List.length_nil, List.drop_nil]
  have hshort : Short (some []) (BitVec.ofNat 64 sizeofMsg) := by decide
  have hneg : (-1 : ℤ) ≤ 0 := by decide
  have hrecv : recvMsg self msg slen magic =
      { self with
        stdin := { self.stdin with reads := fun i => self.stdin.reads (i + 1) } } := by
    rw [recvMsg, soscIpcMsgRead, hread]
    simp only [if_pos hshort, if_pos hneg]
  rw [hrecv]
  have hserves : Sys.Serves { self.stdin with reads := fun i => self.stdin.reads (i + 1) } :=
    ⟨fun i => h.serves.reads (i + 1), h.serves.callocs⟩
  exact ⟨rfl, hserves, fun _ hr => absurd hr List.not_mem_nil, hstream⟩

/-! ## What a round does with its standard input -/

theorem loServerRecvNoblock_stdin (calls : List OscCall) :
    (loServerRecvNoblock env self calls).stdin = self.stdin ∧
      (loServerRecvNoblock env self calls).running = self.running ∧
        (loServerRecvNoblock env self calls).revents = self.revents := by
  induction calls generalizing self with
  | nil => exact ⟨rfl, rfl, rfl⟩
  | cons call calls ih =>
    have hcall : (handleOsc env self call).stdin = self.stdin ∧
        (handleOsc env self call).running = self.running ∧
          (handleOsc env self call).revents = self.revents := by
      cases call with
      | sys e =>
        rw [handleOsc]
        cases Device.handle env.monome self.server e <;> exact ⟨rfl, rfl, rfl⟩
      | mext method msg =>
        rw [handleOsc]
        cases method.run env.lo env.status env.garbage msg <;> exact ⟨rfl, rfl, rfl⟩
    rw [loServerRecvNoblock]
    split_ifs
    · exact hcall
    · exact ⟨ih.1.trans hcall.1, ih.2.1.trans hcall.2.1, ih.2.2.trans hcall.2.2⟩

/-- The round leaves the loop because of what `poll` or `select` does. -/
def Leaves (env : ProcessEnv) (self : DeviceProcess) (round : Round) : Prop :=
  polled env self round.result = .leaves ∨
    ∃ revents, polled env self round.result = .reports revents ∧ revents.monomeGone = true

/-- There is something to be read from the supervisor, as far as the round can tell. -/
def Looks (round : Round) : Bool :=
  match round.result with
  | .ready revents => revents.ipcIn
  | .fails _ => false

/-- The outcomes of a round for the requests that are waiting. -/
inductive RoundEnds (env : ProcessEnv) (self : DeviceProcess) (round : Round)
    (raws : List SoscIpcMsg) (r : DeviceProcess × Bool) : Prop
  | aborts (hasks : Asks r.1.stdin raws) (hdead : r.1.aborted = true)
  | leaves (hasks : Asks r.1.stdin raws) (hleaves : Leaves env self round) (hflag : r.2 = false)
  | again (hasks : Asks r.1.stdin raws) (hrunning : r.1.running = true) (hflag : r.2 = true)
      (hunseen : Looks round = true → env.ipcIn = true → raws = [])
  | asked (raw : SoscIpcMsg) (raws' : List SoscIpcMsg) (heq : raws = raw :: raws')
      (hasks : Asks r.1.stdin raws') (hflag : r.2 = false)

theorem recvEvent_stdin (self : DeviceProcess) (round : Round) :
    (recvEvent self round).stdin = self.stdin ∧ (recvEvent self round).running = self.running := by
  rw [recvEvent]
  split_ifs
  · cases round.event <;> exact ⟨rfl, rfl⟩
  · exact ⟨rfl, rfl⟩

theorem recvOsc_stdin (env : ProcessEnv) (self : DeviceProcess) (round : Round) :
    (recvOsc env self round).stdin = self.stdin ∧
      (recvOsc env self round).running = self.running ∧
        (recvOsc env self round).revents = self.revents := by
  rw [recvOsc]
  split_ifs
  · exact loServerRecvNoblock_stdin round.calls
  · exact ⟨rfl, rfl, rfl⟩

/-- What is looked at is what was reported. -/
theorem polled_of_looks {round : Round} {revents : Revents} (hipc : env.ipcIn = true)
    (hlooks : Looks round = true) (h : polled env self round.result = .reports revents) :
    revents.ipcIn = true := by
  rw [Looks] at hlooks
  cases hresult : round.result with
  | fails errno =>
    rw [hresult] at hlooks
    cases hlooks
  | ready reported =>
    have hlooked : polled env self (.ready reported) = looked env reported := by
      rw [polled]
      cases env.eventLoop <;> rfl
    rw [hresult] at hlooks h
    rw [hlooked, looked] at h
    cases h
    rw [hipc]
    exact hlooks

theorem not_again_of_looks {round : Round} (hlooks : Looks round = true) :
    polled env self round.result ≠ .again := by
  rw [Looks] at hlooks
  cases hresult : round.result with
  | fails errno =>
    rw [hresult] at hlooks
    cases hlooks
  | ready reported =>
    rw [polled]
    cases env.eventLoop <;> exact fun h => Polled.noConfusion h

/-- The end of a round. -/
theorem ends_recvIpc (hasks : Asks self.stdin raws) (hrunning : self.running = true)
    (round : Round)
    (hreported : Looks round = true → env.ipcIn = true → self.revents.ipcIn = true) :
    RoundEnds env self' round raws (recvIpc self round, (recvIpc self round).running) := by
  by_cases hdead : self.aborted = true
  · have hsame : recvIpc self round = self :=
      if_neg fun h => Bool.noConfusion (hdead.symm.trans h.2)
    rw [hsame]
    exact .aborts hasks hdead
  · by_cases hin : self.revents.ipcIn = true
    · have hread : recvIpc self round = recvMsg self round.msg round.slen round.magic :=
        if_pos ⟨hin, Bool.eq_false_of_not_eq_true hdead⟩
      rw [hread]
      cases raws with
      | nil =>
        obtain ⟨hstill, hasks'⟩ := recvMsg_nothing hasks round.msg round.slen round.magic
        exact .again hasks' (hstill.trans hrunning) (hstill.trans hrunning) fun _ _ => rfl
      | cons raw raws =>
        obtain ⟨hstops, hasks'⟩ := recvMsg_asked hasks round.msg round.slen round.magic
        exact .asked raw raws rfl hasks' hstops
    · have hsame : recvIpc self round = self := if_neg fun h => hin h.1
      rw [hsame]
      exact .again hasks hrunning hrunning fun hlooks hipc => absurd (hreported hlooks hipc) hin

theorem roundEnds_eventLoopRound (hasks : Asks self.stdin raws) (hrunning : self.running = true)
    (round : Round) : RoundEnds env self round raws (eventLoopRound env self round) := by
  rw [eventLoopRound]
  cases hpolled : polled env self round.result with
  | leaves => exact .leaves hasks (.inl hpolled) rfl
  | again =>
    exact .again hasks hrunning hrunning fun hlooks _ => absurd hpolled (not_again_of_looks hlooks)
  | reports revents =>
    dsimp only
    split_ifs with hgone
    · exact .leaves hasks (.inr ⟨revents, hpolled, hgone⟩) rfl
    · let before : DeviceProcess := { self with revents := revents }
      obtain ⟨hstdin₁, hrunning₁⟩ := recvEvent_stdin before round
      obtain ⟨hstdin₂, hrunning₂, hrevents₂⟩ := recvOsc_stdin env (recvEvent before round) round
      have hasks₂ : Asks (recvOsc env (recvEvent before round) round).stdin raws := by
        rw [hstdin₂, hstdin₁]
        exact hasks
      have hreported : (recvOsc env (recvEvent before round) round).revents = revents :=
        hrevents₂.trans (recvEvent_revents round)
      refine ends_recvIpc hasks₂ (hrunning₂.trans (hrunning₁.trans hrunning)) round
        fun hlooks hipc => ?_
      rw [hreported]
      exact polled_of_looks hipc hlooks hpolled

/-! ## What a step does with the requests -/

/-- The requests that are waiting, while the loop runs. -/
structure Obeys (a : DeviceProcess) (raws : List SoscIpcMsg) : Prop where
  asks : Asks a.stdin raws
  running : a.todo.head? = some .soscEventLoop → a.running = true

/-- The loop is still to be left. -/
def InSession (a : DeviceProcess) : Prop := .soscEventLoop ∈ a.todo

/-- The process does not go on as it should: something cannot be allocated, the device
is disconnected, or the process crashes or is killed. -/
def Fails (env : ProcessEnv) (self : DeviceProcess) (e : ProcessEvent) (self' : DeviceProcess) :
    Prop :=
  self'.aborted = true ∨ e = .run false ∨ ∃ round, e = .round round ∧ Leaves env self round

/-- The event lets the process go on: a statement, or a round that looks at the
supervisor. -/
def goesOn : ProcessEvent → Bool
  | .run _ => true
  | .round round => Looks round
  | .stdin _ | .killed => false

/-- The outcomes of a step for the requests that are waiting. -/
inductive StepEnds (env : ProcessEnv) (self : DeviceProcess) (e : ProcessEvent)
    (raws : List SoscIpcMsg) (self' : DeviceProcess) : Prop
  | ends (hobeys : Obeys self' raws) (hfails : Fails env self e self')
      (hsession : ¬ InSession self') (hless : self'.todo.length < self.todo.length)
  | runs (hobeys : Obeys self' raws) (hsession : InSession self' ↔ InSession self)
      (hless : self'.todo.length < self.todo.length)
  | waits (hobeys : Obeys self' raws) (htodo : self'.todo = self.todo)
      (hsession : InSession self) (hidle : goesOn e = true → env.ipcIn = true → raws = [])
  | asked (raw : SoscIpcMsg) (raws' : List SoscIpcMsg) (heq : raws = raw :: raws')
      (hobeys : Obeys self' raws') (hsession : ¬ InSession self')
      (hless : self'.todo.length < self.todo.length)

theorem stdin_eq_of_executed {ok : Bool} {stmt : ServerStmt}
    (h : Executed env ok stmt self self') :
    self'.stdin = self.stdin := by
  cases h with
  | aborts | crashes | jumps => rfl
  | goes _ hgoes => exact hgoes.stdin

/-- The label of a `goto` is outside of the session. -/
theorem notMem_label {stmt : ServerStmt} {label : List ServerStmt} (h : stmt.label = some label) :
    .soscEventLoop ∉ label ∧ label.length < (stmt :: stmt.following).length := by
  cases stmt <;> cases h <;> decide

/-- The loop is entered where the flag is set. -/
theorem setRunning_of_following {stmt : ServerStmt}
    (h : stmt.following.head? = some .soscEventLoop) : stmt = .setRunning := by
  revert h
  cases stmt <;> decide

/-- What is left of the program after the loop. -/
theorem rest_of_loop {rest : List ServerStmt} (hkept : Kept env self)
    (htodo : self.todo = .soscEventLoop :: rest) : rest = afterEventLoop := by
  have hsuffix := hkept.todo
  rw [htodo] at hsuffix
  rw [rest_of_suffix hsuffix]
  rfl

theorem notMem_afterEventLoop : .soscEventLoop ∉ afterEventLoop := by
  decide

/-- The flag is set where the loop is entered. -/
theorem running_run {stmt : ServerStmt} {rest : List ServerStmt} (hkept : Kept env self)
    (htodo : self.todo = stmt :: rest) (ok : Bool)
    (hloop : (exec env ok { self with todo := rest } stmt).todo.head? = some .soscEventLoop) :
    (exec env ok { self with todo := rest } stmt).running = true := by
  have hexec : Executed env ok stmt { self with todo := rest } _ := executed_exec ok stmt _
  generalize exec env ok { self with todo := rest } stmt = next at hexec hloop ⊢
  cases hexec with
  | aborts | crashes => cases hloop
  | jumps label hlabel hok => exact absurd (List.mem_of_head? hloop) (notMem_label hlabel).1
  | goes _ hgoes =>
    have hsuffix := hkept.todo
    rw [htodo] at hsuffix
    rw [hgoes.todo] at hloop
    have hset : stmt = .setRunning := setRunning_of_following (rest_of_suffix hsuffix ▸ hloop)
    rw [hgoes.running, decide_eq_true hset]
    rfl

/-- The loop goes on only while the flag is set. -/
theorem running_of_flag {round : Round} (h : (eventLoopRound env self round).2 = true) :
    (eventLoopRound env self round).1.running = true := by
  revert h
  rw [eventLoopRound]
  cases polled env self round.result with
  | leaves => exact fun h => Bool.noConfusion h
  | again => exact id
  | reports revents =>
    dsimp only
    split_ifs
    · exact False.elim
    · exact id

theorem running_round {rest : List ServerStmt} (hkept : Kept env self)
    (htodo : self.todo = .soscEventLoop :: rest) (round : Round) :
    let r := eventLoopRound env self round
    let next := if r.1.aborted ∨ r.2 then r.1 else { r.1 with todo := rest }
    next.todo.head? = some .soscEventLoop → next.running = true := by
  intro r next hloop
  have hlive := hkept.live htodo
  have hheeds : Heeds env (round.heard env self) self r.1 := heeds_eventLoopRound hlive round
  by_cases hdead : r.1.aborted = true
  · have hnext : next = r.1 := if_pos (.inl hdead)
    rw [hnext] at hloop
    rw [(hheeds.of_crash hlive hdead).1] at hloop
    cases hloop
  · by_cases hflag : r.2 = true
    · have hnext : next = r.1 := if_pos (.inr hflag)
      rw [hnext]
      exact running_of_flag hflag
    · have hnext : next = { r.1 with todo := rest } :=
        if_neg fun hor => hor.elim hdead hflag
      rw [hnext] at hloop
      have hmem : .soscEventLoop ∈ rest := List.mem_of_head? hloop
      rw [rest_of_loop hkept htodo] at hmem
      exact absurd hmem notMem_afterEventLoop

theorem Obeys.run {stmt : ServerStmt} {rest : List ServerStmt} (hkept : Kept env self)
    (h : Obeys self raws) (htodo : self.todo = stmt :: rest) (hne : stmt ≠ .soscEventLoop)
    (ok : Bool) :
    StepEnds env self (.run ok) raws (exec env ok { self with todo := rest } stmt) := by
  have hexec : Executed env ok stmt { self with todo := rest } _ := executed_exec ok stmt _
  have hrunning := running_run hkept htodo ok
  generalize exec env ok { self with todo := rest } stmt = next at hexec hrunning ⊢
  have hobeys : Obeys next raws := by
    refine ⟨?_, hrunning⟩
    rw [stdin_eq_of_executed hexec]
    exact h.asks
  have hsuffix := hkept.todo
  rw [htodo] at hsuffix
  have hrest := rest_of_suffix hsuffix
  cases hexec with
  | aborts | crashes =>
    refine .ends hobeys (.inl rfl) List.not_mem_nil ?_
    rw [htodo]
    exact Nat.succ_pos _
  | jumps label hlabel hok =>
    obtain ⟨hnot, hless⟩ := notMem_label hlabel
    refine .ends hobeys ?_ hnot ?_
    · exact .inr (.inl (by rw [hok]))
    · rw [htodo, hrest]
      exact hless
  | goes _ hgoes =>
    refine .runs hobeys ?_ ?_
    · rw [InSession, InSession, hgoes.todo, htodo]
      exact ⟨List.mem_cons_of_mem _, fun hmem => (List.mem_cons.mp hmem).resolve_left hne.symm⟩
    · rw [hgoes.todo, htodo]
      exact Nat.lt_succ_self _

theorem Obeys.round {rest : List ServerStmt} (hkept : Kept env self) (h : Obeys self raws)
    (htodo : self.todo = .soscEventLoop :: rest) (round : Round) :
    let r := eventLoopRound env self round
    StepEnds env self (.round round) raws
      (if r.1.aborted ∨ r.2 then r.1 else { r.1 with todo := rest }) := by
  have hlive := hkept.live htodo
  have hheeds : Heeds env (round.heard env self) self _ := heeds_eventLoopRound hlive round
  have hloop : self.running = true := h.running (by rw [htodo]; rfl)
  have hends : RoundEnds env self round raws _ := roundEnds_eventLoopRound h.asks hloop round
  have hrunning := running_round hkept htodo round
  have hrest := rest_of_loop hkept htodo
  have hpos : 0 < self.todo.length := by
    rw [htodo]
    exact Nat.succ_pos _
  have hless : rest.length < self.todo.length := by
    rw [htodo]
    exact Nat.lt_succ_self _
  generalize eventLoopRound env self round = r at hheeds hends hrunning ⊢
  dsimp only at hrunning ⊢
  by_cases hdead : r.1.aborted = true
  · have hnil : r.1.todo = [] := (hheeds.of_crash hlive hdead).1
    have hnot : ¬ InSession r.1 := by
      rw [InSession, hnil]
      exact List.not_mem_nil
    have hless : r.1.todo.length < self.todo.length := by
      rw [hnil]
      exact hpos
    rw [if_pos (.inl hdead)] at hrunning ⊢
    cases hends with
    | aborts hasks | leaves hasks | again hasks =>
      exact .ends ⟨hasks, hrunning⟩ (.inl hdead) hnot hless
    | asked raw raws' heq hasks => exact .asked raw raws' heq ⟨hasks, hrunning⟩ hnot hless
  · have hnot : ¬ InSession { r.1 with todo := rest } := by
      rw [InSession, hrest]
      exact notMem_afterEventLoop
    cases hends with
    | aborts _ hdead' => exact absurd hdead' hdead
    | again hasks _ hflag hunseen =>
      have hsame := (hheeds.alive (Bool.eq_false_of_not_eq_true hdead)).2.1
      rw [if_pos (.inr hflag)] at hrunning ⊢
      refine .waits ⟨hasks, hrunning⟩ hsame ?_ hunseen
      rw [InSession, htodo]
      exact List.mem_cons_self
    | leaves hasks hleaves hflag =>
      rw [if_neg fun hor => hor.elim hdead (ne_true_of_eq_false hflag)] at hrunning ⊢
      exact .ends ⟨hasks, hrunning⟩ (.inr (.inr ⟨round, rfl, hleaves⟩)) hnot hless
    | asked raw raws' heq hasks hflag =>
      rw [if_neg fun hor => hor.elim hdead (ne_true_of_eq_false hflag)] at hrunning ⊢
      exact .asked raw raws' heq ⟨hasks, hrunning⟩ hnot hless

/-- What a step does with the requests that are waiting. -/
theorem stepEnds {e : ProcessEvent} (hkept : Kept env self) (h : Obeys self raws)
    (hne : ∀ bytes, e ≠ .stdin bytes) (hstep : step env self e = some self') :
    StepEnds env self e raws self' := by
  cases e with
  | run ok =>
    obtain ⟨stmt, rest, htodo, hnot, rfl⟩ := step_run hstep
    exact h.run hkept htodo hnot ok
  | round round =>
    obtain ⟨rest, htodo, rfl⟩ := step_round hstep
    exact h.round hkept htodo round
  | stdin bytes => exact absurd rfl (hne bytes)
  | killed =>
    obtain ⟨hne, hstep⟩ := Option.ite_none_left_eq_some.mp hstep
    obtain rfl := Option.some.inj hstep
    refine .ends ⟨h.asks, fun hloop => ?_⟩ (.inl rfl) List.not_mem_nil ?_
    · cases hloop
    · exact List.length_pos_iff.mpr hne

/-- Another request comes in. -/
theorem Obeys.stdin (h : Obeys self raws)
    (htype : SoscIpcType.ofRaw raw.type = some .processShouldExit)
    (hstep : step env self (.stdin (wireBytes raw .processShouldExit)) = some self') :
    Obeys self' (raws ++ [raw]) ∧ self'.todo = self.todo := by
  obtain rfl := Option.some.inj hstep
  exact ⟨⟨h.asks.append htype, h.running⟩, rfl⟩

/-! ## A process that has been asked ends -/

/-- The supervisor only writes requests to exit. -/
def OnlyAsks (e : ProcessEvent) : Prop :=
  ∀ bytes, e = .stdin bytes → ∃ raw : SoscIpcMsg,
    SoscIpcType.ofRaw raw.type = some .processShouldExit ∧
      bytes = wireBytes raw .processShouldExit

/-- A process that is over, or that is going to be within `n` of its own steps. -/
structure Ending (env : ProcessEnv) (n : ℕ) (a : DeviceProcess) : Prop where
  kept : Kept env a
  obeys : ∃ raws, Obeys a raws ∧ (raws ≠ [] ∨ ¬ InSession a)
  within : a.todo.length ≤ n

theorem Ending.keep {n : ℕ} {e : ProcessEvent} (h : Ending env n self) (hallowed : OnlyAsks e)
    (hstep : step env self e = some self') : Ending env n self' := by
  obtain ⟨raws, hobeys, hwill⟩ := h.obeys
  have hkept' := (kept_invariant env).step self e self' h.kept hstep
  by_cases hstdin : ∃ bytes, e = .stdin bytes
  · obtain ⟨bytes, rfl⟩ := hstdin
    obtain ⟨raw, htype, rfl⟩ := hallowed bytes rfl
    obtain ⟨hobeys', htodo⟩ := hobeys.stdin htype hstep
    refine ⟨hkept', ⟨_, hobeys', .inl (List.append_ne_nil_of_right_ne_nil _ (by simp))⟩, ?_⟩
    rw [htodo]
    exact h.within
  · have hends := stepEnds h.kept hobeys (fun bytes heq => hstdin ⟨bytes, heq⟩) hstep
    cases hends with
    | ends hobeys' _ hsession hless =>
      exact ⟨hkept', ⟨raws, hobeys', .inr hsession⟩, hless.le.trans h.within⟩
    | runs hobeys' hsession hless =>
      exact ⟨hkept', ⟨raws, hobeys', hwill.imp_right (mt hsession.mp)⟩, hless.le.trans h.within⟩
    | waits hobeys' htodo hsession _ =>
      refine ⟨hkept', ⟨raws, hobeys', .inl ?_⟩, ?_⟩
      · exact hwill.resolve_right (not_not.mpr hsession)
      · rw [htodo]
        exact h.within
    | asked raw raws' _ hobeys' hsession hless =>
      exact ⟨hkept', ⟨raws', hobeys', .inr hsession⟩, hless.le.trans h.within⟩

theorem Ending.own {n : ℕ} {e : ProcessEvent} (hipc : env.ipcIn = true)
    (h : Ending env (n + 1) self) (hown : goesOn e = true)
    (hstep : step env self e = some self') : Ending env n self' := by
  obtain ⟨raws, hobeys, hwill⟩ := h.obeys
  have hkept' := (kept_invariant env).step self e self' h.kept hstep
  have hne (bytes : List UInt8) : e ≠ .stdin bytes := by
    rintro rfl
    cases hown
  have hlower {m : ℕ} (hless : m < self.todo.length) : m ≤ n :=
    Nat.le_of_lt_succ (hless.trans_le h.within)
  cases stepEnds h.kept hobeys hne hstep with
  | ends hobeys' _ hsession hless =>
    exact ⟨hkept', ⟨raws, hobeys', .inr hsession⟩, hlower hless⟩
  | runs hobeys' hsession hless =>
    exact ⟨hkept', ⟨raws, hobeys', hwill.imp_right (mt hsession.mp)⟩, hlower hless⟩
  | waits hobeys' htodo hsession hidle =>
    exact absurd (hidle hown hipc) (hwill.resolve_right (not_not.mpr hsession))
  | asked raw raws' _ hobeys' hsession hless =>
    exact ⟨hkept', ⟨raws', hobeys', .inr hsession⟩, hlower hless⟩

/-- In the loop the flag is set. -/
theorem running_invariant (env : ProcessEnv) : (system env).Invariant fun a =>
    Kept env a ∧ (a.todo.head? = some .soscEventLoop → a.running = true) := by
  refine (kept_invariant env).and_of (fun s hs hloop => ?_) fun s e s' hkept hrunning hstep => ?_
  · rw [hs.todo] at hloop
    cases hloop
  · intro hloop
    cases e with
    | run ok =>
      obtain ⟨stmt, rest, htodo, -, rfl⟩ := step_run hstep
      exact running_run hkept htodo ok hloop
    | round round =>
      obtain ⟨rest, htodo, rfl⟩ := step_round hstep
      exact running_round hkept htodo round hloop
    | stdin bytes =>
      obtain rfl := Option.some.inj hstep
      exact hrunning hloop
    | killed =>
      obtain ⟨-, hstep⟩ := Option.ite_none_left_eq_some.mp hstep
      obtain rfl := Option.some.inj hstep
      cases hloop

/-- A device process that has been asked to exit ends, whatever else happens: within as many
steps as it has statements left, if they are statements and rounds of the event loop that look
at the supervisor. -/
theorem todo_of_asked (env : ProcessEnv) (hipc : env.ipcIn = true)
    (hself : (system env).Reachable self) (hasks : Asks self.stdin (raw :: raws)) :
    (system env).LeadsTo goesOn OnlyAsks (fun a => a.todo = []) self.todo.length self := by
  obtain ⟨hkept, hrunning⟩ := (running_invariant env).reachable hself
  have hending : Ending env self.todo.length self :=
    ⟨hkept, ⟨raw :: raws, ⟨hasks, hrunning⟩, .inl (List.cons_ne_nil _ _)⟩, le_rfl⟩
  refine EventSystem.leadsTo_of_within (W := Ending env) (fun s hs => ?_) ?_ ?_ hending
  · exact List.length_eq_zero_iff.mp (Nat.le_zero.mp hs.within)
  · exact fun n s e s' hs hallowed hstep => hs.keep hallowed hstep
  · exact fun n s e s' hs _ hown hstep => hs.own hipc hown hstep

/-- A request to exit. -/
def exitMsg : SoscIpcMsg := { connectionMsg with type := 5 }

/-- A device that is in its event loop is asked to exit. -/
theorem todo_of_asked_exitMsg :
    ∃ self, (system sampleEnv).exec sampleProcess
        (List.replicate 15 (.run true) ++ [.stdin (wireBytes exitMsg .processShouldExit)]) =
          some self ∧
      (system sampleEnv).LeadsTo goesOn OnlyAsks (fun a => a.todo = []) self.todo.length self := by
  obtain ⟨self, hrun, hstdin⟩ : ∃ self, (system sampleEnv).exec sampleProcess
      (List.replicate 15 (.run true) ++ [.stdin (wireBytes exitMsg .processShouldExit)]) =
        some self ∧
      self.stdin = { sampleProcess.stdin with stream := wireBytes exitMsg .processShouldExit } :=
    ⟨_, rfl, rfl⟩
  have hserves : self.stdin.Serves := by
    rw [hstdin]
    exact ⟨fun _ => ⟨2 ^ 63, rfl, le_rfl⟩, fun _ => rfl⟩
  have hasks : Asks self.stdin [exitMsg] := by
    refine ⟨hserves, fun raw hraw => ?_, ?_⟩
    · rw [List.mem_singleton.mp hraw]
      rfl
    · rw [hstdin]
      exact (List.append_nil _).symm
  exact ⟨self, hrun, todo_of_asked sampleEnv rfl ⟨_, _, fresh_sampleProcess, hrun⟩ hasks⟩

end DeviceProcess

end Serialosc
