import Serialosc.Device.Process
import Serialosc.Device.Settings

/-!
# Runs of a device process

Each statement has one of four outcomes: it aborts, crashes, jumps to a label or goes on.
A round of the event loop is described by the inputs it reacts to.
-/

namespace Serialosc

open ByteMemory Runs

namespace DeviceProcess

variable {env : ProcessEnv} {self self' : DeviceProcess}

/-! ## Fields -/

section Fields

variable {server : DeviceServer} {effect : ProcessEffect} {resource : Resource}

@[simp] theorem serve_todo : (self.serve server).todo = self.todo := rfl
@[simp] theorem serve_aborted : (self.serve server).aborted = self.aborted := rfl
@[simp] theorem serve_config : (self.serve server).config = self.config := rfl
@[simp] theorem serve_held : (self.serve server).held = self.held := rfl
@[simp] theorem serve_server : (self.serve server).server = server := rfl
@[simp] theorem emit_todo : (self.emit effect).todo = self.todo := rfl
@[simp] theorem emit_aborted : (self.emit effect).aborted = self.aborted := rfl
@[simp] theorem emit_config : (self.emit effect).config = self.config := rfl
@[simp] theorem emit_held : (self.emit effect).held = self.held := rfl
@[simp] theorem emit_server : (self.emit effect).server = self.server := rfl
@[simp] theorem emit_log : (self.emit effect).log = self.log ++ [effect] := rfl
@[simp] theorem abort_todo : self.abort.todo = [] := rfl
@[simp] theorem abort_aborted : self.abort.aborted = true := rfl
@[simp] theorem abort_log : self.abort.log = self.log := rfl
@[simp] theorem hold_held : (self.hold resource).held = resource :: self.held := rfl
@[simp] theorem free_held : (self.free resource).held = self.held.erase resource := rfl

end Fields

/-! ## What a step is -/

theorem step_run {ok : Bool} (h : step env self (.run ok) = some self') :
    ∃ stmt rest, self.todo = stmt :: rest ∧ stmt ≠ .soscEventLoop ∧
      self' = exec env ok { self with todo := rest } stmt := by
  rw [step] at h
  split at h
  · cases h
  · cases h
  · next stmt rest hne htodo =>
    exact ⟨stmt, rest, htodo, fun heq => hne (by rw [heq]), (Option.some.inj h).symm⟩

theorem step_round {round : Round} (h : step env self (.round round) = some self') :
    ∃ rest, self.todo = .soscEventLoop :: rest ∧
      let r := eventLoopRound env self round
      self' = if r.1.aborted ∨ r.2 then r.1 else { r.1 with todo := rest } := by
  rw [step] at h
  split at h
  · next rest htodo => exact ⟨rest, htodo, (Option.some.inj h).symm⟩
  · cases h

/-! ## The statements -/

end DeviceProcess

/-- Where a statement goes to when it fails. -/
def ServerStmt.label : ServerStmt → Option (List ServerStmt)
  | .loServerNew => some errServerNew
  | .loAddressNew => some errLoAddr
  | .svcName => some errSvcName
  | _ => none

/-- The message that a statement writes. -/
def ServerStmt.message (identity : DeviceIdentity) : ServerStmt → Option IpcMsg
  | .sendDeviceInfo => some (.deviceInfo identity.serial identity.friendly)
  | .sendOscPortChange => some (.oscPortChange identity.port)
  | .sendDeviceReady => some .deviceReady
  | .sendDeviceDisconnection => some .deviceDisconnection
  | _ => none

/-- What a statement that goes on allocates and leaves allocated; `ok` is as for `exec`. -/
def ServerStmt.acquires (ok : Bool) : ServerStmt → Option Resource
  | .soscConfigRead => some .config
  | .loServerNew => some .server
  | .loAddressNew => some .address
  | .svcName => some .svcName
  | .soscZeroconfRegister => if ok then some .service else none
  | .soscConfigWrite => if ok then none else some .cfg
  | _ => none

/-- What a statement frees. -/
def ServerStmt.releases : ServerStmt → Option Resource
  | .freeConfig => some .config
  | .loServerFree => some .server
  | .loAddressFree => some .address
  | .freeSvcName => some .svcName
  | .soscZeroconfUnregister => some .service
  | _ => none

/-- What is held after a statement. -/
def ServerStmt.holds (ok : Bool) (stmt : ServerStmt) (held : List Resource) : List Resource :=
  match stmt.acquires ok with
  | some r => r :: held
  | none => stmt.releases.elim held held.erase

/-- A message that is written. -/
def ProcessEffect.written : ProcessEffect → Option IpcMsg
  | .writes msg => some msg
  | _ => none

namespace DeviceProcess

variable {env : ProcessEnv} {self self' : DeviceProcess}

/-- What the process has written to the supervisor. -/
def written (log : List ProcessEffect) : List IpcMsg := log.filterMap ProcessEffect.written

/-- What statements write to the supervisor. -/
def pending (env : ProcessEnv) (todo : List ServerStmt) : List IpcMsg :=
  if env.ipcOut then (todo.filterMap (ServerStmt.message env.identity)).filter ipcMsgFits else []

/-- What a statement that goes on does. -/
structure Goes (env : ProcessEnv) (ok : Bool) (stmt : ServerStmt) (a b : DeviceProcess) :
    Prop where
  todo : b.todo = a.todo
  aborted : b.aborted = a.aborted
  held : b.held = stmt.holds ok a.held
  stdin : b.stdin = a.stdin
  running : b.running = (stmt = .setRunning || a.running)
  written : written b.log = written a.log ++ pending env [stmt]

/-- The outcomes of a statement. -/
inductive Executed (env : ProcessEnv) (ok : Bool) (stmt : ServerStmt) (self : DeviceProcess) :
    DeviceProcess → Prop
  | aborts (msg : IpcMsg) (hmsg : stmt.message env.identity = some msg)
      (hlong : ipcMsgFits msg = false) : Executed env ok stmt self self.abort
  | crashes (hsave : stmt = .soscConfigWrite) (hok : ok = true) :
      Executed env ok stmt self (self.emit (.saves [])).abort
  | jumps (label : List ServerStmt) (hlabel : stmt.label = some label) (hok : ok = false) :
      Executed env ok stmt self { self with todo := label }
  | goes (self' : DeviceProcess) (hgoes : Goes env ok stmt self self') :
      Executed env ok stmt self self'

theorem written_append (log log' : List ProcessEffect) :
    written (log ++ log') = written log ++ written log' :=
  List.filterMap_append

theorem written_map_does (effects : List DeviceEffect) :
    written (effects.map .does) = [] := by
  rw [written, List.filterMap_map]
  exact List.filterMap_eq_nil_iff.mpr fun _ _ => rfl

theorem written_serve (server : DeviceServer) :
    written (self.serve server).log = written self.log := by
  rw [serve, written_append, written_map_does, List.append_nil]

theorem pending_of_message {stmt : ServerStmt} {msg : IpcMsg}
    (hmsg : stmt.message env.identity = some msg) :
    pending env [stmt] = if env.ipcOut = true ∧ ipcMsgFits msg = true then [msg] else [] := by
  rw [pending, List.filterMap_cons_some hmsg, List.filterMap_nil, List.filter_cons,
    List.filter_nil]
  split_ifs <;> simp_all

theorem pending_of_no_message {stmt : ServerStmt} (hmsg : stmt.message env.identity = none) :
    pending env [stmt] = [] := by
  rw [pending, List.filterMap_cons_none hmsg, List.filterMap_nil, List.filter_nil, ite_self]

/-- A statement that neither acquires nor frees anything. -/
theorem holds_eq_self {ok : Bool} {stmt : ServerStmt} (hacquires : stmt.acquires ok = none)
    (hreleases : stmt.releases = none) (held : List Resource) : stmt.holds ok held = held := by
  rw [ServerStmt.holds, hacquires, hreleases]
  rfl

theorem running_eq_or {stmt : ServerStmt} (hset : stmt ≠ .setRunning) (running : Bool) :
    running = (stmt = .setRunning || running) := by
  rw [decide_eq_false hset]
  rfl

/-- A message to the supervisor is written if it fits. -/
theorem executed_message {ok : Bool} {stmt : ServerStmt} {msg : IpcMsg}
    (hmsg : stmt.message env.identity = some msg) (hacquires : stmt.acquires ok = none)
    (hreleases : stmt.releases = none) (hset : stmt ≠ .setRunning) :
    Executed env ok stmt self (if env.ipcOut then self.soscIpcMsgWrite msg else self) := by
  have hpending := pending_of_message hmsg
  have hrunning := running_eq_or hset self.running
  have hheld := (holds_eq_self hacquires hreleases self.held).symm
  by_cases hout : env.ipcOut = true
  · rw [if_pos hout, soscIpcMsgWrite]
    split_ifs with hfits hbytes
    · refine .goes _ ⟨rfl, rfl, hheld, rfl, hrunning, ?_⟩
      rw [hpending, if_pos ⟨hout, hfits⟩, emit_log, written_append]
      rfl
    · exact .aborts msg hmsg (Bool.eq_false_of_not_eq_true hfits)
    · refine .goes _ ⟨rfl, rfl, hheld, rfl, hrunning, ?_⟩
      rw [hpending, if_neg fun h => hfits h.2, List.append_nil]
  · rw [if_neg hout]
    refine .goes _ ⟨rfl, rfl, hheld, rfl, hrunning, ?_⟩
    rw [hpending, if_neg fun h => hout h.1, List.append_nil]

/-- A statement that writes nothing to the supervisor goes on. -/
theorem executed_goes {ok : Bool} {stmt : ServerStmt} (hmsg : stmt.message env.identity = none)
    (htodo : self'.todo = self.todo) (haborted : self'.aborted = self.aborted)
    (hheld : self'.held = stmt.holds ok self.held) (hstdin : self'.stdin = self.stdin)
    (hrunning : self'.running = (stmt = .setRunning || self.running))
    (hwritten : written self'.log = written self.log) : Executed env ok stmt self self' := by
  refine .goes _ ⟨htodo, haborted, hheld, hstdin, hrunning, ?_⟩
  rw [hwritten, pending_of_no_message hmsg, List.append_nil]

/-- What the server does is not written to the supervisor. -/
theorem executed_serve {ok : Bool} {stmt : ServerStmt} (hmsg : stmt.message env.identity = none)
    (hacquires : stmt.acquires ok = none) (hreleases : stmt.releases = none)
    (hset : stmt ≠ .setRunning) (server : DeviceServer) :
    Executed env ok stmt self (self.serve server) :=
  executed_goes hmsg rfl rfl (holds_eq_self hacquires hreleases self.held).symm rfl
    (running_eq_or hset self.running) (written_serve server)

theorem executed_exec (ok : Bool) (stmt : ServerStmt) (self : DeviceProcess) :
    Executed env ok stmt self (exec env ok self stmt) := by
  cases stmt with
  | soscConfigRead => exact executed_goes rfl rfl rfl rfl rfl rfl rfl
  | loServerNew =>
    cases ok with
    | true => exact executed_goes rfl rfl rfl rfl rfl rfl rfl
    | false => exact .jumps _ rfl rfl
  | loAddressNew =>
    cases ok with
    | true => exact executed_goes rfl rfl rfl rfl rfl rfl rfl
    | false => exact .jumps _ rfl rfl
  | svcName =>
    cases ok with
    | true => exact executed_goes rfl rfl rfl rfl rfl rfl rfl
    | false => exact .jumps _ rfl rfl
  | monomeSetRotation => exact executed_serve rfl rfl rfl (by decide) _
  | monomeLedAll =>
    refine executed_goes rfl rfl rfl rfl rfl rfl ?_
    rw [exec, emit_log, written_append]
    exact List.append_nil _
  | oscRegisterSysMethods => exact executed_serve rfl rfl rfl (by decide) _
  | oscRegisterMethods => exact executed_serve rfl rfl rfl (by decide) _
  | sendDeviceInfo => exact executed_message rfl rfl rfl (by decide)
  | sendOscPortChange => exact executed_message rfl rfl rfl (by decide)
  | sendDeviceReady => exact executed_message rfl rfl rfl (by decide)
  | soscZeroconfRegister =>
    cases ok with
    | true => exact executed_goes rfl rfl rfl rfl rfl rfl rfl
    | false => exact executed_goes rfl rfl rfl rfl rfl rfl rfl
  | freeSvcName => exact executed_goes rfl rfl rfl rfl rfl rfl rfl
  | sendConnect => exact executed_serve rfl rfl rfl (by decide) _
  | setRunning => exact executed_goes rfl rfl rfl rfl rfl rfl rfl
  | soscEventLoop => exact executed_goes rfl rfl rfl rfl rfl rfl rfl
  | sendDisconnect => exact executed_serve rfl rfl rfl (by decide) _
  | soscZeroconfUnregister => exact executed_goes rfl rfl rfl rfl rfl rfl rfl
  | sendDeviceDisconnection => exact executed_message rfl rfl rfl (by decide)
  | soscConfigWrite =>
    cases ok with
    | false => exact executed_goes rfl rfl rfl rfl rfl rfl rfl
    | true =>
      rw [exec, if_pos rfl]
      split
      · refine executed_goes rfl rfl rfl rfl rfl rfl ?_
        rw [emit_log, written_append]
        exact List.append_nil _
      · exact .crashes rfl rfl
  | loAddressFree => exact executed_goes rfl rfl rfl rfl rfl rfl rfl
  | loServerFree => exact executed_goes rfl rfl rfl rfl rfl rfl rfl
  | freeConfig => exact executed_goes rfl rfl rfl rfl rfl rfl rfl

end DeviceProcess

/-! ## What a device says -/

/-- What the event loop reacts to. -/
inductive Input
  | event (e : MonomeEvent)
  | osc (call : DeviceProcess.OscCall)

/-- The path of the message about an event, below the prefix. -/
def MonomeEvent.path : MonomeEvent → String
  | .buttonDown _ _ | .buttonUp _ _ => "grid/key"
  | .encoderDelta _ _ => "enc/delta"
  | .encoderKeyDown _ | .encoderKeyUp _ => "enc/key"
  | .tilt _ _ _ _ => "tilt"

/-- The arguments of the message about an event. -/
def MonomeEvent.args : MonomeEvent → List Int32
  | .buttonDown x y => [x, y, 1]
  | .buttonUp x y => [x, y, 0]
  | .encoderDelta number delta => [number, delta]
  | .encoderKeyDown number => [number, 1]
  | .encoderKeyUp number => [number, 0]
  | .tilt sensor x y z => [sensor, x, y, z]

namespace Device.Settings

variable (env : ProcessEnv)

/-- The settings after an input. -/
def heed (s : Settings) : Input → Settings
  | .event _ => s
  | .osc (.sys e) => s.after env.monome e
  | .osc (.mext _ _) => s

/-- What an input is answered with.  An event is told at the address and under the prefix of
the settings. -/
def answer (s : Settings) : Input → List ProcessEffect
  | .event e => [.sends s.address (oscPath e.path s.oscPrefix) e.args]
  | .osc (.sys e) => (s.outputs env.monome e).map .does
  | .osc (.mext method msg) =>
      ((method.run env.lo env.status env.garbage msg).elim [] Prod.snd).map .calls

/-- The settings after several inputs. -/
def heedAll (s : Settings) (inputs : List Input) : Settings := inputs.foldl (heed env) s

/-- What several inputs are answered with. -/
def answers (s : Settings) : List Input → List ProcessEffect
  | [] => []
  | input :: inputs => s.answer env input ++ (s.heed env input).answers inputs

theorem answers_append (s : Settings) (inputs inputs' : List Input) :
    s.answers env (inputs ++ inputs') =
      s.answers env inputs ++ (s.heedAll env inputs).answers env inputs' := by
  induction inputs generalizing s with
  | nil => rfl
  | cons input inputs ih =>
    rw [List.cons_append, answers, answers, ih, List.append_assoc]
    rfl

theorem heedAll_append (s : Settings) (inputs inputs' : List Input) :
    s.heedAll env (inputs ++ inputs') = (s.heedAll env inputs).heedAll env inputs' :=
  List.foldl_append

end Device.Settings

namespace DeviceProcess

open Device (Settings settings)

variable {env : ProcessEnv} {self self' self'' : DeviceProcess} {inputs inputs' : List Input}

/-- From `a` to `b` the loop reacts to `inputs`.  If it crashes on the way, then it
has answered to some of them. -/
structure Heeds (env : ProcessEnv) (inputs : List Input) (a b : DeviceProcess) :
    Prop where
  config : b.config = a.config
  held : b.held = a.held
  alive : b.aborted = false → a.aborted = false ∧ b.todo = a.todo ∧
    settings b.server = (settings a.server).heedAll env inputs ∧
      b.log = a.log ++ (settings a.server).answers env inputs
  dead : b.aborted = true → a.aborted = true ∨ b.todo = [] ∧
    ∃ part, part <+: (settings a.server).answers env inputs ∧ b.log = a.log ++ part

/-- What a crash on the way leaves of a live process. -/
theorem Heeds.of_crash (h : Heeds env inputs self self') (hlive : self.aborted = false)
    (hdead : self'.aborted = true) :
    self'.todo = [] ∧ ∃ part, part <+: (settings self.server).answers env inputs ∧
      self'.log = self.log ++ part := by
  rcases h.dead hdead with hself | hcrash
  · exact Bool.noConfusion (hlive.symm.trans hself)
  · exact hcrash

/-- Whether it crashes or not, the loop has begun to answer. -/
theorem Heeds.log_append (h : Heeds env inputs self self') (hlive : self.aborted = false) :
    ∃ part, part <+: (settings self.server).answers env inputs ∧ self'.log = self.log ++ part := by
  cases hdead : self'.aborted with
  | false => exact ⟨_, List.prefix_refl _, (h.alive hdead).2.2.2⟩
  | true => exact (h.of_crash hlive hdead).2

theorem Heeds.todo_cases (h : Heeds env inputs self self') (hlive : self.aborted = false) :
    self'.todo = self.todo ∨ self'.todo = [] := by
  cases hdead : self'.aborted with
  | false => exact .inl (h.alive hdead).2.1
  | true => exact .inr (h.of_crash hlive hdead).1

theorem Heeds.of_same (hconfig : self'.config = self.config) (hheld : self'.held = self.held)
    (htodo : self'.todo = self.todo) (haborted : self'.aborted = self.aborted)
    (hserver : self'.server = self.server) (hlog : self'.log = self.log) :
    Heeds env [] self self' where
  config := hconfig
  held := hheld
  alive h := by
    refine ⟨haborted.symm.trans h, htodo, ?_, ?_⟩
    · rw [hserver]
      rfl
    · rw [hlog]
      exact (List.append_nil _).symm
  dead h := .inl (haborted.symm.trans h)

theorem Heeds.trans (h : Heeds env inputs self self') (hlive : self'.aborted = false)
    (h' : Heeds env inputs' self' self'') : Heeds env (inputs ++ inputs') self self'' := by
  obtain ⟨hself, htodo, hset, hlog⟩ := h.alive hlive
  refine ⟨h'.config.trans h.config, h'.held.trans h.held, fun hlive' => ?_, fun hdead => ?_⟩
  · obtain ⟨-, htodo', hset', hlog'⟩ := h'.alive hlive'
    refine ⟨hself, htodo'.trans htodo, ?_, ?_⟩
    · rw [hset', hset, Settings.heedAll_append]
    · rw [hlog', hlog, hset, Settings.answers_append, List.append_assoc]
  · rcases h'.dead hdead with hdead' | ⟨hnil, part, hpart, hlog'⟩
    · rw [hlive] at hdead'
      cases hdead'
    · refine .inr ⟨hnil, (settings self.server).answers env inputs ++ part, ?_, ?_⟩
      · rw [Settings.answers_append, ← hset]
        exact (List.prefix_append_right_inj _).mpr hpart
      · rw [hlog', hlog, List.append_assoc]

/-- After a crash, nothing is answered any more. -/
theorem Heeds.crashed (h : Heeds env inputs self self') (hdead : self'.aborted = true) :
    Heeds env (inputs ++ inputs') self self' where
  config := h.config
  held := h.held
  alive hlive := by
    rw [hdead] at hlive
    cases hlive
  dead _ := by
    rcases h.dead hdead with hself | ⟨hnil, part, hpart, hlog⟩
    · exact .inl hself
    · refine .inr ⟨hnil, part, hpart.trans ?_, hlog⟩
      rw [Settings.answers_append]
      exact List.prefix_append _ _

/-- A handler of an event tells it. -/
theorem handleEvent_eq (server : DeviceServer) (e : MonomeEvent) :
    handleEvent server e =
      .sends (settings server).address (oscPath e.path (settings server).oscPrefix) e.args := by
  cases e <;> rfl

theorem heeds_emit (e : MonomeEvent) :
    Heeds env [.event e] self (self.emit (handleEvent self.server e)) where
  config := rfl
  held := rfl
  alive h := by
    refine ⟨h, rfl, rfl, ?_⟩
    rw [emit_log, handleEvent_eq]
    rfl
  dead h := .inl h

theorem heeds_abort {call : OscCall} : Heeds env [.osc call] self self.abort where
  config := rfl
  held := rfl
  alive h := Bool.noConfusion h
  dead _ := .inr ⟨rfl, [], List.nil_prefix, (List.append_nil _).symm⟩

theorem heeds_handleOsc (call : OscCall) :
    Heeds env [.osc call] self (handleOsc env self call) := by
  cases call with
  | sys e =>
    rw [handleOsc]
    cases hhandle : Device.handle env.monome self.server e with
    | none => exact heeds_abort
    | some server =>
      have hdoes := Device.does_handle hhandle
      refine ⟨rfl, rfl, fun h => ⟨h, rfl, hdoes.settings, ?_⟩, fun h => .inl h⟩
      rw [Option.elim_some, serve, hdoes.log, List.drop_left]
      exact congrArg _ (List.append_nil _).symm
  | mext method msg =>
    rw [handleOsc]
    cases hrun : method.run env.lo env.status env.garbage msg with
    | none => exact heeds_abort
    | some r =>
      refine ⟨rfl, rfl, fun h => ⟨h, rfl, rfl, ?_⟩, fun h => .inl h⟩
      rw [Option.elim_some, Settings.answers, Settings.answer, hrun]
      exact congrArg _ (List.append_nil _).symm

theorem heeds_loServerRecvNoblock (calls : List OscCall) :
    Heeds env (calls.map .osc) self (loServerRecvNoblock env self calls) := by
  induction calls generalizing self with
  | nil => exact .of_same rfl rfl rfl rfl rfl rfl
  | cons call calls ih =>
    have hcall : Heeds env [.osc call] self (handleOsc env self call) := heeds_handleOsc call
    rw [loServerRecvNoblock]
    by_cases hdead : (handleOsc env self call).aborted = true
    · rw [if_pos hdead]
      exact hcall.crashed hdead
    · rw [if_neg hdead]
      exact hcall.trans (Bool.eq_false_of_not_eq_true hdead) ih

/-- What a round of the loop reacts to. -/
def Round.heard (env : ProcessEnv) (self : DeviceProcess) (round : Round) : List Input :=
  match polled env self round.result with
  | .leaves | .again => []
  | .reports revents =>
      if revents.monomeGone then []
      else
        (if revents.monomeIn then round.event.toList.map .event else []) ++
          if revents.oscIn then round.calls.map .osc else []

theorem heeds_recvEvent (env : ProcessEnv) (self : DeviceProcess) (round : Round) :
    Heeds env (if self.revents.monomeIn then round.event.toList.map .event else []) self
      (recvEvent self round) := by
  have hnothing : Heeds env [] self self := .of_same rfl rfl rfl rfl rfl rfl
  rw [recvEvent]
  split_ifs
  · cases round.event with
    | none => exact hnothing
    | some e => exact heeds_emit e
  · exact hnothing

theorem heeds_recvOsc (env : ProcessEnv) (self : DeviceProcess) (round : Round) :
    Heeds env (if self.revents.oscIn then round.calls.map .osc else []) self
      (recvOsc env self round) := by
  rw [recvOsc]
  split_ifs
  · exact heeds_loServerRecvNoblock round.calls
  · exact .of_same rfl rfl rfl rfl rfl rfl

theorem heeds_recvIpc (round : Round) : Heeds env [] self (recvIpc self round) := by
  rw [recvIpc, recvMsg]
  split_ifs
  · exact .of_same rfl rfl rfl rfl rfl rfl
  · dsimp only
    split
    · exact .of_same rfl rfl rfl rfl rfl rfl
    · exact .of_same rfl rfl rfl rfl rfl rfl
  · exact .of_same rfl rfl rfl rfl rfl rfl

theorem recvEvent_revents (round : Round) : (recvEvent self round).revents = self.revents := by
  rw [recvEvent]
  split_ifs
  · cases round.event <;> rfl
  · rfl

theorem recvEvent_aborted (round : Round) : (recvEvent self round).aborted = self.aborted := by
  rw [recvEvent]
  split_ifs
  · cases round.event <;> rfl
  · rfl

/-- What is left of the inputs once something is missing at their end. -/
theorem Heeds.then_nil {self'' : DeviceProcess} (h : Heeds env inputs self self')
    (h' : Heeds env [] self' self'') (hsame : self'.aborted = true → self'' = self') :
    Heeds env inputs self self'' := by
  by_cases hdead : self'.aborted = true
  · rw [hsame hdead]
    exact h
  · have htrans := h.trans (Bool.eq_false_of_not_eq_true hdead) h'
    rwa [List.append_nil] at htrans

theorem heeds_eventLoopRound (hlive : self.aborted = false) (round : Round) :
    Heeds env (round.heard env self) self (eventLoopRound env self round).1 := by
  rw [eventLoopRound, Round.heard]
  cases polled env self round.result with
  | leaves => exact .of_same rfl rfl rfl rfl rfl rfl
  | again => exact .of_same rfl rfl rfl rfl rfl rfl
  | reports revents =>
    let before : DeviceProcess := { self with revents := revents }
    have hbefore : Heeds env [] self before := .of_same rfl rfl rfl rfl rfl rfl
    by_cases hgone : revents.monomeGone = true
    · simp only [if_pos hgone]
      exact hbefore
    · have hevent := heeds_recvEvent env before round
      have hosc := heeds_recvOsc env (recvEvent before round) round
      rw [recvEvent_revents] at hosc
      have hlive' : (recvEvent before round).aborted = false :=
        (recvEvent_aborted round).trans hlive
      have hboth := (hbefore.trans hlive hevent).trans hlive' hosc
      simp only [if_neg hgone]
      refine hboth.then_nil (heeds_recvIpc round) fun hdead => ?_
      exact if_neg fun h => Bool.noConfusion (hdead.symm.trans h.2)

/-! ## What is told to the supervisor -/

theorem written_answers (env : ProcessEnv) (s : Settings) (inputs : List Input) :
    written (s.answers env inputs) = [] := by
  induction inputs generalizing s with
  | nil => rfl
  | cons input inputs ih =>
    rw [Settings.answers, written_append, ih, List.append_nil]
    have hnone {α : Type} (f : α → ProcessEffect) (hf : ∀ x, (f x).written = none)
        (xs : List α) : written (xs.map f) = [] := by
      rw [written, List.filterMap_map]
      exact List.filterMap_eq_nil_iff.mpr fun x _ => hf x
    cases input with
    | event e => rfl
    | osc call =>
      cases call with
      | sys e => exact hnone .does (fun _ => rfl) _
      | mext method msg => exact hnone .calls (fun _ => rfl) _

theorem Heeds.written (h : Heeds env inputs self self') (hlive : self.aborted = false) :
    DeviceProcess.written self'.log = DeviceProcess.written self.log := by
  have hanswers := written_answers env (settings self.server) inputs
  obtain ⟨part, ⟨rest, hrest⟩, hlog⟩ := h.log_append hlive
  rw [← hrest, written_append] at hanswers
  rw [hlog, written_append, (List.append_eq_nil_iff.mp hanswers).1, List.append_nil]

end DeviceProcess

end Serialosc
