import Serialosc.Device.Cleanup

/-!
# The session of a device

What a device process sends and asks of its device from its start to its end, next to
what its settings make of the inputs it hears: it greets with `/sys/connect`, answers
every input by the settings of the moment, and takes its leave with
`/sys/disconnect`.  The configuration file it writes then holds the last settings.

The program is annotated: each statement has an assertion that holds before it, and
every step leads from one assertion to the next.
-/

namespace Serialosc

open Runs
open Device (Settings settings)

/-- The effect is on the device or on the clients. -/
def ProcessEffect.isSaid : ProcessEffect → Bool
  | .writes _ | .saves _ => false
  | .does _ | .sends _ _ _ | .calls _ => true

/-- The contents of a file that is written. -/
def ProcessEffect.saved : ProcessEffect → Option (List UInt8)
  | .saves contents => some contents
  | _ => none

namespace Device.Settings

variable (env : ProcessEnv)

/-- How a session begins. -/
def greeting (s : Settings) : List ProcessEffect :=
  [.does (.monomeSetRotation s.rotation), .calls (.ints ⟨.ledAll, [0]⟩),
    .does (.loSendFrom s.address "/sys/connect" [])]

/-- How a session ends. -/
def farewell (s : Settings) : ProcessEffect := .does (.loSendFrom s.address "/sys/disconnect" [])

/-- A session in which these inputs are heard. -/
def session (s : Settings) (inputs : List Input) : List ProcessEffect :=
  s.greeting ++ (s.answers env inputs ++ [(s.heedAll env inputs).farewell])

/-- What is saved, if there is a port. -/
def values (s : Settings) : Option ConfigValues :=
  s.port.map fun port =>
    { serverPort := env.identity.port.toNat.toInt32.toInt
      oscPrefix := s.oscPrefix
      host := s.host
      port := Numeral.strtol 10 port.bytes
      rotation := (env.getRotation s.rotation * 90).toNat }

/-- What the file holds that is saved, which stays empty if there is no port. -/
def contents (s : Settings) : List UInt8 := (s.values env).elim [] cfgPrint

end Device.Settings

namespace DeviceProcess

/-- What the process has sent and asked of its device. -/
def said (log : List ProcessEffect) : List ProcessEffect := log.filter ProcessEffect.isSaid

/-- What it has written to files. -/
def saved (log : List ProcessEffect) : List (List UInt8) := log.filterMap ProcessEffect.saved

/-- The settings that the process starts with. -/
def starting (env : ProcessEnv) : Settings :=
  .ofConfig (soscConfigReadFile env.getenv env.saved)

/-- What an event lets the process hear. -/
def heard (env : ProcessEnv) (self : DeviceProcess) (e : ProcessEvent) : List Input :=
  match e, self.todo with
  | .round round, .soscEventLoop :: _ => round.heard env self
  | _, _ => []

/-- What the process hears in a run. -/
def hearing (env : ProcessEnv) : (system env).Monitor (List Input) where
  start := []
  watch past self e := past ++ heard env self e

/-! ## Assertions -/

/-- What has been said, and what has been saved. -/
structure Says (a : DeviceProcess) (spoken : List ProcessEffect) (files : List (List UInt8)) :
    Prop where
  said : said a.log = spoken
  saved : saved a.log = files

/-- The session has ended, unless there was none. -/
def Over (env : ProcessEnv) (inputs : List Input) (a : DeviceProcess) : Prop :=
  Says a [] [] ∧ inputs = [] ∨
    Says a ((starting env).session env inputs) [] ∨
    ∃ cfg, ((starting env).heedAll env inputs).values env = some cfg ∧
      Says a ((starting env).session env inputs) [cfgPrint cfg]

/-- The session has been broken off. -/
def Broken (env : ProcessEnv) (inputs : List Input) (a : DeviceProcess) : Prop :=
  ∃ spoken files, Says a spoken files ∧ spoken <+: (starting env).session env inputs ∧
    (files = [] ∨ files = [((starting env).heedAll env inputs).contents env])

/-- What holds before a statement. -/
def Before (env : ProcessEnv) (inputs : List Input) (a : DeviceProcess) : ServerStmt → Prop
  | .soscConfigRead => Says a [] [] ∧ inputs = []
  | .loServerNew | .loAddressNew =>
      Says a [] [] ∧ inputs = [] ∧ a.config = soscConfigReadFile env.getenv env.saved ∧
        a.server.osc.oscPrefix = (starting env).oscPrefix
  | .svcName | .monomeSetRotation =>
      Says a [] [] ∧ inputs = [] ∧ a.config = soscConfigReadFile env.getenv env.saved ∧
        { settings a.server with rotation := (starting env).rotation } = starting env
  | .monomeLedAll =>
      Says a ((starting env).greeting.take 1) [] ∧ inputs = [] ∧ settings a.server = starting env
  | .oscRegisterSysMethods | .oscRegisterMethods | .sendDeviceInfo | .sendOscPortChange
  | .sendDeviceReady | .soscZeroconfRegister | .freeSvcName | .sendConnect =>
      Says a ((starting env).greeting.take 2) [] ∧ inputs = [] ∧ settings a.server = starting env
  | .setRunning =>
      Says a (starting env).greeting [] ∧ inputs = [] ∧ settings a.server = starting env
  | .soscEventLoop | .sendDisconnect =>
      Says a ((starting env).greeting ++ (starting env).answers env inputs) [] ∧
        settings a.server = (starting env).heedAll env inputs
  | .soscZeroconfUnregister | .sendDeviceDisconnection | .soscConfigWrite =>
      Says a ((starting env).session env inputs) [] ∧
        settings a.server = (starting env).heedAll env inputs
  | .loAddressFree | .loServerFree | .freeConfig => Over env inputs a

/-- The process is where its annotation says. -/
def Annotated (env : ProcessEnv) (inputs : List Input) (a : DeviceProcess) : Prop :=
  match a.todo with
  | stmt :: _ => Before env inputs a stmt
  | [] => if a.aborted then Broken env inputs a else Over env inputs a

variable {env : ProcessEnv} {self self' : DeviceProcess} {inputs : List Input}
variable {spoken : List ProcessEffect} {files : List (List UInt8)}

theorem said_append (log log' : List ProcessEffect) :
    said (log ++ log') = said log ++ said log' :=
  List.filter_append ..

theorem saved_append (log log' : List ProcessEffect) :
    saved (log ++ log') = saved log ++ saved log' :=
  List.filterMap_append

theorem Says.append (h : Says self spoken files) {effects : List ProcessEffect}
    (hlog : self'.log = self.log ++ effects) :
    Says self' (spoken ++ DeviceProcess.said effects) (files ++ DeviceProcess.saved effects) where
  said := by rw [hlog, said_append, h.said]
  saved := by rw [hlog, saved_append, h.saved]

theorem Says.of_log (h : Says self spoken files) (hlog : self'.log = self.log) :
    Says self' spoken files where
  said := by rw [hlog, h.said]
  saved := by rw [hlog, h.saved]

theorem Over.of_log (h : Over env inputs self) (hlog : self'.log = self.log) :
    Over env inputs self' := by
  rcases h with ⟨hsaid, hinputs⟩ | hsaid | ⟨cfg, hcfg, hsaid⟩
  · exact .inl ⟨hsaid.of_log hlog, hinputs⟩
  · exact .inr (.inl (hsaid.of_log hlog))
  · exact .inr (.inr ⟨cfg, hcfg, hsaid.of_log hlog⟩)

theorem Broken.of_log (h : Broken env inputs self) (hlog : self'.log = self.log) :
    Broken env inputs self' := by
  obtain ⟨spoken, files, hsaid, hrest⟩ := h
  exact ⟨spoken, files, hsaid.of_log hlog, hrest⟩

theorem Over.broken (h : Over env inputs self) : Broken env inputs self := by
  rcases h with ⟨hsaid, -⟩ | hsaid | ⟨cfg, hcfg, hsaid⟩
  · exact ⟨[], [], hsaid, List.nil_prefix, .inl rfl⟩
  · exact ⟨_, [], hsaid, List.prefix_refl _, .inl rfl⟩
  · refine ⟨_, _, hsaid, List.prefix_refl _, .inr ?_⟩
    rw [Settings.contents, hcfg]
    rfl

theorem Before.of_same {stmt : ServerStmt} (h : Before env inputs self stmt)
    (hlog : self'.log = self.log) (hserver : self'.server = self.server)
    (hconfig : self'.config = self.config) : Before env inputs self' stmt := by
  cases stmt with
  | soscConfigRead => exact ⟨h.1.of_log hlog, h.2⟩
  | loServerNew | loAddressNew | svcName | monomeSetRotation =>
    refine ⟨h.1.of_log hlog, h.2.1, hconfig.trans h.2.2.1, ?_⟩
    rw [hserver]
    exact h.2.2.2
  | monomeLedAll | oscRegisterSysMethods | oscRegisterMethods | sendDeviceInfo
  | sendOscPortChange | sendDeviceReady | soscZeroconfRegister | freeSvcName | sendConnect
  | setRunning =>
    exact ⟨h.1.of_log hlog, h.2.1, (congrArg settings hserver).trans h.2.2⟩
  | soscEventLoop | sendDisconnect | soscZeroconfUnregister | sendDeviceDisconnection
  | soscConfigWrite =>
    exact ⟨h.1.of_log hlog, (congrArg settings hserver).trans h.2⟩
  | loAddressFree | loServerFree | freeConfig => exact Over.of_log h hlog

/-- Wherever a process is, what it has said begins a session. -/
theorem Before.broken {stmt : ServerStmt} (h : Before env inputs self stmt) :
    Broken env inputs self := by
  have hstart {spoken : List ProcessEffect} (hsaid : Says self spoken [])
      (hspoken : spoken <+: (starting env).session env inputs) : Broken env inputs self :=
    ⟨spoken, [], hsaid, hspoken, .inl rfl⟩
  have hgreeting : (starting env).greeting <+: (starting env).session env inputs :=
    List.prefix_append _ _
  have hanswers : (starting env).greeting ++ (starting env).answers env inputs <+:
      (starting env).session env inputs := by
    rw [Settings.session, ← List.append_assoc]
    exact List.prefix_append _ _
  cases stmt with
  | soscConfigRead | loServerNew | loAddressNew | svcName | monomeSetRotation =>
    exact hstart h.1 List.nil_prefix
  | monomeLedAll | oscRegisterSysMethods | oscRegisterMethods | sendDeviceInfo
  | sendOscPortChange | sendDeviceReady | soscZeroconfRegister | freeSvcName | sendConnect =>
    exact hstart h.1 ((List.take_prefix _ _).trans hgreeting)
  | setRunning => exact hstart h.1 hgreeting
  | soscEventLoop | sendDisconnect => exact hstart h.1 hanswers
  | soscZeroconfUnregister | sendDeviceDisconnection | soscConfigWrite =>
    exact hstart h.1 (List.prefix_refl _)
  | loAddressFree | loServerFree | freeConfig => exact Over.broken h

/-! ## Statements -/

theorem annotated_of_before (stmt : ServerStmt) {rest : List ServerStmt}
    (htodo : self.todo = stmt :: rest) (h : Before env inputs self stmt) :
    Annotated env inputs self := by
  rw [Annotated, htodo]
  exact h

theorem Annotated.before {stmt : ServerStmt} {rest : List ServerStmt}
    (h : Annotated env inputs self) (htodo : self.todo = stmt :: rest) :
    Before env inputs self stmt := by
  rw [Annotated, htodo] at h
  exact h

/-- Wherever a process is, it may be broken off. -/
theorem Annotated.broken (h : Annotated env inputs self) : Broken env inputs self := by
  cases htodo : self.todo with
  | cons stmt rest => exact (h.before htodo).broken
  | nil =>
    rw [Annotated, htodo] at h
    by_cases hdead : self.aborted = true
    · exact (if_pos hdead).mp h
    · exact Over.broken ((if_neg hdead).mp h)

/-- An annotation is about the log, the server and the configuration. -/
theorem Annotated.of_same (h : Annotated env inputs self) (htodo : self'.todo = self.todo)
    (haborted : self'.aborted = self.aborted) (hlog : self'.log = self.log)
    (hserver : self'.server = self.server) (hconfig : self'.config = self.config) :
    Annotated env inputs self' := by
  cases hself : self.todo with
  | cons stmt rest =>
    exact annotated_of_before stmt (htodo.trans hself)
      ((h.before hself).of_same hlog hserver hconfig)
  | nil =>
    rw [Annotated, hself] at h
    rw [Annotated, htodo.trans hself, haborted]
    split_ifs with hdead
    · exact Broken.of_log ((if_pos hdead).mp h) hlog
    · exact Over.of_log ((if_neg hdead).mp h) hlog

theorem Broken.abort (h : Broken env inputs self) : Annotated env inputs self.abort :=
  h.of_log rfl

/-- A message to the supervisor is not part of the session. -/
theorem annotated_message {msg : IpcMsg} (stmt : ServerStmt) {rest : List ServerStmt}
    (htodo : self.todo = stmt :: rest) (hbroken : Broken env inputs self)
    (hsame : ∀ next : DeviceProcess, next.server = self.server →
      (∀ spoken files, Says self spoken files → Says next spoken files) →
        Before env inputs next stmt) :
    Annotated env inputs (if env.ipcOut then self.soscIpcMsgWrite msg else self) := by
  have hstay : Annotated env inputs self :=
    annotated_of_before stmt htodo (hsame self rfl fun _ _ => id)
  split_ifs
  · rw [soscIpcMsgWrite]
    split_ifs
    · refine annotated_of_before stmt htodo (hsame _ rfl fun spoken files hsaid => ?_)
      have hnext : Says (self.emit (.writes msg)) (spoken ++ []) (files ++ []) :=
        hsaid.append emit_log
      rwa [List.append_nil, List.append_nil] at hnext
    · exact hbroken.abort
    · exact hstay
  · exact hstay

theorem serve_log_loSendFrom (dst : OscAddress) (path : String) (args : List DeviceArg) :
    (self.serve (self.server.loSendFrom dst path args)).log =
      self.log ++ [.does (.loSendFrom dst path args)] := by
  rw [serve, DeviceServer.loSendFrom, DeviceServer.emit, List.drop_left]
  rfl

theorem serve_log_monomeSetRotation (rotation : UInt32) :
    (self.serve (self.server.monomeSetRotation rotation)).log =
      self.log ++ [.does (.monomeSetRotation rotation)] := by
  rw [serve, DeviceServer.monomeSetRotation, DeviceServer.emit, List.drop_left]
  rfl

/-- Methods are registered in silence. -/
theorem annotated_register (stmt : ServerStmt) {rest : List ServerStmt} (osc : SoscState)
    (htodo : self.todo = stmt :: rest) (hosc : osc.oscPrefix = self.server.osc.oscPrefix)
    (h : ∀ next : DeviceProcess, next.log = self.log →
      settings next.server = settings self.server → Before env inputs next stmt) :
    Annotated env inputs (self.serve { self.server with osc := osc }) := by
  refine annotated_of_before stmt htodo (h _ ?_ ?_)
  · rw [serve, List.drop_length]
    exact List.append_nil _
  · rw [serve_server, settings, hosc]
    rfl

theorem Before.run_loServerNew (h : Before env inputs self .loServerNew) (ok : Bool)
    (htodo : self.todo = ServerStmt.loServerNew.following) :
    Annotated env inputs (exec env ok self .loServerNew) := by
  cases ok with
  | true => exact annotated_of_before .loAddressNew htodo ⟨h.1.of_log rfl, h.2⟩
  | false => exact annotated_of_before .freeConfig rfl (.inl ⟨h.1.of_log rfl, h.2.1⟩)

/-- The messages go to the address that has been read. -/
theorem Before.run_loAddressNew (h : Before env inputs self .loAddressNew) (ok : Bool)
    (htodo : self.todo = ServerStmt.loAddressNew.following) :
    Annotated env inputs (exec env ok self .loAddressNew) := by
  obtain ⟨hsaid, hinputs, hconfig, hosc⟩ := h
  cases ok with
  | true =>
    refine annotated_of_before .svcName htodo ⟨hsaid.of_log rfl, hinputs, hconfig, ?_⟩
    rw [starting] at hosc ⊢
    rw [← hconfig] at hosc ⊢
    exact congrArg (fun p => { Settings.ofConfig self.config with oscPrefix := p }) hosc
  | false => exact annotated_of_before .loServerFree rfl (.inl ⟨hsaid.of_log rfl, hinputs⟩)

theorem Before.run_svcName (h : Before env inputs self .svcName) (ok : Bool)
    (htodo : self.todo = ServerStmt.svcName.following) :
    Annotated env inputs (exec env ok self .svcName) := by
  cases ok with
  | true => exact annotated_of_before .monomeSetRotation htodo (h.of_same rfl rfl rfl)
  | false => exact annotated_of_before .loAddressFree rfl (.inl ⟨h.1.of_log rfl, h.2.1⟩)

/-- From here on, the settings are those that have been read. -/
theorem Before.run_monomeSetRotation (h : Before env inputs self .monomeSetRotation) (ok : Bool)
    (htodo : self.todo = ServerStmt.monomeSetRotation.following) :
    Annotated env inputs (exec env ok self .monomeSetRotation) := by
  obtain ⟨hsaid, hinputs, hconfig, hset⟩ := h
  have hrotation : self.config.rotation = (starting env).rotation := by
    rw [hconfig]
    rfl
  have hnext : Says (exec env ok self .monomeSetRotation)
      [.does (.monomeSetRotation self.config.rotation)] [] :=
    hsaid.append (serve_log_monomeSetRotation self.config.rotation)
  rw [hrotation] at hnext
  refine annotated_of_before .monomeLedAll htodo ⟨hnext, hinputs, ?_⟩
  rw [← hset, ← hrotation]
  rfl

theorem Before.run_monomeLedAll (h : Before env inputs self .monomeLedAll) (ok : Bool)
    (htodo : self.todo = ServerStmt.monomeLedAll.following) :
    Annotated env inputs (exec env ok self .monomeLedAll) := by
  obtain ⟨hsaid, hrest⟩ := h
  have hlog : (exec env ok self .monomeLedAll).log =
    self.log ++ [.calls (.ints ⟨.ledAll, [0]⟩)] := rfl
  have hnext : Says (exec env ok self .monomeLedAll) ((starting env).greeting.take 2) [] :=
    hsaid.append hlog
  exact annotated_of_before .oscRegisterSysMethods htodo ⟨hnext, hrest⟩

theorem Before.run_oscRegisterSysMethods (h : Before env inputs self .oscRegisterSysMethods)
    (ok : Bool) (htodo : self.todo = ServerStmt.oscRegisterSysMethods.following) :
    Annotated env inputs (exec env ok self .oscRegisterSysMethods) := by
  have hosc : (oscRegisterSysMethods self.server.osc).oscPrefix = self.server.osc.oscPrefix := by
    rw [oscRegisterSysMethods]
  refine annotated_register .oscRegisterMethods _ htodo hosc fun next hlog hset => ?_
  exact ⟨h.1.of_log hlog, h.2.1, hset.trans h.2.2⟩

theorem Before.run_oscRegisterMethods (h : Before env inputs self .oscRegisterMethods)
    (ok : Bool) (htodo : self.todo = ServerStmt.oscRegisterMethods.following) :
    Annotated env inputs (exec env ok self .oscRegisterMethods) := by
  have hosc : (oscRegisterMethods self.server.osc).oscPrefix = self.server.osc.oscPrefix := by
    rw [oscRegisterMethods]
  refine annotated_register .sendDeviceInfo _ htodo hosc fun next hlog hset => ?_
  exact ⟨h.1.of_log hlog, h.2.1, hset.trans h.2.2⟩

theorem Before.run_sendConnect (h : Before env inputs self .sendConnect) (ok : Bool)
    (htodo : self.todo = ServerStmt.sendConnect.following) :
    Annotated env inputs (exec env ok self .sendConnect) := by
  obtain ⟨hsaid, hinputs, hset⟩ := h
  have hnext := hsaid.append (serve_log_loSendFrom self.server.outgoing "/sys/connect" [])
  refine annotated_of_before .setRunning htodo ⟨?_, hinputs, hset⟩
  rw [← hset] at hnext ⊢
  exact hnext

theorem Before.run_setRunning (h : Before env inputs self .setRunning) (ok : Bool)
    (htodo : self.todo = ServerStmt.setRunning.following) :
    Annotated env inputs (exec env ok self .setRunning) := by
  obtain ⟨hsaid, rfl, hset⟩ := h
  refine annotated_of_before .soscEventLoop htodo ⟨?_, hset⟩
  rw [Settings.answers, List.append_nil]
  exact hsaid.of_log rfl

theorem Before.run_sendDisconnect (h : Before env inputs self .sendDisconnect) (ok : Bool)
    (htodo : self.todo = ServerStmt.sendDisconnect.following) :
    Annotated env inputs (exec env ok self .sendDisconnect) := by
  obtain ⟨hsaid, hset⟩ := h
  have hnext := hsaid.append (serve_log_loSendFrom self.server.outgoing "/sys/disconnect" [])
  refine annotated_of_before .soscZeroconfUnregister htodo ⟨?_, hset⟩
  rw [List.append_assoc] at hnext
  rw [Settings.session, ← hset]
  exact hnext

/-- The session is over, with or without a file, or it is broken off. -/
theorem Before.run_soscConfigWrite (h : Before env inputs self .soscConfigWrite) (ok : Bool)
    (htodo : self.todo = ServerStmt.soscConfigWrite.following) :
    Annotated env inputs (exec env ok self .soscConfigWrite) := by
  obtain ⟨hsaid, hset⟩ := h
  cases ok with
  | false => exact annotated_of_before .loAddressFree htodo (.inr (.inl (hsaid.of_log rfl)))
  | true =>
    have hvalues : savedValues env.monome env.identity.port.toNat.toInt32 self.server =
        ((starting env).heedAll env inputs).values env := by
      rw [← hset]
      rfl
    rw [exec, if_pos rfl, hvalues]
    cases hcfg : ((starting env).heedAll env inputs).values env with
    | none =>
      have hnext : Says (self.emit (.saves []))
          ((starting env).session env inputs ++ []) [[]] := hsaid.append emit_log
      rw [List.append_nil] at hnext
      have hemptied : Broken env inputs (self.emit (.saves [])) := by
        refine ⟨_, _, hnext, List.prefix_refl _, .inr ?_⟩
        rw [Settings.contents, hcfg]
        rfl
      exact hemptied.abort
    | some cfg =>
      refine annotated_of_before .loAddressFree htodo (.inr (.inr ⟨cfg, hcfg, ?_⟩))
      have hnext : Says (self.emit (.saves (cfgPrint cfg)))
          ((starting env).session env inputs ++ []) [cfgPrint cfg] := hsaid.append emit_log
      rw [List.append_nil] at hnext
      exact hnext

theorem Before.run_freeConfig (h : Before env inputs self .freeConfig) (ok : Bool)
    (htodo : self.todo = []) (hlive : self.aborted = false) :
    Annotated env inputs (exec env ok self .freeConfig) := by
  have hover : Over env inputs (exec env ok self .freeConfig) := Over.of_log h rfl
  have hnil : (exec env ok self .freeConfig).todo = [] := htodo
  rw [Annotated, hnil]
  exact (if_neg fun hdead => Bool.noConfusion (hlive.symm.trans hdead)).mpr hover

/-- A statement leads from its annotation to the next one. -/
theorem Before.run {stmt : ServerStmt} (h : Before env inputs self stmt) (ok : Bool)
    (htodo : self.todo = stmt.following) (hlive : self.aborted = false) :
    Annotated env inputs (exec env ok self stmt) := by
  cases stmt with
  | soscConfigRead =>
    exact annotated_of_before .loServerNew htodo ⟨h.1.of_log rfl, h.2, rfl, rfl⟩
  | loServerNew => exact h.run_loServerNew ok htodo
  | loAddressNew => exact h.run_loAddressNew ok htodo
  | svcName => exact h.run_svcName ok htodo
  | monomeSetRotation => exact h.run_monomeSetRotation ok htodo
  | monomeLedAll => exact h.run_monomeLedAll ok htodo
  | oscRegisterSysMethods => exact h.run_oscRegisterSysMethods ok htodo
  | oscRegisterMethods => exact h.run_oscRegisterMethods ok htodo
  | sendDeviceInfo =>
    refine annotated_message .sendOscPortChange htodo h.broken fun next hserver hsaid => ?_
    exact ⟨hsaid _ _ h.1, h.2.1, (congrArg settings hserver).trans h.2.2⟩
  | sendOscPortChange =>
    refine annotated_message .sendDeviceReady htodo h.broken fun next hserver hsaid => ?_
    exact ⟨hsaid _ _ h.1, h.2.1, (congrArg settings hserver).trans h.2.2⟩
  | sendDeviceReady =>
    refine annotated_message .soscZeroconfRegister htodo h.broken fun next hserver hsaid => ?_
    exact ⟨hsaid _ _ h.1, h.2.1, (congrArg settings hserver).trans h.2.2⟩
  | soscZeroconfRegister =>
    cases ok with
    | true => exact annotated_of_before .freeSvcName htodo (h.of_same rfl rfl rfl)
    | false => exact annotated_of_before .freeSvcName htodo h
  | freeSvcName => exact annotated_of_before .sendConnect htodo (h.of_same rfl rfl rfl)
  | sendConnect => exact h.run_sendConnect ok htodo
  | setRunning => exact h.run_setRunning ok htodo
  | soscEventLoop => exact annotated_of_before .sendDisconnect htodo h
  | sendDisconnect => exact h.run_sendDisconnect ok htodo
  | soscZeroconfUnregister =>
    exact annotated_of_before .sendDeviceDisconnection htodo (h.of_same rfl rfl rfl)
  | sendDeviceDisconnection =>
    refine annotated_message .soscConfigWrite htodo h.broken fun next hserver hsaid => ?_
    exact ⟨hsaid _ _ h.1, (congrArg settings hserver).trans h.2⟩
  | soscConfigWrite => exact h.run_soscConfigWrite ok htodo
  | loAddressFree => exact annotated_of_before .loServerFree htodo (Over.of_log h rfl)
  | loServerFree => exact annotated_of_before .freeConfig htodo (Over.of_log h rfl)
  | freeConfig => exact h.run_freeConfig ok htodo hlive

/-! ## Rounds -/

/-- Answers are part of the session. -/
theorem isSaid_of_mem_answers {s : Settings} {e : ProcessEffect}
    (he : e ∈ s.answers env inputs) : e.isSaid = true := by
  induction inputs generalizing s with
  | nil => exact absurd he List.not_mem_nil
  | cons input inputs ih =>
    rw [Settings.answers] at he
    rcases List.mem_append.mp he with he | he
    · cases input with
      | event event =>
        rw [List.mem_singleton.mp he]
        rfl
      | osc call =>
        cases call with
        | sys event =>
          obtain ⟨effect, -, rfl⟩ := List.mem_map.mp he
          rfl
        | mext method msg =>
          obtain ⟨call, -, rfl⟩ := List.mem_map.mp he
          rfl
    · exact ih he

theorem Says.append_said (h : Says self spoken files) {effects : List ProcessEffect}
    (hsaid : ∀ e ∈ effects, e.isSaid = true) (hlog : self'.log = self.log ++ effects) :
    Says self' (spoken ++ effects) files := by
  have hnext := h.append hlog
  have hall : DeviceProcess.said effects = effects := List.filter_eq_self.mpr hsaid
  have hnone : DeviceProcess.saved effects = [] := by
    refine List.filterMap_eq_nil_iff.mpr fun e he => ?_
    have hsaid := hsaid e he
    cases e with
    | writes msg => cases hsaid
    | saves contents => cases hsaid
    | _ => rfl
  rwa [hall, hnone, List.append_nil] at hnext

/-- A round that does not crash answers what it hears. -/
theorem Before.heeds {new : List Input} (h : Before env inputs self .soscEventLoop)
    (hheeds : Heeds env new self self') (hlive : self'.aborted = false) :
    Before env (inputs ++ new) self' .soscEventLoop := by
  obtain ⟨hsaid, hset⟩ := h
  obtain ⟨-, -, hset', hlog⟩ := hheeds.alive hlive
  have hnext := hsaid.append_said (fun e => isSaid_of_mem_answers) hlog
  refine ⟨?_, ?_⟩
  · rw [Settings.answers_append, ← List.append_assoc, ← hset]
    exact hnext
  · rw [hset', hset, Settings.heedAll_append]

/-- A round that crashes has begun to answer. -/
theorem Before.crashes {new : List Input} (h : Before env inputs self .soscEventLoop)
    (hheeds : Heeds env new self self') (hlive : self.aborted = false)
    (hdead : self'.aborted = true) : Annotated env (inputs ++ new) self' := by
  obtain ⟨hsaid, hset⟩ := h
  obtain ⟨hnil, part, hpart, hlog⟩ := hheeds.of_crash hlive hdead
  have hnext := hsaid.append_said (fun e he => isSaid_of_mem_answers (hpart.subset he)) hlog
  rw [Annotated, hnil]
  refine (if_pos hdead).mpr ⟨_, [], hnext, ?_, .inl rfl⟩
  rw [Settings.session, Settings.answers_append, ← hset, List.append_assoc, List.append_assoc]
  refine (List.prefix_append_right_inj _).mpr ((List.prefix_append_right_inj _).mpr ?_)
  exact hpart.trans (List.prefix_append _ _)

/-! ## Runs -/

theorem Annotated.run {stmt : ServerStmt} {rest : List ServerStmt}
    (h : Annotated env inputs self) (hkept : Kept env self) (htodo : self.todo = stmt :: rest)
    (ok : Bool) : Annotated env inputs (exec env ok { self with todo := rest } stmt) := by
  have hsuffix := hkept.todo
  rw [htodo] at hsuffix
  have hbefore : Before env inputs { self with todo := rest } stmt :=
    (h.before htodo).of_same rfl rfl rfl
  exact hbefore.run ok (rest_of_suffix hsuffix) (hkept.live htodo)

/-- A round crashes, leads back to the loop or leaves it. -/
theorem Annotated.round {rest : List ServerStmt} (h : Annotated env inputs self)
    (hkept : Kept env self) (htodo : self.todo = .soscEventLoop :: rest) (round : Round) :
    let r := eventLoopRound env self round
    Annotated env (inputs ++ round.heard env self)
      (if r.1.aborted ∨ r.2 then r.1 else { r.1 with todo := rest }) := by
  have hlive := hkept.live htodo
  have hheeds : Heeds env (round.heard env self) self _ := heeds_eventLoopRound hlive round
  dsimp only
  cases hdead : (eventLoopRound env self round).1.aborted with
  | true =>
    rw [if_pos (.inl rfl)]
    exact (h.before htodo).crashes hheeds hlive hdead
  | false =>
    have hbefore := (h.before htodo).heeds hheeds hdead
    have hloop := (hheeds.alive hdead).2.1.trans htodo
    by_cases hgoes : (eventLoopRound env self round).2 = true
    · rw [if_pos (.inr hgoes)]
      exact annotated_of_before .soscEventLoop hloop hbefore
    · rw [if_neg fun h => h.elim Bool.noConfusion hgoes]
      have hsuffix := hkept.todo
      rw [htodo] at hsuffix
      refine annotated_of_before .sendDisconnect (rest_of_suffix hsuffix) ?_
      change Before env _ _ .soscEventLoop
      exact hbefore.of_same rfl rfl rfl

/-- The annotation holds all along a run. -/
theorem annotated_invariant (env : ProcessEnv) : (hearing env).attach.Invariant fun t =>
    Kept env t.1 ∧ Annotated env t.2 t.1 where
  init t ht := by
    refine ⟨(kept_invariant env).init t.1 ht.1, ?_⟩
    refine annotated_of_before .soscConfigRead ht.1.todo ⟨⟨?_, ?_⟩, ht.2⟩
    · rw [ht.1.log]
      rfl
    · rw [ht.1.log]
      rfl
  step t e t' ht he := by
    obtain ⟨self, inputs⟩ := t
    obtain ⟨self', inputs'⟩ := t'
    obtain ⟨hkept, hannotated⟩ := ht
    obtain ⟨hstep, hheard⟩ := EventSystem.Monitor.attach_step.mp he
    refine ⟨(kept_invariant env).step self e self' hkept hstep, ?_⟩
    dsimp only at hkept hannotated hstep hheard ⊢
    rw [hheard]
    have hunheard (h : heard env self e = []) : (hearing env).watch inputs self e = inputs :=
      (congrArg (inputs ++ ·) h).trans (List.append_nil _)
    cases e with
    | run ok =>
      obtain ⟨stmt, rest, htodo, -, rfl⟩ := step_run hstep
      rw [hunheard rfl]
      exact hannotated.run hkept htodo ok
    | round round =>
      obtain ⟨rest, htodo, rfl⟩ := step_round hstep
      have hnew : heard env self (.round round) = round.heard env self := by
        simp only [heard, htodo]
      change Annotated env (inputs ++ heard env self (.round round)) _
      rw [hnew]
      exact hannotated.round hkept htodo round
    | stdin bytes =>
      obtain rfl := Option.some.inj hstep
      rw [hunheard rfl]
      exact hannotated.of_same rfl rfl rfl rfl rfl
    | killed =>
      obtain ⟨hne, hstep⟩ := Option.ite_none_left_eq_some.mp hstep
      obtain rfl := Option.some.inj hstep
      obtain ⟨stmt, rest, htodo⟩ := List.exists_cons_of_ne_nil hne
      rw [hunheard rfl]
      exact (hannotated.before htodo).broken.abort

/-- Whatever a device process hears, it has said the beginning of the session in which its
settings answer to this.  In the event loop it has answered everything; a process that returns
has said all of it, unless it could not start.  What it saves are its last settings, and
nothing where they have no port. -/
theorem said_inOrder (env : ProcessEnv)
    (h : (hearing env).attach.Reachable (self, inputs)) :
    let s := starting env
    said self.log <+: s.session env inputs ∧
      (self.todo.head? = some .soscEventLoop →
        said self.log = s.greeting ++ s.answers env inputs ∧
          settings self.server = s.heedAll env inputs) ∧
      (self.todo = [] → self.aborted = false →
        said self.log = [] ∧ inputs = [] ∨ said self.log = s.session env inputs) ∧
      ∀ contents ∈ saved self.log, contents = (s.heedAll env inputs).contents env := by
  obtain ⟨-, hannotated⟩ := (annotated_invariant env).reachable h
  dsimp only at hannotated ⊢
  obtain ⟨spoken, files, hsaid, hspoken, hfiles⟩ := hannotated.broken
  refine ⟨?_, fun hloop => ?_, fun hreturned hlive => ?_, fun contents hmem => ?_⟩
  · rw [hsaid.said]
    exact hspoken
  · obtain ⟨rest, htodo⟩ := List.head?_eq_some_iff.mp hloop
    obtain ⟨hsaid, hset⟩ := hannotated.before htodo
    exact ⟨hsaid.said, hset⟩
  · rw [Annotated, hreturned] at hannotated
    rcases (if_neg fun hdead => Bool.noConfusion (hlive.symm.trans hdead)).mp hannotated with
      ⟨hnothing, hinputs⟩ | hall | ⟨cfg, -, hall⟩
    · exact .inl ⟨hnothing.said, hinputs⟩
    · exact .inr hall.said
    · exact .inr hall.said
  · rw [hsaid.saved] at hmem
    rcases hfiles with rfl | rfl
    · exact absurd hmem List.not_mem_nil
    · exact List.mem_singleton.mp hmem

theorem said_inOrder_sampleRun :
    ∃ self inputs, (hearing sampleEnv).attach.exec (sampleProcess, []) sampleRun =
        some (self, inputs) ∧
      let s := starting sampleEnv
      said self.log <+: s.session sampleEnv inputs ∧
        (self.todo.head? = some .soscEventLoop →
          said self.log = s.greeting ++ s.answers sampleEnv inputs ∧
            settings self.server = s.heedAll sampleEnv inputs) ∧
        (self.todo = [] → self.aborted = false →
          said self.log = [] ∧ inputs = [] ∨ said self.log = s.session sampleEnv inputs) ∧
        ∀ contents ∈ saved self.log,
          contents = (s.heedAll sampleEnv inputs).contents sampleEnv := by
  obtain ⟨self, hrun⟩ : ∃ self, (system sampleEnv).exec sampleProcess sampleRun = some self :=
    ⟨_, rfl⟩
  obtain ⟨inputs, hheard⟩ := (hearing sampleEnv).exec_attach hrun []
  have hstart : (hearing sampleEnv).attach.init (sampleProcess, []) := ⟨fresh_sampleProcess, rfl⟩
  exact ⟨self, inputs, hheard, said_inOrder sampleEnv ⟨_, _, hstart, hheard⟩⟩

/-- The key that is pressed is told. -/
example : (((system sampleEnv).exec sampleProcess sampleRun).map fun self =>
    self.log.contains
      (.sends ⟨.ofString "127.0.0.1", some (.ofString "8000")⟩ (.ofString "/monome/grid/key")
        [3, 4, 1])) = some true := by
  decide +kernel

end DeviceProcess

end Serialosc
