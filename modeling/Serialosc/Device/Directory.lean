import Serialosc.Device.Restarts
import Serialosc.Support.Simulations
import Mathlib.Logic.Function.Basic

/-!
# The configuration directory

All devices keep their settings in one directory, each in a file that has the serial number of
the device for its name.  `ConfigDirectory` is the directory and the devices around it, whose
processes read and write it as they come along.

`sessions_apart` says that the devices do not notice each other: what a device does in a run is
what it could do by itself, with a file of its own.
-/

namespace Serialosc

open ByteMemory Confuse Runs

/-! ## Paths -/

/-- A path, without the `NUL` at its end. -/
abbrev Path := List UInt8

/-- `sosc_get_default_config_dir` on Linux, where `NULL` is printed as `(null)`. -/
def soscGetDefaultConfigDir (getenv : Environment) : Path :=
  match getenv (.ofString "XDG_CONFIG_HOME") with
  | some dir => dir.bytes ++ (OscString.ofString "/serialosc").bytes
  | none =>
      ((getenv (.ofString "HOME")).getD (.ofString "(null)")).bytes ++
        (OscString.ofString "/.config/serialosc").bytes

/-- `path_for_serial`. -/
def pathForSerial (configDir : Path) (serial : CString) : Path :=
  configDir ++ (OscString.ofString "/").bytes ++ serial.bytes ++ (OscString.ofString ".conf").bytes

/-- The directory that is given with `-c`, or else the default. -/
def configDirectory (getenv : Environment) (configDir : Option Path) : Path :=
  configDir.getD (soscGetDefaultConfigDir getenv)

/-- What `sosc_config_read` gives to `cfg_parse`, and `sosc_config_write` to `fopen`. -/
def configPath (getenv : Environment) (configDir : Option Path) (serial : CString) : Path :=
  pathForSerial (configDirectory getenv configDir) serial

/-- The home directories that `getpwuid` finds for the user of the process, and `getpwnam`
for the users by their names. -/
structure Passwd where
  own : Option Path
  named : Path → Option Path

/-- The character `'~'`. -/
def tilde : UInt8 := 0x7e

/-- `cfg_tilde_expand`. -/
def cfgTildeExpand (passwd : Passwd) (filename : Path) : Path :=
  if filename.head? = some tilde then
    let user := filename.tail.takeWhile (· ≠ OscString.slash)
    let file := filename.tail.dropWhile (· ≠ OscString.slash)
    (if user = [] then passwd.own else passwd.named user).elim filename (· ++ file)
  else filename

/-- Every serial number has its own file. -/
theorem configPath_injective (getenv : Environment) (configDir : Option Path) :
    Function.Injective (configPath getenv configDir) := by
  intro serial serial' h
  rw [configPath, configPath, pathForSerial, pathForSerial] at h
  exact CString.ext (List.append_cancel_left (List.append_cancel_right h))

/-- In a directory that does not begin with a tilde, what is written is what is read. -/
theorem cfgTildeExpand_configPath {getenv : Environment} {configDir : Option Path}
    (hplain : (configDirectory getenv configDir).head? ≠ some tilde) (passwd : Passwd)
    (serial : CString) :
    cfgTildeExpand passwd (configPath getenv configDir serial) =
      configPath getenv configDir serial := by
  refine if_neg ?_
  rw [configPath, pathForSerial]
  cases hdir : configDirectory getenv configDir with
  | nil =>
    intro hhead
    exact absurd (Option.some.inj hhead) (by decide)
  | cons c dir =>
    rw [hdir] at hplain
    exact hplain

/-- Below the home directory of the user, it is not. -/
example :
    let serial := CString.ofString "m1000042"
    let home := (OscString.ofString "/root").bytes
    let path := configPath (fun _ => none) (some [tilde]) serial
    cfgTildeExpand ⟨some home, fun _ => none⟩ path = pathForSerial home serial ∧
      path ≠ pathForSerial home serial := by
  decide

/-! ## Steps of a process, and files -/

namespace DeviceProcess

variable {env : ProcessEnv} {self self' : DeviceProcess}

/-- The configuration is read before anything is saved. -/
def Unread (a : DeviceProcess) : Prop := .soscConfigRead ∈ a.todo → saved a.log = []

theorem soscConfigRead_notMem (stmt : ServerStmt) :
    .soscConfigRead ∉ stmt.following ∧ ∀ label, stmt.label = some label →
      .soscConfigRead ∉ label := by
  refine ⟨?_, fun label h => ?_⟩
  · cases stmt <;> decide
  · cases stmt <;> cases h <;> decide

theorem loServerRecvNoblock_saved (contents : Option (List UInt8)) (calls : List OscCall) :
    loServerRecvNoblock { env with saved := contents } self calls =
      loServerRecvNoblock env self calls := by
  induction calls generalizing self with
  | nil => rfl
  | cons call calls ih =>
    have hcall : handleOsc { env with saved := contents } self call = handleOsc env self call := by
      cases call <;> rfl
    rw [loServerRecvNoblock, loServerRecvNoblock, hcall, ih]

theorem eventLoopRound_saved (contents : Option (List UInt8)) (round : Round) :
    eventLoopRound { env with saved := contents } self round = eventLoopRound env self round := by
  have hosc (next : DeviceProcess) :
      recvOsc { env with saved := contents } next round = recvOsc env next round := by
    rw [recvOsc, recvOsc, loServerRecvNoblock_saved]
  have hpolled : polled { env with saved := contents } self round.result =
      polled env self round.result := rfl
  rw [eventLoopRound, eventLoopRound, hpolled]
  cases polled env self round.result with
  | leaves | again => rfl
  | reports revents => simp only [hosc]

/-- Only a process that is yet to read the configuration asks what is in the file. -/
theorem step_saved {contents : Option (List UInt8)} (e : ProcessEvent)
    (h : .soscConfigRead ∈ self.todo → contents = env.saved) :
    step { env with saved := contents } self e = step env self e := by
  by_cases hunread : .soscConfigRead ∈ self.todo
  · rw [h hunread]
  · cases e with
    | run ok =>
      rw [step, step]
      cases htodo : self.todo with
      | nil => rfl
      | cons stmt rest =>
        rw [htodo] at hunread
        cases stmt with
        | soscConfigRead => exact absurd List.mem_cons_self hunread
        | _ => rfl
    | round round =>
      rw [step, step]
      simp only [eventLoopRound_saved]
    | stdin | killed => rfl

theorem log_exec (ok : Bool) (stmt : ServerStmt) :
    ∃ effects, (exec env ok self stmt).log = self.log ++ effects := by
  have hsame : ∃ effects, self.log = self.log ++ effects := ⟨[], (List.append_nil _).symm⟩
  have hmessage (msg : IpcMsg) :
      ∃ effects, (if env.ipcOut then self.soscIpcMsgWrite msg else self).log =
        self.log ++ effects := by
    rw [soscIpcMsgWrite]
    split_ifs
    · exact ⟨_, rfl⟩
    · exact hsame
    · exact hsame
    · exact hsame
  cases stmt with
  | loServerNew | loAddressNew | svcName | soscZeroconfRegister =>
    cases ok with
    | true => exact hsame
    | false => exact hsame
  | soscConfigRead | freeSvcName | setRunning | soscEventLoop | soscZeroconfUnregister
  | loAddressFree | loServerFree | freeConfig => exact hsame
  | monomeSetRotation | monomeLedAll | oscRegisterSysMethods | oscRegisterMethods | sendConnect
  | sendDisconnect => exact ⟨_, rfl⟩
  | sendDeviceInfo | sendOscPortChange | sendDeviceReady | sendDeviceDisconnection =>
    exact hmessage _
  | soscConfigWrite =>
    cases ok with
    | false => exact hsame
    | true =>
      rw [exec, if_pos rfl]
      split
      · exact ⟨_, rfl⟩
      · exact ⟨_, rfl⟩

/-- A process takes back nothing of what it has done. -/
theorem log_step {e : ProcessEvent} (hkept : Kept env self) (hstep : step env self e = some self') :
    ∃ effects, self'.log = self.log ++ effects := by
  have hsame : ∃ effects, self.log = self.log ++ effects := ⟨[], (List.append_nil _).symm⟩
  cases e with
  | run ok =>
    obtain ⟨stmt, rest, -, -, rfl⟩ := step_run hstep
    exact log_exec ok stmt
  | round round =>
    obtain ⟨rest, htodo, rfl⟩ := step_round hstep
    have hlive := hkept.live htodo
    have hheeds : Heeds env (round.heard env self) self _ := heeds_eventLoopRound hlive round
    obtain ⟨part, -, hlog⟩ := hheeds.log_append hlive
    refine ⟨part, ?_⟩
    dsimp only
    split_ifs
    · exact hlog
    · exact hlog
  | stdin bytes =>
    obtain rfl := Option.some.inj hstep
    exact hsame
  | killed =>
    obtain ⟨-, hstep⟩ := Option.ite_none_left_eq_some.mp hstep
    obtain rfl := Option.some.inj hstep
    exact hsame

/-- After its first statement, the configuration has been read. -/
theorem Unread.step {e : ProcessEvent} (h : Unread self) (hkept : Kept env self)
    (hstep : step env self e = some self') : Unread self' := by
  intro hmem
  cases e with
  | run ok =>
    obtain ⟨stmt, rest, htodo, -, rfl⟩ := step_run hstep
    have hsuffix := hkept.todo
    rw [htodo] at hsuffix
    have hexec : Executed env ok stmt { self with todo := rest } _ := executed_exec ok stmt _
    generalize DeviceProcess.exec env ok { self with todo := rest } stmt = next at hexec hmem ⊢
    obtain ⟨hfollowing, hlabels⟩ := soscConfigRead_notMem stmt
    cases hexec with
    | aborts | crashes => exact absurd hmem List.not_mem_nil
    | jumps label hlabel => exact absurd hmem (hlabels label hlabel)
    | goes _ hgoes =>
      rw [hgoes.todo, rest_of_suffix hsuffix] at hmem
      exact absurd hmem hfollowing
  | round round =>
    obtain ⟨rest, htodo, rfl⟩ := step_round hstep
    have hsuffix := hkept.todo
    rw [htodo] at hsuffix
    have hlive := hkept.live htodo
    have hheeds : Heeds env (round.heard env self) self _ := heeds_eventLoopRound hlive round
    have hrest : .soscConfigRead ∉ rest := by
      rw [rest_of_suffix hsuffix]
      exact (soscConfigRead_notMem .soscEventLoop).1
    have hall : .soscConfigRead ∉ (eventLoopRound env self round).1.todo := by
      rcases hheeds.todo_cases hlive with hsame | hnil
      · rw [hsame, htodo]
        intro hmem
        rcases List.mem_cons.mp hmem with heq | hin
        · cases heq
        · exact hrest hin
      · rw [hnil]
        exact List.not_mem_nil
    dsimp only at hmem
    split_ifs at hmem
    · exact absurd hmem hall
    · exact absurd hmem hrest
  | stdin bytes =>
    obtain rfl := Option.some.inj hstep
    exact h hmem
  | killed =>
    obtain ⟨-, hstep⟩ := Option.ite_none_left_eq_some.mp hstep
    obtain rfl := Option.some.inj hstep
    exact absurd hmem List.not_mem_nil

end DeviceProcess

/-! ## The directory and the devices around it -/

/-- The files, and for each device what its process was started with, and the process. -/
structure ConfigDirectory (ι : Type) where
  files : Path → Option (List UInt8)
  env : ι → ProcessEnv
  process : ι → DeviceProcess

/-- A step of the process of a device, or the start of another one. -/
inductive DirectoryEvent (ι : Type)
  | own (d : ι) (e : DeviceProcess.ProcessEvent)
  | restart (d : ι) (env : ProcessEnv) (process : DeviceProcess)

/-- The device that the event is about. -/
def DirectoryEvent.device {ι : Type} : DirectoryEvent ι → ι
  | .own d _ => d
  | .restart d _ _ => d

/-- What a process is started with has the serial number of its device. -/
def ProcessEnv.ofSerial (env : ProcessEnv) (serial : CString) : ProcessEnv :=
  { env with identity := { env.identity with serial := serial } }

/-- The event for the device by itself. -/
def DirectoryEvent.session {ι : Type} (serial : ι → CString) : DirectoryEvent ι → SessionsEvent
  | .own _ e => .own e
  | .restart d env p => .restart (env.ofSerial (serial d)) p

namespace ConfigDirectory

section Paths

variable {ι : Type} (passwd : Passwd) (configDir : Option Path) (serial : ι → CString)

/-- The file that a device saves to. -/
def path (s : ConfigDirectory ι) (d : ι) : Path :=
  configPath (s.env d).getenv configDir (serial d)

/-- The file that it reads. -/
def readPath (s : ConfigDirectory ι) (d : ι) : Path :=
  cfgTildeExpand passwd (s.path configDir serial d)

/-- A device looks for its file where it has saved it. -/
def Plain (s : ConfigDirectory ι) (d : ι) : Prop :=
  (configDirectory (s.env d).getenv configDir).head? ≠ some tilde

end Paths

variable {ι : Type} [DecidableEq ι]

section Steps

variable (passwd : Passwd) (configDir : Option Path) (serial : ι → CString)

/-- What a process writes is in its file, and what it reads is what the other one holds. -/
def step (s : ConfigDirectory ι) : DirectoryEvent ι → Option (ConfigDirectory ι)
  | .own d e =>
      (DeviceProcess.step
        { s.env d with saved := s.files (s.readPath passwd configDir serial d) }
        (s.process d) e).map fun p =>
          { s with
            files := Function.update s.files (s.path configDir serial d)
              (((DeviceProcess.saved p.log).drop
                (DeviceProcess.saved (s.process d).log).length).getLast?.or
                  (s.files (s.path configDir serial d)))
            process := Function.update s.process d p }
  | .restart d env p =>
      if (s.process d).todo = [] then
        some
          { s with
            env := Function.update s.env d
              { env.ofSerial (serial d) with
                getenv := (s.env d).getenv
                getRotation := (s.env d).getRotation
                saved := s.files (s.readPath passwd configDir serial d) }
            process := Function.update s.process d (Sessions.started p) }
      else none

/-- The runs of devices in one environment, from the first process of each on. -/
def system : EventSystem (ConfigDirectory ι) (DirectoryEvent ι) where
  init s := (∀ d d', (s.env d).getenv = (s.env d').getenv) ∧
    ∀ d, DeviceProcess.Fresh (s.process d) ∧
      (s.env d).saved = s.files (s.readPath passwd configDir serial d)
  step := step passwd configDir serial

end Steps

/-- A device by itself. -/
def view {ι : Type} (s : ConfigDirectory ι) (d : ι) : Sessions := ⟨s.env d, s.process d⟩

/-- What a device notices of an event. -/
def shown (serial : ι → CString) (d : ι) (e : DirectoryEvent ι) : Option SessionsEvent :=
  if e.device = d then some (e.session serial) else none

section Invariant

variable {ι : Type} (configDir : Option Path) (serial : ι → CString)

/-- Each device finds in the directory what it would find in a file of its own. -/
structure Shares (s : ConfigDirectory ι) : Prop where
  plain : ∀ d, s.Plain configDir d
  getenv : ∀ d d', (s.env d).getenv = (s.env d').getenv
  kept : ∀ d, DeviceProcess.Kept (s.env d) (s.process d)
  unread : ∀ d, DeviceProcess.Unread (s.process d)
  files : ∀ d, s.files (s.path configDir serial d) = (s.view d).file

variable {configDir serial} {s : ConfigDirectory ι}

/-- Two devices have different files. -/
theorem Shares.path_ne (h : Shares configDir serial s) (hserial : Function.Injective serial)
    {d d' : ι} (hne : d ≠ d') : s.path configDir serial d ≠ s.path configDir serial d' := by
  intro heq
  rw [path, path, h.getenv d d'] at heq
  exact hne (hserial (configPath_injective _ _ heq))

theorem Plain.readPath {d : ι} (h : s.Plain configDir d) (passwd : Passwd) :
    s.readPath passwd configDir serial d = s.path configDir serial d :=
  cfgTildeExpand_configPath h passwd (serial d)

end Invariant

/-- A device has become `t` by itself, and has left the others alone. -/
structure Becomes (configDir : Option Path) (serial : ι → CString) (s : ConfigDirectory ι)
    (d : ι) (t : Sessions) (s' : ConfigDirectory ι) : Prop where
  env : s'.env = Function.update s.env d t.env
  process : s'.process = Function.update s.process d t.process
  files : s'.files = Function.update s.files (s.path configDir serial d) t.file
  getenv : t.env.getenv = (s.env d).getenv
  kept : DeviceProcess.Kept t.env t.process
  unread : DeviceProcess.Unread t.process

variable {passwd : Passwd} {configDir : Option Path} {serial : ι → CString}
variable {s s' : ConfigDirectory ι}

theorem shares_of_init (hplain : ∀ d, s.Plain configDir d)
    (h : (system passwd configDir serial).init s) : Shares configDir serial s where
  plain := hplain
  getenv := h.1
  kept d := (DeviceProcess.kept_invariant _).init _ (h.2 d).1
  unread d _ := by
    rw [(h.2 d).1.log]
    rfl
  files d := by
    rw [← (hplain d).readPath passwd, ← (h.2 d).2, Sessions.file, view, (h.2 d).1.log]
    rfl

/-- An event is a step of its device by itself. -/
theorem Shares.becomes (h : Shares configDir serial s) {e : DirectoryEvent ι}
    (hstep : step passwd configDir serial s e = some s') :
    ∃ t, Sessions.step (s.view e.device) (e.session serial) = some t ∧
      Becomes configDir serial s e.device t s' := by
  cases e with
  | own d e =>
    obtain ⟨p, hp, rfl⟩ := Option.map_eq_some_iff.mp hstep
    have hread : .soscConfigRead ∈ (s.process d).todo →
        s.files (s.readPath passwd configDir serial d) = (s.env d).saved := by
      intro hmem
      rw [(h.plain d).readPath, h.files d, Sessions.file, view, h.unread d hmem]
      rfl
    rw [DeviceProcess.step_saved e hread] at hp
    obtain ⟨effects, hlog⟩ := DeviceProcess.log_step (h.kept d) hp
    refine ⟨⟨s.env d, p⟩, Option.map_eq_some_iff.mpr ⟨p, hp, rfl⟩, ?_, rfl, ?_, rfl, ?_, ?_⟩
    · exact (Function.update_eq_self d s.env).symm
    · refine congrArg (Function.update s.files _) ?_
      rw [h.files d, Sessions.file, Sessions.file, hlog, DeviceProcess.saved_append,
        List.drop_left, List.getLast?_append, Option.or_assoc]
      rfl
    · exact (DeviceProcess.kept_invariant _).step _ e p (h.kept d) hp
    · exact (h.unread d).step (h.kept d) hp
  | restart d env p =>
    obtain ⟨hover, hs'⟩ := Option.ite_none_right_eq_some.mp hstep
    obtain rfl := Option.some.inj hs'
    have hfresh := Sessions.fresh_started p
    refine ⟨_, if_pos hover, ?_, rfl, ?_, rfl, ?_, fun _ => rfl⟩
    · dsimp only
      rw [(h.plain d).readPath, h.files d]
      rfl
    · refine (Function.update_eq_iff.mpr ⟨?_, fun _ _ => rfl⟩).symm
      exact (h.files d).symm
    · exact (DeviceProcess.kept_invariant _).init _ hfresh

/-- Who is left alone goes on sharing. -/
theorem Becomes.shares {d : ι} {t : Sessions} (h : Becomes configDir serial s d t s')
    (hserial : Function.Injective serial) (hs : Shares configDir serial s) :
    Shares configDir serial s' := by
  have hgetenv (d' : ι) : (s'.env d').getenv = (s.env d').getenv := by
    rw [h.env]
    by_cases hd : d' = d
    · subst hd
      rw [Function.update_self, h.getenv]
    · rw [Function.update_of_ne hd]
  refine ⟨fun d' => ?_, fun d₁ d₂ => ?_, fun d' => ?_, fun d' => ?_, fun d' => ?_⟩
  · rw [Plain, hgetenv]
    exact hs.plain d'
  · rw [hgetenv, hgetenv, hs.getenv d₁ d₂]
  · rw [h.env, h.process]
    by_cases hd : d' = d
    · subst hd
      rw [Function.update_self, Function.update_self]
      exact h.kept
    · rw [Function.update_of_ne hd, Function.update_of_ne hd]
      exact hs.kept d'
  · rw [h.process]
    by_cases hd : d' = d
    · subst hd
      rw [Function.update_self]
      exact h.unread
    · rw [Function.update_of_ne hd]
      exact hs.unread d'
  · have hpath : s'.path configDir serial d' = s.path configDir serial d' := by
      rw [path, path, hgetenv]
    rw [hpath, h.files, view, h.env, h.process]
    by_cases hd : d' = d
    · subst hd
      rw [Function.update_self, Function.update_self, Function.update_self]
    · rw [Function.update_of_ne hd, Function.update_of_ne hd,
        Function.update_of_ne (hs.path_ne hserial hd)]
      exact hs.files d'

/-- A device takes the steps that it notices. -/
theorem Shares.view_step (h : Shares configDir serial s) {e : DirectoryEvent ι} (d : ι)
    (env : ProcessEnv) (hstep : step passwd configDir serial s e = some s') :
    (Sessions.system env).exec (s.view d) (shown serial d e).toList = some (s'.view d) := by
  obtain ⟨t, ht, hbecomes⟩ := h.becomes hstep
  rw [shown]
  by_cases hd : e.device = d
  · rw [if_pos hd]
    refine (EventSystem.exec_cons_some _).mpr ⟨t, hd ▸ ht, ?_⟩
    rw [view, hbecomes.env, hbecomes.process, hd, Function.update_self, Function.update_self]
    rfl
  · rw [if_neg hd, view, view, hbecomes.env, hbecomes.process, Function.update_of_ne (Ne.symm hd),
      Function.update_of_ne (Ne.symm hd)]
    rfl

/-- Devices with different serial numbers that keep their files in one directory, which is not
given with a tilde, do not notice each other: what one of them does in a run of all, it could
do by itself, and its file in the directory is the one that it would then have. -/
theorem sessions_apart (passwd : Passwd) (configDir : Option Path) (serial : ι → CString)
    (hserial : Function.Injective serial) (hplain : ∀ d, s.Plain configDir d)
    (hinit : (system passwd configDir serial).init s) {es : List (DirectoryEvent ι)}
    (hrun : (system passwd configDir serial).exec s es = some s') (d : ι) :
    (Sessions.system (s.env d)).init (s.view d) ∧
      (Sessions.system (s.env d)).exec (s.view d) (es.filterMap (shown serial d)) =
        some (s'.view d) ∧
      s'.files (s'.path configDir serial d) = (s'.view d).file := by
  refine ⟨⟨rfl, (hinit.2 d).1⟩, ?_⟩
  have hshares := shares_of_init hplain hinit
  generalize s.env d = env
  clear hinit hplain
  induction es generalizing s with
  | nil =>
    obtain rfl : s = s' := Option.some.inj hrun
    exact ⟨rfl, hshares.files d⟩
  | cons e es ih =>
    obtain ⟨s₁, he, hrest⟩ := (EventSystem.exec_cons_some _).mp hrun
    obtain ⟨t, -, hbecomes⟩ := hshares.becomes he
    obtain ⟨hview, hfile⟩ := ih hrest (hbecomes.shares hserial hshares)
    refine ⟨?_, hfile⟩
    rw [EventSystem.filterMap_cons_eq, EventSystem.exec_append, hshares.view_step d env he,
      Option.bind_some]
    exact hview

/-- The serial numbers of two devices. -/
def sampleSerial (d : Bool) : CString := .ofString (if d then "m1000042" else "m1000043")

/-- The processes are run by `root`. -/
def samplePasswd : Passwd where
  own := some (OscString.ofString "/root").bytes
  named _ := none

/-- Two devices, and no files. -/
def sampleDirectory : ConfigDirectory Bool where
  files _ := none
  env d := DeviceProcess.sampleEnv.ofSerial (sampleSerial d)
  process _ := DeviceProcess.sampleProcess

/-- Both start, and a client sets the prefix of one, which is unplugged. -/
def sampleTurns : List (DirectoryEvent Bool) :=
  (List.replicate 15 [.own false (.run true), .own true (.run true)]).flatten ++
    [.own false (.round { DeviceProcess.samplePress with
        result := .ready ⟨false, false, true, false⟩
        calls := [.sys ⟨.oscPrefix (.ofString "/mine"), true⟩] }),
      .own false (.round DeviceProcess.sampleUnplug)] ++
    List.replicate 7 (.own false (.run true))

theorem sessions_apart_sampleDirectory :
    ∃ s, (system samplePasswd none sampleSerial).exec sampleDirectory sampleTurns = some s ∧
      (Sessions.system (sampleDirectory.env true)).init (sampleDirectory.view true) ∧
      (Sessions.system (sampleDirectory.env true)).exec (sampleDirectory.view true)
        (sampleTurns.filterMap (shown sampleSerial true)) = some (s.view true) ∧
      s.files (s.path none sampleSerial true) = (s.view true).file := by
  have hserial : Function.Injective sampleSerial := by
    intro d d' h
    cases d <;> cases d' <;> first | rfl | exact absurd h (by decide)
  have hinit : (system samplePasswd none sampleSerial).init sampleDirectory :=
    ⟨fun _ _ => rfl, fun _ => ⟨DeviceProcess.fresh_sampleProcess, rfl⟩⟩
  have hplain : ∀ d, sampleDirectory.Plain none d := by
    intro d
    rw [Plain]
    cases d <;> decide
  obtain ⟨s, hrun⟩ : ∃ s,
      (system samplePasswd none sampleSerial).exec sampleDirectory sampleTurns = some s :=
    ⟨_, rfl⟩
  exact ⟨s, hrun, sessions_apart samplePasswd none sampleSerial hserial hplain hinit hrun true⟩

end ConfigDirectory

end Serialosc
