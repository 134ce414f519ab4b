import Serialosc.Device.Session

/-!
# A device over its sessions

The settings of a device outlive its process in the configuration file: a process reads the
file when it is started, and writes it when it ends by itself.  `Sessions` is a device whose
processes follow each other.  Next to it runs what its clients may expect: a session begins
with the settings that the last session which was saved has ended with.

`settings_across` says that this is so for as long as what is saved can be restored.
-/

namespace Serialosc

open Confuse Runs
open Device (Settings settings)

/-! ## Settings that are saved and read -/

namespace Device

namespace Settings

/-- A server with these settings. -/
def server (s : Settings) : DeviceServer where
  osc := ⟨s.oscPrefix, []⟩
  outgoing := s.address
  rotation := s.rotation
  log := []

/-- What can be saved and restored: there is no dollar sign with an opening brace after it
in the prefix or in the host, there is a port, which is not zero, and the device takes the
rotation. -/
structure Durable (env : ProcessEnv) (s : Settings) : Prop where
  oscPrefix : ¬ Substitutes s.oscPrefix.bytes
  host : ¬ Substitutes s.host.bytes
  port : ∃ p, s.port = some p ∧ p ≠ .ofString "0"
  rotation : env.getRotation s.rotation = s.rotation ∧ s.rotation < 4

variable {env : ProcessEnv} {s : Settings}

theorem nullIfZero_of_take {p : OscString} (h : ∃ n, p = (OscString.decimal n).take 5) :
    nullIfZero p = some p := by
  obtain ⟨n, rfl⟩ := h
  refine if_neg fun hnil => (isWord_decimal n).1 ?_
  exact (List.take_eq_nil_iff.mp hnil).resolve_left (by decide)

/-- What has been saved is read back, whatever the environment says. -/
theorem ofConfig_of_durable (hsettled : Settled s.server) (h : Durable env s)
    (getenv : Environment) :
    ofConfig (soscConfigReadFile getenv (some (s.contents env))) = s := by
  obtain ⟨p, hp, hzero⟩ := h.port
  obtain ⟨cfg, hvalues⟩ : ∃ cfg, s.values env = some cfg := by
    rw [values, hp]
    exact ⟨_, rfl⟩
  have hsaved : savedValues env.monome env.identity.port.toNat.toInt32 s.server = some cfg :=
    hvalues
  have hnumber := inLong_savedValues hsaved
  rw [contents, hvalues]
  rw [values, hp] at hvalues
  obtain rfl := Option.some.inj hvalues
  have htake := hsettled.port p hp
  have hport : soscPortItos (Numeral.strtol 10 p.bytes) = p :=
    (soscPortItos_strtol_iff htake).mpr hzero
  have hturned : UInt32.ofInt ((((env.getRotation s.rotation * 90).toNat : ℤ).tdiv 90).tmod 4) =
      s.rotation := by
    rw [h.rotation.1]
    exact rotation_read h.rotation.2
  have haddress : nullIfZero (soscPortItos (Numeral.strtol 10 p.bytes)) = s.port := by
    rw [hport, hp]
    exact nullIfZero_of_take htake
  have hosc : newPrefix s.oscPrefix = s.oscPrefix := hsettled.oscPrefix
  change ofConfig (soscConfigReadFile getenv (some (cfgPrint _))) = s
  rw [soscConfigReadFile_cfgPrint hnumber h.oscPrefix h.host]
  change Settings.mk (newPrefix s.oscPrefix) s.host
    (nullIfZero (soscPortItos (Numeral.strtol 10 p.bytes)))
    (UInt32.ofInt ((((env.getRotation s.rotation * 90).toNat : ℤ).tdiv 90).tmod 4)) = s
  rw [hosc, haddress, hturned]

theorem settled_ofConfig (cfg : ConfigValues) : Settled (ofConfig (soscConfigRead cfg)).server :=
  have hsettled := settled_serverRun cfg
  ⟨hsettled.oscPrefix, hsettled.port⟩

theorem settled_turned {monome : Monome} (h : Settled s.server) (new : UInt32) :
    Settled (s.turned monome new).server := by
  rw [turned]
  split_ifs
  · exact h
  · exact ⟨h.oscPrefix, h.port⟩

theorem settled_heed (h : Settled s.server) (input : Input) :
    Settled (s.heed env input).server := by
  cases input with
  | event e => exact h
  | osc call =>
    cases call with
    | mext method msg => exact h
    | sys e =>
      rw [heed, after]
      cases e.message with
      | info | infoDefault => exact h
      | cable arg =>
        dsimp only
        cases cableRotation arg.first with
        | none => exact h
        | some new => exact settled_turned h new
      | rotation arg => exact settled_turned h _
      | port arg =>
        dsimp only
        split_ifs
        · refine ⟨h.oscPrefix, fun p hp => ⟨arg.toInt, ?_⟩⟩
          exact (Option.some.inj hp).symm
        · exact h
      | host arg =>
        dsimp only
        split_ifs
        · exact ⟨h.oscPrefix, h.port⟩
        · exact h
      | oscPrefix arg => exact ⟨newPrefix_newPrefix arg, h.port⟩

theorem settled_heedAll (h : Settled s.server) (inputs : List Input) :
    Settled (s.heedAll env inputs).server := by
  induction inputs generalizing s with
  | nil => exact h
  | cons input inputs ih => exact ih (settled_heed h input)

end Settings

end Device

/-! ## The sessions of a device -/

/-- A device: what its process was started with, and the process. -/
structure Sessions where
  env : ProcessEnv
  process : DeviceProcess

/-- A step of the process, or the start of another one. -/
inductive SessionsEvent
  | own (e : DeviceProcess.ProcessEvent)
  | restart (env : ProcessEnv) (process : DeviceProcess)

/-- What the clients of a device may expect: the settings that the session began with, and
the inputs since. -/
structure Remembered where
  base : Settings
  inputs : List Input

namespace Sessions

/-- The configuration file. -/
def file (s : Sessions) : Option (List UInt8) :=
  (DeviceProcess.saved s.process.log).getLast?.or s.env.saved

/-- A new process, whose variables hold anything. -/
def started (p : DeviceProcess) : DeviceProcess :=
  { p with
    todo := soscServerRunBody
    aborted := false
    held := []
    stdin := { p.stdin with stream := [] }
    log := [] }

/-- The next process reads the file that there is.  Its environment variables and what
libmonome makes of a rotation stay the same. -/
def step (s : Sessions) : SessionsEvent → Option Sessions
  | .own e => (DeviceProcess.step s.env s.process e).map fun p => { s with process := p }
  | .restart env p =>
      if s.process.todo = [] then
        some
          { env := { env with
              getenv := s.env.getenv
              getRotation := s.env.getRotation
              saved := s.file }
            process := started p }
      else none

/-- The sessions of a device, from a first one on. -/
def system (env : ProcessEnv) : EventSystem Sessions SessionsEvent where
  init s := s.env = env ∧ DeviceProcess.Fresh s.process
  step := step

/-- The settings now. -/
def current (s : Sessions) (m : Remembered) : Settings := m.base.heedAll s.env m.inputs

/-- What is expected of the device: the settings are remembered when they are saved. -/
def remembering (env : ProcessEnv) : (system env).Monitor Remembered where
  start := ⟨DeviceProcess.starting env, []⟩
  watch m s
    | .own e => { m with inputs := m.inputs ++ DeviceProcess.heard s.env s.process e }
    | .restart _ _ =>
        ⟨if DeviceProcess.saved s.process.log = [] then m.base else s.current m, []⟩

/-- Where the device is restarted, what it has saved can be restored. -/
def Restorable (t : Sessions × Remembered) : SessionsEvent → Prop
  | .own _ => True
  | .restart _ _ => DeviceProcess.saved t.1.process.log ≠ [] →
      (t.1.current t.2).Durable t.1.env

/-- The session has begun with what is remembered, and is annotated. -/
structure Recalls (t : Sessions × Remembered) : Prop where
  starting : DeviceProcess.starting t.1.env = t.2.base
  kept : DeviceProcess.Kept t.1.env t.1.process
  annotated : DeviceProcess.Annotated t.1.env t.2.inputs t.1.process

variable {env : ProcessEnv} {s s' : Sessions} {m m' : Remembered}

theorem fresh_started (p : DeviceProcess) : DeviceProcess.Fresh (started p) :=
  ⟨rfl, rfl, rfl, rfl, rfl⟩

/-- A process that has been started is where its annotation says. -/
theorem recalls_of_fresh (hfresh : DeviceProcess.Fresh s.process)
    (hstarting : DeviceProcess.starting s.env = m.base) (hinputs : m.inputs = []) :
    Recalls (s, m) := by
  have hinit : (DeviceProcess.hearing s.env).attach.init (s.process, m.inputs) :=
    ⟨hfresh, hinputs⟩
  obtain ⟨hkept, hannotated⟩ := (DeviceProcess.annotated_invariant s.env).init _ hinit
  exact ⟨hstarting, hkept, hannotated⟩

theorem settled_current (h : Recalls (s, m)) : Device.Settled (s.current m).server := by
  have hbase : Device.Settled m.base.server := by
    rw [← h.starting]
    exact Settings.settled_ofConfig _
  exact Settings.settled_heedAll hbase m.inputs

/-- What the next session begins with. -/
theorem starting_of_restart (h : Recalls (s, m))
    (hdurable : DeviceProcess.saved s.process.log ≠ [] → (s.current m).Durable s.env) :
    Settings.ofConfig (soscConfigReadFile s.env.getenv s.file) =
      if DeviceProcess.saved s.process.log = [] then m.base else s.current m := by
  obtain ⟨spoken, files, hsaid, -, hfiles⟩ := h.annotated.broken
  rw [file]
  rcases hfiles with rfl | rfl
  · rw [if_pos hsaid.saved, hsaid.saved]
    exact h.starting
  · have hne : DeviceProcess.saved s.process.log ≠ [] := by
      rw [hsaid.saved]
      exact List.cons_ne_nil _ _
    rw [if_neg hne, hsaid.saved]
    rw [h.starting]
    exact Settings.ofConfig_of_durable (settled_current h) (hdurable hne) s.env.getenv

theorem Recalls.step {e : SessionsEvent} (h : Recalls (s, m)) (hrestorable : Restorable (s, m) e)
    (hstep : (remembering env).attach.step (s, m) e = some (s', m')) : Recalls (s', m') := by
  obtain ⟨hs, hm⟩ := EventSystem.Monitor.attach_step.mp hstep
  cases e with
  | own e =>
    obtain ⟨p, hp, hs'⟩ := Option.map_eq_some_iff.mp hs
    obtain rfl : { s with process := p } = s' := hs'
    obtain rfl : m' = { m with inputs := m.inputs ++ DeviceProcess.heard s.env s.process e } := hm
    have hheard : (DeviceProcess.hearing s.env).attach.step (s.process, m.inputs) e =
        some (p, m.inputs ++ DeviceProcess.heard s.env s.process e) :=
      EventSystem.Monitor.attach_step.mpr ⟨hp, rfl⟩
    obtain ⟨hkept, hannotated⟩ := (DeviceProcess.annotated_invariant s.env).step _ e _
      ⟨h.kept, h.annotated⟩ hheard
    exact ⟨h.starting, hkept, hannotated⟩
  | restart next p =>
    obtain ⟨-, hs'⟩ := Option.ite_none_right_eq_some.mp hs
    obtain rfl := Option.some.inj hs'
    obtain rfl : m' = ⟨if DeviceProcess.saved s.process.log = [] then m.base
      else s.current m, []⟩ := hm
    have hstarting := starting_of_restart h hrestorable
    exact recalls_of_fresh (fresh_started p) hstarting rfl

/-- The settings of a device survive its process.  Over any number of sessions, each of which
may end at any point, a session begins with the settings that the last one which was saved has
ended with, and in the event loop the server has what has become of them since; for as long as
the settings that are saved can be restored. -/
theorem settings_across (env : ProcessEnv) (hinit : (system env).init s) {es : List SessionsEvent}
    (hrun : (remembering env).attach.exec (s, ⟨DeviceProcess.starting env, []⟩) es =
      some (s', m'))
    (hrestorable : (remembering env).attach.StepsMeet Restorable
      (s, ⟨DeviceProcess.starting env, []⟩) es) :
    DeviceProcess.starting s'.env = m'.base ∧
      (s'.process.todo.head? = some .soscEventLoop →
        settings s'.process.server = s'.current m') := by
  have hstart : Recalls (s, ⟨DeviceProcess.starting env, []⟩) := by
    refine recalls_of_fresh hinit.2 ?_ rfl
    rw [hinit.1]
  have halways : (remembering env).attach.Invariant fun _ => True :=
    ⟨fun _ _ => trivial, fun _ _ _ _ _ => trivial⟩
  have halong := EventSystem.along_of_stepsMeet halways
    (fun t e t' _ hP hC he => Recalls.step hP hC he) trivial hstart hrestorable
  have hrecalls := halong.last hrun
  refine ⟨hrecalls.starting, fun hloop => ?_⟩
  obtain ⟨rest, htodo⟩ := List.head?_eq_some_iff.mp hloop
  obtain ⟨-, hset⟩ := hrecalls.annotated.before htodo
  rw [hset, hrecalls.starting]
  rfl

/-- A client sets the prefix, and the device is unplugged. -/
def sampleFirst : List SessionsEvent :=
  List.replicate 15 (.own (.run true)) ++
    [.own (.round { DeviceProcess.samplePress with
        result := .ready ⟨false, false, true, false⟩
        calls := [.sys ⟨.oscPrefix (.ofString "/mine"), true⟩] }),
      .own (.round DeviceProcess.sampleUnplug)] ++
    List.replicate 7 (.own (.run true))

/-- It is plugged in again. -/
def sampleSecond : List SessionsEvent :=
  .restart DeviceProcess.sampleEnv DeviceProcess.sampleProcess ::
    List.replicate 15 (.own (.run true))

/-- The device of a client, before it is plugged in for the first time. -/
def sampleSessions : Sessions := ⟨DeviceProcess.sampleEnv, DeviceProcess.sampleProcess⟩

/-- In the second session the prefix is the one that was set in the first. -/
theorem settings_across_sampleSessions :
    ∃ s m, (remembering DeviceProcess.sampleEnv).attach.exec
        (sampleSessions, ⟨DeviceProcess.starting DeviceProcess.sampleEnv, []⟩)
          (sampleFirst ++ sampleSecond) = some (s, m) ∧
      m.base.oscPrefix = .ofString "/mine" ∧ DeviceProcess.starting s.env = m.base := by
  obtain ⟨t, s, m, hfirst, hdurable, hsecond, hbase⟩ : ∃ t s m,
      (remembering DeviceProcess.sampleEnv).attach.exec
        (sampleSessions, ⟨DeviceProcess.starting DeviceProcess.sampleEnv, []⟩) sampleFirst =
          some t ∧
      (t.1.current t.2).Durable t.1.env ∧
      (remembering DeviceProcess.sampleEnv).attach.exec t sampleSecond = some (s, m) ∧
      m.base.oscPrefix = .ofString "/mine" :=
    ⟨_, _, _, rfl, ⟨by decide, by decide, ⟨_, rfl, by decide⟩, rfl, by decide⟩, rfl, rfl⟩
  have hrun : (remembering DeviceProcess.sampleEnv).attach.exec
      (sampleSessions, ⟨DeviceProcess.starting DeviceProcess.sampleEnv, []⟩)
        (sampleFirst ++ sampleSecond) = some (s, m) := by
    rw [EventSystem.exec_append, hfirst, Option.bind_some, hsecond]
  have hmeets : (remembering DeviceProcess.sampleEnv).attach.StepsMeet Restorable
      (sampleSessions, ⟨DeviceProcess.starting DeviceProcess.sampleEnv, []⟩)
        (sampleFirst ++ sampleSecond) := by
    have hown {events : List SessionsEvent} (h : ∀ e ∈ events, ∃ e', e = .own e') (t) :
        (remembering DeviceProcess.sampleEnv).attach.StepsMeet Restorable t events := by
      refine EventSystem.stepsMeet_of_forall (fun t e he => ?_) t
      obtain ⟨e', rfl⟩ := h e he
      exact trivial
    refine (hown (fun e he => ?_) _).append fun t' ht' => ?_
    · simp only [sampleFirst, List.mem_append, List.mem_replicate, List.mem_cons,
        List.not_mem_nil, or_false] at he
      rcases he with (⟨-, rfl⟩ | rfl | rfl) | ⟨-, rfl⟩ <;> exact ⟨_, rfl⟩
    · obtain rfl : t = t' := Option.some.inj (hfirst.symm.trans ht')
      refine ⟨fun _ => hdurable, fun t' _ => hown (fun e he => ?_) t'⟩
      exact ⟨_, List.eq_of_mem_replicate he⟩
  exact ⟨s, m, hrun, hbase, (settings_across DeviceProcess.sampleEnv
    ⟨rfl, DeviceProcess.fresh_sampleProcess⟩ hrun hmeets).1⟩

end Sessions

end Serialosc
