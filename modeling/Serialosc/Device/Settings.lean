import Serialosc.Device.Server

/-!
# What a device server tells its clients

The abstract side of the `/sys` messages.  `Settings` is what clients can set;
`Settings.after` says what a message changes in it, and `Settings.outputs` what
is asked of the device and sent for it.  Neither mentions the tables of methods
or the order in which a handler assigns and replies.

`exec_settings` is the refinement: after any run the server has these settings,
and its log is the transcript of the messages.  A run is cut short by a crash
exactly when a message asks for the port of an address without one, which
`exec_eq_none_iff` traces back to the configuration.
-/

namespace Serialosc

namespace Device

open DeviceServer

/-! ## Settings -/

/-- What the clients of a device server can set. -/
structure Settings where
  oscPrefix : OscString
  host : OscString
  port : Option OscString
  rotation : UInt32
  deriving DecidableEq

namespace Settings

variable (monome : Monome)

/-- Where the events of the device are sent. -/
def address (s : Settings) : OscAddress := ⟨s.host, s.port⟩

/-- The device is turned, unless it already is. -/
def turned (s : Settings) (new : UInt32) : Settings :=
  if monome.getRotation s.rotation = new then s else { s with rotation := new }

/-- The settings after a message. -/
def after (s : Settings) (e : SysEvent) : Settings :=
  match e.message with
  | .info _ _ _ | .infoDefault _ => s
  | .cable arg => (cableRotation arg.first).elim s (s.turned monome)
  | .rotation arg => s.turned monome (UInt32.ofInt (arg.toInt.tdiv 90))
  | .port arg => if e.allocated then { s with port := some (portstr arg) } else s
  | .host arg => if e.allocated then { s with host := arg } else s
  | .oscPrefix arg => { s with oscPrefix := newPrefix arg }

/-- The size of the device. -/
def sizeReply (s : Settings) (dst : OscAddress) : DeviceEffect :=
  .loSendFrom dst "/sys/size" [.i (monome.getCols s.rotation), .i (monome.getRows s.rotation)]

/-- The host that events are sent to. -/
def hostReply (s : Settings) (dst : OscAddress) : DeviceEffect :=
  .loSendFrom dst "/sys/host" [.s (some s.host)]

/-- The port that events are sent to, if there is one. -/
def portReply (s : Settings) (dst : OscAddress) : List DeviceEffect :=
  s.port.toList.map fun port => .loSendFrom dst "/sys/port" [.i (atoi port)]

/-- The prefix of the methods. -/
def prefixReply (s : Settings) (dst : OscAddress) : DeviceEffect :=
  .loSendFrom dst "/sys/prefix" [.s (some s.oscPrefix)]

/-- The rotation, after the size where it matters. -/
def rotationReply (s : Settings) (dst : OscAddress) : List DeviceEffect :=
  (if monome.getCols s.rotation = monome.getRows s.rotation then []
    else [s.sizeReply monome dst]) ++
    [.loSendFrom dst "/sys/rotation" [.i (monome.getRotation s.rotation * 90).toInt32.toInt]]

/-- What a client is told that asks for a property. -/
def reply (s : Settings) (dst : OscAddress) : InfoProp → List DeviceEffect
  | .id => [.loSendFrom dst "/sys/id" [.s monome.serial]]
  | .size => [s.sizeReply monome dst]
  | .host => [s.hostReply dst]
  | .port => s.portReply dst
  | .oscPrefix => [s.prefixReply dst]
  | .rotation => s.rotationReply monome dst
  | .all =>
      .loSendFrom dst "/sys/id" [.s monome.serial] :: s.sizeReply monome dst ::
        s.hostReply dst :: s.portReply dst ++ s.prefixReply dst :: s.rotationReply monome dst

/-- What is asked of the device and sent when it is turned. -/
def turning (s : Settings) (new : UInt32) : List DeviceEffect :=
  if monome.getRotation s.rotation = new then []
  else .monomeSetRotation new :: (s.turned monome new).rotationReply monome s.address

/-- What is asked of the device and sent for a message.  A change of the address is
told at the old one and at the new one. -/
def outputs (s : Settings) (e : SysEvent) : List DeviceEffect :=
  let s' := s.after monome e
  match e.message with
  | .info prop host port =>
      if e.allocated then s.reply monome ⟨host.getD s.host, some (portstr port)⟩ prop else []
  | .infoDefault prop => s.reply monome s.address prop
  | .cable arg => (cableRotation arg.first).elim [] (s.turning monome)
  | .rotation arg => s.turning monome (UInt32.ofInt (arg.toInt.tdiv 90))
  | .port _ => if e.allocated then s'.portReply s.address ++ s'.portReply s'.address else []
  | .host _ => if e.allocated then [s'.hostReply s.address, s'.hostReply s'.address] else []
  | .oscPrefix _ => [s'.prefixReply s.address]

/-- The settings after a run. -/
def afterAll (s : Settings) (es : List SysEvent) : Settings := es.foldl (after monome) s

/-- What is asked of the device and sent in a run. -/
def transcript (s : Settings) : List SysEvent → List DeviceEffect
  | [] => []
  | e :: es => s.outputs monome e ++ (s.after monome e).transcript es

/-- The settings of a configuration. -/
def ofConfig (config : SoscConfig) : Settings where
  oscPrefix := config.oscPrefix
  host := config.host
  port := nullIfZero config.port
  rotation := config.rotation

/-- The message asks for the port that events are sent to. -/
def AsksPort (e : SysEvent) : Prop :=
  match e.message with
  | .info prop _ _ => e.allocated = true ∧ (prop = .port ∨ prop = .all)
  | .infoDefault prop => prop = .port ∨ prop = .all
  | .cable _ | .rotation _ | .port _ | .host _ | .oscPrefix _ => False

/-- The message sets the port that events are sent to. -/
def SetsPort (e : SysEvent) : Prop :=
  match e.message with
  | .port _ => e.allocated = true
  | .info _ _ _ | .infoDefault _ | .cable _ | .rotation _ | .host _ | .oscPrefix _ => False

end Settings

/-- The settings that a server has. -/
def settings (self : DeviceServer) : Settings where
  oscPrefix := self.osc.oscPrefix
  host := self.outgoing.host
  port := self.outgoing.port
  rotation := self.rotation

/-! ## What the handlers amount to -/

/-- From `a` to `b`, the settings become `s` and the effects in `es` are added. -/
structure Does (a b : DeviceServer) (s : Settings) (es : List DeviceEffect) : Prop where
  settings : settings b = s
  log : b.log = a.log ++ es

section

variable {monome : Monome} {self self' self'' : DeviceServer} {dst : OscAddress}

theorem Does.trans {s s' : Settings} {es es' : List DeviceEffect} (h : Does self self' s es)
    (h' : Does self' self'' s' es') : Does self self'' s' (es ++ es') :=
  ⟨h'.settings, by rw [h'.log, h.log, List.append_assoc]⟩

theorem does_infoReplyPort (h : infoReplyPort dst self = some self') :
    Does self self' (settings self) ((settings self).portReply dst) := by
  obtain ⟨port, hport, rfl⟩ := Option.map_eq_some_iff.mp h
  refine ⟨rfl, ?_⟩
  rw [Settings.portReply, show (settings self).port = some port from hport]
  rfl

theorem does_infoReplyRotation (monome : Monome) (dst : OscAddress) (self : DeviceServer) :
    Does self (infoReplyRotation monome dst self) (settings self)
      ((settings self).rotationReply monome dst) := by
  rw [infoReplyRotation, Settings.rotationReply]
  change Does self _ _ ((if monome.getCols self.rotation = monome.getRows self.rotation then []
    else [(settings self).sizeReply monome dst]) ++ _)
  by_cases hsquare : monome.getCols self.rotation = monome.getRows self.rotation
  · rw [if_neg (not_not.mpr hsquare), if_pos hsquare]
    exact ⟨rfl, rfl⟩
  · rw [if_pos hsquare, if_neg hsquare]
    have hsize : Does self (infoReplySize monome dst self) (settings self)
        [(settings self).sizeReply monome dst] := ⟨rfl, rfl⟩
    exact hsize.trans ⟨rfl, rfl⟩

theorem does_infoReply {prop : InfoProp} (h : infoReply monome prop dst self = some self') :
    Does self self' (settings self) ((settings self).reply monome dst prop) := by
  cases prop with
  | id =>
    obtain rfl := Option.some.inj h
    exact ⟨rfl, rfl⟩
  | size =>
    obtain rfl := Option.some.inj h
    exact ⟨rfl, rfl⟩
  | host =>
    obtain rfl := Option.some.inj h
    exact ⟨rfl, rfl⟩
  | port => exact does_infoReplyPort h
  | oscPrefix =>
    obtain rfl := Option.some.inj h
    exact ⟨rfl, rfl⟩
  | rotation =>
    obtain rfl := Option.some.inj h
    exact does_infoReplyRotation monome dst self
  | all =>
    obtain ⟨mid, hport, rfl⟩ := Option.map_eq_some_iff.mp h
    have hbefore : Does self (infoReplyHost dst (infoReplySize monome dst
        (infoReplyId monome dst self))) (settings self)
        [.loSendFrom dst "/sys/id" [.s monome.serial], (settings self).sizeReply monome dst,
          (settings self).hostReply dst] := by
      refine ⟨rfl, ?_⟩
      simp only [infoReplyHost, infoReplySize, infoReplyId, loSendFrom, emit, List.append_assoc]
      rfl
    have hmid : Does (infoReplyHost dst (infoReplySize monome dst (infoReplyId monome dst self)))
        mid (settings self) ((settings self).portReply dst) := does_infoReplyPort hport
    have hlast : Does mid (infoReplyPrefix dst mid) (settings self)
        [(settings self).prefixReply dst] := by
      refine ⟨hmid.settings, ?_⟩
      rw [Settings.prefixReply, ← show settings mid = settings self from hmid.settings]
      rfl
    have hrotation := does_infoReplyRotation monome dst (infoReplyPrefix dst mid)
    rw [hlast.settings] at hrotation
    have hall := ((hbefore.trans hmid).trans hlast).trans hrotation
    rw [Settings.reply]
    simpa only [List.append_assoc, List.cons_append, List.nil_append] using hall

theorem does_changeRotation (new : UInt32) (self : DeviceServer) :
    Does self (changeRotation monome new self) ((settings self).turned monome new)
      ((settings self).turning monome new) := by
  rw [changeRotation, Settings.turning, Settings.turned]
  by_cases hsame : monome.getRotation self.rotation = new
  · have hsame' : monome.getRotation (settings self).rotation = new := hsame
    rw [if_pos hsame, if_pos hsame', if_pos hsame']
    exact ⟨rfl, (List.append_nil _).symm⟩
  · have hsame' : ¬ monome.getRotation (settings self).rotation = new := hsame
    rw [if_neg hsame, if_neg hsame', if_neg hsame']
    have hset : Does self (self.monomeSetRotation new) { settings self with rotation := new }
        [.monomeSetRotation new] := ⟨rfl, rfl⟩
    have hreply := does_infoReplyRotation monome
      (self.monomeSetRotation new).outgoing (self.monomeSetRotation new)
    rw [hset.settings] at hreply
    exact hset.trans hreply

theorem does_sysPortHandler {arg : Int32} {allocated : Bool}
    (h : sysPortHandler arg allocated self = some self') :
    Does self self' ((settings self).after monome ⟨.port arg, allocated⟩)
      ((settings self).outputs monome ⟨.port arg, allocated⟩) := by
  cases allocated with
  | false =>
    obtain rfl := Option.some.inj h
    exact ⟨rfl, (List.append_nil _).symm⟩
  | true =>
    rw [sysPortHandler, if_pos rfl] at h
    obtain ⟨mid, hold, hnew⟩ := Option.bind_eq_some_iff.mp h
    have hmid := does_infoReplyPort hold
    have hlast := does_infoReplyPort hnew
    rw [hmid.settings] at hlast
    have hfirst : Does self mid { settings self with port := _ } _ := ⟨hmid.settings, hmid.log⟩
    exact hfirst.trans hlast

/-- Every message does what it is to do. -/
theorem does_handle {e : SysEvent} (h : handle monome self e = some self') :
    Does self self' ((settings self).after monome e) ((settings self).outputs monome e) := by
  obtain ⟨message, allocated⟩ := e
  cases message with
  | info prop host port =>
    cases allocated with
    | false =>
      obtain rfl := Option.some.inj h
      exact ⟨rfl, (List.append_nil _).symm⟩
    | true => exact does_infoReply h
  | infoDefault prop => exact does_infoReply h
  | cable arg =>
    obtain rfl := Option.some.inj h
    simp only [sysCableLegacyHandler, Settings.after, Settings.outputs]
    cases cableRotation arg.first with
    | none => exact ⟨rfl, (List.append_nil _).symm⟩
    | some new => exact does_changeRotation new self
  | rotation arg =>
    obtain rfl := Option.some.inj h
    exact does_changeRotation _ self
  | port arg => exact does_sysPortHandler h
  | host arg =>
    obtain rfl := Option.some.inj h
    cases allocated with
    | false => exact ⟨rfl, (List.append_nil _).symm⟩
    | true =>
      refine ⟨rfl, ?_⟩
      simp only [sysHostHandler, if_true, infoReplyHost, loSendFrom, emit, List.append_assoc]
      rfl
  | oscPrefix arg =>
    obtain rfl := Option.some.inj h
    exact ⟨rfl, rfl⟩

end

/-! ## Runs -/

section

variable {monome : Monome} {self self' : DeviceServer}

theorem does_exec {es : List SysEvent} (h : (system monome).exec self es = some self') :
    Does self self' ((settings self).afterAll monome es)
      ((settings self).transcript monome es) := by
  induction es generalizing self with
  | nil =>
    obtain rfl := Option.some.inj h
    exact ⟨rfl, (List.append_nil _).symm⟩
  | cons e es ih =>
    obtain ⟨mid, hstep, hrest⟩ := (Runs.EventSystem.exec_cons_some _).mp h
    have hmid := does_handle hstep
    have hlast := ih hrest
    rw [hmid.settings] at hlast
    exact hmid.trans hlast

theorem does_serverRun (config : SoscConfig) :
    settings (serverRun config) = .ofConfig config ∧
      (serverRun config).log = [.monomeSetRotation config.rotation,
        .loSendFrom ⟨config.host, nullIfZero config.port⟩ "/sys/connect" []] :=
  ⟨rfl, rfl⟩

/-- After any sequence of messages, the server has the settings that these amount to,
and has asked of its device and sent the transcript of the messages, and nothing else. -/
theorem exec_settings (monome : Monome) (config : SoscConfig) (es : List SysEvent)
    (self : DeviceServer) (hrun : (system monome).exec (serverRun config) es = some self) :
    settings self = (Settings.ofConfig config).afterAll monome es ∧
      self.log =
        [.monomeSetRotation config.rotation,
          .loSendFrom ⟨config.host, nullIfZero config.port⟩ "/sys/connect" []] ++
        (Settings.ofConfig config).transcript monome es := by
  obtain ⟨hsettings, hlog⟩ := does_exec hrun
  obtain ⟨hinit, hstart⟩ := does_serverRun config
  rw [hinit] at hsettings hlog
  rw [hstart] at hlog
  exact ⟨hsettings, hlog⟩

/-- A new port, and then everything that can be asked for. -/
theorem exec_settings_newPort :
    ∃ self, (system sampleMonome).exec (serverRun (soscConfigRead .default))
        [⟨.port 9000, true⟩, ⟨.infoDefault .all, true⟩] = some self ∧
      settings self = (Settings.ofConfig (soscConfigRead .default)).afterAll sampleMonome
        [⟨.port 9000, true⟩, ⟨.infoDefault .all, true⟩] ∧
      self.log =
        [.monomeSetRotation (soscConfigRead .default).rotation,
          .loSendFrom ⟨(soscConfigRead .default).host,
            nullIfZero (soscConfigRead .default).port⟩ "/sys/connect" []] ++
        (Settings.ofConfig (soscConfigRead .default)).transcript sampleMonome
          [⟨.port 9000, true⟩, ⟨.infoDefault .all, true⟩] :=
  ⟨_, rfl, exec_settings sampleMonome (soscConfigRead .default) _ _ rfl⟩

/-! ## Crashes -/

theorem infoReply_eq_none_iff {prop : InfoProp} {dst : OscAddress} :
    infoReply monome prop dst self = none ↔
      self.outgoing.port = none ∧ (prop = .port ∨ prop = .all) := by
  cases hport : self.outgoing.port with
  | some port =>
    obtain ⟨self', hreply, -⟩ := infoReply_some monome hport prop dst
    rw [hreply]
    exact iff_of_false (Option.some_ne_none _) fun h => Option.some_ne_none _ h.1
  | none =>
    rw [and_iff_right rfl]
    have hnone : infoReplyPort dst self = none := by
      rw [infoReplyPort, hport]
      rfl
    cases prop with
    | port => exact iff_of_true hnone (.inl rfl)
    | all =>
      refine iff_of_true ?_ (.inr rfl)
      rw [infoReply, infoReplyAll, infoReplyPort]
      change Option.map _ (Option.map _ self.outgoing.port) = none
      rw [hport]
      rfl
    | _ => exact iff_of_false (Option.some_ne_none _) (by decide)

/-- A message makes the program crash exactly when it asks for a port that there is
not. -/
theorem handle_eq_none_iff {e : SysEvent} :
    handle monome self e = none ↔ (settings self).port = none ∧ Settings.AsksPort e := by
  obtain ⟨message, allocated⟩ := e
  cases message with
  | info prop host port =>
    cases allocated with
    | false =>
      refine iff_of_false (Option.some_ne_none _) fun h => ?_
      exact Bool.noConfusion h.2.1
    | true =>
      refine infoReply_eq_none_iff.trans (and_congr_right fun _ => ?_)
      exact (and_iff_right rfl).symm
  | infoDefault prop => exact infoReply_eq_none_iff
  | cable arg => exact iff_of_false (Option.some_ne_none _) fun h => h.2
  | rotation arg => exact iff_of_false (Option.some_ne_none _) fun h => h.2
  | host arg => exact iff_of_false (Option.some_ne_none _) fun h => h.2
  | oscPrefix arg => exact iff_of_false (Option.some_ne_none _) fun h => h.2
  | port arg =>
    obtain ⟨self', hself'⟩ := sysPortHandler_some arg allocated self
    refine iff_of_false ?_ fun h => h.2
    change sysPortHandler arg allocated self ≠ none
    rw [hself']
    exact Option.some_ne_none _

/-- Only an accepted `/sys/port` gives an address a port. -/
theorem port_after {s : Settings} {e : SysEvent} :
    (s.after monome e).port = none ↔ s.port = none ∧ ¬ Settings.SetsPort e := by
  obtain ⟨message, allocated⟩ := e
  have hturned (new : UInt32) : (s.turned monome new).port = s.port := by
    rw [Settings.turned]
    split <;> rfl
  cases message with
  | port arg =>
    cases allocated with
    | false => exact (and_iff_left (fun h => Bool.noConfusion h)).symm
    | true => exact iff_of_false (Option.some_ne_none _) fun h => h.2 rfl
  | cable arg =>
    refine Iff.trans (iff_of_eq ?_) (and_iff_left id).symm
    simp only [Settings.after]
    cases cableRotation arg.first with
    | none => rfl
    | some new => exact congrArg (· = none) (hturned new)
  | rotation arg =>
    refine Iff.trans (iff_of_eq ?_) (and_iff_left id).symm
    exact congrArg (· = none) (hturned _)
  | host arg =>
    refine Iff.trans (iff_of_eq ?_) (and_iff_left id).symm
    simp only [Settings.after]
    split <;> rfl
  | _ => exact (and_iff_left id).symm

/-- The port is still missing when a message asks for it. -/
def Settings.Unanswerable (s : Settings) (es : List SysEvent) : Prop :=
  s.port = none ∧ ∃ past e rest, es = past ++ e :: rest ∧ Settings.AsksPort e ∧
    ∀ e' ∈ past, ¬ Settings.SetsPort e'

theorem unanswerable_cons (monome : Monome) {s : Settings} {e : SysEvent} {es : List SysEvent} :
    s.Unanswerable (e :: es) ↔
      s.port = none ∧ Settings.AsksPort e ∨ (s.after monome e).Unanswerable es := by
  rw [Settings.Unanswerable, Settings.Unanswerable, port_after]
  constructor
  · rintro ⟨hport, past, e', rest, heq, hasks, hpast⟩
    cases past with
    | nil =>
      obtain ⟨rfl, rfl⟩ := List.cons_eq_cons.mp heq
      exact .inl ⟨hport, hasks⟩
    | cons e₀ past =>
      obtain ⟨rfl, rfl⟩ := List.cons_eq_cons.mp heq
      obtain ⟨he, hpast⟩ := List.forall_mem_cons.mp hpast
      exact .inr ⟨⟨hport, he⟩, past, e', rest, rfl, hasks, hpast⟩
  · rintro (⟨hport, hasks⟩ | ⟨⟨hport, he⟩, past, e', rest, rfl, hasks, hpast⟩)
    · exact ⟨hport, [], e, es, rfl, hasks, nofun⟩
    · exact ⟨hport, e :: past, e', rest, rfl, hasks, List.forall_mem_cons.mpr ⟨he, hpast⟩⟩

theorem exec_eq_none_of_settings {es : List SysEvent} :
    (system monome).exec self es = none ↔ (settings self).Unanswerable es := by
  induction es generalizing self with
  | nil =>
    refine iff_of_false (Option.some_ne_none _) ?_
    rintro ⟨-, past, e, rest, heq, -⟩
    exact List.append_ne_nil_of_right_ne_nil past (List.cons_ne_nil e rest) heq.symm
  | cons e es ih =>
    rw [Runs.EventSystem.exec, Option.bind_eq_none_iff, unanswerable_cons monome,
      ← handle_eq_none_iff]
    cases hstep : handle monome self e with
    | none =>
      refine iff_of_true (fun self' h => ?_) (.inl rfl)
      cases hstep.symm.trans h
    | some self' =>
      rw [← (does_handle hstep).settings, ← ih]
      constructor
      · intro h
        exact .inr (h self' hstep)
      · rintro (h | h) self'' h''
        · cases h
        · obtain rfl := Option.some.inj (hstep.symm.trans h'')
          exact h

/-- A run of a device server ends in a crash exactly when it was configured without a port
for events, and is asked for that port before a `/sys/port` message has been accepted. -/
theorem exec_eq_none_iff (monome : Monome) (config : SoscConfig) (es : List SysEvent) :
    (system monome).exec (serverRun config) es = none ↔
      config.port.bytes = [] ∧ ∃ past e rest, es = past ++ e :: rest ∧ Settings.AsksPort e ∧
        ∀ e' ∈ past, ¬ Settings.SetsPort e' := by
  rw [exec_eq_none_of_settings, (does_serverRun config).1, Settings.Unanswerable]
  refine and_congr_left fun _ => ?_
  change nullIfZero config.port = none ↔ config.port.bytes = []
  rw [nullIfZero, ite_eq_left_iff]
  simp

end

end Device

end Serialosc
