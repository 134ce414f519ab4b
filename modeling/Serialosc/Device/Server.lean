import Serialosc.Device.Methods
import Serialosc.Support.Numeral
import Serialosc.Support.Runs

/-!
# A device server and its `/sys` messages

`DeviceServer` is `sosc_state_t` while the event loop runs, together with a log
of what the server asks of its device and sends.  Its methods and its prefix
are the `SoscState` of the methods; the rest of the configuration is read once,
when the server starts.

A handler returns nothing where the program crashes: liblo gives no port for
an address that was allocated without one, and the reply about the port reads
it.  The event that a handler answers says whether `lo_address_new` succeeds.
-/

namespace Serialosc

namespace OscString

/-- What is left of a string that is cut off after `n` bytes. -/
def take (s : OscString) (n : ℕ) : OscString where
  bytes := s.bytes.take n
  nulFree h := s.nulFree (List.mem_of_mem_take h)

/-- What `%d` and `%ld` print. -/
def decimal (n : ℤ) : OscString where
  bytes := Numeral.decimal n
  nulFree := Numeral.zero_notMem_decimal n

/-- The first character, or the terminator of an empty string. -/
def first (s : OscString) : UInt8 := s.bytes.headD 0

end OscString

/-! ## The configuration -/

/-- The options of a configuration file, as `cfg_parse` leaves them. -/
structure ConfigValues where
  serverPort : ℤ
  oscPrefix : OscString
  host : OscString
  port : ℤ
  rotation : ℤ
  deriving DecidableEq

/-- The defaults of the options. -/
def ConfigValues.default : ConfigValues where
  serverPort := 0
  oscPrefix := .ofString "/monome"
  host := .ofString "127.0.0.1"
  port := 8000
  rotation := 0

/-- `sosc_config_t`. -/
structure SoscConfig where
  serverPort : OscString
  oscPrefix : OscString
  host : OscString
  port : OscString
  rotation : UInt32
  deriving DecidableEq

/-- `sosc_port_itos`. -/
def soscPortItos (port : ℤ) : OscString :=
  if port ≠ 0 then (OscString.decimal port).take 5 else .ofString ""

/-- `sosc_config_read`, from the options on. -/
def soscConfigRead (cfg : ConfigValues) : SoscConfig where
  serverPort := soscPortItos cfg.serverPort
  oscPrefix := newPrefix cfg.oscPrefix
  host := cfg.host
  port := soscPortItos cfg.port
  rotation := UInt32.ofInt ((cfg.rotation.tdiv 90).tmod 4)

/-- `null_if_zero`. -/
def nullIfZero (s : OscString) : Option OscString :=
  if s.bytes = [] then none else some s

/-! ## The state -/

/-- The host and the port that an address was allocated for; the port may be
`NULL`. -/
structure OscAddress where
  host : OscString
  port : Option OscString
  deriving DecidableEq

/-- An argument of a message of a device server; a string may be `NULL`. -/
inductive DeviceArg
  | s (value : Option OscString)
  | i (value : ℤ)
  deriving DecidableEq

/-- What a device server asks of its device, and what it sends. -/
inductive DeviceEffect
  | monomeSetRotation (rotation : UInt32)
  | loSendFrom (dst : OscAddress) (path : String) (args : List DeviceArg)
  deriving DecidableEq

/-- libmonome, for one device: what `monome_get_rotation` returns after a
rotation was set, and the size of the device under that rotation. -/
structure Monome where
  serial : Option OscString
  getRotation : UInt32 → UInt32
  getCols : UInt32 → ℤ
  getRows : UInt32 → ℤ

/-- `sosc_state_t`.  `rotation` is the rotation last set. -/
structure DeviceServer where
  osc : SoscState
  outgoing : OscAddress
  rotation : UInt32
  log : List DeviceEffect
  deriving DecidableEq

namespace DeviceServer

def emit (self : DeviceServer) (effect : DeviceEffect) : DeviceServer :=
  { self with log := self.log ++ [effect] }

/-- `lo_send_from`. -/
def loSendFrom (self : DeviceServer) (dst : OscAddress) (path : String)
    (args : List DeviceArg) : DeviceServer :=
  self.emit (.loSendFrom dst path args)

/-- `monome_set_rotation`. -/
def monomeSetRotation (self : DeviceServer) (rotation : UInt32) : DeviceServer :=
  { self with rotation := rotation }.emit (.monomeSetRotation rotation)

end DeviceServer

/-! ## What the handlers send -/

namespace DeviceServer

/-- All that happens from `s` to `s'` is that messages are sent, to addresses
that satisfy `P`. -/
structure Sends (P : OscAddress → Prop) (s s' : DeviceServer) : Prop where
  same : s' = { s with log := s'.log }
  log : ∃ sent, s'.log = s.log ++ sent ∧
    ∀ e ∈ sent, ∃ dst path args, P dst ∧ e = .loSendFrom dst path args

theorem sends_loSendFrom {P : OscAddress → Prop} {dst : OscAddress} (h : P dst)
    (s : DeviceServer) (path : String) (args : List DeviceArg) :
    Sends P s (s.loSendFrom dst path args) where
  same := rfl
  log := by
    refine ⟨[.loSendFrom dst path args], rfl, fun e he => ?_⟩
    exact ⟨dst, path, args, h, List.mem_singleton.mp he⟩

theorem Sends.refl {P : OscAddress → Prop} (s : DeviceServer) : Sends P s s where
  same := rfl
  log := ⟨[], (List.append_nil _).symm, fun _ he => absurd he List.not_mem_nil⟩

theorem Sends.trans {P : OscAddress → Prop} {a b c : DeviceServer} (hab : Sends P a b)
    (hbc : Sends P b c) : Sends P a c where
  same := by
    rw [hbc.same, hab.same]
  log := by
    obtain ⟨xs, hxs, hxsP⟩ := hab.log
    obtain ⟨ys, hys, hysP⟩ := hbc.log
    refine ⟨xs ++ ys, by rw [hys, hxs, List.append_assoc], fun e he => ?_⟩
    exact (List.mem_append.mp he).elim (hxsP e) (hysP e)

/-- If the log has grown, then something has been sent. -/
theorem Sends.exists_of_length_lt {P : OscAddress → Prop} {s s' : DeviceServer}
    (h : Sends P s s') (hlt : s.log.length < s'.log.length) :
    ∃ dst path args, P dst ∧ .loSendFrom dst path args ∈ s'.log.drop s.log.length := by
  obtain ⟨sent, hlog, hsent⟩ := h.log
  rw [hlog, List.length_append] at hlt
  obtain ⟨e, he⟩ := List.exists_mem_of_length_pos (Nat.lt_add_right_iff_pos.mp hlt)
  obtain ⟨dst, path, args, hP, rfl⟩ := hsent e he
  refine ⟨dst, path, args, hP, ?_⟩
  rwa [hlog, List.drop_left]

theorem Sends.outgoing {P : OscAddress → Prop} {s s' : DeviceServer} (h : Sends P s s') :
    s'.outgoing = s.outgoing := by
  rw [h.same]

theorem Sends.rotation {P : OscAddress → Prop} {s s' : DeviceServer} (h : Sends P s s') :
    s'.rotation = s.rotation := by
  rw [h.same]

theorem Sends.osc {P : OscAddress → Prop} {s s' : DeviceServer} (h : Sends P s s') :
    s'.osc = s.osc := by
  rw [h.same]

end DeviceServer

/-! ## `/sys/info` -/

namespace Device

open DeviceServer

/-- `portstr`: the decimal digits, cut off at the size of the buffer. -/
def portstr (src : Int32) : OscString := (OscString.decimal src.toInt).take 5

/-- `atoi`. -/
def atoi (s : OscString) : ℤ := (Int32.ofInt (Numeral.strtol 10 s.bytes)).toInt

/-- What a request below `/sys/info` asks for. -/
inductive InfoProp
  | id
  | size
  | host
  | port
  | oscPrefix
  | rotation
  | all
  deriving DecidableEq, Repr

variable (monome : Monome)

/-- `info_reply_id`. -/
def infoReplyId (dst : OscAddress) (self : DeviceServer) : DeviceServer :=
  self.loSendFrom dst "/sys/id" [.s monome.serial]

/-- `info_reply_size`. -/
def infoReplySize (dst : OscAddress) (self : DeviceServer) : DeviceServer :=
  self.loSendFrom dst "/sys/size"
    [.i (monome.getCols self.rotation), .i (monome.getRows self.rotation)]

/-- `info_reply_host`. -/
def infoReplyHost (dst : OscAddress) (self : DeviceServer) : DeviceServer :=
  self.loSendFrom dst "/sys/host" [.s (some self.outgoing.host)]

/-- `info_reply_port`. -/
def infoReplyPort (dst : OscAddress) (self : DeviceServer) : Option DeviceServer :=
  self.outgoing.port.map fun port => self.loSendFrom dst "/sys/port" [.i (atoi port)]

/-- `info_reply_prefix`. -/
def infoReplyPrefix (dst : OscAddress) (self : DeviceServer) : DeviceServer :=
  self.loSendFrom dst "/sys/prefix" [.s (some self.osc.oscPrefix)]

/-- `info_reply_rotation`. -/
def infoReplyRotation (dst : OscAddress) (self : DeviceServer) : DeviceServer :=
  let self :=
    if monome.getCols self.rotation ≠ monome.getRows self.rotation then
      infoReplySize monome dst self
    else self
  self.loSendFrom dst "/sys/rotation" [.i (monome.getRotation self.rotation * 90).toInt32.toInt]

/-- `info_reply_all`. -/
def infoReplyAll (dst : OscAddress) (self : DeviceServer) : Option DeviceServer :=
  let self := infoReplyHost dst (infoReplySize monome dst (infoReplyId monome dst self))
  (infoReplyPort dst self).map fun self =>
    infoReplyRotation monome dst (infoReplyPrefix dst self)

/-- The reply to a request below `/sys/info`. -/
def infoReply (prop : InfoProp) (dst : OscAddress) (self : DeviceServer) :
    Option DeviceServer :=
  match prop with
  | .id => some (infoReplyId monome dst self)
  | .size => some (infoReplySize monome dst self)
  | .host => some (infoReplyHost dst self)
  | .port => infoReplyPort dst self
  | .oscPrefix => some (infoReplyPrefix dst self)
  | .rotation => some (infoReplyRotation monome dst self)
  | .all => infoReplyAll monome dst self

section Replies

variable {monome} {P : OscAddress → Prop} {dst : OscAddress} {self self' : DeviceServer}

theorem infoReplyPort_sends (hdst : P dst) (h : infoReplyPort dst self = some self') :
    self.Sends P self' := by
  obtain ⟨port, -, rfl⟩ := Option.map_eq_some_iff.mp h
  exact sends_loSendFrom hdst self "/sys/port" _

theorem infoReplyRotation_sends (hdst : P dst) (self : DeviceServer) :
    self.Sends P (infoReplyRotation monome dst self) := by
  rw [infoReplyRotation]
  split_ifs
  · exact (sends_loSendFrom hdst self "/sys/size" _).trans
      (sends_loSendFrom hdst _ "/sys/rotation" _)
  · exact sends_loSendFrom hdst self "/sys/rotation" _

theorem infoReplyAll_sends (hdst : P dst) (h : infoReplyAll monome dst self = some self') :
    self.Sends P self' := by
  obtain ⟨mid, hport, rfl⟩ := Option.map_eq_some_iff.mp h
  have hid : self.Sends P (infoReplyId monome dst self) := sends_loSendFrom hdst _ _ _
  have hsize : (infoReplyId monome dst self).Sends P
      (infoReplySize monome dst (infoReplyId monome dst self)) := sends_loSendFrom hdst _ _ _
  have hhost : (infoReplySize monome dst (infoReplyId monome dst self)).Sends P
      (infoReplyHost dst (infoReplySize monome dst (infoReplyId monome dst self))) :=
    sends_loSendFrom hdst _ _ _
  have hprefix : mid.Sends P (infoReplyPrefix dst mid) := sends_loSendFrom hdst _ _ _
  exact ((((hid.trans hsize).trans hhost).trans (infoReplyPort_sends hdst hport)).trans
    hprefix).trans (infoReplyRotation_sends hdst _)

/-- A reply is sent to the address it is for. -/
theorem infoReply_sends {prop : InfoProp} (hdst : P dst)
    (h : infoReply monome prop dst self = some self') : self.Sends P self' := by
  cases prop with
  | id =>
    obtain rfl := Option.some.inj h
    exact sends_loSendFrom hdst self "/sys/id" _
  | size =>
    obtain rfl := Option.some.inj h
    exact sends_loSendFrom hdst self "/sys/size" _
  | host =>
    obtain rfl := Option.some.inj h
    exact sends_loSendFrom hdst self "/sys/host" _
  | port => exact infoReplyPort_sends hdst h
  | oscPrefix =>
    obtain rfl := Option.some.inj h
    exact sends_loSendFrom hdst self "/sys/prefix" _
  | rotation =>
    obtain rfl := Option.some.inj h
    exact infoReplyRotation_sends hdst self
  | all => exact infoReplyAll_sends hdst h

theorem length_log_loSendFrom (dst : OscAddress) (path : String) (args : List DeviceArg)
    (self : DeviceServer) : self.log.length < (self.loSendFrom dst path args).log.length := by
  rw [loSendFrom, emit, List.length_append, List.length_singleton]
  exact Nat.lt_succ_self _

theorem length_log_infoReplyRotation (dst : OscAddress) (self : DeviceServer) :
    self.log.length < (infoReplyRotation monome dst self).log.length := by
  rw [infoReplyRotation]
  split_ifs
  · exact (length_log_loSendFrom dst "/sys/size" _ self).trans
      (length_log_loSendFrom dst "/sys/rotation" _ _)
  · exact length_log_loSendFrom dst "/sys/rotation" _ self

theorem infoReplyPort_some {port : OscString} (hport : self.outgoing.port = some port)
    (dst : OscAddress) :
    infoReplyPort dst self = some (self.loSendFrom dst "/sys/port" [.i (atoi port)]) := by
  rw [infoReplyPort, hport, Option.map_some]

/-- With a port to tell there is always a reply, which sends something. -/
theorem infoReply_some (monome : Monome) {port : OscString}
    (hport : self.outgoing.port = some port) (prop : InfoProp) (dst : OscAddress) :
    ∃ self', infoReply monome prop dst self = some self' ∧
      self.log.length < self'.log.length := by
  cases prop with
  | id => exact ⟨_, rfl, length_log_loSendFrom dst "/sys/id" _ self⟩
  | size => exact ⟨_, rfl, length_log_loSendFrom dst "/sys/size" _ self⟩
  | host => exact ⟨_, rfl, length_log_loSendFrom dst "/sys/host" _ self⟩
  | port => exact ⟨_, infoReplyPort_some hport dst, length_log_loSendFrom dst "/sys/port" _ self⟩
  | oscPrefix => exact ⟨_, rfl, length_log_loSendFrom dst "/sys/prefix" _ self⟩
  | rotation => exact ⟨_, rfl, length_log_infoReplyRotation dst self⟩
  | all =>
    let before := infoReplyHost dst (infoReplySize monome dst (infoReplyId monome dst self))
    have hbefore : self.log.length < before.log.length :=
      ((length_log_loSendFrom dst "/sys/id" _ self).trans
        (length_log_loSendFrom dst "/sys/size" _ _)).trans
          (length_log_loSendFrom dst "/sys/host" _ _)
    have hbport : before.outgoing.port = some port := hport
    refine ⟨_, congrArg (Option.map _) (infoReplyPort_some hbport dst), hbefore.trans ?_⟩
    exact ((length_log_loSendFrom dst "/sys/port" _ _).trans
      (length_log_loSendFrom dst "/sys/prefix" _ _)).trans (length_log_infoReplyRotation dst _)

end Replies

/-- `info_prop_handler`; the host is the first of two arguments. -/
def infoPropHandler (prop : InfoProp) (host : Option OscString) (port : Int32)
    (allocated : Bool) (self : DeviceServer) : Option DeviceServer :=
  if allocated then
    infoReply monome prop ⟨host.getD self.outgoing.host, some (portstr port)⟩ self
  else
    some self

/-- `info_prop_handler_default`. -/
def infoPropHandlerDefault (prop : InfoProp) (self : DeviceServer) : Option DeviceServer :=
  infoReply monome prop self.outgoing self

/-! ## The other `/sys` messages -/

/-- The rotation that a cable position stands for. -/
def cableRotation (c : UInt8) : Option UInt32 :=
  if c = 0x4c ∨ c = 0x6c ∨ c = 0x30 then some 0
  else if c = 0x54 ∨ c = 0x74 ∨ c = 0x39 then some 1
  else if c = 0x52 ∨ c = 0x72 ∨ c = 0x31 then some 2
  else if c = 0x42 ∨ c = 0x62 ∨ c = 0x32 then some 3
  else none

/-- The end of `sys_cable_legacy_handler` and of `sys_rotation_handler`. -/
def changeRotation (new : UInt32) (self : DeviceServer) : DeviceServer :=
  if monome.getRotation self.rotation = new then self
  else
    let self := self.monomeSetRotation new
    infoReplyRotation monome self.outgoing self

/-- `sys_cable_legacy_handler`. -/
def sysCableLegacyHandler (arg : OscString) (self : DeviceServer) : DeviceServer :=
  match cableRotation arg.first with
  | some new => changeRotation monome new self
  | none => self

/-- `sys_rotation_handler`. -/
def sysRotationHandler (arg : Int32) (self : DeviceServer) : DeviceServer :=
  changeRotation monome (UInt32.ofInt (arg.toInt.tdiv 90)) self

/-- `sys_port_handler`. -/
def sysPortHandler (arg : Int32) (allocated : Bool) (self : DeviceServer) :
    Option DeviceServer :=
  if allocated then
    let old := self.outgoing
    let new : OscAddress := ⟨old.host, some (portstr arg)⟩
    (infoReplyPort old { self with outgoing := new }).bind (infoReplyPort new)
  else
    some self

/-- `sys_host_handler`. -/
def sysHostHandler (arg : OscString) (allocated : Bool) (self : DeviceServer) :
    DeviceServer :=
  if allocated then
    let old := self.outgoing
    let new : OscAddress := ⟨arg, old.port⟩
    infoReplyHost new (infoReplyHost old { self with outgoing := new })
  else
    self

/-- `sys_prefix_handler`, with its reply. -/
def sysPrefixHandler (arg : OscString) (self : DeviceServer) : DeviceServer :=
  let self := { self with osc := Serialosc.sysPrefixHandler self.osc arg }
  infoReplyPrefix self.outgoing self

/-! ## What the handlers do -/

section Specs

variable {monome} {self self' : DeviceServer}

theorem infoPropHandler_spec {prop : InfoProp} {host : Option OscString} {port : Int32}
    {allocated : Bool} (h : infoPropHandler monome prop host port allocated self = some self') :
    self.Sends (· = ⟨host.getD self.outgoing.host, some (portstr port)⟩) self' := by
  rw [infoPropHandler] at h
  split_ifs at h
  · exact infoReply_sends rfl h
  · obtain rfl := Option.some.inj h
    exact .refl self

theorem infoPropHandlerDefault_spec {prop : InfoProp}
    (h : infoPropHandlerDefault monome prop self = some self') :
    self.Sends (· = self.outgoing) self' :=
  infoReply_sends rfl h

theorem changeRotation_spec (monome : Monome) (new : UInt32) (self : DeviceServer) :
    monome.getRotation self.rotation = new ∧ changeRotation monome new self = self ∨
      monome.getRotation self.rotation ≠ new ∧
        (self.monomeSetRotation new).Sends (· = self.outgoing)
          (changeRotation monome new self) := by
  rw [changeRotation]
  split_ifs with heq
  · exact .inl ⟨heq, rfl⟩
  · exact .inr ⟨heq, infoReplyRotation_sends (P := (· = self.outgoing)) rfl _⟩

/-- Either no address was allocated, or the port is changed and the old address
and the new one are told. -/
theorem sysPortHandler_spec {arg : Int32} {allocated : Bool}
    (h : sysPortHandler arg allocated self = some self') :
    allocated = false ∧ self' = self ∨
      allocated = true ∧ DeviceServer.Sends
        (fun dst => dst = self.outgoing ∨ dst = ⟨self.outgoing.host, some (portstr arg)⟩)
        { self with outgoing := ⟨self.outgoing.host, some (portstr arg)⟩ } self' := by
  cases allocated with
  | false => exact .inl ⟨rfl, (Option.some.inj h).symm⟩
  | true =>
    rw [sysPortHandler, if_pos rfl] at h
    obtain ⟨mid, hold, hnew⟩ := Option.bind_eq_some_iff.mp h
    exact .inr ⟨rfl, (infoReplyPort_sends (.inl rfl) hold).trans
      (infoReplyPort_sends (.inr rfl) hnew)⟩

/-- The port that is replied is the one that the address was allocated with. -/
theorem sysPortHandler_some (arg : Int32) (allocated : Bool) (self : DeviceServer) :
    ∃ self', sysPortHandler arg allocated self = some self' := by
  cases allocated with
  | false => exact ⟨_, rfl⟩
  | true => exact ⟨_, rfl⟩

/-- Either no address was allocated, or the host is changed and the old address
and the new one are told. -/
theorem sysHostHandler_spec (arg : OscString) (allocated : Bool) (self : DeviceServer) :
    allocated = false ∧ sysHostHandler arg allocated self = self ∨
      allocated = true ∧ DeviceServer.Sends
        (fun dst => dst = self.outgoing ∨ dst = ⟨arg, self.outgoing.port⟩)
        { self with outgoing := ⟨arg, self.outgoing.port⟩ }
        (sysHostHandler arg allocated self) := by
  cases allocated with
  | false => exact .inl ⟨rfl, rfl⟩
  | true =>
    have hreply {P : OscAddress → Prop} {dst : OscAddress} (hdst : P dst) (s : DeviceServer) :
        s.Sends P (infoReplyHost dst s) := sends_loSendFrom hdst s "/sys/host" _
    exact .inr ⟨rfl, (hreply (.inl rfl) _).trans (hreply (.inr rfl) _)⟩

theorem sysPrefixHandler_spec (arg : OscString) (self : DeviceServer) :
    DeviceServer.Sends (· = self.outgoing)
      { self with osc := Serialosc.sysPrefixHandler self.osc arg }
      (sysPrefixHandler arg self) :=
  sends_loSendFrom (P := (· = self.outgoing)) rfl _ "/sys/prefix" _

end Specs

/-! ## Runs -/

/-- A message to one of the methods of `osc_register_sys_methods`. -/
inductive SysMessage
  | info (prop : InfoProp) (host : Option OscString) (port : Int32)
  | infoDefault (prop : InfoProp)
  | cable (arg : OscString)
  | rotation (arg : Int32)
  | port (arg : Int32)
  | host (arg : OscString)
  | oscPrefix (arg : OscString)
  deriving DecidableEq

/-- A message that arrives, and whether `lo_address_new` succeeds for it. -/
structure SysEvent where
  message : SysMessage
  allocated : Bool
  deriving DecidableEq

/-- What the server does with a message. -/
def handle (self : DeviceServer) (e : SysEvent) : Option DeviceServer :=
  match e.message with
  | .info prop host port => infoPropHandler monome prop host port e.allocated self
  | .infoDefault prop => infoPropHandlerDefault monome prop self
  | .cable arg => some (sysCableLegacyHandler monome arg self)
  | .rotation arg => some (sysRotationHandler monome arg self)
  | .port arg => sysPortHandler arg e.allocated self
  | .host arg => some (sysHostHandler arg e.allocated self)
  | .oscPrefix arg => some (sysPrefixHandler arg self)

/-- `sosc_server_run` up to its event loop, when `lo_server_new` and
`lo_address_new` succeed. -/
def serverRun (config : SoscConfig) : DeviceServer :=
  let self : DeviceServer :=
    { osc := soscServerRun config.oscPrefix
      outgoing := ⟨config.host, nullIfZero config.port⟩
      rotation := 0
      log := [] }
  let self := self.monomeSetRotation config.rotation
  self.loSendFrom self.outgoing "/sys/connect" []

/-- A grid of sixteen columns and eight rows, as it reports its size when it is
turned. -/
def sampleMonome : Monome where
  serial := some (.ofString "m0000045")
  getRotation := id
  getCols r := if r % 2 = 0 then 16 else 8
  getRows r := if r % 2 = 0 then 8 else 16

/-- A device server that is started from a configuration file. -/
def system : Runs.EventSystem DeviceServer SysEvent where
  init self := ∃ cfg, self = serverRun (soscConfigRead cfg)
  step := handle monome

end Device

end Serialosc
