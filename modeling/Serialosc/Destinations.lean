import Serialosc.Device.Server
import Serialosc.Supervisor.Listing

/-!
# Requested destinations

A message or a configuration file asks the programs to talk to a host and a
port.  Three functions print the port into six bytes, and `sosc_strlcpy` copies
the host of a notification endpoint into 128; what does not fit is cut off, and
no caller looks at the length that these functions return.
`Request.honoured_iff` says which requests are honoured for all that.
-/

namespace Serialosc

open ByteMemory Runs Device

/-! ## Port strings -/

/-- A port string denotes the number that `strtol` reads from it.  The empty string, which
`strtol` reads as zero, stands for the port 0 of a file. -/
def Denotes (port : List UInt8) (n : ℤ) : Prop := Numeral.strtol 10 port = n

/-- The number can be printed into six bytes. -/
def FitsPort (n : ℤ) : Prop := -9999 ≤ n ∧ n ≤ 99999

instance (n : ℤ) : Decidable (FitsPort n) := inferInstanceAs (Decidable (_ ∧ _))

theorem denotes_take_decimal_iff (n : ℤ) :
    Denotes ((Numeral.decimal n).take 5) n ↔ FitsPort n := by
  rw [Denotes, Numeral.strtol_take_decimal (by decide), FitsPort]
  omega

theorem bytes_portstr (n : ℤ) : (portstr n).bytes = (Numeral.decimal n).take 5 := by
  have hall : ∀ b ∈ Numeral.decimal n, decide (b ≠ 0) = true := by
    intro b hb
    refine decide_eq_true ?_
    rintro rfl
    exact Numeral.zero_notMem_decimal n hb
  have hbytes : (CString.ofString (toString n)).bytes =
      (Numeral.decimal n).take (2 ^ 63 - 1) := by
    rw [← List.takeWhile_eq_self_iff.mpr hall]
    rfl
  calc (portstr n).bytes = (CString.ofString (toString n)).bytes.take 5 := rfl
    _ = (Numeral.decimal n).take 5 := by rw [hbytes, List.take_take]; rfl

theorem denotes_portstr_iff (n : ℤ) : Denotes (portstr n).bytes n ↔ FitsPort n := by
  rw [bytes_portstr, denotes_take_decimal_iff]

theorem denotes_devicePortstr_iff (n : Int32) :
    Denotes (Device.portstr n).bytes n.toInt ↔ FitsPort n.toInt :=
  denotes_take_decimal_iff n.toInt

theorem denotes_soscPortItos_iff (n : ℤ) : Denotes (soscPortItos n).bytes n ↔ FitsPort n := by
  rw [soscPortItos]
  split_ifs with hn
  · exact denotes_take_decimal_iff n
  · obtain rfl := not_not.mp hn
    exact iff_of_true rfl (by decide)

/-! ## Addresses -/

/-- The address is for this host and for this port. -/
structure LoAddress.Exactly (dst : LoAddress) (host : CString) (port : ℤ) : Prop where
  host : dst.host = host
  port : Denotes dst.port.bytes port

/-- The address of a device server is for this host and for this port. -/
structure OscAddress.Exactly (dst : OscAddress) (host : OscString) (port : ℤ) : Prop where
  host : dst.host = host
  port : ∃ s, dst.port = some s ∧ Denotes s.bytes port

theorem LoAddress.exactly_iff (host : CString) (n : ℤ) :
    LoAddress.Exactly ⟨host, portstr n⟩ host n ↔ FitsPort n := by
  rw [← denotes_portstr_iff]
  exact ⟨LoAddress.Exactly.port, fun h => ⟨rfl, h⟩⟩

theorem OscAddress.exactly_iff (host : OscString) (n : Int32) :
    OscAddress.Exactly ⟨host, some (Device.portstr n)⟩ host n.toInt ↔ FitsPort n.toInt := by
  rw [← denotes_devicePortstr_iff]
  constructor
  · rintro ⟨-, s, hs, hdenotes⟩
    obtain rfl := Option.some.inj hs
    exact hdenotes
  · intro h
    exact ⟨rfl, _, rfl, h⟩

/-! ## Requests -/

/-- What asks for a destination: the messages of the supervisor and of a device
server, and the application of a configuration file. -/
inductive Request
  | listDevices (host : CString) (port : Int32)
  | reportStatus (host : CString) (port : Int32)
  | addNotificationEndpoint (host : CString) (port : Int32)
  | sysPort (port : Int32)
  | infoProp (prop : InfoProp) (host : Option OscString) (port : Int32)
  | config (host : OscString) (port : ℤ)

namespace Request

/-- Whatever the state is in which the request arrives, the address or endpoint
that is created is for the host and the port that are asked for. -/
def Honoured : Request → Prop
  | .listDevices host port =>
      ∀ env self, (supervisor env).Reachable self → ∀ dev dst path args,
        .loSendFrom dev dst path args ∈ listReply env self host port.toInt →
          dst.Exactly host port.toInt
  | .reportStatus host port =>
      ∀ env self, (supervisor env).Reachable self → ∀ dev dst path args,
        .loSendFrom dev dst path args ∈
            (oscReportStatus env self host port.toInt).log.drop self.log.length →
          dst.Exactly host port.toInt
  | .addNotificationEndpoint host port =>
      ∀ env self, (supervisor env).Reachable self →
        ∀ n ∈ (oscAddNotificationEndpoint self host port.toInt).notifications.drop
            self.notifications.length, n.address.Exactly host port.toInt
  | .sysPort port =>
      ∀ monome self, (system monome).Reachable self → ∀ allocated self',
        sysPortHandler port allocated self = some self' →
          allocated = false ∧ self' = self ∨
            self'.outgoing.Exactly self.outgoing.host port.toInt
  | .infoProp prop host port =>
      ∀ monome self, (system monome).Reachable self → ∀ allocated self',
        infoPropHandler monome prop host port allocated self = some self' →
          ∀ dst path args, .loSendFrom dst path args ∈ self'.log.drop self.log.length →
            dst.Exactly (host.getD self.outgoing.host) port.toInt
  | .config host port =>
      ∀ cfg : ConfigValues, cfg.host = host → cfg.port = port →
        (soscConfigRead cfg).host = host ∧ Denotes (soscConfigRead cfg).port.bytes port

/-- The host and the port of the request fit the buffers that they are put in. -/
def Fits : Request → Prop
  | .listDevices _ port | .reportStatus _ port | .sysPort port | .infoProp _ _ port =>
      FitsPort port.toInt
  | .addNotificationEndpoint host port => host.length ≤ 127 ∧ FitsPort port.toInt
  | .config _ port => FitsPort port

/-! ### The supervisor -/

theorem of_mem_listReply {env : Env} {self : SoscSupervisor} {host : CString} {n : ℤ}
    {dev : Option ℕ} {dst : LoAddress} {path : String} {args : List OscArg}
    (h : .loSendFrom dev dst path args ∈ listReply env self host n) :
    dst = ⟨host, portstr n⟩ := by
  rw [listReply, oscListDevices_spec] at h
  split_ifs at h
  · have hmem : .loSendFrom dev dst path args ∈
        self.uvWalk.flatMap (listSends self ⟨host, portstr n⟩) := by
      rwa [SoscSupervisor.emits, SoscSupervisor.tick, List.drop_left] at h
    obtain ⟨_, -, hsend⟩ := List.mem_flatMap.mp hmem
    obtain ⟨_, _, -, -, -, -, heq⟩ := mem_listSends hsend
    injection heq
  · rw [SoscSupervisor.tick, List.drop_length] at h
    exact absurd h List.not_mem_nil

theorem of_mem_statusReport {env : Env} {self : SoscSupervisor} {host : CString} {n : ℤ}
    {dev : Option ℕ} {dst : LoAddress} {path : String} {args : List OscArg}
    (h : .loSendFrom dev dst path args ∈
      (oscReportStatus env self host n).log.drop self.log.length) :
    dst = ⟨host, portstr n⟩ := by
  cases halloc : env.loAddressNew self.calls with
  | false =>
    simp [oscReportStatus, loAddressNew, halloc, SoscSupervisor.tick] at h
  | true =>
    have hone : .loSendFrom dev dst path args ∈ [Effect.loSendFrom none ⟨host, portstr n⟩
        "/serialosc/status" [.i self.state.toInt]] := by
      simpa [oscReportStatus, loAddressNew, halloc, SoscSupervisor.emit,
        SoscSupervisor.tick] using h
    injection List.mem_singleton.mp hone

/-- A supervisor with a device that has become ready. -/
theorem reachable_ready :
    ∃ self, (supervisor Env.reliable).Reachable self ∧
      ∀ host n, ∃ path args,
        .loSendFrom (some 0) ⟨host, portstr n⟩ path args ∈
          listReply Env.reliable self host n :=
  ⟨_, ⟨_, [.idle, .detectorRead (.deviceConnection sampleDevnode), .deviceRead 0 .deviceReady],
    init_reliableStart, rfl⟩, fun _ _ => ⟨_, _, List.mem_singleton.mpr rfl⟩⟩

theorem listDevices_honoured_iff (host : CString) (port : Int32) :
    (listDevices host port).Honoured ↔ FitsPort port.toInt := by
  rw [← LoAddress.exactly_iff host]
  constructor
  · intro h
    obtain ⟨self, hself, hready⟩ := reachable_ready
    obtain ⟨path, args, hsend⟩ := hready host port.toInt
    exact h _ self hself _ _ path args hsend
  · intro h env self _ dev dst path args hsend
    rwa [of_mem_listReply hsend]

theorem reportStatus_honoured_iff (host : CString) (port : Int32) :
    (reportStatus host port).Honoured ↔ FitsPort port.toInt := by
  rw [← LoAddress.exactly_iff host]
  constructor
  · intro h
    exact h Env.reliable reliableStart ⟨_, [], init_reliableStart, rfl⟩ none _
      "/serialosc/status" _ (List.mem_singleton.mpr rfl)
  · intro h env self _ dev dst path args hsend
    rwa [of_mem_statusReport hsend]

theorem length_truncate_eq_iff (s : CString) (n : ℕ) : s.truncate n = s ↔ s.length ≤ n := by
  rw [CString.ext_iff]
  exact List.take_eq_self_iff s.bytes

theorem addNotificationEndpoint_honoured_iff (host : CString) (port : Int32) :
    (addNotificationEndpoint host port).Honoured ↔ host.length ≤ 127 ∧ FitsPort port.toInt := by
  have hnew : (notificationEndpoint host port.toInt).address.Exactly host port.toInt ↔
      host.length ≤ 127 ∧ FitsPort port.toInt := by
    rw [← length_truncate_eq_iff, ← denotes_portstr_iff]
    exact ⟨fun h => ⟨h.host, h.port⟩, fun h => ⟨h.1, h.2⟩⟩
  have hadded (self : SoscSupervisor) :
      (oscAddNotificationEndpoint self host port.toInt).notifications.drop
        self.notifications.length = [notificationEndpoint host port.toInt] :=
    List.drop_left
  rw [← hnew]
  constructor
  · intro h
    refine h Env.reliable reliableStart ⟨_, [], init_reliableStart, rfl⟩ _ ?_
    rw [hadded]
    exact List.mem_singleton_self _
  · intro h env self _ n hn
    rw [hadded, List.mem_singleton] at hn
    rwa [hn]

/-! ### A device server -/

theorem reachable_serverRun (monome : Monome) (cfg : ConfigValues) :
    (system monome).Reachable (serverRun (soscConfigRead cfg)) :=
  ⟨_, [], ⟨cfg, rfl⟩, rfl⟩

/-- The port that a server has when nothing is configured. -/
theorem port_start : (serverRun (soscConfigRead .default)).outgoing.port =
    some (.ofString "8000") := rfl

theorem sysPort_honoured_iff (port : Int32) :
    (sysPort port).Honoured ↔ FitsPort port.toInt := by
  constructor
  · intro h
    obtain ⟨self', hself⟩ := sysPortHandler_some port true (serverRun (soscConfigRead .default))
    rcases h sampleMonome _ (reachable_serverRun _ .default) true self' hself with
      ⟨hfalse, -⟩ | hexact
    · exact absurd hfalse (by decide)
    · rcases sysPortHandler_spec hself with ⟨hfalse, -⟩ | ⟨-, hsends⟩
      · exact absurd hfalse (by decide)
      · rw [hsends.outgoing] at hexact
        exact (OscAddress.exactly_iff _ _).mp hexact
  · intro h monome self _ allocated self' hself
    rcases sysPortHandler_spec hself with ⟨hnone, hsame⟩ | ⟨-, hsends⟩
    · exact .inl ⟨hnone, hsame⟩
    · rw [hsends.outgoing]
      exact .inr ((OscAddress.exactly_iff _ _).mpr h)

theorem infoProp_honoured_iff (prop : InfoProp) (host : Option OscString) (port : Int32) :
    (infoProp prop host port).Honoured ↔ FitsPort port.toInt := by
  constructor
  · intro h
    obtain ⟨self', hself, hlt⟩ := infoReply_some sampleMonome port_start prop
      ⟨host.getD (serverRun (soscConfigRead .default)).outgoing.host, some (Device.portstr port)⟩
    have hhandler : infoPropHandler sampleMonome prop host port true
        (serverRun (soscConfigRead .default)) = some self' := hself
    obtain ⟨dst, path, args, rfl, hsend⟩ :=
      (infoPropHandler_spec hhandler).exists_of_length_lt hlt
    exact (OscAddress.exactly_iff _ _).mp
      (h sampleMonome _ (reachable_serverRun _ .default) true self' hhandler _ path args hsend)
  · intro h monome self _ allocated self' hself dst path args hsend
    obtain ⟨sent, hlog, hsent⟩ := (infoPropHandler_spec hself).log
    rw [hlog, List.drop_left] at hsend
    obtain ⟨_, _, _, rfl, heq⟩ := hsent _ hsend
    injection heq with hdst
    rw [hdst]
    exact (OscAddress.exactly_iff _ _).mpr h

theorem config_honoured_iff (host : OscString) (port : ℤ) :
    (config host port).Honoured ↔ FitsPort port := by
  rw [← denotes_soscPortItos_iff]
  constructor
  · intro h
    exact (h ⟨0, host, host, port, 0⟩ rfl rfl).2
  · rintro h cfg rfl rfl
    exact ⟨rfl, h⟩

/-- A request is honoured if and only if it fits: the port has at most five
characters, and the host of a notification endpoint at most 127. -/
theorem honoured_iff (r : Request) : r.Honoured ↔ r.Fits := by
  cases r with
  | listDevices host port => exact listDevices_honoured_iff host port
  | reportStatus host port => exact reportStatus_honoured_iff host port
  | addNotificationEndpoint host port => exact addNotificationEndpoint_honoured_iff host port
  | sysPort port => exact sysPort_honoured_iff port
  | infoProp prop host port => exact infoProp_honoured_iff prop host port
  | config host port => exact config_honoured_iff host port

end Request

/-- A status report for port 100000 is sent to port 10000. -/
theorem not_honoured : ¬ ∀ r : Request, r.Honoured := by
  intro h
  have hexact := h (.reportStatus default 100000) Env.reliable reliableStart
    ⟨_, [], init_reliableStart, rfl⟩ none _ "/serialosc/status" _ (List.mem_singleton.mpr rfl)
  exact absurd ((denotes_portstr_iff _).mp hexact.port) (by decide)

end Serialosc
