import Serialosc.Support.ByteMemory
import Serialosc.Support.Numeral
import Serialosc.Support.Runs

/-!
# The Linux detector

The detector lists the devices that are present, then sets up a monitor and
waits for devices to be added.  `Detector` is the program together with the
devices that are plugged in and out around it; devices are numbered in the
order in which they are plugged in, and keep their number.  A device that is
plugged in again is a new one.

libudev is taken to list exactly the devices that are present, and the monitor
to deliver, in order, exactly the events after it has been told to receive.
-/

namespace Serialosc

open ByteMemory

/-! ## Devices -/

/-- An ancestor of a device: its subsystem and its driver, either of which may
be `NULL`. -/
structure UdevParent where
  subsystem : Option CString
  driver : Option CString
  deriving DecidableEq

/-- A `struct udev_device`.  `parents` starts with the immediate parent.  The
kernel gives every tty a device node. -/
structure UdevDevice where
  subsystem : CString
  parents : List UdevParent
  properties : List (String × CString)
  devnode : Option CString
  node_of_tty : subsystem = .ofString "tty" → devnode ≠ none

namespace UdevDevice

/-- `udev_device_get_property_value`. -/
def getPropertyValue (ud : UdevDevice) (key : String) : Option CString :=
  ud.properties.lookup key

/-- `has_usb_serial_parent`. -/
def hasUsbSerialParent (ud : UdevDevice) : Bool :=
  ud.parents.any fun parent => parent.subsystem = some (.ofString "usb-serial")

/-- `test_cdc_driver`, of a parent that may be missing. -/
def testCdcDriver (parent : Option UdevParent) : Bool :=
  match parent.bind UdevParent.driver with
  | none => false
  | some driver => driver.bytes.take 3 = (CString.ofString "cdc").bytes

/-- `test_monome_props`. -/
def testMonomeProps (ud : UdevDevice) : Bool :=
  match ud.getPropertyValue "ID_VENDOR", ud.getPropertyValue "ID_MODEL" with
  | some vendor, some model => vendor = .ofString "monome" ∧ model = .ofString "grid"
  | _, _ => false

/-- `EOF`. -/
def eof : ℤ := -1

/-- `sscanf` with the format `"m%d"`: the number of conversions, or `EOF` if the
string ends before the first one. -/
def sscanfSerial (serial : CString) : ℤ :=
  match serial.bytes with
  | [] => eof
  | c :: rest =>
      if c ≠ 0x6d then 0
      else
        let number := rest.dropWhile Numeral.isSpace
        if number = [] then eof
        else if Numeral.digits 10 (Numeral.readSign number).2 = [] then 0
        else 1

/-- `test_monome_serial`. -/
def testMonomeSerial (ud : UdevDevice) : Bool :=
  match ud.getPropertyValue "ID_SERIAL_SHORT" with
  | none => false
  | some serial => sscanfSerial serial ≠ 0

/-- `has_usb_cdc_parent`. -/
def hasUsbCdcParent (ud : UdevDevice) : Bool := testCdcDriver ud.parents.head?

/-- `is_device_compatible`. -/
def isDeviceCompatible (ud : UdevDevice) : Bool :=
  if ud.hasUsbSerialParent then true
  else if !ud.hasUsbCdcParent then false
  else if ud.testMonomeProps then true
  else if ud.testMonomeSerial then true
  else false

/-- The device is a tty, which both the scan and the monitor ask for. -/
def IsTty (ud : UdevDevice) : Prop := ud.subsystem = .ofString "tty"

instance (ud : UdevDevice) : Decidable ud.IsTty := inferInstanceAs (Decidable (_ = _))

end UdevDevice

/-! ## The program -/

/-- What happens to a device, as `udev_device_get_action` names it. -/
inductive UdevAction
  | add
  | remove
  deriving DecidableEq, Repr

/-- What `udev_device_get_action` returns. -/
def UdevAction.name : UdevAction → String
  | .add => "add"
  | .remove => "remove"

/-- An event of the monitor, about the device with this number. -/
structure UdevEvent where
  action : UdevAction
  device : ℕ
  deriving DecidableEq

/-- How far `main` has come.  Once the monitor receives, it holds the events that
`udev_monitor_receive_device` has not returned yet. -/
inductive DetectorPhase
  | start
  | scanned
  | created
  | filtered
  | receiving (queue : List UdevEvent)
  | exited (status : ℕ)
  deriving DecidableEq

/-- A device, and whether it is still plugged in. -/
structure DeviceSlot where
  ud : UdevDevice
  present : Bool

/-- The detector and the devices around it.  `log` holds the calls of
`send_connect`, each with the number of the device it is about. -/
structure Detector where
  phase : DetectorPhase
  devices : List DeviceSlot
  log : List (ℕ × Option CString)

/-- libudev: whether its calls succeed, and the order in which it lists devices. -/
structure UdevEnv where
  enumerateNew : Bool
  monitorNew : Bool
  order : List ℕ → List ℕ
  perm : ∀ l, (order l).Perm l

namespace Detector

/-- `send_connect`. -/
def sendConnect (self : Detector) (i : ℕ) (devnode : Option CString) : Detector :=
  { self with log := self.log ++ [(i, devnode)] }

/-- The numbers of the ttys that are plugged in. -/
def presentTtys (self : Detector) : List ℕ :=
  (List.range self.devices.length).filter fun i =>
    (self.devices[i]?).any fun slot => slot.present ∧ slot.ud.IsTty

/-- The body of the loop in `scan_connected_devices`. -/
def scanDevice (self : Detector) (i : ℕ) : Detector :=
  match self.devices[i]? with
  | none => self
  | some slot =>
      if slot.ud.isDeviceCompatible ∧ slot.ud.devnode ≠ none then
        self.sendConnect i slot.ud.devnode
      else self

/-- `scan_connected_devices`.  When nothing is listed the source runs its loop
once, on a `NULL` device, which is not compatible. -/
def scanConnectedDevices (env : UdevEnv) (self : Detector) : Detector :=
  (env.order self.presentTtys).foldl scanDevice self

/-- The body of the loop in `monitor_attach`, with the event that was received. -/
def monitorReceive (self : Detector) (e : UdevEvent) : Detector :=
  match self.devices[e.device]? with
  | none => self
  | some slot =>
      if e.action.name.front = 'a' ∧ slot.ud.isDeviceCompatible then
        self.sendConnect e.device slot.ud.devnode
      else self

/-- One step of `main`.  While the monitor has no event, `poll` can only be
interrupted. -/
def mainStep (env : UdevEnv) (self : Detector) : Detector :=
  match self.phase with
  | .start =>
      if env.enumerateNew then { scanConnectedDevices env self with phase := .scanned }
      else { self with phase := .exited 1 }
  | .scanned =>
      if env.monitorNew then { self with phase := .created }
      else { self with phase := .exited 2 }
  | .created => { self with phase := .filtered }
  | .filtered => { self with phase := .receiving [] }
  | .receiving [] => self
  | .receiving (e :: queue) => { monitorReceive self e with phase := .receiving queue }
  | .exited _ => self

/-- The kernel reports an event about a device.  The monitor is filtered for ttys
by the time it receives. -/
def deliver (self : Detector) (ud : UdevDevice) (e : UdevEvent) : Detector :=
  match self.phase with
  | .receiving queue =>
      if ud.IsTty then { self with phase := .receiving (queue ++ [e]) } else self
  | .start | .scanned | .created | .filtered | .exited _ => self

/-- A device is plugged in. -/
def plug (self : Detector) (ud : UdevDevice) : Detector :=
  let plugged : Detector := { self with devices := self.devices ++ [⟨ud, true⟩] }
  plugged.deliver ud ⟨.add, self.devices.length⟩

/-- The device with this number is unplugged. -/
def unplug (self : Detector) (i : ℕ) : Option Detector :=
  match self.devices[i]? with
  | none => none
  | some slot =>
      if slot.present then
        let unplugged : Detector :=
          { self with devices := self.devices.set i { slot with present := false } }
        some (unplugged.deliver slot.ud ⟨.remove, i⟩)
      else none

end Detector

/-- What can happen next. -/
inductive DetectorEvent
  | plug (ud : UdevDevice)
  | unplug (i : ℕ)
  | main

/-- The event is a step of the program. -/
def DetectorEvent.isMain : DetectorEvent → Bool
  | .main => true
  | .plug _ | .unplug _ => false

/-- The detector, started while any devices are plugged in. -/
def detector (env : UdevEnv) : Runs.EventSystem Detector DetectorEvent where
  init self := self.phase = .start ∧ self.log = []
  step self
    | .plug ud => some (self.plug ud)
    | .unplug i => self.unplug i
    | .main => some (self.mainStep env)

end Serialosc
