import Serialosc.Detector.Libudev

/-!
# The devices that the Linux detector accepts

`is_device_compatible` takes what `sscanf` returns for a truth value, and `EOF`
is one.  So besides the serials with an integer behind the `m` it accepts those
that end where the integer should begin; `isDeviceCompatible_intended_iff` says
that these are the only devices it is wrong about.
-/

namespace Serialosc

open ByteMemory

namespace UdevDevice

/-! ## The intended devices -/

/-- Some ancestor is of the subsystem `usb-serial`. -/
def HasUsbSerialAncestor (ud : UdevDevice) : Prop :=
  ∃ parent ∈ ud.parents, parent.subsystem = some (.ofString "usb-serial")

/-- The name of the immediate parent's driver begins with `cdc`. -/
def HasCdcParent (ud : UdevDevice) : Prop :=
  ∃ parent driver, ud.parents.head? = some parent ∧ parent.driver = some driver ∧
    (CString.ofString "cdc").bytes <+: driver.bytes

/-- The vendor is `monome` and the model is `grid`. -/
def IsMonomeGrid (ud : UdevDevice) : Prop :=
  ud.getPropertyValue "ID_VENDOR" = some (.ofString "monome") ∧
    ud.getPropertyValue "ID_MODEL" = some (.ofString "grid")

/-- The serial is an `m` with an integer after it. -/
def HasMextSerial (ud : UdevDevice) : Prop :=
  ∃ serial rest, ud.getPropertyValue "ID_SERIAL_SHORT" = some serial ∧
    serial.bytes = 0x6d :: rest ∧ Numeral.BeginsWithInt rest

/-- What `is_device_compatible` is for: converters, and grids and their clones
behind a `cdc` driver. -/
def Intended (ud : UdevDevice) : Prop :=
  ud.HasUsbSerialAncestor ∨ ud.HasCdcParent ∧ (ud.IsMonomeGrid ∨ ud.HasMextSerial)

/-- The serial ends before the integer could begin: it is empty, or an `m` with
nothing but white space after it. -/
def HasCutSerial (ud : UdevDevice) : Prop :=
  ∃ serial, ud.getPropertyValue "ID_SERIAL_SHORT" = some serial ∧
    (serial.bytes = [] ∨
      ∃ blanks, serial.bytes = 0x6d :: blanks ∧ ∀ b ∈ blanks, Numeral.isSpace b = true)

/-- The device is accepted for its serial alone, which ends too early. -/
def SlipsThrough (ud : UdevDevice) : Prop :=
  ¬ ud.HasUsbSerialAncestor ∧ ud.HasCdcParent ∧ ¬ ud.IsMonomeGrid ∧ ud.HasCutSerial

variable (ud : UdevDevice)

/-! ## The predicates of the source -/

theorem hasUsbSerialParent_iff : ud.hasUsbSerialParent = true ↔ ud.HasUsbSerialAncestor := by
  simp [hasUsbSerialParent, HasUsbSerialAncestor]

theorem hasUsbCdcParent_iff : ud.hasUsbCdcParent = true ↔ ud.HasCdcParent := by
  have hcdc (driver : CString) : driver.bytes.take 3 = (CString.ofString "cdc").bytes ↔
      (CString.ofString "cdc").bytes <+: driver.bytes := by
    rw [List.prefix_iff_eq_take, eq_comm]
    rfl
  rw [hasUsbCdcParent, testCdcDriver, HasCdcParent]
  cases hhead : ud.parents.head? with
  | none => simp
  | some parent =>
    cases hdriver : parent.driver with
    | none => simp [hdriver]
    | some driver => simp [hdriver, hcdc]

theorem testMonomeProps_iff : ud.testMonomeProps = true ↔ ud.IsMonomeGrid := by
  rw [testMonomeProps, IsMonomeGrid]
  cases ud.getPropertyValue "ID_VENDOR" with
  | none => simp
  | some vendor =>
    cases ud.getPropertyValue "ID_MODEL" with
    | none => simp
    | some model => simp

theorem sscanfSerial_ne_zero_iff (serial : CString) : sscanfSerial serial ≠ 0 ↔
    (∃ rest, serial.bytes = 0x6d :: rest ∧ Numeral.BeginsWithInt rest) ∨
      serial.bytes = [] ∨
      ∃ blanks, serial.bytes = 0x6d :: blanks ∧ ∀ b ∈ blanks, Numeral.isSpace b = true := by
  rw [sscanfSerial]
  cases serial.bytes with
  | nil => simp [eof]
  | cons c rest =>
    by_cases hc : c = 0x6d
    · subst hc
      have hblank : rest.dropWhile Numeral.isSpace = [] ↔
          ∀ b ∈ rest, Numeral.isSpace b = true := List.dropWhile_eq_nil_iff
      simp only [ne_eq, not_true_eq_false, if_false, List.cons.injEq, true_and, exists_eq_left',
        List.cons_ne_nil, false_or, ← hblank, Numeral.beginsWithInt_iff]
      split_ifs with hnil hdigits
      · simp [eof, hnil]
      · simp [hnil, hdigits]
      · simp [hdigits]
    · simp [hc]

theorem testMonomeSerial_iff :
    ud.testMonomeSerial = true ↔ ud.HasMextSerial ∨ ud.HasCutSerial := by
  rw [testMonomeSerial, HasMextSerial, HasCutSerial]
  cases ud.getPropertyValue "ID_SERIAL_SHORT" with
  | none => simp
  | some serial => simpa using sscanfSerial_ne_zero_iff serial

/-- What `is_device_compatible` accepts. -/
theorem isDeviceCompatible_iff : ud.isDeviceCompatible = true ↔
    ud.HasUsbSerialAncestor ∨
      ud.HasCdcParent ∧ (ud.IsMonomeGrid ∨ ud.HasMextSerial ∨ ud.HasCutSerial) := by
  rw [← hasUsbSerialParent_iff, ← hasUsbCdcParent_iff, ← testMonomeProps_iff,
    ← testMonomeSerial_iff, isDeviceCompatible]
  cases ud.hasUsbSerialParent <;> cases ud.hasUsbCdcParent <;> cases ud.testMonomeProps <;>
    cases ud.testMonomeSerial <;> decide

theorem not_hasCutSerial {ud : UdevDevice} (h : ud.HasMextSerial) : ¬ ud.HasCutSerial := by
  obtain ⟨serial, rest, hserial, hbytes, hint⟩ := h
  rintro ⟨serial', hserial', hcut⟩
  obtain rfl : serial = serial' := Option.some.inj (hserial.symm.trans hserial')
  rcases hcut with hnil | ⟨blanks, hblanks, hall⟩
  · cases hbytes.symm.trans hnil
  · obtain ⟨-, rfl⟩ := List.cons.inj (hbytes.symm.trans hblanks)
    rw [Numeral.beginsWithInt_iff, List.dropWhile_eq_nil_iff.mpr hall] at hint
    exact hint rfl

/-- The detector accepts a device exactly if it is intended, unless the device is
behind a `cdc` driver and has nothing but a serial that ends too early. -/
theorem isDeviceCompatible_intended_iff :
    (ud.isDeviceCompatible = true ↔ ud.Intended) ↔ ¬ ud.SlipsThrough := by
  rw [isDeviceCompatible_iff, Intended, SlipsThrough]
  constructor
  · rintro h ⟨hconverter, hcdc, hgrid, hcut⟩
    rcases h.mp (.inr ⟨hcdc, .inr (.inr hcut)⟩) with hanc | ⟨-, hgrid' | hmext⟩
    · exact hconverter hanc
    · exact hgrid hgrid'
    · exact not_hasCutSerial hmext hcut
  · intro hslips
    constructor
    · rintro (hanc | ⟨hcdc, hgrid | hmext | hcut⟩)
      · exact .inl hanc
      · exact .inr ⟨hcdc, .inl hgrid⟩
      · exact .inr ⟨hcdc, .inr hmext⟩
      · by_contra hintended
        obtain ⟨hconverter, hother⟩ := not_or.mp hintended
        exact hslips ⟨hconverter, hcdc, fun hgrid => hother ⟨hcdc, .inl hgrid⟩, hcut⟩
    · rintro (hanc | ⟨hcdc, hgrid | hmext⟩)
      · exact .inl hanc
      · exact .inr ⟨hcdc, .inl hgrid⟩
      · exact .inr ⟨hcdc, .inr (.inl hmext)⟩

/-! ## A device that slips through -/

/-- A modem whose serial is a single `m`. -/
def sampleModem : UdevDevice where
  subsystem := .ofString "tty"
  parents := [⟨some (.ofString "usb"), some (.ofString "cdc_acm")⟩]
  properties := [("ID_VENDOR", .ofString "other"), ("ID_SERIAL_SHORT", .ofString "m")]
  devnode := some (.ofString "/dev/ttyACM0")
  node_of_tty _ := nofun

/-- A modem with the serial `m` is taken for a device. -/
theorem not_isDeviceCompatible_intended :
    ¬ ∀ ud : UdevDevice, ud.IsTty → (ud.isDeviceCompatible = true ↔ ud.Intended) := by
  intro h
  refine (isDeviceCompatible_intended_iff sampleModem).mp (h sampleModem rfl) ?_
  refine ⟨?_, ?_, ?_, ?_⟩
  · rw [← hasUsbSerialParent_iff]
    decide
  · rw [← hasUsbCdcParent_iff]
    decide
  · rw [← testMonomeProps_iff]
    decide
  · exact ⟨.ofString "m", rfl, .inr ⟨[], rfl, nofun⟩⟩

end UdevDevice

end Serialosc
