import Serialosc.Ipc.Pipe

/-!
# The macOS detector

`iterate_devices` is called at the start and for each notification, with an
iterator over serial services.  It asks for every dial-in path with one buffer
and one length, and the length is both the room it offers and the size it gets
back.  So the room shrinks to the shortest path so far, and a service whose
path is longer is reported under the path that is still in the buffer.
-/

namespace Serialosc.Iokitlib

open ByteMemory

/-! ## The registry -/

/-- An entry of the service plane, with the classes it conforms to. -/
structure IoRegistryEntry where
  classes : List String
  deriving DecidableEq

/-- `IOObjectConformsTo`. -/
def IoRegistryEntry.conformsTo (entry : IoRegistryEntry) (className : String) : Bool :=
  className ∈ entry.classes

/-- `kIOUSBDeviceClassName`. -/
def kIOUSBDeviceClassName : String := "IOUSBDevice"

/-- The room that `iterate_devices` says it has. -/
def devnodeRoom : ℕ := 256

/-- An `io_service_t` with its ancestors, the parent first, and its property
`kIODialinDeviceKey`, which fits in the room with its NUL. -/
structure IoService where
  dialinDevice : CString
  ancestors : List IoRegistryEntry
  fits : dialinDevice.length + 1 ≤ devnodeRoom

namespace IoService

/-- The property as it is copied out, with its NUL. -/
def property (device : IoService) : List UInt8 := device.dialinDevice.bytes ++ [0]

@[simp] theorem length_property (device : IoService) :
    device.property.length = device.dialinDevice.length + 1 := by
  simp [property]

/-- Some ancestor is an `IOUSBDevice`. -/
def HasUsbAncestor (device : IoService) : Prop :=
  ∃ entry ∈ device.ancestors, kIOUSBDeviceClassName ∈ entry.classes

instance (device : IoService) : Decidable device.HasUsbAncestor :=
  inferInstanceAs (Decidable (∃ entry ∈ device.ancestors, _))

end IoService

/-- An `io_struct_inband_t`. -/
structure IoStructInband where
  bytes : List UInt8
  length_bytes : bytes.length = 4096

namespace IoStructInband

/-- The string in the buffer. -/
def string (devnode : IoStructInband) : CString := CString.ofBytes devnode.bytes

/-- The property of `device` is copied over the start of the buffer. -/
def fill (devnode : IoStructInband) (device : IoService) : IoStructInband where
  bytes := device.property ++ devnode.bytes.drop device.property.length
  length_bytes := by
    have hfits := device.fits
    have hsize := devnode.length_bytes
    rw [devnodeRoom] at hfits
    rw [List.length_append, List.length_drop, device.length_property]
    omega

@[simp] theorem string_fill (devnode : IoStructInband) (device : IoService) :
    (devnode.fill device).string = device.dialinDevice := by
  apply CString.ext
  have hlen : (devnode.fill device).bytes.length < 2 ^ 63 := by
    rw [(devnode.fill device).length_bytes]
    decide
  rw [string, bytes_ofBytes hlen, fill]
  change List.takeWhile _ (device.dialinDevice.bytes ++ [0] ++ _) = _
  rw [List.append_assoc, List.takeWhile_append_of_pos]
  · simp
  · intro b hb
    exact decide_eq_true fun hzero => device.dialinDevice.nulFree (hzero ▸ hb)

end IoStructInband

/-! ## The program -/

/-- `IORegistryEntryGetProperty` with `kIODialinDeviceKey`, of a buffer and the
room in it.  Without enough room the call fails and changes neither; the caller
does not look. -/
def ioRegistryEntryGetProperty (device : IoService) (devnode : IoStructInband) (len : ℕ) :
    IoStructInband × ℕ :=
  if device.property.length ≤ len then (devnode.fill device, device.property.length)
  else (devnode, len)

/-- `wait_on_parent_usbdevice`, which walks up the ancestors. -/
def waitOnParentUsbdevice : List IoRegistryEntry → ℤ
  | [] => 1
  | parent :: ancestors =>
      if parent.conformsTo kIOUSBDeviceClassName then 0 else waitOnParentUsbdevice ancestors

/-- What a call of `send_connect` meets: the memory, where the local buffer of
`sosc_ipc_msg_write` lies in it, where the string lies, and what `write` does. -/
structure CallSite where
  mem : Mem
  buf : Addr
  devnode : Addr
  outcome : WriteOutcome

/-- `send_connect`.  Its caller does not look at what comes of the message. -/
def sendConnect (site : CallSite) (devnode : CString) : MsgWrite :=
  soscIpcMsgWrite (fun _ => devnode) site.mem site.buf site.outcome
    { connectionMsg with word0 := site.devnode }

/-- The loop of `iterate_devices` over the services that the iterator still has:
the strings that `send_connect` is called with, where `sites i` is what the `i`-th
call meets. -/
def iterateDevicesLoop (devnode : IoStructInband) (len : ℕ) (sites : ℕ → CallSite) :
    List IoService → List CString
  | [] => []
  | device :: iter =>
      let (devnode, len) := ioRegistryEntryGetProperty device devnode len
      if waitOnParentUsbdevice device.ancestors = 0 then
        devnode.string ::
          match (sendConnect (sites 0) devnode.string).ret with
          | none => []
          | some _ => iterateDevicesLoop devnode len (fun i => sites (i + 1)) iter
      else iterateDevicesLoop devnode len sites iter

/-- `iterate_devices`.  The buffer is not initialised. -/
def iterateDevices (devnode : IoStructInband) (sites : ℕ → CallSite) (iter : List IoService) :
    List CString :=
  iterateDevicesLoop devnode devnodeRoom sites iter

/-! ## The steps of the loop -/

theorem waitOnParentUsbdevice_eq_zero_iff {device : IoService} :
    waitOnParentUsbdevice device.ancestors = 0 ↔ device.HasUsbAncestor := by
  rw [IoService.HasUsbAncestor]
  generalize device.ancestors = ancestors
  induction ancestors with
  | nil => simp [waitOnParentUsbdevice]
  | cons parent ancestors ih =>
    rw [waitOnParentUsbdevice]
    by_cases hparent : kIOUSBDeviceClassName ∈ parent.classes
    · simp [IoRegistryEntry.conformsTo, hparent]
    · simp [IoRegistryEntry.conformsTo, hparent, ih]

/-- The buffer holds the path whose size is the room that is left, unless no
path has been read. -/
def Holds (devnode : IoStructInband) (len : ℕ) : Prop :=
  len = devnodeRoom ∨ devnode.string.length + 1 = len

variable {devnode : IoStructInband} {len : ℕ} {sites : ℕ → CallSite} {device : IoService}
  {iter : List IoService}

/-- The paths that a report does not return from, as the encoder overruns its buffer. -/
def Overlong (path : CString) : Prop := 215 ≤ path.length ∧ path.length ≤ 248

instance (path : CString) : Decidable (Overlong path) := inferInstanceAs (Decidable (_ ∧ _))

theorem sendConnect_ret_eq_none_iff (site : CallSite) (path : CString) :
    (sendConnect site path).ret = none ↔ Overlong path := by
  have hcontents : SoscIpcMsg.contents (fun _ => path)
      { connectionMsg with word0 := site.devnode } = some (.deviceConnection path) := rfl
  have hspec := soscIpcMsgWrite_spec hcontents site.mem site.buf site.outcome
  rw [sendConnect, Overlong, ← overruns_deviceConnection_iff]
  generalize soscIpcMsgWrite _ _ _ _ _ = w at hspec ⊢
  cases hspec with
  | whole hfit hroom =>
    exact iff_of_false (Option.some_ne_none _) (not_overruns_of_fits hfit)
  | cut hfit hroom =>
    exact iff_of_false (Option.some_ne_none _) (not_overruns_of_fits hfit)
  | refused hroom hbig =>
    exact iff_of_false (Option.some_ne_none _) fun h => (overruns_iff _).mp h hroom
  | overrun hover => exact iff_of_true rfl ((overruns_iff _).mpr hover)

/-- The room never grows. -/
theorem ioRegistryEntryGetProperty_len :
    (ioRegistryEntryGetProperty device devnode len).2 =
      min len (device.dialinDevice.length + 1) := by
  rw [ioRegistryEntryGetProperty, device.length_property]
  split <;> omega

theorem holds_ioRegistryEntryGetProperty (device : IoService) (hholds : Holds devnode len) :
    Holds (ioRegistryEntryGetProperty device devnode len).1
      (ioRegistryEntryGetProperty device devnode len).2 := by
  rw [ioRegistryEntryGetProperty]
  split
  · exact Or.inr (by rw [IoStructInband.string_fill, device.length_property])
  · exact hholds

/-- The buffer holds the path of the service just asked exactly if there was
room for it: otherwise it holds a shorter one. -/
theorem string_ioRegistryEntryGetProperty_iff (device : IoService) (hholds : Holds devnode len) :
    (ioRegistryEntryGetProperty device devnode len).1.string = device.dialinDevice ↔
      device.dialinDevice.length + 1 ≤ len := by
  rw [ioRegistryEntryGetProperty, device.length_property]
  by_cases hroom : device.dialinDevice.length + 1 ≤ len
  · simp [hroom]
  · rw [if_neg hroom]
    refine iff_of_false ?_ hroom
    intro hstring
    rcases hholds with hfresh | hlen
    · exact hroom (hfresh ▸ device.fits)
    · exact hroom (by rw [← hlen, hstring])

/-! ## Whole iterations -/

/-- The reports that the services call for: each that has an `IOUSBDevice`
ancestor, under its own path. -/
def ownReports (iter : List IoService) : List CString :=
  (iter.filter (·.HasUsbAncestor)).map (·.dialinDevice)

/-- No service whose report does not return is followed by one to report. -/
def OverlongLast (iter : List IoService) : Prop :=
  iter.Pairwise fun before device =>
    before.HasUsbAncestor → device.HasUsbAncestor → ¬ Overlong before.dialinDevice

/-- No service to report has a longer path than one before it. -/
def NeverLonger (iter : List IoService) : Prop :=
  iter.Pairwise fun before device =>
    device.HasUsbAncestor → device.dialinDevice.length ≤ before.dialinDevice.length

theorem iterateDevicesLoop_usb (husb : device.HasUsbAncestor) :
    iterateDevicesLoop devnode len sites (device :: iter) =
      (ioRegistryEntryGetProperty device devnode len).1.string ::
        if Overlong (ioRegistryEntryGetProperty device devnode len).1.string then []
        else iterateDevicesLoop (ioRegistryEntryGetProperty device devnode len).1
          (ioRegistryEntryGetProperty device devnode len).2 (fun i => sites (i + 1)) iter := by
  have hret := sendConnect_ret_eq_none_iff (sites 0)
    (ioRegistryEntryGetProperty device devnode len).1.string
  rw [iterateDevicesLoop]
  dsimp only
  rw [if_pos (waitOnParentUsbdevice_eq_zero_iff.mpr husb)]
  congr 1
  cases hsend : (sendConnect (sites 0)
      (ioRegistryEntryGetProperty device devnode len).1.string).ret with
  | none => rw [if_pos (hret.mp hsend)]
  | some ret => rw [if_neg fun h => by rw [hret.mpr h] at hsend; cases hsend]

theorem iterateDevicesLoop_other (husb : ¬ device.HasUsbAncestor) :
    iterateDevicesLoop devnode len sites (device :: iter) =
      iterateDevicesLoop (ioRegistryEntryGetProperty device devnode len).1
        (ioRegistryEntryGetProperty device devnode len).2 sites iter := by
  rw [iterateDevicesLoop]
  exact if_neg (mt waitOnParentUsbdevice_eq_zero_iff.mp husb)

theorem ownReports_usb (husb : device.HasUsbAncestor) :
    ownReports (device :: iter) = device.dialinDevice :: ownReports iter := by
  simp [ownReports, husb]

theorem ownReports_other (husb : ¬ device.HasUsbAncestor) :
    ownReports (device :: iter) = ownReports iter := by
  simp [ownReports, husb]

/-- The buffer holds a path in `paths` as soon as a service with one has been asked. -/
theorem string_mem_ioRegistryEntryGetProperty {paths : Set CString}
    (hheld : len = devnodeRoom ∨ devnode.string ∈ paths) (hown : device.dialinDevice ∈ paths) :
    (ioRegistryEntryGetProperty device devnode len).1.string ∈ paths := by
  rw [ioRegistryEntryGetProperty, device.length_property]
  by_cases hroom : device.dialinDevice.length + 1 ≤ len
  · rw [if_pos hroom, IoStructInband.string_fill]
    exact hown
  · rw [if_neg hroom]
    rcases hheld with hfresh | hold
    · exact absurd (hfresh ▸ device.fits) hroom
    · exact hold

theorem mem_iterateDevicesLoop (paths : Set CString)
    (hheld : len = devnodeRoom ∨ devnode.string ∈ paths)
    (hiter : ∀ device ∈ iter, device.dialinDevice ∈ paths) :
    ∀ report ∈ iterateDevicesLoop devnode len sites iter, report ∈ paths := by
  induction iter generalizing devnode len sites with
  | nil => exact List.forall_mem_nil _
  | cons device iter ih =>
    rw [List.forall_mem_cons] at hiter
    have hstring := string_mem_ioRegistryEntryGetProperty hheld hiter.1
    have hrest (sites : ℕ → CallSite) :
        ∀ report ∈ iterateDevicesLoop (ioRegistryEntryGetProperty device devnode len).1
          (ioRegistryEntryGetProperty device devnode len).2 sites iter, report ∈ paths :=
      ih (Or.inr hstring) hiter.2
    by_cases husb : device.HasUsbAncestor
    · rw [iterateDevicesLoop_usb husb, List.forall_mem_cons]
      refine ⟨hstring, ?_⟩
      split
      · exact List.forall_mem_nil _
      · exact hrest _
    · rw [iterateDevicesLoop_other husb]
      exact hrest _

/-- What the buffer holds at the start is never reported: each report is the path of
some service. -/
theorem mem_iterateDevices {devnode : IoStructInband} {report : CString}
    (hreport : report ∈ iterateDevices devnode sites iter) :
    ∃ device ∈ iter, device.dialinDevice = report :=
  mem_iterateDevicesLoop {path | ∃ device ∈ iter, device.dialinDevice = path} (Or.inl rfl)
    (fun device hmem => ⟨device, hmem, rfl⟩) report hreport

/-- Every service to report fits in the room `len`. -/
def FitsIn (len : ℕ) (iter : List IoService) : Prop :=
  ∀ device ∈ iter, device.HasUsbAncestor → device.dialinDevice.length + 1 ≤ len

theorem neverLonger_cons :
    NeverLonger (device :: iter) ↔
      FitsIn (device.dialinDevice.length + 1) iter ∧ NeverLonger iter := by
  rw [NeverLonger, List.pairwise_cons]
  simp only [FitsIn, Nat.add_le_add_iff_right]
  rfl

theorem fitsIn_cons :
    FitsIn len (device :: iter) ↔
      (device.HasUsbAncestor → device.dialinDevice.length + 1 ≤ len) ∧ FitsIn len iter := by
  simp [FitsIn]

theorem fitsIn_min {other : ℕ} :
    FitsIn (min len other) iter ↔ FitsIn len iter ∧ FitsIn other iter := by
  simp only [FitsIn, le_min_iff]
  constructor
  · intro hfits
    exact ⟨fun device hmem husb => (hfits device hmem husb).1,
      fun device hmem husb => (hfits device hmem husb).2⟩
  · rintro ⟨hlen, hother⟩ device hmem husb
    exact ⟨hlen device hmem husb, hother device hmem husb⟩

theorem overlongLast_cons :
    OverlongLast (device :: iter) ↔
      (device.HasUsbAncestor → Overlong device.dialinDevice → ownReports iter = []) ∧
        OverlongLast iter := by
  have hnone : ownReports iter = [] ↔ ∀ other ∈ iter, ¬ other.HasUsbAncestor := by
    rw [ownReports, List.map_eq_nil_iff, List.filter_eq_nil_iff]
    simp only [decide_eq_true_eq]
  rw [OverlongLast, List.pairwise_cons, hnone]
  refine and_congr_left fun _ => ?_
  constructor
  · intro hlast husb hlong other hmem hother
    exact hlast other hmem husb hother hlong
  · intro hlast other hmem husb hother hlong
    exact hlast husb hlong other hmem hother

/-- Where nothing is left to report, nothing can go wrong. -/
theorem fitsIn_of_nothing (len : ℕ) (hnone : ownReports iter = []) :
    FitsIn len iter ∧ NeverLonger iter ∧ OverlongLast iter := by
  have hother : ∀ device ∈ iter, ¬ device.HasUsbAncestor := by
    rw [ownReports, List.map_eq_nil_iff, List.filter_eq_nil_iff] at hnone
    simpa only [decide_eq_true_eq] using hnone
  refine ⟨fun device hmem husb => absurd husb (hother device hmem), ?_, ?_⟩
  · exact List.pairwise_of_forall_mem_list fun _ _ device hmem husb =>
      absurd husb (hother device hmem)
  · exact List.pairwise_of_forall_mem_list fun before hmem _ _ husb =>
      absurd husb (hother before hmem)

/-- The room that is left sums up the services gone by: the other reports are
right exactly if their paths fit in it and are never longer than one before, and
the iteration goes on to the last of them. -/
theorem iterateDevicesLoop_eq_ownReports_iff (hholds : Holds devnode len) :
    iterateDevicesLoop devnode len sites iter = ownReports iter ↔
      FitsIn len iter ∧ NeverLonger iter ∧ OverlongLast iter := by
  induction iter generalizing devnode len sites with
  | nil => simp [iterateDevicesLoop, ownReports, FitsIn, NeverLonger, OverlongLast]
  | cons device iter ih =>
    have hstring := string_ioRegistryEntryGetProperty_iff device hholds
    have hroom : FitsIn (ioRegistryEntryGetProperty device devnode len).2 iter ↔
        FitsIn len iter ∧ FitsIn (device.dialinDevice.length + 1) iter := by
      rw [ioRegistryEntryGetProperty_len, fitsIn_min]
    have hrest (sites : ℕ → CallSite) :=
      @ih _ _ sites (holds_ioRegistryEntryGetProperty device hholds)
    simp only [hroom] at hrest
    rw [fitsIn_cons, neverLonger_cons, overlongLast_cons]
    by_cases husb : device.HasUsbAncestor
    · rw [iterateDevicesLoop_usb husb, ownReports_usb husb, List.cons.injEq, hstring,
        imp_iff_right husb, imp_iff_right husb]
      by_cases hown : device.dialinDevice.length + 1 ≤ len
      · rw [hstring.mpr hown]
        by_cases hlong : Overlong device.dialinDevice
        · -- the iteration ends here, so nothing may be left to report
          rw [if_pos hlong, imp_iff_right hlong]
          constructor
          · rintro ⟨-, hnone⟩
            obtain ⟨hlen, hnever, hlast⟩ := fitsIn_of_nothing len hnone.symm
            exact ⟨⟨hown, hlen⟩, ⟨(fitsIn_of_nothing _ hnone.symm).1, hnever⟩, hnone.symm, hlast⟩
          · rintro ⟨-, -, hnone, -⟩
            exact ⟨hown, hnone.symm⟩
        · rw [if_neg hlong, hrest]
          constructor
          · rintro ⟨-, ⟨hlen, hthis⟩, hnever, hlast⟩
            exact ⟨⟨hown, hlen⟩, ⟨hthis, hnever⟩, fun h => absurd h hlong, hlast⟩
          · rintro ⟨⟨-, hlen⟩, ⟨hthis, hnever⟩, -, hlast⟩
            exact ⟨hown, ⟨hlen, hthis⟩, hnever, hlast⟩
      · exact iff_of_false (fun h => hown h.1) (fun h => hown h.1.1)
    · rw [iterateDevicesLoop_other husb, ownReports_other husb, hrest]
      constructor
      · rintro ⟨⟨hlen, hthis⟩, hnever, hlast⟩
        exact ⟨⟨fun h => absurd h husb, hlen⟩, ⟨hthis, hnever⟩, fun h => absurd h husb, hlast⟩
      · rintro ⟨⟨-, hlen⟩, ⟨hthis, hnever⟩, -, hlast⟩
        exact ⟨⟨hlen, hthis⟩, hnever, hlast⟩

/-- `iterate_devices` reports the services that have an `IOUSBDevice` ancestor,
each once, in order and under its own path, exactly if none of them has a longer
path than a service before it, reported or not, and none but the last of them a
path that `sosc_ipc_msg_write` does not return from. -/
theorem iterateDevices_eq_ownReports_iff (devnode : IoStructInband) (sites : ℕ → CallSite)
    (iter : List IoService) :
    iterateDevices devnode sites iter = ownReports iter ↔
      NeverLonger iter ∧ OverlongLast iter := by
  have hfits : FitsIn devnodeRoom iter := fun device _ _ => device.fits
  rw [iterateDevices, iterateDevicesLoop_eq_ownReports_iff (Or.inl rfl)]
  exact and_iff_right hfits

/-- A serial port that is no USB device. -/
def debugConsole : IoService where
  dialinDevice := .ofString "/dev/tty.debug-console"
  ancestors := [⟨["IOSerialStreamSync"]⟩]
  fits := by decide

/-- A grid. -/
def usbserial : IoService where
  dialinDevice := .ofString "/dev/tty.usbserial-m1000123"
  ancestors := [⟨["IOSerialStreamSync"]⟩, ⟨["IOUSBInterface"]⟩, ⟨[kIOUSBDeviceClassName]⟩]
  fits := by decide

/-- The grid behind the shorter path is reported under that path, which is not
even the path of a USB device. -/
theorem not_iterateDevices_eq_ownReports :
    ¬ ∀ (devnode : IoStructInband) (sites : ℕ → CallSite) (iter : List IoService),
      iterateDevices devnode sites iter = ownReports iter := by
  intro hall
  have hreports := hall ⟨List.replicate 4096 0, List.length_replicate⟩
    (fun _ => ⟨fun _ => 0, 0, 0, .takes soscIpcMsgBufferSize⟩) [debugConsole, usbserial]
  obtain ⟨-, hnever, -⟩ := (iterateDevicesLoop_eq_ownReports_iff (Or.inl rfl)).mp hreports
  have hlonger := List.rel_of_pairwise_cons hnever (List.mem_singleton_self usbserial)
  exact absurd (hlonger (by decide)) (by decide)

end Serialosc.Iokitlib
