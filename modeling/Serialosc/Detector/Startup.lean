import Serialosc.Detector.Libudev

/-!
# Devices plugged in while the detector starts

The detector lists the devices before it creates its monitor, and the monitor
delivers only what happens after it has been told to receive.  A device that is
plugged in between is neither listed nor delivered.  `missesNone_iff` says that
there is no other way to miss a device.
-/

namespace Serialosc

open ByteMemory Runs

namespace Detector

/-! ## What is waited for -/

/-- The device is a compatible tty that is plugged in. -/
def Awaited (s : Detector) (i : ℕ) : Prop :=
  ∃ ud, s.devices[i]? = some ⟨ud, true⟩ ∧ ud.IsTty ∧ ud.isDeviceCompatible = true

/-- `send_connect` has been called for the device. -/
def Reported (s : Detector) (i : ℕ) : Prop := ∃ node, (i, some node) ∈ s.log

/-- The device will be reported after some number of steps of the program,
whatever else is plugged in or out meanwhile. -/
def WillReport (env : UdevEnv) (s : Detector) (i : ℕ) : Prop :=
  ∃ n, (detector env).LeadsTo DetectorEvent.isMain (· ≠ .unplug i) (·.Reported i) n s

/-- The device is reported, is about to be listed, or is in the queue of the
monitor. -/
def Pending (s : Detector) (i : ℕ) : Prop :=
  s.Reported i ∨ s.phase = .start ∨ ∃ queue, s.phase = .receiving queue ∧ ⟨.add, i⟩ ∈ queue

/-- At most `n` steps of the program are missing until the device is reported. -/
def Within (i n : ℕ) (s : Detector) : Prop :=
  s.Awaited i ∧ (s.Reported i ∨ (0 < n ∧ s.phase = .start) ∨
    ∃ queue k, s.phase = .receiving queue ∧ queue[k]? = some ⟨.add, i⟩ ∧ k < n)

theorem Awaited.lt {s : Detector} {i : ℕ} (h : s.Awaited i) : i < s.devices.length := by
  obtain ⟨ud, hget, -⟩ := h
  exact (List.getElem?_eq_some_iff.mp hget).1

theorem Within.of_pending {s : Detector} {i : ℕ} (hawaited : s.Awaited i) (h : s.Pending i) :
    ∃ n, s.Within i n := by
  rcases h with hreported | hstart | ⟨queue, hphase, hmem⟩
  · exact ⟨0, hawaited, .inl hreported⟩
  · exact ⟨1, hawaited, .inr (.inl ⟨Nat.one_pos, hstart⟩)⟩
  · obtain ⟨k, hk⟩ := List.mem_iff_getElem?.mp hmem
    exact ⟨k + 1, hawaited, .inr (.inr ⟨queue, k, hphase, hk, Nat.lt_succ_self k⟩)⟩

theorem Within.mono {s : Detector} {i m n : ℕ} (hmn : m ≤ n) (h : s.Within i m) :
    s.Within i n := by
  refine ⟨h.1, h.2.imp_right (Or.imp ?_ ?_)⟩
  · rintro ⟨hpos, hstart⟩
    exact ⟨lt_of_lt_of_le hpos hmn, hstart⟩
  · rintro ⟨queue, k, hphase, hk, hlt⟩
    exact ⟨queue, k, hphase, hk, lt_of_lt_of_le hlt hmn⟩

/-! ## What the program reports -/

/-- The calls of `send_connect` in the body of the loop of the scan. -/
def scanEntries (devices : List DeviceSlot) (i : ℕ) : List (ℕ × Option CString) :=
  match devices[i]? with
  | none => []
  | some slot =>
      if slot.ud.isDeviceCompatible ∧ slot.ud.devnode ≠ none then [(i, slot.ud.devnode)] else []

/-- The call of `send_connect` for an event of the monitor. -/
def receiveEntries (devices : List DeviceSlot) (e : UdevEvent) : List (ℕ × Option CString) :=
  match devices[e.device]? with
  | none => []
  | some slot =>
      if e.action.name.front = 'a' ∧ slot.ud.isDeviceCompatible then
        [(e.device, slot.ud.devnode)]
      else []

theorem scanDevice_eq (s : Detector) (i : ℕ) :
    s.scanDevice i = { s with log := s.log ++ scanEntries s.devices i } := by
  rw [scanDevice, scanEntries]
  cases s.devices[i]? with
  | none => simp
  | some slot =>
    by_cases h : slot.ud.isDeviceCompatible ∧ slot.ud.devnode ≠ none
    · simp only [if_pos h, sendConnect]
    · simp only [if_neg h, List.append_nil]

theorem foldl_scanDevice (s : Detector) (l : List ℕ) :
    l.foldl scanDevice s = { s with log := s.log ++ l.flatMap (scanEntries s.devices) } := by
  induction l generalizing s with
  | nil => simp
  | cons i l ih =>
    rw [List.foldl_cons, ih, scanDevice_eq]
    simp only [List.flatMap_cons, List.append_assoc]

theorem monitorReceive_eq (s : Detector) (e : UdevEvent) :
    s.monitorReceive e = { s with log := s.log ++ receiveEntries s.devices e } := by
  rw [monitorReceive, receiveEntries]
  cases s.devices[e.device]? with
  | none => simp
  | some slot =>
    by_cases h : e.action.name.front = 'a' ∧ slot.ud.isDeviceCompatible
    · simp only [if_pos h, sendConnect]
    · simp only [if_neg h, List.append_nil]

theorem mem_presentTtys {s : Detector} {i : ℕ} (h : s.Awaited i) : i ∈ s.presentTtys := by
  obtain ⟨ud, hget, htty, -⟩ := h
  refine List.mem_filter.mpr ⟨List.mem_range.mpr (List.getElem?_eq_some_iff.mp hget).1, ?_⟩
  simp [hget, htty]

/-- A device that is waited for has a device node. -/
theorem Awaited.node {s : Detector} {i : ℕ} (h : s.Awaited i) :
    ∃ ud node, s.devices[i]? = some ⟨ud, true⟩ ∧ ud.isDeviceCompatible = true ∧
      ud.devnode = some node := by
  obtain ⟨ud, hget, htty, hcompatible⟩ := h
  obtain ⟨node, hnode⟩ := Option.ne_none_iff_exists'.mp (ud.node_of_tty htty)
  exact ⟨ud, node, hget, hcompatible, hnode⟩

theorem Awaited.scanned {s : Detector} {i : ℕ} (h : s.Awaited i) :
    ∃ node, (i, some node) ∈ scanEntries s.devices i := by
  obtain ⟨ud, node, hget, hcompatible, hnode⟩ := h.node
  refine ⟨node, ?_⟩
  simp [scanEntries, hget, hcompatible, hnode]

theorem Awaited.received {s : Detector} {i : ℕ} (h : s.Awaited i) :
    ∃ node, (i, some node) ∈ receiveEntries s.devices ⟨.add, i⟩ := by
  obtain ⟨ud, node, hget, hcompatible, hnode⟩ := h.node
  have hadd : UdevAction.add.name.front = 'a' := by decide
  have hentries : receiveEntries s.devices ⟨.add, i⟩ = [(i, ud.devnode)] := by
    rw [receiveEntries, hget]
    exact if_pos (And.intro hadd hcompatible)
  refine ⟨node, ?_⟩
  rw [hentries, hnode]
  exact List.mem_singleton_self _

theorem lt_of_mem_scanEntries {devices : List DeviceSlot} {i j : ℕ} {node : Option CString}
    (h : (i, node) ∈ scanEntries devices j) : i < devices.length := by
  rw [scanEntries] at h
  cases hslot : devices[j]? with
  | none => simp [hslot] at h
  | some slot =>
    simp only [hslot] at h
    split_ifs at h
    · obtain ⟨rfl, -⟩ := Prod.ext_iff.mp (List.mem_singleton.mp h)
      exact (List.getElem?_eq_some_iff.mp hslot).1
    · exact absurd h List.not_mem_nil

/-- The monitor reports a device only for the event that it was added. -/
theorem eq_add_of_mem_receiveEntries {devices : List DeviceSlot} {e : UdevEvent} {i : ℕ}
    {node : Option CString} (h : (i, node) ∈ receiveEntries devices e) :
    e = ⟨.add, i⟩ ∧ i < devices.length := by
  rw [receiveEntries] at h
  cases hslot : devices[e.device]? with
  | none => simp [hslot] at h
  | some slot =>
    simp only [hslot] at h
    split_ifs at h with hadd
    · obtain ⟨rfl, -⟩ := Prod.ext_iff.mp (List.mem_singleton.mp h)
      refine ⟨?_, (List.getElem?_eq_some_iff.mp hslot).1⟩
      obtain ⟨action, device⟩ := e
      cases action with
      | add => rfl
      | remove =>
        have hremove : UdevAction.remove.name.front ≠ 'a' := by decide
        exact absurd hadd.1 hremove
    · exact absurd h List.not_mem_nil

/-! ## One step -/

variable {env : UdevEnv} {s s' : Detector} {i : ℕ}

@[simp] theorem devices_deliver (s : Detector) (ud : UdevDevice) (e : UdevEvent) :
    (s.deliver ud e).devices = s.devices := by
  rw [deliver]
  split
  · split_ifs <;> rfl
  all_goals rfl

@[simp] theorem log_deliver (s : Detector) (ud : UdevDevice) (e : UdevEvent) :
    (s.deliver ud e).log = s.log := by
  rw [deliver]
  split
  · split_ifs <;> rfl
  all_goals rfl

/-- An event of the kernel leaves the phase alone, unless it joins the queue. -/
theorem phase_deliver (s : Detector) (ud : UdevDevice) (e : UdevEvent) :
    (s.deliver ud e).phase = s.phase ∨
      ∃ queue, s.phase = .receiving queue ∧ (s.deliver ud e).phase = .receiving (queue ++ [e]) := by
  rw [deliver]
  split
  next queue hphase =>
    split_ifs
    · exact .inr ⟨queue, hphase, rfl⟩
    · exact .inl rfl
  all_goals exact .inl rfl

theorem Reported.deliver_iff {ud : UdevDevice} {e : UdevEvent} :
    (s.deliver ud e).Reported i ↔ s.Reported i := by
  rw [Reported, Reported, log_deliver]

theorem Pending.deliver_iff {ud : UdevDevice} {e : UdevEvent} (he : e ≠ ⟨.add, i⟩) :
    (s.deliver ud e).Pending i ↔ s.Pending i := by
  refine or_congr Reported.deliver_iff ?_
  rcases phase_deliver s ud e with hphase | ⟨queue, hphase, hdelivered⟩
  · rw [hphase]
  · rw [hphase, hdelivered]
    simp [he.symm]

/-- What a step of `main` does, when the devices can be listed. -/
inductive MainStepped (env : UdevEnv) (s : Detector) : Detector → Prop
  | scan (hphase : s.phase = .start) :
      MainStepped env s
        { s with
          phase := .scanned
          log := s.log ++ (env.order s.presentTtys).flatMap (scanEntries s.devices) }
  | receive (e : UdevEvent) (queue : List UdevEvent) (hphase : s.phase = .receiving (e :: queue)) :
      MainStepped env s
        { s with phase := .receiving queue, log := s.log ++ receiveEntries s.devices e }
  | quiet (phase : DetectorPhase) (hstart : s.phase ≠ .start)
      (hqueue : ∀ e queue, s.phase ≠ .receiving (e :: queue)) (hstart' : phase ≠ .start)
      (hqueue' : ∀ e queue, phase ≠ .receiving (e :: queue)) :
      MainStepped env s { s with phase := phase }

theorem mainStepped (henv : env.enumerateNew = true) (s : Detector) :
    MainStepped env s (s.mainStep env) := by
  obtain ⟨phase, devices, log⟩ := s
  cases phase with
  | start =>
    rw [mainStep, if_pos henv, scanConnectedDevices, foldl_scanDevice]
    exact .scan rfl
  | scanned =>
    rw [mainStep]
    split_ifs
    · exact .quiet .created nofun nofun nofun nofun
    · exact .quiet (.exited 2) nofun nofun nofun nofun
  | created => exact .quiet .filtered nofun nofun nofun nofun
  | filtered => exact .quiet (.receiving []) nofun nofun nofun nofun
  | receiving queue =>
    cases queue with
    | nil => exact .quiet (.receiving []) nofun nofun nofun nofun
    | cons e queue =>
      simp only [mainStep, monitorReceive_eq]
      exact .receive e queue rfl
  | exited status => exact .quiet (.exited status) nofun nofun nofun nofun

theorem Reported.append {log : List (ℕ × Option CString)} {phase : DetectorPhase}
    (h : s.Reported i) : Reported { s with phase := phase, log := s.log ++ log } i := by
  obtain ⟨node, hmem⟩ := h
  exact ⟨node, List.mem_append_left _ hmem⟩

theorem Reported.of_entries {log : List (ℕ × Option CString)} {phase : DetectorPhase}
    (h : ∃ node, (i, some node) ∈ log) :
    Reported { s with phase := phase, log := s.log ++ log } i := by
  obtain ⟨node, hmem⟩ := h
  exact ⟨node, List.mem_append_right _ hmem⟩

/-- The scan reports every device that is waited for. -/
theorem Awaited.mem_scan (h : s.Awaited i) :
    ∃ node, (i, some node) ∈ (env.order s.presentTtys).flatMap (scanEntries s.devices) := by
  obtain ⟨node, hmem⟩ := h.scanned
  exact ⟨node, List.mem_flatMap.mpr ⟨i, (env.perm _).mem_iff.mpr (mem_presentTtys h), hmem⟩⟩

theorem devices_mainStep (henv : env.enumerateNew = true) (s : Detector) :
    (s.mainStep env).devices = s.devices := by
  have hstep := mainStepped henv s
  generalize s.mainStep env = s' at hstep ⊢
  cases hstep <;> rfl

/-- A step of the program does not change whether a device is pending. -/
theorem pending_mainStep (henv : env.enumerateNew = true) (h : s.Awaited i) :
    (s.mainStep env).Pending i ↔ s.Pending i := by
  have hstep := mainStepped henv s
  generalize s.mainStep env = s' at hstep ⊢
  cases hstep with
  | scan hphase => exact iff_of_true (.inl (.of_entries h.mem_scan)) (.inr (.inl hphase))
  | receive e queue hphase =>
    constructor
    · rintro (⟨node, hmem⟩ | hstart | ⟨queue', hphase', hmem⟩)
      · rcases List.mem_append.mp hmem with hold | hnew
        · exact .inl ⟨node, hold⟩
        · obtain ⟨rfl, -⟩ := eq_add_of_mem_receiveEntries hnew
          exact .inr (.inr ⟨_, hphase, List.mem_cons_self⟩)
      · exact absurd hstart nofun
      · obtain rfl := DetectorPhase.receiving.inj hphase'
        exact .inr (.inr ⟨_, hphase, List.mem_cons_of_mem _ hmem⟩)
    · rintro (hreported | hstart | ⟨queue', hphase', hmem⟩)
      · exact .inl hreported.append
      · rw [hphase] at hstart
        exact absurd hstart nofun
      · rw [hphase] at hphase'
        obtain rfl := DetectorPhase.receiving.inj hphase'
        rcases List.mem_cons.mp hmem with rfl | hrest
        · exact .inl (.of_entries h.received)
        · exact .inr (.inr ⟨_, rfl, hrest⟩)
  | quiet phase hstart hqueue hstart' hqueue' =>
    have hnone (p : DetectorPhase) (hp : ∀ e queue, p ≠ .receiving (e :: queue)) :
        ¬ ∃ queue, p = .receiving queue ∧ ⟨.add, i⟩ ∈ queue := by
      rintro ⟨queue, rfl, hmem⟩
      cases queue with
      | nil => exact List.not_mem_nil hmem
      | cons e queue => exact hp e queue rfl
    refine or_congr_right (or_congr (iff_of_false hstart' hstart) (iff_of_false ?_ ?_))
    · exact hnone phase hqueue'
    · exact hnone s.phase hqueue

/-- A step of the program brings a pending device closer to its report. -/
theorem Within.mainStep (henv : env.enumerateNew = true) {n : ℕ} (h : s.Within i (n + 1)) :
    (s.mainStep env).Within i n := by
  obtain ⟨hawaited, hwithin⟩ := h
  have hstep := mainStepped henv s
  generalize s.mainStep env = s' at hstep ⊢
  cases hstep with
  | scan hphase => exact ⟨hawaited, .inl (.of_entries hawaited.mem_scan)⟩
  | receive e queue hphase =>
    refine ⟨hawaited, ?_⟩
    rcases hwithin with hreported | ⟨-, hstart⟩ | ⟨queue', k, hphase', hk, hlt⟩
    · exact .inl hreported.append
    · rw [hphase] at hstart
      exact absurd hstart nofun
    · rw [hphase] at hphase'
      obtain rfl := DetectorPhase.receiving.inj hphase'
      cases k with
      | zero =>
        obtain rfl : e = ⟨.add, i⟩ := Option.some.inj hk
        exact .inl (.of_entries hawaited.received)
      | succ k => exact .inr (.inr ⟨queue, k, rfl, hk, Nat.lt_of_succ_lt_succ hlt⟩)
  | quiet phase hstart hqueue hstart' hqueue' =>
    refine ⟨hawaited, .inl ?_⟩
    rcases hwithin with hreported | ⟨-, hstarted⟩ | ⟨queue, k, hphase, hk, hlt⟩
    · exact hreported
    · exact absurd hstarted hstart
    · cases queue with
      | nil => exact absurd hk nofun
      | cons e queue => exact absurd hphase (hqueue e queue)

/-- A device that has been reported stays so. -/
theorem Reported.mainStep (henv : env.enumerateNew = true) (h : s.Reported i) :
    (s.mainStep env).Reported i := by
  have hstep := mainStepped henv s
  generalize s.mainStep env = s' at hstep ⊢
  cases hstep with
  | scan hphase => exact h.append
  | receive e queue hphase => exact h.append
  | quiet phase hstart hqueue hstart' hqueue' => exact h

/-! ## Plugging in and out -/

/-- What plugging in or out leaves of a device: another one is plugged in or out. -/
theorem getElem?_plug (hi : i < s.devices.length) (ud : UdevDevice) :
    (s.plug ud).devices[i]? = s.devices[i]? := by
  rw [plug, devices_deliver]
  exact List.getElem?_append_left hi

theorem length_plug (s : Detector) (ud : UdevDevice) :
    (s.plug ud).devices.length = s.devices.length + 1 := by
  rw [plug, devices_deliver, List.length_append, List.length_singleton]

theorem pending_plug (hi : i < s.devices.length) (ud : UdevDevice) :
    (s.plug ud).Pending i ↔ s.Pending i := by
  have hne : (⟨.add, s.devices.length⟩ : UdevEvent) ≠ ⟨.add, i⟩ := by
    intro heq
    exact absurd (UdevEvent.mk.inj heq).2 (Nat.ne_of_gt hi)
  exact Pending.deliver_iff hne

/-- Unplugging a device that is plugged in. -/
theorem unplug_spec {j : ℕ} (h : s.unplug j = some s') :
    ∃ slot, s.devices[j]? = some slot ∧ slot.present = true ∧
      s' = deliver { s with devices := s.devices.set j { slot with present := false } } slot.ud
        ⟨.remove, j⟩ := by
  rw [unplug] at h
  cases hslot : s.devices[j]? with
  | none => simp [hslot] at h
  | some slot =>
    rw [hslot] at h
    obtain ⟨hpresent, heq⟩ := Option.ite_none_right_eq_some.mp h
    exact ⟨slot, rfl, hpresent, (Option.some.inj heq).symm⟩

theorem getElem?_unplug {j : ℕ} (h : s.unplug j = some s') (hij : j ≠ i) :
    s'.devices[i]? = s.devices[i]? := by
  obtain ⟨slot, -, -, rfl⟩ := unplug_spec h
  rw [devices_deliver]
  exact List.getElem?_set_ne hij

theorem length_unplug {j : ℕ} (h : s.unplug j = some s') :
    s'.devices.length = s.devices.length := by
  obtain ⟨slot, -, -, rfl⟩ := unplug_spec h
  rw [devices_deliver, List.length_set]

theorem pending_unplug {j : ℕ} (h : s.unplug j = some s') : s'.Pending i ↔ s.Pending i := by
  obtain ⟨slot, -, -, rfl⟩ := unplug_spec h
  exact Pending.deliver_iff (fun heq => UdevAction.noConfusion (UdevEvent.mk.inj heq).1)

/-- A device that is unplugged is not waited for any more. -/
theorem not_awaited_unplug (h : s.unplug i = some s') : ¬ s'.Awaited i := by
  obtain ⟨slot, hslot, -, rfl⟩ := unplug_spec h
  rintro ⟨ud, hget, -⟩
  have hlt := (List.getElem?_eq_some_iff.mp hslot).1
  rw [devices_deliver] at hget
  simp only [List.getElem?_set_self hlt] at hget
  exact absurd (congrArg DeviceSlot.present (Option.some.inj hget)) nofun

/-! ## Runs -/

theorem length_le_step {e : DetectorEvent} (henv : env.enumerateNew = true)
    (hstep : (detector env).step s e = some s') : s.devices.length ≤ s'.devices.length := by
  cases e with
  | plug ud =>
    obtain rfl := Option.some.inj hstep
    rw [length_plug]
    exact Nat.le_succ _
  | unplug j => exact (length_unplug hstep).ge
  | main =>
    obtain rfl := Option.some.inj hstep
    rw [devices_mainStep henv]

/-- A device that is waited for after a step was so before, and the step has not
changed whether it is pending. -/
theorem pending_step {e : DetectorEvent} (henv : env.enumerateNew = true)
    (hi : i < s.devices.length) (hstep : (detector env).step s e = some s')
    (h : s'.Awaited i) : s.Awaited i ∧ (s'.Pending i ↔ s.Pending i) := by
  cases e with
  | plug ud =>
    obtain rfl := Option.some.inj hstep
    rw [Awaited, getElem?_plug hi] at h
    exact ⟨h, pending_plug hi ud⟩
  | unplug j =>
    have hij : j ≠ i := by
      rintro rfl
      exact not_awaited_unplug hstep h
    rw [Awaited, getElem?_unplug hstep hij] at h
    exact ⟨h, pending_unplug hstep⟩
  | main =>
    obtain rfl := Option.some.inj hstep
    rw [Awaited, devices_mainStep henv] at h
    exact ⟨h, pending_mainStep henv h⟩

theorem pending_exec {es : List DetectorEvent} (henv : env.enumerateNew = true)
    (hi : i < s.devices.length) (hrun : (detector env).exec s es = some s')
    (h : s'.Awaited i) : s.Awaited i ∧ (s'.Pending i ↔ s.Pending i) := by
  induction es generalizing s with
  | nil =>
    obtain rfl : s = s' := Option.some.inj hrun
    exact ⟨h, Iff.rfl⟩
  | cons e es ih =>
    obtain ⟨s₁, hstep, hrest⟩ := (EventSystem.exec_cons_some _).mp hrun
    obtain ⟨hawaited, hpending⟩ :=
      ih (lt_of_lt_of_le hi (length_le_step henv hstep)) hrest
    obtain ⟨hawaited', hpending'⟩ := pending_step henv hi hstep hawaited
    exact ⟨hawaited', hpending.trans hpending'⟩

/-- The events of a run after which `i` devices have been plugged in, and the
device that is plugged in next. -/
theorem exists_plug {es : List DetectorEvent} (henv : env.enumerateNew = true)
    (hrun : (detector env).exec s es = some s') (hlo : s.devices.length ≤ i)
    (hhi : i < s'.devices.length) :
    ∃ es₁ ud es₂ s₁, es = es₁ ++ .plug ud :: es₂ ∧ (detector env).exec s es₁ = some s₁ ∧
      s₁.devices.length = i := by
  induction es generalizing s with
  | nil =>
    obtain rfl : s = s' := Option.some.inj hrun
    exact absurd hhi (Nat.not_lt.mpr hlo)
  | cons e es ih =>
    obtain ⟨s₁, hstep, hrest⟩ := (EventSystem.exec_cons_some _).mp hrun
    have hcons (hlo' : s₁.devices.length ≤ i) : ∃ es₁ ud es₂ s₂,
        e :: es = es₁ ++ .plug ud :: es₂ ∧ (detector env).exec s es₁ = some s₂ ∧
          s₂.devices.length = i := by
      obtain ⟨es₁, ud, es₂, s₂, rfl, hrun₁, hlength⟩ := ih hrest hlo'
      exact ⟨e :: es₁, ud, es₂, s₂, rfl,
        (EventSystem.exec_cons_some _).mpr ⟨s₁, hstep, hrun₁⟩, hlength⟩
    cases e with
    | plug ud =>
      obtain rfl := Option.some.inj hstep
      rcases hlo.eq_or_lt with heq | hlt
      · exact ⟨[], ud, es, s, rfl, rfl, heq⟩
      · exact hcons (by rw [length_plug]; exact hlt)
    | unplug j => exact hcons ((length_unplug hstep).trans_le hlo)
    | main =>
      obtain rfl := Option.some.inj hstep
      exact hcons (by rw [devices_mainStep henv]; exact hlo)

/-- Only devices that have been plugged in are reported. -/
def LogBounded (s : Detector) : Prop := ∀ i, s.Reported i → i < s.devices.length

theorem logBounded_invariant (henv : env.enumerateNew = true) :
    (detector env).Invariant LogBounded where
  init s hs i := by
    rintro ⟨node, hmem⟩
    rw [hs.2] at hmem
    exact absurd hmem List.not_mem_nil
  step s e s' hs hstep i hreported := by
    cases e with
    | plug ud =>
      obtain rfl := Option.some.inj hstep
      rw [Reported, plug, log_deliver] at hreported
      rw [length_plug]
      exact Nat.lt_succ_of_lt (hs i hreported)
    | unplug j =>
      rw [length_unplug hstep]
      obtain ⟨slot, -, -, rfl⟩ := unplug_spec hstep
      rw [Reported, log_deliver] at hreported
      exact hs i hreported
    | main =>
      obtain rfl := Option.some.inj hstep
      have hmain := mainStepped henv s
      rw [devices_mainStep henv]
      generalize s.mainStep env = s' at hmain hreported
      cases hmain with
      | scan hphase =>
        obtain ⟨node, hmem⟩ := hreported
        rcases List.mem_append.mp hmem with hold | hnew
        · exact hs i ⟨node, hold⟩
        · obtain ⟨j, -, hentry⟩ := List.mem_flatMap.mp hnew
          exact lt_of_mem_scanEntries hentry
      | receive e queue hphase =>
        obtain ⟨node, hmem⟩ := hreported
        rcases List.mem_append.mp hmem with hold | hnew
        · exact hs i ⟨node, hold⟩
        · exact (eq_add_of_mem_receiveEntries hnew).2
      | quiet phase hstart hqueue hstart' hqueue' => exact hs i hreported

/-! ## Reports -/

theorem within_step {e : DetectorEvent} {n : ℕ} (henv : env.enumerateNew = true)
    (h : s.Within i n) (he : e ≠ .unplug i) (hstep : (detector env).step s e = some s') :
    s'.Within i n := by
  have hother (ud : UdevDevice) (f : UdevEvent) (t : Detector) (hphase : t.phase = s.phase)
      (hlog : t.log = s.log) (hget : t.devices[i]? = s.devices[i]?) :
      (t.deliver ud f).Within i n := by
    obtain ⟨hawaited, hwithin⟩ := h
    have hreported : (t.deliver ud f).Reported i ↔ s.Reported i := by
      rw [Reported, log_deliver, hlog, Reported]
    rw [Within, Awaited, devices_deliver, hget, hreported]
    refine ⟨hawaited, hwithin.imp_right ?_⟩
    rcases phase_deliver t ud f with hsame | ⟨queue, hqueue, hdelivered⟩
    · rw [hsame, hphase]
      exact id
    · rintro (⟨-, hstart⟩ | ⟨queue', k, hphase', hk, hlt⟩)
      · rw [← hphase, hqueue] at hstart
        exact absurd hstart nofun
      · rw [← hphase, hqueue] at hphase'
        obtain rfl := DetectorPhase.receiving.inj hphase'
        have hk' := (List.getElem?_eq_some_iff.mp hk).1
        exact .inr ⟨_, k, hdelivered, (List.getElem?_append_left hk').trans hk, hlt⟩
  cases e with
  | plug ud =>
    obtain rfl := Option.some.inj hstep
    exact hother ud _ _ rfl rfl (List.getElem?_append_left h.1.lt)
  | unplug j =>
    obtain ⟨slot, -, -, rfl⟩ := unplug_spec hstep
    exact hother _ _ _ rfl rfl (List.getElem?_set_ne fun heq => he (congrArg _ heq))
  | main =>
    obtain rfl := Option.some.inj hstep
    cases n with
    | zero =>
      refine ⟨?_, .inl ?_⟩
      · rw [Awaited, devices_mainStep henv]
        exact h.1
      · rcases h.2 with hreported | ⟨hpos, -⟩ | ⟨_, k, -, -, hlt⟩
        · exact hreported.mainStep henv
        · exact absurd hpos (Nat.lt_irrefl 0)
        · exact absurd hlt (Nat.not_lt_zero k)
    | succ n => exact (h.mainStep henv).mono (Nat.le_succ n)

/-- A device that is waited for will be reported exactly if it is pending. -/
theorem willReport_iff (henv : env.enumerateNew = true) (h : s.Awaited i) :
    WillReport env s i ↔ s.Pending i := by
  constructor
  · rintro ⟨n, hleads⟩
    by_contra hne
    refine EventSystem.not_leadsTo_of_stable (N := fun t => t.Awaited i ∧ ¬ t.Pending i)
      (fun t ht hreported => ht.2 (.inl hreported)) .main nofun rfl ?_ n ⟨h, hne⟩ hleads
    rintro t ⟨hawaited, hnot⟩
    refine ⟨t.mainStep env, rfl, ?_, ?_⟩
    · rw [Awaited, devices_mainStep henv]
      exact hawaited
    · rwa [pending_mainStep henv hawaited]
  · intro hpending
    obtain ⟨n, hwithin⟩ := Within.of_pending h hpending
    refine ⟨n, EventSystem.leadsTo_of_within (W := fun n t => t.Within i n) ?_ ?_ ?_ hwithin⟩
    · rintro t ⟨-, hreported | ⟨hpos, -⟩ | ⟨_, k, -, -, hlt⟩⟩
      · exact hreported
      · exact absurd hpos (Nat.lt_irrefl 0)
      · exact absurd hlt (Nat.not_lt_zero k)
    · exact fun n t e t' ht he hstep => within_step henv ht he hstep
    · intro n t e t' ht _ howned hstep
      cases e with
      | main =>
        obtain rfl := Option.some.inj hstep
        exact ht.mainStep henv
      | plug ud => exact absurd howned nofun
      | unplug j => exact absurd howned nofun

/-- A device that is plugged in before the scan, or while the monitor receives, is
covered. -/
def Covers (s : Detector) : Prop := s.phase = .start ∨ ∃ queue, s.phase = .receiving queue

/-- Just after it has been plugged in, a device is pending exactly if it is covered. -/
theorem pending_new (hbounded : s.LogBounded) {ud : UdevDevice} (htty : ud.IsTty) :
    (s.plug ud).Pending s.devices.length ↔ s.Covers := by
  have hreported : ¬ (s.plug ud).Reported s.devices.length := by
    intro h
    rw [Reported, plug, log_deliver] at h
    exact absurd (hbounded _ h) (Nat.lt_irrefl _)
  rw [Pending, or_iff_right hreported, Covers, plug, deliver]
  cases s.phase with
  | receiving queue => simp [htty]
  | start | scanned | created | filtered | exited _ => simp

/-- In every run, all compatible ttys that stay plugged in are reported if and only
if each of them was plugged in before the scan, or when the monitor was
receiving. -/
theorem missesNone_iff (env : UdevEnv) (henv : env.enumerateNew = true) {s₀ s : Detector}
    {es : List DetectorEvent} (hinit : (detector env).init s₀)
    (hrun : (detector env).exec s₀ es = some s) :
    (∀ i, s.Awaited i → WillReport env s i) ↔
      ∀ es₁ ud es₂ s₁, es = es₁ ++ .plug ud :: es₂ → (detector env).exec s₀ es₁ = some s₁ →
        s.Awaited s₁.devices.length → s₁.Covers := by
  have hplugged {es₁ es₂ : List DetectorEvent} {ud : UdevDevice} {s₁ : Detector}
      (hes : es = es₁ ++ .plug ud :: es₂) (hrun₁ : (detector env).exec s₀ es₁ = some s₁)
      (hawaited : s.Awaited s₁.devices.length) :
      s.Pending s₁.devices.length ↔ s₁.Covers := by
    rw [hes] at hrun
    obtain ⟨s₂, hstep, hrest⟩ := EventSystem.exec_append_cons_some _ hrun₁ hrun
    obtain rfl := Option.some.inj hstep
    have hlt : s₁.devices.length < (s₁.plug ud).devices.length := by
      rw [length_plug]
      exact Nat.lt_succ_self _
    obtain ⟨⟨ud', hget, htty, -⟩, hpending⟩ := pending_exec henv hlt hrest hawaited
    have hud : (s₁.plug ud).devices[s₁.devices.length]? = some ⟨ud, true⟩ := by
      rw [plug, devices_deliver]
      exact List.getElem?_concat_length
    obtain rfl : ud = ud' := congrArg DeviceSlot.ud (Option.some.inj (hud.symm.trans hget))
    have hbounded : s₁.LogBounded :=
      (logBounded_invariant henv).reachable ⟨s₀, es₁, hinit, hrun₁⟩
    rw [hpending, pending_new hbounded htty]
  constructor
  · intro hall es₁ ud es₂ s₁ hes hrun₁ hawaited
    exact (hplugged hes hrun₁ hawaited).mp ((willReport_iff henv hawaited).mp (hall _ hawaited))
  · intro hcovers i hawaited
    rw [willReport_iff henv hawaited]
    rcases Nat.lt_or_ge i s₀.devices.length with hold | hnew
    · exact (pending_exec henv hold hrun hawaited).2.mpr (.inr (.inl hinit.1))
    · obtain ⟨es₁, ud, es₂, s₁, hes, hrun₁, rfl⟩ := exists_plug henv hrun hnew hawaited.lt
      exact (hplugged hes hrun₁ hawaited).mpr (hcovers es₁ ud es₂ s₁ hes hrun₁ hawaited)

/-! ## A device that is missed -/

/-- A converter with a `usb-serial` parent. -/
def sampleTty : UdevDevice where
  subsystem := .ofString "tty"
  parents := [⟨some (.ofString "usb-serial"), none⟩]
  properties := []
  devnode := some (.ofString "/dev/ttyUSB0")
  node_of_tty _ := nofun

/-- libudev, when every call succeeds. -/
def reliableUdev : UdevEnv where
  enumerateNew := true
  monitorNew := true
  order := id
  perm _ := List.Perm.refl _

/-- The detector, started while these devices are plugged in. -/
def started (uds : List UdevDevice) : Detector where
  phase := .start
  devices := uds.map fun ud => ⟨ud, true⟩
  log := []

/-- A device that is plugged in after the scan and before the monitor receives is
never reported. -/
theorem not_missesNone :
    ¬ ∀ (env : UdevEnv), env.enumerateNew = true → env.monitorNew = true →
      ∀ (s₀ s : Detector) (es : List DetectorEvent), (detector env).init s₀ →
        (detector env).exec s₀ es = some s → ∀ i, s.Awaited i → WillReport env s i := by
  intro h
  have hawaited : Awaited ((((started []).mainStep reliableUdev).plug sampleTty).mainStep
      reliableUdev) 0 := ⟨sampleTty, rfl, rfl, by decide⟩
  have hwill := h reliableUdev rfl rfl (started []) _ [.main, .plug sampleTty, .main]
    ⟨rfl, rfl⟩ rfl 0 hawaited
  rcases (willReport_iff rfl hawaited).mp hwill with ⟨node, hmem⟩ | hstart | ⟨queue, hphase, -⟩
  · exact absurd hmem List.not_mem_nil
  · exact absurd hstart nofun
  · exact absurd hphase nofun

/-- One device is there when the detector starts, and another is plugged in when
the monitor receives: both will be reported. -/
theorem missesNone_iff_receiving :
    ∃ s, (detector reliableUdev).exec (started [sampleTty])
        [.main, .main, .main, .main, .plug sampleTty] = some s ∧
      (s.Awaited 0 ∧ WillReport reliableUdev s 0) ∧ s.Awaited 1 ∧ WillReport reliableUdev s 1 := by
  obtain ⟨s, hrun, hfirst, hsecond⟩ : ∃ s, (detector reliableUdev).exec (started [sampleTty])
      [.main, .main, .main, .main, .plug sampleTty] = some s ∧ s.Awaited 0 ∧ s.Awaited 1 :=
    ⟨_, rfl, ⟨sampleTty, rfl, rfl, by decide⟩, sampleTty, rfl, rfl, by decide⟩
  have hall := (missesNone_iff reliableUdev rfl ⟨rfl, rfl⟩ hrun).mpr
    fun es₁ ud es₂ s₁ hes hrun₁ _ => by
      -- the only device that comes later is plugged in after the four steps
      have hnot : DetectorEvent.plug ud ∉ [DetectorEvent.main, .main, .main, .main] := by simp
      obtain ⟨rfl, -⟩ := (List.append_cons_inj_of_notMem hnot List.not_mem_nil).mp hes
      obtain rfl := Option.some.inj hrun₁
      exact .inr ⟨_, rfl⟩
  exact ⟨s, hrun, ⟨hfirst, hall 0 hfirst⟩, hsecond, hall 1 hsecond⟩

end Detector

end Serialosc
