import Serialosc.Device.Server

/-!
# The rotation of a device server

Three paths set the rotation of the device: the saved configuration, the
letters of `/sys/cable` and the degrees of `/sys/rotation`.  The letters name
one of the four rotations.  The saved value is divided by 90 and taken modulo
4, which leaves a negative number negative, and the degrees are only divided.
`rotationsValid_iff` says for which configurations and messages the device is
never given anything but a `monome_rotate_t`.
-/

namespace Serialosc

/-! ## The rotations that have been set -/

/-- The rotation that an effect sets. -/
def DeviceEffect.setRotation : DeviceEffect → Option UInt32
  | .monomeSetRotation rotation => some rotation
  | .loSendFrom _ _ _ => none

namespace DeviceServer

/-- What was passed to `monome_set_rotation`, in order. -/
def rotations (self : DeviceServer) : List UInt32 :=
  self.log.filterMap DeviceEffect.setRotation

/-- Everything that was passed to `monome_set_rotation` is one of the four
rotations. -/
def RotationsValid (self : DeviceServer) : Prop := ∀ r ∈ self.rotations, r < 4

instance (self : DeviceServer) : Decidable self.RotationsValid :=
  inferInstanceAs (Decidable (∀ r ∈ self.rotations, r < 4))

theorem rotations_monomeSetRotation (self : DeviceServer) (r : UInt32) :
    (self.monomeSetRotation r).rotations = self.rotations ++ [r] := by
  rw [rotations, monomeSetRotation, emit, List.filterMap_append]
  rfl

/-- Messages set no rotation. -/
theorem Sends.rotations {P : OscAddress → Prop} {s s' : DeviceServer} (h : Sends P s s') :
    s'.rotations = s.rotations := by
  obtain ⟨sent, hlog, hsent⟩ := h.log
  have hnone : sent.filterMap DeviceEffect.setRotation = [] := by
    refine List.filterMap_eq_nil_iff.mpr fun e he => ?_
    obtain ⟨dst, path, args, -, rfl⟩ := hsent e he
    rfl
  rw [DeviceServer.rotations, hlog, List.filterMap_append, hnone, List.append_nil]
  rfl

end DeviceServer

namespace Device

open DeviceServer

variable {monome : Monome}

/-! ## One message -/

/-- The rotation that a message asks for. -/
def SysMessage.newRotation : SysMessage → Option UInt32
  | .cable arg => cableRotation arg.first
  | .rotation arg => some (UInt32.ofInt (arg.toInt.tdiv 90))
  | .info _ _ _ | .infoDefault _ | .port _ | .host _ | .oscPrefix _ => none

/-- The state after `monome_set_rotation` is called with the values in `rs`, in
this order. -/
structure Rotated (rs : List UInt32) (s s' : DeviceServer) : Prop where
  rotation : s'.rotation = rs.getLastD s.rotation
  rotations : s'.rotations = s.rotations ++ rs

theorem Rotated.of_sends {P : OscAddress → Prop} {s s' : DeviceServer} (h : s.Sends P s') :
    Rotated [] s s' where
  rotation := h.rotation
  rotations := by
    rw [h.rotations, List.append_nil]

/-- The values that a message makes the server pass to `monome_set_rotation`:
what it asks for, unless the device says that it has this rotation. -/
def setBy (monome : Monome) (self : DeviceServer) (m : SysMessage) : List UInt32 :=
  m.newRotation.toList.filter (monome.getRotation self.rotation ≠ ·)

theorem changeRotation_rotated (new : UInt32) (self : DeviceServer) :
    Rotated ([new].filter (monome.getRotation self.rotation ≠ ·)) self
      (changeRotation monome new self) := by
  rcases changeRotation_spec monome new self with ⟨heq, hself⟩ | ⟨hne, hsends⟩
  · rw [hself, List.filter_cons_of_neg (by simpa using heq)]
    exact ⟨rfl, (List.append_nil _).symm⟩
  · rw [List.filter_cons_of_pos (by simpa using hne)]
    exact ⟨hsends.rotation, hsends.rotations.trans (rotations_monomeSetRotation self new)⟩

/-- What a message does to the rotation. -/
theorem handle_rotated {self self' : DeviceServer} {e : SysEvent}
    (h : handle monome self e = some self') :
    Rotated (setBy monome self e.message) self self' := by
  obtain ⟨m, allocated⟩ := e
  cases m with
  | info prop host port => exact .of_sends (infoPropHandler_spec h)
  | infoDefault prop => exact .of_sends (infoPropHandlerDefault_spec h)
  | cable arg =>
    obtain rfl := Option.some.inj h
    rw [setBy, SysMessage.newRotation, sysCableLegacyHandler]
    cases cableRotation arg.first with
    | none => exact .of_sends (.refl (P := fun _ => True) self)
    | some new => exact changeRotation_rotated new self
  | rotation arg =>
    obtain rfl := Option.some.inj h
    exact changeRotation_rotated _ self
  | port arg =>
    rcases sysPortHandler_spec h with ⟨-, rfl⟩ | ⟨-, hsends⟩
    · exact .of_sends (.refl (P := fun _ => True) _)
    · exact ⟨hsends.rotation, hsends.rotations.trans (List.append_nil _).symm⟩
  | host arg =>
    obtain rfl := Option.some.inj h
    rcases sysHostHandler_spec arg allocated self with ⟨-, heq⟩ | ⟨-, hsends⟩
    · rw [heq]
      exact .of_sends (.refl (P := fun _ => True) self)
    · exact ⟨hsends.rotation, hsends.rotations.trans (List.append_nil _).symm⟩
  | oscPrefix arg =>
    obtain rfl := Option.some.inj h
    have hsends := sysPrefixHandler_spec arg self
    exact ⟨hsends.rotation, hsends.rotations.trans (List.append_nil _).symm⟩

/-! ## Valid rotations -/

/-- A number that is converted to an unsigned one of 32 bits. -/
theorem ofInt_lt_four_iff {n : ℤ} (hlo : -2 ^ 31 ≤ n) (hhi : n < 2 ^ 31) :
    UInt32.ofInt n < 4 ↔ 0 ≤ n ∧ n < 4 := by
  rw [UInt32.lt_iff_toNat_lt, UInt32.ofInt, UInt32.toNat_ofNat']
  simp only [UInt32.reduceToNat]
  omega

theorem tdiv_of_neg {n : ℤ} (h : n < 0) (d : ℤ) : n.tdiv d = -(-n / d) := by
  rw [← Int.neg_neg n, Int.neg_tdiv, Int.tdiv_eq_ediv_of_nonneg (by omega), Int.neg_neg]

theorem tmod_of_nonpos {n : ℤ} (h : n ≤ 0) (d : ℤ) : n.tmod d = -(-n % d) := by
  rw [← Int.neg_neg n, Int.neg_tmod, Int.tmod_eq_emod_of_nonneg (by omega), Int.neg_neg]

/-- The saved rotation is valid if it is not negative or, but for a remainder of
less than 90, a multiple of 360. -/
theorem savedRotation_lt_four_iff (r : ℤ) :
    UInt32.ofInt ((r.tdiv 90).tmod 4) < 4 ↔ 0 ≤ r ∨ -r % 360 < 90 := by
  rcases le_or_gt 0 r with h | h
  · rw [Int.tdiv_eq_ediv_of_nonneg h, Int.tmod_eq_emod_of_nonneg (by omega),
      ofInt_lt_four_iff (by omega) (by omega)]
    omega
  · rw [tdiv_of_neg h, tmod_of_nonpos (by omega), ofInt_lt_four_iff (by omega) (by omega)]
    omega

/-- The degrees of `/sys/rotation` stand for one of the four rotations. -/
def SysMessage.InRange : SysMessage → Prop
  | .rotation arg => -90 < arg.toInt ∧ arg.toInt < 360
  | .info _ _ _ | .infoDefault _ | .cable _ | .port _ | .host _ | .oscPrefix _ => True

theorem cableRotation_lt_four {c : UInt8} {r : UInt32} (h : cableRotation c = some r) :
    r < 4 := by
  rw [cableRotation] at h
  split_ifs at h <;> obtain rfl := Option.some.inj h <;> decide

/-- The rotation that a message asks for is valid if its degrees are in range. -/
theorem newRotation_lt_four_iff (m : SysMessage) :
    (∀ r ∈ m.newRotation, r < 4) ↔ m.InRange := by
  cases m with
  | cable arg => exact iff_of_true (fun r hr => cableRotation_lt_four hr) trivial
  | rotation arg =>
    have hlo := arg.le_toInt
    have hhi := arg.toInt_lt
    simp only [SysMessage.newRotation, Option.mem_some_iff, forall_eq', SysMessage.InRange]
    rcases le_or_gt 0 arg.toInt with h | h
    · rw [Int.tdiv_eq_ediv_of_nonneg h, ofInt_lt_four_iff (by omega) (by omega)]
      omega
    · rw [tdiv_of_neg h, ofInt_lt_four_iff (by omega) (by omega)]
      omega
  | info _ _ _ | infoDefault _ | port _ | host _ | oscPrefix _ =>
    exact iff_of_true (fun r hr => absurd hr (Option.not_mem_none r)) trivial

/-- The value last passed to `monome_set_rotation` is the rotation. -/
def LastSet (self : DeviceServer) : Prop := self.rotation ∈ self.rotations

theorem lastSet_serverRun (config : SoscConfig) : LastSet (serverRun config) :=
  List.mem_singleton_self _

theorem Rotated.lastSet {rs : List UInt32} {s s' : DeviceServer} (h : Rotated rs s s')
    (hs : LastSet s) : LastSet s' := by
  rw [LastSet, h.rotation, h.rotations, List.mem_append]
  rcases List.eq_nil_or_concat rs with rfl | ⟨init, r, rfl⟩
  · exact .inl hs
  · exact .inr (by simp)

/-- From valid rotations a message leads to valid ones if and only if its
degrees are in range. -/
theorem Rotated.valid_iff {rs : List UInt32} {s s' : DeviceServer} (h : Rotated rs s s') :
    s'.RotationsValid ↔ s.RotationsValid ∧ ∀ r ∈ rs, r < 4 := by
  rw [RotationsValid, h.rotations, List.forall_mem_append]
  rfl

theorem setBy_lt_four_iff (hget : ∀ r < 4, monome.getRotation r = r) {self : DeviceServer}
    (hlast : LastSet self) (hvalid : self.RotationsValid) (m : SysMessage) :
    (∀ r ∈ setBy monome self m, r < 4) ↔ m.InRange := by
  have hold : monome.getRotation self.rotation < 4 := by
    rw [hget _ (hvalid _ hlast)]
    exact hvalid _ hlast
  rw [← newRotation_lt_four_iff]
  constructor
  · intro hset r hr
    by_cases heq : monome.getRotation self.rotation = r
    · rwa [← heq]
    · exact hset r (List.mem_filter.mpr ⟨Option.mem_toList.mpr hr, by simpa using heq⟩)
  · intro hnew r hr
    exact hnew r (Option.mem_toList.mp (List.mem_filter.mp hr).1)

/-- A run keeps the rotations valid if and only if the degrees of all its
messages are in range. -/
theorem exec_valid_iff (hget : ∀ r < 4, monome.getRotation r = r) {s s' : DeviceServer}
    {es : List SysEvent} (hlast : LastSet s) (hrun : (system monome).exec s es = some s') :
    s'.RotationsValid ↔ s.RotationsValid ∧ ∀ e ∈ es, e.message.InRange := by
  induction es generalizing s with
  | nil =>
    obtain rfl : s = s' := Option.some.inj hrun
    simp
  | cons e es ih =>
    obtain ⟨mid, hstep, hrest⟩ := (Runs.EventSystem.exec_cons_some _).mp hrun
    have hrot := handle_rotated hstep
    rw [ih (hrot.lastSet hlast) hrest, hrot.valid_iff, List.forall_mem_cons, and_assoc]
    refine and_congr_right fun hvalid => and_congr_left fun _ => ?_
    exact setBy_lt_four_iff hget hlast hvalid e.message

theorem serverRun_valid_iff (config : SoscConfig) :
    (serverRun config).RotationsValid ↔ config.rotation < 4 :=
  List.forall_mem_singleton

/-- The device is given nothing but valid rotations exactly if the saved one is
not negative, or within a quarter turn of a multiple of 360, and the degrees of
every `/sys/rotation` are more than -90 and less than 360. -/
theorem rotationsValid_iff (monome : Monome) (hget : ∀ r < 4, monome.getRotation r = r)
    (cfg : ConfigValues) {es : List SysEvent} {self : DeviceServer}
    (hrun : (system monome).exec (serverRun (soscConfigRead cfg)) es = some self) :
    self.RotationsValid ↔
      (0 ≤ cfg.rotation ∨ -cfg.rotation % 360 < 90) ∧
        ∀ e ∈ es, ∀ arg, e.message = .rotation arg → -90 < arg.toInt ∧ arg.toInt < 360 := by
  rw [exec_valid_iff hget (lastSet_serverRun _) hrun, serverRun_valid_iff]
  refine and_congr (savedRotation_lt_four_iff cfg.rotation) (forall₂_congr fun e _ => ?_)
  constructor
  · intro h arg heq
    rwa [heq] at h
  · intro h
    cases hm : e.message with
    | rotation arg => exact h arg hm
    | info _ _ _ | infoDefault _ | cable _ | port _ | host _ | oscPrefix _ => trivial

/-- A quarter turn by `/sys/cable`, then three by `/sys/rotation`. -/
theorem rotationsValid_iff_turned :
    ∃ self, (system sampleMonome).exec (serverRun (soscConfigRead .default))
        [⟨.cable (.ofString "top"), true⟩, ⟨.rotation 270, true⟩] = some self ∧
      (self.RotationsValid ↔
        (0 ≤ ConfigValues.default.rotation ∨ -ConfigValues.default.rotation % 360 < 90) ∧
          ∀ e ∈ [⟨.cable (.ofString "top"), true⟩, (⟨.rotation 270, true⟩ : SysEvent)],
            ∀ arg, e.message = .rotation arg → -90 < arg.toInt ∧ arg.toInt < 360) :=
  ⟨_, rfl, rotationsValid_iff sampleMonome (fun _ _ => rfl) .default rfl⟩

/-- A full turn by `/sys/rotation` is passed on as rotation 4. -/
theorem not_rotationsValid :
    ¬ ∀ (monome : Monome), (∀ r < 4, monome.getRotation r = r) →
      ∀ (cfg : ConfigValues) (es : List SysEvent) (self : DeviceServer),
        (system monome).exec (serverRun (soscConfigRead cfg)) es = some self →
          self.RotationsValid := by
  intro h
  have hvalid := h sampleMonome (fun _ _ => rfl) .default [⟨.rotation 360, true⟩] _ rfl
  exact absurd (hvalid 4 (by decide)) (by decide)

end Device

end Serialosc
