import Serialosc.Ipc.Encode
import Mathlib.Data.List.Infix

/-!
# How far the encoder writes

`strdata_to_buf` is handed the size of the whole buffer, although the header
has been taken out of it, so its walk may go `sizeof(sosc_ipc_msg_t)` bytes too
far.  `walked` is how far it gets; the encoder overwrites that much behind the
header, and it is right exactly when no step of the walk ends in the last
`sizeof(sosc_ipc_msg_t)` bytes of the space it believes in.
-/

namespace Serialosc

open ByteMemory

/-- The steps that `strdata_to_buf` takes for its strings. -/
def walkSizes (strs : List CString) : List ℕ :=
  strs.flatMap fun s => [8, s.length, 2]

/-- How far a walk of the given steps gets with `a` bytes to go. -/
def walked (a : ℕ) : List ℕ → ℕ
  | [] => 0
  | k :: ks => if k ≤ a then k + walked (a - k) ks else 0

theorem sum_walkSizes (strs : List CString) : (walkSizes strs).sum = strBytes strs := by
  induction strs with
  | nil => rfl
  | cons s rest ih =>
    simp only [walkSizes, strBytes_cons, List.flatMap_cons, List.sum_append, List.sum_cons,
      List.sum_nil] at ih ⊢
    omega

theorem walked_le (a : ℕ) (ks : List ℕ) : walked a ks ≤ a := by
  induction ks generalizing a with
  | nil => exact Nat.zero_le a
  | cons k ks ih =>
    rw [walked]
    split
    · have := ih (a - k)
      omega
    · exact Nat.zero_le a

theorem walked_of_sum_le {a : ℕ} {ks : List ℕ} (hsum : ks.sum ≤ a) : walked a ks = ks.sum := by
  induction ks generalizing a with
  | nil => rfl
  | cons k ks ih =>
    rw [List.sum_cons] at hsum ⊢
    rw [walked, if_pos (by omega), ih (by omega)]

/-- A walk gets to the last of the partial sums that lie within its bound. -/
theorem walked_le_iff {a b : ℕ} {ks : List ℕ} :
    walked a ks ≤ b ↔ ∀ done ∈ ks.inits, done.sum ≤ a → done.sum ≤ b := by
  induction ks generalizing a b with
  | nil => simp [walked]
  | cons k ks ih =>
    simp only [List.inits_cons, List.mem_cons, List.mem_map, forall_eq_or_imp, List.sum_nil,
      Nat.zero_le, forall_const, true_and, forall_exists_index, and_imp,
      forall_apply_eq_imp_iff₂, List.sum_cons]
    rw [walked]
    split
    · next hk =>
      constructor
      · intro hle done hdone ha
        have := (ih (a := a - k) (b := b - k)).mp (by omega) done hdone (by omega)
        omega
      · intro hall
        have hkb : k ≤ b := by simpa using hall [] (by simp) (by simpa using hk)
        have := (ih (a := a - k) (b := b - k)).mpr
          (fun done hdone ha => by have := hall done hdone (by omega); omega)
        omega
    · next hk =>
      refine ⟨fun _ done _ ha => absurd ha (by omega), fun _ => Nat.zero_le b⟩

/-- The string loop writes as far as its walk gets, and succeeds exactly when
it is given enough. -/
theorem strdataToBufLoop_walk {strs : List CString} {buf : Addr} {a : ℕ} (ha : a < 2 ^ 63 + 8) :
    Overwrites (fun m => (strdataToBufLoop m buf (BitVec.ofNat 64 a) strs).1) buf
        (walked a (walkSizes strs)) ∧
      ∀ m, (strdataToBufLoop m buf (BitVec.ofNat 64 a) strs).2 =
        if strBytes strs ≤ a then some (BitVec.ofNat 64 (a - strBytes strs)) else none := by
  induction strs generalizing buf a with
  | nil => exact ⟨overwrites_id buf, fun m => by simp [strdataToBufLoop]⟩
  | cons s rest ih =>
    have hlen := s.length_lt
    have hsum : strBytes (s :: rest) = 8 + s.length + 2 + strBytes rest := by
      simp
    have hsizes : walkSizes (s :: rest) = 8 :: s.length :: 2 :: walkSizes rest := rfl
    rw [hsum, hsizes]
    simp only [strdataToBufLoop]
    rcases Nat.lt_or_ge a 8 with h₁ | h₁
    · have hw := bufWalk_eq_none buf h₁ (by omega)
      simp only [hw, walked, if_neg (Nat.not_le.mpr h₁)]
      exact ⟨overwrites_id buf, fun m => by rw [if_neg (by omega)]⟩
    have hw₁ := bufWalk_of_left buf (by omega) h₁ (by omega)
    have hfirst := overwrites_store 8 buf (BitVec.ofNat 64 s.length)
    rcases Nat.lt_or_ge (a - 8) s.length with h₂ | h₂
    · have hw₂ := bufWalk_eq_none (buf + 8#64) h₂ (by omega)
      simp only [hw₁, hw₂, walked, if_pos h₁, if_neg (Nat.not_le.mpr h₂)]
      exact ⟨hfirst, fun m => by rw [if_neg (by omega)]⟩
    have hw₂ := bufWalk_of_left (buf + 8#64) (by omega) h₂ (by omega)
    have hsecond := (overwrites_write (buf + 8#64) s.bytes).comp hfirst
      (by rw [CString.length_bytes]; omega)
    rcases Nat.lt_or_ge (a - 8 - s.length) 2 with h₃ | h₃
    · have hw₃ := bufWalk_eq_none (buf + 8#64 + BitVec.ofNat 64 s.length) h₃
        (by omega)
      simp only [hw₁, hw₂, hw₃, walked, if_pos h₁, if_pos h₂, if_neg (Nat.not_le.mpr h₃)]
      exact ⟨hsecond, fun m => by rw [if_neg (by omega)]⟩
    have hw₃ := bufWalk_of_left (buf + 8#64 + BitVec.ofNat 64 s.length) (by omega) h₃
      (by omega)
    have hthird := (overwrites_store 2 (buf + BitVec.ofNat 64 (8 + s.length)) ipcMagic).comp
      hsecond (by omega)
    have hwalked := walked_le (a - 8 - s.length - 2) (walkSizes rest)
    obtain ⟨hrest, hret⟩ := @ih (buf + BitVec.ofNat 64 (8 + s.length + 2))
      (a - 8 - s.length - 2) (by omega)
    have hall := hrest.comp hthird (by omega)
    simp only [hw₁, hw₂, hw₃, walked, if_pos h₁, if_pos h₂, if_pos h₃]
    simp only [offset_add]
    refine ⟨?_, fun m => ?_⟩
    · rw [← Nat.add_assoc, ← Nat.add_assoc]
      exact hall
    · rw [hret]
      congr 1
      · exact propext (by omega)
      · rw [show a - 8 - s.length - 2 - strBytes rest = a - (8 + s.length + 2 + strBytes rest) by
          omega]

/-- Every arm of the switch serialises the strings of the message. -/
theorem stringsToBuf_eq {strAt : Addr → CString} {raw : SoscIpcMsg} {c : IpcMsg}
    (hc : raw.contents strAt = some c) (m : Mem) (buf : Addr) (n : BitVec 64) :
    stringsToBuf strAt m buf n raw.setMagic = strdataToBuf m buf n c.strings := by
  unfold SoscIpcMsg.contents at hc
  split at hc
  case h_7 => cases hc
  all_goals
    cases hc
    next htype =>
      simp [stringsToBuf, SoscIpcMsg.setMagic, htype, IpcMsg.strings, strdataToBuf,
        strdataToBufLoop, SoscIpcMsg.devnode, SoscIpcMsg.serial, SoscIpcMsg.friendly]

/-- The encoder does what it should with a buffer of `n` bytes at `buf`: it
leaves every other byte alone, its assertion holds, it returns `-1` exactly when
the message does not fit, and the size of the message otherwise. -/
structure EncodesInside (strAt : Addr → CString) (buf : Addr) (n : BitVec 64)
    (raw : SoscIpcMsg) (c : IpcMsg) : Prop where
  inside : ∀ m q, n.toNat ≤ (q - buf).toNat →
    (soscIpcMsgToBuf strAt m buf n raw).mem q = m q
  asserted : ∀ m, (soscIpcMsgToBuf strAt m buf n raw).ret ≠ none
  refuses : ∀ m, (soscIpcMsgToBuf strAt m buf n raw).ret = some ssizeError ↔
    n.toNat < c.wireSize
  returns : ∀ m, c.wireSize ≤ n.toNat →
    (soscIpcMsgToBuf strAt m buf n raw).ret = some (BitVec.ofNat 64 c.wireSize)

/-- The messages that the encoder can be given with a buffer of `n` bytes.  The
last two cases are about sizes that `ssize_t` takes for negative. -/
def EncoderRoom (n : ℕ) (c : IpcMsg) : Prop :=
  n < sizeofMsg ∨
    if c.strings = [] then n < 2 ^ 63 + sizeofMsg
    else if n < 2 ^ 63 + 8 then
      ∀ done ∈ (walkSizes c.strings).inits, done.sum ≤ n → sizeofMsg + done.sum ≤ n
    else n < c.wireSize

/-- The string part of the encoder for any size it is told. -/
theorem strdataToBuf_walk {strs : List CString} {n : ℕ} (hn : n < 2 ^ 64) (buf : Addr)
    (hstrs : strs = [] ∨ n < 2 ^ 63 + 8) :
    Overwrites (fun m => (strdataToBuf m buf (BitVec.ofNat 64 n) strs).1) buf
        (walked n (walkSizes strs)) ∧
      ∀ m, (strdataToBuf m buf (BitVec.ofNat 64 n) strs).2 =
        if strBytes strs ≤ n then BitVec.ofNat 64 (strBytes strs) else ssizeError := by
  rcases hstrs with rfl | hsmall
  · refine ⟨overwrites_id buf, fun m => ?_⟩
    simp [strdataToBuf, strdataToBufLoop]
  · obtain ⟨hover, hleft⟩ := @strdataToBufLoop_walk strs buf n hsmall
    have hrun (m : Mem) : strdataToBuf m buf (BitVec.ofNat 64 n) strs =
        ((strdataToBufLoop m buf (BitVec.ofNat 64 n) strs).1,
          if strBytes strs ≤ n then BitVec.ofNat 64 (strBytes strs) else ssizeError) := by
      have hm := hleft m
      rw [strdataToBuf]
      split
      · next m' hloop =>
        rw [hloop] at hm ⊢
        split at hm
        · cases hm
        · next hfit => rw [if_neg hfit]
      · next m' left hloop =>
        rw [hloop] at hm ⊢
        split at hm
        · next hfit =>
          rw [if_pos hfit, Option.some.inj hm, ofNat_sub_ofNat hn (by omega),
            Nat.sub_sub_self hfit]
        · cases hm
    simp only [hrun]
    exact ⟨hover, fun _ => trivial⟩

/-- With a size that `ssize_t` takes for negative, nothing is written. -/
theorem strdataToBuf_negative {strs : List CString} {n : ℕ} (hn : n < 2 ^ 64)
    (hbig : 2 ^ 63 + 8 ≤ n) (hstrs : strs ≠ []) (m : Mem) (buf : Addr) :
    strdataToBuf m buf (BitVec.ofNat 64 n) strs = (m, ssizeError) := by
  obtain ⟨s, rest, rfl⟩ := List.exists_cons_of_ne_nil hstrs
  have hneg : (BitVec.ofNat 64 n - 8#64).slt 0#64 = true := by
    rw [ofNat_sub_ofNat hn (by omega), slt_zero_ofNat_iff (by omega)]
    omega
  simp only [strdataToBuf, strdataToBufLoop, bufWalk, if_pos hneg]

/-- The last steps of the encoder: what is left of `n` bytes behind the header
and `k` bytes of strings. -/
theorem soscIpcMsgToBuf_avail {n k : ℕ} (hn : n < 2 ^ 64) (hhead : sizeofMsg ≤ n)
    (hk : k ≤ n) (hpos : k < 2 ^ 63) (hsmall : k = 0 ∨ n < 2 ^ 63 + 8) :
    (if (BitVec.ofNat 64 n - BitVec.ofNat 64 sizeofMsg - BitVec.ofNat 64 k).slt 0#64 = true
      then none
      else some (BitVec.ofNat 64 n -
        (BitVec.ofNat 64 n - BitVec.ofNat 64 sizeofMsg - BitVec.ofNat 64 k))) =
      if n - sizeofMsg < 2 ^ 63 ∧ sizeofMsg + k ≤ n then
        some (BitVec.ofNat 64 (sizeofMsg + k)) else none := by
  have hsize : sizeofMsg = 32 := rfl
  rw [ofNat_sub_ofNat hn hhead]
  by_cases hfit : sizeofMsg + k ≤ n
  · have hret : BitVec.ofNat 64 n - BitVec.ofNat 64 (n - sizeofMsg - k) =
        BitVec.ofNat 64 (sizeofMsg + k) := by
      rw [ofNat_sub_ofNat hn (by omega), show n - (n - sizeofMsg - k) = sizeofMsg + k by omega]
    rw [ofNat_sub_ofNat (by omega) (by omega), hret]
    by_cases hleft : n - sizeofMsg < 2 ^ 63
    · rw [slt_zero_ofNat (by omega), if_neg Bool.false_ne_true, if_pos ⟨hleft, hfit⟩]
    · rw [(slt_zero_ofNat_iff (by omega)).mpr (by omega), if_pos rfl, if_neg fun h => hleft h.1]
  · -- the counter goes below zero
    have hnone := bufWalk_eq_none 0#64 (a := n - sizeofMsg) (k := k) (by omega) (by omega)
    have hneg : (BitVec.ofNat 64 (n - sizeofMsg) - BitVec.ofNat 64 k).slt 0#64 = true := by
      by_contra hpos
      rw [bufWalk, if_neg hpos] at hnone
      cases hnone
    rw [hneg, if_pos rfl, if_neg fun h => hfit h.2]

section Encoder

variable {strAt : Addr → CString} {raw : SoscIpcMsg} {c : IpcMsg} {n : ℕ}

/-- The encoder for a buffer that takes the header: where it writes, and what it
returns. -/
theorem soscIpcMsgToBuf_walk (hc : raw.contents strAt = some c) (hn : n < 2 ^ 64)
    (hhead : sizeofMsg ≤ n) (buf : Addr) (hstrs : c.strings = [] ∨ n < 2 ^ 63 + 8) :
    Overwrites (fun m => (soscIpcMsgToBuf strAt m buf (BitVec.ofNat 64 n) raw).mem) buf
        (sizeofMsg + walked n (walkSizes c.strings)) ∧
      ∀ m, (soscIpcMsgToBuf strAt m buf (BitVec.ofNat 64 n) raw).ret =
        if strBytes c.strings ≤ n ∧ strBytes c.strings < 2 ^ 63 then
          if n - sizeofMsg < 2 ^ 63 ∧ c.wireSize ≤ n then some (BitVec.ofNat 64 c.wireSize)
          else none
        else some ssizeError := by
  have hsize : sizeofMsg = 32 := rfl
  have hwire : c.wireSize = sizeofMsg + strBytes c.strings := rfl
  have hbig : ¬ (BitVec.ofNat 64 n).toNat < sizeofMsg := by
    rw [BitVec.toNat_ofNat, Nat.mod_eq_of_lt hn]
    omega
  have hwalked := walked_le n (walkSizes c.strings)
  obtain ⟨hover, hret⟩ := strdataToBuf_walk hn (buf + BitVec.ofNat 64 sizeofMsg) hstrs
  have hheader := overwrites_write buf raw.setMagic.image
  rw [SoscIpcMsg.length_image] at hheader
  constructor
  · have hmem (m : Mem) : (soscIpcMsgToBuf strAt m buf (BitVec.ofNat 64 n) raw).mem =
        (strdataToBuf (write m buf raw.setMagic.image) (buf + BitVec.ofNat 64 sizeofMsg)
          (BitVec.ofNat 64 n) c.strings).1 := by
      simp only [soscIpcMsgToBuf, if_neg hbig, stringsToBuf_eq hc]
      split <;> rfl
    simp only [hmem]
    refine hover.comp hheader ?_
    rcases hstrs with hnil | hsmall
    · rw [hnil, walkSizes, List.flatMap_nil, walked]
      omega
    · omega
  · intro m
    simp only [soscIpcMsgToBuf, if_neg hbig, stringsToBuf_eq hc, hret]
    by_cases hfit : strBytes c.strings ≤ n
    · have hnil : c.strings = [] → strBytes c.strings = 0 := fun h => by rw [h]; rfl
      rw [if_pos hfit]
      by_cases hpos : strBytes c.strings < 2 ^ 63
      · rw [slt_zero_ofNat hpos, if_neg Bool.false_ne_true, if_pos (And.intro hfit hpos)]
        exact soscIpcMsgToBuf_avail hn hhead hfit hpos (hstrs.imp_left hnil)
      · rw [(slt_zero_ofNat_iff (by omega)).mpr (by omega), if_pos rfl,
          if_neg fun h => hpos h.2]
    · rw [if_neg hfit, ssizeError_slt, if_pos rfl, if_neg (fun h => hfit h.1)]

/-- With too large a size for a message with strings, the header is all that is
written. -/
theorem soscIpcMsgToBuf_negative (hc : raw.contents strAt = some c) (hn : n < 2 ^ 64)
    (hbig : 2 ^ 63 + 8 ≤ n) (hstrs : c.strings ≠ []) (m : Mem) (buf : Addr) :
    (soscIpcMsgToBuf strAt m buf (BitVec.ofNat 64 n) raw).mem =
        write m buf raw.setMagic.image ∧
      (soscIpcMsgToBuf strAt m buf (BitVec.ofNat 64 n) raw).ret = some ssizeError := by
  have hhead : ¬ (BitVec.ofNat 64 n).toNat < sizeofMsg := by
    rw [BitVec.toNat_ofNat, Nat.mod_eq_of_lt hn, sizeofMsg]
    omega
  have hstr := stringsToBuf_eq hc (write m buf raw.setMagic.image)
    (buf + BitVec.ofNat 64 sizeofMsg) (BitVec.ofNat 64 n)
  rw [strdataToBuf_negative hn hbig hstrs] at hstr
  simp only [soscIpcMsgToBuf, if_neg hhead, hstr, ssizeError_slt, if_true, and_self]

theorem encoderRoom_iff {n : ℕ} {c : IpcMsg} (hhead : sizeofMsg ≤ n)
    (hstrs : c.strings = [] ∨ n < 2 ^ 63 + 8) :
    EncoderRoom n c ↔
      n - sizeofMsg < 2 ^ 63 ∧ sizeofMsg + walked n (walkSizes c.strings) ≤ n := by
  have hsize : sizeofMsg = 32 := rfl
  rw [EncoderRoom, or_iff_right (Nat.not_lt.mpr hhead)]
  by_cases hnil : c.strings = []
  · rw [if_pos hnil, hnil, walkSizes, List.flatMap_nil, walked]
    omega
  · have hsmall := hstrs.resolve_left hnil
    have hle := @walked_le_iff n (n - sizeofMsg) (walkSizes c.strings)
    rw [if_neg hnil, if_pos hsmall]
    constructor
    · intro hroom
      have := hle.mpr fun done hdone hn => by have := hroom done hdone hn; omega
      omega
    · rintro ⟨-, hroom⟩ done hdone hn
      have := hle.mp (by omega) done hdone hn
      omega

/-- The encoder is right if it refuses a message that does not fit. -/
theorem encodesInside_of_refused {buf : Addr} {n : BitVec 64}
    (hinside : ∀ m q, n.toNat ≤ (q - buf).toNat →
      (soscIpcMsgToBuf strAt m buf n raw).mem q = m q)
    (hret : ∀ m, (soscIpcMsgToBuf strAt m buf n raw).ret = some ssizeError)
    (hshort : n.toNat < c.wireSize) : EncodesInside strAt buf n raw c where
  inside := hinside
  asserted m := by
    rw [hret]
    exact Option.some_ne_none _
  refuses m := iff_of_true (hret m) hshort
  returns m hle := absurd hshort (Nat.not_lt.mpr hle)

/-- The encoder is right if it returns the size of a message that fits. -/
theorem encodesInside_of_returned {buf : Addr} {n : BitVec 64}
    (hinside : ∀ m q, n.toNat ≤ (q - buf).toNat →
      (soscIpcMsgToBuf strAt m buf n raw).mem q = m q)
    (hret : ∀ m, (soscIpcMsgToBuf strAt m buf n raw).ret = some (BitVec.ofNat 64 c.wireSize))
    (hsmall : c.wireSize < 2 ^ 63 + sizeofMsg) (hfit : c.wireSize ≤ n.toNat) :
    EncodesInside strAt buf n raw c where
  inside := hinside
  asserted m := by
    rw [hret]
    exact Option.some_ne_none _
  refuses m := by
    have hne : BitVec.ofNat 64 c.wireSize ≠ ssizeError := by
      intro h
      have hnat := congrArg BitVec.toNat h
      rw [BitVec.toNat_ofNat, ssizeError_toNat] at hnat
      have hsize : sizeofMsg = 32 := rfl
      omega
    rw [hret, Option.some.injEq]
    exact iff_of_false hne (Nat.not_lt.mpr hfit)
  returns m _ := hret m

/-- A buffer that has room for the header, where the strings are walked. -/
theorem encodesInside_walk_iff (hc : raw.contents strAt = some c) (hn : n < 2 ^ 64)
    (hhead : sizeofMsg ≤ n) (buf : Addr) (hstrs : c.strings = [] ∨ n < 2 ^ 63 + 8) :
    EncodesInside strAt buf (BitVec.ofNat 64 n) raw c ↔ EncoderRoom n c := by
  have hnat : (BitVec.ofNat 64 n).toNat = n := by
    rw [BitVec.toNat_ofNat, Nat.mod_eq_of_lt hn]
  have hsize : sizeofMsg = 32 := rfl
  have hwire : c.wireSize = sizeofMsg + strBytes c.strings := rfl
  obtain ⟨hover, hret⟩ := soscIpcMsgToBuf_walk hc hn hhead buf hstrs
  have hwalked := walked_le n (walkSizes c.strings)
  have hsum := sum_walkSizes c.strings
  have hnil : c.strings = [] → strBytes c.strings = 0 := fun h => by rw [h]; rfl
  have hwithin := hover.within_iff (n := n) (by
    rcases hstrs with h | h
    · rw [h, walkSizes, List.flatMap_nil, walked]
      omega
    · omega)
  rw [encoderRoom_iff hhead hstrs]
  constructor
  · intro h
    have hinside := hwithin.mp (by simpa only [hnat] using h.inside)
    refine ⟨?_, hinside⟩
    rcases hstrs with hempty | hsmall
    · by_contra hleft
      refine h.asserted (fun _ => 0) ?_
      rw [hret, hnil hempty, if_pos ⟨Nat.zero_le n, by omega⟩, if_neg fun h => hleft h.1]
    · omega
  · rintro ⟨hleft, hinside⟩
    have hkeep := hwithin.mpr hinside
    by_cases hfit : strBytes c.strings ≤ n
    · have hall := walked_of_sum_le (hsum.trans_le hfit)
      refine encodesInside_of_returned (by simpa only [hnat] using hkeep) (fun m => ?_)
        (by omega) (by omega)
      rw [hret, if_pos ⟨hfit, by omega⟩, if_pos ⟨hleft, by omega⟩]
    · refine encodesInside_of_refused (by simpa only [hnat] using hkeep) (fun m => ?_) (by omega)
      rw [hret, if_neg fun h => hfit h.1]

/-- The encoder is right with a buffer of `n` bytes exactly when there is room
for the message or the code notices that there is none. -/
theorem soscIpcMsgToBuf_inside_iff (strAt : Addr → CString) (buf : Addr) (n : BitVec 64)
    (raw : SoscIpcMsg) (c : IpcMsg) (hc : raw.contents strAt = some c) :
    EncodesInside strAt buf n raw c ↔ EncoderRoom n.toNat c := by
  obtain ⟨a, ha, rfl⟩ : ∃ a < 2 ^ 64, n = BitVec.ofNat 64 a := ⟨n.toNat, n.isLt, by simp⟩
  have hnat : (BitVec.ofNat 64 a).toNat = a := by
    rw [BitVec.toNat_ofNat, Nat.mod_eq_of_lt ha]
  have hsize : sizeofMsg = 32 := rfl
  have hwire : c.wireSize = sizeofMsg + strBytes c.strings := rfl
  rw [hnat]
  rcases Nat.lt_or_ge a sizeofMsg with hshort | hhead
  · -- refused before anything is written
    have hrun (m : Mem) : soscIpcMsgToBuf strAt m buf (BitVec.ofNat 64 a) raw =
        { mem := m, msg := raw, ret := some ssizeError } := by
      rw [soscIpcMsgToBuf, if_pos (by rw [hnat]; exact hshort)]
    refine iff_of_true (encodesInside_of_refused (fun m q _ => ?_) (fun m => ?_) (by omega))
      (.inl hshort)
    · rw [hrun]
    · rw [hrun]
  by_cases hstrs : c.strings = [] ∨ a < 2 ^ 63 + 8
  · exact encodesInside_walk_iff hc ha hhead buf hstrs
  · obtain ⟨hne, hbig⟩ := not_or.mp hstrs
    have hrun (m : Mem) := soscIpcMsgToBuf_negative hc ha (by omega) hne m buf
    rw [EncoderRoom, or_iff_right (Nat.not_lt.mpr hhead), if_neg hne, if_neg hbig]
    constructor
    · intro h
      have hrefused := (h.refuses fun _ => 0).mp (hrun _).2
      rwa [hnat] at hrefused
    · intro hroom
      refine encodesInside_of_refused (fun m q hq => ?_) (fun m => (hrun m).2) (by omega)
      rw [hnat] at hq
      rw [(hrun m).1]
      apply write_outside
      rw [SoscIpcMsg.length_image]
      omega

end Encoder

/-! ## Local buffers -/

/-- The encoder writes over the end of a buffer of `SOSC_IPC_MSG_BUFFER_SIZE` bytes. -/
def IpcMsg.Overruns (c : IpcMsg) : Prop :=
  soscIpcMsgBufferSize < sizeofMsg + walked soscIpcMsgBufferSize (walkSizes c.strings)

instance (c : IpcMsg) : Decidable c.Overruns := inferInstanceAs (Decidable (_ < _))

theorem overruns_iff (c : IpcMsg) : c.Overruns ↔ ¬ EncoderRoom soscIpcMsgBufferSize c := by
  have hbuffer : soscIpcMsgBufferSize = 256 := rfl
  have hsize : sizeofMsg = 32 := rfl
  rw [encoderRoom_iff (by decide) (.inr (by omega)), IpcMsg.Overruns]
  omega

/-- A message that fits is no such message. -/
theorem not_overruns_of_fits {c : IpcMsg} (hfit : c.wireSize ≤ soscIpcMsgBufferSize) :
    ¬ c.Overruns := by
  have hwire : c.wireSize = sizeofMsg + strBytes c.strings := rfl
  have hsum := sum_walkSizes c.strings
  rw [IpcMsg.Overruns, walked_of_sum_le (by omega)]
  omega

/-- One that does not fit is refused, if its strings are too long for the buffer by
themselves. -/
theorem strBytes_of_not_overruns {c : IpcMsg} (hfit : ¬ c.wireSize ≤ soscIpcMsgBufferSize)
    (hroom : ¬ c.Overruns) : soscIpcMsgBufferSize < strBytes c.strings := by
  have hwire : c.wireSize = sizeofMsg + strBytes c.strings := rfl
  have hsum := sum_walkSizes c.strings
  by_contra hle
  rw [IpcMsg.Overruns, walked_of_sum_le (by omega)] at hroom
  omega

/-- The names that a `SOSC_DEVICE_CONNECTION` must not have. -/
theorem overruns_deviceConnection_iff (devnode : CString) :
    (IpcMsg.deviceConnection devnode).Overruns ↔
      215 ≤ devnode.length ∧ devnode.length ≤ 248 := by
  have hbuffer : soscIpcMsgBufferSize = 256 := rfl
  have hsize : sizeofMsg = 32 := rfl
  have hsizes : walkSizes (IpcMsg.deviceConnection devnode).strings =
      [8, devnode.length, 2] := rfl
  rw [IpcMsg.Overruns, hsizes]
  simp only [walked, hbuffer, hsize]
  split_ifs <;> omega

/-- A `SOSC_DEVICE_CONNECTION`, as it is before its magic is set. -/
def connectionMsg : SoscIpcMsg where
  type := 0
  pad0 := 0
  word0 := 0
  word1 := 0
  magic := 0
  pad1 := 0

/-- A name that `SOSC_IPC_MSG_BUFFER_SIZE` has no room for, though it has room
for the name alone. -/
def longName : CString where
  bytes := List.replicate 220 97
  nulFree h := absurd (List.eq_of_mem_replicate h) (by decide)
  length_lt' := by
    rw [List.length_replicate]
    omega

/-- The encoder aborts where it should return `-1`. -/
theorem not_soscIpcMsgToBuf_inside :
    ¬ ∀ (strAt : Addr → CString) (buf : Addr) (n : BitVec 64) (raw : SoscIpcMsg) (c : IpcMsg),
      raw.contents strAt = some c → EncodesInside strAt buf n raw c := by
  intro h
  have hlong := h (fun _ => longName) 0#64 256#64 connectionMsg (.deviceConnection longName) rfl
  have hbytes : strBytes (IpcMsg.deviceConnection longName).strings = 230 := by
    have hlen : longName.length = 220 := List.length_replicate
    rw [IpcMsg.strings, strBytes_cons, strBytes_nil, hlen]
  have hcontents : connectionMsg.contents (fun _ => longName) =
      some (.deviceConnection longName) := rfl
  have hret := (soscIpcMsgToBuf_walk hcontents (n := 256) (by omega) (by decide) 0#64
    (.inr (by omega))).2 fun _ => 0
  refine hlong.asserted (fun _ => 0) (hret.trans ?_)
  rw [IpcMsg.wireSize, hbytes]
  rfl

/-- A name that fits. -/
theorem soscIpcMsgToBuf_inside_iff_short :
    EncodesInside (fun _ => .ofString "/dev/ttyUSB0") 0#64 256#64 connectionMsg
      (.deviceConnection (.ofString "/dev/ttyUSB0")) := by
  refine (soscIpcMsgToBuf_inside_iff _ _ _ _ _ rfl).mpr ?_
  refine .inr ?_
  decide

end Serialosc
