import Serialosc.Ipc.Message

/-!
# Serialising a message into a buffer

`strdataToBuf` and `soscIpcMsgToBuf` as the source computes them: the space
left is a signed 64-bit counter that is tested after each subtraction, and
the string part counts down from the size of the whole buffer.
-/

namespace Serialosc

open ByteMemory

/-- `-1` as a `ssize_t`. -/
def ssizeError : BitVec 64 := BitVec.ofInt 64 (-1)

/-- `BUF_WALK`: advance the cursor and fail when the space left is negative. -/
def bufWalk (buf : Addr) (avail bytes : BitVec 64) :
    Option (Addr × BitVec 64) :=
  if (avail - bytes).slt 0#64 then none else some (buf + bytes, avail - bytes)

theorem ofNat_sub_ofNat {a k : ℕ} (ha : a < 2 ^ 64) (hka : k ≤ a) :
    BitVec.ofNat 64 a - BitVec.ofNat 64 k = BitVec.ofNat 64 (a - k) := by
  apply BitVec.eq_of_toNat_eq
  simp only [BitVec.toNat_sub, BitVec.toNat_ofNat]
  omega

theorem slt_zero_ofNat_iff {a : ℕ} (ha : a < 2 ^ 64) :
    (BitVec.ofNat 64 a).slt 0#64 = true ↔ 2 ^ 63 ≤ a := by
  rw [BitVec.slt_zero_eq_msb, BitVec.msb_eq_decide, BitVec.toNat_ofNat,
    Nat.mod_eq_of_lt ha]
  simp

theorem slt_zero_ofNat {a : ℕ} (ha : a < 2 ^ 63) :
    (BitVec.ofNat 64 a).slt 0#64 = false := by
  apply Bool.eq_false_of_not_eq_true
  rw [slt_zero_ofNat_iff (by omega)]
  omega

theorem bufWalk_of_left (buf : Addr) {a k : ℕ} (ha : a < 2 ^ 64) (hka : k ≤ a)
    (hleft : a - k < 2 ^ 63) :
    bufWalk buf (BitVec.ofNat 64 a) (BitVec.ofNat 64 k) =
      some (buf + BitVec.ofNat 64 k, BitVec.ofNat 64 (a - k)) := by
  rw [bufWalk, ofNat_sub_ofNat ha hka, slt_zero_ofNat hleft]
  rfl

theorem bufWalk_ofNat (buf : Addr) {a k : ℕ} (ha : a < 2 ^ 63) (hka : k ≤ a) :
    bufWalk buf (BitVec.ofNat 64 a) (BitVec.ofNat 64 k) =
      some (buf + BitVec.ofNat 64 k, BitVec.ofNat 64 (a - k)) :=
  bufWalk_of_left buf (by omega) hka (by omega)

theorem bufWalk_eq_none (buf : Addr) {a k : ℕ} (hak : a < k) (hk : k ≤ 2 ^ 63) :
    bufWalk buf (BitVec.ofNat 64 a) (BitVec.ofNat 64 k) = none := by
  have hneg : (BitVec.ofNat 64 a - BitVec.ofNat 64 k).slt 0#64 = true := by
    rw [BitVec.slt_zero_eq_msb, BitVec.msb_eq_decide, BitVec.toNat_sub,
      BitVec.toNat_ofNat, BitVec.toNat_ofNat]
    simp
    omega
  rw [bufWalk, if_pos hneg]

theorem bufWalk_eq_some {buf buf' : Addr} {avail left bytes : BitVec 64}
    (hwalk : bufWalk buf avail bytes = some (buf', left)) :
    (avail - bytes).slt 0#64 = false ∧ buf' = buf + bytes ∧ left = avail - bytes := by
  by_cases hneg : (avail - bytes).slt 0#64 = true
  · simp [bufWalk, hneg] at hwalk
  · rw [bufWalk, if_neg hneg, Option.some.injEq, Prod.mk.injEq] at hwalk
    exact ⟨Bool.eq_false_of_not_eq_true hneg, hwalk.1.symm, hwalk.2.symm⟩

theorem ssizeError_toNat : ssizeError.toNat = 2 ^ 64 - 1 := by
  decide

theorem ssizeError_slt : ssizeError.slt 0#64 = true := by
  decide

/-- The loop of `strdata_to_buf` over its string arguments.  The second
component is the space left, or nothing when `BUF_WALK` has returned. -/
def strdataToBufLoop (m : Mem) (buf : Addr) (avail : BitVec 64) :
    List CString → Mem × Option (BitVec 64)
  | [] => (m, some avail)
  | cur :: rest =>
      let slen := BitVec.ofNat 64 cur.length
      match bufWalk buf avail 8#64 with
      | none => (m, none)
      | some (buf₁, avail₁) =>
          let m₁ := store 8 m buf slen
          match bufWalk buf₁ avail₁ slen with
          | none => (m₁, none)
          | some (buf₂, avail₂) =>
              let m₂ := write m₁ buf₁ cur.bytes
              match bufWalk buf₂ avail₂ 2#64 with
              | none => (m₂, none)
              | some (buf₃, avail₃) =>
                  strdataToBufLoop (store 2 m₂ buf₂ ipcMagic) buf₃ avail₃ rest

/-- `strdata_to_buf`. -/
def strdataToBuf (m : Mem) (buf : Addr) (nbytes : BitVec 64)
    (strs : List CString) : Mem × BitVec 64 :=
  match strdataToBufLoop m buf nbytes strs with
  | (m, none) => (m, ssizeError)
  | (m, some avail) => (m, nbytes - avail)

/-- What `sosc_ipc_msg_to_buf` leaves behind.  `ret` is absent when the
assertion on the space left fails and the process aborts. -/
structure Encoded where
  mem : Mem
  msg : SoscIpcMsg
  ret : Option (BitVec 64)

/-- The switch of `sosc_ipc_msg_to_buf` over the message type.  Both string
arms hand over `nbytes`, not what is left behind the header; an unknown type
returns `-1`, as a failed arm does. -/
def stringsToBuf (strAt : Addr → CString) (m : Mem) (buf : Addr)
    (nbytes : BitVec 64) (msg : SoscIpcMsg) : Mem × BitVec 64 :=
  match SoscIpcType.ofRaw msg.type with
  | some .deviceConnection => strdataToBuf m buf nbytes [strAt msg.devnode]
  | some .deviceInfo =>
      strdataToBuf m buf nbytes [strAt msg.serial, strAt msg.friendly]
  | some .deviceReady | some .deviceDisconnection
  | some .oscPortChange | some .processShouldExit => (m, 0#64)
  | none => (m, ssizeError)

/-- `sosc_ipc_msg_to_buf`. -/
def soscIpcMsgToBuf (strAt : Addr → CString) (m : Mem) (buf : Addr)
    (nbytes : BitVec 64) (msg : SoscIpcMsg) : Encoded :=
  if nbytes.toNat < sizeofMsg then
    { mem := m, msg := msg, ret := some ssizeError }
  else
    let msg := msg.setMagic
    let m := write m buf msg.image
    let avail := nbytes - BitVec.ofNat 64 sizeofMsg
    let r := stringsToBuf strAt m (buf + BitVec.ofNat 64 sizeofMsg) nbytes msg
    if r.2.slt 0#64 then
      { mem := r.1, msg := msg, ret := some ssizeError }
    else
      let avail := avail - r.2
      { mem := r.1, msg := msg,
        ret := if avail.slt 0#64 then none else some (nbytes - avail) }

/-! ## What the encoder writes -/

/-- The three stores that serialise one string. -/
def emitRecord (m : Mem) (buf : Addr) (s : CString) : Mem :=
  let slen := BitVec.ofNat 64 s.length
  store 2 (write (store 8 m buf slen) (buf + 8#64) s.bytes)
    (buf + 8#64 + slen) ipcMagic

theorem hasBytes_emitRecord
    {m : Mem} {p q : Addr} {pre old post : List UInt8} {s : CString}
    (hm : HasBytes m p (pre ++ old ++ post))
    (hq : q = p + BitVec.ofNat 64 pre.length)
    (hold : old.length = 8 + s.length + 2)
    (hsize : (pre ++ old ++ post).length < 2 ^ 64) :
    HasBytes (emitRecord m q s) p (pre ++ strRecord s ++ post) := by
  obtain ⟨o₁, o₂, o₃, rfl, h₁, h₂, h₃⟩ : ∃ o₁ o₂ o₃, old = o₁ ++ o₂ ++ o₃ ∧
      o₁.length = 8 ∧ o₂.length = s.length ∧ o₃.length = 2 := by
    refine ⟨old.take 8, (old.drop 8).take s.length, old.drop (8 + s.length),
      ?_, ?_, ?_, ?_⟩
    · rw [List.append_assoc, ← List.drop_drop, List.take_append_drop,
        List.take_append_drop]
    all_goals simp; omega
  have hslen := s.length_lt
  simp only [List.length_append] at hsize
  have hnat : (BitVec.ofNat (8 * 8) s.length).toNat = s.length := by
    rw [BitVec.toNat_ofNat, Nat.mod_eq_of_lt (by omega)]
  have hm₁ : HasBytes (write m q (leBytes 8 s.length)) p
      (pre ++ leBytes 8 s.length ++ (o₂ ++ o₃ ++ post)) :=
    hasBytes_write pre _ (by simpa only [List.append_assoc] using hm) hq
      (by simp [h₁]) (by simp only [List.length_append]; omega)
  have hm₂ : HasBytes
      (write (write m q (leBytes 8 s.length)) (q + 8#64) s.bytes) p
      (pre ++ leBytes 8 s.length ++ s.bytes ++ (o₃ ++ post)) :=
    hasBytes_write (pre ++ leBytes 8 s.length) _
      (by simpa only [List.append_assoc] using hm₁)
      (by rw [hq, offset_add]; simp)
      h₂.symm
      (by simp only [List.length_append, length_leBytes]; omega)
  have hm₃ : HasBytes (emitRecord m q s) p
      (pre ++ leBytes 8 s.length ++ s.bytes ++ leBytes 2 ipcMagic.toNat ++ post) := by
    simp only [emitRecord, store, hnat]
    exact hasBytes_write (pre ++ leBytes 8 s.length ++ s.bytes) post
      (by simpa only [List.append_assoc] using hm₂)
      (by rw [hq, offset_add, offset_add]; simp)
      (by rw [h₃, length_leBytes])
      (by simp only [List.length_append, length_leBytes, CString.length_bytes]; omega)
  simpa only [strRecord_eq, List.append_assoc] using hm₃

/-- A string that fits is emitted, and the loop goes on behind it. -/
theorem strdataToBufLoop_cons
    {m : Mem} {buf : Addr} {s : CString} {rest : List CString} {a : ℕ}
    (ha : a < 2 ^ 63) (hfit : 8 + s.length + 2 ≤ a) :
    strdataToBufLoop m buf (BitVec.ofNat 64 a) (s :: rest) =
      strdataToBufLoop (emitRecord m buf s)
        (buf + BitVec.ofNat 64 (8 + s.length + 2))
        (BitVec.ofNat 64 (a - (8 + s.length + 2))) rest := by
  have h₁ := bufWalk_ofNat buf (k := 8) ha (by omega)
  have h₂ := bufWalk_ofNat (buf + 8#64) (a := a - 8) (k := s.length)
    (by omega) (by omega)
  have h₃ := bufWalk_ofNat (buf + 8#64 + BitVec.ofNat 64 s.length)
    (a := a - 8 - s.length) (k := 2) (by omega) (by omega)
  have haddr : buf + 8#64 + BitVec.ofNat 64 s.length + 2#64 =
      buf + BitVec.ofNat 64 (8 + s.length + 2) := by
    rw [BitVec.ofNat_add, BitVec.ofNat_add, ← BitVec.add_assoc,
      ← BitVec.add_assoc]
  have havail : a - 8 - s.length - 2 = a - (8 + s.length + 2) := by omega
  rw [strdataToBufLoop]
  simp only [h₁, h₂, h₃, haddr, havail, emitRecord]

/-- The string loop writes the records and nothing behind them, as long as
the space it was given suffices. -/
theorem strdataToBufLoop_spec
    {m : Mem} {p q : Addr} {pre old post : List UInt8} {strs : List CString}
    {a : ℕ} (hm : HasBytes m p (pre ++ old ++ post))
    (hq : q = p + BitVec.ofNat 64 pre.length)
    (hold : old.length = strBytes strs)
    (hsize : (pre ++ old ++ post).length < 2 ^ 64)
    (ha : a < 2 ^ 63) (hfit : strBytes strs ≤ a) :
    ∃ m', strdataToBufLoop m q (BitVec.ofNat 64 a) strs =
        (m', some (BitVec.ofNat 64 (a - strBytes strs))) ∧
      HasBytes m' p (pre ++ strRecords strs ++ post) := by
  induction strs generalizing m q pre old a with
  | nil =>
    have hnil : old = [] :=
      List.length_eq_zero_iff.mp (by simpa using hold)
    subst hnil
    exact ⟨m, by simp [strdataToBufLoop],
      by simpa using hm⟩
  | cons s rest ih =>
    have hcons : strBytes (s :: rest) = 8 + s.length + 2 + strBytes rest := by
      simp
    rw [hcons] at hold hfit ⊢
    obtain ⟨o₁, o₂, rfl, h₁⟩ :
        ∃ o₁ o₂, old = o₁ ++ o₂ ∧ o₁.length = 8 + s.length + 2 :=
      ⟨old.take (8 + s.length + 2), old.drop (8 + s.length + 2),
        (List.take_append_drop _ _).symm, by simp; omega⟩
    simp only [List.length_append] at hold hsize
    have hm₀ : HasBytes m p (pre ++ o₁ ++ (o₂ ++ post)) := by
      simpa only [List.append_assoc] using hm
    have hemit : HasBytes (emitRecord m q s) p
        (pre ++ strRecord s ++ o₂ ++ post) := by
      simpa only [List.append_assoc] using hasBytes_emitRecord hm₀ hq h₁
        (by simp only [List.length_append]; omega)
    have hq' : q + BitVec.ofNat 64 (8 + s.length + 2) =
        p + BitVec.ofNat 64 (pre ++ strRecord s).length := by
      rw [hq, offset_add, List.length_append, length_strRecord]
    obtain ⟨m', hloop, hm'⟩ := ih hemit hq' (a := a - (8 + s.length + 2))
      (by omega) (by simp only [List.length_append, length_strRecord]; omega)
      (by omega) (by omega)
    refine ⟨m', ?_, ?_⟩
    · rw [strdataToBufLoop_cons ha (by omega), hloop, Nat.sub_sub]
    · simpa only [strRecords_cons, List.append_assoc] using hm'

theorem strdataToBuf_spec
    {m : Mem} {p q : Addr} {pre old post : List UInt8} {strs : List CString}
    {n : ℕ} (hm : HasBytes m p (pre ++ old ++ post))
    (hq : q = p + BitVec.ofNat 64 pre.length)
    (hold : old.length = strBytes strs)
    (hsize : (pre ++ old ++ post).length < 2 ^ 64)
    (hn : n < 2 ^ 63) (hfit : strBytes strs ≤ n) :
    ∃ m', strdataToBuf m q (BitVec.ofNat 64 n) strs =
        (m', BitVec.ofNat 64 (strBytes strs)) ∧
      HasBytes m' p (pre ++ strRecords strs ++ post) := by
  obtain ⟨m', hloop, hm'⟩ := strdataToBufLoop_spec hm hq hold hsize hn hfit
  refine ⟨m', ?_, hm'⟩
  have hret : BitVec.ofNat 64 n - BitVec.ofNat 64 (n - strBytes strs) =
      BitVec.ofNat 64 (strBytes strs) := by
    rw [ofNat_sub_ofNat (by omega) (by omega), Nat.sub_sub_self hfit]
  simp only [strdataToBuf, hloop, hret]

theorem stringsToBuf_spec
    {strAt : Addr → CString} {m : Mem} {p q : Addr} {pre old : List UInt8}
    {n : ℕ} {msg : SoscIpcMsg} {c : IpcMsg} (hc : msg.contents strAt = some c)
    (hm : HasBytes m p (pre ++ old))
    (hq : q = p + BitVec.ofNat 64 pre.length)
    (hold : old.length = strBytes c.strings)
    (hsize : (pre ++ old).length < 2 ^ 64)
    (hn : n < 2 ^ 63) (hfit : strBytes c.strings ≤ n) :
    ∃ m', stringsToBuf strAt m q (BitVec.ofNat 64 n) msg =
        (m', BitVec.ofNat 64 (strBytes c.strings)) ∧
      HasBytes m' p (pre ++ strRecords c.strings) := by
  have hm₀ : HasBytes m p (pre ++ old ++ []) := by simpa using hm
  have hspec := strdataToBuf_spec hm₀ hq hold (by simpa using hsize) hn hfit
  have hnone (hstr : c.strings = []) : HasBytes m p (pre ++ strRecords c.strings) := by
    have hnil : old = [] :=
      List.length_eq_zero_iff.mp (by simpa [hstr] using hold)
    simpa [hstr, hnil] using hm
  cases htype : SoscIpcType.ofRaw msg.type with
  | none => simp [SoscIpcMsg.contents, htype] at hc
  | some type =>
    simp only [SoscIpcMsg.contents, htype] at hc
    simp only [stringsToBuf, htype]
    cases type with
    | deviceConnection =>
      obtain rfl := Option.some.inj hc
      simpa only [IpcMsg.strings, List.append_nil] using hspec
    | deviceInfo =>
      obtain rfl := Option.some.inj hc
      simpa only [IpcMsg.strings, List.append_nil] using hspec
    | deviceReady =>
      obtain rfl := Option.some.inj hc
      exact ⟨m, rfl, hnone rfl⟩
    | deviceDisconnection =>
      obtain rfl := Option.some.inj hc
      exact ⟨m, rfl, hnone rfl⟩
    | oscPortChange =>
      obtain rfl := Option.some.inj hc
      exact ⟨m, rfl, hnone rfl⟩
    | processShouldExit =>
      obtain rfl := Option.some.inj hc
      exact ⟨m, rfl, hnone rfl⟩

/-- A message that fits is written in its wire format, and the byte count is
returned. -/
theorem soscIpcMsgToBuf_spec
    {strAt : Addr → CString} (m : Mem) (buf : Addr) {n : ℕ}
    {msg : SoscIpcMsg} {c : IpcMsg} (hc : msg.contents strAt = some c)
    (hfit : c.wireSize ≤ n) (hn : n < 2 ^ 63) :
    ∃ m', soscIpcMsgToBuf strAt m buf (BitVec.ofNat 64 n) msg =
        { mem := m', msg := msg.setMagic,
          ret := some (BitVec.ofNat 64 c.wireSize) } ∧
      HasBytes m' buf (wireBytes msg c) := by
  rw [IpcMsg.wireSize] at hfit ⊢
  have hraw : msg.setMagic.contents strAt = some c := hc
  have hheader : HasBytes (write m buf msg.setMagic.image) buf
      (msg.setMagic.image ++
        read m (buf + BitVec.ofNat 64 sizeofMsg) (strBytes c.strings)) := by
    have hall : HasBytes m buf ([] ++ read m buf sizeofMsg ++
        read m (buf + BitVec.ofNat 64 sizeofMsg) (strBytes c.strings)) := by
      rw [List.nil_append, hasBytes_append]
      exact ⟨hasBytes_read m buf _, by simpa using hasBytes_read m _ _⟩
    exact hasBytes_write [] _ hall (by simp) (by simp) (by simp; omega)
  obtain ⟨m', hstrings, hm'⟩ := stringsToBuf_spec hraw hheader
    (by rw [SoscIpcMsg.length_image]) (by simp) (by simp; omega) hn (by omega)
  have hbig : ¬ (BitVec.ofNat 64 n).toNat < sizeofMsg := by
    rw [BitVec.toNat_ofNat, Nat.mod_eq_of_lt (by omega)]
    omega
  have havail : BitVec.ofNat 64 n - BitVec.ofNat 64 sizeofMsg -
      BitVec.ofNat 64 (strBytes c.strings) =
      BitVec.ofNat 64 (n - (sizeofMsg + strBytes c.strings)) := by
    rw [ofNat_sub_ofNat (by omega) (by omega),
      ofNat_sub_ofNat (by omega) (by omega), Nat.sub_sub]
  have hret : BitVec.ofNat 64 n -
      BitVec.ofNat 64 (n - (sizeofMsg + strBytes c.strings)) =
      BitVec.ofNat 64 (sizeofMsg + strBytes c.strings) := by
    rw [ofNat_sub_ofNat (by omega) (Nat.sub_le n _), Nat.sub_sub_self hfit]
  have hstr : (BitVec.ofNat 64 (strBytes c.strings)).slt 0#64 = false :=
    slt_zero_ofNat (by omega)
  have hleft : (BitVec.ofNat 64
      (n - (sizeofMsg + strBytes c.strings))).slt 0#64 = false :=
    slt_zero_ofNat (by omega)
  refine ⟨m', ?_, hm'⟩
  simp only [soscIpcMsgToBuf, if_neg hbig, hstrings, havail, hret, hstr, hleft,
    Bool.false_eq_true, if_false]

end Serialosc
