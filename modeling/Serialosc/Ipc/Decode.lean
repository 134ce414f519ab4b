import Serialosc.Ipc.Encode

/-!
# Reading a message out of a buffer

`soscIpcMsgFromBuf` decodes in place: the message is the buffer itself, its
pointer members are overwritten, and the first byte behind each string is
turned into a terminator before the string is copied.  As on the writing
side, the string part counts down from the size of the whole buffer.

A decoder that is handed garbage moves its cursor by whatever length it
finds, so every address here is computed modulo `2 ^ 64`.
-/

namespace Serialosc

open ByteMemory

/-- The decoding process: its memory, and the strings that `s_strdup` has
handed out so far. -/
structure Heap where
  mem : Mem
  copies : List CString

/-- Assign to a pointer variable. -/
def Heap.storePtr (h : Heap) (p v : Addr) : Heap :=
  { h with mem := store 8 h.mem p v }

@[simp] theorem Heap.copies_storePtr (h : Heap) (p v : Addr) :
    (h.storePtr p v).copies = h.copies := rfl

/-- `s_strdup`.  The allocator places the `k`-th copy at `malloc k`. -/
def sStrdup (malloc : ℕ → Addr) (h : Heap) (p : Addr) : Addr × Heap :=
  (malloc h.copies.length, { h with copies := h.copies ++ [cstringAt h.mem p] })

/-- The loop of `strdata_from_buf`; `curs` are the pointer variables to set.
The second component is the space left, or nothing when the function has
returned `-1`. -/
def strdataFromBufLoop (malloc : ℕ → Addr) (h : Heap) (buf : Addr)
    (avail : BitVec 64) : List Addr → Heap × Option (BitVec 64)
  | [] => (h, some avail)
  | cur :: rest =>
      let h₁ := h.storePtr cur 0#64
      match bufWalk buf avail 8#64 with
      | none => (h₁, none)
      | some (buf₁, avail₁) =>
          let slen : BitVec 64 := load 8 h₁.mem buf
          match bufWalk buf₁ avail₁ slen with
          | none => (h₁, none)
          | some (buf₂, avail₂) =>
              let h₂ := h₁.storePtr cur buf₁
              match bufWalk buf₂ avail₂ 2#64 with
              | none => (h₂, none)
              | some (buf₃, avail₃) =>
                  if load 2 h₂.mem buf₂ ≠ ipcMagic then
                    (h₂.storePtr cur 0#64, none)
                  else
                    -- null-terminate the string, then copy it
                    let h₃ := { h₂ with mem := write h₂.mem (buf₃ - 2#64) [0] }
                    let (p, h₄) := sStrdup malloc h₃ (load 8 h₃.mem cur)
                    strdataFromBufLoop malloc (h₄.storePtr cur p) buf₃ avail₃ rest

/-- `strdata_from_buf`. -/
def strdataFromBuf (malloc : ℕ → Addr) (h : Heap) (buf : Addr)
    (nbytes : BitVec 64) (curs : List Addr) : Heap × BitVec 64 :=
  match strdataFromBufLoop malloc h buf nbytes curs with
  | (h, none) => (h, ssizeError)
  | (h, some avail) => (h, nbytes - avail)

/-- `&msg->connection.devnode` and `&msg->device_info.serial`. -/
def word0Addr (msg : Addr) : Addr := msg + 8#64

/-- `&msg->device_info.friendly`. -/
def word1Addr (msg : Addr) : Addr := msg + 16#64

/-- `&msg->magic`. -/
def magicAddr (msg : Addr) : Addr := msg + 24#64

/-- The switch of `sosc_ipc_msg_from_buf` over the known message types. -/
def stringsFromBuf (malloc : ℕ → Addr) (h : Heap) (msg buf : Addr)
    (nbytes : BitVec 64) : SoscIpcType → Heap × BitVec 64
  | .deviceConnection =>
      strdataFromBuf malloc (h.storePtr (word0Addr msg) 0#64) buf nbytes
        [word0Addr msg]
  | .deviceInfo =>
      strdataFromBuf malloc
        ((h.storePtr (word1Addr msg) 0#64).storePtr (word0Addr msg) 0#64)
        buf nbytes [word0Addr msg, word1Addr msg]
  | .deviceReady | .deviceDisconnection
  | .oscPortChange | .processShouldExit => (h, 0#64)

/-- What `sosc_ipc_msg_from_buf` leaves behind: the return value, and `*msg`,
which is absent when it was set to `NULL`. -/
structure Decoded where
  heap : Heap
  ret : BitVec 64
  msg : Option Addr

/-- `sosc_ipc_msg_from_buf`. -/
def soscIpcMsgFromBuf (malloc : ℕ → Addr) (h : Heap) (buf : Addr)
    (nbytes : BitVec 64) : Decoded :=
  if nbytes.toNat < sizeofMsg ∨ load 2 h.mem (magicAddr buf) ≠ ipcMagic then
    { heap := h, ret := ssizeError, msg := none }
  else
    let avail := nbytes - BitVec.ofNat 64 sizeofMsg
    match SoscIpcType.ofRaw (load 4 h.mem buf) with
    | none => { heap := h, ret := ssizeError, msg := some buf }
    | some type =>
        let r := stringsFromBuf malloc h buf
          (buf + BitVec.ofNat 64 sizeofMsg) nbytes type
        if r.2.slt 0#64 then
          { heap := r.1, ret := ssizeError, msg := none }
        else
          { heap := r.1, ret := nbytes - (avail - r.2), msg := some buf }

/-- What a handler finds through `msg`, where `strs` are the strings that the
pointer members were set to.  A terminator that lands on the header can turn
the type the strings were read for into `SOSC_DEVICE_CONNECTION`. -/
def readMsg (m : Mem) (msg : Addr) (strs : List CString) : Option IpcMsg :=
  match SoscIpcType.ofRaw (load 4 m msg), strs with
  | some .deviceConnection, devnode :: _ => some (.deviceConnection devnode)
  | some .deviceInfo, serial :: friendly :: _ =>
      some (.deviceInfo serial friendly)
  | some .deviceReady, _ => some .deviceReady
  | some .deviceDisconnection, _ => some .deviceDisconnection
  | some .oscPortChange, _ => some (.oscPortChange (load 2 m (word0Addr msg)))
  | some .processShouldExit, _ => some .processShouldExit
  | _, _ => none

/-- The message decoded from the heap `h`. -/
def Decoded.contents (h : Heap) (d : Decoded) : Option IpcMsg :=
  d.msg.bind fun msg =>
    readMsg d.heap.mem msg (d.heap.copies.drop h.copies.length)

/-! ## Decoding well-formed records -/

/-- A record after it has been read: the magic has lost its first
byte to the terminator. -/
def dataConsumed (d : List UInt8) : List UInt8 :=
  leBytes 8 d.length ++ d ++ [0, 0x50]

@[simp] theorem length_dataConsumed (d : List UInt8) :
    (dataConsumed d).length = 8 + d.length + 2 := by
  simp [dataConsumed, Nat.add_assoc]

theorem hasBytes_storePtr
    {h : Heap} {p q : Addr} (pre : List UInt8) {old : List UInt8}
    (post : List UInt8) (v : Addr) (hm : HasBytes h.mem p (pre ++ old ++ post))
    (hq : q = p + BitVec.ofNat 64 pre.length) (hold : old.length = 8)
    (hsize : (pre ++ old ++ post).length < 2 ^ 64) :
    HasBytes (h.storePtr q v).mem p (pre ++ leBytes 8 v.toNat ++ post) :=
  hasBytes_write pre post hm hq (by rw [length_leBytes, hold]) hsize

section Record

variable {m : Mem} {p buf : Addr} {front post d : List UInt8}

theorem load_dataRecord_length (hd : d.length < 2 ^ 63)
    (hm : HasBytes m p (front ++ dataRecord d ++ post))
    (hbuf : buf = p + BitVec.ofNat 64 front.length) :
    load 8 m buf = BitVec.ofNat (8 * 8) d.length := by
  have hnat : (BitVec.ofNat (8 * 8) d.length).toNat = d.length := by
    rw [BitVec.toNat_ofNat, Nat.mod_eq_of_lt (by omega)]
  apply load_eq
  rw [hnat]
  apply hasBytes_field front (d ++ leBytes 2 ipcMagic.toNat ++ post) _ hbuf
  simpa only [dataRecord, List.append_assoc] using hm

theorem load_dataRecord_magic
    (hm : HasBytes m p (front ++ dataRecord d ++ post))
    (hbuf : buf = p + BitVec.ofNat 64 front.length) :
    load 2 m (buf + 8#64 + BitVec.ofNat 64 d.length) = ipcMagic := by
  apply load_eq
  apply hasBytes_field (front ++ leBytes 8 d.length ++ d) post
  · simpa only [dataRecord, List.append_assoc] using hm
  · rw [hbuf, offset_add, offset_add]
    simp

/-- The terminator goes over the first byte of the magic. -/
theorem hasBytes_dataConsumed
    (hm : HasBytes m p (front ++ dataRecord d ++ post))
    (hbuf : buf = p + BitVec.ofNat 64 front.length)
    (hsize : (front ++ dataRecord d ++ post).length < 2 ^ 64) :
    HasBytes (write m (buf + 8#64 + BitVec.ofNat 64 d.length) [0]) p
      (front ++ dataConsumed d ++ post) := by
  have hmagic : leBytes 2 ipcMagic.toNat = [0x5C] ++ [0x50] := by decide
  have hm' : HasBytes m p
      (front ++ leBytes 8 d.length ++ d ++ [0x5C] ++ ([0x50] ++ post)) := by
    simpa only [dataRecord, hmagic, List.append_assoc] using hm
  have hwrite : HasBytes (write m (buf + 8#64 + BitVec.ofNat 64 d.length) [0]) p
      (front ++ leBytes 8 d.length ++ d ++ [0] ++ ([0x50] ++ post)) := by
    refine hasBytes_write (front ++ leBytes 8 d.length ++ d) _ hm' ?_
      (by simp) ?_
    · rw [hbuf, offset_add, offset_add]
      simp
    · simp only [List.length_append, length_dataRecord, length_leBytes,
        List.length_singleton] at hsize ⊢
      omega
  simpa only [dataConsumed, List.append_assoc, List.cons_append,
    List.nil_append] using hwrite

theorem cstringAt_dataConsumed (hd : d.length < 2 ^ 63)
    (hm : HasBytes m p (front ++ dataConsumed d ++ post))
    (hbuf : buf = p + BitVec.ofNat 64 front.length) :
    cstringAt m (buf + 8#64) = CString.ofBytes d := by
  refine cstringAt_ofBytes ?_ hd
  apply hasBytes_field (front ++ leBytes 8 d.length) ([0x50] ++ post)
  · simpa only [dataConsumed, List.append_assoc, List.cons_append,
      List.nil_append] using hm
  · rw [hbuf, offset_add]
    simp

end Record

/-- Reading one record: the string is copied, its pointer variable is set to
the copy, and nothing else but the terminator changes. -/
theorem strdataFromBufLoop_cons
    (malloc : ℕ → Addr) {h : Heap} {p cur buf : Addr}
    {pre ptr mid post d : List UInt8} {a : ℕ}
    (hm : HasBytes h.mem p (pre ++ ptr ++ mid ++ dataRecord d ++ post))
    (hptr : ptr.length = 8)
    (hcur : cur = p + BitVec.ofNat 64 pre.length)
    (hbuf : buf = p + BitVec.ofNat 64 (pre ++ ptr ++ mid).length)
    (hsize : (pre ++ ptr ++ mid ++ dataRecord d ++ post).length < 2 ^ 64)
    (ha : a < 2 ^ 63) (hfit : 8 + d.length + 2 ≤ a) (rest : List Addr) :
    ∃ m', HasBytes m' p
        (pre ++ leBytes 8 (malloc h.copies.length).toNat ++ mid ++
          dataConsumed d ++ post) ∧
      strdataFromBufLoop malloc h buf (BitVec.ofNat 64 a) (cur :: rest) =
        strdataFromBufLoop malloc { mem := m', copies := h.copies ++ [CString.ofBytes d] }
          (buf + BitVec.ofNat 64 (8 + d.length + 2))
          (BitVec.ofNat 64 (a - (8 + d.length + 2))) rest := by
  simp only [List.length_append, length_dataRecord] at hsize
  -- whatever pointer is stored in `cur`, the fields around it stay
  have hstore (g : Heap) (v : Addr) (old rec : List UInt8)
      (hg : HasBytes g.mem p (pre ++ old ++ mid ++ rec ++ post))
      (hold : old.length = 8) (hrec : rec.length = 8 + d.length + 2) :
      HasBytes (g.storePtr cur v).mem p
        (pre ++ leBytes 8 v.toNat ++ mid ++ rec ++ post) := by
    have hset := hasBytes_storePtr pre (mid ++ rec ++ post) v
      (by simpa only [List.append_assoc] using hg) hcur hold
      (by simp only [List.length_append]; omega)
    simpa only [List.append_assoc] using hset
  have hfront (v : Addr) :
      buf = p + BitVec.ofNat 64 (pre ++ leBytes 8 v.toNat ++ mid).length := by
    rw [hbuf]
    simp [hptr]
  have hm₁ := hstore h 0#64 ptr _ hm hptr (by simp)
  have hm₂ := hstore _ (buf + 8#64) _ _ hm₁ (by simp) (by simp)
  have hm₃ := hasBytes_dataConsumed hm₂ (hfront _)
    (by simp only [List.length_append, length_dataRecord, length_leBytes]; omega)
  have hlen := load_dataRecord_length (by omega) hm₁ (hfront _)
  have hmagic := load_dataRecord_magic hm₂ (hfront _)
  have hcopy := cstringAt_dataConsumed (by omega) hm₃ (hfront _)
  have hload := load_eq (w := 8) (v := buf + 8#64)
    (hasBytes_field pre (mid ++ dataConsumed d ++ post)
      (by simpa only [List.append_assoc] using hm₃) hcur)
  have hw₁ := bufWalk_ofNat buf (k := 8) ha (by omega)
  have hw₂ := bufWalk_ofNat (buf + 8#64) (a := a - 8) (k := d.length)
    (by omega) (by omega)
  have hw₃ := bufWalk_ofNat (buf + 8#64 + BitVec.ofNat 64 d.length)
    (a := a - 8 - d.length) (k := 2) (by omega) (by omega)
  have haddr : buf + BitVec.ofNat 64 (8 + d.length + 2) =
      buf + 8#64 + BitVec.ofNat 64 d.length + 2#64 := by
    rw [BitVec.ofNat_add, BitVec.ofNat_add, ← BitVec.add_assoc,
      ← BitVec.add_assoc]
  have havail : a - (8 + d.length + 2) = a - 8 - d.length - 2 := by omega
  have hm₄ := hstore
    { (h.storePtr cur 0#64).storePtr cur (buf + 8#64) with mem := _ }
    (malloc h.copies.length) _ _ hm₃ (by simp) (by simp)
  refine ⟨_, hm₄, ?_⟩
  rw [strdataFromBufLoop, haddr, havail]
  simp only [hw₁, hlen, hw₂, hw₃, hmagic, BitVec.add_sub_cancel, sStrdup, hload,
    hcopy, Heap.copies_storePtr, ne_eq, not_true_eq_false, if_false]
  rfl

/-- `n` consecutive pointer variables from address `p` on. -/
def ptrAddrs : Addr → ℕ → List Addr
  | _, 0 => []
  | p, n + 1 => p :: ptrAddrs (p + 8#64) n

/-- The pointers to the copies `k`, ..., `k + n - 1`, as they lie in memory. -/
def copyPtrs (malloc : ℕ → Addr) (k n : ℕ) : List UInt8 :=
  (List.range' k n).flatMap fun i => leBytes 8 (malloc i).toNat

theorem copyPtrs_succ (malloc : ℕ → Addr) (k n : ℕ) :
    copyPtrs malloc k (n + 1) =
      leBytes 8 (malloc k).toNat ++ copyPtrs malloc (k + 1) n := by
  simp [copyPtrs, List.range'_succ]

/-- Reading a run of records into consecutive pointer variables. -/
theorem strdataFromBufLoop_spec
    (malloc : ℕ → Addr) {h : Heap} {p cur buf : Addr}
    {pre ptrs mid post : List UInt8} {ds : List (List UInt8)} {a : ℕ}
    (hm : HasBytes h.mem p (pre ++ ptrs ++ mid ++ dataRecords ds ++ post))
    (hptrs : ptrs.length = 8 * ds.length)
    (hcur : cur = p + BitVec.ofNat 64 pre.length)
    (hbuf : buf = p + BitVec.ofNat 64 (pre ++ ptrs ++ mid).length)
    (hsize : (pre ++ ptrs ++ mid ++ dataRecords ds ++ post).length < 2 ^ 64)
    (ha : a < 2 ^ 63) (hfit : dataBytes ds ≤ a) :
    ∃ m', HasBytes m' p
        (pre ++ copyPtrs malloc h.copies.length ds.length ++ mid ++
          ds.flatMap dataConsumed ++ post) ∧
      strdataFromBufLoop malloc h buf (BitVec.ofNat 64 a)
          (ptrAddrs cur ds.length) =
        ({ mem := m', copies := h.copies ++ ds.map CString.ofBytes },
          some (BitVec.ofNat 64 (a - dataBytes ds))) := by
  induction ds generalizing h cur buf pre ptrs mid a with
  | nil =>
    have hnil : ptrs = [] := List.length_eq_zero_iff.mp (by simpa using hptrs)
    subst hnil
    refine ⟨h.mem, ?_, ?_⟩
    · simpa [copyPtrs, dataRecords] using hm
    · simp [ptrAddrs, strdataFromBufLoop, dataBytes]
  | cons d rest ih =>
    have hcons : dataBytes (d :: rest) = 8 + d.length + 2 + dataBytes rest := by
      simp [dataBytes]
    rw [hcons] at hfit ⊢
    obtain ⟨ptr, ptrs', rfl, hptr, hptrs'⟩ : ∃ ptr ptrs', ptrs = ptr ++ ptrs' ∧
        ptr.length = 8 ∧ ptrs'.length = 8 * rest.length := by
      simp only [List.length_cons] at hptrs
      exact ⟨ptrs.take 8, ptrs.drop 8, (List.take_append_drop _ _).symm,
        by simp; omega, by simp; omega⟩
    simp only [List.length_append, length_dataRecords, hcons] at hsize
    have hm₀ : HasBytes h.mem p
        (pre ++ ptr ++ (ptrs' ++ mid) ++ dataRecord d ++ (dataRecords rest ++ post)) := by
      simpa only [dataRecords, List.flatMap_cons, List.append_assoc] using hm
    have hbuf₀ : buf = p + BitVec.ofNat 64 (pre ++ ptr ++ (ptrs' ++ mid)).length := by
      rw [hbuf]
      simp only [List.append_assoc]
    obtain ⟨m₁, hm₁, hstep⟩ := strdataFromBufLoop_cons malloc hm₀ hptr hcur hbuf₀
      (by simp only [List.length_append, length_dataRecord, length_dataRecords]; omega)
      ha (by omega) (ptrAddrs (cur + 8#64) rest.length)
    -- the record just read joins the bytes between the pointers and the rest
    let h₁ : Heap := { mem := m₁, copies := h.copies ++ [CString.ofBytes d] }
    have hm₁' : HasBytes h₁.mem p
        (pre ++ leBytes 8 (malloc h.copies.length).toNat ++ ptrs' ++
          (mid ++ dataConsumed d) ++ dataRecords rest ++ post) := by
      simpa only [List.append_assoc] using hm₁
    have hcur₁ : cur + 8#64 = p + BitVec.ofNat 64
        (pre ++ leBytes 8 (malloc h.copies.length).toNat).length := by
      rw [hcur, offset_add]
      simp
    have hbuf₁ : buf + BitVec.ofNat 64 (8 + d.length + 2) = p + BitVec.ofNat 64
        (pre ++ leBytes 8 (malloc h.copies.length).toNat ++ ptrs' ++
          (mid ++ dataConsumed d)).length := by
      rw [hbuf, offset_add]
      congr 2
      simp only [List.length_append, length_leBytes, length_dataConsumed, hptr]
      omega
    obtain ⟨m₂, hm₂, hrest⟩ := ih hm₁' hptrs' hcur₁ hbuf₁
      (by
        simp only [List.length_append, length_leBytes, length_dataConsumed,
          length_dataRecords]
        omega)
      (a := a - (8 + d.length + 2)) (by omega) (by omega)
    refine ⟨m₂, ?_, ?_⟩
    · have hcount : h₁.copies.length = h.copies.length + 1 := by simp [h₁]
      rw [hcount] at hm₂
      simpa only [List.length_cons, copyPtrs_succ, List.flatMap_cons,
        List.append_assoc] using hm₂
    · rw [List.length_cons, ptrAddrs, hstep, hrest, Nat.sub_sub]
      simp [h₁]

/-- The structure whose first `n` pointer members point at the copies `k`,
..., `k + n - 1`. -/
def SoscIpcMsg.relink (malloc : ℕ → Addr) (k n : ℕ) (raw : SoscIpcMsg) :
    SoscIpcMsg :=
  { raw with
    word0 := if 0 < n then malloc k else raw.word0
    word1 := if 1 < n then malloc (k + 1) else raw.word1 }

/-- The header of `c`: its type, and its port if it has one. -/
def SoscIpcMsg.Carries (raw : SoscIpcMsg) (c : IpcMsg) : Prop :=
  SoscIpcType.ofRaw raw.type = some c.type ∧
    (c.type = .oscPortChange → c.port = raw.port)

theorem SoscIpcMsg.carries_of_contents {raw : SoscIpcMsg} {strAt : Addr → CString}
    {c : IpcMsg} (hc : raw.contents strAt = some c) : raw.Carries c := by
  unfold SoscIpcMsg.contents at hc
  split at hc
  all_goals
    next htype =>
      cases hc
      all_goals exact ⟨htype, fun hport => by first | rfl | cases hport⟩

section Message

variable (malloc : ℕ → Addr) {strAt : Addr → CString} {h : Heap} {p : Addr}
  {raw : SoscIpcMsg} {c : IpcMsg} {s : List UInt8} {n : ℕ}

theorem strdataFromBuf_spec
    {cur buf : Addr} {pre ptrs mid post : List UInt8} {ds : List (List UInt8)}
    (hm : HasBytes h.mem p (pre ++ ptrs ++ mid ++ dataRecords ds ++ post))
    (hptrs : ptrs.length = 8 * ds.length)
    (hcur : cur = p + BitVec.ofNat 64 pre.length)
    (hbuf : buf = p + BitVec.ofNat 64 (pre ++ ptrs ++ mid).length)
    (hsize : (pre ++ ptrs ++ mid ++ dataRecords ds ++ post).length < 2 ^ 64)
    (hn : n < 2 ^ 63) (hfit : dataBytes ds ≤ n) :
    ∃ m', HasBytes m' p
        (pre ++ copyPtrs malloc h.copies.length ds.length ++ mid ++
          ds.flatMap dataConsumed ++ post) ∧
      strdataFromBuf malloc h buf (BitVec.ofNat 64 n) (ptrAddrs cur ds.length) =
        ({ mem := m', copies := h.copies ++ ds.map CString.ofBytes },
          BitVec.ofNat 64 (dataBytes ds)) := by
  obtain ⟨m', hm', hloop⟩ :=
    strdataFromBufLoop_spec malloc hm hptrs hcur hbuf hsize hn hfit
  refine ⟨m', hm', ?_⟩
  have hret : BitVec.ofNat 64 n - BitVec.ofNat 64 (n - dataBytes ds) =
      BitVec.ofNat 64 (dataBytes ds) := by
    rw [ofNat_sub_ofNat (by omega) (by omega), Nat.sub_sub_self hfit]
  simp only [strdataFromBuf, hloop, hret]

/-- The members before the two pointers. -/
def SoscIpcMsg.beforePtrs (raw : SoscIpcMsg) : List UInt8 :=
  leBytes 4 raw.type.toNat ++ leBytes 4 raw.pad0.toNat

/-- The members after them. -/
def SoscIpcMsg.afterPtrs (raw : SoscIpcMsg) : List UInt8 :=
  leBytes 2 raw.magic.toNat ++ leBytes 6 raw.pad1.toNat

theorem SoscIpcMsg.image_eq (raw : SoscIpcMsg) :
    raw.image = raw.beforePtrs ++ leBytes 8 raw.word0.toNat ++ leBytes 8 raw.word1.toNat ++
      raw.afterPtrs := by
  simp only [SoscIpcMsg.image, beforePtrs, afterPtrs, List.append_assoc]

@[simp] theorem SoscIpcMsg.length_beforePtrs (raw : SoscIpcMsg) : raw.beforePtrs.length = 8 := by
  simp [beforePtrs]

@[simp] theorem SoscIpcMsg.length_afterPtrs (raw : SoscIpcMsg) : raw.afterPtrs.length = 8 := by
  simp [afterPtrs]

theorem word0Addr_eq (p : Addr) (raw : SoscIpcMsg) :
    word0Addr p = p + BitVec.ofNat 64 raw.beforePtrs.length := by
  rw [word0Addr, raw.length_beforePtrs]

/-- What follows the header, by the bytes in front of it. -/
theorem afterHeader_eq (p : Addr) {front : List UInt8} (hfront : front.length = sizeofMsg) :
    p + BitVec.ofNat 64 sizeofMsg = p + BitVec.ofNat 64 front.length := by
  rw [hfront]

/-- The string of a connection is read into the first pointer member. -/
theorem stringsFromBuf_deviceConnection {ds : List (List UInt8)} (hone : ds.length = 1)
    (hm : HasBytes h.mem p (raw.image ++ dataRecords ds ++ s))
    (hsize : (raw.image ++ dataRecords ds ++ s).length < 2 ^ 64)
    (hn : n < 2 ^ 63) (hfit : dataBytes ds ≤ n) :
    ∃ m', HasBytes m' p
        ((raw.relink malloc h.copies.length ds.length).image ++
          ds.flatMap dataConsumed ++ s) ∧
      stringsFromBuf malloc h p (p + BitVec.ofNat 64 sizeofMsg) (BitVec.ofNat 64 n)
          .deviceConnection =
        ({ mem := m', copies := h.copies ++ ds.map CString.ofBytes },
          BitVec.ofNat 64 (dataBytes ds)) := by
  rw [raw.image_eq] at hm hsize
  have hcur := word0Addr_eq p raw
  let h₁ := h.storePtr (word0Addr p) 0#64
  have hm₁ : HasBytes h₁.mem p (raw.beforePtrs ++ leBytes 8 (0#64).toNat ++
      (leBytes 8 raw.word1.toNat ++ raw.afterPtrs ++ dataRecords ds ++ s)) :=
    hasBytes_storePtr raw.beforePtrs _ 0#64
      (by simpa only [List.append_assoc] using hm) hcur (by simp) (by simp at hsize ⊢; omega)
  have hm₂ : HasBytes h₁.mem p (raw.beforePtrs ++ leBytes 8 (0#64).toNat ++
      (leBytes 8 raw.word1.toNat ++ raw.afterPtrs) ++ dataRecords ds ++ s) := by
    simpa only [List.append_assoc] using hm₁
  obtain ⟨m', hm', hread⟩ := strdataFromBuf_spec malloc hm₂ (by simp [hone]) hcur
    (afterHeader_eq p (by simp [sizeofMsg])) (by simp at hsize ⊢; omega) hn hfit
  rw [hone] at hread hm' ⊢
  refine ⟨m', ?_, hread⟩
  simpa [h₁, copyPtrs, SoscIpcMsg.image_eq, SoscIpcMsg.relink, SoscIpcMsg.beforePtrs,
    SoscIpcMsg.afterPtrs] using hm'

/-- The two strings of an information message are read into the two pointer
members. -/
theorem stringsFromBuf_deviceInfo {ds : List (List UInt8)} (htwo : ds.length = 2)
    (hm : HasBytes h.mem p (raw.image ++ dataRecords ds ++ s))
    (hsize : (raw.image ++ dataRecords ds ++ s).length < 2 ^ 64)
    (hn : n < 2 ^ 63) (hfit : dataBytes ds ≤ n) :
    ∃ m', HasBytes m' p
        ((raw.relink malloc h.copies.length ds.length).image ++
          ds.flatMap dataConsumed ++ s) ∧
      stringsFromBuf malloc h p (p + BitVec.ofNat 64 sizeofMsg) (BitVec.ofNat 64 n)
          .deviceInfo =
        ({ mem := m', copies := h.copies ++ ds.map CString.ofBytes },
          BitVec.ofNat 64 (dataBytes ds)) := by
  rw [raw.image_eq] at hm hsize
  have hcur := word0Addr_eq p raw
  let h₁ := h.storePtr (word1Addr p) 0#64
  let h₂ := h₁.storePtr (word0Addr p) 0#64
  have hm₁ : HasBytes h₁.mem p
      (raw.beforePtrs ++ leBytes 8 raw.word0.toNat ++ leBytes 8 (0#64).toNat ++
        (raw.afterPtrs ++ dataRecords ds ++ s)) :=
    hasBytes_storePtr _ _ 0#64 (by simpa only [List.append_assoc] using hm)
      (by simp [word1Addr]) (by simp) (by simp at hsize ⊢; omega)
  have hm₂ : HasBytes h₂.mem p
      (raw.beforePtrs ++ leBytes 8 (0#64).toNat ++ (leBytes 8 (0#64).toNat ++
        (raw.afterPtrs ++ dataRecords ds ++ s))) :=
    hasBytes_storePtr raw.beforePtrs _ 0#64
      (by simpa only [List.append_assoc] using hm₁) hcur (by simp) (by simp at hsize ⊢; omega)
  have hm₃ : HasBytes h₂.mem p
      (raw.beforePtrs ++ (leBytes 8 (0#64).toNat ++ leBytes 8 (0#64).toNat) ++ raw.afterPtrs ++
        dataRecords ds ++ s) := by
    simpa only [List.append_assoc] using hm₂
  obtain ⟨m', hm', hread⟩ := strdataFromBuf_spec malloc hm₃ (by simp [htwo]) hcur
    (afterHeader_eq p (by simp [sizeofMsg])) (by simp at hsize ⊢; omega) hn hfit
  rw [htwo] at hread hm' ⊢
  refine ⟨m', ?_, ?_⟩
  · simpa [h₁, h₂, copyPtrs, SoscIpcMsg.image_eq, SoscIpcMsg.relink, SoscIpcMsg.beforePtrs,
      SoscIpcMsg.afterPtrs, List.range'_succ] using hm'
  · simpa [h₁, h₂, stringsFromBuf, word0Addr, word1Addr, ptrAddrs, BitVec.add_assoc] using hread

/-- The strings of every message type are read, each into its own pointer
member. -/
theorem stringsFromBuf_spec {ds : List (List UInt8)}
    (hds : c.strings = ds.map CString.ofBytes)
    (hm : HasBytes h.mem p (raw.image ++ dataRecords ds ++ s))
    (hsize : (raw.image ++ dataRecords ds ++ s).length < 2 ^ 64)
    (hn : n < 2 ^ 63) (hfit : dataBytes ds ≤ n) :
    ∃ m', HasBytes m' p
        ((raw.relink malloc h.copies.length ds.length).image ++
          ds.flatMap dataConsumed ++ s) ∧
      stringsFromBuf malloc h p (p + BitVec.ofNat 64 sizeofMsg)
          (BitVec.ofNat 64 n) c.type =
        ({ mem := m', copies := h.copies ++ c.strings },
          BitVec.ofNat 64 (dataBytes ds)) := by
  have hlen : ds.length = c.strings.length := by rw [hds, List.length_map]
  -- the message types without strings
  have hnone (hstrs : c.strings = [])
      (hread : stringsFromBuf malloc h p (p + BitVec.ofNat 64 sizeofMsg) (BitVec.ofNat 64 n)
        c.type = (h, 0#64)) :
      ∃ m', HasBytes m' p
          ((raw.relink malloc h.copies.length ds.length).image ++
            ds.flatMap dataConsumed ++ s) ∧
        stringsFromBuf malloc h p (p + BitVec.ofNat 64 sizeofMsg) (BitVec.ofNat 64 n) c.type =
          ({ mem := m', copies := h.copies ++ c.strings }, BitVec.ofNat 64 (dataBytes ds)) := by
    rw [hstrs, List.length_nil, List.length_eq_zero_iff] at hlen
    refine ⟨h.mem, by simpa [hlen, dataRecords, SoscIpcMsg.relink] using hm, ?_⟩
    rw [hread, hstrs, hlen, List.append_nil]
    rfl
  cases c with
  | deviceConnection devnode =>
    rw [hds]
    exact stringsFromBuf_deviceConnection malloc hlen hm hsize hn hfit
  | deviceInfo serial friendly =>
    rw [hds]
    exact stringsFromBuf_deviceInfo malloc hlen hm hsize hn hfit
  | deviceReady => exact hnone rfl rfl
  | deviceDisconnection => exact hnone rfl rfl
  | oscPortChange port => exact hnone rfl rfl
  | processShouldExit => exact hnone rfl rfl

theorem load_type {m : Mem} {post : List UInt8}
    (hm : HasBytes m p (raw.image ++ post)) : load 4 m p = raw.type := by
  apply load_eq
  apply hasBytes_field [] (leBytes 4 raw.pad0.toNat ++ leBytes 8 raw.word0.toNat ++
    leBytes 8 raw.word1.toNat ++ leBytes 2 raw.magic.toNat ++
    leBytes 6 raw.pad1.toNat ++ post)
  · simpa only [SoscIpcMsg.image, List.append_assoc, List.nil_append] using hm
  · simp

theorem hasBytes_word0 {m : Mem} {post : List UInt8}
    (hm : HasBytes m p (raw.image ++ post)) :
    HasBytes m (word0Addr p) (leBytes 8 raw.word0.toNat) := by
  apply hasBytes_field (p := p)
    (leBytes 4 raw.type.toNat ++ leBytes 4 raw.pad0.toNat)
    (leBytes 8 raw.word1.toNat ++ leBytes 2 raw.magic.toNat ++
      leBytes 6 raw.pad1.toNat ++ post)
  · simpa only [SoscIpcMsg.image, List.append_assoc] using hm
  · simp [word0Addr]

theorem load_word0 {m : Mem} {post : List UInt8}
    (hm : HasBytes m p (raw.image ++ post)) :
    load 8 m (word0Addr p) = raw.word0 :=
  load_eq (hasBytes_word0 hm)

theorem load_word1 {m : Mem} {post : List UInt8}
    (hm : HasBytes m p (raw.image ++ post)) :
    load 8 m (word1Addr p) = raw.word1 := by
  apply load_eq
  apply hasBytes_field (leBytes 4 raw.type.toNat ++ leBytes 4 raw.pad0.toNat ++
    leBytes 8 raw.word0.toNat)
    (leBytes 2 raw.magic.toNat ++ leBytes 6 raw.pad1.toNat ++ post)
  · simpa only [SoscIpcMsg.image, List.append_assoc] using hm
  · simp [word1Addr]

theorem load_magic {m : Mem} {post : List UInt8}
    (hm : HasBytes m p (raw.image ++ post)) :
    load 2 m (magicAddr p) = raw.magic := by
  apply load_eq
  apply hasBytes_field (leBytes 4 raw.type.toNat ++ leBytes 4 raw.pad0.toNat ++
    leBytes 8 raw.word0.toNat ++ leBytes 8 raw.word1.toNat)
    (leBytes 6 raw.pad1.toNat ++ post)
  · simpa only [SoscIpcMsg.image, List.append_assoc] using hm
  · simp [magicAddr]

/-- The port is the low end of the first pointer member. -/
theorem load_port {m : Mem} {post : List UInt8}
    (hm : HasBytes m p (raw.image ++ post)) :
    load 2 m (word0Addr p) = raw.port := by
  have hword := hasBytes_word0 hm
  rw [← leBytes_append 2 6, hasBytes_append] at hword
  apply load_eq
  rw [SoscIpcMsg.port, BitVec.toNat_setWidth, show 2 ^ 16 = 256 ^ 2 by rfl,
    leBytes_mod]
  exact hword.1

/-- The members that survive decoding, together with the copied strings, are
the message that was serialised. -/
theorem readMsg_relink {m : Mem} {post : List UInt8} {k n : ℕ}
    (hc : raw.Carries c) (hn : n = c.strings.length)
    (hm : HasBytes m p ((raw.relink malloc k n).image ++ post)) :
    readMsg m p c.strings = some c := by
  have htype : load 4 m p = (raw.relink malloc k n).type := load_type hm
  replace htype : load 4 m p = raw.type := htype
  have hport := load_port hm
  obtain ⟨hraw, hsame⟩ := hc
  unfold readMsg
  rw [htype, hraw]
  cases c with
  | oscPortChange port =>
    -- the port shares its bytes with the first pointer, which is not set here
    have hkeep : (raw.relink malloc k n).port = raw.port := by
      simp [hn, SoscIpcMsg.relink, SoscIpcMsg.port, IpcMsg.strings]
    have hsame : port = raw.port := hsame rfl
    simp [IpcMsg.type, hport, hkeep, hsame]
  | deviceConnection devnode => rfl
  | deviceInfo serial friendly => rfl
  | deviceReady => rfl
  | deviceDisconnection => rfl
  | processShouldExit => rfl

/-- Decoding a header and its records: all of it is consumed, the strings are
copied out, the pointers are replaced, and what follows is not touched. -/
theorem soscIpcMsgFromBuf_spec {ds : List (List UInt8)}
    (hc : raw.Carries c) (hmagic : raw.magic = ipcMagic)
    (hds : c.strings = ds.map CString.ofBytes)
    (hm : HasBytes h.mem p (raw.image ++ dataRecords ds ++ s))
    (hsize : sizeofMsg + dataBytes ds + s.length < 2 ^ 63) :
    ∃ m', soscIpcMsgFromBuf malloc h p
          (BitVec.ofNat 64 (sizeofMsg + dataBytes ds + s.length)) =
        { heap := { mem := m', copies := h.copies ++ c.strings },
          ret := BitVec.ofNat 64 (sizeofMsg + dataBytes ds), msg := some p } ∧
      HasBytes m' p
        ((raw.relink malloc h.copies.length c.strings.length).image ++
          ds.flatMap dataConsumed ++ s) := by
  have hm₁ : HasBytes h.mem p (raw.image ++ (dataRecords ds ++ s)) := by
    simpa only [List.append_assoc] using hm
  simp only [sizeofMsg] at hsize
  obtain ⟨m', hm', hstrings⟩ := stringsFromBuf_spec malloc
    (n := sizeofMsg + dataBytes ds + s.length) hds hm
    (by simp [sizeofMsg]; omega) (by simp only [sizeofMsg]; omega) (by omega)
  have hbig : ¬ ((BitVec.ofNat 64 (sizeofMsg + dataBytes ds + s.length)).toNat < sizeofMsg ∨
      load 2 h.mem (magicAddr p) ≠ ipcMagic) := by
    rw [load_magic hm₁, hmagic, BitVec.toNat_ofNat, Nat.mod_eq_of_lt
      (by simp only [sizeofMsg]; omega)]
    simp only [ne_eq, not_true_eq_false, or_false]
    omega
  have hslt : (BitVec.ofNat 64 (dataBytes ds)).slt 0#64 = false :=
    slt_zero_ofNat (by omega)
  have hret : BitVec.ofNat 64 (sizeofMsg + dataBytes ds + s.length) -
      (BitVec.ofNat 64 (sizeofMsg + dataBytes ds + s.length) - BitVec.ofNat 64 sizeofMsg -
        BitVec.ofNat 64 (dataBytes ds)) = BitVec.ofNat 64 (sizeofMsg + dataBytes ds) := by
    rw [ofNat_sub_ofNat, ofNat_sub_ofNat, ofNat_sub_ofNat]
    · congr 1
      omega
    all_goals simp only [sizeofMsg]; omega
  have hlen : c.strings.length = ds.length := by rw [hds, List.length_map]
  refine ⟨m', ?_, by rw [hlen]; exact hm'⟩
  simp only [soscIpcMsgFromBuf, if_neg hbig, load_type hm₁, hc.1, hstrings, hslt,
    Bool.false_eq_true, if_false, hret]

theorem load_relink_ptr {m : Mem} {post : List UInt8} {k : ℕ}
    (hm : HasBytes m p ((raw.relink malloc k n).image ++ post)) (hn : n ≤ 2)
    {i : ℕ} (hi : i < n) :
    load 8 m (p + BitVec.ofNat 64 (8 + 8 * i)) = malloc (k + i) := by
  rcases Nat.lt_or_ge i 1 with hi0 | hi1
  · obtain rfl : i = 0 := by omega
    have hword : (raw.relink malloc k n).word0 = malloc (k + 0) := by
      simp [SoscIpcMsg.relink, hi]
    rw [← hword]
    exact load_word0 hm
  · obtain rfl : i = 1 := by omega
    have hword : (raw.relink malloc k n).word1 = malloc (k + 1) := by
      simp [SoscIpcMsg.relink, hi]
    rw [← hword]
    exact load_word1 hm

theorem length_strings_le (msg : IpcMsg) : msg.strings.length ≤ 2 := by
  cases msg <;> simp [IpcMsg.strings]

/-- What a handler and the reader of the next message find after decoding a
header and its records. -/
theorem soscIpcMsgFromBuf_records {ds : List (List UInt8)}
    (hc : raw.Carries c) (hmagic : raw.magic = ipcMagic)
    (hds : c.strings = ds.map CString.ofBytes)
    (hm : HasBytes h.mem p (raw.image ++ dataRecords ds ++ s))
    (hsize : sizeofMsg + dataBytes ds + s.length < 2 ^ 63) :
    let d := soscIpcMsgFromBuf malloc h p
      (BitVec.ofNat 64 (sizeofMsg + dataBytes ds + s.length))
    d.ret = BitVec.ofNat 64 (sizeofMsg + dataBytes ds) ∧ d.contents h = some c ∧
      (∀ i < c.strings.length,
        load 8 d.heap.mem (p + BitVec.ofNat 64 (8 + 8 * i)) =
          malloc (h.copies.length + i)) ∧
      HasBytes d.heap.mem (p + BitVec.ofNat 64 (sizeofMsg + dataBytes ds)) s := by
  obtain ⟨m', hdec, hm'⟩ := soscIpcMsgFromBuf_spec malloc hc hmagic hds hm hsize
  have himage : HasBytes m' p
      ((raw.relink malloc h.copies.length c.strings.length).image ++
        (ds.flatMap dataConsumed ++ s)) := by
    simpa only [List.append_assoc] using hm'
  have hlen : ((raw.relink malloc h.copies.length c.strings.length).image ++
      ds.flatMap dataConsumed).length = sizeofMsg + dataBytes ds := by
    simp [dataBytes, List.length_flatMap]
  rw [hasBytes_append, hlen] at hm'
  rw [hdec]
  refine ⟨rfl, ?_, ?_, hm'.2⟩
  · rw [Decoded.contents, Option.bind_some, List.drop_left]
    exact readMsg_relink malloc hc rfl himage
  · intro i hi
    exact load_relink_ptr malloc himage (length_strings_le c) hi

/-- The same for a message that was serialised. -/
theorem soscIpcMsgFromBuf_contents
    (hc : raw.contents strAt = some c)
    (hm : HasBytes h.mem p (wireBytes raw c ++ s))
    (hsize : c.wireSize + s.length < 2 ^ 63) :
    let d := soscIpcMsgFromBuf malloc h p (BitVec.ofNat 64 (c.wireSize + s.length))
    d.ret = BitVec.ofNat 64 c.wireSize ∧ d.contents h = some c ∧
      (∀ i < c.strings.length,
        load 8 d.heap.mem (p + BitVec.ofNat 64 (8 + 8 * i)) =
          malloc (h.copies.length + i)) ∧
      HasBytes d.heap.mem (p + BitVec.ofNat 64 c.wireSize) s := by
  have hds : c.strings = (c.strings.map CString.bytes).map CString.ofBytes := by
    rw [List.map_map, show CString.ofBytes ∘ CString.bytes = id from funext ofBytes_bytes,
      List.map_id]
  have hwire : c.wireSize = sizeofMsg + dataBytes (c.strings.map CString.bytes) := by
    rw [IpcMsg.wireSize, strBytes]
  rw [wireBytes, strRecords] at hm
  rw [hwire] at hsize ⊢
  exact soscIpcMsgFromBuf_records malloc (raw.setMagic.carries_of_contents hc) rfl hds hm hsize

end Message

end Serialosc
