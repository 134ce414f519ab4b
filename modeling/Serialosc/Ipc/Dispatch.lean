import Serialosc.Ipc.Decode

/-!
# Dispatching the messages of a read buffer

`dispatch_ipc_msgs` is shared by the detector's and the devices' read
callbacks, so the handler and the state it works on are parameters here.
`nbytes` is signed: libuv reports the end of a stream as a negative count.

An `Outgoing` message carries the proof that it can be serialised at all.
The main result, `ipc_roundTrip`, puts both directions together.
-/

namespace Serialosc

open ByteMemory

/-! ## The loop over a buffer -/

/-- What `dispatch_ipc_msgs` leaves behind: the heap, what the handler has
made of its state, the bytes it did not consume, and whether it got as far as
`free`. -/
structure Dispatched (σ : Type) where
  heap : Heap
  self : σ
  nbytes : BitVec 64
  freed : Bool

/-- `dispatch_ipc_msgs`, stopped after `fuel` rounds. -/
def dispatchIpcMsgs {σ : Type} (malloc : ℕ → Addr) (cb : σ → IpcMsg → σ) :
    ℕ → Heap → Addr → BitVec 64 → σ → Option (Dispatched σ)
  | 0, _, _, _, _ => none
  | fuel + 1, h, cursor, nbytes, self =>
      if (0#64).slt nbytes then
        let d := soscIpcMsgFromBuf malloc h cursor nbytes
        if d.ret.slt 0#64 then
          -- bailing out: the rest of the buffer is dropped, and not freed
          some { heap := d.heap, self := self, nbytes := nbytes, freed := false }
        else
          -- no handler does anything about a type it does not know
          let self' := (d.contents h).elim self (cb self)
          dispatchIpcMsgs malloc cb fuel d.heap (cursor + d.ret) (nbytes - d.ret)
            self'
      else
        some { heap := h, self := self, nbytes := nbytes, freed := true }

theorem slt_ofNat_pos {n : ℕ} (hpos : 0 < n) (hn : n < 2 ^ 63) :
    (0#64).slt (BitVec.ofNat 64 n) = true := by
  have hmsb : (BitVec.ofNat 64 n).msb = false := by
    rw [← BitVec.slt_zero_eq_msb]
    exact slt_zero_ofNat hn
  have hint : (BitVec.ofNat 64 n).toInt = n := by
    rw [BitVec.toInt_eq_toNat_of_msb hmsb, BitVec.toNat_ofNat,
      Nat.mod_eq_of_lt (by omega)]
  rw [BitVec.slt, hint]
  exact decide_eq_true (by simpa using hpos)

section Dispatch

variable {σ : Type} (malloc : ℕ → Addr) (cb : σ → IpcMsg → σ) {h : Heap}
  {p : Addr} {raw : SoscIpcMsg} {c : IpcMsg} {s : List UInt8}

/-- One round of the loop at a serialised message. -/
theorem dispatchIpcMsgs_step
    {strAt : Addr → CString} (hc : raw.contents strAt = some c)
    (hm : HasBytes h.mem p (wireBytes raw c ++ s))
    (hsize : c.wireSize + s.length < 2 ^ 63) (fuel : ℕ) (self : σ) :
    ∃ h' : Heap, HasBytes h'.mem (p + BitVec.ofNat 64 c.wireSize) s ∧
      dispatchIpcMsgs malloc cb (fuel + 1) h p
          (BitVec.ofNat 64 (c.wireSize + s.length)) self =
        dispatchIpcMsgs malloc cb fuel h' (p + BitVec.ofNat 64 c.wireSize)
          (BitVec.ofNat 64 s.length) (cb self c) := by
  obtain ⟨hdec, hread, -, hrest⟩ := soscIpcMsgFromBuf_contents malloc hc hm hsize
  have hpos : (0#64).slt (BitVec.ofNat 64 (c.wireSize + s.length)) = true := by
    have hmin := sizeofMsg_le_wireSize c
    exact slt_ofNat_pos (by simp only [sizeofMsg] at hmin; omega) hsize
  have hret : (BitVec.ofNat 64 c.wireSize).slt 0#64 = false :=
    slt_zero_ofNat (by omega)
  have hleft : BitVec.ofNat 64 (c.wireSize + s.length) -
      BitVec.ofNat 64 c.wireSize = BitVec.ofNat 64 s.length := by
    rw [ofNat_sub_ofNat (by omega) (by omega), Nat.add_sub_cancel_left]
  refine ⟨_, hrest, ?_⟩
  rw [dispatchIpcMsgs, if_pos hpos]
  simp only [hdec, hret, Bool.false_eq_true, if_false, hread, Option.elim_some, hleft]

/-- The loop over a buffer that is fully consumed ends in `free`. -/
theorem dispatchIpcMsgs_nil (h : Heap) (p : Addr) (fuel : ℕ) (self : σ) :
    dispatchIpcMsgs malloc cb (fuel + 1) h p 0#64 self =
      some { heap := h, self := self, nbytes := 0#64, freed := true } := by
  have hzero : (0#64).slt 0#64 = false := by decide
  rw [dispatchIpcMsgs, hzero]
  rfl

end Dispatch

/-! ## Messages on their way into a pipe -/

/-- A message as its sender hands it to the encoder: the structure, the
strings it points at, and the sender's memory around the buffer `buf`.  Its
serialisation fits the buffer that every sender declares. -/
structure Outgoing where
  strAt : Addr → CString
  mem : Mem
  buf : Addr
  msg : SoscIpcMsg
  contents : IpcMsg
  contents_eq : msg.contents strAt = some contents
  fits : contents.wireSize ≤ soscIpcMsgBufferSize

namespace Outgoing

/-- The call every sender makes, with a buffer of `SOSC_IPC_MSG_BUFFER_SIZE`
bytes. -/
def encoded (o : Outgoing) : Encoded :=
  soscIpcMsgToBuf o.strAt o.mem o.buf (BitVec.ofNat 64 soscIpcMsgBufferSize) o.msg

/-- The bytes the sender writes: as many as the encoder has returned. -/
def bytes (o : Outgoing) : List UInt8 :=
  o.encoded.ret.elim [] fun nbytes => read o.encoded.mem o.buf nbytes.toNat

theorem encoded_ret (o : Outgoing) :
    o.encoded.ret = some (BitVec.ofNat 64 o.contents.wireSize) := by
  obtain ⟨m', henc, -⟩ := soscIpcMsgToBuf_spec o.mem o.buf o.contents_eq o.fits
    (by decide)
  rw [encoded, henc]

theorem bytes_eq (o : Outgoing) : o.bytes = wireBytes o.msg o.contents := by
  obtain ⟨m', henc, hm'⟩ := soscIpcMsgToBuf_spec o.mem o.buf o.contents_eq o.fits
    (by decide)
  have hlen : (BitVec.ofNat 64 o.contents.wireSize).toNat = o.contents.wireSize := by
    have hfits := o.fits
    simp only [soscIpcMsgBufferSize] at hfits
    rw [BitVec.toNat_ofNat, Nat.mod_eq_of_lt (by omega)]
  rw [HasBytes, length_wireBytes] at hm'
  rw [bytes, encoded, henc, Option.elim_some, hlen, hm']

@[simp] theorem length_bytes (o : Outgoing) :
    o.bytes.length = o.contents.wireSize := by
  rw [bytes_eq, length_wireBytes]

end Outgoing

/-- Dispatching a buffer that holds whole messages: the handler sees each of
them once, in order, and nothing is left over. -/
theorem dispatchIpcMsgs_messages
    {σ : Type} (malloc : ℕ → Addr) (cb : σ → IpcMsg → σ) (os : List Outgoing)
    {h : Heap} {p : Addr} (self : σ) {fuel : ℕ}
    (hm : HasBytes h.mem p (os.flatMap Outgoing.bytes))
    (hsize : (os.flatMap Outgoing.bytes).length < 2 ^ 63)
    (hfuel : os.length < fuel) :
    ∃ h', dispatchIpcMsgs malloc cb fuel h p
        (BitVec.ofNat 64 (os.flatMap Outgoing.bytes).length) self =
      some { heap := h', self := (os.map Outgoing.contents).foldl cb self,
             nbytes := 0#64, freed := true } := by
  induction os generalizing h p self fuel with
  | nil =>
    cases fuel with
    | zero => exact absurd hfuel (Nat.not_lt_zero _)
    | succ fuel => exact ⟨h, dispatchIpcMsgs_nil malloc cb h p fuel self⟩
  | cons o os ih =>
    cases fuel with
    | zero => exact absurd hfuel (Nat.not_lt_zero _)
    | succ fuel =>
      rw [List.flatMap_cons] at hm hsize ⊢
      rw [List.length_append, o.length_bytes] at hsize ⊢
      rw [o.bytes_eq] at hm
      obtain ⟨h₁, hm₁, hstep⟩ :=
        dispatchIpcMsgs_step malloc cb o.contents_eq hm hsize fuel self
      obtain ⟨h', hrest⟩ := ih (cb self o.contents) hm₁ (by omega)
        (Nat.lt_of_succ_lt_succ hfuel)
      exact ⟨h', by rw [hstep, hrest, List.map_cons, List.foldl_cons]⟩

/-- The IPC round trip.  A message that fits the senders' buffer is decoded,
in front of any bytes `s`, to the same contents and the same byte count; the
pointer members then hold the fresh copies and `s` is as it was.  So a buffer
of such messages is dispatched message by message. -/
theorem ipc_roundTrip (malloc : ℕ → Addr) :
    (∀ (o : Outgoing) (s : List UInt8) (h : Heap) (p : Addr),
      HasBytes h.mem p (o.bytes ++ s) → (o.bytes ++ s).length < 2 ^ 63 →
      let d := soscIpcMsgFromBuf malloc h p (BitVec.ofNat 64 (o.bytes ++ s).length)
      o.encoded.ret = some d.ret ∧ d.ret = BitVec.ofNat 64 o.contents.wireSize ∧
        d.contents h = some o.contents ∧
        (∀ i < o.contents.strings.length,
          load 8 d.heap.mem (p + BitVec.ofNat 64 (8 + 8 * i)) =
            malloc (h.copies.length + i)) ∧
        HasBytes d.heap.mem (p + d.ret) s) ∧
    (∀ (σ : Type) (cb : σ → IpcMsg → σ) (os : List Outgoing) (h : Heap) (p : Addr)
        (self : σ) (fuel : ℕ),
      HasBytes h.mem p (os.flatMap Outgoing.bytes) →
      (os.flatMap Outgoing.bytes).length < 2 ^ 63 → os.length < fuel →
      ∃ h', dispatchIpcMsgs malloc cb fuel h p
          (BitVec.ofNat 64 (os.flatMap Outgoing.bytes).length) self =
        some { heap := h', self := (os.map Outgoing.contents).foldl cb self,
               nbytes := 0#64, freed := true }) := by
  refine ⟨?_, ?_⟩
  · intro o s h p hm hsize
    rw [o.bytes_eq] at hm
    rw [List.length_append, o.length_bytes] at hsize ⊢
    obtain ⟨hdec, hread, hptr, hrest⟩ :=
      soscIpcMsgFromBuf_contents malloc o.contents_eq hm hsize
    refine ⟨?_, hdec, hread, hptr, ?_⟩
    · rw [hdec]
      exact o.encoded_ret
    · rw [hdec]
      exact hrest
  · intro σ cb os h p self fuel hm hsize hfuel
    exact dispatchIpcMsgs_messages malloc cb os self hm hsize hfuel

/-- A `DEVICE_INFO` message as a device process sends it. -/
def Outgoing.sampleInfo : Outgoing where
  strAt p :=
    if p = 0x1000#64 then .ofString "m1000286" else .ofString "monome 128"
  mem := fun _ => 0xAA
  buf := 0x2000#64
  msg :=
    { type := 1, pad0 := 0xAAAAAAAA, word0 := 0x1000, word1 := 0x1010, magic := 0,
      pad1 := 0 }
  contents := .deviceInfo (.ofString "m1000286") (.ofString "monome 128")
  contents_eq := rfl
  fits := by decide

/-- A heap where `bs` lies at address `p`. -/
def Heap.holding (p : Addr) (bs : List UInt8) : Heap :=
  { mem := write (fun _ => 0) p bs, copies := [] }

theorem Heap.hasBytes_holding (p : Addr) {bs : List UInt8} (hsize : bs.length < 2 ^ 63) :
    HasBytes (Heap.holding p bs).mem p bs :=
  hasBytes_write_self _ p bs (by omega)

theorem ipc_roundTrip_sampleInfo :
    let malloc : ℕ → Addr := fun k => BitVec.ofNat 64 (0x5000 + 0x100 * k)
    let o := Outgoing.sampleInfo
    let h := Heap.holding 0x3000#64 (o.bytes ++ [7])
    let h₂ := Heap.holding 0x3000#64 ([o, o].flatMap Outgoing.bytes)
    (soscIpcMsgFromBuf malloc h 0x3000#64
      (BitVec.ofNat 64 (o.bytes ++ [7]).length)).contents h = some o.contents ∧
    ∃ h', dispatchIpcMsgs malloc (fun log msg => log ++ [msg]) 3 h₂ 0x3000#64
        (BitVec.ofNat 64 ([o, o].flatMap Outgoing.bytes).length) [] =
      some { heap := h', self := [o.contents, o.contents], nbytes := 0#64,
             freed := true } := by
  intro malloc o h h₂
  have hlen : o.contents.wireSize = 70 := rfl
  have hsize : (o.bytes ++ [7]).length < 2 ^ 63 := by
    simp [hlen]
  have hsize₂ : ([o, o].flatMap Outgoing.bytes).length < 2 ^ 63 := by
    simp [hlen]
  refine ⟨((ipc_roundTrip malloc).1 o [7] h _ (Heap.hasBytes_holding _ hsize) hsize).2.2.1,
    ?_⟩
  exact (ipc_roundTrip malloc).2 _ _ [o, o] h₂ _ [] 3 (Heap.hasBytes_holding _ hsize₂)
    hsize₂ (Nat.lt_succ_self 2)

end Serialosc
