import Serialosc.Ipc.Inversion
import Mathlib.Algebra.Order.BigOperators.Group.List
import Mathlib.Tactic.IntervalCases

/-!
# Decoding from inside a message

A reader that has lost its place decodes from the middle of a message.  The
senders' padding and pointers are free bytes, and so are the bytes behind the
buffer; here they are chosen so that such a decoder never finds the message it
stands in.  The free bytes of the headers are all `g`, a byte that occurs in no
string of that message, and the memory around the buffer is zero.
-/

namespace Serialosc

open ByteMemory

/-! ## Reading a string from a buffer in otherwise empty memory -/

/-- `w` bytes from offset `i` on, in a buffer that is followed by zeros. -/
def window (bs : List UInt8) (i w : ℕ) : List UInt8 :=
  (List.range w).map fun k => bs.getD (i + k) 0

@[simp] theorem length_window (bs : List UInt8) (i w : ℕ) : (window bs i w).length = w := by
  simp [window]

theorem Heap.holding_mem (p : Addr) (bs : List UInt8) {i : ℕ} (hi : i < 2 ^ 64) :
    (Heap.holding p bs).mem (p + BitVec.ofNat 64 i) = bs.getD i 0 := by
  have hdist : (p + BitVec.ofNat 64 i - p).toNat = i := by
    have h0 := offset_sub_toNat p (i := i) (k := 0) (Nat.zero_le i) hi
    simpa using h0
  change bs.getD (p + BitVec.ofNat 64 i - p).toNat 0 = _
  rw [hdist]

theorem load_window {m : Mem} {p : Addr} {bs : List UInt8} {i w : ℕ}
    (hm : ∀ k < w, m (p + BitVec.ofNat 64 (i + k)) = bs.getD (i + k) 0) :
    load w m (p + BitVec.ofNat 64 i) = ofLeBytes w (window bs i w) := by
  have hread : read m (p + BitVec.ofNat 64 i) w = window bs i w := by
    apply List.map_congr_left
    intro k hk
    rw [offset_add, hm k (List.mem_range.mp hk)]
  rw [load, hread]

theorem low_byte_of_load_two {m : Mem} {p : Addr} (hmagic : load 2 m p = ipcMagic) :
    m p = 0x5C := by
  have hnat := congrArg BitVec.toNat hmagic
  rw [load, toNat_ofLeBytes (length_read m p 2)] at hnat
  change leNat [m (p + 0#64), m (p + 1#64)] = 0x505C at hnat
  have hlow := (m (p + 0#64)).toNat_lt
  simp only [leNat, BitVec.add_zero] at hnat hlow
  apply UInt8.toNat_inj.mp
  change (m p).toNat = 0x5C
  omega

/-- An address whose bytes, and those of the addresses close to it, are not
part of the magic. -/
def plainBase : Addr := 0x10#64

section Plain

variable {bs : List UInt8} {g : Heap}

/-- The offset behind the string that the length at offset 32 promises. -/
def Heap.stop (g : Heap) : ℕ :=
  (40#64 + g.slen (word0Addr plainBase) (plainBase + 32#64)).toNat

/-- Outside the pointer members, `g` holds `bs` and zeros. -/
def Heap.Plain (g : Heap) (bs : List UInt8) : Prop :=
  ∀ i < 2 ^ 64, i < 8 ∨ 24 ≤ i → g.mem (plainBase + BitVec.ofNat 64 i) = bs.getD i 0

theorem Heap.Plain.slen (hg : g.Plain bs) :
    g.slen (word0Addr plainBase) (plainBase + 32#64) = ofLeBytes 8 (window bs 32 8) := by
  apply load_window
  intro k hk
  rw [Member.storePtr_mem (.inl rfl) g 0#64 (by omega) (.inr (by omega)),
    hg _ (by omega) (.inr (by omega))]

theorem Heap.stop_eq (g : Heap) :
    g.stop =
      (40 + (g.slen (word0Addr plainBase) (plainBase + 32#64)).toNat) % 2 ^ 64 := by
  rw [Heap.stop, BitVec.toNat_add]
  rfl

theorem Heap.stop_address (g : Heap) :
    plainBase + 32#64 + 8#64 + g.slen (word0Addr plainBase) (plainBase + 32#64) =
      plainBase + BitVec.ofNat 64 g.stop := by
  rw [Heap.stop, BitVec.ofNat_toNat, BitVec.setWidth_eq, BitVec.add_assoc plainBase,
    BitVec.add_assoc plainBase]
  rfl

theorem Heap.Plain.located (hg : g.Plain bs) {i : ℕ} (hi : i < 2 ^ 64)
    (hout : i < 8 ∨ 24 ≤ i) :
    g.located (word0Addr plainBase) (plainBase + 32#64) (plainBase + BitVec.ofNat 64 i) =
      bs.getD i 0 := by
  have h₀ : Member plainBase (word0Addr plainBase) := .inl rfl
  rw [Heap.located, h₀.storePtr_mem _ _ hi hout, h₀.storePtr_mem g _ hi hout, hg i hi hout]

theorem hasBytes_located (g : Heap) :
    HasBytes (g.located (word0Addr plainBase) (plainBase + 32#64)) (word0Addr plainBase)
      [0x38, 0, 0, 0, 0, 0, 0, 0] :=
  hasBytes_write_self _ _ _ (by decide)

variable {n : BitVec 64}

/-- The terminator does not go over the pointer to the string. -/
theorem Heap.Reads.stop_outside
    (hreads : g.Reads (word0Addr plainBase) (plainBase + 32#64) n) :
    g.stop < 8 ∨ 16 ≤ g.stop := by
  have hlow := low_byte_of_load_two hreads.magic
  rw [Heap.stop_address] at hlow
  by_contra hin
  have hbytes := (hasBytes_iff _ _ _).mp (hasBytes_located g) (g.stop - 8)
    (by simp only [List.length_cons, List.length_nil]; omega)
  have haddr : word0Addr plainBase + BitVec.ofNat 64 (g.stop - 8) =
      plainBase + BitVec.ofNat 64 g.stop := by
    have hoff : g.stop = 8 + (g.stop - 8) := by omega
    rw [word0Addr, BitVec.add_assoc]
    nth_rewrite 2 [hoff]
    rw [BitVec.ofNat_add]
  rw [haddr, hlow] at hbytes
  have hplain : (0x5C : UInt8) ∉ [(0x38 : UInt8), 0, 0, 0, 0, 0, 0, 0] := by decide
  exact hplain (hbytes ▸ List.getElem_mem _)

theorem Heap.terminated_apply (g : Heap) {i : ℕ} (hi : i < 2 ^ 64) :
    g.terminated (word0Addr plainBase) (plainBase + 32#64) (plainBase + BitVec.ofNat 64 i) =
      if i = g.stop then 0
      else g.located (word0Addr plainBase) (plainBase + 32#64)
        (plainBase + BitVec.ofNat 64 i) := by
  rw [Heap.terminated, Heap.stop_address]
  exact write_byte _ _ 0 hi (BitVec.isLt _)

/-- The string is copied from behind its length. -/
theorem Heap.Reads.found_eq
    (hreads : g.Reads (word0Addr plainBase) (plainBase + 32#64) n) :
    g.found (word0Addr plainBase) (plainBase + 32#64) =
      cstringAt (g.terminated (word0Addr plainBase) (plainBase + 32#64))
        (plainBase + BitVec.ofNat 64 40) := by
  have hptr : load 8 (g.terminated (word0Addr plainBase) (plainBase + 32#64))
      (word0Addr plainBase) = 0x38#64 := by
    apply load_eq
    rw [hasBytes_iff]
    intro k hk
    rw [length_leBytes] at hk
    have hbyte := (hasBytes_iff _ _ _).mp (hasBytes_located g) k hk
    have haddr : word0Addr plainBase + BitVec.ofNat 64 k =
        plainBase + BitVec.ofNat 64 (8 + k) := by
      rw [word0Addr, BitVec.add_assoc, BitVec.ofNat_add]
    have hstop := hreads.stop_outside
    rw [haddr] at hbyte ⊢
    rw [g.terminated_apply (by omega), if_neg (by omega)]
    exact hbyte
  rw [Heap.found, hptr]
  rfl

/-- The string that is copied lies in the buffer. -/
theorem Heap.Reads.getElem_found (hg : g.Plain bs)
    (hreads : g.Reads (word0Addr plainBase) (plainBase + 32#64) n) {a : CString}
    (ha : g.found (word0Addr plainBase) (plainBase + 32#64) = a) {i : ℕ}
    (hi : i < a.length) : a.bytes[i] = bs.getD (40 + i) 0 := by
  have hlen := a.length_lt
  have hne : a.bytes[i] ≠ 0 := by
    intro hzero
    have hmem := List.getElem_mem hi
    rw [hzero] at hmem
    exact a.nulFree hmem
  have hbyte := getElem_cstringAt (hreads.found_eq.symm.trans ha) hi
  rw [offset_add, g.terminated_apply (by omega)] at hbyte
  by_cases hstop : 40 + i = g.stop
  · rw [if_pos hstop] at hbyte
    exact absurd hbyte hne
  · rw [if_neg hstop, hg.located (by omega) (.inr (by omega))] at hbyte
    exact hbyte

/-- A string of one byte is followed by a NUL, or was cut there. -/
theorem Heap.Reads.length_one (hg : g.Plain bs)
    (hreads : g.Reads (word0Addr plainBase) (plainBase + 32#64) n) {a : CString}
    (ha : g.found (word0Addr plainBase) (plainBase + 32#64) = a) (hone : a.length = 1) :
    bs.getD 41 0 = 0 ∨ g.slen (word0Addr plainBase) (plainBase + 32#64) = 1#64 := by
  have hend := cstringAt_end (hreads.found_eq.symm.trans ha) (by omega)
  rw [hone, offset_add, g.terminated_apply (by omega)] at hend
  by_cases hstop : 40 + 1 = g.stop
  · right
    apply BitVec.eq_of_toNat_eq
    have hlt := (g.slen (word0Addr plainBase) (plainBase + 32#64)).isLt
    rw [g.stop_eq] at hstop
    change _ = 1
    omega
  · left
    rw [if_neg hstop, hg.located (by omega) (.inr (by omega))] at hend
    exact hend

/-- A length that leads out of the buffer in either direction is refused. -/
theorem Heap.Reads.slen_near (hg : g.Plain bs)
    (hreads : g.Reads (word0Addr plainBase) (plainBase + 32#64) (BitVec.ofNat 64 bs.length))
    (hmin : 8 ≤ bs.length) (hsize : bs.length < 2 ^ 62) :
    (g.slen (word0Addr plainBase) (plainBase + 32#64)).toNat ≤ bs.length ∨
      2 ^ 64 - 40 ≤ (g.slen (word0Addr plainBase) (plainBase + 32#64)).toNat := by
  by_contra hfar
  obtain ⟨hhigh, hlow⟩ := not_or.mp hfar
  have hfits := hreads.fits
  have hmagic := low_byte_of_load_two hreads.magic
  rw [g.stop_address] at hmagic
  have hstop := g.stop_eq
  generalize g.slen (word0Addr plainBase) (plainBase + 32#64) = slen at hhigh hlow hfits hstop
  rcases Nat.lt_or_ge slen.toNat (2 ^ 63) with hpos | hneg
  · have hmsb : (BitVec.ofNat 64 bs.length - 8#64 - slen).toNat < 2 ^ 63 := by
      rw [BitVec.slt_zero_eq_msb, BitVec.msb_eq_decide, decide_eq_false_iff_not] at hfits
      exact Nat.lt_of_not_le hfits
    simp only [BitVec.toNat_sub, BitVec.toNat_ofNat] at hmsb
    omega
  · rw [hg.located (by omega) (.inr (by omega)), List.getD_eq_default _ _ (by omega)] at hmagic
    exact absurd hmagic (by decide)

end Plain

/-- What a buffer must look like whose decoding does not fail. -/
structure Accepted (bs : List UInt8) (type : SoscIpcType) : Prop where
  size : sizeofMsg ≤ bs.length
  type : (bs.getD 0 0).toNat = type.code
  zeros : ∀ i, 1 ≤ i → i < 4 → bs.getD i 0 = 0
  magic : bs.getD 24 0 = 0x5C

/-- What the buffer says about the first string that was copied out of it. -/
structure FirstString (bs : List UInt8) (a : CString) : Prop where
  bytes : ∀ i (hi : i < a.length), a.bytes[i] = bs.getD (40 + i) 0
  one : a.length = 1 → bs.getD 41 0 = 0 ∨ leNat (window bs 32 8) = 1
  near : leNat (window bs 32 8) ≤ bs.length ∨ 2 ^ 64 - 40 ≤ leNat (window bs 32 8)

/-- A message that is decoded from a buffer in otherwise empty memory. -/
theorem accepted_of_decoded {malloc : ℕ → Addr} {bs : List UInt8} (hsize : bs.length < 2 ^ 62)
    (hret : (soscIpcMsgFromBuf malloc (Heap.holding plainBase bs) plainBase
      (BitVec.ofNat 64 bs.length)).ret.slt 0#64 = false) :
    ∃ type, Accepted bs type ∧ ∃ m,
      (soscIpcMsgFromBuf malloc (Heap.holding plainBase bs) plainBase
        (BitVec.ofNat 64 bs.length)).contents (Heap.holding plainBase bs) = some m ∧
      (m.strings = [] ∨ ∃ a, FirstString bs a ∧
        (m = .deviceConnection a ∨ type = .deviceInfo ∧ ∃ b, m = .deviceInfo a b)) := by
  obtain ⟨hmin, hmagic, type, htype, -⟩ := soscIpcMsgFromBuf_inv hret
  have hbyte (i : ℕ) (hi : i < 2 ^ 64) : (Heap.holding plainBase bs).mem
      (plainBase + BitVec.ofNat 64 i) = bs.getD i 0 := Heap.holding_mem plainBase bs hi
  have haccepted : Accepted bs type := by
    obtain ⟨h₀, h₁, h₂, h₃⟩ := type_bytes htype
    rw [hbyte _ (by omega)] at h₀ h₁ h₂ h₃
    refine ⟨?_, h₀, ?_, ?_⟩
    · rw [BitVec.toNat_ofNat, Nat.mod_eq_of_lt (by omega)] at hmin
      exact hmin
    · intro i hi hi'
      interval_cases i
      · exact h₁
      · exact h₂
      · exact h₃
    · rw [← hbyte 24 (by omega)]
      exact low_byte_of_load_two hmagic
  refine ⟨type, haccepted, ?_⟩
  by_cases hstr : type = .deviceConnection ∨ type = .deviceInfo
  · obtain ⟨g, hsame, hreads, hcontents⟩ := contents_of_strings htype hstr hret
    have hg : g.Plain bs := by
      intro i hi hout
      rw [hsame i hi hout, hbyte i hi]
    have hnear := hreads.slen_near hg (le_trans (by decide) haccepted.size) hsize
    obtain ⟨a, ha⟩ : ∃ a, g.found (word0Addr plainBase) (plainBase + 32#64) = a := ⟨_, rfl⟩
    have hfirst : FirstString bs a := by
      refine ⟨fun i hi => hreads.getElem_found hg ha hi, ?_, ?_⟩
      · intro hlen
        rcases hreads.length_one hg ha hlen with hzero | hslen
        · exact .inl hzero
        · right
          rw [← toNat_ofLeBytes (length_window bs 32 8), ← hg.slen, hslen]
          rfl
      · rw [← toNat_ofLeBytes (length_window bs 32 8), ← hg.slen]
        exact hnear
    have hcontents' : _ = some (IpcMsg.deviceConnection a) ∨
        type = .deviceInfo ∧ ∃ b, _ = some (IpcMsg.deviceInfo a b) := ha ▸ hcontents
    rcases hcontents' with hconn | ⟨hinfo, b, hb⟩
    · exact ⟨.deviceConnection a, hconn, .inr ⟨a, hfirst, .inl rfl⟩⟩
    · exact ⟨.deviceInfo a b, hb, .inr ⟨a, hfirst, .inr ⟨hinfo, b, rfl⟩⟩⟩
  · obtain ⟨hconn, hinfo⟩ := not_or.mp hstr
    obtain ⟨m, hm, hnil⟩ := contents_of_header htype hconn hinfo hret
    exact ⟨m, hm, .inl hnil⟩

/-! ## A stream whose free bytes say nothing -/

/-- The header of a message whose padding and pointers consist of the byte `g`. -/
def junkHeader (g : UInt8) (c : IpcMsg) : List UInt8 :=
  [UInt8.ofNat c.type.code, 0, 0, 0, g, g, g, g, UInt8.ofNat c.port.toNat,
    UInt8.ofNat (c.port.toNat / 256), g, g, g, g, g, g, g, g, g, g, g, g, g, g,
    0x5C, 0x50, g, g, g, g, g, g]

/-- Messages with such headers, back to back. -/
def junkBytes (g : UInt8) (c : IpcMsg) : List UInt8 :=
  junkHeader g c ++ strRecords c.strings

theorem junkHeader_zero (g : UInt8) (c : IpcMsg) {i : ℕ} (hi : 1 ≤ i) (hi' : i < 4) :
    (junkHeader g c).getD i 0 = 0 := by
  interval_cases i <;> rfl

theorem junkHeader_free (g : UInt8) (c : IpcMsg) {i : ℕ} (hi : 4 ≤ i) (hi' : i < 32)
    (hport : i ≠ 8 ∧ i ≠ 9) (hmagic : i ≠ 24 ∧ i ≠ 25) :
    (junkHeader g c).getD i 0 = g := by
  interval_cases i
  all_goals first | rfl | omega

/-- Offsets behind a message boundary at which no byte but `0` and `g` stands. -/
def Quiet (i : ℕ) : Prop :=
  i < 40 ∧ i ≠ 0 ∧ i ≠ 8 ∧ i ≠ 9 ∧ i ≠ 24 ∧ i ≠ 25 ∧ i ≠ 32

/-- What is known of the bytes behind a message boundary. -/
structure Follows (g : UInt8) (rest : List UInt8) : Prop where
  zeros : ∀ i, 1 ≤ i → i < 4 → rest.getD i 0 = 0
  quiet : ∀ i, Quiet i → rest.getD i 0 = 0 ∨ rest.getD i 0 = g
  free : rest.getD 8 0 ≠ 0 ∨ rest.getD 9 0 ≠ 0 → rest.getD 7 0 = g

/-- A string record at offset `k`. -/
structure RecordAt (bs : List UInt8) (k : ℕ) (s : CString) : Prop where
  low : (bs.getD k 0).toNat = s.length
  high : ∀ i, 1 ≤ i → i < 8 → bs.getD (k + i) 0 = 0
  chars : ∀ i, i < s.length → bs.getD (k + 8 + i) 0 ∈ s.bytes
  magic₀ : bs.getD (k + 8 + s.length) 0 = 0x5C
  magic₁ : bs.getD (k + 9 + s.length) 0 = 0x50

theorem leBytes_eight {n : ℕ} (hn : n < 256) :
    leBytes 8 n = [UInt8.ofNat n, 0, 0, 0, 0, 0, 0, 0] := by
  have hdiv : n / 256 = 0 := Nat.div_eq_of_lt hn
  simp [leBytes, hdiv]

theorem recordAt_append (front post : List UInt8) {s : CString} {k : ℕ}
    (hk : front.length = k) (hs : s.length < 256) :
    RecordAt (front ++ strRecord s ++ post) k s := by
  have hrec (i : ℕ) (hi : i < 10 + s.length) :
      (front ++ strRecord s ++ post).getD (k + i) 0 = (strRecord s).getD i 0 := by
    rw [List.append_assoc, List.getD_append_right _ _ _ _ (by omega), hk,
      Nat.add_sub_cancel_left, List.getD_append _ _ _ _ (by simp; omega)]
  have hlen (i : ℕ) (hi : i < 8) : (strRecord s).getD i 0 =
      [UInt8.ofNat s.length, 0, 0, 0, 0, 0, 0, 0].getD i 0 := by
    rw [strRecord_eq, List.append_assoc, List.getD_append _ _ _ _ (by simp; omega),
      leBytes_eight hs]
  have htail (i : ℕ) : (strRecord s).getD (8 + i) 0 =
      (s.bytes ++ [0x5C, 0x50]).getD i 0 := by
    rw [strRecord_eq, List.append_assoc, List.getD_append_right _ _ _ _ (by simp),
      length_leBytes, Nat.add_sub_cancel_left]
    rfl
  refine ⟨?_, ?_, ?_, ?_, ?_⟩
  · have h0 := hrec 0 (by omega)
    rw [Nat.add_zero, hlen 0 (by omega)] at h0
    rw [h0, List.getD_cons_zero, UInt8.toNat_ofNat', Nat.mod_eq_of_lt (by omega)]
  · intro i hi hi'
    rw [hrec i (by omega), hlen i hi']
    interval_cases i <;> rfl
  · intro i hi
    rw [Nat.add_assoc, hrec _ (by omega), htail, List.getD_append _ _ _ _ hi,
      List.getD_eq_getElem _ _ hi]
    exact List.getElem_mem hi
  · rw [Nat.add_assoc, hrec _ (by omega), htail,
      List.getD_append_right _ _ _ _ (by simp)]
    simp
  · have hoff : k + 9 + s.length = k + (8 + (s.length + 1)) := by omega
    rw [hoff, hrec _ (by omega), htail, List.getD_append_right _ _ _ _ (by simp)]
    simp

theorem getD_take (l : List UInt8) (m i : ℕ) :
    (l.take m).getD i 0 = if i < m then l.getD i 0 else 0 := by
  rw [List.getD_eq_getElem?_getD, List.getElem?_take, List.getD_eq_getElem?_getD]
  split
  · rfl
  · rfl

theorem wireSize_strings_lt {c : IpcMsg} (hfit : c.wireSize ≤ soscIpcMsgBufferSize)
    {s : CString} (hs : s ∈ c.strings) : s.length < 256 := by
  have hle : 8 + s.length + 2 ≤ strBytes c.strings := by
    rw [strBytes_eq_sum]
    exact List.le_sum_of_mem (List.mem_map_of_mem hs)
  simp only [IpcMsg.wireSize, soscIpcMsgBufferSize] at hfit
  omega

@[simp] theorem length_junkHeader (g : UInt8) (c : IpcMsg) : (junkHeader g c).length = 32 := rfl

theorem getD_junkBytes_header (g : UInt8) (c : IpcMsg) (post : List UInt8) {i : ℕ}
    (hi : i < 32) : (junkBytes g c ++ post).getD i 0 = (junkHeader g c).getD i 0 := by
  rw [junkBytes, List.append_assoc, List.getD_append _ _ _ _ hi]

/-- The bytes `33`, ..., `39` of a message and what follows it. -/
theorem getD_junkBytes_tail (g : UInt8) {c : IpcMsg} {cs : List IpcMsg} {i : ℕ}
    (hfit : c.wireSize ≤ soscIpcMsgBufferSize) (hi : 33 ≤ i) (hi' : i < 40) :
    (junkBytes g c ++ cs.flatMap (junkBytes g)).getD i 0 = 0 ∨
      (junkBytes g c ++ cs.flatMap (junkBytes g)).getD i 0 = g := by
  obtain ⟨k, rfl⟩ := Nat.exists_eq_add_of_le (show 32 ≤ i by omega)
  rcases hstr : c.strings with _ | ⟨s, strs⟩
  · rw [List.getD_append_right _ _ _ _ (by simp [junkBytes, hstr])]
    have hlen : (junkBytes g c).length = 32 := by simp [junkBytes, hstr]
    rw [hlen, Nat.add_sub_cancel_left]
    rcases cs with _ | ⟨c', cs⟩
    · exact .inl rfl
    · rw [List.flatMap_cons, getD_junkBytes_header _ _ _ (by omega)]
      rcases Nat.lt_or_ge k 4 with hlow | hhigh
      · exact .inl (junkHeader_zero g c' (by omega) hlow)
      · exact .inr (junkHeader_free g c' hhigh (by omega) (by omega) (by omega))
  · left
    have hrec := recordAt_append (junkHeader g c)
      (strRecords strs ++ cs.flatMap (junkBytes g)) (length_junkHeader g c)
      (wireSize_strings_lt hfit (hstr ▸ List.mem_cons_self))
    have hbytes : junkBytes g c ++ cs.flatMap (junkBytes g) =
        junkHeader g c ++ strRecord s ++ (strRecords strs ++ cs.flatMap (junkBytes g)) := by
      simp only [junkBytes, hstr, strRecords_cons, List.append_assoc]
    rw [hbytes]
    exact hrec.high k (by omega) (by omega)

theorem follows_stream {g : UInt8} {cs : List IpcMsg}
    (hfits : ∀ c ∈ cs, c.wireSize ≤ soscIpcMsgBufferSize) (m : ℕ) :
    Follows g ((cs.flatMap (junkBytes g)).take m) := by
  rcases cs with _ | ⟨c, cs⟩
  · refine ⟨fun i _ _ => by simp, fun i _ => .inl (by simp), fun hne => ?_⟩
    simp at hne
  · simp only [List.flatMap_cons]
    refine ⟨?_, ?_, ?_⟩
    · intro i hi hi'
      rw [getD_take]
      split
      · rw [getD_junkBytes_header _ _ _ (by omega)]
        exact junkHeader_zero g c hi hi'
      · rfl
    · intro i hi
      rw [getD_take]
      split
      · obtain ⟨hlt, h0, h8, h9, h24, h25, h32⟩ := hi
        rcases Nat.lt_or_ge i 32 with hhead | htail
        · rw [getD_junkBytes_header _ _ _ hhead]
          rcases Nat.lt_or_ge i 4 with hlow | hhigh
          · exact .inl (junkHeader_zero g c (by omega) hlow)
          · exact .inr (junkHeader_free g c hhigh hhead ⟨h8, h9⟩ ⟨h24, h25⟩)
        · exact getD_junkBytes_tail g (hfits c List.mem_cons_self) (by omega) hlt
      · exact .inl rfl
    · intro hne
      have hm : 7 < m := by
        by_contra hle
        rw [getD_take, getD_take, if_neg (by omega), if_neg (by omega)] at hne
        rcases hne with h | h
        all_goals exact h rfl
      rw [getD_take, if_pos hm, getD_junkBytes_header _ _ _ (by omega)]
      rfl

/-! ## Decoding from inside a message -/

section Inside

variable {g : UInt8} {c : IpcMsg} {rest bs : List UInt8} {type : SoscIpcType} {t : ℕ}

/-- `bs` is what is left of `c`, and `rest`, when its first `t` bytes are gone. -/
def Cut (g : UInt8) (c : IpcMsg) (rest : List UInt8) (t : ℕ) : List UInt8 :=
  (junkBytes g c ++ rest).drop t

theorem getD_cut (i : ℕ) :
    (Cut g c rest t).getD i 0 = (junkBytes g c ++ rest).getD (t + i) 0 := by
  rw [Cut, List.getD_eq_getElem?_getD, List.getElem?_drop, List.getD_eq_getElem?_getD]

theorem length_junkBytes (g : UInt8) (c : IpcMsg) :
    (junkBytes g c).length = c.wireSize := by
  simp [junkBytes, IpcMsg.wireSize, sizeofMsg]

theorem getD_rest (i : ℕ) :
    (junkBytes g c ++ rest).getD (c.wireSize + i) 0 = rest.getD i 0 := by
  rw [List.getD_append_right _ _ _ _ (by rw [length_junkBytes]; omega), length_junkBytes,
    Nat.add_sub_cancel_left]

/-- No header starts inside a header. -/
theorem not_accepted_header (hg : 6 ≤ g.toNat) (ht : 0 < t) (ht' : t < 32)
    (hacc : Accepted (Cut g c rest t) type) : False := by
  have hhead (i : ℕ) (hi : t + i < 32) :
      (Cut g c rest t).getD i 0 = (junkHeader g c).getD (t + i) 0 := by
    rw [getD_cut, getD_junkBytes_header _ _ _ hi]
  have hfree (i : ℕ) (hi : 4 ≤ t + i) (hi' : t + i < 32) (hport : t + i ≠ 8 ∧ t + i ≠ 9)
      (hmagic : t + i ≠ 24 ∧ t + i ≠ 25) : (Cut g c rest t).getD i 0 = g := by
    rw [hhead i hi', junkHeader_free g c hi hi' hport hmagic]
  have hne : g ≠ 0 := by
    rintro rfl
    exact absurd hg (by decide)
  have hfirst : (Cut g c rest t).getD 0 0 ≠ g := by
    intro heq
    have hcode := type.code_le
    rw [← hacc.type, heq] at hcode
    omega
  rcases Nat.lt_or_ge t 4 with hlow | hhigh
  · -- the padding behind the type lies within the four bytes
    exact hne ((hfree (4 - t) (by omega) (by omega) (by omega) (by omega)).symm.trans
      (hacc.zeros (4 - t) (by omega) (by omega)))
  · by_cases hport : t = 8 ∨ t = 9
    · exact hne ((hfree (10 - t) (by omega) (by omega) (by omega) (by omega)).symm.trans
        (hacc.zeros (10 - t) (by omega) (by omega)))
    · by_cases hmagic : t = 24 ∨ t = 25
      · have hcode := type.code_le
        rw [← hacc.type, hhead 0 (by omega)] at hcode
        rcases hmagic with rfl | rfl
        · have hlow : (junkHeader g c).getD (24 + 0) 0 = 0x5C := rfl
          rw [hlow] at hcode
          exact absurd hcode (by decide)
        · have hhigh : (junkHeader g c).getD (25 + 0) 0 = 0x50 := rfl
          rw [hhigh] at hcode
          exact absurd hcode (by decide)
      · exact hfirst (hfree 0 (by omega) (by omega) (by omega) (by omega))

/-- The bytes of the first string, as they lie in the stream. -/
theorem FirstString.ne {a : CString} (hfirst : FirstString (Cut g c rest t) a)
    (hg : g ∉ a.bytes) {i : ℕ} (hi : i < a.length) :
    ¬ ((junkBytes g c ++ rest).getD (t + (40 + i)) 0 = 0 ∨
      (junkBytes g c ++ rest).getD (t + (40 + i)) 0 = g) := by
  have hbyte := hfirst.bytes i hi
  have hmem := List.getElem_mem hi
  rw [getD_cut] at hbyte
  rw [hbyte] at hmem
  rintro (hzero | hjunk)
  · rw [hzero] at hmem
    exact a.nulFree hmem
  · rw [hjunk] at hmem
    exact hg hmem

/-- A connection is not decoded from inside a message about the same connection. -/
theorem connection_inside {s : CString} (hrest : Follows g rest) (hmagic : g ≠ 0x5C)
    (hg : g ∉ s.bytes) (ht : 32 ≤ t) (ht' : t < (IpcMsg.deviceConnection s).wireSize)
    (hacc : Accepted (Cut g (.deviceConnection s) rest t) type)
    (hfirst : FirstString (Cut g (.deviceConnection s) rest t) s) : False := by
  have hsize : (IpcMsg.deviceConnection s).wireSize = 42 + s.length := by
    simp only [IpcMsg.wireSize, IpcMsg.strings, strBytes_cons, strBytes_nil, sizeofMsg]
    omega
  have hbehind (i j : ℕ) (hij : i = 42 + s.length + j) :
      (junkBytes g (.deviceConnection s) ++ rest).getD i 0 = rest.getD j 0 := by
    rw [hij, ← hsize, getD_rest]
  rw [hsize] at ht'
  rcases Nat.lt_or_ge s.length 3 with hshort | hlong
  · -- the magic would lie in the header of the next message
    have hbyte := hacc.magic
    rw [getD_cut, hbehind (t + 24) (t - 18 - s.length) (by omega)] at hbyte
    rcases hrest.quiet (t - 18 - s.length) (by unfold Quiet; omega) with hzero | hjunk
    · rw [hzero] at hbyte
      exact absurd hbyte (by decide)
    · exact hmagic (hjunk.symm.trans hbyte)
  · rcases Nat.lt_or_ge (t + 40) (44 + s.length) with hin | hout
    · -- the string would go on until after the type of the next message
      apply hfirst.ne hg (i := 43 + s.length - (t + 40)) (by omega)
      left
      rw [hbehind _ 1 (by omega)]
      exact hrest.zeros 1 (by omega) (by omega)
    · -- the string would lie in the header of the next message
      obtain ⟨i, hi, hquiet⟩ : ∃ i < 3, Quiet (t + 40 + i - (42 + s.length)) := by
        unfold Quiet
        by_cases htwo : t = 10 + s.length ∨ t = 26 + s.length
        · exact ⟨2, by omega, by omega⟩
        · by_cases hone : t = 11 + s.length ∨ t = 27 + s.length ∨ t = 34 + s.length
          · exact ⟨1, by omega, by omega⟩
          · exact ⟨0, by omega, by omega⟩
      apply hfirst.ne hg (i := i) (by omega)
      rw [hbehind _ (t + 40 + i - (42 + s.length)) (by omega)]
      exact hrest.quiet _ hquiet

/-- Where a `SOSC_DEVICE_INFO` type can be seen inside such a message. -/
theorem info_type_inside {S : List UInt8} {a b : CString} (ha : RecordAt S 32 a)
    (hb : RecordAt S (42 + a.length) b) (ht : 32 ≤ t) (ht' : t < 52 + a.length + b.length)
    (htype : (S.getD t 0).toNat = 1) (hzero : S.getD (t + 1) 0 = 0) :
    (t = 32 ∧ a.length = 1) ∨ (t = 42 + a.length ∧ b.length = 1) := by
  -- inside a record, a one is only followed by a zero where the length is one
  have hrecord (k : ℕ) (s : CString) (hs : RecordAt S k s) (hk : k ≤ t)
      (hk' : t < k + 10 + s.length) : t = k ∧ s.length = 1 := by
    rcases Nat.eq_or_lt_of_le hk with rfl | hlt
    · exact ⟨rfl, hs.low.symm.trans htype⟩
    · exfalso
      rcases Nat.lt_or_ge t (k + 8) with hlen | hchars
      · have hbyte := hs.high (t - k) (by omega) (by omega)
        rw [Nat.add_sub_cancel' hk] at hbyte
        rw [hbyte] at htype
        exact absurd htype (by decide)
      · rcases Nat.lt_or_ge (t + 1) (k + 8 + s.length) with hnext | hlast
        · have hchar := hs.chars (t + 1 - (k + 8)) (by omega)
          rw [Nat.add_sub_cancel' (by omega), hzero] at hchar
          exact s.nulFree hchar
        · have h₀ := hs.magic₀
          have h₁ := hs.magic₁
          obtain heq | heq | heq : t + 1 = k + 8 + s.length ∨ t = k + 8 + s.length ∨
            t = k + 9 + s.length := by omega
          · rw [← heq, hzero] at h₀
            exact absurd h₀ (by decide)
          · rw [← heq] at h₀
            rw [h₀] at htype
            exact absurd htype (by decide)
          · rw [← heq] at h₁
            rw [h₁] at htype
            exact absurd htype (by decide)
  rcases Nat.lt_or_ge t (42 + a.length) with hfirst | hsecond
  · exact .inl (hrecord 32 a ha ht (by omega))
  · exact .inr (hrecord _ b hb hsecond (by omega))

/-- The length of the first string, byte by byte. -/
theorem leNat_window_cut : leNat (window (Cut g c rest t) 32 8) =
    leNat ((List.range 8).map fun k =>
      (junkBytes g c ++ rest).getD (t + (32 + k)) 0) := by
  congr 1
  apply List.map_congr_left
  intro k _
  exact getD_cut _

/-- The same, as a number. -/
theorem leNat_window_eq : leNat (window (Cut g c rest 32) 32 8) =
    ((junkBytes g c ++ rest).getD 64 0).toNat + 256 *
      (((junkBytes g c ++ rest).getD 65 0).toNat + 256 *
        (((junkBytes g c ++ rest).getD 66 0).toNat + 256 *
          (((junkBytes g c ++ rest).getD 67 0).toNat + 256 *
            (((junkBytes g c ++ rest).getD 68 0).toNat + 256 *
              (((junkBytes g c ++ rest).getD 69 0).toNat + 256 *
                (((junkBytes g c ++ rest).getD 70 0).toNat + 256 *
                  ((junkBytes g c ++ rest).getD 71 0).toNat)))))) := by
  rw [leNat_window_cut]
  rfl

/-- The length stays below `2 ^ 64 - 40` when its second byte is zero, and
above `2 ^ 48` when one of its two high bytes is set. -/
theorem not_near {bs : List UInt8} (b₀ b₁ b₂ b₃ b₄ b₅ b₆ b₇ : UInt8)
    (hslen : leNat (window bs 32 8) = leNat [b₀, b₁, b₂, b₃, b₄, b₅, b₆, b₇])
    (hsmall : bs.length < 2 ^ 48) (hlow : b₁ = 0 ∨ b₇.toNat < 255)
    (hhigh : 0 < b₆.toNat ∨ 0 < b₇.toNat) :
    ¬ (leNat (window bs 32 8) ≤ bs.length ∨ 2 ^ 64 - 40 ≤ leNat (window bs 32 8)) := by
  have h₀ := b₀.toNat_lt
  have h₁ := b₁.toNat_lt
  have h₂ := b₂.toNat_lt
  have h₃ := b₃.toNat_lt
  have h₄ := b₄.toNat_lt
  have h₅ := b₅.toNat_lt
  have h₆ := b₆.toNat_lt
  have h₇ := b₇.toNat_lt
  have hlow' : b₁.toNat = 0 ∨ b₇.toNat < 255 := by
    rcases hlow with rfl | hlt
    · exact .inl rfl
    · exact .inr hlt
  rw [hslen]
  simp only [leNat]
  omega

/-- A first string that starts 64 bytes into a message would be out of reach. -/
theorem FirstString.not_far {a : CString} (hfirst : FirstString (Cut g c rest 32) a)
    (hsmall : (Cut g c rest 32).length < 2 ^ 48)
    (hlow : (junkBytes g c ++ rest).getD 65 0 = 0 ∨
      ((junkBytes g c ++ rest).getD 71 0).toNat < 255)
    (hhigh : 0 < ((junkBytes g c ++ rest).getD 70 0).toNat ∨
      0 < ((junkBytes g c ++ rest).getD 71 0).toNat) : False :=
  not_near _ _ _ _ _ _ _ _ leNat_window_cut hsmall hlow hhigh hfirst.near

/-- With a short friendly name, the serial would be one byte of the next header. -/
theorem info_inside_header {a : CString} {n : ℕ} (hrest : Follows g rest) (hmin : 6 ≤ g.toNat)
    (hg : g ∉ a.bytes) (hone : a.length = 1)
    (hbehind : ∀ j, (junkBytes g c ++ rest).getD (53 + n + j) 0 = rest.getD j 0)
    (hfirst : FirstString (Cut g c rest 32) a)
    (hsmall : (Cut g c rest 32).length < 2 ^ 48) (hshort : n < 19) : False := by
  have hne := hfirst.ne hg (i := 0) (by omega)
  have hnext : (junkBytes g c ++ rest).getD 72 0 = rest.getD (19 - n) 0 := by
    rw [← hbehind, show 53 + n + (19 - n) = 72 by omega]
  rw [show 32 + (40 + 0) = 72 from rfl, hnext] at hne
  have hport : n = 11 ∨ n = 10 := by
    by_contra hport
    exact hne (hrest.quiet _ (by unfold Quiet; omega))
  rcases hport with rfl | rfl
  · have hfree := hrest.free (.inl fun h => hne (.inl h))
    have h₁ : (junkBytes g c ++ rest).getD 65 0 = 0 :=
      (hbehind 1).trans (hrest.zeros 1 (by omega) (by omega))
    have h₇ : (junkBytes g c ++ rest).getD 71 0 = g := (hbehind 7).trans hfree
    exact hfirst.not_far hsmall (.inl h₁) (.inr (by rw [h₇]; omega))
  · have hfree := hrest.free (.inr fun h => hne (.inl h))
    have h₁ : (junkBytes g c ++ rest).getD 65 0 = 0 :=
      (hbehind 2).trans (hrest.zeros 2 (by omega) (by omega))
    have h₆ : (junkBytes g c ++ rest).getD 70 0 = g := (hbehind 7).trans hfree
    exact hfirst.not_far hsmall (.inl h₁) (.inl (by rw [h₆]; omega))

/-- With a long friendly name, a byte of it or of its magic would have to be the
one that ends the serial. -/
theorem info_inside_name {a b : CString} (hone : a.length = 1)
    (hb : RecordAt (junkBytes g c ++ rest) (42 + 1) b)
    (hfirst : FirstString (Cut g c rest 32) a)
    (hsmall : (Cut g c rest 32).length < 2 ^ 48) (hlong : 19 ≤ b.length) : False := by
  by_cases h19 : b.length = 19
  · have h₇ := hb.magic₁
    rw [h19] at h₇
    exact hfirst.not_far hsmall (.inr (by rw [h₇]; decide)) (.inr (by rw [h₇]; decide))
  by_cases h20 : b.length = 20
  · have h₇ := hb.magic₀
    rw [h20] at h₇
    exact hfirst.not_far hsmall (.inr (by rw [h₇]; decide)) (.inr (by rw [h₇]; decide))
  have hchar (i : ℕ) (hi : i < b.length) :
      (junkBytes g c ++ rest).getD (42 + 1 + 8 + i) 0 ≠ 0 := by
    intro hzero
    have hmem := hb.chars i hi
    rw [hzero] at hmem
    exact b.nulFree hmem
  rcases hfirst.one hone with hend | hslen
  · rw [getD_cut] at hend
    by_cases h21 : b.length = 21
    · have hbyte := hb.magic₁
      rw [h21, show 42 + 1 + 9 + 21 = 32 + 41 from rfl, hend] at hbyte
      exact absurd hbyte (by decide)
    · by_cases h22 : b.length = 22
      · have hbyte := hb.magic₀
        rw [h22, show 42 + 1 + 8 + 22 = 32 + 41 from rfl, hend] at hbyte
        exact absurd hbyte (by decide)
      · exact hchar 22 (by omega) hend
  · apply hchar 14 (by omega)
    rw [leNat_window_eq] at hslen
    apply UInt8.toNat_inj.mp
    change ((junkBytes g c ++ rest).getD 65 0).toNat = 0
    omega

/-- A device info is not decoded from inside a message about the same device. -/
theorem info_inside {a b : CString} (hrest : Follows g rest) (hmin : 6 ≤ g.toNat)
    (hmagic : g ≠ 0x5C) (hg : g ∉ a.bytes)
    (hfit : (IpcMsg.deviceInfo a b).wireSize ≤ soscIpcMsgBufferSize) (ht : 32 ≤ t)
    (ht' : t < (IpcMsg.deviceInfo a b).wireSize)
    (hacc : Accepted (Cut g (.deviceInfo a b) rest t) .deviceInfo)
    (hfirst : FirstString (Cut g (.deviceInfo a b) rest t) a)
    (hsmall : (Cut g (.deviceInfo a b) rest t).length < 2 ^ 48) : False := by
  have hsize : (IpcMsg.deviceInfo a b).wireSize = 52 + a.length + b.length := by
    simp only [IpcMsg.wireSize, IpcMsg.strings, strBytes_cons, strBytes_nil, sizeofMsg]
    omega
  have hbehind (i j : ℕ) (hij : i = 52 + a.length + b.length + j) :
      (junkBytes g (.deviceInfo a b) ++ rest).getD i 0 = rest.getD j 0 := by
    rw [hij, ← hsize, getD_rest]
  have ha : RecordAt (junkBytes g (.deviceInfo a b) ++ rest) 32 a := by
    have hrec := recordAt_append (junkHeader g (.deviceInfo a b)) (strRecord b ++ rest)
      (length_junkHeader g _) (wireSize_strings_lt hfit List.mem_cons_self)
    simpa [junkBytes, IpcMsg.strings] using hrec
  have hb : RecordAt (junkBytes g (.deviceInfo a b) ++ rest) (42 + a.length) b := by
    have hrec := recordAt_append (k := 42 + a.length)
      (junkHeader g (.deviceInfo a b) ++ strRecord a) rest (by simp; omega)
      (wireSize_strings_lt hfit (List.mem_cons_of_mem _ List.mem_cons_self))
    simpa [junkBytes, IpcMsg.strings] using hrec
  rw [hsize] at ht'
  have htype := hacc.type
  have hzero := hacc.zeros 1 (by omega) (by omega)
  have hmagic' := hacc.magic
  rw [getD_cut] at htype hzero hmagic'
  rcases info_type_inside ha hb ht ht' htype hzero with ⟨rfl, hone⟩ | ⟨rfl, hone⟩
  · -- the serial is one byte long, and `1` is taken for the type
    rcases Nat.lt_or_ge b.length 19 with hshort | hlong
    · exact info_inside_header hrest hmin hg hone
        (fun j => hbehind (53 + b.length + j) j (by omega)) hfirst hsmall hshort
    · exact info_inside_name hone (hone ▸ hb) hfirst hsmall hlong
  · -- the magic would lie in the header of the next message
    rw [hbehind _ 13 (by omega)] at hmagic'
    rcases hrest.quiet 13 (by unfold Quiet; omega) with hzero' | hjunk
    · rw [hzero'] at hmagic'
      exact absurd hmagic' (by decide)
    · exact hmagic (hjunk.symm.trans hmagic')

/-- Decoding from inside a message fails, or finds another message. -/
theorem inside_misread (malloc : ℕ → Addr) (hmin : 6 ≤ g.toNat) (hmagic : g ≠ 0x5C)
    (hg : ∀ s ∈ c.strings, g ∉ s.bytes) (hfit : c.wireSize ≤ soscIpcMsgBufferSize)
    (hrest : Follows g rest) (ht : 0 < t) (ht' : t < c.wireSize)
    (hsmall : (Cut g c rest t).length < 2 ^ 48) :
    let h := Heap.holding plainBase (Cut g c rest t)
    let d := soscIpcMsgFromBuf malloc h plainBase (BitVec.ofNat 64 (Cut g c rest t).length)
    d.ret.slt 0#64 = true ∨ ∃ m, d.contents h = some m ∧ m ≠ c := by
  intro h d
  by_cases hret : d.ret.slt 0#64 = true
  · exact .inl hret
  · right
    obtain ⟨type, hacc, m, hm, hfound⟩ := accepted_of_decoded (by omega)
      (Bool.eq_false_of_not_eq_true hret)
    refine ⟨m, hm, ?_⟩
    rintro rfl
    rcases Nat.lt_or_ge t 32 with hheader | hstrings
    · exact not_accepted_header hmin ht hheader hacc
    · rcases hfound with hnil | ⟨a, hfirst, rfl | ⟨rfl, b, rfl⟩⟩
      · rw [IpcMsg.wireSize, hnil] at ht'
        exact absurd ht' (Nat.not_lt.mpr hstrings)
      · exact connection_inside hrest hmagic (hg a List.mem_cons_self) hstrings ht' hacc
          hfirst
      · exact info_inside hrest hmin hmagic (hg a List.mem_cons_self) hfit hstrings ht' hacc
          hfirst hsmall

end Inside

/-- A byte that leaves the strings of a message alone. -/
theorem exists_junk {c : IpcMsg} (hfit : c.wireSize ≤ soscIpcMsgBufferSize) :
    ∃ g : UInt8, 6 ≤ g.toNat ∧ g ≠ 0x5C ∧ ∀ s ∈ c.strings, g ∉ s.bytes := by
  let used := [0, 1, 2, 3, 4, 5, 0x5C] ++ c.strings.flatMap CString.bytes
  have hlen : used.length < 256 := by
    have hle : (c.strings.flatMap CString.bytes).length ≤ strBytes c.strings := by
      rw [List.length_flatMap, strBytes_eq_sum]
      apply List.sum_le_sum
      intro s _
      rw [CString.length_bytes]
      omega
    simp only [IpcMsg.wireSize, sizeofMsg, soscIpcMsgBufferSize] at hfit
    simp only [used, List.length_append, List.length_cons, List.length_nil]
    omega
  obtain ⟨n, hn, hfree⟩ : ∃ n ∈ List.range 256, n ∉ used.map UInt8.toNat := by
    by_contra hall
    push Not at hall
    have hle := (List.nodup_range.subperm hall).length_le
    rw [List.length_range, List.length_map] at hle
    omega
  have hlt := List.mem_range.mp hn
  have hto : (UInt8.ofNat n).toNat = n := by
    rw [UInt8.toNat_ofNat', Nat.mod_eq_of_lt hlt]
  have hused (b : UInt8) (hb : b ∈ used) : UInt8.ofNat n ≠ b := by
    rintro rfl
    apply hfree
    have hmap := List.mem_map_of_mem (f := UInt8.toNat) hb
    rwa [hto] at hmap
  refine ⟨UInt8.ofNat n, ?_, hused 0x5C (by simp [used]), ?_⟩
  · rw [hto]
    by_contra hlow
    apply hfree
    rw [List.map_append]
    apply List.mem_append_left
    change n ∈ [0, 1, 2, 3, 4, 5, 0x5C]
    simp only [List.mem_cons, List.not_mem_nil]
    omega
  · intro s hs hmem
    exact hused _ (List.mem_append_right _ (List.mem_flatMap.mpr ⟨s, hs, hmem⟩)) rfl

/-! ## Such a stream can be sent -/

/-- The structure with the header `junkHeader g c`. -/
def junkMsg (g : UInt8) (c : IpcMsg) : SoscIpcMsg where
  type := ofLeBytes 4 [UInt8.ofNat c.type.code, 0, 0, 0]
  pad0 := ofLeBytes 4 [g, g, g, g]
  word0 := ofLeBytes 8
    [UInt8.ofNat c.port.toNat, UInt8.ofNat (c.port.toNat / 256), g, g, g, g, g, g]
  word1 := ofLeBytes 8 [g, g, g, g, g, g, g, g]
  magic := 0
  pad1 := ofLeBytes 6 [g, g, g, g, g, g]

/-- The strings of `c` at the pointers of `junkMsg g c`. -/
def junkStrAt (g : UInt8) (c : IpcMsg) (p : Addr) : CString :=
  if p = (junkMsg g c).word0 then c.strings.getD 0 default else c.strings.getD 1 default

theorem junkMsg_contents {g : UInt8} (hg : g ≠ 0) (c : IpcMsg) :
    (junkMsg g c).contents (junkStrAt g c) = some c := by
  have htype : SoscIpcType.ofRaw (junkMsg g c).type = some c.type := by
    cases c <;> rfl
  have hfirst : junkStrAt g c (junkMsg g c).word0 = c.strings.getD 0 default := if_pos rfl
  rw [SoscIpcMsg.contents, htype]
  cases c with
  | deviceConnection devnode => exact congrArg (some ∘ IpcMsg.deviceConnection) hfirst
  | deviceInfo serial friendly =>
    have hne : (junkMsg g (.deviceInfo serial friendly)).word1 ≠
        (junkMsg g (.deviceInfo serial friendly)).word0 := by
      intro heq
      have hbytes := congrArg (fun v : BitVec (8 * 8) => leBytes 8 v.toNat) heq
      simp only [junkMsg, leBytes_ofLeBytes, List.length_cons, List.length_nil,
        Nat.reduceAdd] at hbytes
      exact hg (List.cons.inj hbytes).1
    have hsecond : junkStrAt g (.deviceInfo serial friendly)
        (junkMsg g (.deviceInfo serial friendly)).word1 = friendly := if_neg hne
    exact congrArg some (congrArg₂ IpcMsg.deviceInfo hfirst hsecond)
  | deviceReady => rfl
  | deviceDisconnection => rfl
  | oscPortChange port =>
    have hport : (junkMsg g (.oscPortChange port)).port = port := by
      apply BitVec.eq_of_toNat_eq
      rw [SoscIpcMsg.port, BitVec.toNat_setWidth]
      have hword : (junkMsg g (.oscPortChange port)).word0.toNat = _ :=
        toNat_ofLeBytes rfl
      have hlt := port.isLt
      rw [hword]
      simp only [leNat, UInt8.toNat_ofNat', IpcMsg.port]
      omega
    exact congrArg (some ∘ IpcMsg.oscPortChange) hport
  | processShouldExit => rfl

/-- The message `c` as a sender with such pointers and padding sends it. -/
def junkOutgoing (g : UInt8) (hg : g ≠ 0) (c : IpcMsg)
    (hfit : c.wireSize ≤ soscIpcMsgBufferSize) : Outgoing where
  strAt := junkStrAt g c
  mem := fun _ => 0
  buf := 0
  msg := junkMsg g c
  contents := c
  contents_eq := junkMsg_contents hg c
  fits := hfit

theorem bytes_junkOutgoing {g : UInt8} (hg : g ≠ 0) {c : IpcMsg}
    (hfit : c.wireSize ≤ soscIpcMsgBufferSize) :
    (junkOutgoing g hg c hfit).bytes = junkBytes g c := by
  have himage : (junkMsg g c).setMagic.image = junkHeader g c := by
    simp only [SoscIpcMsg.setMagic, SoscIpcMsg.image, junkMsg, leBytes_ofLeBytes,
      List.length_cons, List.length_nil, Nat.reduceAdd]
    rfl
  rw [Outgoing.bytes_eq, wireBytes, junkBytes, junkOutgoing, himage]

end Serialosc
