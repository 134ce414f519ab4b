import Serialosc.Ipc.Dispatch

/-!
# What a decoder that succeeds has seen

The converse of the decoding lemmas: whatever lies in the buffer, a decoder
that returns a message has found the magic, a known type and, for the types
with strings, a length and a magic for each of them.  From this it follows
that the dispatch loop always comes to an end.
-/

namespace Serialosc

open ByteMemory

/-- The length that `strdata_from_buf` finds at `buf`. -/
def Heap.slen (h : Heap) (cur buf : Addr) : BitVec 64 :=
  load 8 (h.storePtr cur 0#64).mem buf

/-- The memory before the string at `buf` is terminated. -/
def Heap.located (h : Heap) (cur buf : Addr) : Mem :=
  ((h.storePtr cur 0#64).storePtr cur (buf + 8#64)).mem

/-- The memory in which the string at `buf` is copied. -/
def Heap.terminated (h : Heap) (cur buf : Addr) : Mem :=
  write (h.located cur buf) (buf + 8#64 + h.slen cur buf) [0]

/-- The string that is copied. -/
def Heap.found (h : Heap) (cur buf : Addr) : CString :=
  cstringAt (h.terminated cur buf) (load 8 (h.terminated cur buf) cur)

/-- The heap with which the loop goes on. -/
def Heap.copied (h : Heap) (malloc : ℕ → Addr) (cur buf : Addr) : Heap :=
  Heap.storePtr
    { mem := h.terminated cur buf, copies := h.copies ++ [h.found cur buf] }
    cur (malloc h.copies.length)

section Strings

variable {malloc : ℕ → Addr} {h h' : Heap} {cur buf : Addr} {rest curs : List Addr}
  {avail left : BitVec 64}

/-- What a string must have looked like that has been read. -/
theorem strdataFromBufLoop_inv
    (hrun : strdataFromBufLoop malloc h buf avail (cur :: rest) = (h', some left)) :
    (avail - 8#64 - h.slen cur buf).slt 0#64 = false ∧
      load 2 (h.located cur buf) (buf + 8#64 + h.slen cur buf) = ipcMagic ∧
      strdataFromBufLoop malloc (h.copied malloc cur buf)
        (buf + 8#64 + h.slen cur buf + 2#64)
        (avail - 8#64 - h.slen cur buf - 2#64) rest = (h', some left) := by
  rw [strdataFromBufLoop] at hrun
  split at hrun
  · cases hrun
  · next buf₁ avail₁ hwalk₁ =>
    obtain ⟨-, rfl, rfl⟩ := bufWalk_eq_some hwalk₁
    dsimp only at hrun
    split at hrun
    · cases hrun
    · next buf₂ avail₂ hwalk₂ =>
      obtain ⟨hneg, rfl, rfl⟩ := bufWalk_eq_some hwalk₂
      split at hrun
      · cases hrun
      · next buf₃ avail₃ hwalk₃ =>
        obtain ⟨-, rfl, rfl⟩ := bufWalk_eq_some hwalk₃
        split at hrun
        · cases hrun
        · next hmagic =>
          simp only [BitVec.add_sub_cancel, sStrdup] at hrun
          exact ⟨hneg, not_not.mp hmagic, hrun⟩

theorem copies_strdataFromBufLoop
    (hrun : strdataFromBufLoop malloc h buf avail curs = (h', some left)) :
    ∃ strs, h'.copies = h.copies ++ strs ∧ strs.length = curs.length := by
  induction curs generalizing h buf avail with
  | nil =>
    rw [strdataFromBufLoop, Prod.mk.injEq] at hrun
    exact ⟨[], by rw [hrun.1, List.append_nil], rfl⟩
  | cons cur rest ih =>
    obtain ⟨strs, hcopies, hlen⟩ := ih (strdataFromBufLoop_inv hrun).2.2
    refine ⟨h.found cur buf :: strs, ?_, congrArg Nat.succ hlen⟩
    rw [hcopies, Heap.copied, Heap.copies_storePtr, List.append_assoc]
    rfl

end Strings

/-- `m'` is `m`, except that bytes of the type at `p` may have been zeroed. -/
def Lowered (m m' : Mem) (p : Addr) : Prop :=
  ∀ i < 4, m' (p + BitVec.ofNat 64 i) = m (p + BitVec.ofNat 64 i) ∨
    m' (p + BitVec.ofNat 64 i) = 0

theorem Lowered.refl (m : Mem) (p : Addr) : Lowered m m p :=
  fun _ _ => .inl rfl

theorem Lowered.trans {m₁ m₂ m₃ : Mem} {p : Addr} (h₁ : Lowered m₁ m₂ p)
    (h₂ : Lowered m₂ m₃ p) : Lowered m₁ m₃ p := by
  intro i hi
  rcases h₂ i hi with heq | hzero
  · rw [heq]
    exact h₁ i hi
  · exact .inr hzero

theorem Lowered.of_zero (m : Mem) (p q : Addr) : Lowered m (write m q [0]) p := by
  intro i _
  rcases Nat.lt_or_ge 0 (p + BitVec.ofNat 64 i - q).toNat with hfar | hat
  · exact .inl (write_outside hfar)
  · right
    rw [write, Nat.le_zero.mp hat]
    rfl

/-- The pointer members lie behind the type. -/
def Member (p cur : Addr) : Prop := cur = word0Addr p ∨ cur = word1Addr p

theorem Member.distance {p cur : Addr} (hcur : Member p cur) {i : ℕ} (hi : i < 2 ^ 64)
    (hout : i < 8 ∨ 24 ≤ i) : 8 ≤ (p + BitVec.ofNat 64 i - cur).toNat := by
  rcases hcur with rfl | rfl
  · rcases hout with hlow | hhigh
    · have hdist := offset_sub_toNat_of_lt p (i := i) (k := 8) hlow (by omega)
      rw [word0Addr]
      omega
    · have hdist := offset_sub_toNat p (i := i) (k := 8) (by omega) hi
      rw [word0Addr]
      omega
  · rcases hout with hlow | hhigh
    · have hdist := offset_sub_toNat_of_lt p (i := i) (k := 16) (by omega) (by omega)
      rw [word1Addr]
      omega
    · have hdist := offset_sub_toNat p (i := i) (k := 16) (by omega) hi
      rw [word1Addr]
      omega

/-- Setting a pointer member touches the header only. -/
theorem Member.storePtr_mem {p cur : Addr} (hcur : Member p cur) (h : Heap) (v : Addr)
    {i : ℕ} (hi : i < 2 ^ 64) (hout : i < 8 ∨ 24 ≤ i) :
    (h.storePtr cur v).mem (p + BitVec.ofNat 64 i) = h.mem (p + BitVec.ofNat 64 i) := by
  apply write_outside
  rw [length_leBytes]
  exact hcur.distance hi hout

theorem Member.lowered_storePtr {p cur : Addr} (hcur : Member p cur) (h : Heap) (v : Addr) :
    Lowered h.mem (h.storePtr cur v).mem p := by
  intro i hi
  exact .inl (hcur.storePtr_mem h v (by omega) (.inl (by omega)))

theorem lowered_strdataFromBufLoop {malloc : ℕ → Addr} {h h' : Heap} {p buf : Addr}
    {curs : List Addr} {avail left : BitVec 64} (hcurs : ∀ cur ∈ curs, Member p cur)
    (hrun : strdataFromBufLoop malloc h buf avail curs = (h', some left)) :
    Lowered h.mem h'.mem p := by
  induction curs generalizing h buf avail with
  | nil =>
    rw [strdataFromBufLoop, Prod.mk.injEq] at hrun
    rw [hrun.1]
    exact .refl _ _
  | cons cur rest ih =>
    have hcur := hcurs cur List.mem_cons_self
    have htail := ih (fun c hc => hcurs c (List.mem_cons_of_mem _ hc))
      (strdataFromBufLoop_inv hrun).2.2
    have hlocated : Lowered h.mem (h.located cur buf) p :=
      (hcur.lowered_storePtr h 0#64).trans (hcur.lowered_storePtr _ _)
    have hterminated : Lowered (h.located cur buf) (h.terminated cur buf) p :=
      .of_zero _ _ _
    have hcopied : Lowered (h.terminated cur buf) (h.copied malloc cur buf).mem p :=
      hcur.lowered_storePtr { mem := h.terminated cur buf, copies := _ } _
    exact ((hlocated.trans hterminated).trans hcopied).trans htail


section Header

variable {malloc : ℕ → Addr} {h : Heap} {p : Addr} {n : BitVec 64}

/-- What a buffer must look like whose decoding does not fail. -/
theorem soscIpcMsgFromBuf_inv
    (hret : (soscIpcMsgFromBuf malloc h p n).ret.slt 0#64 = false) :
    sizeofMsg ≤ n.toNat ∧ load 2 h.mem (magicAddr p) = ipcMagic ∧
      ∃ type, SoscIpcType.ofRaw (load 4 h.mem p) = some type ∧
        let r := stringsFromBuf malloc h p (p + BitVec.ofNat 64 sizeofMsg) n type
        r.2.slt 0#64 = false ∧
          soscIpcMsgFromBuf malloc h p n =
            { heap := r.1, ret := n - (n - BitVec.ofNat 64 sizeofMsg - r.2),
              msg := some p } := by
  by_cases hhead : n.toNat < sizeofMsg ∨ load 2 h.mem (magicAddr p) ≠ ipcMagic
  · rw [soscIpcMsgFromBuf, if_pos hhead] at hret
    exact absurd (ssizeError_slt.symm.trans hret) Bool.noConfusion
  · obtain ⟨hsize, hmagic⟩ := not_or.mp hhead
    refine ⟨Nat.le_of_not_lt hsize, not_not.mp hmagic, ?_⟩
    cases htype : SoscIpcType.ofRaw (load 4 h.mem p) with
    | none =>
      simp only [soscIpcMsgFromBuf, if_neg hhead, htype] at hret
      exact absurd (ssizeError_slt.symm.trans hret) Bool.noConfusion
    | some type =>
      refine ⟨type, rfl, ?_⟩
      by_cases hneg : (stringsFromBuf malloc h p (p + BitVec.ofNat 64 sizeofMsg) n
          type).2.slt 0#64 = true
      · simp only [soscIpcMsgFromBuf, if_neg hhead, htype, if_pos hneg] at hret
        exact absurd (ssizeError_slt.symm.trans hret) Bool.noConfusion
      · refine ⟨Bool.eq_false_of_not_eq_true hneg, ?_⟩
        simp only [soscIpcMsgFromBuf, if_neg hhead, htype, if_neg hneg]

theorem strdataFromBuf_inv {buf : Addr} {curs : List Addr}
    (hret : (strdataFromBuf malloc h buf n curs).2.slt 0#64 = false) :
    ∃ left, strdataFromBufLoop malloc h buf n curs =
      ((strdataFromBuf malloc h buf n curs).1, some left) := by
  rw [strdataFromBuf] at hret ⊢
  split at hret
  · exact absurd (ssizeError_slt.symm.trans hret) Bool.noConfusion
  · next h' left hrun =>
    exact ⟨left, by rw [hrun]⟩

end Header

theorem load_four (m : Mem) (p : Addr) :
    load 4 m p = ofLeBytes 4 [m (p + BitVec.ofNat 64 0), m (p + BitVec.ofNat 64 1),
      m (p + BitVec.ofNat 64 2), m (p + BitVec.ofNat 64 3)] := rfl

/-- A valid type is one byte. -/
theorem type_bytes {m : Mem} {p : Addr} {type : SoscIpcType}
    (htype : SoscIpcType.ofRaw (load 4 m p) = some type) :
    (m (p + BitVec.ofNat 64 0)).toNat = type.code ∧ m (p + BitVec.ofNat 64 1) = 0 ∧
      m (p + BitVec.ofNat 64 2) = 0 ∧ m (p + BitVec.ofNat 64 3) = 0 := by
  have hcode := SoscIpcType.code_of_ofRaw htype
  have hle := type.code_le
  rw [load, toNat_ofLeBytes (length_read m p 4)] at hcode
  change leNat [m (p + BitVec.ofNat 64 0), m (p + BitVec.ofNat 64 1),
    m (p + BitVec.ofNat 64 2), m (p + BitVec.ofNat 64 3)] = _ at hcode
  simp only [leNat] at hcode
  refine ⟨by omega, ?_, ?_, ?_⟩
  all_goals
    apply UInt8.toNat_inj.mp
    rw [UInt8.toNat_zero]
    omega

theorem type_lowered {m m' : Mem} {p : Addr} {type : SoscIpcType}
    (htype : SoscIpcType.ofRaw (load 4 m p) = some type) (hlow : Lowered m m' p) :
    SoscIpcType.ofRaw (load 4 m' p) = some type ∨
      SoscIpcType.ofRaw (load 4 m' p) = some .deviceConnection := by
  obtain ⟨-, h₁, h₂, h₃⟩ := type_bytes htype
  have hzero (i : ℕ) (hi : i < 4) (hm : m (p + BitVec.ofNat 64 i) = 0) :
      m' (p + BitVec.ofNat 64 i) = 0 := by
    rcases hlow i hi with heq | h0
    · rw [heq, hm]
    · exact h0
  have hload : load 4 m' p = ofLeBytes 4 [m' (p + BitVec.ofNat 64 0), 0, 0, 0] := by
    rw [load_four, hzero 1 (by omega) h₁, hzero 2 (by omega) h₂,
      hzero 3 (by omega) h₃]
  rcases hlow 0 (by omega) with heq | h0
  · left
    rw [hload, heq, ← htype, load_four, h₁, h₂, h₃]
  · right
    rw [hload, h0]
    rfl

/-- `strdata_from_buf` has read a string at `buf` in the heap `g`. -/
structure Heap.Reads (g : Heap) (cur buf : Addr) (n : BitVec 64) : Prop where
  fits : (n - 8#64 - g.slen cur buf).slt 0#64 = false
  magic : load 2 (g.located cur buf) (buf + 8#64 + g.slen cur buf) = ipcMagic

section Found

variable {malloc : ℕ → Addr} {h : Heap} {p : Addr} {n : BitVec 64} {type : SoscIpcType}

theorem stringsFromBuf_inv {buf : Addr}
    (hstr : type = .deviceConnection ∨ type = .deviceInfo)
    (hret : (stringsFromBuf malloc h p buf n type).2.slt 0#64 = false) :
    ∃ g : Heap,
      (∀ i < 2 ^ 64, i < 8 ∨ 24 ≤ i →
        g.mem (p + BitVec.ofNat 64 i) = h.mem (p + BitVec.ofNat 64 i)) ∧
      g.Reads (word0Addr p) buf n ∧
      Lowered h.mem (stringsFromBuf malloc h p buf n type).1.mem p ∧
      ∃ rest : List CString, (type = .deviceInfo → rest ≠ []) ∧
        (stringsFromBuf malloc h p buf n type).1.copies =
          h.copies ++ g.found (word0Addr p) buf :: rest := by
  have h₀ : Member p (word0Addr p) := .inl rfl
  have h₁ : Member p (word1Addr p) := .inr rfl
  rcases hstr with rfl | rfl
  · let g := h.storePtr (word0Addr p) 0#64
    obtain ⟨left, hrun⟩ := strdataFromBuf_inv hret
    obtain ⟨hfits, hmagic, -⟩ := strdataFromBufLoop_inv hrun
    obtain ⟨strs, hcopies, hlen⟩ := copies_strdataFromBufLoop (strdataFromBufLoop_inv hrun).2.2
    refine ⟨g, fun i hi hout => h₀.storePtr_mem h 0#64 hi hout, ⟨hfits, hmagic⟩, ?_, strs,
      fun hinfo => (by cases hinfo), ?_⟩
    · refine (h₀.lowered_storePtr h 0#64).trans (lowered_strdataFromBufLoop ?_ hrun)
      intro cur hcur
      rw [List.mem_singleton.mp hcur]
      exact h₀
    · rw [stringsFromBuf, hcopies, Heap.copied, Heap.copies_storePtr, List.append_assoc]
      rfl
  · let g := (h.storePtr (word1Addr p) 0#64).storePtr (word0Addr p) 0#64
    obtain ⟨left, hrun⟩ := strdataFromBuf_inv hret
    obtain ⟨hfits, hmagic, -⟩ := strdataFromBufLoop_inv hrun
    obtain ⟨strs, hcopies, hlen⟩ := copies_strdataFromBufLoop (strdataFromBufLoop_inv hrun).2.2
    refine ⟨g, ?_, ⟨hfits, hmagic⟩, ?_, strs, ?_, ?_⟩
    · intro i hi hout
      rw [h₀.storePtr_mem _ 0#64 hi hout, h₁.storePtr_mem h 0#64 hi hout]
    · refine ((h₁.lowered_storePtr h 0#64).trans (h₀.lowered_storePtr _ 0#64)).trans
        (lowered_strdataFromBufLoop ?_ hrun)
      intro cur hcur
      rcases List.mem_pair.mp hcur with rfl | rfl
      · exact h₀
      · exact h₁
    · intro _ hnil
      rw [hnil] at hlen
      cases hlen
    · rw [stringsFromBuf, hcopies, Heap.copied, Heap.copies_storePtr, List.append_assoc]
      rfl

/-- A message that is decoded with strings: the handler finds the first of
them, under the type that the strings were read for or as a connection. -/
theorem contents_of_strings
    (htype : SoscIpcType.ofRaw (load 4 h.mem p) = some type)
    (hstr : type = .deviceConnection ∨ type = .deviceInfo)
    (hret : (soscIpcMsgFromBuf malloc h p n).ret.slt 0#64 = false) :
    ∃ g : Heap,
      (∀ i < 2 ^ 64, i < 8 ∨ 24 ≤ i →
        g.mem (p + BitVec.ofNat 64 i) = h.mem (p + BitVec.ofNat 64 i)) ∧
      g.Reads (word0Addr p) (p + BitVec.ofNat 64 sizeofMsg) n ∧
      let a := g.found (word0Addr p) (p + BitVec.ofNat 64 sizeofMsg)
      let contents := (soscIpcMsgFromBuf malloc h p n).contents h
      contents = some (.deviceConnection a) ∨
        type = .deviceInfo ∧ ∃ b, contents = some (.deviceInfo a b) := by
  obtain ⟨-, -, type', htype', hneg, hdec⟩ := soscIpcMsgFromBuf_inv hret
  obtain rfl : type = type' := Option.some.inj (htype.symm.trans htype')
  obtain ⟨g, hsame, hreads, hlow, rest, hrest, hcopies⟩ := stringsFromBuf_inv hstr hneg
  refine ⟨g, hsame, hreads, ?_⟩
  intro a contents
  have hcontents : contents = readMsg
      (stringsFromBuf malloc h p (p + BitVec.ofNat 64 sizeofMsg) n type).1.mem p
      (a :: rest) := by
    simp only [contents, hdec, Decoded.contents, Option.bind_some, hcopies, List.drop_left, a]
  have hconnection (hconn : SoscIpcType.ofRaw (load 4
      (stringsFromBuf malloc h p (p + BitVec.ofNat 64 sizeofMsg) n type).1.mem p) =
      some .deviceConnection) : contents = some (.deviceConnection a) := by
    simp only [hcontents, readMsg, hconn]
  rcases type_lowered htype hlow with hkept | hconn
  · rcases hstr with rfl | rfl
    · exact .inl (hconnection hkept)
    · right
      obtain ⟨b, rest', rfl⟩ := List.exists_cons_of_ne_nil (hrest rfl)
      exact ⟨rfl, b, by simp only [hcontents, readMsg, hkept]⟩
  · exact .inl (hconnection hconn)

/-- A message without strings is read as its header says. -/
theorem contents_of_header
    (htype : SoscIpcType.ofRaw (load 4 h.mem p) = some type)
    (hconn : type ≠ .deviceConnection) (hinfo : type ≠ .deviceInfo)
    (hret : (soscIpcMsgFromBuf malloc h p n).ret.slt 0#64 = false) :
    ∃ m, (soscIpcMsgFromBuf malloc h p n).contents h = some m ∧ m.strings = [] := by
  obtain ⟨-, -, type', htype', hneg, hdec⟩ := soscIpcMsgFromBuf_inv hret
  obtain rfl : type = type' := Option.some.inj (htype.symm.trans htype')
  rw [hdec, Decoded.contents, Option.bind_some]
  cases type with
  | deviceConnection => exact absurd rfl hconn
  | deviceInfo => exact absurd rfl hinfo
  | deviceReady => exact ⟨.deviceReady, by simp [stringsFromBuf, readMsg, htype], rfl⟩
  | deviceDisconnection =>
    exact ⟨.deviceDisconnection, by simp [stringsFromBuf, readMsg, htype], rfl⟩
  | oscPortChange =>
    exact ⟨.oscPortChange (load 2 h.mem (word0Addr p)),
      by simp only [stringsFromBuf, readMsg, htype], rfl⟩
  | processShouldExit =>
    exact ⟨.processShouldExit, by simp [stringsFromBuf, readMsg, htype], rfl⟩

end Found

/-! ## The loop ends -/

theorem toNat_lt_of_slt {v : BitVec 64} (hv : v.slt 0#64 = false) : v.toNat < 2 ^ 63 := by
  rw [BitVec.slt_zero_eq_msb, BitVec.msb_eq_decide, decide_eq_false_iff_not] at hv
  exact Nat.lt_of_not_le hv

theorem toNat_of_zero_slt {v : BitVec 64} (hv : (0#64).slt v = true) :
    0 < v.toNat ∧ v.toNat < 2 ^ 63 := by
  have hpos : 0 < v.toInt := by
    rw [BitVec.slt, decide_eq_true_eq] at hv
    exact hv
  rw [BitVec.toInt_eq_toNat_cond] at hpos
  split at hpos
  all_goals omega

/-- Every message takes at least the space of its header. -/
theorem sizeofMsg_le_ret {malloc : ℕ → Addr} {h : Heap} {p : Addr} {n : BitVec 64}
    (hret : (soscIpcMsgFromBuf malloc h p n).ret.slt 0#64 = false) :
    sizeofMsg ≤ (soscIpcMsgFromBuf malloc h p n).ret.toNat := by
  obtain ⟨-, -, type, -, hneg, hdec⟩ := soscIpcMsgFromBuf_inv hret
  rw [hdec] at hret ⊢
  have hstr := toNat_lt_of_slt hneg
  generalize (stringsFromBuf malloc h p (p + BitVec.ofNat 64 sizeofMsg) n type).2 = r at *
  have heq : n - (n - BitVec.ofNat 64 sizeofMsg - r) = BitVec.ofNat 64 sizeofMsg + r := by
    ring
  rw [heq, BitVec.toNat_add, BitVec.toNat_ofNat, sizeofMsg]
  omega

/-- The loop ends on any buffer, after at most as many rounds as there are
bytes. -/
theorem dispatchIpcMsgs_returns {σ : Type} (malloc : ℕ → Addr) (cb : σ → IpcMsg → σ)
    {fuel : ℕ} (h : Heap) (p : Addr) {n : BitVec 64} (self : σ) (hfuel : 0 < fuel)
    (hn : n.toNat < 2 ^ 63 → n.toNat < fuel) :
    ∃ d, dispatchIpcMsgs malloc cb fuel h p n self = some d := by
  induction fuel generalizing h p n self with
  | zero => exact absurd hfuel (Nat.not_lt_zero 0)
  | succ fuel ih =>
    rw [dispatchIpcMsgs]
    by_cases hpos : (0#64).slt n = true
    · rw [if_pos hpos]
      by_cases hneg : (soscIpcMsgFromBuf malloc h p n).ret.slt 0#64 = true
      · exact ⟨_, if_pos hneg⟩
      · dsimp only
        rw [if_neg hneg]
        have hret := Bool.eq_false_of_not_eq_true hneg
        have hmin := sizeofMsg_le_ret hret
        have hsize := (soscIpcMsgFromBuf_inv hret).1
        have hrange := toNat_of_zero_slt hpos
        have hlow := toNat_lt_of_slt hret
        have hfuel' := hn hrange.2
        rw [sizeofMsg] at hmin hsize
        apply ih
        · omega
        · intro hleft
          rw [BitVec.toNat_sub] at hleft ⊢
          omega
    · rw [if_neg hpos]
      exact ⟨_, rfl⟩

/-- Whatever is decoded, the handler is called with a message. -/
theorem contents_isSome {malloc : ℕ → Addr} {h : Heap} {p : Addr} {n : BitVec 64}
    (hret : (soscIpcMsgFromBuf malloc h p n).ret.slt 0#64 = false) :
    ∃ msg, (soscIpcMsgFromBuf malloc h p n).contents h = some msg := by
  obtain ⟨-, -, type, htype, -, -⟩ := soscIpcMsgFromBuf_inv hret
  by_cases hstr : type = .deviceConnection ∨ type = .deviceInfo
  · obtain ⟨g, -, -, hcontents⟩ := contents_of_strings htype hstr hret
    rcases hcontents with hconnection | ⟨-, b, hinfo⟩
    · exact ⟨_, hconnection⟩
    · exact ⟨_, hinfo⟩
  · obtain ⟨hconnection, hinfo⟩ := not_or.mp hstr
    obtain ⟨msg, hmsg, -⟩ := contents_of_header htype hconnection hinfo hret
    exact ⟨msg, hmsg⟩

/-- A handler that counts its calls. -/
def counted {σ : Type} (cb : σ → IpcMsg → σ) (s : σ × ℕ) (msg : IpcMsg) : σ × ℕ :=
  (cb s.1 msg, s.2 + 1)

/-- The loop ends after as many handler calls as headers fit in the bytes that
are left, which is one round less than the fuel allows for. -/
theorem dispatchIpcMsgs_calls {σ : Type} (malloc : ℕ → Addr) (cb : σ → IpcMsg → σ)
    (k : ℕ) (h : Heap) (p : Addr) {n : BitVec 64} (s : σ × ℕ)
    (hn : (0#64).slt n = true → n.toNat / sizeofMsg ≤ k) :
    ∃ d, dispatchIpcMsgs malloc (counted cb) (k + 1) h p n s = some d ∧
      d.self.2 ≤ s.2 + k := by
  induction k generalizing h p n s with
  | zero =>
    rw [dispatchIpcMsgs]
    by_cases hpos : (0#64).slt n = true
    · -- there is no room for a header
      have hroom := hn hpos
      have hneg : (soscIpcMsgFromBuf malloc h p n).ret.slt 0#64 = true := by
        by_contra hret
        have hsize := (soscIpcMsgFromBuf_inv (Bool.eq_false_of_not_eq_true hret)).1
        rw [sizeofMsg] at hsize hroom
        omega
      rw [if_pos hpos]
      dsimp only
      rw [if_pos hneg]
      exact ⟨_, rfl, Nat.le_refl _⟩
    · rw [if_neg hpos]
      exact ⟨_, rfl, Nat.le_refl _⟩
  | succ k ih =>
    rw [dispatchIpcMsgs]
    by_cases hpos : (0#64).slt n = true
    · rw [if_pos hpos]
      dsimp only
      by_cases hneg : (soscIpcMsgFromBuf malloc h p n).ret.slt 0#64 = true
      · rw [if_pos hneg]
        exact ⟨_, rfl, Nat.le_add_right _ _⟩
      · rw [if_neg hneg]
        have hret := Bool.eq_false_of_not_eq_true hneg
        obtain ⟨msg, hmsg⟩ := contents_isSome hret
        have hmin := sizeofMsg_le_ret hret
        have hlow := toNat_lt_of_slt hret
        have hrange := toNat_of_zero_slt hpos
        have hroom := hn hpos
        rw [hmsg, Option.elim_some]
        rw [sizeofMsg] at hmin hroom
        obtain ⟨d, hd, hcount⟩ := ih (soscIpcMsgFromBuf malloc h p n).heap
          (p + (soscIpcMsgFromBuf malloc h p n).ret)
          (n := n - (soscIpcMsgFromBuf malloc h p n).ret) (counted cb s msg)
          (fun hleft => by
            have hrest := toNat_of_zero_slt hleft
            rw [BitVec.toNat_sub, sizeofMsg] at *
            omega)
        refine ⟨d, hd, ?_⟩
        rw [counted] at hcount
        omega
    · rw [if_neg hpos]
      exact ⟨_, rfl, Nat.le_add_right _ _⟩

/-- The loop of `dispatch_ipc_msgs` ends on every buffer and every byte count,
after at most `nbytes / sizeof(sosc_ipc_msg_t)` calls of the handler, because every
message that is decoded takes at least the space of its header. -/
theorem dispatchIpcMsgs_ends {σ : Type} (malloc : ℕ → Addr) (cb : σ → IpcMsg → σ) :
    (∀ (h : Heap) (p : Addr) (n : BitVec 64),
      (soscIpcMsgFromBuf malloc h p n).ret.slt 0#64 = false →
        sizeofMsg ≤ (soscIpcMsgFromBuf malloc h p n).ret.toInt) ∧
    ∀ (h : Heap) (p : Addr) (n : BitVec 64) (self : σ),
      ∃ d, dispatchIpcMsgs malloc (counted cb) (n.toInt.toNat / sizeofMsg + 1) h p n
          (self, 0) = some d ∧
        d.self.2 ≤ n.toInt.toNat / sizeofMsg := by
  refine ⟨fun h p n hret => ?_, fun h p n self => ?_⟩
  · have hmin := sizeofMsg_le_ret hret
    have hlow := toNat_lt_of_slt hret
    rw [BitVec.toInt_eq_toNat_cond, if_pos (by omega)]
    exact_mod_cast hmin
  · obtain ⟨d, hd, hcount⟩ := dispatchIpcMsgs_calls malloc cb (n.toInt.toNat / sizeofMsg) h p
      (n := n) (self, 0) (fun hpos => by
        have hrange := toNat_of_zero_slt hpos
        rw [BitVec.toInt_eq_toNat_cond, if_pos (by omega), Int.toNat_natCast])
    exact ⟨d, hd, by omega⟩

end Serialosc
