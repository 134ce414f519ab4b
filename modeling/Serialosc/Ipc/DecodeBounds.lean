import Serialosc.Ipc.Inversion

/-!
# How far the decoder looks

As on the writing side, `strdata_from_buf` counts down from the size of the
whole buffer.  `soscIpcMsgFromBufAccesses` lists what the decoder touches; its
outcome depends on nothing else, and behind a good header it stays among the
bytes it was given exactly when the walk over the records does.
-/

namespace Serialosc

open ByteMemory

/-- The bytes that one access of the decoder touches. -/
structure Access where
  addr : Addr
  size : ℕ

/-- The accesses of `strdata_from_buf`, in the order of its statements: the
pointer variable, the length, the magic, the terminator and the string that is
copied. -/
def strdataFromBufAccesses (malloc : ℕ → Addr) (h : Heap) (buf : Addr) (avail : BitVec 64) :
    List Addr → List Access
  | [] => []
  | cur :: rest =>
      let slen := h.slen cur buf
      let buf₂ := buf + 8#64 + slen
      ⟨cur, 8⟩ ::
        if (avail - 8#64).slt 0#64 then []
        else ⟨buf, 8⟩ ::
          if (avail - 8#64 - slen).slt 0#64 then []
          else ⟨cur, 8⟩ ::
            if (avail - 8#64 - slen - 2#64).slt 0#64 then []
            else ⟨buf₂, 2⟩ ::
              if load 2 (h.located cur buf) buf₂ ≠ ipcMagic then [⟨cur, 8⟩]
              else [⟨buf₂, 1⟩, ⟨cur, 8⟩, ⟨load 8 (h.terminated cur buf) cur,
                  (h.found cur buf).length + 1⟩, ⟨cur, 8⟩] ++
                strdataFromBufAccesses malloc (h.copied malloc cur buf) (buf₂ + 2#64)
                  (avail - 8#64 - slen - 2#64) rest

theorem strdataFromBufLoop_eq (malloc : ℕ → Addr) (h : Heap) (buf cur : Addr)
    (avail : BitVec 64) (rest : List Addr) :
    strdataFromBufLoop malloc h buf avail (cur :: rest) =
      let slen := h.slen cur buf
      let h₂ := (h.storePtr cur 0#64).storePtr cur (buf + 8#64)
      if (avail - 8#64).slt 0#64 then (h.storePtr cur 0#64, none)
      else if (avail - 8#64 - slen).slt 0#64 then (h.storePtr cur 0#64, none)
      else if (avail - 8#64 - slen - 2#64).slt 0#64 then (h₂, none)
      else if load 2 (h.located cur buf) (buf + 8#64 + slen) ≠ ipcMagic then
        (h₂.storePtr cur 0#64, none)
      else strdataFromBufLoop malloc (h.copied malloc cur buf) (buf + 8#64 + slen + 2#64)
        (avail - 8#64 - slen - 2#64) rest := by
  rw [strdataFromBufLoop]
  by_cases h₁ : (avail - 8#64).slt 0#64 = true
  · simp only [bufWalk, if_pos h₁]
  have hslen : (load 8 (h.storePtr cur 0#64).mem buf : BitVec 64) = h.slen cur buf := rfl
  by_cases h₂ : (avail - 8#64 - h.slen cur buf).slt 0#64 = true
  · simp only [bufWalk, if_neg h₁, hslen, if_pos h₂]
  by_cases h₃ : (avail - 8#64 - h.slen cur buf - 2#64).slt 0#64 = true
  · simp only [bufWalk, if_neg h₁, hslen, if_neg h₂, if_pos h₃]
  simp only [bufWalk, if_neg h₁, hslen, if_neg h₂, if_neg h₃, BitVec.add_sub_cancel, sStrdup]
  rfl

/-- Every record that the walk takes in lies among the `n` bytes at `base`: the
length, if there is room for one by the count of the code; the magic, if the
count goes that far; and the string with a NUL, if the magic is right. -/
def RecordsBelow (malloc : ℕ → Addr) (base : Addr) (n : ℕ) :
    Heap → Addr → BitVec 64 → List Addr → Prop
  -- no `ssize_t` is the size of what has been read
  | _, buf, _, [] => ¬ (2 ^ 63 ≤ (buf - base).toNat ∧ (buf - base).toNat < 2 ^ 63 + sizeofMsg)
  | h, buf, avail, cur :: rest =>
      (avail - 8#64).slt 0#64 ∨
      Below base n buf 8 ∧
        ((avail - 8#64 - h.slen cur buf).slt 0#64 ∨
         (avail - 8#64 - h.slen cur buf - 2#64).slt 0#64 ∨
         Below base n (buf + 8#64 + h.slen cur buf) 2 ∧
          (load 2 (h.located cur buf) (buf + 8#64 + h.slen cur buf) ≠ ipcMagic ∨
           Below base n (load 8 (h.terminated cur buf) cur) ((h.found cur buf).length + 1) ∧
            RecordsBelow malloc base n (h.copied malloc cur buf)
              (buf + 8#64 + h.slen cur buf + 2#64)
              (avail - 8#64 - h.slen cur buf - 2#64) rest))

/-- All accesses lie among the `n` bytes at `base`. -/
def AllBelow (base : Addr) (n : ℕ) (accesses : List Access) : Prop :=
  ∀ a ∈ accesses, Below base n a.addr a.size

@[simp] theorem allBelow_nil (base : Addr) (n : ℕ) : AllBelow base n [] :=
  List.forall_mem_nil _

@[simp] theorem allBelow_cons (base : Addr) (n : ℕ) (a : Access) (as : List Access) :
    AllBelow base n (a :: as) ↔ Below base n a.addr a.size ∧ AllBelow base n as :=
  List.forall_mem_cons

section Loop

variable {malloc : ℕ → Addr} {base : Addr} {n : ℕ} {curs : List Addr}

theorem recordsBelow_iff {h : Heap} {buf : Addr} {avail : BitVec 64}
    (hcurs : ∀ cur ∈ curs, Below base n cur 8) :
    RecordsBelow malloc base n h buf avail curs ↔
      AllBelow base n (strdataFromBufAccesses malloc h buf avail curs) ∧
        ∀ h' left, strdataFromBufLoop malloc h buf avail curs = (h', some left) →
          ¬ (2 ^ 63 ≤ (buf + (avail - left) - base).toNat ∧
            (buf + (avail - left) - base).toNat < 2 ^ 63 + sizeofMsg) := by
  induction curs generalizing h buf avail with
  | nil =>
    simp only [RecordsBelow, strdataFromBufAccesses, allBelow_nil, true_and,
      strdataFromBufLoop, Prod.mk.injEq, Option.some.injEq]
    constructor
    · rintro hsize _ left ⟨-, rfl⟩
      rwa [BitVec.sub_self, BitVec.add_zero]
    · intro hall
      have hsize := hall h avail ⟨rfl, rfl⟩
      rwa [BitVec.sub_self, BitVec.add_zero] at hsize
  | cons cur rest ih =>
    have hcur := hcurs cur List.mem_cons_self
    replace ih := @ih (h.copied malloc cur buf) (buf + 8#64 + h.slen cur buf + 2#64)
      (avail - 8#64 - h.slen cur buf - 2#64) fun c hc => hcurs c (List.mem_cons_of_mem _ hc)
    have hend (left : BitVec 64) : buf + 8#64 + h.slen cur buf + 2#64 +
        (avail - 8#64 - h.slen cur buf - 2#64 - left) = buf + (avail - left) := by ring
    simp only [hend] at ih
    rw [RecordsBelow, strdataFromBufAccesses, strdataFromBufLoop_eq]
    dsimp only
    by_cases h₁ : (avail - 8#64).slt 0#64 = true
    · simp [h₁, hcur]
    by_cases h₂ : (avail - 8#64 - h.slen cur buf).slt 0#64 = true
    · simp [h₁, h₂, hcur]
    by_cases h₃ : (avail - 8#64 - h.slen cur buf - 2#64).slt 0#64 = true
    · simp [h₁, h₂, h₃, hcur]
    by_cases h₄ : load 2 (h.located cur buf) (buf + 8#64 + h.slen cur buf) ≠ ipcMagic
    · simp [h₁, h₂, h₃, h₄, hcur]
    rw [or_iff_right h₁, or_iff_right h₂, or_iff_right h₃, or_iff_right h₄, ih]
    simp only [if_neg h₁, if_neg h₂, if_neg h₃, if_neg h₄, allBelow_cons, hcur, true_and,
      List.cons_append, List.nil_append]
    constructor
    · rintro ⟨hlen, hmagic, hcopy, hrest, hsize⟩
      exact ⟨⟨hlen, hmagic, hmagic.mono (by omega), hcopy, hrest⟩, hsize⟩
    · rintro ⟨⟨hlen, hmagic, -, hcopy, hrest⟩, hsize⟩
      exact ⟨hlen, hmagic, hcopy, hrest, hsize⟩

/-- Two heaps that a decoder of `n` bytes at `base` cannot tell apart. -/
def Heap.AgreeBelow (base : Addr) (n : ℕ) (h h' : Heap) : Prop :=
  ByteMemory.AgreeBelow base n h.mem h'.mem ∧ h.copies = h'.copies

section Agree

variable {h h' : Heap} {cur buf : Addr}

theorem Heap.AgreeBelow.storePtr (hh : h.AgreeBelow base n h') (p v : Addr) :
    (h.storePtr p v).AgreeBelow base n (h'.storePtr p v) :=
  ⟨hh.1.store 8 p v, hh.2⟩

theorem Heap.AgreeBelow.slen (hh : h.AgreeBelow base n h') (hn : n < 2 ^ 64)
    (hbuf : Below base n buf 8) : h.slen cur buf = h'.slen cur buf :=
  (hh.storePtr cur 0#64).1.load hn hbuf

theorem Heap.AgreeBelow.located (hh : h.AgreeBelow base n h') (cur buf : Addr) :
    ByteMemory.AgreeBelow base n (h.located cur buf) (h'.located cur buf) :=
  ((hh.storePtr cur 0#64).storePtr cur (buf + 8#64)).1

theorem Heap.AgreeBelow.terminated (hh : h.AgreeBelow base n h') (cur : Addr) (hn : n < 2 ^ 64)
    (hbuf : Below base n buf 8) :
    ByteMemory.AgreeBelow base n (h.terminated cur buf) (h'.terminated cur buf) := by
  rw [Heap.terminated, Heap.terminated, hh.slen hn hbuf]
  exact (hh.located cur buf).write _ _

theorem Heap.AgreeBelow.copied (hh : h.AgreeBelow base n h') (hn : n < 2 ^ 64)
    (hbuf : Below base n buf 8) (hcur : Below base n cur 8)
    (hcopy : Below base n (load 8 (h.terminated cur buf) cur) ((h.found cur buf).length + 1)) :
    (h.copied malloc cur buf).AgreeBelow base n (h'.copied malloc cur buf) := by
  have hterm := hh.terminated cur hn hbuf
  have hptr := hterm.load hn hcur
  have hfound : h.found cur buf = h'.found cur buf := by
    rw [Heap.found, Heap.found, ← hptr]
    exact hterm.cstringAt hn hcopy
  have hheap : Heap.AgreeBelow base n
      { mem := h.terminated cur buf, copies := h.copies ++ [h.found cur buf] }
      { mem := h'.terminated cur buf, copies := h'.copies ++ [h'.found cur buf] } :=
    ⟨hterm, by rw [hfound, hh.2]⟩
  rw [Heap.copied, Heap.copied, congrArg List.length hh.2]
  exact hheap.storePtr cur _

end Agree

/-- What the string loop touches is what its outcome depends on. -/
theorem strdataFromBufLoop_agree {h h' : Heap} {buf : Addr} {avail : BitVec 64}
    (hn : n < 2 ^ 64) (hh : h.AgreeBelow base n h')
    (hbelow : AllBelow base n (strdataFromBufAccesses malloc h buf avail curs)) :
    let r := strdataFromBufLoop malloc h buf avail curs
    let r' := strdataFromBufLoop malloc h' buf avail curs
    r.1.AgreeBelow base n r'.1 ∧ r.2 = r'.2 := by
  induction curs generalizing h h' buf avail with
  | nil => exact ⟨hh, rfl⟩
  | cons cur rest ih =>
    rw [strdataFromBufAccesses] at hbelow
    simp only [strdataFromBufLoop_eq]
    by_cases h₁ : (avail - 8#64).slt 0#64 = true
    · simp only [if_pos h₁]
      exact ⟨hh.storePtr _ _, trivial⟩
    simp only [if_neg h₁, allBelow_cons] at hbelow ⊢
    obtain ⟨hcur, hbuf, hbelow⟩ := hbelow
    rw [← hh.slen hn hbuf]
    by_cases h₂ : (avail - 8#64 - h.slen cur buf).slt 0#64 = true
    · simp only [if_pos h₂]
      exact ⟨hh.storePtr _ _, trivial⟩
    by_cases h₃ : (avail - 8#64 - h.slen cur buf - 2#64).slt 0#64 = true
    · simp only [if_neg h₂, if_pos h₃]
      exact ⟨(hh.storePtr _ _).storePtr _ _, trivial⟩
    simp only [if_neg h₂, if_neg h₃, allBelow_cons] at hbelow ⊢
    obtain ⟨-, hmagic, hbelow⟩ := hbelow
    have hload := (hh.located cur buf).load hn hmagic
    rw [← hload]
    by_cases h₄ : load 2 (h.located cur buf) (buf + 8#64 + h.slen cur buf) ≠ ipcMagic
    · simp only [if_pos h₄]
      exact ⟨((hh.storePtr _ _).storePtr _ _).storePtr _ _, trivial⟩
    simp only [if_neg h₄, List.cons_append, List.nil_append, allBelow_cons] at hbelow ⊢
    obtain ⟨-, -, hcopy, -, hrest⟩ := hbelow
    exact ih (hh.copied hn hbuf hcur hcopy) hrest

theorem strdataFromBuf_agree {h h' : Heap} {buf : Addr} {avail : BitVec 64}
    (hn : n < 2 ^ 64) (hh : h.AgreeBelow base n h')
    (hbelow : AllBelow base n (strdataFromBufAccesses malloc h buf avail curs)) :
    (strdataFromBuf malloc h buf avail curs).1.AgreeBelow base n
        (strdataFromBuf malloc h' buf avail curs).1 ∧
      (strdataFromBuf malloc h buf avail curs).2 =
        (strdataFromBuf malloc h' buf avail curs).2 := by
  obtain ⟨hagree, hleft⟩ := strdataFromBufLoop_agree hn hh hbelow
  rw [strdataFromBuf, strdataFromBuf]
  split
  · next g hrun =>
    rw [hrun] at hagree hleft
    split
    · next g' hrun' =>
      rw [hrun'] at hagree
      exact ⟨hagree, rfl⟩
    · next g' left hrun' =>
      rw [hrun'] at hleft
      cases hleft
  · next g left hrun =>
    rw [hrun] at hagree hleft
    split
    · next g' hrun' =>
      rw [hrun'] at hleft
      cases hleft
    · next g' left' hrun' =>
      rw [hrun'] at hagree hleft
      exact ⟨hagree, by rw [Option.some.inj hleft]⟩

/-- What the string loop does not touch is left alone. -/
theorem strdataFromBufLoop_kept {h : Heap} {buf q : Addr} {avail : BitVec 64}
    (hq : n ≤ (q - base).toNat)
    (hbelow : AllBelow base n (strdataFromBufAccesses malloc h buf avail curs)) :
    (strdataFromBufLoop malloc h buf avail curs).1.mem q = h.mem q := by
  have hstore {g : Heap} {cur v : Addr} (hcur : Below base n cur 8) :
      (g.storePtr cur v).mem q = g.mem q := by
    apply Below.write_outside _ hq
    rwa [length_leBytes]
  induction curs generalizing h buf avail with
  | nil => rfl
  | cons cur rest ih =>
    rw [strdataFromBufAccesses] at hbelow
    simp only [strdataFromBufLoop_eq]
    have hcur := hbelow _ List.mem_cons_self
    have hptr : ((h.storePtr cur 0#64).storePtr cur (buf + 8#64)).mem q = h.mem q := by
      rw [hstore hcur, hstore hcur]
    split
    · exact hstore hcur
    next h₁ =>
    split
    · exact hstore hcur
    next h₂ =>
    split
    · exact hptr
    next h₃ =>
    split
    · rw [hstore hcur, hptr]
    next h₄ =>
    simp only [if_neg h₁, if_neg h₂, if_neg h₃, if_neg h₄, allBelow_cons, List.cons_append,
      List.nil_append] at hbelow
    obtain ⟨-, -, -, -, hzero, -, -, -, hrest⟩ := hbelow
    rw [ih hrest, Heap.copied, hstore hcur]
    exact (Below.write_outside hzero hq).trans hptr

/-- A walk whose accesses lie below `n` ends at an offset of `n` at most. -/
theorem strdataFromBufLoop_end {h h' : Heap} {buf : Addr} {avail left : BitVec 64}
    (hn : n < 2 ^ 64) (hbuf : (buf - base).toNat ≤ n)
    (hbelow : AllBelow base n (strdataFromBufAccesses malloc h buf avail curs))
    (hrun : strdataFromBufLoop malloc h buf avail curs = (h', some left)) :
    (buf + (avail - left) - base).toNat ≤ n := by
  induction curs generalizing h buf avail with
  | nil =>
    obtain ⟨-, hleft⟩ := Prod.mk.injEq _ _ _ _ ▸ hrun
    rw [Option.some.inj hleft, BitVec.sub_self, BitVec.add_zero]
    exact hbuf
  | cons cur rest ih =>
    have hend : buf + (avail - left) = buf + 8#64 + h.slen cur buf + 2#64 +
        (avail - 8#64 - h.slen cur buf - 2#64 - left) := by ring
    rw [strdataFromBufAccesses] at hbelow
    rw [strdataFromBufLoop_eq] at hrun
    dsimp only at hrun
    split at hrun
    · cases hrun
    next h₁ =>
    split at hrun
    · cases hrun
    next h₂ =>
    split at hrun
    · cases hrun
    next h₃ =>
    split at hrun
    · cases hrun
    next h₄ =>
    simp only [if_neg h₁, if_neg h₂, if_neg h₃, if_neg h₄, allBelow_cons, List.cons_append,
      List.nil_append] at hbelow
    obtain ⟨-, -, -, hmagic, -, -, -, -, hrest⟩ := hbelow
    rw [hend]
    refine ih ?_ hrest hrun
    have hstep : buf + 8#64 + h.slen cur buf + 2#64 - base =
        buf + 8#64 + h.slen cur buf - base + 2#64 := by ring
    rw [Below] at hmagic
    rw [hstep, BitVec.toNat_add, BitVec.toNat_ofNat]
    omega

end Loop

/-- The pointer variables that the switch passes to `strdata_from_buf`. -/
def pointerVars (msg : Addr) : SoscIpcType → List Addr
  | .deviceConnection => [word0Addr msg]
  | .deviceInfo => [word0Addr msg, word1Addr msg]
  | _ => []

/-- The heap after the switch has reset them, the last one first. -/
def Heap.resetPointers (h : Heap) (msg : Addr) : SoscIpcType → Heap
  | .deviceConnection => h.storePtr (word0Addr msg) 0#64
  | .deviceInfo => (h.storePtr (word1Addr msg) 0#64).storePtr (word0Addr msg) 0#64
  | _ => h

theorem stringsFromBuf_eq (malloc : ℕ → Addr) (h : Heap) (msg buf : Addr) (n : BitVec 64)
    (type : SoscIpcType) :
    stringsFromBuf malloc h msg buf n type =
      strdataFromBuf malloc (h.resetPointers msg type) buf n (pointerVars msg type) := by
  cases type
  case deviceConnection => rfl
  case deviceInfo => rfl
  all_goals simp [stringsFromBuf, strdataFromBuf, strdataFromBufLoop, pointerVars,
    Heap.resetPointers]

/-- The accesses of `sosc_ipc_msg_from_buf`. -/
def soscIpcMsgFromBufAccesses (malloc : ℕ → Addr) (h : Heap) (buf : Addr)
    (nbytes : BitVec 64) : List Access :=
  if nbytes.toNat < sizeofMsg then []
  else ⟨magicAddr buf, 2⟩ ::
    if load 2 h.mem (magicAddr buf) ≠ ipcMagic then []
    else ⟨buf, 4⟩ ::
      match SoscIpcType.ofRaw (load 4 h.mem buf) with
      | none => []
      | some type =>
          (pointerVars buf type).reverse.map (fun cur => ⟨cur, 8⟩) ++
            strdataFromBufAccesses malloc (h.resetPointers buf type)
              (buf + BitVec.ofNat 64 sizeofMsg) nbytes (pointerVars buf type)

/-- The decoder does what it should with the `n` bytes at `base`: it looks and
writes nowhere else, what lies elsewhere does not matter, and it returns a size
among the `n` bytes or fails without a message. -/
structure DecodesInside (malloc : ℕ → Addr) (h : Heap) (base : Addr) (n : BitVec 64) :
    Prop where
  inside : AllBelow base n.toNat (soscIpcMsgFromBufAccesses malloc h base n)
  kept : ∀ q, n.toNat ≤ (q - base).toNat →
    (soscIpcMsgFromBuf malloc h base n).heap.mem q = h.mem q
  agrees : ∀ h', h.AgreeBelow base n.toNat h' →
    let d := soscIpcMsgFromBuf malloc h base n
    let d' := soscIpcMsgFromBuf malloc h' base n
    d.ret = d'.ret ∧ d.msg = d'.msg ∧ d.heap.AgreeBelow base n.toNat d'.heap
  result :
    let d := soscIpcMsgFromBuf malloc h base n
    d.ret = ssizeError ∧ d.msg = none ∨
      (sizeofMsg : ℤ) ≤ d.ret.toInt ∧ d.ret.toInt ≤ n.toNat

section Decoder

variable {malloc : ℕ → Addr} {h : Heap} {base : Addr} {n : BitVec 64}

theorem below_header {i w : ℕ} (hw : i + w ≤ sizeofMsg) (hhead : sizeofMsg ≤ n.toNat) :
    Below base n.toNat (base + BitVec.ofNat 64 i) w := by
  have hsize : sizeofMsg = 32 := rfl
  rw [Below, show base + BitVec.ofNat 64 i - base = BitVec.ofNat 64 i by ring,
    BitVec.toNat_ofNat]
  omega

theorem below_pointerVars {type : SoscIpcType} (hhead : sizeofMsg ≤ n.toNat) :
    ∀ cur ∈ pointerVars base type, Below base n.toNat cur 8 := by
  have h₀ : Below base n.toNat (word0Addr base) 8 :=
    below_header (i := 8) (by decide) hhead
  have h₁ : Below base n.toNat (word1Addr base) 8 :=
    below_header (i := 16) (by decide) hhead
  intro cur hcur
  cases type
  case deviceConnection =>
    rw [List.mem_singleton.mp hcur]
    exact h₀
  case deviceInfo =>
    rcases List.mem_pair.mp hcur with rfl | rfl
    · exact h₀
    · exact h₁
  all_goals cases hcur

theorem Heap.AgreeBelow.resetPointers {h' : Heap} {k : ℕ} (hh : h.AgreeBelow base k h')
    (type : SoscIpcType) :
    (h.resetPointers base type).AgreeBelow base k (h'.resetPointers base type) := by
  cases type
  case deviceConnection => exact hh.storePtr _ _
  case deviceInfo => exact (hh.storePtr _ _).storePtr _ _
  all_goals exact hh

theorem resetPointers_kept {type : SoscIpcType} (hhead : sizeofMsg ≤ n.toNat) {q : Addr}
    (hq : n.toNat ≤ (q - base).toNat) : (h.resetPointers base type).mem q = h.mem q := by
  have hstore {g : Heap} {cur : Addr} (hcur : cur ∈ pointerVars base type) :
      (g.storePtr cur 0#64).mem q = g.mem q := by
    apply Below.write_outside _ hq
    rw [length_leBytes]
    exact below_pointerVars hhead cur hcur
  cases type
  case deviceConnection => exact hstore (List.mem_singleton.mpr rfl)
  case deviceInfo =>
    exact (hstore List.mem_cons_self).trans
      (hstore (List.mem_cons_of_mem _ (List.mem_singleton.mpr rfl)))
  all_goals rfl

/-- What the decoder returns when the header is refused. -/
theorem soscIpcMsgFromBuf_refused (malloc : ℕ → Addr)
    (hhead : n.toNat < sizeofMsg ∨ load 2 h.mem (magicAddr base) ≠ ipcMagic) :
    soscIpcMsgFromBuf malloc h base n = { heap := h, ret := ssizeError, msg := none } := by
  rw [soscIpcMsgFromBuf, if_pos hhead]

/-- The decoder behind a good header. -/
theorem soscIpcMsgFromBuf_known (malloc : ℕ → Addr) {type : SoscIpcType}
    (hsize : sizeofMsg ≤ n.toNat)
    (hmagic : load 2 h.mem (magicAddr base) = ipcMagic)
    (htype : SoscIpcType.ofRaw (load 4 h.mem base) = some type) :
    soscIpcMsgFromBuf malloc h base n =
      let r := strdataFromBuf malloc (h.resetPointers base type)
        (base + BitVec.ofNat 64 sizeofMsg) n (pointerVars base type)
      if r.2.slt 0#64 then { heap := r.1, ret := ssizeError, msg := none }
      else { heap := r.1, ret := n - (n - BitVec.ofNat 64 sizeofMsg - r.2), msg := some base } := by
  rw [soscIpcMsgFromBuf, if_neg (not_or.mpr ⟨Nat.not_lt.mpr hsize, not_not.mpr hmagic⟩), htype]
  simp only [stringsFromBuf_eq]

/-- The size that is returned, as a number, where the walk ended at offset
`32 + k`. -/
theorem returned_size {k : BitVec 64} (hk : k.slt 0#64 = false) :
    (BitVec.ofNat 64 sizeofMsg + k).toNat = sizeofMsg + k.toNat ∧ k.toNat < 2 ^ 63 := by
  have hsize : sizeofMsg = 32 := rfl
  have hlt : k.toNat < 2 ^ 63 := by
    rw [BitVec.slt_zero_eq_msb, BitVec.msb_eq_decide] at hk
    simpa using hk
  refine ⟨?_, hlt⟩
  rw [BitVec.toNat_add, BitVec.toNat_ofNat]
  omega

theorem below_magic (hhead : sizeofMsg ≤ n.toNat) : Below base n.toNat (magicAddr base) 2 :=
  below_header (i := 24) (by decide) hhead

theorem below_type (hhead : sizeofMsg ≤ n.toNat) : Below base n.toNat base 4 := by
  have hzero : Below base n.toNat (base + BitVec.ofNat 64 0) 4 :=
    below_header (by decide) hhead
  rwa [BitVec.add_zero] at hzero

/-- Behind a good header, only the string part is in question. -/
theorem allBelow_known {type : SoscIpcType} (hhead : sizeofMsg ≤ n.toNat)
    (hmagic : load 2 h.mem (magicAddr base) = ipcMagic)
    (htype : SoscIpcType.ofRaw (load 4 h.mem base) = some type) :
    AllBelow base n.toNat (soscIpcMsgFromBufAccesses malloc h base n) ↔
      AllBelow base n.toNat (strdataFromBufAccesses malloc (h.resetPointers base type)
        (base + BitVec.ofNat 64 sizeofMsg) n (pointerVars base type)) := by
  have hvars : AllBelow base n.toNat
      ((pointerVars base type).reverse.map fun cur => ⟨cur, 8⟩) := by
    intro a ha
    obtain ⟨cur, hcur, rfl⟩ := List.mem_map.mp ha
    exact below_pointerVars hhead cur (List.mem_reverse.mp hcur)
  rw [soscIpcMsgFromBufAccesses, if_neg (Nat.not_lt.mpr hhead), if_neg (not_not.mpr hmagic), htype]
  simp only [allBelow_cons, below_magic hhead, below_type hhead, true_and]
  constructor
  · intro hall a ha
    exact hall a (List.mem_append_right _ ha)
  · intro hall a ha
    rcases List.mem_append.mp ha with hvar | hstr
    · exact hvars a hvar
    · exact hall a hstr

/-- The outcome of the decoder behind a good header, by the end of the walk. -/
theorem soscIpcMsgFromBuf_walked (malloc : ℕ → Addr) {type : SoscIpcType}
    (hhead : sizeofMsg ≤ n.toNat)
    (hmagic : load 2 h.mem (magicAddr base) = ipcMagic)
    (htype : SoscIpcType.ofRaw (load 4 h.mem base) = some type) :
    let d := soscIpcMsgFromBuf malloc h base n
    let r := strdataFromBufLoop malloc (h.resetPointers base type)
      (base + BitVec.ofNat 64 sizeofMsg) n (pointerVars base type)
    d.heap = r.1 ∧
      ((r.2 = none ∨ ∃ left, r.2 = some left ∧ (n - left).slt 0#64 = true) ∧
          d.ret = ssizeError ∧ d.msg = none ∨
        ∃ left, r.2 = some left ∧ (n - left).slt 0#64 = false ∧
          d.ret = BitVec.ofNat 64 sizeofMsg + (n - left) ∧ d.msg = some base) := by
  intro d r
  have hd : d = _ := soscIpcMsgFromBuf_known malloc hhead hmagic htype
  have hr : strdataFromBufLoop malloc (h.resetPointers base type)
    (base + BitVec.ofNat 64 sizeofMsg) n (pointerVars base type) = (r.1, r.2) := rfl
  cases hleft : r.2 with
  | none =>
    rw [hleft] at hr
    simp only [strdataFromBuf, hr, ssizeError_slt, if_true] at hd
    rw [hd]
    exact ⟨rfl, .inl ⟨.inl rfl, rfl, rfl⟩⟩
  | some left =>
    rw [hleft] at hr
    simp only [strdataFromBuf, hr] at hd
    by_cases hneg : (n - left).slt 0#64 = true
    · rw [if_pos hneg] at hd
      rw [hd]
      exact ⟨rfl, .inl ⟨.inr ⟨left, rfl, hneg⟩, rfl, rfl⟩⟩
    · rw [if_neg hneg] at hd
      rw [hd]
      refine ⟨rfl, .inr ⟨left, rfl, Bool.eq_false_of_not_eq_true hneg, ?_, rfl⟩⟩
      ring

/-- Offsets of the walk that a size can be returned for. -/
theorem toInt_returned {k : BitVec 64} (hk : k.slt 0#64 = false) :
    (sizeofMsg : ℤ) ≤ (BitVec.ofNat 64 sizeofMsg + k).toInt ↔
      ¬ (2 ^ 63 ≤ (BitVec.ofNat 64 sizeofMsg + k).toNat ∧
        (BitVec.ofNat 64 sizeofMsg + k).toNat < 2 ^ 63 + sizeofMsg) := by
  have hsize : sizeofMsg = 32 := rfl
  obtain ⟨hnat, hlt⟩ := returned_size hk
  rw [BitVec.toInt_eq_toNat_cond, hnat]
  split <;> omega

/-- A decoder that stays inside returns a size where its walk ends. -/
theorem DecodesInside.returnable {type : SoscIpcType} (hinside : DecodesInside malloc h base n)
    (hhead : sizeofMsg ≤ n.toNat) (hmagic : load 2 h.mem (magicAddr base) = ipcMagic)
    (htype : SoscIpcType.ofRaw (load 4 h.mem base) = some type) {h' : Heap} {left : BitVec 64}
    (hrun : strdataFromBufLoop malloc (h.resetPointers base type)
      (base + BitVec.ofNat 64 sizeofMsg) n (pointerVars base type) = (h', some left)) :
    ¬ (2 ^ 63 ≤ (BitVec.ofNat 64 sizeofMsg + (n - left)).toNat ∧
      (BitVec.ofNat 64 sizeofMsg + (n - left)).toNat < 2 ^ 63 + sizeofMsg) := by
  have hsize : sizeofMsg = 32 := rfl
  have hwalked := soscIpcMsgFromBuf_walked malloc hhead hmagic htype
  dsimp only at hwalked
  obtain ⟨-, houtcome⟩ := hwalked
  rw [hrun] at houtcome
  rcases houtcome with ⟨hnone | ⟨left', hleft, hneg⟩, -, -⟩ | ⟨left', hleft, hpos, hret, hmsg⟩
  · cases hnone
  · -- the count went up, and the end lies in front of the strings
    obtain rfl := Option.some.inj hleft
    rw [BitVec.slt_zero_eq_msb, BitVec.msb_eq_decide] at hneg
    have hlarge : 2 ^ 63 ≤ (n - left).toNat := by simpa using hneg
    rw [BitVec.toNat_add, BitVec.toNat_ofNat]
    omega
  · obtain rfl := Option.some.inj hleft
    rcases hinside.result with ⟨-, hnone⟩ | ⟨hle, -⟩
    · rw [hmsg] at hnone
      cases hnone
    · rw [hret] at hle
      exact (toInt_returned hpos).mp hle

/-- What lies behind the `n` bytes does not matter to a walk that stays inside. -/
theorem soscIpcMsgFromBuf_agree {type : SoscIpcType} (hhead : sizeofMsg ≤ n.toNat)
    (hmagic : load 2 h.mem (magicAddr base) = ipcMagic)
    (htype : SoscIpcType.ofRaw (load 4 h.mem base) = some type)
    (hbelow : AllBelow base n.toNat (strdataFromBufAccesses malloc (h.resetPointers base type)
      (base + BitVec.ofNat 64 sizeofMsg) n (pointerVars base type)))
    {h' : Heap} (hh : h.AgreeBelow base n.toNat h') :
    let d := soscIpcMsgFromBuf malloc h base n
    let d' := soscIpcMsgFromBuf malloc h' base n
    d.ret = d'.ret ∧ d.msg = d'.msg ∧ d.heap.AgreeBelow base n.toNat d'.heap := by
  have hn := n.isLt
  have hmagic' := hh.1.load hn (below_magic hhead)
  have htype' := hh.1.load hn (below_type hhead)
  obtain ⟨hagree, hret⟩ := strdataFromBuf_agree hn (hh.resetPointers type) hbelow
  have hrun := soscIpcMsgFromBuf_known malloc hhead hmagic htype
  have hrun' := soscIpcMsgFromBuf_known malloc hhead (hmagic' ▸ hmagic) (htype' ▸ htype)
  dsimp only at hrun hrun' ⊢
  rw [← hret] at hrun'
  rw [hrun, hrun']
  split
  · exact ⟨rfl, rfl, hagree⟩
  · exact ⟨rfl, rfl, hagree⟩

/-- A walk that stays inside gives a size among the `n` bytes, or no message. -/
theorem soscIpcMsgFromBuf_result {type : SoscIpcType} (hhead : sizeofMsg ≤ n.toNat)
    (hmagic : load 2 h.mem (magicAddr base) = ipcMagic)
    (htype : SoscIpcType.ofRaw (load 4 h.mem base) = some type)
    (hbelow : AllBelow base n.toNat (strdataFromBufAccesses malloc (h.resetPointers base type)
      (base + BitVec.ofNat 64 sizeofMsg) n (pointerVars base type)))
    (hfine : ∀ h' left, strdataFromBufLoop malloc (h.resetPointers base type)
        (base + BitVec.ofNat 64 sizeofMsg) n (pointerVars base type) = (h', some left) →
      ¬ (2 ^ 63 ≤ (BitVec.ofNat 64 sizeofMsg + (n - left)).toNat ∧
        (BitVec.ofNat 64 sizeofMsg + (n - left)).toNat < 2 ^ 63 + sizeofMsg)) :
    let d := soscIpcMsgFromBuf malloc h base n
    d.ret = ssizeError ∧ d.msg = none ∨
      (sizeofMsg : ℤ) ≤ d.ret.toInt ∧ d.ret.toInt ≤ n.toNat := by
  have hsize : sizeofMsg = 32 := rfl
  have hwalked := soscIpcMsgFromBuf_walked malloc hhead hmagic htype
  dsimp only at hwalked ⊢
  rcases hwalked.2 with ⟨-, hret, hmsg⟩ | ⟨left, hleft, hpos, hret, hmsg⟩
  · exact .inl ⟨hret, hmsg⟩
  · right
    have hrun : strdataFromBufLoop malloc (h.resetPointers base type)
        (base + BitVec.ofNat 64 sizeofMsg) n (pointerVars base type) = (_, some left) :=
      Prod.ext rfl hleft
    have hbase : (base + BitVec.ofNat 64 sizeofMsg - base).toNat ≤ n.toNat := by
      rw [show base + BitVec.ofNat 64 sizeofMsg - base = BitVec.ofNat 64 sizeofMsg by ring,
        BitVec.toNat_ofNat]
      omega
    have hstop := strdataFromBufLoop_end n.isLt hbase hbelow hrun
    rw [show base + BitVec.ofNat 64 sizeofMsg + (n - left) - base =
      BitVec.ofNat 64 sizeofMsg + (n - left) by ring] at hstop
    have hsmall := hfine _ left hrun
    refine ⟨?_, ?_⟩
    · rw [hret]
      exact (toInt_returned hpos).mpr hsmall
    · rw [hret, BitVec.toInt_eq_toNat_cond]
      split <;> omega

theorem decodesInside_known {type : SoscIpcType} (hhead : sizeofMsg ≤ n.toNat)
    (hmagic : load 2 h.mem (magicAddr base) = ipcMagic)
    (htype : SoscIpcType.ofRaw (load 4 h.mem base) = some type) :
    DecodesInside malloc h base n ↔
      RecordsBelow malloc base n.toNat (h.resetPointers base type)
        (base + BitVec.ofNat 64 sizeofMsg) n (pointerVars base type) := by
  have hend (left : BitVec 64) : base + BitVec.ofNat 64 sizeofMsg + (n - left) - base =
      BitVec.ofNat 64 sizeofMsg + (n - left) := by ring
  rw [recordsBelow_iff (below_pointerVars hhead)]
  simp only [hend]
  constructor
  · intro hinside
    exact ⟨(allBelow_known hhead hmagic htype).mp hinside.inside,
      fun h' left hrun => hinside.returnable hhead hmagic htype hrun⟩
  · rintro ⟨hbelow, hfine⟩
    refine ⟨(allBelow_known hhead hmagic htype).mpr hbelow, fun q hq => ?_, fun h' hh => ?_, ?_⟩
    · have hwalked := soscIpcMsgFromBuf_walked malloc hhead hmagic htype
      rw [hwalked.1, strdataFromBufLoop_kept hq hbelow, resetPointers_kept hhead hq]
    · exact soscIpcMsgFromBuf_agree hhead hmagic htype hbelow hh
    · exact soscIpcMsgFromBuf_result hhead hmagic htype hbelow hfine

/-- Without a header or a magic the decoder refuses, and stays inside. -/
theorem decodesInside_refused
    (hhead : n.toNat < sizeofMsg ∨ load 2 h.mem (magicAddr base) ≠ ipcMagic) :
    DecodesInside malloc h base n := by
  have hrun := soscIpcMsgFromBuf_refused malloc hhead
  refine ⟨?_, fun q _ => ?_, fun h' hh => ?_, ?_⟩
  · rw [soscIpcMsgFromBufAccesses]
    split
    · exact allBelow_nil _ _
    · next hlong =>
      rw [if_pos (hhead.resolve_left hlong), allBelow_cons]
      exact ⟨below_magic (Nat.le_of_not_lt hlong), allBelow_nil _ _⟩
  · rw [hrun]
  · have hhead' : n.toNat < sizeofMsg ∨ load 2 h'.mem (magicAddr base) ≠ ipcMagic := by
      rcases Nat.lt_or_ge n.toNat sizeofMsg with hshort | hlong
      · exact .inl hshort
      · right
        rw [← hh.1.load n.isLt (below_magic hlong)]
        exact hhead.resolve_left (Nat.not_lt.mpr hlong)
    rw [hrun, soscIpcMsgFromBuf_refused malloc hhead']
    exact ⟨rfl, rfl, hh⟩
  · rw [hrun]
    exact .inl ⟨rfl, rfl⟩

/-- An unknown type fails with the message still set. -/
theorem not_decodesInside_unknown (hhead : sizeofMsg ≤ n.toNat)
    (hmagic : load 2 h.mem (magicAddr base) = ipcMagic)
    (htype : SoscIpcType.ofRaw (load 4 h.mem base) = none) :
    ¬ DecodesInside malloc h base n := by
  intro hinside
  have hrun : soscIpcMsgFromBuf malloc h base n =
      { heap := h, ret := ssizeError, msg := some base } := by
    rw [soscIpcMsgFromBuf, if_neg (not_or.mpr ⟨Nat.not_lt.mpr hhead, not_not.mpr hmagic⟩), htype]
  have hresult := hinside.result
  rw [hrun] at hresult
  rcases hresult with ⟨-, hmsg⟩ | ⟨hret, -⟩
  · cases hmsg
  · have hneg : ssizeError.toInt = -1 := by decide
    rw [hneg] at hret
    omega

end Decoder

/-- A serialised `SOSC_DEVICE_CONNECTION` with an empty name. -/
def emptyConnection : List UInt8 :=
  [0, 0, 0, 0] ++ List.replicate 20 0 ++ [0x5C, 0x50] ++ List.replicate 6 0 ++
    List.replicate 8 0 ++ [0x5C, 0x50]

/-- A heap with one byte string at address zero. -/
def Heap.atZero (bs : List UInt8) : Heap where
  mem q := bs.getD q.toNat 0
  copies := []

end Serialosc
