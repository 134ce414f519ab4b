import Serialosc.Ipc.Accounting

/-!
# What the decoder may be given

The walk of `strdata_from_buf` in terms of its input: `n` and the bytes of the
buffer as they were handed over.  A record lies where the length words put it,
and the count of the code leaves room for `sizeof(sosc_ipc_msg_t)` bytes more
than there are.  So the decoder stays inside when every length word is among
the `n` bytes and no record ends behind them.

A length that wraps the count and leads back over the header never meets this.
Whether such a walk stays inside after all depends on the pointers that have
been stored in the header by then.
-/

namespace Serialosc

open ByteMemory

/-! ## Records by offset -/

/-- The length word at offset `o`. -/
def lengthAt (m : Mem) (base : Addr) (o : ℕ) : ℕ :=
  (load 8 m (base + BitVec.ofNat 64 o)).toNat

/-- The magic is at offset `o`. -/
def MagicAt (m : Mem) (base : Addr) (o : ℕ) : Prop :=
  load 2 m (base + BitVec.ofNat 64 o) = ipcMagic

/-- A count of `left` bytes behind a length word leaves room for the length and
the magic, or wraps. -/
def Admits (left slen : ℕ) : Prop :=
  slen + 2 ≤ left ∨ left + 2 ^ 63 < slen ∧ slen + 2 ≤ left + 2 ^ 64

/-- What the code counts behind the length word at offset `o`: `strdata_from_buf`
is told the size of the whole buffer. -/
def countedBehind (n o : ℕ) : ℕ := n + sizeofMsg - (o + 8)

/-- The `k` records from offset `o` on: the length word is among the `n` bytes,
and so is all of a record that the count leaves room for. -/
def RecordsInside (m : Mem) (base : Addr) (n : ℕ) : ℕ → ℕ → Prop
  -- the size is returned as a `ssize_t`
  | 0, o => o < 2 ^ 63
  | k + 1, o =>
      o + 8 ≤ n ∧
        (Admits (countedBehind n o) (lengthAt m base o) →
          o + 8 + lengthAt m base o + 2 ≤ n ∧
            (MagicAt m base (o + 8 + lengthAt m base o) →
              RecordsInside m base n k (o + 8 + lengthAt m base o + 2)))

/-- Some of the `k` records from offset `o` on has a length that wraps the count
and leads back to what has been walked over. -/
def StepsBack (m : Mem) (base : Addr) (n : ℕ) : ℕ → ℕ → Prop
  | 0, _ => False
  | k + 1, o =>
      Admits (countedBehind n o) (lengthAt m base o) ∧
        (2 ^ 64 ≤ o + 8 + lengthAt m base o ∨
          MagicAt m base (o + 8 + lengthAt m base o) ∧
            StepsBack m base n k (o + 8 + lengthAt m base o + 2))

/-- How many strings follow the header. -/
def SoscIpcType.strings : SoscIpcType → ℕ
  | .deviceConnection => 1
  | .deviceInfo => 2
  | _ => 0

/-- The inputs that the decoder can be given: too few bytes for a header, no
magic, or one of the six types with its records among the `n` bytes.  The sizes
from `2 ^ 63 + 8` on are negative for the code, and no record is looked at. -/
def DecoderRoom (m : Mem) (base : Addr) (n : ℕ) : Prop :=
  n < sizeofMsg ∨ load 2 m (magicAddr base) ≠ ipcMagic ∨
    ∃ type, SoscIpcType.ofRaw (load 4 m base) = some type ∧
      (2 ^ 63 + 8 ≤ n ∧ type.strings ≠ 0 ∨ RecordsInside m base n type.strings sizeofMsg)

/-- A length of the message leads back over its header. -/
def LengthStepsBack (m : Mem) (base : Addr) (n : ℕ) : Prop :=
  ∃ type, SoscIpcType.ofRaw (load 4 m base) = some type ∧
    StepsBack m base n type.strings sizeofMsg

/-! ## The count -/

theorem admits_iff {left : BitVec 64} (slen : BitVec 64) (hleft : left.toNat < 2 ^ 63) :
    ((left - slen).slt 0#64 = false ∧ (left - slen - 2#64).slt 0#64 = false) ↔
      Admits left.toNat slen.toNat := by
  have hslen := slen.isLt
  have htwo : (2#64).toNat = 2 := rfl
  have hdiff : (left - slen).toNat = (2 ^ 64 - slen.toNat + left.toNat) % 2 ^ 64 :=
    BitVec.toNat_sub left slen
  rw [Admits]
  by_cases hstr : (left - slen).slt 0#64 = false
  · rw [not_slt_sub_iff (toNat_sub_lt hstr)]
    rw [not_slt_sub_iff hleft] at hstr ⊢
    omega
  · rw [not_slt_sub_iff hleft] at hstr ⊢
    omega

/-- Two memories that agree on the bytes of a word hold the same word. -/
theorem load_congr {w : ℕ} {m m' : Mem} {p : Addr}
    (h : ∀ i < w, m (p + BitVec.ofNat 64 i) = m' (p + BitVec.ofNat 64 i)) :
    load w m p = load w m' p := by
  have hread : read m p w = read m' p w :=
    List.map_congr_left fun i hi => h i (List.mem_range.mp hi)
  rw [load, load, hread]

/-! ## One record -/

/-- The bytes from offset `o` on are as they were handed over. -/
def UnchangedFrom (h : Heap) (m : Mem) (base : Addr) (o : ℕ) : Prop :=
  ∀ i, o ≤ i → i < 2 ^ 64 → h.mem (base + BitVec.ofNat 64 i) = m (base + BitVec.ofNat 64 i)

section Record

variable {malloc : ℕ → Addr} {h : Heap} {m : Mem} {base cur : Addr} {o : ℕ}

theorem UnchangedFrom.storePtr (hm : UnchangedFrom h m base o) (hcur : Member base cur)
    (ho : 24 ≤ o) (v : Addr) : UnchangedFrom (h.storePtr cur v) m base o := by
  intro i hoi hi
  rw [hcur.storePtr_mem h v hi (.inr (ho.trans hoi))]
  exact hm i hoi hi

/-- A word that lies behind offset `o`. -/
theorem UnchangedFrom.load (hm : UnchangedFrom h m base o) {w p : ℕ} (hop : o ≤ p)
    (hp : p + w ≤ 2 ^ 64) :
    ByteMemory.load w h.mem (base + BitVec.ofNat 64 p) =
      ByteMemory.load w m (base + BitVec.ofNat 64 p) := by
  apply load_congr
  intro i hi
  rw [offset_add]
  exact hm (p + i) (by omega) (by omega)

theorem UnchangedFrom.slen (hm : UnchangedFrom h m base o) (hcur : Member base cur)
    (ho : 24 ≤ o) (hword : o + 8 ≤ 2 ^ 64) :
    (h.slen cur (base + BitVec.ofNat 64 o)).toNat = lengthAt m base o := by
  rw [lengthAt, Heap.slen, (hm.storePtr hcur ho 0#64).load (Nat.le_refl o) hword]

/-- The pointer to the string that is to be copied. -/
theorem load_terminated (hcur : Member base cur) {buf : Addr} {k : ℕ} (hk : 24 ≤ k)
    (hk' : k < 2 ^ 64)
    (hend : buf + 8#64 + h.slen cur buf = base + BitVec.ofNat 64 k) :
    ByteMemory.load 8 (h.terminated cur buf) cur = buf + 8#64 := by
  have hstored : HasBytes (h.located cur buf) cur (leBytes 8 (buf + 8#64).toNat) :=
    hasBytes_write_self _ _ _ (by rw [length_leBytes]; decide)
  refine (load_congr fun i hi => ?_).trans (load_eq (w := 8) (v := buf + 8#64) hstored)
  rw [Heap.terminated, hend]
  apply write_outside
  rw [List.length_singleton]
  have hcur' : ∃ j, (j = 8 ∨ j = 16) ∧ cur = base + BitVec.ofNat 64 j := by
    rcases hcur with rfl | rfl
    · exact ⟨8, .inl rfl, rfl⟩
    · exact ⟨16, .inr rfl, rfl⟩
  obtain ⟨j, hj, rfl⟩ := hcur'
  rw [offset_add, offset_sub_toNat_of_lt base (i := j + i) (k := k) (by omega) hk']
  omega

/-- The string that is copied is no longer than its length word says. -/
theorem length_found_le {buf : Addr}
    (hptr : ByteMemory.load 8 (h.terminated cur buf) cur = buf + 8#64) :
    (h.found cur buf).length ≤ (h.slen cur buf).toNat := by
  rw [Heap.found, hptr]
  by_contra hlong
  have hlt : (h.slen cur buf).toNat <
      (cstringAt (h.terminated cur buf) (buf + 8#64)).bytes.length := Nat.lt_of_not_le hlong
  have hget := getElem_cstringAt rfl hlt
  have hzero : h.terminated cur buf
      (buf + 8#64 + BitVec.ofNat 64 (h.slen cur buf).toNat) = 0 := by
    rw [BitVec.ofNat_toNat, BitVec.setWidth_eq, Heap.terminated, write, BitVec.sub_self]
    rfl
  exact (cstringAt (h.terminated cur buf) (buf + 8#64)).nulFree
    (hzero ▸ hget ▸ List.getElem_mem hlt)

/-- The magic behind the string, which no pointer variable lies over. -/
theorem UnchangedFrom.magic (hm : UnchangedFrom h m base o) (hcur : Member base cur)
    (ho : 24 ≤ o) {buf : Addr} {k : ℕ} (hk : o ≤ k) (hk' : k + 2 ≤ 2 ^ 64) :
    ByteMemory.load 2 (h.located cur buf) (base + BitVec.ofNat 64 k) = ipcMagic ↔
      MagicAt m base k := by
  rw [MagicAt, Heap.located,
    ((hm.storePtr hcur ho 0#64).storePtr hcur ho (buf + 8#64)).load hk hk']

/-- A record that has been taken in leaves the bytes behind it alone. -/
theorem UnchangedFrom.copied (hm : UnchangedFrom h m base o) (hcur : Member base cur)
    (ho : 24 ≤ o) {buf : Addr} {k : ℕ} (hk : o ≤ k)
    (hend : buf + 8#64 + h.slen cur buf = base + BitVec.ofNat 64 k) :
    UnchangedFrom (h.copied malloc cur buf) m base (k + 2) := by
  have hterm : UnchangedFrom
      { mem := h.terminated cur buf, copies := h.copies ++ [h.found cur buf] } m base (k + 2) := by
    intro i hki hi
    have houtside : 1 ≤ (base + BitVec.ofNat 64 i - (base + BitVec.ofNat 64 k)).toNat := by
      rw [offset_sub_toNat base (by omega) hi]
      omega
    have hlocated := (hm.storePtr hcur ho 0#64).storePtr hcur ho (buf + 8#64) i (by omega) hi
    rw [← hlocated]
    dsimp only
    rw [Heap.terminated, hend]
    exact write_outside houtside
  exact hterm.storePtr hcur (by omega) _

end Record

theorem Heap.resetPointers_unchangedFrom (h : Heap) (base : Addr) (type : SoscIpcType) :
    UnchangedFrom (h.resetPointers base type) h.mem base sizeofMsg := by
  have hsame : UnchangedFrom h h.mem base sizeofMsg := fun i _ _ => rfl
  have hhead : 24 ≤ sizeofMsg := by decide
  cases type
  case deviceConnection => exact hsame.storePtr (.inl rfl) hhead _
  case deviceInfo => exact (hsame.storePtr (.inr rfl) hhead _).storePtr (.inl rfl) hhead _
  all_goals exact hsame

theorem member_pointerVars {base cur : Addr} {type : SoscIpcType}
    (hcur : cur ∈ pointerVars base type) : Member base cur := by
  cases type
  case deviceConnection => exact .inl (List.mem_singleton.mp hcur)
  case deviceInfo =>
    rcases List.mem_cons.mp hcur with hfirst | hsecond
    · exact .inl hfirst
    · exact .inr (List.mem_singleton.mp hsecond)
  all_goals cases hcur

theorem length_pointerVars (base : Addr) (type : SoscIpcType) :
    (pointerVars base type).length = type.strings := by
  cases type <;> rfl

/-! ## The walk -/

section Walk

variable {malloc : ℕ → Addr} {m : Mem} {base : Addr} {n o : ℕ}

/-- Records that lie among the `n` bytes have lengths that lead forward. -/
theorem RecordsInside.not_stepsBack (hn : n < 2 ^ 64) {k : ℕ}
    (hinside : RecordsInside m base n k o) : ¬ StepsBack m base n k o := by
  induction k generalizing o with
  | zero => exact id
  | succ k ih =>
    rintro ⟨hroomy, hback | ⟨hmagic, hrest⟩⟩
    · have hend := (hinside.2 hroomy).1
      omega
    · exact ih ((hinside.2 hroomy).2 hmagic) hrest

/-- The bytes that a record of the walk is about, as offsets. -/
theorem offset_below {w : ℕ} {k : ℕ} (hk : k < 2 ^ 64) :
    Below base n (base + BitVec.ofNat 64 k) w ↔ k + w ≤ n := by
  have hdist := offset_sub_toNat base (Nat.zero_le k) hk
  rw [BitVec.add_zero, Nat.sub_zero] at hdist
  rw [Below, hdist]

/-- What the code counts behind the length word, as it counts it. -/
theorem toNat_countedBehind {avail : BitVec 64}
    (havail : avail = BitVec.ofNat 64 (n + sizeofMsg - o)) (hn : n < 2 ^ 63 + 8)
    (ho : sizeofMsg ≤ o) (hon : o ≤ n) :
    (avail - 8#64).toNat = countedBehind n o ∧ countedBehind n o < 2 ^ 63 := by
  have hsize : sizeofMsg = 32 := rfl
  rw [countedBehind, havail, BitVec.toNat_sub, BitVec.toNat_ofNat, BitVec.toNat_ofNat]
  omega

/-- The walk stands at offset `o`: what the code counts, and the bytes from there
on, which are as they were handed over. -/
structure StandsAt (m : Mem) (base : Addr) (n o : ℕ) (h : Heap) (buf : Addr)
    (avail : BitVec 64) : Prop where
  behind : sizeofMsg ≤ o
  inside : o ≤ n
  cursor : buf = base + BitVec.ofNat 64 o
  count : avail = BitVec.ofNat 64 (n + sizeofMsg - o)
  bytes : UnchangedFrom h m base o

namespace StandsAt

variable {h : Heap} {buf cur : Addr} {avail : BitVec 64}

theorem toNat_sub_base (hat : StandsAt m base n o h buf avail) (hn : n < 2 ^ 64) :
    (buf - base).toNat = o := by
  have hdist := offset_sub_toNat base (Nat.zero_le o) (hat.inside.trans_lt hn)
  rwa [BitVec.add_zero, Nat.sub_zero, ← hat.cursor] at hdist

theorem behind_ptrs (hat : StandsAt m base n o h buf avail) : 24 ≤ o :=
  (by decide : 24 ≤ sizeofMsg).trans hat.behind

/-- The count is not negative before the length word is taken off. -/
theorem not_slt (hat : StandsAt m base n o h buf avail) (hn : n < 2 ^ 63 + 8) :
    ¬ (avail - 8#64).slt 0#64 = true := by
  obtain ⟨hleft, hsmall⟩ := toNat_countedBehind hat.count hn hat.behind hat.inside
  rw [BitVec.slt_zero_eq_msb, BitVec.msb_eq_decide, decide_eq_true_iff]
  omega

/-- The length word as the code reads it. -/
theorem slen (hat : StandsAt m base n o h buf avail) (hcur : Member base cur)
    (hword : o + 8 ≤ 2 ^ 64) : (h.slen cur buf).toNat = lengthAt m base o := by
  rw [hat.cursor]
  exact hat.bytes.slen hcur hat.behind_ptrs hword

theorem slen_eq (hat : StandsAt m base n o h buf avail) (hcur : Member base cur)
    (hword : o + 8 ≤ 2 ^ 64) : h.slen cur buf = BitVec.ofNat 64 (lengthAt m base o) := by
  rw [← hat.slen hcur hword, BitVec.ofNat_toNat, BitVec.setWidth_eq]

/-- The two tests of the count behind a length word. -/
theorem admits_iff (hat : StandsAt m base n o h buf avail) (hn : n < 2 ^ 63 + 8)
    (hcur : Member base cur) (hword : o + 8 ≤ n) :
    ((avail - 8#64 - h.slen cur buf).slt 0#64 = false ∧
        (avail - 8#64 - h.slen cur buf - 2#64).slt 0#64 = false) ↔
      Admits (countedBehind n o) (lengthAt m base o) := by
  obtain ⟨hleft, hsmall⟩ := toNat_countedBehind hat.count hn hat.behind hat.inside
  rw [← hleft, ← hat.slen hcur (by omega)]
  exact Serialosc.admits_iff (h.slen cur buf) (hleft ▸ hsmall)

/-- The string ends where its length word says. -/
theorem string_end (hat : StandsAt m base n o h buf avail) (hcur : Member base cur)
    (hword : o + 8 ≤ 2 ^ 64) :
    buf + 8#64 + h.slen cur buf = base + BitVec.ofNat 64 (o + 8 + lengthAt m base o) := by
  rw [hat.slen_eq hcur hword, ← offset_add, ← offset_add, hat.cursor]

/-- What is copied lies within the record. -/
theorem copy_below (hat : StandsAt m base n o h buf avail) (hcur : Member base cur)
    (hinside : o + 8 + lengthAt m base o + 2 ≤ n) (hn : n < 2 ^ 64) :
    Below base n (load 8 (h.terminated cur buf) cur) ((h.found cur buf).length + 1) := by
  have hptrs := hat.behind_ptrs
  have hptr := load_terminated (h := h) hcur (by omega) (by omega)
    (hat.string_end hcur (by omega))
  have hfound := length_found_le hptr
  have hslen := hat.slen hcur (by omega)
  have hstart : buf + 8#64 = base + BitVec.ofNat 64 (o + 8) := by
    rw [hat.cursor, ← offset_add]
  rw [hptr, hstart, offset_below (by omega)]
  omega

/-- Behind a record that has been taken in. -/
theorem next (hat : StandsAt m base n o h buf avail) (hcur : Member base cur)
    (hinside : o + 8 + lengthAt m base o + 2 ≤ n) (hn : n < 2 ^ 64) :
    StandsAt m base n (o + 8 + lengthAt m base o + 2) (h.copied malloc cur buf)
      (buf + 8#64 + h.slen cur buf + 2#64) (avail - 8#64 - h.slen cur buf - 2#64) where
  behind := by
    have hbehind := hat.behind
    omega
  inside := hinside
  cursor := by
    rw [hat.string_end hcur (by omega)]
    exact offset_add _ _ 2
  count := by
    have hcount : n + sizeofMsg - o =
        8 + lengthAt m base o + 2 + (n + sizeofMsg - (o + 8 + lengthAt m base o + 2)) := by
      omega
    rw [hat.slen_eq hcur (by omega), hat.count, hcount, BitVec.ofNat_add, BitVec.ofNat_add,
      BitVec.ofNat_add]
    ring
  bytes := hat.bytes.copied hcur hat.behind_ptrs (by omega) (hat.string_end hcur (by omega))

end StandsAt

/-- The walk over the records stays among the `n` bytes when they all lie there. -/
theorem recordsBelow_iff_inside (hn : n < 2 ^ 63 + 8) {curs : List Addr}
    (hcurs : ∀ cur ∈ curs, Member base cur) {h : Heap} {buf : Addr} {avail : BitVec 64}
    (hat : StandsAt m base n o h buf avail) (hforward : ¬ StepsBack m base n curs.length o) :
    RecordsBelow malloc base n h buf avail curs ↔ RecordsInside m base n curs.length o := by
  induction curs generalizing h buf avail o with
  | nil =>
    have hsize : sizeofMsg = 32 := rfl
    have hinside := hat.inside
    rw [RecordsBelow, hat.toNat_sub_base (by omega), List.length_nil, RecordsInside]
    omega
  | cons cur rest ih =>
    have hcur := hcurs cur List.mem_cons_self
    have hon := hat.inside
    have hword : Below base n buf 8 ↔ o + 8 ≤ n := by
      rw [hat.cursor, offset_below (by omega)]
    rw [RecordsBelow, or_iff_right (hat.not_slt hn), hword, List.length_cons, RecordsInside]
    refine and_congr_right fun hlen => ?_
    have htests := hat.admits_iff hn hcur hlen
    by_cases hfits : Admits (countedBehind n o) (lengthAt m base o)
    · obtain ⟨hstr, hmagic⟩ := htests.mpr hfits
      have hlt : o + 8 + lengthAt m base o < 2 ^ 64 := by
        by_contra hback
        exact hforward ⟨hfits, .inl (Nat.le_of_not_lt hback)⟩
      rw [or_iff_right (Bool.eq_false_iff.mp hstr), or_iff_right (Bool.eq_false_iff.mp hmagic),
        imp_iff_right hfits, hat.string_end hcur (by omega), offset_below hlt]
      refine and_congr_right fun hinside => ?_
      rw [ne_eq, hat.bytes.magic hcur hat.behind_ptrs (by omega) (by omega),
        and_iff_right (hat.copy_below hcur hinside (by omega)), ← imp_iff_not_or]
      refine imp_congr_right fun hthere => ?_
      rw [← hat.string_end hcur (by omega)]
      apply ih (fun c hc => hcurs c (List.mem_cons_of_mem _ hc))
        (hat.next hcur hinside (by omega))
      intro hback
      exact hforward ⟨hfits, .inr ⟨hthere, hback⟩⟩
    · -- the count is negative before the magic is looked at
      have hneg : (avail - 8#64 - h.slen cur buf).slt 0#64 = true ∨
          (avail - 8#64 - h.slen cur buf - 2#64).slt 0#64 = true := by
        by_contra hpos
        exact hfits (htests.mp (by simpa using hpos))
      simp only [hfits, false_implies, iff_true]
      exact hneg.imp_right .inl

end Walk

section Decoder

variable {malloc : ℕ → Addr} {h : Heap} {base : Addr} {n : BitVec 64}

/-- A size that is negative for the code: the first test ends the walk. -/
theorem recordsBelow_negative {type : SoscIpcType} (hn : 2 ^ 63 + 8 ≤ n.toNat)
    (hstrings : type.strings ≠ 0) {buf : Addr} :
    RecordsBelow malloc base n.toNat h buf n (pointerVars base type) := by
  have hneg : (n - 8#64).slt 0#64 = true := by
    have hlt := n.isLt
    rw [BitVec.slt_zero_eq_msb, BitVec.msb_eq_decide, decide_eq_true_iff, BitVec.toNat_sub,
      BitVec.toNat_ofNat]
    omega
  rw [← length_pointerVars base type] at hstrings
  cases hcurs : pointerVars base type with
  | nil => exact absurd (congrArg List.length hcurs) hstrings
  | cons cur rest => exact .inl hneg

/-- The walk over the records of a known type. -/
theorem recordsBelow_known {type : SoscIpcType} (hhead : sizeofMsg ≤ n.toNat)
    (hforward : ¬ StepsBack h.mem base n.toNat type.strings sizeofMsg) :
    RecordsBelow malloc base n.toNat (h.resetPointers base type)
        (base + BitVec.ofNat 64 sizeofMsg) n (pointerVars base type) ↔
      2 ^ 63 + 8 ≤ n.toNat ∧ type.strings ≠ 0 ∨
        RecordsInside h.mem base n.toNat type.strings sizeofMsg := by
  have hsize : sizeofMsg = 32 := rfl
  rcases Nat.lt_or_ge n.toNat (2 ^ 63 + 8) with hn | hn
  · have hat : StandsAt h.mem base n.toNat sizeofMsg (h.resetPointers base type)
        (base + BitVec.ofNat 64 sizeofMsg) n := by
      refine ⟨Nat.le_refl _, hhead, rfl, ?_, h.resetPointers_unchangedFrom base type⟩
      rw [Nat.add_sub_cancel, BitVec.ofNat_toNat, BitVec.setWidth_eq]
    rw [← length_pointerVars base type] at hforward ⊢
    rw [recordsBelow_iff_inside hn (fun cur hcur => member_pointerVars hcur) hat hforward,
      or_iff_right]
    rintro ⟨hlarge, -⟩
    omega
  · cases hcurs : pointerVars base type with
    | nil =>
      have hnone : type.strings = 0 := by
        rw [← length_pointerVars base type, hcurs, List.length_nil]
      have hoff : (base + BitVec.ofNat 64 sizeofMsg - base).toNat = sizeofMsg := by
        have hdist := offset_sub_toNat base (i := sizeofMsg) (Nat.zero_le _) (by decide)
        rwa [BitVec.add_zero, Nat.sub_zero] at hdist
      rw [RecordsBelow, hoff, hnone, RecordsInside]
      omega
    | cons cur rest =>
      have hsome : type.strings ≠ 0 := by
        rw [← length_pointerVars base type, hcurs, List.length_cons]
        exact Nat.succ_ne_zero _
      exact iff_of_true (hcurs ▸ recordsBelow_negative hn hsome) (.inl ⟨hn, hsome⟩)

/-- The decoder never looks past the bytes it was given, and says so by its
result, when no record ends in the `sizeof(sosc_ipc_msg_t)` bytes behind them. -/
theorem soscIpcMsgFromBuf_inside (malloc : ℕ → Addr) (h : Heap) (base : Addr) (n : BitVec 64) :
    (DecoderRoom h.mem base n.toNat → DecodesInside malloc h base n) ∧
      (¬ LengthStepsBack h.mem base n.toNat →
        DecodesInside malloc h base n → DecoderRoom h.mem base n.toNat) := by
  by_cases hrefused : n.toNat < sizeofMsg ∨ load 2 h.mem (magicAddr base) ≠ ipcMagic
  · refine ⟨fun _ => decodesInside_refused hrefused, fun _ _ => ?_⟩
    rw [DecoderRoom, ← or_assoc]
    exact .inl hrefused
  obtain ⟨hhead, hmagic⟩ := not_or.mp hrefused
  rw [DecoderRoom, or_iff_right hhead, or_iff_right hmagic]
  replace hhead := Nat.le_of_not_lt hhead
  replace hmagic := not_not.mp hmagic
  constructor
  · rintro ⟨type, htype, hroom⟩
    rw [decodesInside_known hhead hmagic htype]
    rcases hroom with ⟨hlarge, hstrings⟩ | hinside
    · exact recordsBelow_negative hlarge hstrings
    · exact (recordsBelow_known hhead (hinside.not_stepsBack n.isLt)).mpr (.inr hinside)
  · intro hforward hinside
    cases htype : SoscIpcType.ofRaw (load 4 h.mem base) with
    | none => exact absurd hinside (not_decodesInside_unknown hhead hmagic htype)
    | some type =>
      rw [decodesInside_known hhead hmagic htype] at hinside
      have hwalk : ¬ StepsBack h.mem base n.toNat type.strings sizeofMsg :=
        fun hback => hforward ⟨type, htype, hback⟩
      exact ⟨type, rfl, (recordsBelow_known hhead hwalk).mp hinside⟩

/-- All but the last byte of a message is accepted, if that byte is still there. -/
theorem not_soscIpcMsgFromBuf_inside :
    ¬ ∀ (malloc : ℕ → Addr) (h : Heap) (base : Addr) (n : BitVec 64),
      DecodesInside malloc h base n := by
  intro hall
  have hstale := hall (fun _ => 0#64) (.atZero emptyConnection) 0#64 41#64
  have hret : (soscIpcMsgFromBuf (fun _ => 0#64) (.atZero emptyConnection) 0#64 41#64).ret =
      42#64 := by rfl
  have hresult := hstale.result
  dsimp only at hresult
  rw [hret] at hresult
  exact absurd hresult (by decide)

end Decoder

end Serialosc
