import Serialosc.Ipc.DecodeBounds

/-!
# How the decoder counts

`strdata_from_buf` subtracts each length from a signed count and looks at the
sign.  A length that exceeds the bytes remaining makes the count negative,
unless it exceeds them by more than `2 ^ 63`: then the count wraps, and the
cursor goes back.  So the count is exact as long as no such record is taken in;
`strdataFromBuf_accountsExactly_iff` says precisely when it is.
-/

namespace Serialosc

open ByteMemory

/-! ## The signed count -/

/-- Subtracting from a count that is not negative. -/
theorem not_slt_sub_iff {a k : BitVec 64} (ha : a.toNat < 2 ^ 63) :
    (a - k).slt 0#64 = false ↔ k.toNat ≤ a.toNat ∨ a.toNat + 2 ^ 63 < k.toNat := by
  have hk := k.isLt
  rw [BitVec.slt_zero_eq_msb, BitVec.msb_eq_decide, decide_eq_false_iff_not, BitVec.toNat_sub]
  omega

theorem toNat_sub_lt {a k : BitVec 64} (hneg : (a - k).slt 0#64 = false) :
    (a - k).toNat < 2 ^ 63 := by
  rw [BitVec.slt_zero_eq_msb, BitVec.msb_eq_decide, decide_eq_false_iff_not] at hneg
  omega

/-- The count stays clear of negative numbers over a whole record if the record
fits, or if its length wraps. -/
theorem count_passes_iff {avail slen : BitVec 64} (havail : avail.toNat < 2 ^ 63) :
    ((avail - 8#64).slt 0#64 = false ∧ (avail - 8#64 - slen).slt 0#64 = false ∧
        (avail - 8#64 - slen - 2#64).slt 0#64 = false) ↔
      8 ≤ avail.toNat ∧ (slen.toNat + 2 ≤ (avail - 8#64).toNat ∨
        (avail - 8#64).toNat + 2 ^ 63 < slen.toNat ∧
          slen.toNat + 2 ≤ (avail - 8#64).toNat + 2 ^ 64) := by
  have hslen := slen.isLt
  rw [not_slt_sub_iff havail]
  have height : (8#64).toNat = 8 := rfl
  have htwo : (2#64).toNat = 2 := rfl
  by_cases hlen : 8 ≤ avail.toNat
  · have hleft : (avail - 8#64).toNat < 2 ^ 63 := by
      rw [BitVec.toNat_sub]
      omega
    generalize avail - 8#64 = left at hleft ⊢
    have hdiff : (left - slen).toNat = (2 ^ 64 - slen.toNat + left.toNat) % 2 ^ 64 :=
      BitVec.toNat_sub left slen
    by_cases hstr : (left - slen).slt 0#64 = false
    · rw [not_slt_sub_iff (toNat_sub_lt hstr)]
      rw [not_slt_sub_iff hleft] at hstr ⊢
      omega
    · rw [not_slt_sub_iff hleft] at hstr ⊢
      omega
  · omega

/-! ## The records -/

/-- A record that `strdata_from_buf` has begun to read: the cursor in front of it,
its length, and the bytes remaining behind the length. -/
structure StrRecord where
  buf : Addr
  slen : BitVec 64
  left : BitVec 64

/-- What the record takes up, by its own length. -/
def StrRecord.size (record : StrRecord) : ℕ := 8 + record.slen.toNat + 2

/-- The three moves over the record go forward, by the signed distance from
`base`. -/
def StrRecord.Forward (base : Addr) (record : StrRecord) : Prop :=
  (record.buf - base).toInt ≤ (record.buf + 8#64 - base).toInt ∧
    (record.buf + 8#64 - base).toInt ≤ (record.buf + 8#64 + record.slen - base).toInt ∧
    (record.buf + 8#64 + record.slen - base).toInt ≤
      (record.buf + 8#64 + record.slen + 2#64 - base).toInt

/-- The records that `strdata_from_buf` begins to read. -/
def strdataFromBufRecords (malloc : ℕ → Addr) (h : Heap) (buf : Addr) (avail : BitVec 64) :
    List Addr → List StrRecord
  | [] => []
  | cur :: rest =>
      let slen := h.slen cur buf
      let buf₂ := buf + 8#64 + slen
      if (avail - 8#64).slt 0#64 then []
      else ⟨buf, slen, avail - 8#64⟩ ::
        if (avail - 8#64 - slen).slt 0#64 then []
        else if (avail - 8#64 - slen - 2#64).slt 0#64 then []
        else if load 2 (h.located cur buf) buf₂ ≠ ipcMagic then []
        else strdataFromBufRecords malloc (h.copied malloc cur buf) (buf₂ + 2#64)
          (avail - 8#64 - slen - 2#64) rest

/-- The sum of their sizes. -/
def recordBytes (records : List StrRecord) : ℕ := (records.map StrRecord.size).sum

/-- What a call of `strdata_from_buf` should make of the lengths that it reads. -/
structure AccountsExactly (malloc : ℕ → Addr) (h : Heap) (buf : Addr) (n : BitVec 64)
    (curs : List Addr) : Prop where
  sums : 0 ≤ (strdataFromBuf malloc h buf n curs).2.toInt →
    (recordBytes (strdataFromBufRecords malloc h buf n curs) : ℤ) =
        (strdataFromBuf malloc h buf n curs).2.toInt ∧
      (strdataFromBuf malloc h buf n curs).2.toInt ≤ n.toNat
  forward : 0 ≤ (strdataFromBuf malloc h buf n curs).2.toInt →
    ∀ record ∈ strdataFromBufRecords malloc h buf n curs, record.Forward buf
  refuses : (∃ record ∈ strdataFromBufRecords malloc h buf n curs,
      record.left.toNat < record.slen.toNat) →
    (strdataFromBuf malloc h buf n curs).2 = ssizeError

/-- The record at `buf` is taken in: there is room for its length, the length
leaves room for the magic or wraps the count, and the magic is where the cursor
is then. -/
def RecordTaken (h : Heap) (cur buf : Addr) (avail : BitVec 64) : Prop :=
  8 ≤ avail.toNat ∧
    ((h.slen cur buf).toNat + 2 ≤ (avail - 8#64).toNat ∨
      (avail - 8#64).toNat + 2 ^ 63 < (h.slen cur buf).toNat ∧
        (h.slen cur buf).toNat + 2 ≤ (avail - 8#64).toNat + 2 ^ 64) ∧
    load 2 (h.located cur buf) (buf + 8#64 + h.slen cur buf) = ipcMagic

/-- All records are taken in. -/
def RecordsTaken (malloc : ℕ → Addr) : Heap → Addr → BitVec 64 → List Addr → Prop
  | _, _, _, [] => True
  | h, buf, avail, cur :: rest =>
      RecordTaken h cur buf avail ∧
        RecordsTaken malloc (h.copied malloc cur buf) (buf + 8#64 + h.slen cur buf + 2#64)
          (avail - 8#64 - h.slen cur buf - 2#64) rest

/-- The inputs whose lengths the code counts exactly: some record is not taken in,
no length exceeds the bytes remaining by more than `2 ^ 63`, or the sizes come to
what looks like `-1`. -/
def CountsExactly (malloc : ℕ → Addr) (h : Heap) (buf : Addr) (n : BitVec 64)
    (curs : List Addr) : Prop :=
  ¬ RecordsTaken malloc h buf n curs ∨
    (∀ record ∈ strdataFromBufRecords malloc h buf n curs,
      record.slen.toNat ≤ record.left.toNat + 2 ^ 63) ∨
    recordBytes (strdataFromBufRecords malloc h buf n curs) % 2 ^ 64 = 2 ^ 64 - 1

theorem recordBytes_cons (record : StrRecord) (records : List StrRecord) :
    recordBytes (record :: records) = record.size + recordBytes records := by
  rw [recordBytes, List.map_cons, List.sum_cons, recordBytes]

theorem StrRecord.ofNat_size (record : StrRecord) :
    BitVec.ofNat 64 record.size = 8#64 + record.slen + 2#64 := by
  rw [StrRecord.size, BitVec.ofNat_add, BitVec.ofNat_add, BitVec.ofNat_toNat,
    BitVec.setWidth_eq]

section Walk

variable {malloc : ℕ → Addr} {h : Heap} {cur buf base : Addr} {avail : BitVec 64}
variable {curs rest : List Addr}

theorem recordTaken_iff (havail : avail.toNat < 2 ^ 63) :
    RecordTaken h cur buf avail ↔
      ((avail - 8#64).slt 0#64 = false ∧ (avail - 8#64 - h.slen cur buf).slt 0#64 = false ∧
        (avail - 8#64 - h.slen cur buf - 2#64).slt 0#64 = false) ∧
      load 2 (h.located cur buf) (buf + 8#64 + h.slen cur buf) = ipcMagic := by
  rw [RecordTaken, count_passes_iff havail, and_assoc]

/-- The count is still not negative behind a record that is taken in. -/
theorem RecordTaken.left_lt (havail : avail.toNat < 2 ^ 63)
    (htaken : RecordTaken h cur buf avail) :
    (avail - 8#64 - h.slen cur buf - 2#64).toNat < 2 ^ 63 :=
  toNat_sub_lt ((recordTaken_iff havail).mp htaken).1.2.2

theorem strdataFromBufLoop_taken (havail : avail.toNat < 2 ^ 63)
    (htaken : RecordTaken h cur buf avail) :
    strdataFromBufLoop malloc h buf avail (cur :: rest) =
      strdataFromBufLoop malloc (h.copied malloc cur buf) (buf + 8#64 + h.slen cur buf + 2#64)
        (avail - 8#64 - h.slen cur buf - 2#64) rest := by
  obtain ⟨⟨h₁, h₂, h₃⟩, hmagic⟩ := (recordTaken_iff havail).mp htaken
  simp [strdataFromBufLoop_eq, h₁, h₂, h₃, hmagic]

theorem strdataFromBufLoop_refused (havail : avail.toNat < 2 ^ 63)
    (hrefused : ¬ RecordTaken h cur buf avail) :
    (strdataFromBufLoop malloc h buf avail (cur :: rest)).2 = none := by
  rw [recordTaken_iff havail] at hrefused
  rw [strdataFromBufLoop_eq]
  dsimp only
  split_ifs with h₁ h₂ h₃ h₄
  · rfl
  · rfl
  · rfl
  · rfl
  · exact absurd ⟨⟨eq_false_of_ne_true h₁, eq_false_of_ne_true h₂, eq_false_of_ne_true h₃⟩,
      not_not.mp h₄⟩ hrefused

theorem strdataFromBufRecords_taken (havail : avail.toNat < 2 ^ 63)
    (htaken : RecordTaken h cur buf avail) :
    strdataFromBufRecords malloc h buf avail (cur :: rest) =
      ⟨buf, h.slen cur buf, avail - 8#64⟩ ::
        strdataFromBufRecords malloc (h.copied malloc cur buf)
          (buf + 8#64 + h.slen cur buf + 2#64)
          (avail - 8#64 - h.slen cur buf - 2#64) rest := by
  obtain ⟨⟨h₁, h₂, h₃⟩, hmagic⟩ := (recordTaken_iff havail).mp htaken
  simp [strdataFromBufRecords, h₁, h₂, h₃, hmagic]

/-- One record that is not taken in makes the function return `-1`. -/
theorem strdataFromBufLoop_not_taken (havail : avail.toNat < 2 ^ 63)
    (hrefused : ¬ RecordsTaken malloc h buf avail curs) :
    (strdataFromBufLoop malloc h buf avail curs).2 = none := by
  induction curs generalizing h buf avail with
  | nil => exact absurd trivial hrefused
  | cons cur rest ih =>
    by_cases htaken : RecordTaken h cur buf avail
    · rw [strdataFromBufLoop_taken havail htaken]
      exact ih (htaken.left_lt havail) fun hrest => hrefused ⟨htaken, hrest⟩
    · exact strdataFromBufLoop_refused havail htaken

/-- Records that are taken in are counted, modulo `2 ^ 64`. -/
theorem strdataFromBufLoop_count (havail : avail.toNat < 2 ^ 63)
    (htaken : RecordsTaken malloc h buf avail curs) :
    (strdataFromBufLoop malloc h buf avail curs).2 =
      some (avail -
        BitVec.ofNat 64 (recordBytes (strdataFromBufRecords malloc h buf avail curs))) := by
  induction curs generalizing h buf avail with
  | nil => simp [strdataFromBufLoop, strdataFromBufRecords, recordBytes]
  | cons cur rest ih =>
    obtain ⟨hthis, hrest⟩ := htaken
    rw [strdataFromBufLoop_taken havail hthis, strdataFromBufRecords_taken havail hthis,
      ih (hthis.left_lt havail) hrest]
    rw [recordBytes_cons, BitVec.ofNat_add, StrRecord.ofNat_size]
    congr 1
    ring

/-- What remains behind a record that fits. -/
theorem toNat_left {slen : BitVec 64} (hlen : 8 ≤ avail.toNat)
    (hfits : slen.toNat + 2 ≤ (avail - 8#64).toNat) :
    (avail - 8#64).toNat = avail.toNat - 8 ∧
      (avail - 8#64 - slen - 2#64).toNat = avail.toNat - (8 + slen.toNat + 2) := by
  have hleft : (avail - 8#64).toNat = avail.toNat - 8 := BitVec.toNat_sub_of_le hlen
  have hstr : (avail - 8#64 - slen).toNat = avail.toNat - 8 - slen.toNat := by
    rw [← hleft]
    exact BitVec.toNat_sub_of_le (Nat.le_of_add_right_le hfits)
  have hmagic : (avail - 8#64 - slen - 2#64).toNat = avail.toNat - 8 - slen.toNat - 2 := by
    rw [← hstr]
    refine BitVec.toNat_sub_of_le ?_
    rw [BitVec.le_def, hstr]
    change 2 ≤ _
    omega
  exact ⟨hleft, by omega⟩

/-- Without a length that wraps, no record exceeds the bytes remaining. -/
theorem RecordsTaken.fits (havail : avail.toNat < 2 ^ 63)
    (htaken : RecordsTaken malloc h buf avail curs)
    (hsmall : ∀ record ∈ strdataFromBufRecords malloc h buf avail curs,
      record.slen.toNat ≤ record.left.toNat + 2 ^ 63) :
    recordBytes (strdataFromBufRecords malloc h buf avail curs) ≤ avail.toNat ∧
      ∀ record ∈ strdataFromBufRecords malloc h buf avail curs,
        record.slen.toNat ≤ record.left.toNat := by
  induction curs generalizing h buf avail with
  | nil => exact ⟨Nat.zero_le _, List.forall_mem_nil _⟩
  | cons cur rest ih =>
    obtain ⟨hthis, hrest⟩ := htaken
    rw [strdataFromBufRecords_taken havail hthis, List.forall_mem_cons] at hsmall ⊢
    obtain ⟨hsize, hothers⟩ := ih (hthis.left_lt havail) hrest hsmall.2
    obtain ⟨hlen, hfits | ⟨hwraps, -⟩, -⟩ := hthis
    · obtain ⟨hleft, hbehind⟩ := toNat_left hlen hfits
      refine ⟨?_, Nat.le_of_add_right_le hfits, hothers⟩
      rw [hbehind] at hsize
      rw [recordBytes_cons, StrRecord.size]
      dsimp only
      omega
    · exact absurd hsmall.1 (Nat.not_le.mpr hwraps)

theorem toNat_distance {p k : BitVec 64} (hlt : (p - base).toNat + k.toNat < 2 ^ 63) :
    (p + k - base).toNat = (p - base).toNat + k.toNat := by
  rw [show p + k - base = p - base + k by ring, BitVec.toNat_add]
  omega

theorem toInt_distance {p k : BitVec 64} (hlt : (p - base).toNat + k.toNat < 2 ^ 63) :
    (p - base).toInt ≤ (p + k - base).toInt := by
  have hsum := toNat_distance hlt
  rw [BitVec.toInt_eq_toNat_of_lt (by omega), BitVec.toInt_eq_toNat_of_lt (by omega), hsum]
  omega

/-- A record goes forward if its end is no further than a signed distance. -/
theorem StrRecord.forward_of_lt (base : Addr) (record : StrRecord)
    (hlt : (record.buf - base).toNat + record.size < 2 ^ 63) :
    record.Forward base ∧
      (record.buf + 8#64 + record.slen + 2#64 - base).toNat =
        (record.buf - base).toNat + record.size := by
  have height : (8#64).toNat = 8 := rfl
  have htwo : (2#64).toNat = 2 := rfl
  rw [StrRecord.size] at hlt ⊢
  have hstr : (record.buf + 8#64 - base).toNat = (record.buf - base).toNat + 8 :=
    toNat_distance (by omega)
  have hmagic : (record.buf + 8#64 + record.slen - base).toNat =
      (record.buf + 8#64 - base).toNat + record.slen.toNat := toNat_distance (by omega)
  have hend : (record.buf + 8#64 + record.slen + 2#64 - base).toNat =
      (record.buf + 8#64 + record.slen - base).toNat + 2 := toNat_distance (by omega)
  refine ⟨⟨toInt_distance ?_, toInt_distance ?_, toInt_distance ?_⟩, ?_⟩ <;> omega

/-- Without a length that wraps, the cursor goes forward, as far as `avail` allows. -/
theorem RecordsTaken.forward (havail : (buf - base).toNat + avail.toNat < 2 ^ 63)
    (htaken : RecordsTaken malloc h buf avail curs)
    (hfits : ∀ record ∈ strdataFromBufRecords malloc h buf avail curs,
      record.slen.toNat ≤ record.left.toNat) :
    ∀ record ∈ strdataFromBufRecords malloc h buf avail curs, record.Forward base := by
  induction curs generalizing h buf avail with
  | nil => exact List.forall_mem_nil _
  | cons cur rest ih =>
    obtain ⟨hthis, hrest⟩ := htaken
    have hcount : avail.toNat < 2 ^ 63 := lt_of_le_of_lt (Nat.le_add_left _ _) havail
    rw [strdataFromBufRecords_taken hcount hthis, List.forall_mem_cons] at hfits ⊢
    obtain ⟨hthat, hothers⟩ := hfits
    obtain ⟨hlen, hroom | ⟨hwraps, -⟩, -⟩ := hthis
    · obtain ⟨hleft, hbehind⟩ := toNat_left hlen hroom
      have hsize : StrRecord.size ⟨buf, h.slen cur buf, avail - 8#64⟩ =
          8 + (h.slen cur buf).toNat + 2 := rfl
      obtain ⟨hforward, hend⟩ := StrRecord.forward_of_lt base
        ⟨buf, h.slen cur buf, avail - 8#64⟩ (by rw [hsize]; dsimp only; omega)
      refine ⟨hforward, ih ?_ hrest hothers⟩
      rw [hbehind]
      dsimp only at hend
      omega
    · dsimp only at hthat
      omega

/-! ## Whole calls -/

theorem strdataFromBuf_not_taken (havail : avail.toNat < 2 ^ 63)
    (hrefused : ¬ RecordsTaken malloc h buf avail curs) :
    (strdataFromBuf malloc h buf avail curs).2 = ssizeError := by
  have hnone := strdataFromBufLoop_not_taken havail hrefused
  rw [strdataFromBuf]
  split
  · rfl
  · next g left hrun =>
    rw [hrun] at hnone
    cases hnone

theorem strdataFromBuf_taken (havail : avail.toNat < 2 ^ 63)
    (htaken : RecordsTaken malloc h buf avail curs) :
    (strdataFromBuf malloc h buf avail curs).2 =
      BitVec.ofNat 64 (recordBytes (strdataFromBufRecords malloc h buf avail curs)) := by
  have hcount := strdataFromBufLoop_count havail htaken
  rw [strdataFromBuf]
  split
  · next g hrun =>
    rw [hrun] at hcount
    cases hcount
  · next g left hrun =>
    rw [hrun] at hcount
    rw [Option.some.inj hcount]
    ring

end Walk

/-- `strdata_from_buf` counts the lengths that it reads exactly, whatever the buffer
and the number of records, except that a length which exceeds the bytes remaining
by more than `2 ^ 63` may be taken in. -/
theorem strdataFromBuf_accountsExactly_iff (malloc : ℕ → Addr) (h : Heap) (buf : Addr)
    (n : BitVec 64) (curs : List Addr) (hn : n.toNat < 2 ^ 63) :
    AccountsExactly malloc h buf n curs ↔ CountsExactly malloc h buf n curs := by
  have hminus (hret : (strdataFromBuf malloc h buf n curs).2 = ssizeError) :
      AccountsExactly malloc h buf n curs := by
    have hneg : ¬ 0 ≤ (strdataFromBuf malloc h buf n curs).2.toInt := by
      rw [hret]
      decide
    exact ⟨fun hpos => absurd hpos hneg, fun hpos => absurd hpos hneg, fun _ => hret⟩
  by_cases htaken : RecordsTaken malloc h buf n curs
  · have hret := strdataFromBuf_taken hn htaken
    rw [CountsExactly, or_iff_right (not_not.mpr htaken)]
    constructor
    · intro hexact
      rw [or_iff_not_imp_left]
      intro hwraps
      obtain ⟨record, hmem, hlong⟩ : ∃ record ∈ strdataFromBufRecords malloc h buf n curs,
          ¬ record.slen.toNat ≤ record.left.toNat + 2 ^ 63 := by
        simpa only [not_forall, exists_prop] using hwraps
      have hrefuses := hexact.refuses ⟨record, hmem, by omega⟩
      have hnat := congrArg BitVec.toNat (hret.symm.trans hrefuses)
      rwa [BitVec.toNat_ofNat, ssizeError_toNat] at hnat
    · rintro (hsmall | hsum)
      · obtain ⟨hsize, hfits⟩ := htaken.fits hn hsmall
        have hstart : (buf - buf).toNat + n.toNat < 2 ^ 63 := by simpa using hn
        have hexact : (strdataFromBuf malloc h buf n curs).2.toInt =
            recordBytes (strdataFromBufRecords malloc h buf n curs) := by
          rw [hret, BitVec.toInt_eq_toNat_of_lt, BitVec.toNat_ofNat]
          · omega
          · rw [BitVec.toNat_ofNat]
            omega
        refine ⟨fun _ => ⟨hexact.symm, ?_⟩, fun _ => htaken.forward hstart hfits, ?_⟩
        · rw [hexact]
          exact_mod_cast hsize
        · rintro ⟨record, hmem, hlong⟩
          exact absurd (hfits record hmem) (Nat.not_le.mpr hlong)
      · -- all records were taken in, but their sizes come to `-1`
        refine hminus (hret.trans (BitVec.eq_of_toNat_eq ?_))
        rw [BitVec.toNat_ofNat, hsum, ssizeError_toNat]
  · exact iff_of_true (hminus (strdataFromBuf_not_taken hn htaken)) (.inl htaken)

/-- A `SOSC_DEVICE_INFO` with the names `ab` and `c`, and a header of zeros. -/
def shortNames : List UInt8 :=
  List.replicate 32 0 ++ [2, 0, 0, 0, 0, 0, 0, 0, 0x61, 0x62, 0x5C, 0x50] ++
    [1, 0, 0, 0, 0, 0, 0, 0, 0x63, 0x5C, 0x50]

/-- Both lengths are counted. -/
theorem strdataFromBuf_accountsExactly_iff_shortNames :
    (55#64).toNat < 2 ^ 63 ∧
      (strdataFromBuf (fun _ => 1000#64) (.atZero shortNames) 32#64 55#64 [8#64, 16#64]).2 =
        23#64 ∧
      AccountsExactly (fun _ => 1000#64) (.atZero shortNames) 32#64 55#64 [8#64, 16#64] := by
  have hrecords : strdataFromBufRecords (fun _ => 1000#64) (.atZero shortNames) 32#64 55#64
      [8#64, 16#64] = [⟨32#64, 2#64, 47#64⟩, ⟨44#64, 1#64, 35#64⟩] := by rfl
  have hsmall : ∀ record ∈ strdataFromBufRecords (fun _ => 1000#64) (.atZero shortNames) 32#64
      55#64 [8#64, 16#64], record.slen.toNat ≤ record.left.toNat + 2 ^ 63 := by
    rw [hrecords]
    decide
  exact ⟨by decide, rfl, (strdataFromBuf_accountsExactly_iff (fun _ => 1000#64)
    (.atZero shortNames) 32#64 55#64 [8#64, 16#64] (by decide)).mpr (.inr (.inl hsmall))⟩

/-! ## A length that wraps -/

/-- A `SOSC_DEVICE_CONNECTION` whose string is ten bytes short of `2 ^ 64` long, so
that its magic is the last two bytes of the header. -/
def wrappedConnection : List UInt8 :=
  [0, 0, 0, 0] ++ List.replicate 20 0 ++ [0x5C, 0x50] ++ List.replicate 4 0 ++ [0x5C, 0x50] ++
    [0xF6, 0xFF, 0xFF, 0xFF, 0xFF, 0xFF, 0xFF, 0xFF]

/-- The cursor goes back to where it was, and the call returns 0. -/
theorem not_strdataFromBuf_accountsExactly :
    ¬ ∀ (malloc : ℕ → Addr) (h : Heap) (buf : Addr) (n : BitVec 64) (curs : List Addr),
      n.toNat < 2 ^ 63 → AccountsExactly malloc h buf n curs := by
  intro hall
  have hexact := hall (fun _ => 0#64) (.atZero wrappedConnection) 32#64 40#64 [8#64] (by decide)
  have hret : (strdataFromBuf (fun _ => 0#64) (.atZero wrappedConnection) 32#64 40#64
      [8#64]).2 = 0#64 := by rfl
  have hrecords : strdataFromBufRecords (fun _ => 0#64) (.atZero wrappedConnection) 32#64 40#64
      [8#64] = [⟨32#64, 0xFFFFFFFFFFFFFFF6#64, 32#64⟩] := by rfl
  have hrefuses := hexact.refuses
  rw [hret, hrecords] at hrefuses
  exact absurd (hrefuses ⟨_, List.mem_cons_self, by decide⟩) (by decide)

end Serialosc
