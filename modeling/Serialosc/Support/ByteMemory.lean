import Mathlib.Data.BitVec
import Mathlib.Data.List.GetD
import Mathlib.Data.List.Range
import Mathlib.Data.List.TakeWhile
import Mathlib.Tactic.Ring

/-!
# Byte-addressed memory with 64-bit addresses

A memory is a total function from addresses to bytes, and address arithmetic
wraps.  Totality is deliberate: a program that walks off its buffer still
reads some byte, and the caller quantifies over which one.

`HasBytes` says that a byte string lies at an address.  Its append and write
rules let a proof treat a region as a list that is cut into fields, so that
no individual address comparison appears above this module.
-/

namespace ByteMemory

/-- A 64-bit address. -/
abbrev Addr := BitVec 64

/-- The contents of every address. -/
abbrev Mem := Addr → UInt8

/-! ## Reading and writing byte strings -/

/-- The `n` bytes from address `p` on. -/
def read (m : Mem) (p : Addr) (n : ℕ) : List UInt8 :=
  (List.range n).map fun i => m (p + BitVec.ofNat 64 i)

/-- Store the byte string `bs` from address `p` on. -/
def write (m : Mem) (p : Addr) (bs : List UInt8) : Mem :=
  fun q => bs.getD (q - p).toNat (m q)

/-- The byte string `bs` lies at address `p`. -/
def HasBytes (m : Mem) (p : Addr) (bs : List UInt8) : Prop :=
  read m p bs.length = bs

@[simp] theorem length_read (m : Mem) (p : Addr) (n : ℕ) :
    (read m p n).length = n := by
  simp [read]

theorem hasBytes_iff (m : Mem) (p : Addr) (bs : List UInt8) :
    HasBytes m p bs ↔
      ∀ i (hi : i < bs.length), m (p + BitVec.ofNat 64 i) = bs[i] := by
  constructor
  · intro h i hi
    have hget := List.getElem_of_eq h (i := i) (by simpa using hi)
    simpa [read] using hget
  · intro h
    apply List.ext_getElem
    · simp
    · intro i _ hi
      simpa [read] using h i hi

theorem hasBytes_read (m : Mem) (p : Addr) (n : ℕ) :
    HasBytes m p (read m p n) := by
  rw [HasBytes, length_read]

theorem offset_add (p : Addr) (i j : ℕ) :
    p + BitVec.ofNat 64 i + BitVec.ofNat 64 j = p + BitVec.ofNat 64 (i + j) := by
  rw [BitVec.ofNat_add, BitVec.add_assoc]

theorem hasBytes_append (m : Mem) (p : Addr) (xs ys : List UInt8) :
    HasBytes m p (xs ++ ys) ↔
      HasBytes m p xs ∧ HasBytes m (p + BitVec.ofNat 64 xs.length) ys := by
  simp only [hasBytes_iff, offset_add]
  constructor
  · intro h
    constructor
    · intro i hi
      rw [h i (by simp; omega), List.getElem_append_left hi]
    · intro i hi
      rw [h (xs.length + i) (by simp; omega), List.getElem_append_right (by omega)]
      simp
  · rintro ⟨hx, hy⟩ i hi
    by_cases hix : i < xs.length
    · rw [hx i hix, List.getElem_append_left hix]
    · obtain ⟨j, rfl⟩ := Nat.exists_eq_add_of_le (Nat.le_of_not_lt hix)
      rw [hy j (by simp at hi; omega), List.getElem_append_right (by omega)]
      simp

/-- Distance between two offsets from a common base. -/
theorem offset_sub_toNat (p : Addr) {i k : ℕ} (hki : k ≤ i) (hi : i < 2 ^ 64) :
    ((p + BitVec.ofNat 64 i) - (p + BitVec.ofNat 64 k)).toNat = i - k := by
  obtain ⟨j, rfl⟩ := Nat.exists_eq_add_of_le hki
  have h : (p + BitVec.ofNat 64 (k + j)) - (p + BitVec.ofNat 64 k) =
      BitVec.ofNat 64 j := by
    rw [BitVec.ofNat_add]
    ring
  rw [h, BitVec.toNat_ofNat, Nat.mod_eq_of_lt (by omega), Nat.add_sub_cancel_left]

/-- An offset below `k` lies at least `2 ^ 64 - k` past offset `k`. -/
theorem offset_sub_toNat_of_lt (p : Addr) {i k : ℕ} (hik : i < k) (hk : k < 2 ^ 64) :
    ((p + BitVec.ofNat 64 i) - (p + BitVec.ofNat 64 k)).toNat = 2 ^ 64 - (k - i) := by
  obtain ⟨j, rfl⟩ := Nat.exists_eq_add_of_le (Nat.le_of_lt hik)
  have h : (p + BitVec.ofNat 64 i) - (p + BitVec.ofNat 64 (i + j)) =
      -BitVec.ofNat 64 j := by
    rw [BitVec.ofNat_add]
    ring
  rw [h, BitVec.toNat_neg, BitVec.toNat_ofNat]
  omega

/-- A field that lies inside a byte string is replaced by a write of the same
length; everything around it stays. -/
theorem hasBytes_write
    {m : Mem} {p q : Addr} (pre : List UInt8) {old new : List UInt8}
    (post : List UInt8) (h : HasBytes m p (pre ++ old ++ post))
    (hq : q = p + BitVec.ofNat 64 pre.length)
    (hlen : new.length = old.length)
    (hsize : (pre ++ old ++ post).length < 2 ^ 64) :
    HasBytes (write m q new) p (pre ++ new ++ post) := by
  subst hq
  rw [hasBytes_iff] at h ⊢
  simp only [List.length_append] at h hsize ⊢
  intro i hi
  have hold := h i (by omega)
  rcases Nat.lt_or_ge i pre.length with hpre | hpre
  · -- before the field: the wrapped distance is past the end of `new`
    have hdist := offset_sub_toNat_of_lt p hpre (by omega)
    rw [write, hdist, List.getD_eq_default _ _ (by omega), hold]
    grind
  · have hdist := offset_sub_toNat p hpre (by omega)
    rw [write, hdist]
    rcases Nat.lt_or_ge (i - pre.length) new.length with hnew | hnew
    · grind
    · rw [List.getD_eq_default _ _ hnew, hold]
      grind

theorem write_outside {m : Mem} {p q : Addr} {bs : List UInt8}
    (hq : bs.length ≤ (q - p).toNat) : write m p bs q = m q := by
  rw [write, List.getD_eq_default _ _ hq]

theorem write_byte (m : Mem) (p : Addr) (b : UInt8) {i j : ℕ} (hi : i < 2 ^ 64)
    (hj : j < 2 ^ 64) :
    write m (p + BitVec.ofNat 64 j) [b] (p + BitVec.ofNat 64 i) =
      if i = j then b else m (p + BitVec.ofNat 64 i) := by
  rcases Nat.lt_trichotomy i j with hlt | rfl | hgt
  · rw [if_neg (by omega)]
    apply write_outside
    rw [offset_sub_toNat_of_lt p hlt hj, List.length_singleton]
    omega
  · rw [if_pos rfl, write, offset_sub_toNat p (le_refl i) hi, Nat.sub_self]
    rfl
  · rw [if_neg (by omega)]
    apply write_outside
    rw [offset_sub_toNat p (Nat.le_of_lt hgt) hi, List.length_singleton]
    omega

theorem hasBytes_write_self (m : Mem) (p : Addr) (bs : List UInt8)
    (hsize : bs.length < 2 ^ 64) : HasBytes (write m p bs) p bs := by
  have hold : HasBytes m p ([] ++ read m p bs.length ++ []) := by
    simpa using hasBytes_read m p bs.length
  simpa using hasBytes_write [] [] hold (by simp) (by simp) (by simpa using hsize)

/-- Reading back a field of a known byte string. -/
theorem hasBytes_field
    {m : Mem} {p q : Addr} (pre : List UInt8) {field : List UInt8}
    (post : List UInt8) (h : HasBytes m p (pre ++ field ++ post))
    (hq : q = p + BitVec.ofNat 64 pre.length) :
    HasBytes m q field := by
  subst hq
  rw [hasBytes_append, hasBytes_append] at h
  exact h.1.2

/-! ## What a transformation of memory overwrites -/

/-- Every address lies at some offset from `p`. -/
theorem eq_offset (p q : Addr) : q = p + BitVec.ofNat 64 (q - p).toNat := by
  rw [BitVec.ofNat_toNat, BitVec.setWidth_eq]
  ring

/-- `f` overwrites the `k` bytes from `p` on, whatever they were, and nothing
else. -/
structure Overwrites (f : Mem → Mem) (p : Addr) (k : ℕ) : Prop where
  outside : ∀ m q, k ≤ (q - p).toNat → f m q = m q
  inside : ∀ m m' q, (q - p).toNat < k → f m q = f m' q

theorem overwrites_id (p : Addr) : Overwrites (fun m => m) p 0 :=
  ⟨fun _ _ _ => rfl, fun _ _ _ hq => absurd hq (Nat.not_lt_zero _)⟩

theorem overwrites_write (p : Addr) (bs : List UInt8) :
    Overwrites (fun m => write m p bs) p bs.length := by
  constructor
  · intro m q hq
    exact write_outside hq
  · intro m m' q hq
    simp only [write, List.getD_eq_getElem _ _ hq]

/-- Two adjacent regions, one after the other. -/
theorem Overwrites.comp {f g : Mem → Mem} {p : Addr} {k l : ℕ}
    (hg : Overwrites g (p + BitVec.ofNat 64 k) l) (hf : Overwrites f p k)
    (hsize : k + l < 2 ^ 64) : Overwrites (fun m => g (f m)) p (k + l) := by
  -- offsets from the second region, by offsets from the first
  have hback (q : Addr) (hq : k ≤ (q - p).toNat) :
      (q - (p + BitVec.ofNat 64 k)).toNat = (q - p).toNat - k := by
    have hdist := offset_sub_toNat p hq (q - p).isLt
    rwa [← eq_offset] at hdist
  have hfront (q : Addr) (hq : (q - p).toNat < k) :
      l ≤ (q - (p + BitVec.ofNat 64 k)).toNat := by
    have hdist := offset_sub_toNat_of_lt p hq (by omega)
    rw [← eq_offset] at hdist
    omega
  constructor
  · intro m q hq
    rw [hg.outside _ _ (by rw [hback q (by omega)]; omega), hf.outside _ _ (by omega)]
  · intro m m' q hq
    rcases Nat.lt_or_ge (q - p).toNat k with hlow | hhigh
    · rw [hg.outside _ _ (hfront q hlow), hg.outside _ _ (hfront q hlow),
        hf.inside m m' q hlow]
    · exact hg.inside _ _ _ (by rw [hback q hhigh]; omega)

/-- What overwrites `k` bytes stays below `n` exactly when `k` does. -/
theorem Overwrites.within_iff {f : Mem → Mem} {p : Addr} {k n : ℕ}
    (hf : Overwrites f p k) (hk : k ≤ 2 ^ 64) :
    (∀ m q, n ≤ (q - p).toNat → f m q = m q) ↔ k ≤ n := by
  constructor
  · intro hkeep
    by_contra hlt
    have hdist : (p + BitVec.ofNat 64 n - p).toNat = n := by
      rw [show p + BitVec.ofNat 64 n - p = BitVec.ofNat 64 n by ring,
        BitVec.toNat_ofNat, Nat.mod_eq_of_lt (by omega)]
    have hzero := hkeep (fun _ => 0) (p + BitVec.ofNat 64 n) (by omega)
    have hone := hkeep (fun _ => 1) (p + BitVec.ofNat 64 n) (by omega)
    have hsame := hf.inside (fun _ => 0) (fun _ => 1) (p + BitVec.ofNat 64 n) (by omega)
    rw [hzero, hone] at hsame
    exact absurd hsame (by decide)
  · intro hle m q hq
    exact hf.outside m q (by omega)

/-! ## Little-endian words -/

/-- The `w` low bytes of `n`, least significant first. -/
def leBytes : ℕ → ℕ → List UInt8
  | 0, _ => []
  | w + 1, n => UInt8.ofNat n :: leBytes w (n / 256)

/-- The number a little-endian byte string denotes. -/
def leNat : List UInt8 → ℕ
  | [] => 0
  | b :: bs => b.toNat + 256 * leNat bs

@[simp] theorem length_leBytes (w n : ℕ) : (leBytes w n).length = w := by
  induction w generalizing n with
  | zero => rfl
  | succ w ih => simp [leBytes, ih]

theorem leBytes_append (w k n : ℕ) :
    leBytes w n ++ leBytes k (n / 256 ^ w) = leBytes (w + k) n := by
  induction w generalizing n with
  | zero => simp [leBytes]
  | succ w ih =>
    rw [Nat.add_right_comm, leBytes, leBytes, List.cons_append, pow_succ',
      ← Nat.div_div_eq_div_mul, ih]

theorem leBytes_mod (w n : ℕ) : leBytes w (n % 256 ^ w) = leBytes w n := by
  induction w generalizing n with
  | zero => rfl
  | succ w ih =>
    have hlow : UInt8.ofNat (n % 256 ^ (w + 1)) = UInt8.ofNat n := by
      apply UInt8.toNat_inj.mp
      rw [UInt8.toNat_ofNat', UInt8.toNat_ofNat', pow_succ']
      exact Nat.mod_mul_right_mod n 256 (256 ^ w)
    rw [leBytes, leBytes, hlow, pow_succ', Nat.mod_mul_right_div_self, ih]

theorem leNat_leBytes (w n : ℕ) : leNat (leBytes w n) = n % 256 ^ w := by
  induction w generalizing n with
  | zero => simp [leBytes, leNat, Nat.mod_one]
  | succ w ih =>
    rw [leBytes, leNat, ih, pow_succ', Nat.mod_mul, UInt8.toNat_ofNat']

theorem leNat_lt (bs : List UInt8) : leNat bs < 256 ^ bs.length := by
  induction bs with
  | nil => simp [leNat]
  | cons b bs ih =>
    have hb := b.toNat_lt
    rw [leNat, List.length_cons, pow_succ']
    omega

theorem leBytes_leNat (bs : List UInt8) : leBytes bs.length (leNat bs) = bs := by
  induction bs with
  | nil => rfl
  | cons b bs ih =>
    have hb := b.toNat_lt
    have hlow : UInt8.ofNat (b.toNat + 256 * leNat bs) = b := by
      apply UInt8.toNat_inj.mp
      rw [UInt8.toNat_ofNat']
      omega
    have hhigh : (b.toNat + 256 * leNat bs) / 256 = leNat bs := by omega
    rw [List.length_cons, leNat, leBytes, hlow, hhigh, ih]

/-- The word that has the object representation `bs`. -/
def ofLeBytes (w : ℕ) (bs : List UInt8) : BitVec (8 * w) :=
  BitVec.ofNat (8 * w) (leNat bs)

theorem toNat_ofLeBytes {w : ℕ} {bs : List UInt8} (hlen : bs.length = w) :
    (ofLeBytes w bs).toNat = leNat bs := by
  have hlt := leNat_lt bs
  have hpow : (256 : ℕ) ^ w = 2 ^ (8 * w) := by
    rw [pow_mul]
    norm_num
  rw [hlen, hpow] at hlt
  rw [ofLeBytes, BitVec.toNat_ofNat, Nat.mod_eq_of_lt hlt]

theorem leBytes_ofLeBytes {w : ℕ} {bs : List UInt8} (hlen : bs.length = w) :
    leBytes w (ofLeBytes w bs).toNat = bs := by
  rw [toNat_ofLeBytes hlen]
  subst hlen
  exact leBytes_leNat bs

/-- Load a little-endian word of `w` bytes. -/
def load (w : ℕ) (m : Mem) (p : Addr) : BitVec (8 * w) :=
  ofLeBytes w (read m p w)

/-- Store a little-endian word of `w` bytes. -/
def store (w : ℕ) (m : Mem) (p : Addr) (v : BitVec (8 * w)) : Mem :=
  write m p (leBytes w v.toNat)

theorem load_eq {w : ℕ} {m : Mem} {p : Addr} {v : BitVec (8 * w)}
    (h : HasBytes m p (leBytes w v.toNat)) : load w m p = v := by
  rw [HasBytes, length_leBytes] at h
  rw [load, h, ofLeBytes, leNat_leBytes]
  apply BitVec.eq_of_toNat_eq
  have hpow : (256 : ℕ) ^ w = 2 ^ (8 * w) := by
    rw [pow_mul]
    norm_num
  rw [BitVec.toNat_ofNat, hpow, Nat.mod_mod, Nat.mod_eq_of_lt v.isLt]

theorem overwrites_store (w : ℕ) (p : Addr) (v : BitVec (8 * w)) :
    Overwrites (fun m => store w m p v) p w := by
  have hwrite := overwrites_write p (leBytes w v.toNat)
  rwa [length_leBytes] at hwrite

/-! ## NUL-terminated strings -/

/-- A C string: its bytes without the terminator.  No object, hence no
string, is longer than `PTRDIFF_MAX` bytes. -/
@[ext] structure CString where
  bytes : List UInt8
  nulFree : 0 ∉ bytes
  length_lt' : bytes.length < 2 ^ 63

namespace CString

instance : DecidableEq CString := fun s t =>
  decidable_of_iff (s.bytes = t.bytes) CString.ext_iff.symm

/-- `strlen`. -/
def length (s : CString) : ℕ := s.bytes.length

theorem length_lt (s : CString) : s.length < 2 ^ 63 := s.length_lt'

@[simp] theorem length_bytes (s : CString) : s.bytes.length = s.length := rfl

/-- The string at the head of a byte array. -/
def ofBytes (bs : List UInt8) : CString where
  bytes := (bs.takeWhile (· ≠ 0)).take (2 ^ 63 - 1)
  nulFree h := by
    have hmem := List.mem_takeWhile_imp (List.mem_of_mem_take h)
    simp at hmem
  length_lt' := by
    rw [List.length_take]
    omega

instance : Inhabited CString := ⟨ofBytes []⟩

/-- A string of ASCII characters. -/
def ofString (s : String) : CString :=
  ofBytes (s.toList.map fun c => UInt8.ofNat c.toNat)

/-- What is left of a string that is cut off after `n` bytes. -/
def truncate (s : CString) (n : ℕ) : CString where
  bytes := s.bytes.take n
  nulFree h := s.nulFree (List.mem_of_mem_take h)
  length_lt' := lt_of_le_of_lt (List.length_take_le' n s.bytes) s.length_lt'

theorem length_truncate_le (s : CString) (n : ℕ) : (s.truncate n).length ≤ n :=
  List.length_take_le n s.bytes

end CString

/-- The bytes before the first NUL at or after `p`, looking at no more than
`fuel` bytes. -/
def cstringUpTo (m : Mem) : ℕ → Addr → List UInt8
  | 0, _ => []
  | fuel + 1, p =>
      if m p = 0 then [] else m p :: cstringUpTo m fuel (p + 1)

theorem zero_notMem_cstringUpTo (m : Mem) (fuel : ℕ) (p : Addr) :
    0 ∉ cstringUpTo m fuel p := by
  induction fuel generalizing p with
  | zero => simp [cstringUpTo]
  | succ fuel ih =>
    rw [cstringUpTo]
    split
    · simp
    · next hp => simp [Ne.symm hp, ih]

theorem length_cstringUpTo_le (m : Mem) (fuel : ℕ) (p : Addr) :
    (cstringUpTo m fuel p).length ≤ fuel := by
  induction fuel generalizing p with
  | zero => simp [cstringUpTo]
  | succ fuel ih =>
    rw [cstringUpTo]
    split
    · simp
    · simpa using ih (p + 1)

theorem getElem_cstringUpTo (m : Mem) (fuel : ℕ) (p : Addr) {i : ℕ}
    (hi : i < (cstringUpTo m fuel p).length) :
    (cstringUpTo m fuel p)[i] = m (p + BitVec.ofNat 64 i) := by
  induction fuel generalizing p i with
  | zero => simp [cstringUpTo] at hi
  | succ fuel ih =>
    by_cases hp : m p = 0
    · simp [cstringUpTo, hp] at hi
    · simp only [cstringUpTo, if_neg hp] at hi ⊢
      cases i with
      | zero => simp
      | succ i =>
        have hi' : i < (cstringUpTo m fuel (p + 1)).length := by simpa using hi
        rw [List.getElem_cons_succ, ih (p + 1) hi', Nat.add_comm i 1,
          BitVec.ofNat_add, ← BitVec.add_assoc]
        rfl

theorem cstringUpTo_end (m : Mem) (fuel : ℕ) (p : Addr)
    (hfuel : (cstringUpTo m fuel p).length < fuel) :
    m (p + BitVec.ofNat 64 (cstringUpTo m fuel p).length) = 0 := by
  induction fuel generalizing p with
  | zero => exact absurd hfuel (Nat.not_lt_zero _)
  | succ fuel ih =>
    by_cases hp : m p = 0
    · simp [cstringUpTo, hp]
    · simp only [cstringUpTo, if_neg hp, List.length_cons] at hfuel ⊢
      have hend := ih (p + 1) (by omega)
      rw [Nat.add_comm _ 1, BitVec.ofNat_add, ← BitVec.add_assoc]
      exact hend

/-- The NUL-terminated string at `p`. -/
def cstringAt (m : Mem) (p : Addr) : CString :=
  ⟨cstringUpTo m (2 ^ 63 - 1) p, zero_notMem_cstringUpTo m _ p,
    lt_of_le_of_lt (length_cstringUpTo_le m _ p) (by norm_num)⟩

theorem getElem_cstringAt {m : Mem} {p : Addr} {a : CString} (ha : cstringAt m p = a)
    {i : ℕ} (hi : i < a.bytes.length) : a.bytes[i] = m (p + BitVec.ofNat 64 i) := by
  subst ha
  exact getElem_cstringUpTo m _ p hi

theorem cstringAt_end {m : Mem} {p : Addr} {a : CString} (ha : cstringAt m p = a)
    (hlen : a.length < 2 ^ 63 - 1) : m (p + BitVec.ofNat 64 a.length) = 0 := by
  subst ha
  exact cstringUpTo_end m _ p hlen

theorem cstringUpTo_eq {m : Mem} {p : Addr} {s : List UInt8} {fuel : ℕ}
    (h : HasBytes m p (s ++ [0])) (hs : 0 ∉ s) (hfuel : s.length ≤ fuel) :
    cstringUpTo m fuel p = s := by
  induction s generalizing p fuel with
  | nil =>
    have h0 := (hasBytes_iff m p _).mp h 0 (by simp)
    simp at h0
    cases fuel with
    | zero => rfl
    | succ fuel => simp [cstringUpTo, h0]
  | cons b s ih =>
    obtain ⟨fuel, rfl⟩ := Nat.exists_eq_add_of_le hfuel
    have hcons : HasBytes m p ([b] ++ (s ++ [0])) := h
    rw [hasBytes_append] at hcons
    have h0 := (hasBytes_iff m p _).mp hcons.1 0 (by simp)
    simp at h0 hs
    have hrest : cstringUpTo m (s.length + fuel) (p + 1) = s :=
      ih (by simpa using hcons.2) hs.2 (by omega)
    rw [List.length_cons, Nat.add_right_comm, cstringUpTo, h0,
      if_neg (Ne.symm hs.1), hrest]

theorem cstringAt_eq {m : Mem} {p : Addr} {s : CString}
    (h : HasBytes m p (s.bytes ++ [0])) : cstringAt m p = s := by
  apply CString.ext
  exact cstringUpTo_eq h s.nulFree (Nat.le_sub_one_of_lt s.length_lt)

theorem bytes_ofBytes {bs : List UInt8} (hlen : bs.length < 2 ^ 63) :
    (CString.ofBytes bs).bytes = bs.takeWhile (· ≠ 0) := by
  have hle := (List.takeWhile_sublist (fun b : UInt8 => decide (b ≠ 0)) (l := bs)).length_le
  exact List.take_of_length_le (by omega)

theorem ofBytes_bytes (s : CString) : CString.ofBytes s.bytes = s := by
  apply CString.ext
  rw [bytes_ofBytes s.length_lt']
  apply List.takeWhile_eq_self_iff.mpr
  intro b hb
  exact decide_eq_true fun hzero => s.nulFree (hzero ▸ hb)

/-- A terminated byte string, which may have other NULs inside. -/
theorem cstringAt_ofBytes {m : Mem} {p : Addr} {bs : List UInt8}
    (h : HasBytes m p (bs ++ [0])) (hlen : bs.length < 2 ^ 63) :
    cstringAt m p = CString.ofBytes bs := by
  apply cstringAt_eq
  rw [bytes_ofBytes hlen]
  obtain ⟨rest, hrest⟩ : ∃ rest, bs ++ [0] = bs.takeWhile (· ≠ 0) ++ [0] ++ rest := by
    have hsplit := List.takeWhile_append_dropWhile (p := fun b : UInt8 => decide (b ≠ 0)) (l := bs)
    cases hdrop : bs.dropWhile fun b : UInt8 => decide (b ≠ 0) with
    | nil =>
      rw [hdrop, List.append_nil] at hsplit
      exact ⟨[], by rw [hsplit, List.append_nil]⟩
    | cons b rest =>
      have hzero : b = 0 := by
        have hhead := List.head?_dropWhile_not (fun b : UInt8 => decide (b ≠ 0)) bs
        rw [hdrop] at hhead
        simpa using hhead
      rw [hdrop, hzero] at hsplit
      refine ⟨rest ++ [0], ?_⟩
      rw [List.append_assoc, ← List.append_assoc [0], List.singleton_append, ← List.append_assoc,
        hsplit]
  rw [hrest, hasBytes_append] at h
  exact h.1

/-! ## Memories that agree on a region -/

/-- `m` and `m'` hold the same `n` bytes from `base` on. -/
def AgreeBelow (base : Addr) (n : ℕ) (m m' : Mem) : Prop :=
  ∀ q, (q - base).toNat < n → m q = m' q

/-- The `w` bytes at `p` lie among the `n` bytes from `base` on. -/
def Below (base : Addr) (n : ℕ) (p : Addr) (w : ℕ) : Prop :=
  (p - base).toNat + w ≤ n

instance (base : Addr) (n : ℕ) (p : Addr) (w : ℕ) : Decidable (Below base n p w) :=
  inferInstanceAs (Decidable (_ ≤ _))

section Below

variable {base p : Addr} {n w : ℕ} {m m' : Mem}

theorem Below.offset (hp : Below base n p w) (hn : n < 2 ^ 64) {i : ℕ} (hi : i < w) :
    (p + BitVec.ofNat 64 i - base).toNat < n := by
  have hsum : p + BitVec.ofNat 64 i - base = p - base + BitVec.ofNat 64 i := by ring
  rw [Below] at hp
  rw [hsum, BitVec.toNat_add, BitVec.toNat_ofNat]
  omega

theorem Below.distance (hp : Below base n p w) {q : Addr} (hq : n ≤ (q - base).toNat) :
    w ≤ (q - p).toNat := by
  have hsub : q - p = (q - base) - (p - base) := by ring
  rw [Below] at hp
  rw [hsub, BitVec.toNat_sub]
  have := (p - base).isLt
  have := (q - base).isLt
  omega

theorem Below.mono (hp : Below base n p w) {k : ℕ} (hk : k ≤ w) : Below base n p k :=
  (Nat.add_le_add_left hk _).trans hp

theorem AgreeBelow.write (h : AgreeBelow base n m m') (p : Addr) (bs : List UInt8) :
    AgreeBelow base n (write m p bs) (ByteMemory.write m' p bs) := by
  intro q hq
  rw [ByteMemory.write, ByteMemory.write, h q hq]

theorem AgreeBelow.store (h : AgreeBelow base n m m') (w : ℕ) (p : Addr) (v : BitVec (8 * w)) :
    AgreeBelow base n (store w m p v) (store w m' p v) :=
  h.write p _

theorem AgreeBelow.load (h : AgreeBelow base n m m') (hn : n < 2 ^ 64)
    (hp : Below base n p w) : load w m p = load w m' p := by
  have hread : read m p w = read m' p w := by
    apply List.map_congr_left
    intro i hi
    exact h _ (hp.offset hn (List.mem_range.mp hi))
  rw [ByteMemory.load, ByteMemory.load, hread]

/-- A write among the `n` bytes leaves the others alone. -/
theorem Below.write_outside {bs : List UInt8} (hp : Below base n p bs.length) {q : Addr}
    (hq : n ≤ (q - base).toNat) : write m p bs q = m q :=
  ByteMemory.write_outside (hp.distance hq)

theorem cstringUpTo_congr {fuel : ℕ}
    (h : ∀ i ≤ (cstringUpTo m fuel p).length,
      m (p + BitVec.ofNat 64 i) = m' (p + BitVec.ofNat 64 i)) :
    cstringUpTo m fuel p = cstringUpTo m' fuel p := by
  induction fuel generalizing p with
  | zero => rfl
  | succ fuel ih =>
    have h0 : m p = m' p := by simpa using h 0 (Nat.zero_le _)
    by_cases hp : m p = 0
    · rw [cstringUpTo, cstringUpTo, if_pos hp, if_pos (h0 ▸ hp)]
    · rw [cstringUpTo, if_neg hp, List.length_cons] at h
      have hrest := ih (p := p + 1) fun i hi => by
        have hnext := h (i + 1) (by omega)
        rwa [Nat.add_comm i 1, BitVec.ofNat_add, ← BitVec.add_assoc] at hnext
      rw [cstringUpTo, cstringUpTo, if_neg hp, if_neg (h0 ▸ hp), ← h0, hrest]

theorem AgreeBelow.cstringAt (h : AgreeBelow base n m m') (hn : n < 2 ^ 64)
    (hp : Below base n p ((cstringAt m p).length + 1)) :
    cstringAt m p = cstringAt m' p := by
  apply CString.ext
  apply cstringUpTo_congr
  intro i hi
  exact h _ (hp.offset hn (Nat.lt_succ_of_le hi))

end Below

end ByteMemory
