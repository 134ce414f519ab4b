import Serialosc.Supervisor.Callbacks

/-!
# The bytes of a notification endpoint

`osc_add_notification_endpoint` prints the port and copies the host into a structure of fixed
size, which is then copied into the vector of the endpoints, where `osc_notify` reads the two
strings.  `endpoint_readBack` says that what is read is what `notificationEndpoint` says, and
that nothing outside of the structure is written.

`sosc_strlcpy` copies byte by byte; `soscStrlcpy_eq` makes one write of it.
-/

namespace ByteMemory

/-- Two writes, one after the other, are one. -/
theorem write_append (m : Mem) (p : Addr) (xs ys : List UInt8)
    (hsize : xs.length + ys.length < 2 ^ 64) :
    write (write m p xs) (p + BitVec.ofNat 64 xs.length) ys = write m p (xs ++ ys) := by
  funext q
  rcases Nat.lt_or_ge (q - p).toNat xs.length with hlt | hge
  · have hdist := offset_sub_toNat_of_lt p hlt (by omega)
    rw [← eq_offset] at hdist
    have houtside : ys.length ≤ (q - (p + BitVec.ofNat 64 xs.length)).toNat := by
      rw [hdist]
      omega
    rw [write_outside houtside, write, write, List.getD_append _ _ _ _ hlt,
      List.getD_eq_getElem _ _ hlt]
  · have hdist := offset_sub_toNat p hge (q - p).isLt
    rw [← eq_offset] at hdist
    rw [write, hdist, write_outside hge, write, List.getD_append_right _ _ _ _ hge]

/-- The `n` bytes at `p` and the `l` bytes at `q` are different ones. -/
def Apart (p : Addr) (n : ℕ) (q : Addr) (l : ℕ) : Prop :=
  ∀ i < n, ∀ j < l, p + BitVec.ofNat 64 i ≠ q + BitVec.ofNat 64 j

/-- Two fields of a structure are apart. -/
theorem apart_fields (p : Addr) {k n j l : ℕ} (hfields : k + n ≤ j) (hsize : j + l < 2 ^ 64) :
    Apart (p + BitVec.ofNat 64 k) n (p + BitVec.ofNat 64 j) l := by
  intro a ha b hb heq
  rw [offset_add, offset_add] at heq
  have hleft := offset_sub_toNat p (Nat.le_add_right k a) (by omega)
  have hright := offset_sub_toNat p (show k ≤ j + b by omega) (by omega)
  rw [heq, hright] at hleft
  omega

/-- What is not written stays. -/
theorem HasBytes.write {m : Mem} {p q : Addr} {bs cs : List UInt8} (h : HasBytes m q cs)
    (hapart : Apart p bs.length q cs.length) : HasBytes (write m p bs) q cs := by
  rw [hasBytes_iff] at h ⊢
  intro j hj
  rw [← h j hj]
  refine write_outside (Nat.le_of_not_lt fun hlt => ?_)
  exact hapart _ hlt j hj (eq_offset p _).symm

end ByteMemory

namespace Serialosc

open ByteMemory

/-! ## `sosc_strlcpy` -/

/-- The loop of `sosc_strlcpy`, with `n` bytes of room: the memory, `dst`, `src` and `ret`. -/
def strlcpyLoop : ℕ → Mem → Addr → Addr → ℕ → Mem × Addr × Addr × ℕ
  | 0, m, dst, src, ret => (m, dst, src, ret)
  | n + 1, m, dst, src, ret =>
      if m src = 0 then (m, dst, src, ret)
      else strlcpyLoop n (write m dst [m src]) (dst + 1) (src + 1) (ret + 1)

/-- `sosc_strlcpy`. -/
def soscStrlcpy (m : Mem) (dst src : Addr) (size : ℕ) : Mem × ℕ :=
  if dst = 0 then (m, 0)
  else
    let size := if 0 < size then size - 1 else size
    let r := strlcpyLoop size m dst src 0
    let m := write r.1 r.2.1 [0]
    (m, if m r.2.2.1 ≠ 0 then size + 1 else r.2.2.2)

/-- The loop copies as much of the string as there is room for. -/
theorem strlcpyLoop_eq {n : ℕ} {m : Mem} {dst src : Addr} {ret : ℕ} {bs : List UInt8}
    (h : HasBytes m src (bs ++ [0])) (hnul : 0 ∉ bs) (hsize : bs.length < 2 ^ 63)
    (hapart : Apart dst (bs.take n).length src (bs ++ [0]).length) :
    strlcpyLoop n m dst src ret =
      (write m dst (bs.take n), dst + BitVec.ofNat 64 (bs.take n).length,
        src + BitVec.ofNat 64 (bs.take n).length, ret + (bs.take n).length) := by
  have hzero (p : Addr) : p + BitVec.ofNat 64 0 = p := BitVec.add_zero p
  induction n generalizing m dst src ret bs with
  | zero =>
    rw [strlcpyLoop, List.take_zero, List.length_nil, hzero, hzero]
    rfl
  | succ n ih =>
    cases bs with
    | nil =>
      have hnext : m src = 0 := by
        have hfirst := (hasBytes_iff _ _ _).mp h 0 (Nat.succ_pos _)
        rwa [hzero] at hfirst
      rw [strlcpyLoop, if_pos hnext, List.take_nil, List.length_nil, hzero, hzero]
      rfl
    | cons b bs =>
      obtain ⟨hb, hbs⟩ := not_or.mp (fun hor => hnul (List.mem_cons.mpr hor))
      have hsplit : HasBytes m src ([b] ++ (bs ++ [0])) := h
      obtain ⟨hfirst, hrest⟩ := (hasBytes_append _ _ _ _).mp hsplit
      have hnext : m src = b := by
        have hfirst := (hasBytes_iff _ _ _).mp hfirst 0 Nat.one_pos
        rwa [hzero] at hfirst
      have hshift (p : Addr) (i : ℕ) :
          p + 1 + BitVec.ofNat 64 i = p + BitVec.ofNat 64 (i + 1) := by
        rw [Nat.add_comm]
        exact offset_add p 1 i
      have hlength : ((b :: bs).take (n + 1)).length = (bs.take n).length + 1 := by
        rw [List.take_succ_cons, List.length_cons]
      rw [hlength] at hapart
      have hkept : HasBytes (write m dst [b]) (src + 1) (bs ++ [0]) := by
        refine HasBytes.write hrest fun i hi j hj => ?_
        obtain rfl : i = 0 := Nat.lt_one_iff.mp hi
        rw [hshift src j]
        exact hapart 0 (Nat.succ_pos _) (j + 1) (Nat.succ_lt_succ hj)
      have hrest : strlcpyLoop n (write m dst [b]) (dst + 1) (src + 1) (ret + 1) = _ :=
        ih hkept hbs (Nat.lt_of_succ_lt hsize) fun i hi j hj => by
          rw [hshift dst i, hshift src j]
          exact hapart (i + 1) (Nat.succ_lt_succ hi) (j + 1) (Nat.succ_lt_succ hj)
      rw [strlcpyLoop, hnext, if_neg (Ne.symm hb), hrest, hlength, hshift, hshift,
        List.take_succ_cons, Nat.add_assoc, Nat.add_comm 1]
      have hwrite := write_append m dst [b] (bs.take n) (by
        have hle := List.length_take_le' n bs
        rw [List.length_cons] at hsize
        rw [List.length_singleton]
        omega)
      exact congrArg (·, _) hwrite

/-- `sosc_strlcpy` cuts the string off so that its end fits, and returns the length that it
would have needed, or the size of the destination where this is too small.  With no room at all
it writes the end of the string nevertheless. -/
theorem soscStrlcpy_eq {m : Mem} {dst src : Addr} {size : ℕ} {s : CString} (hdst : dst ≠ 0)
    (hs : HasBytes m src (s.bytes ++ [0]))
    (hapart : Apart dst (s.bytes.take (size - 1) ++ [0]).length src (s.bytes ++ [0]).length) :
    soscStrlcpy m dst src size =
      (write m dst ((s.truncate (size - 1)).bytes ++ [0]),
        if s.length ≤ size - 1 then s.length else size - 1 + 1) := by
  have hroom : (if 0 < size then size - 1 else size) = size - 1 := by
    split_ifs with hpos
    · rfl
    · omega
  have hcopied : Apart dst (s.bytes.take (size - 1)).length src (s.bytes ++ [0]).length := by
    intro i hi j hj
    refine hapart i ?_ j hj
    rw [List.length_append]
    exact Nat.lt_add_right _ hi
  have hloop : strlcpyLoop (size - 1) m dst src 0 = _ :=
    strlcpyLoop_eq hs s.nulFree s.length_lt' hcopied
  have hlength := List.length_take_le' (size - 1) s.bytes
  have hwrite := write_append m dst (s.bytes.take (size - 1)) [0] (by
    have := s.length_lt'
    rw [List.length_singleton]
    omega)
  have hkept : HasBytes (write m dst (s.bytes.take (size - 1) ++ [0])) src (s.bytes ++ [0]) :=
    hs.write hapart
  rw [soscStrlcpy, if_neg hdst, hroom]
  dsimp only
  rw [hloop]
  dsimp only
  rw [hwrite, Nat.zero_add]
  refine Prod.ext rfl ?_
  dsimp only
  by_cases hfits : s.length ≤ size - 1
  · have hall : s.bytes.take (size - 1) = s.bytes := List.take_of_length_le hfits
    rw [hall] at hkept ⊢
    have hend := (hasBytes_iff _ _ _).mp hkept s.bytes.length (by
      rw [List.length_append, List.length_singleton]
      exact Nat.lt_succ_self _)
    rw [List.getElem_append_right (Nat.le_refl _), List.getElem_singleton] at hend
    rw [if_neg (not_not.mpr hend), if_pos hfits]
    rfl
  · have hcut : (s.bytes.take (size - 1)).length = size - 1 :=
      List.length_take_of_le (Nat.le_of_not_le hfits)
    have hlt : size - 1 < s.bytes.length := Nat.lt_of_not_le hfits
    have hnext := (hasBytes_iff _ _ _).mp hkept (size - 1) (by
      rw [List.length_append]
      exact Nat.lt_add_right _ hlt)
    rw [List.getElem_append_left hlt] at hnext
    have hmore : s.bytes[size - 1] ≠ 0 := fun hzero => s.nulFree (hzero ▸ List.getElem_mem hlt)
    rw [hcut, hnext, if_pos hmore, if_neg hfits]

/-! ## The structure -/

/-- The string at an address lies there, with its end. -/
theorem hasBytes_cstringAt {m : Mem} {p : Addr} (hlen : (cstringAt m p).length < 2 ^ 63 - 1) :
    HasBytes m p ((cstringAt m p).bytes ++ [0]) := by
  rw [hasBytes_append]
  refine ⟨(hasBytes_iff _ _ _).mpr fun i hi => (getElem_cstringAt rfl hi).symm, ?_⟩
  refine (hasBytes_iff _ _ _).mpr fun i hi => ?_
  obtain rfl : i = 0 := Nat.lt_one_iff.mp hi
  rw [offset_add, Nat.add_zero]
  exact cstringAt_end rfl hlen

/-- `portstr`, which `snprintf` does. -/
def portstrTo (m : Mem) (dest : Addr) (src : ℤ) : Mem := write m dest ((portstr src).bytes ++ [0])

/-- The size of `struct sosc_notification_endpoint`: 128 bytes of host, and 6 of port. -/
def endpointSize : ℕ := 134

/-- What `osc_add_notification_endpoint` fills in at `n`, with the host at `argv`. -/
def endpointTo (m : Mem) (n argv : Addr) (port : ℤ) : Mem :=
  (soscStrlcpy (portstrTo m (n + 128) port) n argv 128).1

/-- The structure is copied into a cell of the vector. -/
def endpointCopy (m : Mem) (cell n : Addr) : Mem := write m cell (read m n endpointSize)

/-- The host and the port that `osc_notify` reads from a cell of the vector. -/
def endpointAt (m : Mem) (cell : Addr) : CString × CString :=
  (cstringAt m cell, cstringAt m (cell + 128))

/-- What lies in the structure lies in its copy. -/
theorem hasBytes_endpointCopy {m : Mem} {n : Addr} {k : ℕ} {bs : List UInt8} (cell : Addr)
    (h : HasBytes m (n + BitVec.ofNat 64 k) bs) (hk : k + bs.length ≤ endpointSize) :
    HasBytes (endpointCopy m cell n) (cell + BitVec.ofNat 64 k) bs := by
  have hcopy : HasBytes (endpointCopy m cell n) cell (read m n endpointSize) := by
    refine hasBytes_write_self _ _ _ ?_
    rw [length_read, endpointSize]
    decide
  rw [hasBytes_iff] at h hcopy ⊢
  intro i hi
  have hin : k + i < endpointSize := Nat.lt_of_lt_of_le (Nat.add_lt_add_left hi k) hk
  have hread := (hasBytes_iff m n _).mp (hasBytes_read m n endpointSize) (k + i)
    (by rwa [length_read])
  rw [offset_add, hcopy (k + i) (by rwa [length_read]), ← h i hi, offset_add, hread]

theorem length_portstr_le (port : ℤ) : (portstr port).bytes.length ≤ 5 :=
  (CString.ofString (toString port)).length_truncate_le 5

section

variable {m : Mem} {n argv : Addr} {s : CString}

/-- The port is printed first, which leaves the host where it is. -/
theorem endpointTo_eq (port : ℤ) (hn : n ≠ 0) (hs : HasBytes m argv (s.bytes ++ [0]))
    (hapart : Apart n endpointSize argv (s.length + 1)) :
    endpointTo m n argv port =
      write (portstrTo m (n + 128) port) n ((s.truncate 127).bytes ++ [0]) := by
  have hhost : (s.truncate 127).bytes.length ≤ 127 := s.length_truncate_le 127
  have hport := length_portstr_le port
  have hprinted : HasBytes (portstrTo m (n + 128) port) argv (s.bytes ++ [0]) := by
    refine hs.write fun i hi j hj => ?_
    rw [List.length_append, List.length_singleton] at hi hj
    have hfield : n + 128 + BitVec.ofNat 64 i = n + BitVec.ofNat 64 (128 + i) :=
      offset_add n 128 i
    rw [hfield]
    exact hapart (128 + i) (by rw [endpointSize]; omega) j hj
  rw [endpointTo, soscStrlcpy_eq hn hprinted]
  intro i hi j hj
  have hi' : i < (s.truncate 127).bytes.length + 1 := by
    rwa [List.length_append, List.length_singleton] at hi
  rw [List.length_append, List.length_singleton] at hj
  exact hapart i (by rw [endpointSize]; omega) j hj

/-- Nothing is written outside of the structure. -/
theorem endpoint_outside (s : CString) (port : ℤ) {q : Addr} (hq : endpointSize ≤ (q - n).toNat) :
    write (portstrTo m (n + 128) port) n ((s.truncate 127).bytes ++ [0]) q = m q := by
  have hhost : (s.truncate 127).bytes.length ≤ 127 := s.length_truncate_le 127
  have hport := length_portstr_le port
  have hback : (q - (n + 128)).toNat = (q - n).toNat - 128 := by
    have hdist := offset_sub_toNat n (Nat.le_trans (show 128 ≤ endpointSize by decide) hq)
      (q - n).isLt
    rwa [← eq_offset] at hdist
  rw [endpointSize] at hq
  rw [write_outside, portstrTo, write_outside]
  · rw [hback, List.length_append, List.length_singleton]
    omega
  · rw [List.length_append, List.length_singleton]
    omega

/-- The two fields of the structure. -/
theorem hasBytes_endpoint (m : Mem) (n : Addr) (s : CString) (port : ℤ) :
    HasBytes (write (portstrTo m (n + 128) port) n ((s.truncate 127).bytes ++ [0]))
        (n + BitVec.ofNat 64 0) ((s.truncate 127).bytes ++ [0]) ∧
      HasBytes (write (portstrTo m (n + 128) port) n ((s.truncate 127).bytes ++ [0]))
        (n + BitVec.ofNat 64 128) ((portstr port).bytes ++ [0]) := by
  have hhost : (s.truncate 127).bytes.length ≤ 127 := s.length_truncate_le 127
  have hport := length_portstr_le port
  have hzero : n + BitVec.ofNat 64 0 = n := BitVec.add_zero n
  have hprinted : HasBytes (portstrTo m (n + 128) port) (n + 128)
      ((portstr port).bytes ++ [0]) := by
    refine hasBytes_write_self _ _ _ ?_
    rw [List.length_append, List.length_singleton]
    omega
  have hfields := apart_fields n (Nat.le_refl (0 + 128)) (l := 6) (by decide)
  rw [hzero] at hfields ⊢
  refine ⟨hasBytes_write_self _ _ _ ?_, hprinted.write fun i hi j hj => hfields i ?_ j ?_⟩
  · rw [List.length_append, List.length_singleton]
    omega
  · rw [List.length_append, List.length_singleton] at hi
    omega
  · rw [List.length_append, List.length_singleton] at hj
    omega

end

/-- The structure in memory holds what `notificationEndpoint` says: nothing outside of it is
written, and wherever it is copied to, the host is read as far as there is room for 127 bytes
and an end, and the port as far as there is room for 5. -/
theorem endpoint_readBack (m : Mem) (n argv cell : Addr) (port : ℤ) (hn : n ≠ 0)
    (hlen : (cstringAt m argv).length < 2 ^ 63 - 1)
    (hapart : Apart n endpointSize argv ((cstringAt m argv).length + 1)) :
    (∀ q, endpointSize ≤ (q - n).toNat → endpointTo m n argv port q = m q) ∧
      endpointAt (endpointCopy (endpointTo m n argv port) cell n) cell =
        ((notificationEndpoint (cstringAt m argv) port).host,
          (notificationEndpoint (cstringAt m argv) port).port) := by
  have hs := hasBytes_cstringAt hlen
  generalize cstringAt m argv = s at hapart hs ⊢
  rw [endpointTo_eq port hn hs hapart]
  refine ⟨fun q hq => endpoint_outside s port hq, ?_⟩
  have hhost : (s.truncate 127).bytes.length ≤ 127 := s.length_truncate_le 127
  have hport := length_portstr_le port
  obtain ⟨hfirst, hsecond⟩ := hasBytes_endpoint m n s port
  have hfirst := hasBytes_endpointCopy cell hfirst (by
    rw [List.length_append, List.length_singleton, endpointSize]
    omega)
  have hsecond := hasBytes_endpointCopy cell hsecond (by
    rw [List.length_append, List.length_singleton, endpointSize]
    omega)
  have hzero : cell + BitVec.ofNat 64 0 = cell := BitVec.add_zero cell
  rw [hzero] at hfirst
  exact Prod.ext (cstringAt_eq hfirst) (cstringAt_eq hsecond)

/-- The name of a host. -/
def sampleHost : CString := .ofString "localhost"

/-- It lies at address 8192. -/
def sampleArgv : Mem := write (fun _ => 0) 8192 (sampleHost.bytes ++ [0])

theorem endpoint_readBack_sampleArgv :
    (∀ q, endpointSize ≤ (q - 4096).toNat →
        endpointTo sampleArgv 4096 8192 8000 q = sampleArgv q) ∧
      endpointAt (endpointCopy (endpointTo sampleArgv 4096 8192 8000) 65536 4096) 65536 =
        (.ofString "localhost", .ofString "8000") := by
  have hhost : cstringAt sampleArgv 8192 = sampleHost :=
    cstringAt_eq (hasBytes_write_self _ _ _ (by decide))
  obtain ⟨houtside, hread⟩ := endpoint_readBack sampleArgv 4096 8192 65536 8000 (by decide)
    (by rw [hhost]; decide) (by
      rw [hhost]
      exact apart_fields 0 (show 4096 + endpointSize ≤ 8192 by decide) (by decide))
  rw [hhost] at hread
  exact ⟨houtside, hread.trans (by decide)⟩

end Serialosc
