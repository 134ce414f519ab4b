import Serialosc.Ipc.Misread
import Serialosc.Support.Cuts

/-!
# Reading a stream chunk by chunk

`device_read_cb` and `detector_read_cb` hand every chunk to
`dispatch_ipc_msgs` in a buffer of its own, and nothing is kept from one chunk
for the next.  So a message is read when it lies within one chunk and starts
where a decoder looks for it.

`readsAsSent_iff` says for which cuts of the stream the handler is called for
every message as soon as its last byte is there: exactly for those whose every
chunk ends with a message.
-/

namespace Serialosc

open ByteMemory Cuts

/-- One call of a read callback: the heap and the buffer at the time of the
call, and what libuv has read into the buffer. -/
structure Read where
  heap : Heap
  base : Addr
  chunk : List UInt8

/-- The number of bytes that were read. -/
def Read.nbytes (r : Read) : ℕ := r.chunk.length

/-- The heap with the chunk in its buffer. -/
def Read.filled (r : Read) : Heap :=
  { r.heap with mem := write r.heap.mem r.base r.chunk }

/-- `device_read_cb` and `detector_read_cb`, which differ in their handler. -/
def readCb {σ : Type} (malloc : ℕ → Addr) (cb : σ → IpcMsg → σ) (r : Read) (self : σ) :
    Option σ :=
  (dispatchIpcMsgs malloc cb (r.nbytes + 1) r.filled r.base
    (BitVec.ofNat 64 r.nbytes) self).map Dispatched.self

/-- The calls for all chunks of a stream. -/
def readCbs {σ : Type} (malloc : ℕ → Addr) (cb : σ → IpcMsg → σ) :
    List Read → σ → Option σ
  | [], self => some self
  | r :: reads, self => (readCb malloc cb r self).bind (readCbs malloc cb reads)

/-- The messages `cs`, cut into chunks of the given sizes, are read as they
were sent: after each chunk the handler has been called, in order, for the
messages whose bytes have all arrived, and for no others.  Nothing is assumed
of the senders' pointers and padding, or of the memory behind the chunks. -/
def ReadsAsSent (malloc : ℕ → Addr) (cs : List IpcMsg) (sizes : List ℕ) : Prop :=
  ∀ (os : List Outgoing) (reads : List Read), os.map Outgoing.contents = cs →
    reads.flatMap Read.chunk = os.flatMap Outgoing.bytes →
    reads.map Read.nbytes = sizes →
    ∀ (σ : Type) (cb : σ → IpcMsg → σ) (self : σ) (k : ℕ),
      readCbs malloc cb (reads.take k) self =
        some ((complete IpcMsg.wireSize cs (sizes.take k).sum).foldl cb self)

theorem wireSize_pos (c : IpcMsg) : 0 < c.wireSize :=
  lt_of_lt_of_le (by decide) (sizeofMsg_le_wireSize c)

theorem length_bytes_outgoing (os : List Outgoing) :
    (os.flatMap Outgoing.bytes).length =
      total IpcMsg.wireSize (os.map Outgoing.contents) := by
  induction os with
  | nil => rfl
  | cons o os ih =>
    rw [List.flatMap_cons, List.length_append, ih, o.length_bytes, List.map_cons, total_cons]

theorem length_le_total (cs : List IpcMsg) : cs.length ≤ total IpcMsg.wireSize cs := by
  induction cs with
  | nil => exact Nat.le_refl 0
  | cons c cs ih =>
    have hpos := wireSize_pos c
    rw [List.length_cons, total_cons]
    omega

section Runs

variable {σ : Type} (malloc : ℕ → Addr) (cb : σ → IpcMsg → σ)

/-- A read callback always returns. -/
theorem readCb_returns (r : Read) (self : σ) (hsize : r.nbytes < 2 ^ 63) :
    ∃ self', readCb malloc cb r self = some self' := by
  have hfuel : (BitVec.ofNat 64 r.nbytes).toNat < 2 ^ 63 →
      (BitVec.ofNat 64 r.nbytes).toNat < r.nbytes + 1 := by
    intro _
    rw [BitVec.toNat_ofNat, Nat.mod_eq_of_lt (by omega)]
    exact Nat.lt_succ_self _
  obtain ⟨d, hd⟩ :=
    dispatchIpcMsgs_returns malloc cb r.filled r.base self (Nat.succ_pos _) hfuel
  exact ⟨d.self, by rw [readCb, hd, Option.map_some]⟩

/-- A chunk of whole messages is read completely. -/
theorem readCb_messages {r : Read} {os : List Outgoing} (self : σ)
    (hchunk : r.chunk = os.flatMap Outgoing.bytes) (hsize : r.nbytes < 2 ^ 63) :
    readCb malloc cb r self = some ((os.map Outgoing.contents).foldl cb self) := by
  rw [Read.nbytes] at hsize
  have hm : HasBytes r.filled.mem r.base (os.flatMap Outgoing.bytes) := by
    rw [← hchunk]
    exact hasBytes_write_self _ _ _ (by omega)
  have hfuel : os.length < r.chunk.length + 1 := by
    have hle := length_le_total (os.map Outgoing.contents)
    rw [List.length_map, ← length_bytes_outgoing, ← hchunk] at hle
    exact Nat.lt_succ_of_le hle
  obtain ⟨h', hrun⟩ := dispatchIpcMsgs_messages malloc cb os self hm (hchunk ▸ hsize) hfuel
  rw [← hchunk] at hrun
  rw [readCb, Read.nbytes, hrun, Option.map_some]

theorem readCbs_append (reads reads' : List Read) (self : σ) :
    readCbs malloc cb (reads ++ reads') self =
      (readCbs malloc cb reads self).bind (readCbs malloc cb reads') := by
  induction reads generalizing self with
  | nil => rfl
  | cons r reads ih =>
    rw [List.cons_append, readCbs, readCbs, Option.bind_assoc]
    congr 1
    funext self'
    exact ih self'

end Runs

/-! ## Cuts between messages -/

theorem readsAsSent_of_aligned (malloc : ℕ → Addr) {cs : List IpcMsg} {sizes : List ℕ}
    (hsmall : ∀ n ∈ sizes, n < 2 ^ 63) (h : Aligned IpcMsg.wireSize cs sizes) :
    ReadsAsSent malloc cs sizes := by
  intro os reads hos hstream hsizes σ cb self k
  have hpos (cs : List IpcMsg) : ∀ c ∈ cs, 0 < c.wireSize := fun c _ => wireSize_pos c
  induction reads generalizing os cs sizes self k with
  | nil =>
    subst hsizes
    rw [List.take_nil, List.map_nil, List.take_nil, List.sum_nil, complete_zero _ (hpos cs)]
    rfl
  | cons r reads ih =>
    subst hsizes
    rcases k with _ | k
    · rw [List.take_zero, List.take_zero, List.sum_nil, complete_zero _ (hpos cs)]
      rfl
    · obtain ⟨cs₁, cs₂, rfl, hlen, hrest⟩ := h.uncons (hpos cs)
      obtain ⟨os₁, os₂, rfl, rfl, rfl⟩ := List.map_eq_append_iff.mp hos
      rw [List.flatMap_cons, List.flatMap_append] at hstream
      obtain ⟨hchunk, hstream₂⟩ := List.append_inj hstream
        (hlen.trans (length_bytes_outgoing os₁).symm)
      have hread := readCb_messages malloc cb self hchunk
        (hsmall _ List.mem_cons_self)
      have htail := ih (fun n hn => hsmall n (List.mem_cons_of_mem _ hn)) hrest os₂ rfl
        hstream₂ rfl ((os₁.map Outgoing.contents).foldl cb self) k
      rw [List.take_succ_cons, readCbs, hread, Option.bind_some, htail, List.map_cons,
        List.take_succ_cons, List.sum_cons, hlen, complete_append, List.foldl_append]

/-! ## Cuts inside a message -/

/-- The handler that writes down what it is called with. -/
def record (log : List IpcMsg) (msg : IpcMsg) : List IpcMsg := log ++ [msg]

theorem foldl_record (log msgs : List IpcMsg) : msgs.foldl record log = log ++ msgs := by
  induction msgs generalizing log with
  | nil => rw [List.foldl_nil, List.append_nil]
  | cons m msgs ih => rw [List.foldl_cons, ih, record, List.append_assoc, List.singleton_append]

theorem dispatchIpcMsgs_extends {malloc : ℕ → Addr} {fuel : ℕ} {h : Heap} {p : Addr}
    {n : BitVec 64} {log : List IpcMsg} {d : Dispatched (List IpcMsg)}
    (hrun : dispatchIpcMsgs malloc record fuel h p n log = some d) :
    ∃ msgs, d.self = log ++ msgs := by
  induction fuel generalizing h p n log with
  | zero => cases hrun
  | succ fuel ih =>
    rw [dispatchIpcMsgs] at hrun
    split at hrun
    · dsimp only at hrun
      split at hrun
      · cases hrun
        exact ⟨[], (List.append_nil log).symm⟩
      · obtain ⟨msgs, hmsgs⟩ := ih hrun
        rw [hmsgs]
        cases (soscIpcMsgFromBuf malloc h p n).contents h with
        | none => exact ⟨msgs, rfl⟩
        | some m => exact ⟨m :: msgs, List.append_assoc _ _ _⟩
    · cases hrun
      exact ⟨[], (List.append_nil log).symm⟩

/-- What the handler is called with depends on the first decoding. -/
theorem dispatchIpcMsgs_first {malloc : ℕ → Addr} {fuel : ℕ} {h : Heap} {p : Addr}
    {n : BitVec 64} {log : List IpcMsg} {d : Dispatched (List IpcMsg)}
    (hpos : (0#64).slt n = true)
    (hrun : dispatchIpcMsgs malloc record (fuel + 1) h p n log = some d) :
    d.self = log ∨ (soscIpcMsgFromBuf malloc h p n).ret.slt 0#64 = false ∧
      ∀ m, (soscIpcMsgFromBuf malloc h p n).contents h = some m →
        ∃ msgs, d.self = log ++ m :: msgs := by
  rw [dispatchIpcMsgs, if_pos hpos] at hrun
  dsimp only at hrun
  split at hrun
  · cases hrun
    exact .inl rfl
  · next hneg =>
    refine .inr ⟨Bool.eq_false_of_not_eq_true hneg, ?_⟩
    intro m hm
    rw [hm] at hrun
    obtain ⟨msgs, hmsgs⟩ := dispatchIpcMsgs_extends hrun
    exact ⟨msgs, hmsgs.trans (List.append_assoc _ _ _)⟩

/-- A chunk that begins inside the message `c` never leads to `c` as the next
message. -/
theorem readCb_inside {malloc : ℕ → Addr} {g : UInt8} {c : IpcMsg} {rest : List UInt8}
    {t : ℕ} {log msgs : List IpcMsg}
    (hmin : 6 ≤ g.toNat) (hmagic : g ≠ 0x5C) (hg : ∀ s ∈ c.strings, g ∉ s.bytes)
    (hfit : c.wireSize ≤ soscIpcMsgBufferSize) (hrest : Follows g rest) (ht : 0 < t)
    (ht' : t < c.wireSize) (hsmall : (Cut g c rest t).length < 2 ^ 48) :
    readCb malloc record
        { heap := { mem := fun _ => 0, copies := [] }, base := plainBase,
          chunk := Cut g c rest t } log ≠
      some (log ++ c :: msgs) := by
  intro hread
  obtain ⟨d, hrun, hself⟩ := Option.map_eq_some_iff.mp hread
  have hlen : 0 < (Cut g c rest t).length := by
    rw [Cut, List.length_drop, List.length_append, length_junkBytes]
    omega
  rcases dispatchIpcMsgs_first (slt_ofNat_pos hlen (by omega)) hrun with hnone | ⟨hret, hfirst⟩
  · have hlog := List.append_cancel_left
      ((List.append_nil log).trans (hnone.symm.trans hself))
    cases hlog
  · rcases inside_misread malloc hmin hmagic hg hfit hrest ht ht' hsmall
      with hneg | ⟨m, hm, hne⟩
    · exact Bool.noConfusion (hneg.symm.trans hret)
    · obtain ⟨msgs', hmsgs⟩ := hfirst m hm
      exact hne (List.cons.inj (List.append_cancel_left (hmsgs.symm.trans hself))).1

/-- A stream of messages whose headers are filled with `g`. -/
theorem exists_outgoing {g : UInt8} (hg : g ≠ 0) {cs : List IpcMsg}
    (hfit : ∀ c ∈ cs, c.wireSize ≤ soscIpcMsgBufferSize) :
    ∃ os : List Outgoing, os.map Outgoing.contents = cs ∧
      os.flatMap Outgoing.bytes = cs.flatMap (junkBytes g) := by
  induction cs with
  | nil => exact ⟨[], rfl, rfl⟩
  | cons c cs ih =>
    obtain ⟨os, hos, hbytes⟩ := ih fun c' hc' => hfit c' (List.mem_cons_of_mem _ hc')
    refine ⟨junkOutgoing g hg c (hfit c List.mem_cons_self) :: os, ?_, ?_⟩
    · rw [List.map_cons, hos]
      rfl
    · rw [List.flatMap_cons, List.flatMap_cons, bytes_junkOutgoing, hbytes]

/-- The rest of the message that a chunk begins in, and what follows it. -/
theorem chunk_eq_cut {g : UInt8} (cs₁ cs₂ : List IpcMsg) {c : IpcMsg} {t n : ℕ}
    (hn : c.wireSize ≤ t + n) :
    (((cs₁ ++ c :: cs₂).flatMap (junkBytes g)).drop
        (total IpcMsg.wireSize cs₁ + t)).take n =
      Cut g c ((cs₂.flatMap (junkBytes g)).take (t + n - c.wireSize)) t := by
  have hlen : (cs₁.flatMap (junkBytes g)).length = total IpcMsg.wireSize cs₁ := by
    rw [List.length_flatMap, total]
    congr 2
    funext c
    exact length_junkBytes g c
  rw [List.flatMap_append, List.flatMap_cons, ← List.drop_drop, ← hlen,
    List.drop_left, Cut, List.take_drop]
  congr 1
  rw [List.take_append, length_junkBytes, List.take_of_length_le
    (by rw [length_junkBytes]; omega)]

theorem aligned_of_readsAsSent {malloc : ℕ → Addr} {cs : List IpcMsg} {sizes : List ℕ}
    (hfit : ∀ c ∈ cs, c.wireSize ≤ soscIpcMsgBufferSize)
    (hsmall : ∀ n ∈ sizes, n < 2 ^ 48) (hsum : sizes.sum = total IpcMsg.wireSize cs)
    (hreads : ReadsAsSent malloc cs sizes) : Aligned IpcMsg.wireSize cs sizes := by
  by_contra hcut
  obtain ⟨cs₁, c, cs₂, q, rfl, hq, hlow, hin, hreach⟩ := exists_straddled hsum hcut
  have hc : c.wireSize ≤ soscIpcMsgBufferSize := hfit c (by simp)
  obtain ⟨g, hmin, hmagic, hg⟩ := exists_junk hc
  have hg0 : g ≠ 0 := by
    rintro rfl
    exact absurd hmin (by decide)
  obtain ⟨os, hos, hbytes⟩ := exists_outgoing hg0 hfit
  -- every chunk is read into the same place in empty memory
  let stream := (cs₁ ++ c :: cs₂).flatMap (junkBytes g)
  let read (chunk : List UInt8) : Read :=
    { heap := { mem := fun _ => 0, copies := [] }, base := plainBase, chunk := chunk }
  let reads := (sizes.splitLengths stream).map read
  have hlen : stream.length = sizes.sum := by
    rw [hsum, ← hos, ← length_bytes_outgoing, hbytes]
  have hstream : reads.flatMap Read.chunk = os.flatMap Outgoing.bytes := by
    rw [hbytes, List.flatMap_map]
    exact List.flatMap_id.trans (List.flatten_splitLengths _ _ (Nat.le_of_eq hlen))
  have hsizes : reads.map Read.nbytes = sizes := by
    rw [List.map_map]
    exact List.map_splitLengths_length _ _ (Nat.le_of_eq hlen.symm)
  have hrun (k : ℕ) : readCbs malloc record (reads.take k) [] =
      some (complete IpcMsg.wireSize (cs₁ ++ c :: cs₂) (sizes.take k).sum) := by
    rw [hreads os reads hos hstream hsizes (List IpcMsg) record [] k, foldl_record,
      List.nil_append]
  obtain ⟨t, ht⟩ := Nat.exists_eq_add_of_lt hlow
  obtain ⟨n, hn⟩ : ∃ n, sizes[q]? = some n := ⟨sizes[q], List.getElem?_eq_getElem hq⟩
  have hnext : (sizes.take (q + 1)).sum = total IpcMsg.wireSize cs₁ + (t + 1 + n) := by
    rw [List.take_add_one, List.sum_append, hn, ht, Option.toList_some, List.sum_singleton]
    omega
  have hend : c.wireSize ≤ t + 1 + n := by omega
  have hchunk : reads[q]? = some (read (Cut g c
      ((cs₂.flatMap (junkBytes g)).take (t + 1 + n - c.wireSize)) (t + 1))) := by
    rw [List.getElem?_map, getElem?_splitLengths sizes stream hn, Option.map_some, ht,
      Nat.add_assoc, chunk_eq_cut cs₁ cs₂ hend]
  have hsize : (Cut g c ((cs₂.flatMap (junkBytes g)).take (t + 1 + n - c.wireSize))
      (t + 1)).length < 2 ^ 48 := by
    rw [← chunk_eq_cut cs₁ cs₂ hend]
    exact lt_of_le_of_lt (List.length_take_le _ _)
      (hsmall n (List.mem_of_getElem? hn))
  have hlast := hrun (q + 1)
  rw [List.take_add_one, hchunk, readCbs_append, hrun q, ht, Nat.add_assoc,
    complete_inside _ _ _ (by omega), hnext, complete_reached _ _ _ (by omega),
    Option.bind_some] at hlast
  obtain ⟨log, hread, hdone⟩ := Option.bind_eq_some_iff.mp hlast
  obtain rfl := Option.some.inj hdone
  exact readCb_inside hmin hmagic hg hc
    (follows_stream (fun c hc => hfit c (by simp [hc])) _) (Nat.succ_pos t) (by omega) hsize
    hread

/-- Reading as sent, whatever the senders' free bytes and the memory behind
the buffers are, means that no chunk ends inside a message.

`suggestedSize` is what libuv asks `from_proc_alloc_buf` for, and the most it
reads at a time; it is 64 KiB, and any size in a 48-bit address space will do. -/
theorem readsAsSent_iff (malloc : ℕ → Addr) (suggestedSize : ℕ) {cs : List IpcMsg}
    {sizes : List ℕ} (hfit : ∀ c ∈ cs, c.wireSize ≤ soscIpcMsgBufferSize)
    (hsuggested : suggestedSize < 2 ^ 48) (hsizes : ∀ n ∈ sizes, n ≤ suggestedSize)
    (hsum : sizes.sum = total IpcMsg.wireSize cs) :
    ReadsAsSent malloc cs sizes ↔ Aligned IpcMsg.wireSize cs sizes := by
  have hsmall : ∀ n ∈ sizes, n < 2 ^ 48 := fun n hn =>
    lt_of_le_of_lt (hsizes n hn) hsuggested
  constructor
  · exact aligned_of_readsAsSent hfit hsmall hsum
  · exact readsAsSent_of_aligned malloc fun n hn => (hsmall n hn).trans (by norm_num)

/-- Two messages in one chunk are read; a cut between them does no harm. -/
theorem readsAsSent_iff_ready :
    ReadsAsSent (fun _ => 0#64) [.deviceReady, .deviceReady] [64] ∧
      ReadsAsSent (fun _ => 0#64) [.deviceReady, .deviceReady] [32, 32] := by
  have hfit : ∀ c ∈ [IpcMsg.deviceReady, IpcMsg.deviceReady],
      c.wireSize ≤ soscIpcMsgBufferSize := by decide
  constructor
  · exact (readsAsSent_iff _ 65536 hfit (by decide) (by decide) (by decide)).mpr (by decide)
  · exact (readsAsSent_iff _ 65536 hfit (by decide) (by decide) (by decide)).mpr (by decide)

/-- A chunk that is too short for a header is dropped. -/
theorem readCb_short {σ : Type} (malloc : ℕ → Addr) (cb : σ → IpcMsg → σ) {r : Read}
    (self : σ) (hshort : r.nbytes < sizeofMsg) : readCb malloc cb r self = some self := by
  have hsmall : (BitVec.ofNat 64 r.nbytes).toNat < sizeofMsg := by
    rw [BitVec.toNat_ofNat]
    exact lt_of_le_of_lt (Nat.mod_le _ _) hshort
  have hdec : soscIpcMsgFromBuf malloc r.filled r.base (BitVec.ofNat 64 r.nbytes) =
      { heap := r.filled, ret := ssizeError, msg := none } := by
    rw [soscIpcMsgFromBuf, if_pos (.inl hsmall)]
  rw [readCb, dispatchIpcMsgs]
  by_cases hpos : (0#64).slt (BitVec.ofNat 64 r.nbytes) = true
  · simp only [if_pos hpos, hdec, ssizeError_slt, if_true, Option.map_some]
  · rw [if_neg hpos, Option.map_some]

/-- A `SOSC_DEVICE_READY` message as a device process sends it. -/
def Outgoing.sampleReady : Outgoing where
  strAt _ := .ofString ""
  mem := fun _ => 0xAA
  buf := 0x2000#64
  msg := { type := 2, pad0 := 0, word0 := 0, word1 := 0, magic := 0, pad1 := 0 }
  contents := .deviceReady
  contents_eq := rfl
  fits := by decide

/-- The message is cut behind its first byte: the handler is never called. -/
theorem readsAsSent_fails :
    let bytes := Outgoing.sampleReady.bytes
    let chunk (bs : List UInt8) : Read :=
      { heap := Heap.holding 0#64 [], base := 0x3000#64, chunk := bs }
    readCbs (fun _ => 0#64) record [chunk (bytes.take 1), chunk (bytes.drop 1)] [] =
        some [] ∧
      ¬ ReadsAsSent (fun _ => 0#64) [.deviceReady] [1, 31] := by
  intro bytes chunk
  have hlen : bytes.length = 32 := Outgoing.length_bytes _
  have hnone : readCbs (fun _ => 0#64) record
      [chunk (bytes.take 1), chunk (bytes.drop 1)] [] = some [] := by
    rw [readCbs, readCb_short _ _ _ (by simp [chunk, Read.nbytes, hlen, sizeofMsg]),
      Option.bind_some, readCbs,
      readCb_short _ _ _ (by simp [chunk, Read.nbytes, hlen, sizeofMsg])]
    rfl
  refine ⟨hnone, ?_⟩
  intro hreads
  have hstream : bytes.take 1 ++ (bytes.drop 1 ++ []) = bytes ++ [] := by
    rw [List.append_nil, List.append_nil, List.take_append_drop]
  have hall := hreads [Outgoing.sampleReady] [chunk (bytes.take 1), chunk (bytes.drop 1)] rfl
    hstream (by simp [chunk, Read.nbytes, hlen]) (List IpcMsg) record [] 2
  rw [List.take_of_length_le (by simp), hnone] at hall
  exact absurd hall (by decide)

end Serialosc
