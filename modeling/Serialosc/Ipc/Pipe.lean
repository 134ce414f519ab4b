import Serialosc.Ipc.EncodeBounds
import Serialosc.Ipc.Read
import Serialosc.Support.Runs

/-!
# Messages through a pipe

`sosc_ipc_msg_write` serialises a message into a local buffer and hands it to
`write`, which may take fewer bytes than it is given.  Its callers do not look
at what it returns, so a message that was cut is not taken up again.

`soscIpcMsgWrite_spec` says what reaches the pipe in each case.  When every
call of `write` takes all it is given, the other end reads with
`sosc_ipc_msg_read` the messages that were written, in order.
-/

namespace Serialosc

open ByteMemory

/-! ## Writing -/

/-- What a call of `write` does: return `-1`, or take at most `k` bytes. -/
inductive WriteOutcome
  | fails
  | takes (k : ℕ)
  deriving DecidableEq, Repr

/-- What `sosc_ipc_msg_write` leaves behind: its result, which is absent when the
process does not go on, the structure, and the bytes that the pipe has taken. -/
structure MsgWrite where
  ret : Option ℤ
  msg : SoscIpcMsg
  sent : List UInt8
  deriving DecidableEq

/-- The encoder overruns the buffer with the strings of a structure. -/
def SoscIpcMsg.overruns (strAt : Addr → CString) (msg : SoscIpcMsg) : Bool :=
  (msg.contents strAt).any fun c => decide c.Overruns

/-- `sosc_ipc_msg_write`, whose local buffer is at `buf`.  Once the encoder has written
over the end of it, there is no telling what the stack still holds, and the process is
taken to end there, if it does not abort in the encoder anyway. -/
def soscIpcMsgWrite (strAt : Addr → CString) (m : Mem) (buf : Addr) (outcome : WriteOutcome)
    (msg : SoscIpcMsg) : MsgWrite :=
  let msg := msg.setMagic
  let r := soscIpcMsgToBuf strAt m buf (BitVec.ofNat 64 soscIpcMsgBufferSize) msg
  if msg.overruns strAt then { ret := none, msg := r.msg, sent := [] }
  else match r.ret with
  | none => { ret := none, msg := r.msg, sent := [] }
  | some bufsiz =>
      if bufsiz.slt 0#64 then
        { ret := some (-1), msg := r.msg, sent := [] }
      else
        match outcome with
        | .fails => { ret := some (-1), msg := r.msg, sent := [] }
        | .takes k =>
            let sent := (read r.mem buf bufsiz.toNat).take k
            { ret := some (if (sent.length : ℤ) < bufsiz.toInt then -1 else sent.length)
              msg := r.msg, sent := sent }

/-- How many bytes the outcome leaves room for. -/
def WriteOutcome.room : WriteOutcome → ℕ
  | .fails => 0
  | .takes k => k

/-- What becomes of a message: it is written, in whole or in part; or it is
refused; or the encoder writes over the end of the buffer, having missed that
the header takes its room from the strings. -/
inductive Written (raw : SoscIpcMsg) (c : IpcMsg) (outcome : WriteOutcome) : MsgWrite → Prop
  | whole (hfit : c.wireSize ≤ soscIpcMsgBufferSize) (hroom : c.wireSize ≤ outcome.room) :
      Written raw c outcome
        { ret := some c.wireSize, msg := raw.setMagic, sent := wireBytes raw c }
  | cut (hfit : c.wireSize ≤ soscIpcMsgBufferSize) (hroom : outcome.room < c.wireSize) :
      Written raw c outcome
        { ret := some (-1), msg := raw.setMagic
          sent := (wireBytes raw c).take outcome.room }
  | refused (hroom : EncoderRoom soscIpcMsgBufferSize c)
      (hbig : soscIpcMsgBufferSize < c.wireSize) :
      Written raw c outcome { ret := some (-1), msg := raw.setMagic, sent := [] }
  | overrun (hover : ¬ EncoderRoom soscIpcMsgBufferSize c) :
      Written raw c outcome { ret := none, msg := raw.setMagic, sent := [] }

section Write

variable {strAt : Addr → CString} {raw : SoscIpcMsg} {c : IpcMsg}

theorem setMagic_setMagic (raw : SoscIpcMsg) : raw.setMagic.setMagic = raw.setMagic := rfl

theorem wireBytes_setMagic (raw : SoscIpcMsg) (c : IpcMsg) :
    wireBytes raw.setMagic c = wireBytes raw c := rfl

theorem soscIpcMsgToBuf_msg {m : Mem} {buf : Addr} {n : BitVec 64} :
    (soscIpcMsgToBuf strAt m buf n raw.setMagic).msg = raw.setMagic := by
  rw [soscIpcMsgToBuf]
  split
  · rfl
  · dsimp only
    split <;> rfl

/-- A message that the encoder serialises is handed to `write`. -/
theorem soscIpcMsgWrite_serialised (hc : raw.contents strAt = some c)
    (hfit : c.wireSize ≤ soscIpcMsgBufferSize) (m : Mem) (buf : Addr) (outcome : WriteOutcome) :
    soscIpcMsgWrite strAt m buf outcome raw =
      match outcome with
      | .fails => { ret := some (-1), msg := raw.setMagic, sent := [] }
      | .takes k =>
          let sent := (wireBytes raw c).take k
          { ret := some (if (sent.length : ℤ) < c.wireSize then -1 else sent.length)
            msg := raw.setMagic, sent := sent } := by
  have hsize : soscIpcMsgBufferSize = 256 := rfl
  have hcontents : raw.setMagic.contents strAt = some c := hc
  obtain ⟨m', hbuf, hbytes⟩ := soscIpcMsgToBuf_spec m buf hcontents hfit (by omega)
  rw [wireBytes_setMagic] at hbytes
  have hpos : (BitVec.ofNat 64 c.wireSize).slt 0#64 = false := slt_zero_ofNat (by omega)
  have hnat : (BitVec.ofNat 64 c.wireSize).toNat = c.wireSize := by
    rw [BitVec.toNat_ofNat]
    exact Nat.mod_eq_of_lt (by omega)
  have hint : (BitVec.ofNat 64 c.wireSize).toInt = c.wireSize := by
    rw [BitVec.toInt_eq_toNat_of_lt (by rw [hnat]; omega), hnat]
  have hread : read m' buf c.wireSize = wireBytes raw c := by
    have hlen := length_wireBytes raw c
    rw [← hlen]
    exact hbytes
  have hroom : raw.setMagic.overruns strAt = false := by
    rw [SoscIpcMsg.overruns, hcontents]
    exact decide_eq_false (not_overruns_of_fits hfit)
  simp only [soscIpcMsgWrite, hroom, hbuf, hpos, hnat, hint, hread, Bool.false_eq_true,
    if_false, setMagic_setMagic]

/-- The case of a message that the encoder serialises. -/
theorem soscIpcMsgWrite_fit (hc : raw.contents strAt = some c)
    (hfit : c.wireSize ≤ soscIpcMsgBufferSize) (m : Mem) (buf : Addr) (outcome : WriteOutcome) :
    Written raw c outcome (soscIpcMsgWrite strAt m buf outcome raw) := by
  rw [soscIpcMsgWrite_serialised hc hfit]
  cases outcome with
  | fails =>
    refine Written.cut hfit ?_
    exact Nat.lt_of_lt_of_le (by decide) (sizeofMsg_le_wireSize c)
  | takes k =>
    dsimp only
    by_cases hroom : c.wireSize ≤ k
    · have htake : (wireBytes raw c).take k = wireBytes raw c :=
        List.take_of_length_le (by rw [length_wireBytes]; exact hroom)
      rw [htake, length_wireBytes, if_neg (lt_irrefl _)]
      exact Written.whole hfit hroom
    · have hlt : k < c.wireSize := Nat.lt_of_not_le hroom
      have hshort : (((wireBytes raw c).take k).length : ℤ) < c.wireSize := by
        rw [List.length_take, length_wireBytes, Nat.min_eq_left hlt.le]
        exact_mod_cast hlt
      rw [if_pos hshort]
      exact Written.cut hfit hlt

/-- What `sosc_ipc_msg_write` does with any message. -/
theorem soscIpcMsgWrite_spec (hc : raw.contents strAt = some c) (m : Mem) (buf : Addr)
    (outcome : WriteOutcome) : Written raw c outcome (soscIpcMsgWrite strAt m buf outcome raw) := by
  have hsize : soscIpcMsgBufferSize = 256 := rfl
  have hheader : sizeofMsg = 32 := rfl
  by_cases hfit : c.wireSize ≤ soscIpcMsgBufferSize
  · exact soscIpcMsgWrite_fit hc hfit m buf outcome
  have hcontents : raw.setMagic.contents strAt = some c := hc
  have hmsg : (soscIpcMsgToBuf strAt m buf (BitVec.ofNat 64 soscIpcMsgBufferSize)
      raw.setMagic).msg = raw.setMagic := soscIpcMsgToBuf_msg
  by_cases hover : c.Overruns
  · have hoverruns : raw.setMagic.overruns strAt = true := by
      rw [SoscIpcMsg.overruns, hcontents]
      exact decide_eq_true hover
    have hwrite : soscIpcMsgWrite strAt m buf outcome raw =
        { ret := none, msg := raw.setMagic, sent := [] } := by
      simp only [soscIpcMsgWrite, hoverruns, hmsg, if_true]
    rw [hwrite]
    exact Written.overrun ((overruns_iff c).mp hover)
  · have hroom : raw.setMagic.overruns strAt = false := by
      rw [SoscIpcMsg.overruns, hcontents]
      exact decide_eq_false hover
    have hstrs := strBytes_of_not_overruns hfit hover
    have herror := (soscIpcMsgToBuf_walk hcontents (n := soscIpcMsgBufferSize) (by omega)
      (by omega) buf (.inr (by omega))).2 m
    rw [if_neg fun h => Nat.not_le_of_lt hstrs h.1] at herror
    have hwrite : soscIpcMsgWrite strAt m buf outcome raw =
        { ret := some (-1), msg := raw.setMagic, sent := [] } := by
      simp only [soscIpcMsgWrite, hroom, herror, hmsg, ssizeError_slt, Bool.false_eq_true,
        if_true, if_false]
    rw [hwrite]
    exact Written.refused (not_not.mp fun h => hover ((overruns_iff c).mpr h))
      (Nat.lt_of_not_le hfit)

/-- What the caller is told, and what is in the pipe.  The result is the size of the
message exactly when all of it has been written; otherwise only a part of it may have been.
The process does not go on for the messages that overrun the buffer. -/
theorem soscIpcMsgWrite_reports (strAt : Addr → CString) (m : Mem) (buf : Addr)
    (outcome : WriteOutcome) (raw : SoscIpcMsg) (c : IpcMsg) (hc : raw.contents strAt = some c) :
    let w := soscIpcMsgWrite strAt m buf outcome raw
    w.sent <+: wireBytes raw c ∧
      (w.ret = some c.wireSize ↔ w.sent = wireBytes raw c) ∧
      (w.ret = some c.wireSize ↔
        c.wireSize ≤ soscIpcMsgBufferSize ∧ c.wireSize ≤ outcome.room) ∧
      (w.ret = none ↔ ¬ EncoderRoom soscIpcMsgBufferSize c) ∧
      (w.ret = some c.wireSize ∨ w.ret = some (-1) ∨ w.ret = none) := by
  have hspec := soscIpcMsgWrite_spec hc m buf outcome
  have hsize : sizeofMsg = 32 := rfl
  have hwire : c.wireSize = sizeofMsg + strBytes c.strings := rfl
  have hne {bs : List UInt8} (hbs : bs.length < c.wireSize) : bs ≠ wireBytes raw c := by
    intro heq
    rw [heq, length_wireBytes] at hbs
    exact lt_irrefl _ hbs
  have herror : some (-1 : ℤ) ≠ some (c.wireSize : ℤ) := by
    intro heq
    have := Option.some.inj heq
    omega
  have hfits (hfit : c.wireSize ≤ soscIpcMsgBufferSize) : EncoderRoom soscIpcMsgBufferSize c :=
    not_not.mp fun h => not_overruns_of_fits hfit ((overruns_iff c).mpr h)
  dsimp only
  generalize soscIpcMsgWrite strAt m buf outcome raw = w at hspec ⊢
  cases hspec with
  | whole hfit hroom =>
    refine ⟨List.prefix_refl _, iff_of_true rfl rfl, iff_of_true rfl ⟨hfit, hroom⟩, ?_, .inl rfl⟩
    exact iff_of_false (Option.some_ne_none _) fun h => h (hfits hfit)
  | cut hfit hroom =>
    have hlength : ((wireBytes raw c).take outcome.room).length < c.wireSize := by
      rw [List.length_take]
      exact Nat.lt_of_le_of_lt (Nat.min_le_left _ _) hroom
    refine ⟨List.take_prefix _ _, iff_of_false herror (hne hlength),
      iff_of_false herror fun h => Nat.not_le_of_lt hroom h.2, ?_, .inr (.inl rfl)⟩
    exact iff_of_false (Option.some_ne_none _) fun h => h (hfits hfit)
  | refused hroom hbig =>
    refine ⟨List.nil_prefix, iff_of_false herror (hne ?_), iff_of_false herror ?_, ?_,
      .inr (.inl rfl)⟩
    · rw [List.length_nil]
      omega
    · exact fun h => Nat.not_le_of_lt hbig h.1
    · exact iff_of_false (Option.some_ne_none _) fun h => h hroom
  | overrun hover =>
    refine ⟨List.nil_prefix, iff_of_false (Option.some_ne_none _).symm (hne ?_),
      iff_of_false (Option.some_ne_none _).symm ?_, iff_of_true rfl hover, .inr (.inr rfl)⟩
    · rw [List.length_nil]
      omega
    · exact fun h => hover (hfits h.1)

/-- The name of a device that is cut off after ten bytes. -/
theorem soscIpcMsgWrite_reports_cut :
    let w := soscIpcMsgWrite (fun _ => .ofString "/dev/ttyUSB0") (fun _ => 0) 0#64 (.takes 10)
      connectionMsg
    let c : IpcMsg := .deviceConnection (.ofString "/dev/ttyUSB0")
    w.sent <+: wireBytes connectionMsg c ∧
      (w.ret = some c.wireSize ↔ w.sent = wireBytes connectionMsg c) ∧
      (w.ret = some c.wireSize ↔ c.wireSize ≤ soscIpcMsgBufferSize ∧ c.wireSize ≤ 10) ∧
      (w.ret = none ↔ ¬ EncoderRoom soscIpcMsgBufferSize c) ∧
      (w.ret = some c.wireSize ∨ w.ret = some (-1) ∨ w.ret = none) :=
  soscIpcMsgWrite_reports _ _ _ (.takes 10) connectionMsg _ rfl

end Write

/-! ## Reading from a pipe that serves -/

/-- Every read gets what it asks for, as far as it is in the pipe, and there is
memory. -/
structure Sys.Serves (s : Sys) : Prop where
  reads : ∀ i, ∃ k, s.reads i = .delivers k ∧ 2 ^ 63 ≤ k
  callocs : ∀ i, s.callocs i = true

section Served

variable {s : Sys}

theorem Sys.Serves.read (hs : s.Serves) {front rest : List UInt8} {n : BitVec 64}
    (hstream : s.stream = front ++ rest) (hn : n.toNat = front.length)
    (hfront : front.length < 2 ^ 63) :
    ∃ s', s.read n = (some front, s') ∧ s'.stream = rest ∧ s'.Serves := by
  obtain ⟨k, hk, hroom⟩ := hs.reads 0
  have htake : s.stream.take (min k (min n.toNat (2 ^ 63 - 1))) = front := by
    have hmin : min k (min n.toNat (2 ^ 63 - 1)) = front.length := by omega
    rw [hmin, hstream, List.take_left]
  refine ⟨{ s with stream := rest, reads := fun i => s.reads (i + 1) }, ?_, rfl, ?_⟩
  · rw [Sys.read, hk]
    dsimp only
    rw [htake, hstream, List.drop_left]
  · exact ⟨fun i => hs.reads (i + 1), hs.callocs⟩

theorem Sys.Serves.sCalloc (hs : s.Serves) :
    ∃ s', s.sCalloc = (true, s') ∧ s'.stream = s.stream ∧ s'.Serves := by
  refine ⟨{ s with callocs := fun i => s.callocs (i + 1) }, ?_, rfl, ?_⟩
  · rw [Sys.sCalloc, hs.callocs 0]
  · exact ⟨hs.reads, fun i => hs.callocs (i + 1)⟩

theorem not_short_of_length (front : List UInt8) (n : BitVec 64)
    (hn : n.toNat = front.length) : ¬ Short (some front) n := by
  rw [Short, returned, ← hn, BitVec.ofNat_toNat, BitVec.setWidth_eq]
  exact Nat.lt_irrefl _

/-- Records that are served in full are read, each as the string it holds. -/
theorem readStrdata_served (strs : List CString) {rest : List UInt8} (hs : s.Serves)
    (hstream : s.stream = strRecords strs ++ rest) (slen : BitVec 64) (magic : BitVec 16) :
    let r := readStrdata strs.length slen magic s
    r.ok = true ∧ r.strs = strs.map some ∧ r.sys.stream = rest ∧ r.sys.Serves := by
  induction strs generalizing s slen magic with
  | nil => exact ⟨rfl, rfl, hstream, hs⟩
  | cons str strs ih =>
    have hlt := str.length_lt
    have hhead : s.stream = leBytes 8 str.length ++ (str.bytes ++
        (leBytes 2 ipcMagic.toNat ++ (strRecords strs ++ rest))) := by
      rw [hstream, strRecords_cons, strRecord_eq]
      simp only [List.append_assoc]
    obtain ⟨s₁, hread₁, hstream₁, hs₁⟩ := hs.read (n := 8#64) hhead
      (by rw [length_leBytes]; rfl) (by rw [length_leBytes]; decide)
    obtain ⟨s₂, hcall, hstream₂, hs₂⟩ := hs₁.sCalloc
    have hlen : filled (w := 8) slen (some (leBytes 8 str.length)) =
        BitVec.ofNat (8 * 8) str.length := by
      rw [filled, ofLeBytes, leNat_leBytes]
      apply BitVec.eq_of_toNat_eq
      rw [BitVec.toNat_ofNat, BitVec.toNat_ofNat]
      omega
    obtain ⟨s₃, hread₃, hstream₃, hs₃⟩ := hs₂.read (n := BitVec.ofNat (8 * 8) str.length)
      (hstream₂.trans hstream₁)
      (by rw [BitVec.toNat_ofNat, CString.length_bytes]; omega) hlt
    obtain ⟨s₄, hread₄, hstream₄, hs₄⟩ := hs₃.read (n := 2#64) hstream₃
      (by rw [length_leBytes]; rfl) (by rw [length_leBytes]; decide)
    have hmagic : filled (w := 2) magic (some (leBytes 2 ipcMagic.toNat)) = ipcMagic :=
      ofLeBytes_leBytes (w := 2) ipcMagic
    have h₁ := not_short_of_length (leBytes 8 str.length) 8#64
      (by rw [length_leBytes]; rfl)
    have h₃ := not_short_of_length str.bytes (BitVec.ofNat (8 * 8) str.length)
      (by rw [BitVec.toNat_ofNat, CString.length_bytes]; omega)
    have h₄ := not_short_of_length (leBytes 2 ipcMagic.toNat) 2#64
      (by rw [length_leBytes]; rfl)
    obtain ⟨hok, hstrs, hrest, hserves⟩ :=
      ih hs₄ hstream₄ (BitVec.ofNat (8 * 8) str.length) ipcMagic
    simp only [List.length_cons, readStrdata, hread₁, h₁, hcall, hlen, hread₃, h₃, hread₄, h₄,
      hmagic, if_false, Bool.not_true, Bool.false_eq_true, ne_eq, not_true_eq_false,
      Option.getD_some, ofBytes_bytes, List.map_cons]
    exact ⟨hok, congrArg _ hstrs, hrest, hserves⟩

/-- A structure that was read with the strings of a message holds the message. -/
theorem contents_of_strs {strAt : Addr → CString} {raw : SoscIpcMsg} {c : IpcMsg} {r : MsgRead}
    (hmsg : r.msg = raw.setMagic) (hstrs : r.strs = c.strings.map some)
    (hc : raw.contents strAt = some c) : r.contents = some c := by
  have hof : SoscIpcType.ofRaw r.msg.type = SoscIpcType.ofRaw raw.type := by
    rw [hmsg]
    rfl
  have hport : r.msg.port = raw.port := by
    rw [hmsg]
    rfl
  rw [MsgRead.contents, hof, hstrs, hport]
  rw [SoscIpcMsg.contents] at hc
  cases htype : SoscIpcType.ofRaw raw.type with
  | none =>
    rw [htype] at hc
    cases hc
  | some type =>
    rw [htype] at hc
    cases type <;> (obtain rfl := Option.some.inj hc; rfl)

/-- A message that is served in full is read, and what follows it stays in the
pipe. -/
theorem soscIpcMsgRead_served {strAt : Addr → CString} {raw : SoscIpcMsg} {c : IpcMsg}
    {rest : List UInt8} (hs : s.Serves) (hc : raw.contents strAt = some c)
    (hstream : s.stream = wireBytes raw c ++ rest) (buf : SoscIpcMsg) (slen : BitVec 64)
    (magic : BitVec 16) :
    let r := soscIpcMsgRead buf slen magic s
    r.ret = sizeofMsg ∧ r.msg = raw.setMagic ∧ r.contents = some c ∧ r.sys.stream = rest ∧
      r.sys.Serves := by
  have hn : (BitVec.ofNat 64 sizeofMsg).toNat = raw.setMagic.image.length := by
    rw [SoscIpcMsg.length_image]
    rfl
  obtain ⟨s₁, hread, hstream₁, hs₁⟩ := hs.read (n := BitVec.ofNat 64 sizeofMsg)
    (hstream.trans (List.append_assoc _ _ _)) hn (by rw [SoscIpcMsg.length_image]; decide)
  have himage := raw.setMagic.ofImage_image
  have hread := soscIpcMsgRead_header buf slen magic hread (not_short_of_length _ _ hn)
    (by rw [himage]; rfl)
  have hcount : stringCount raw.setMagic.type = c.strings.length := stringCount_of_contents hc
  obtain ⟨hok, hstrs, hrest, hserves⟩ := readStrdata_served c.strings hs₁ hstream₁ slen magic
  rw [himage, hcount] at hread
  dsimp only at hread ⊢
  rw [hread, hok]
  refine ⟨rfl, rfl, ?_, hrest, hserves⟩
  exact contents_of_strs (congrArg SoscIpcMsg.setMagic rfl) hstrs hc

end Served

/-! ## The two ends together -/

/-- A pipe, the messages that were written to it, and what its reader made of
them. -/
structure Pipe where
  sys : Sys
  written : List IpcMsg
  received : List (Option IpcMsg)

/-- The writer sends a structure through a buffer at `buf`, or the reader reads
into the structure `buf`. -/
inductive PipeEvent
  | write (raw : SoscIpcMsg) (m : Mem) (buf : Addr)
  | read (buf : SoscIpcMsg) (slen : BitVec 64) (magic : BitVec 16)

namespace Pipe

variable (strAt : Addr → CString)

/-- A pipe takes as many bytes as a message can have at once.  The writer is gone
if it overruns its buffer. -/
def write (p : Pipe) (raw : SoscIpcMsg) (m : Mem) (buf : Addr) : Option Pipe :=
  let w := soscIpcMsgWrite strAt m buf (.takes soscIpcMsgBufferSize) raw
  w.ret.map fun ret : ℤ =>
    { p with
      sys := { p.sys with stream := p.sys.stream ++ w.sent }
      written := if 0 ≤ ret then p.written ++ (raw.contents strAt).toList else p.written }

/-- The reader reads when there is something to read. -/
def read (p : Pipe) (buf : SoscIpcMsg) (slen : BitVec 64) (magic : BitVec 16) : Option Pipe :=
  if p.sys.stream = [] then none
  else
    let r := soscIpcMsgRead buf slen magic p.sys
    some
      { p with
        sys := r.sys
        received := p.received ++ [if 0 < r.ret then r.contents else none] }

/-- A pipe that nothing has been written to. -/
def new (sys : Sys) : Pipe where
  sys := { sys with stream := [] }
  written := []
  received := []

/-- The writer and the reader of a pipe. -/
def system : Runs.EventSystem Pipe PipeEvent where
  init p := ∃ sys, p = new sys
  step p
    | .write raw m buf => p.write strAt raw m buf
    | .read buf slen magic => p.read buf slen magic

/-- What is in the pipe are whole messages, and these are the ones that have not
been read. -/
structure Whole (p : Pipe) (pending : List (SoscIpcMsg × IpcMsg)) : Prop where
  serves : p.sys.Serves
  contents : ∀ x ∈ pending, x.1.contents strAt = some x.2
  stream : p.sys.stream = pending.flatMap fun x => wireBytes x.1 x.2
  all : p.written.map some = p.received ++ pending.map fun x => some x.2

variable {strAt} {p p' : Pipe} {pending : List (SoscIpcMsg × IpcMsg)}

/-- A structure of no known type is not written. -/
theorem soscIpcMsgWrite_unknown {raw : SoscIpcMsg} (hc : raw.contents strAt = none) (m : Mem)
    (buf : Addr) (outcome : WriteOutcome) :
    soscIpcMsgWrite strAt m buf outcome raw =
      { ret := some (-1), msg := raw.setMagic, sent := [] } := by
  have htype : SoscIpcType.ofRaw raw.setMagic.type = none := by
    change SoscIpcType.ofRaw raw.type = none
    cases htype : SoscIpcType.ofRaw raw.type with
    | none => rfl
    | some type =>
      rw [SoscIpcMsg.contents, htype] at hc
      cases type <;> cases hc
  have hsize : ¬ (BitVec.ofNat 64 soscIpcMsgBufferSize).toNat < sizeofMsg := by decide
  have hnone : raw.setMagic.contents strAt = none := hc
  have hroom : raw.setMagic.overruns strAt = false := by
    rw [SoscIpcMsg.overruns, hnone]
    rfl
  simp only [soscIpcMsgWrite, hroom, Bool.false_eq_true, if_false, soscIpcMsgToBuf,
    if_neg hsize, stringsToBuf, setMagic_setMagic, htype, ssizeError_slt, if_true]

/-- Either the message goes into the pipe whole, or nothing does. -/
theorem write_cases {raw : SoscIpcMsg} {m : Mem} {buf : Addr}
    (hstep : p.write strAt raw m buf = some p') :
    p' = p ∨ ∃ c, raw.contents strAt = some c ∧
      p' = { p with
        sys := { p.sys with stream := p.sys.stream ++ wireBytes raw c }
        written := p.written ++ [c] } := by
  obtain ⟨ret, hret, rfl⟩ := Option.map_eq_some_iff.mp hstep
  have hnothing {w : MsgWrite} (hw : w = { ret := some (-1), msg := raw.setMagic, sent := [] })
      (hret : w.ret = some ret) :
      { p with
        sys := { p.sys with stream := p.sys.stream ++ w.sent }
        written := if 0 ≤ ret then p.written ++ (raw.contents strAt).toList
          else p.written } = p := by
    subst hw
    obtain rfl := Option.some.inj hret
    rw [if_neg (by decide), List.append_nil]
  cases hc : raw.contents strAt with
  | none =>
    rw [hc] at hnothing
    exact .inl (hnothing (soscIpcMsgWrite_unknown hc m buf _) hret)
  | some c =>
    rw [hc] at hnothing
    have hspec := soscIpcMsgWrite_spec hc m buf (.takes soscIpcMsgBufferSize)
    generalize soscIpcMsgWrite strAt m buf (.takes soscIpcMsgBufferSize) raw = w at hret hspec ⊢
    cases hspec with
    | whole hfit hroom =>
      obtain rfl := Option.some.inj hret
      refine .inr ⟨c, rfl, ?_⟩
      rw [if_pos (Int.natCast_nonneg _)]
      rfl
    | cut hfit hroom => exact absurd hfit (Nat.not_le_of_lt hroom)
    | refused hroom hbig => exact .inl (hnothing rfl hret)
    | overrun hover => cases hret

theorem Whole.write (h : p.Whole strAt pending) {raw : SoscIpcMsg} {m : Mem} {buf : Addr}
    (hstep : p.write strAt raw m buf = some p') : ∃ pending', p'.Whole strAt pending' := by
  rcases write_cases hstep with rfl | ⟨c, hc, rfl⟩
  · exact ⟨pending, h⟩
  · refine ⟨pending ++ [(raw, c)], ⟨h.serves.reads, h.serves.callocs⟩, ?_, ?_, ?_⟩
    · intro x hx
      rcases List.mem_append.mp hx with hx | hx
      · exact h.contents x hx
      · rw [List.mem_singleton.mp hx]
        exact hc
    · rw [List.flatMap_append, h.stream]
      simp
    · rw [List.map_append, List.map_append, h.all, List.append_assoc]
      rfl

theorem Whole.read (h : p.Whole strAt pending) {buf : SoscIpcMsg} {slen : BitVec 64}
    {magic : BitVec 16} (hstep : p.read buf slen magic = some p') :
    ∃ pending', p'.Whole strAt pending' := by
  obtain ⟨hne, hstep⟩ := Option.ite_none_left_eq_some.mp hstep
  obtain rfl := Option.some.inj hstep
  cases pending with
  | nil => exact absurd h.stream hne
  | cons x pending =>
    have hhead := h.contents x List.mem_cons_self
    have hstream := h.stream
    rw [List.flatMap_cons] at hstream
    obtain ⟨hret, -, hcontents, hrest, hserves⟩ :=
      soscIpcMsgRead_served h.serves hhead hstream buf slen magic
    have hpos : 0 < (soscIpcMsgRead buf slen magic p.sys).ret := by
      rw [hret]
      decide
    refine ⟨pending, hserves, fun y hy => h.contents y (List.mem_cons_of_mem _ hy), hrest, ?_⟩
    rw [if_pos hpos, hcontents, h.all, List.append_assoc]
    rfl

/-- What one end does keeps the messages whole. -/
theorem Whole.step (h : p.Whole strAt pending) {e : PipeEvent}
    (he : (system strAt).step p e = some p') : ∃ pending', p'.Whole strAt pending' := by
  cases e with
  | write raw m buf => exact h.write he
  | read buf slen magic => exact h.read he

theorem Whole.exec (h : p.Whole strAt pending) {events : List PipeEvent}
    (hrun : (system strAt).exec p events = some p') : ∃ pending', p'.Whole strAt pending' := by
  induction events generalizing p pending with
  | nil =>
    obtain rfl := Option.some.inj hrun
    exact ⟨pending, h⟩
  | cons e events ih =>
    obtain ⟨p₁, he, hrest⟩ := ((system strAt).exec_cons_some).mp hrun
    obtain ⟨pending₁, h₁⟩ := h.step he
    exact ih h₁ hrest

theorem whole_new (strAt : Addr → CString) {sys : Sys} (hserves : sys.Serves) :
    (new sys).Whole strAt [] :=
  ⟨⟨hserves.reads, hserves.callocs⟩, fun _ hx => absurd hx List.not_mem_nil, rfl, rfl⟩

/-- However writing and reading alternate, the reader has got the messages that were
written, in order, but for those that are still in the pipe, if its reads are served in
full and there is memory for the strings. -/
theorem received_inOrder (strAt : Addr → CString) {sys : Sys} (hserves : sys.Serves)
    {events : List PipeEvent} {p : Pipe}
    (hrun : (system strAt).exec (new sys) events = some p) :
    ∃ pending : List IpcMsg, p.written.map some = p.received ++ pending.map some ∧
      (p.sys.stream = [] ↔ pending = []) := by
  obtain ⟨pending, hwhole⟩ := (whole_new strAt hserves).exec hrun
  refine ⟨pending.map Prod.snd, ?_, ?_⟩
  · rw [hwhole.all, List.map_map]
    rfl
  · rw [hwhole.stream, List.map_eq_nil_iff]
    constructor
    · intro hnil
      cases pending with
      | nil => rfl
      | cons x pending =>
        have hlength := congrArg List.length hnil
        rw [List.flatMap_cons, List.length_append, length_wireBytes, List.length_nil] at hlength
        have hsize := sizeofMsg_le_wireSize x.2
        have hheader : sizeofMsg = 32 := rfl
        omega
    · rintro rfl
      rfl

/-- A device that is ready says so. -/
def readyMsg : SoscIpcMsg := { connectionMsg with type := 2 }

/-- Surroundings in which nothing fails. -/
def serving : Sys where
  stream := []
  reads _ := .delivers (2 ^ 63)
  callocs _ := true

theorem serves_serving : serving.Serves := ⟨fun _ => ⟨2 ^ 63, rfl, le_rfl⟩, fun _ => rfl⟩

/-- A connection and a device that is ready, the first of which is read. -/
def sampleEvents : List PipeEvent :=
  [.write connectionMsg (fun _ => 0) 0#64, .write readyMsg (fun _ => 0) 0#64,
    .read connectionMsg 0#64 0#16]

/-- The connection has been read, and the other message has not. -/
theorem received_inOrder_sampleEvents :
    ∃ p, (system fun _ => .ofString "/dev/ttyUSB0").exec (new serving) sampleEvents = some p ∧
      p.received = [some (.deviceConnection (.ofString "/dev/ttyUSB0"))] ∧
      ∃ pending : List IpcMsg, p.written.map some = p.received ++ pending.map some ∧
        (p.sys.stream = [] ↔ pending = []) := by
  have hreceived : ((system fun _ => .ofString "/dev/ttyUSB0").exec (new serving)
      sampleEvents).map (fun p => p.received) =
        some [some (.deviceConnection (.ofString "/dev/ttyUSB0"))] := by
    rfl
  obtain ⟨p, hrun, hp⟩ := Option.map_eq_some_iff.mp hreceived
  exact ⟨p, hrun, hp, received_inOrder _ serves_serving hrun⟩

end Pipe

end Serialosc
