import Serialosc.Ipc.DecodeBounds
import Serialosc.Ipc.EncodeBounds

/-!
# Reading a message from a file descriptor

`sosc_ipc_msg_read` makes up to seven calls of `read`.  Each may deliver fewer
bytes than asked for or return `-1`, and `s_calloc` may fail; the model takes
all of this from outside.  The result of `read` is compared as a `size_t`, so
`-1` passes for a complete read and the variable it should have filled keeps
what it held.
-/

namespace Serialosc

open ByteMemory

/-- What a call of `read` does: return `-1`, or deliver at most `k` bytes. -/
inductive ReadOutcome
  | fails
  | delivers (k : ℕ)

/-- What the process gets from outside: the bytes that are still to come on the
file descriptor, and the outcomes of the next calls of `read` and `s_calloc`. -/
structure Sys where
  stream : List UInt8
  reads : ℕ → ReadOutcome
  callocs : ℕ → Bool

/-- `read` for `n` bytes, or nothing for `-1`.  It delivers no more than
`SSIZE_MAX` bytes, which its result could not express. -/
def Sys.read (s : Sys) (n : BitVec 64) : Option (List UInt8) × Sys :=
  let s' := { s with reads := fun i => s.reads (i + 1) }
  match s.reads 0 with
  | .fails => (none, s')
  | .delivers k =>
      let got := s.stream.take (min k (min n.toNat (2 ^ 63 - 1)))
      (some got, { s' with stream := s.stream.drop got.length })

/-- `s_calloc`: whether there was memory. -/
def Sys.sCalloc (s : Sys) : Bool × Sys :=
  (s.callocs 0, { s with callocs := fun i => s.callocs (i + 1) })

/-- The `ssize_t` that `read` returns. -/
def returned : Option (List UInt8) → BitVec 64
  | none => ssizeError
  | some bs => BitVec.ofNat 64 bs.length

/-- `read(..) < n`, both sides as `size_t`. -/
def Short (got : Option (List UInt8)) (n : BitVec 64) : Prop :=
  (returned got).toNat < n.toNat

instance (got : Option (List UInt8)) (n : BitVec 64) : Decidable (Short got n) :=
  inferInstanceAs (Decidable (_ < _))

/-- A word variable after it was read into. -/
def filled {w : ℕ} (old : BitVec (8 * w)) : Option (List UInt8) → BitVec (8 * w)
  | none => old
  | some bs => ofLeBytes w bs

/-- The steps of a call that depend on the outside, and what they gave. -/
inductive ReadStep
  | read (asked : BitVec 64) (got : Option (List UInt8))
  | calloc (size : BitVec 64) (ok : Bool)
  | magic (found : BitVec 16)

/-- What `read_strdata` leaves behind: the strings that its pointer variables
were set to, without those it did not get to. -/
structure StrdataRead where
  strs : List (Option CString)
  ok : Bool
  sys : Sys
  steps : List ReadStep

/-- The loop of `read_strdata` over its `n` pointer variables, where `slen` and
`magic` are what the local variables hold. -/
def readStrdata : ℕ → BitVec 64 → BitVec 16 → Sys → StrdataRead
  | 0, _, _, s => { strs := [], ok := true, sys := s, steps := [] }
  | n + 1, slen, magic, s =>
      let (got₁, s₁) := s.read 8#64
      let step₁ := .read 8#64 got₁
      if Short got₁ 8#64 then
        { strs := [none], ok := false, sys := s₁, steps := [step₁] }
      else
        let slen : BitVec 64 := filled (w := 8) slen got₁
        let (ok, s₂) := s₁.sCalloc
        let step₂ := .calloc (slen + 1#64) ok
        if !ok then
          -- the string stays `NULL` and its bytes stay in the stream
          let r := readStrdata n slen magic s₂
          { r with strs := none :: r.strs, steps := step₁ :: step₂ :: r.steps }
        else
          let (got₃, s₃) := s₂.read slen
          let step₃ := .read slen got₃
          if Short got₃ slen then
            { strs := [none], ok := false, sys := s₃, steps := [step₁, step₂, step₃] }
          else
            -- the buffer is zeroed, and one byte longer than what is read
            let cur := CString.ofBytes (got₃.getD [])
            let (got₄, s₄) := s₃.read 2#64
            let step₄ := .read 2#64 got₄
            if Short got₄ 2#64 then
              { strs := [some cur], ok := false, sys := s₄,
                steps := [step₁, step₂, step₃, step₄] }
            else
              let magic : BitVec 16 := filled (w := 2) magic got₄
              let step₅ := .magic magic
              if magic ≠ ipcMagic then
                { strs := [some cur], ok := false, sys := s₄,
                  steps := [step₁, step₂, step₃, step₄, step₅] }
              else
                let r := readStrdata n slen magic s₄
                { r with
                  strs := some cur :: r.strs
                  steps := step₁ :: step₂ :: step₃ :: step₄ :: step₅ :: r.steps }

/-- The structure with a given object representation. -/
def SoscIpcMsg.ofImage (bs : List UInt8) : SoscIpcMsg where
  type := ofLeBytes 4 (bs.take 4)
  pad0 := ofLeBytes 4 ((bs.drop 4).take 4)
  word0 := ofLeBytes 8 ((bs.drop 8).take 8)
  word1 := ofLeBytes 8 ((bs.drop 16).take 8)
  magic := ofLeBytes 2 ((bs.drop 24).take 2)
  pad1 := ofLeBytes 6 ((bs.drop 26).take 6)

/-- What `sosc_ipc_msg_read` leaves behind: its result, the structure, and the
strings that the pointer members of its type were set to. -/
structure MsgRead where
  ret : ℤ
  msg : SoscIpcMsg
  strs : List (Option CString)
  sys : Sys
  steps : List ReadStep

/-- How many strings `sosc_ipc_msg_read` reads for a type. -/
def stringCount (type : BitVec 32) : ℕ :=
  match SoscIpcType.ofRaw type with
  | some .deviceConnection => 1
  | some .deviceInfo => 2
  | _ => 0

/-- `sosc_ipc_msg_read` into the structure `buf`.  The locals of `read_strdata`
are not initialised and hold `slen` and `magic`. -/
def soscIpcMsgRead (buf : SoscIpcMsg) (slen : BitVec 64) (magic : BitVec 16) (s : Sys) :
    MsgRead :=
  let (got, s₁) := s.read (BitVec.ofNat 64 sizeofMsg)
  let step := .read (BitVec.ofNat 64 sizeofMsg) got
  let bs := got.getD []
  let msg := SoscIpcMsg.ofImage (bs ++ buf.image.drop bs.length)
  if Short got (BitVec.ofNat 64 sizeofMsg) then
    { ret := -1, msg := msg, strs := [], sys := s₁, steps := [step] }
  else if msg.magic ≠ ipcMagic then
    { ret := -1, msg := msg, strs := [], sys := s₁, steps := [step, .magic msg.magic] }
  else
    -- a type without strings and a type that does not exist go the same way
    let r := readStrdata (stringCount msg.type) slen magic s₁
    { ret := if r.ok then (returned got).toInt else -1
      msg := msg, strs := r.strs, sys := r.sys
      steps := step :: .magic msg.magic :: r.steps }

namespace ReadStep

/-- The step makes the call return `-1`. -/
def Refuses : ReadStep → Prop
  | .read asked got => Short got asked
  | .calloc _ _ => False
  | .magic found => found ≠ ipcMagic

/-- The step has failed without being noticed. -/
def Fails : ReadStep → Prop
  | .read _ got => got = none
  | .calloc _ ok => ok = false
  | .magic _ => False

/-- The step is not a read, or one that delivered all it was asked for. -/
def InFull : ReadStep → Prop
  | .read asked got => ∃ bs, got = some bs ∧ bs.length = asked.toNat
  | _ => True

def isRead : ReadStep → Bool
  | .read _ _ => true
  | _ => false

/-- The bytes that a step has taken from the stream. -/
def delivered : ReadStep → List UInt8
  | .read _ (some bs) => bs
  | _ => []

end ReadStep

section Read

variable {s s' : Sys} {n : BitVec 64} {got : Option (List UInt8)}

theorem not_short_none (n : BitVec 64) : ¬ Short none n := by
  have hn := n.isLt
  rw [Short, returned, ssizeError_toNat]
  omega

/-- What is delivered is the head of the stream. -/
theorem Sys.read_some {bs : List UInt8} (hread : s.read n = (some bs, s')) :
    s.stream = bs ++ s'.stream ∧ bs.length ≤ n.toNat ∧ bs.length < 2 ^ 63 := by
  rw [Sys.read] at hread
  split at hread
  · cases hread
  · next k _ =>
    obtain ⟨rfl, rfl⟩ := by simpa only [Prod.mk.injEq, Option.some.injEq] using hread
    have hle := List.length_take_le (min k (min n.toNat (2 ^ 63 - 1))) s.stream
    refine ⟨?_, by omega, by omega⟩
    exact (List.prefix_iff_eq_append.mp (List.take_prefix _ _)).symm

theorem Sys.read_none : (s.read n).1 = none ↔ s.reads 0 = .fails := by
  rw [Sys.read]
  cases s.reads 0 with
  | fails => exact iff_of_true rfl rfl
  | delivers k => exact iff_of_false (Option.some_ne_none _) (fun h => nomatch h)

/-- A read that is not short and does not fail is complete. -/
theorem Sys.read_complete {bs : List UInt8} (hread : s.read n = (some bs, s'))
    (hlong : ¬ Short (some bs) n) :
    bs.length = n.toNat ∧ n.toNat < 2 ^ 63 ∧ s.stream = bs ++ s'.stream := by
  obtain ⟨hstream, hle, hlt⟩ := s.read_some hread
  rw [Short, returned, BitVec.toNat_ofNat, Nat.mod_eq_of_lt (by omega)] at hlong
  exact ⟨by omega, by omega, hstream⟩

end Read

section Strings

variable {n : ℕ} {slen : BitVec 64} {magic : BitVec 16} {s : Sys}

theorem readStrdata_ok_iff : (readStrdata n slen magic s).ok = true ↔
    ∀ step ∈ (readStrdata n slen magic s).steps, ¬ step.Refuses := by
  induction n generalizing slen magic s with
  | zero => simp [readStrdata]
  | succ n ih =>
    rcases hread₁ : s.read 8#64 with ⟨got₁, s₁⟩
    by_cases h₁ : Short got₁ 8#64
    · simp [readStrdata, hread₁, h₁, ReadStep.Refuses]
    rcases hcalloc : s₁.sCalloc with ⟨ok, s₂⟩
    cases ok with
    | false => simp [readStrdata, hread₁, h₁, hcalloc, ih, ReadStep.Refuses]
    | true =>
      rcases hread₃ : s₂.read (filled (w := 8) slen got₁) with ⟨got₃, s₃⟩
      by_cases h₃ : Short got₃ (filled (w := 8) slen got₁)
      · simp [readStrdata, hread₁, h₁, hcalloc, hread₃, h₃, ReadStep.Refuses]
      rcases hread₄ : s₃.read 2#64 with ⟨got₄, s₄⟩
      by_cases h₄ : Short got₄ 2#64
      · simp [readStrdata, hread₁, h₁, hcalloc, hread₃, h₃, hread₄, h₄, ReadStep.Refuses]
      by_cases h₅ : filled (w := 2) magic got₄ ≠ ipcMagic
      · simp [readStrdata, hread₁, h₁, hcalloc, hread₃, h₃, hread₄, h₄, h₅, ReadStep.Refuses]
      simp [readStrdata, hread₁, h₁, hcalloc, hread₃, h₃, hread₄, h₄, h₅, ih, ReadStep.Refuses]

/-- A string that `read_strdata` gets past: either its buffer could not be
allocated, or it was read. -/
theorem readStrdata_succ_ok (hok : (readStrdata (n + 1) slen magic s).ok = true) :
    ∃ got₁ s₁, s.read 8#64 = (got₁, s₁) ∧ ¬ Short got₁ 8#64 ∧
      let len : BitVec 64 := filled (w := 8) slen got₁
      ((∃ s₂, s₁.sCalloc = (false, s₂) ∧
        let r := readStrdata n len magic s₂
        r.ok = true ∧ readStrdata (n + 1) slen magic s =
          { r with
            strs := none :: r.strs
            steps := .read 8#64 got₁ :: .calloc (len + 1#64) false :: r.steps }) ∨
      ∃ s₂ got₃ s₃ got₄ s₄, s₁.sCalloc = (true, s₂) ∧ s₂.read len = (got₃, s₃) ∧
        ¬ Short got₃ len ∧ s₃.read 2#64 = (got₄, s₄) ∧ ¬ Short got₄ 2#64 ∧
        filled (w := 2) magic got₄ = ipcMagic ∧
        let r := readStrdata n len ipcMagic s₄
        r.ok = true ∧ readStrdata (n + 1) slen magic s =
          { r with
            strs := some (CString.ofBytes (got₃.getD [])) :: r.strs
            steps := .read 8#64 got₁ :: .calloc (len + 1#64) true :: .read len got₃ ::
              .read 2#64 got₄ :: .magic ipcMagic :: r.steps }) := by
  rcases hread₁ : s.read 8#64 with ⟨got₁, s₁⟩
  refine ⟨got₁, s₁, rfl, ?_⟩
  by_cases h₁ : Short got₁ 8#64
  · simp [readStrdata, hread₁, h₁] at hok
  refine ⟨h₁, ?_⟩
  rcases hcalloc : s₁.sCalloc with ⟨ok, s₂⟩
  cases ok with
  | false =>
    left
    simp only [readStrdata, hread₁, h₁, hcalloc, if_false, Bool.not_false, if_true] at hok ⊢
    exact ⟨s₂, rfl, hok, rfl⟩
  | true =>
    right
    rcases hread₃ : s₂.read (filled (w := 8) slen got₁) with ⟨got₃, s₃⟩
    by_cases h₃ : Short got₃ (filled (w := 8) slen got₁)
    · simp [readStrdata, hread₁, h₁, hcalloc, hread₃, h₃] at hok
    rcases hread₄ : s₃.read 2#64 with ⟨got₄, s₄⟩
    by_cases h₄ : Short got₄ 2#64
    · simp [readStrdata, hread₁, h₁, hcalloc, hread₃, h₃, hread₄, h₄] at hok
    by_cases h₅ : filled (w := 2) magic got₄ ≠ ipcMagic
    · simp [readStrdata, hread₁, h₁, hcalloc, hread₃, h₃, hread₄, h₄, h₅] at hok
    replace h₅ := not_not.mp h₅
    simp only [readStrdata, hread₁, h₁, hcalloc, hread₃, h₃, hread₄, h₄, h₅, if_false,
      Bool.not_true, Bool.false_eq_true, ne_eq, not_true_eq_false] at hok ⊢
    exact ⟨s₂, got₃, s₃, got₄, s₄, rfl, hread₃, h₃, hread₄, h₄, h₅, hok, rfl⟩

/-- A buffer that is not allocated is a string that is not read. -/
theorem readStrdata_count (hok : (readStrdata n slen magic s).ok = true) :
    let steps := (readStrdata n slen magic s).steps
    steps.countP ReadStep.isRead ≤ 3 * n ∧
      (steps.countP ReadStep.isRead = 3 * n → ∀ size, .calloc size false ∉ steps) := by
  induction n generalizing slen magic s with
  | zero => simp [readStrdata]
  | succ n ih =>
    obtain ⟨got₁, s₁, -, -, hcase⟩ := readStrdata_succ_ok hok
    rcases hcase with ⟨s₂, -, hrest, heq⟩ | ⟨s₂, got₃, s₃, got₄, s₄, -, -, -, -, -, -, hrest, heq⟩
    all_goals
      obtain ⟨hle, hall⟩ := ih hrest
      rw [heq]
      simp only [List.countP_cons, ReadStep.isRead, List.mem_cons, not_or, if_true]
    · refine ⟨by simp; omega, fun heq => ?_⟩
      simp at heq
      omega
    · refine ⟨by simp; omega, fun heq size => ?_⟩
      have hfree := hall (by simp at heq; omega) size
      simpa using hfree

/-- A run in which nothing has failed has read byte strings. -/
theorem readStrdata_clean (hok : (readStrdata n slen magic s).ok = true)
    (hclean : ∀ step ∈ (readStrdata n slen magic s).steps, ¬ step.Fails) :
    ∃ ds : List (List UInt8), ds.length = n ∧
      (readStrdata n slen magic s).steps.flatMap ReadStep.delivered = dataRecords ds ∧
      (readStrdata n slen magic s).strs = ds.map (some ∘ CString.ofBytes) ∧
      (readStrdata n slen magic s).steps.countP ReadStep.isRead = 3 * n ∧
      ∀ step ∈ (readStrdata n slen magic s).steps, step.InFull := by
  induction n generalizing slen magic s with
  | zero => exact ⟨[], rfl, rfl, rfl, rfl, by simp [readStrdata]⟩
  | succ n ih =>
    obtain ⟨got₁, s₁, hread₁, h₁, hcase⟩ := readStrdata_succ_ok hok
    rcases hcase with ⟨s₂, -, -, heq⟩ |
      ⟨s₂, got₃, s₃, got₄, s₄, -, hread₃, h₃, hread₄, h₄, hmagic, hrest, heq⟩
    · rw [heq] at hclean
      exact absurd rfl (hclean _ (List.mem_cons_of_mem _ List.mem_cons_self))
    rw [heq] at hclean ⊢
    simp only [List.forall_mem_cons] at hclean
    obtain ⟨hgot₁, -, hgot₃, hgot₄, -, hclean⟩ := hclean
    obtain ⟨bs₁, rfl⟩ := Option.ne_none_iff_exists'.mp hgot₁
    obtain ⟨d, rfl⟩ := Option.ne_none_iff_exists'.mp hgot₃
    obtain ⟨bs₄, rfl⟩ := Option.ne_none_iff_exists'.mp hgot₄
    obtain ⟨hlen₁, -, -⟩ := Sys.read_complete hread₁ h₁
    obtain ⟨hlen₃, -, -⟩ := Sys.read_complete hread₃ h₃
    obtain ⟨hlen₄, -, -⟩ := Sys.read_complete hread₄ h₄
    obtain ⟨ds, hds, hbytes, hstrs, hcount, hfull⟩ := ih hrest hclean
    -- the length that was read is the length of the string
    have hbs₁ : bs₁ = leBytes 8 d.length := by
      rw [hlen₃, filled, leBytes_ofLeBytes (w := 8) hlen₁]
    have hbs₄ : bs₄ = leBytes 2 ipcMagic.toNat := by
      rw [← hmagic, filled, leBytes_ofLeBytes (w := 2) hlen₄]
    refine ⟨d :: ds, by rw [List.length_cons, hds], ?_, ?_, ?_, ?_⟩
    · simp only [List.flatMap_cons, ReadStep.delivered, List.nil_append, hbytes, dataRecords,
        dataRecord, List.append_assoc, ← hbs₁, ← hbs₄]
    · rw [hstrs]
      rfl
    · simp [List.countP_cons, ReadStep.isRead, hcount]
      omega
    · simp only [List.forall_mem_cons, ReadStep.InFull, Option.some.injEq, exists_eq_left',
        true_and]
      exact ⟨hlen₁, hlen₃, hlen₄, hfull⟩

/-- A complete read takes what lies at the head of the stream. -/
theorem Sys.read_inFull {s s' : Sys} {k : BitVec 64} {got : Option (List UInt8)}
    {front back : List UInt8} (hread : s.read k = (got, s'))
    (hfull : (ReadStep.read k got).InFull) (hs : s.stream = front ++ back)
    (hfront : front.length = k.toNat) : got = some front ∧ s'.stream = back := by
  obtain ⟨bs, rfl, hlen⟩ := hfull
  obtain ⟨hstream, -, -⟩ := Sys.read_some hread
  obtain ⟨rfl, rfl⟩ := List.append_inj (hs.symm.trans hstream) (by rw [hfront, hlen])
  exact ⟨rfl, rfl⟩

theorem not_short_inFull {k : BitVec 64} {got : Option (List UInt8)}
    (hfull : (ReadStep.read k got).InFull) : ¬ Short got k := by
  obtain ⟨bs, rfl, hlen⟩ := hfull
  rw [Short, returned, hlen, BitVec.ofNat_toNat, BitVec.setWidth_eq]
  exact Nat.lt_irrefl _

theorem Sys.stream_sCalloc {s s' : Sys} {ok : Bool} (h : s.sCalloc = (ok, s')) :
    s'.stream = s.stream := by
  rw [Sys.sCalloc, Prod.mk.injEq] at h
  rw [← h.2]

/-- A string of a call whose reads are all complete, with memory for it: whether
the call goes on depends on the magic. -/
theorem readStrdata_succ_inFull
    (hfull : ∀ step ∈ (readStrdata (n + 1) slen magic s).steps, step.InFull)
    (hcalloc : ∀ size, .calloc size false ∉ (readStrdata (n + 1) slen magic s).steps) :
    ∃ got₁ s₁ s₂ got₃ s₃ got₄ s₄,
      let len : BitVec 64 := filled (w := 8) slen got₁
      (s.read 8#64 = (got₁, s₁) ∧ (ReadStep.read 8#64 got₁).InFull) ∧
        s₁.sCalloc = (true, s₂) ∧
        (s₂.read len = (got₃, s₃) ∧ (ReadStep.read len got₃).InFull) ∧
        (s₃.read 2#64 = (got₄, s₄) ∧ (ReadStep.read 2#64 got₄).InFull) ∧
        (filled (w := 2) magic got₄ = ipcMagic →
          let r := readStrdata n len ipcMagic s₄
          readStrdata (n + 1) slen magic s =
            { r with
              strs := some (CString.ofBytes (got₃.getD [])) :: r.strs
              steps := .read 8#64 got₁ :: .calloc (len + 1#64) true :: .read len got₃ ::
                .read 2#64 got₄ :: .magic ipcMagic :: r.steps }) := by
  rcases hread₁ : s.read 8#64 with ⟨got₁, s₁⟩
  by_cases h₁ : Short got₁ 8#64
  · simp only [readStrdata, hread₁, h₁, if_true, List.forall_mem_singleton] at hfull
    exact absurd h₁ (not_short_inFull hfull)
  rcases hcall : s₁.sCalloc with ⟨ok, s₂⟩
  cases ok with
  | false =>
    simp [readStrdata, hread₁, h₁, hcall] at hcalloc
    exact absurd rfl (hcalloc _).1
  | true =>
    rcases hread₃ : s₂.read (filled (w := 8) slen got₁) with ⟨got₃, s₃⟩
    by_cases h₃ : Short got₃ (filled (w := 8) slen got₁)
    · simp only [readStrdata, hread₁, h₁, hcall, hread₃, h₃, if_true, if_false, Bool.not_true,
        Bool.false_eq_true, List.forall_mem_cons] at hfull
      exact absurd h₃ (not_short_inFull hfull.2.2.1)
    rcases hread₄ : s₃.read 2#64 with ⟨got₄, s₄⟩
    by_cases h₄ : Short got₄ 2#64
    · simp only [readStrdata, hread₁, h₁, hcall, hread₃, h₃, hread₄, h₄, if_true, if_false,
        Bool.not_true, Bool.false_eq_true, List.forall_mem_cons] at hfull
      exact absurd h₄ (not_short_inFull hfull.2.2.2.1)
    have hsteps : (ReadStep.read 8#64 got₁).InFull ∧
        (ReadStep.read (filled (w := 8) slen got₁) got₃).InFull ∧
        (ReadStep.read 2#64 got₄).InFull := by
      by_cases h₅ : filled (w := 2) magic got₄ = ipcMagic
      all_goals
        simp only [readStrdata, hread₁, h₁, hcall, hread₃, h₃, hread₄, h₄, h₅, if_true,
          if_false, Bool.not_true, Bool.false_eq_true, ne_eq, not_true_eq_false,
          not_false_eq_true, List.forall_mem_cons] at hfull
        exact ⟨hfull.1, hfull.2.2.1, hfull.2.2.2.1⟩
    refine ⟨got₁, s₁, s₂, got₃, s₃, got₄, s₄, ⟨rfl, hsteps.1⟩, hcall, ⟨hread₃, hsteps.2.1⟩,
      ⟨hread₄, hsteps.2.2⟩, fun h₅ => ?_⟩
    simp only [readStrdata, hread₁, h₁, hcall, hread₃, h₃, hread₄, h₄, h₅, if_false,
      Bool.not_true, Bool.false_eq_true, ne_eq, not_true_eq_false]

/-- Complete reads of well-formed records succeed, if there is memory. -/
theorem readStrdata_wellFormed {strs : List CString} {rest : List UInt8}
    (hs : s.stream = strRecords strs ++ rest) (hn : strs.length = n)
    (hfull : ∀ step ∈ (readStrdata n slen magic s).steps, step.InFull)
    (hcalloc : ∀ size, .calloc size false ∉ (readStrdata n slen magic s).steps) :
    (readStrdata n slen magic s).ok = true := by
  induction n generalizing slen magic s strs with
  | zero => rfl
  | succ n ih =>
    obtain ⟨str, strs, rfl⟩ := List.exists_cons_of_length_eq_add_one hn
    have hlt := str.length_lt
    have hs : s.stream = leBytes 8 str.length ++ (str.bytes ++
        (leBytes 2 ipcMagic.toNat ++ (strRecords strs ++ rest))) := by
      simpa only [strRecords_cons, strRecord_eq, List.append_assoc] using hs
    obtain ⟨got₁, s₁, s₂, got₃, s₃, got₄, s₄, ⟨hread₁, hfull₁⟩, hcall, ⟨hread₃, hfull₃⟩,
      ⟨hread₄, hfull₄⟩, hnext⟩ := readStrdata_succ_inFull hfull hcalloc
    -- the length, the bytes and the magic are those of the first record
    obtain ⟨rfl, hs₁⟩ := Sys.read_inFull hread₁ hfull₁ hs (length_leBytes _ _)
    have hlen : filled (w := 8) slen (some (leBytes 8 str.length)) =
        BitVec.ofNat (8 * 8) str.length := by
      rw [filled, ofLeBytes, leNat_leBytes]
      apply BitVec.eq_of_toNat_eq
      rw [BitVec.toNat_ofNat, BitVec.toNat_ofNat]
      omega
    rw [hlen] at hread₃ hfull₃
    obtain ⟨rfl, hs₃⟩ := Sys.read_inFull hread₃ hfull₃ ((Sys.stream_sCalloc hcall).trans hs₁)
      (by rw [BitVec.toNat_ofNat, CString.length_bytes]; omega)
    obtain ⟨rfl, hs₄⟩ := Sys.read_inFull hread₄ hfull₄ hs₃ (length_leBytes _ _)
    have heq := hnext rfl
    rw [heq] at hfull hcalloc ⊢
    refine ih hs₄ (Nat.succ.inj hn) (fun step hstep => hfull step ?_) (fun size hmem => ?_)
    · exact List.mem_append_right [_, _, _, _, _] hstep
    · exact hcalloc size (List.mem_append_right [_, _, _, _, _] hmem)

end Strings

/-! ## The header -/

theorem ofLeBytes_leBytes {w : ℕ} (v : BitVec (8 * w)) : ofLeBytes w (leBytes w v.toNat) = v := by
  apply BitVec.eq_of_toNat_eq
  have hpow : (256 : ℕ) ^ w = 2 ^ (8 * w) := by
    rw [pow_mul]
    norm_num
  rw [ofLeBytes, leNat_leBytes, BitVec.toNat_ofNat, hpow, Nat.mod_mod,
    Nat.mod_eq_of_lt v.isLt]

namespace SoscIpcMsg

theorem take_drop_field (pre : List UInt8) {field : List UInt8} (post : List UInt8) {i w : ℕ}
    (hpre : pre.length = i) (hfield : field.length = w) :
    ((pre ++ field ++ post).drop i).take w = field := by
  subst hpre hfield
  rw [List.append_assoc, List.drop_left, List.take_left]

theorem ofImage_image (raw : SoscIpcMsg) : ofImage raw.image = raw := by
  let f₀ := leBytes 4 raw.type.toNat
  let f₁ := leBytes 4 raw.pad0.toNat
  let f₂ := leBytes 8 raw.word0.toNat
  let f₃ := leBytes 8 raw.word1.toNat
  let f₄ := leBytes 2 raw.magic.toNat
  let f₅ := leBytes 6 raw.pad1.toNat
  have htype : raw.image.take 4 = f₀ := by simp [image, f₀]
  have hpad0 : (raw.image.drop 4).take 4 = f₁ := by
    simpa only [image, List.append_assoc] using
      take_drop_field f₀ (f₂ ++ f₃ ++ f₄ ++ f₅) (by simp [f₀]) (length_leBytes 4 _)
  have hword0 : (raw.image.drop 8).take 8 = f₂ := by
    simpa only [image, List.append_assoc] using
      take_drop_field (f₀ ++ f₁) (f₃ ++ f₄ ++ f₅) (by simp [f₀, f₁]) (length_leBytes 8 _)
  have hword1 : (raw.image.drop 16).take 8 = f₃ := by
    simpa only [image, List.append_assoc] using
      take_drop_field (f₀ ++ f₁ ++ f₂) (f₄ ++ f₅) (by simp [f₀, f₁, f₂]) (length_leBytes 8 _)
  have hmagic : (raw.image.drop 24).take 2 = f₄ := by
    simpa only [image, List.append_assoc] using
      take_drop_field (f₀ ++ f₁ ++ f₂ ++ f₃) f₅ (by simp [f₀, f₁, f₂, f₃]) (length_leBytes 2 _)
  have hpad1 : (raw.image.drop 26).take 6 = f₅ := by
    simpa only [image, List.append_assoc, List.append_nil] using
      take_drop_field (f₀ ++ f₁ ++ f₂ ++ f₃ ++ f₄) [] (by simp [f₀, f₁, f₂, f₃, f₄])
        (length_leBytes 6 _)
  rw [ofImage, htype, hpad0, hword0, hword1, hmagic, hpad1]
  simp only [f₀, f₁, f₂, f₃, f₄, f₅, ofLeBytes_leBytes]

theorem image_ofImage {bs : List UInt8} (hlen : bs.length = sizeofMsg) :
    (ofImage bs).image = bs := by
  have hsize : sizeofMsg = 32 := rfl
  have hfield (i w : ℕ) (hw : i + w ≤ 32) :
      leBytes w (ofLeBytes w ((bs.drop i).take w)).toNat = (bs.drop i).take w := by
    apply leBytes_ofLeBytes
    rw [List.length_take, List.length_drop]
    omega
  have hjoin (i w k : ℕ) (hk : i + w = k) :
      bs.take i ++ (bs.drop i).take w = bs.take k := by
    rw [← hk, List.take_add]
  have htype := hfield 0 4 (by omega)
  rw [List.drop_zero] at htype
  rw [image, ofImage]
  simp only
  rw [htype, hfield 4 4 (by omega), hfield 8 8 (by omega), hfield 16 8 (by omega),
    hfield 24 2 (by omega), hfield 26 6 (by omega), hjoin 4 4 8 rfl, hjoin 8 8 16 rfl,
    hjoin 16 8 24 rfl, hjoin 24 2 26 rfl, hjoin 26 6 32 rfl]
  exact List.take_of_length_le (by omega)

end SoscIpcMsg

/-- The message that a reader finds. -/
def MsgRead.contents (r : MsgRead) : Option IpcMsg :=
  match SoscIpcType.ofRaw r.msg.type, r.strs with
  | some .deviceConnection, [some devnode] => some (.deviceConnection devnode)
  | some .deviceInfo, [some serial, some friendly] => some (.deviceInfo serial friendly)
  | some .deviceReady, _ => some .deviceReady
  | some .deviceDisconnection, _ => some .deviceDisconnection
  | some .oscPortChange, _ => some (.oscPortChange r.msg.port)
  | some .processShouldExit, _ => some .processShouldExit
  | _, _ => none

/-- The bytes that were delivered in the course of a call. -/
def MsgRead.delivered (r : MsgRead) : List UInt8 := r.steps.flatMap ReadStep.delivered

/-- Every read of a call was complete. -/
def MsgRead.InFull (r : MsgRead) : Prop := ∀ step ∈ r.steps, step.InFull

/-- The stream begins with a serialised message. -/
def Sys.BeginsWithMsg (s : Sys) : Prop :=
  ∃ (strAt : Addr → CString) (raw : SoscIpcMsg) (c : IpcMsg),
    raw.contents strAt = some c ∧ wireBytes raw c <+: s.stream

/-- The decoder of buffers, given the bytes that were delivered, consumes all of
them and finds the same message. -/
def MsgRead.Agrees (r : MsgRead) : Prop :=
  ∃ n : BitVec 64, n.toNat = r.delivered.length ∧
    ∀ (malloc : ℕ → Addr) (h : Heap) (p : Addr), HasBytes h.mem p r.delivered →
      let d := soscIpcMsgFromBuf malloc h p n
      d.ret = n ∧ 0 < d.ret.toInt ∧ ∃ c, d.contents h = some c ∧ r.contents = some c

/-- `sosc_ipc_msg_read` does what it should: when it succeeds, the header and
every length, string and magic were delivered in full and the decoder of
buffers agrees; and it succeeds on a serialised message that is delivered in
full. -/
structure ReadsSoundly (buf : SoscIpcMsg) (slen : BitVec 64) (magic : BitVec 16) (s : Sys) :
    Prop where
  sound :
    let r := soscIpcMsgRead buf slen magic s
    0 < r.ret → r.InFull ∧
      r.steps.countP ReadStep.isRead = 1 + 3 * stringCount r.msg.type ∧ r.Agrees
  complete :
    let r := soscIpcMsgRead buf slen magic s
    r.InFull → s.BeginsWithMsg → 0 < r.ret

/-- The steps of a call that does: the read of the header returns `-1`; or some
read is short; or a magic is wrong, unless this is for want of memory on a
serialised message delivered in full; or nothing fails, the type is one of the
six and fewer than `2 ^ 63` bytes are delivered. -/
def StepsNoticed (buf : SoscIpcMsg) (slen : BitVec 64) (magic : BitVec 16) (s : Sys) : Prop :=
  let r := soscIpcMsgRead buf slen magic s
  s.reads 0 = .fails ∨
    (∃ asked got, .read asked got ∈ r.steps ∧ Short got asked) ∨
    ((∃ found, .magic found ∈ r.steps ∧ found ≠ ipcMagic) ∧
      ¬ ((∃ size, .calloc size false ∈ r.steps) ∧ r.InFull ∧ s.BeginsWithMsg)) ∨
    (∀ step ∈ r.steps, ¬ step.Fails) ∧ SoscIpcType.ofRaw r.msg.type ≠ none ∧
      r.delivered.length < 2 ^ 63

section Header

variable {buf : SoscIpcMsg} {slen : BitVec 64} {magic : BitVec 16} {s s₁ : Sys}

/-- A header that is not read makes the call fail, whatever the buffer held. -/
theorem soscIpcMsgRead_fails (hfails : s.reads 0 = .fails) :
    (soscIpcMsgRead buf slen magic s).ret = -1 := by
  have hnone : (s.read (BitVec.ofNat 64 sizeofMsg)).1 = none := Sys.read_none.mpr hfails
  have hret : (returned none).toInt = -1 := by decide
  simp only [soscIpcMsgRead, hnone, if_neg (not_short_none _), hret, ite_self]
  split <;> rfl

/-- Every call reads the header. -/
theorem mem_steps_header (buf : SoscIpcMsg) (slen : BitVec 64) (magic : BitVec 16) (s : Sys) :
    .read (BitVec.ofNat 64 sizeofMsg) (s.read (BitVec.ofNat 64 sizeofMsg)).1 ∈
      (soscIpcMsgRead buf slen magic s).steps := by
  rw [soscIpcMsgRead]
  dsimp only
  split
  · exact List.mem_cons_self
  · split <;> exact List.mem_cons_self

/-- The call behind a complete header. -/
theorem soscIpcMsgRead_header (buf : SoscIpcMsg) (slen : BitVec 64) (magic : BitVec 16)
    {bs : List UInt8}
    (hread : s.read (BitVec.ofNat 64 sizeofMsg) = (some bs, s₁))
    (hlong : ¬ Short (some bs) (BitVec.ofNat 64 sizeofMsg))
    (hmagic : (SoscIpcMsg.ofImage bs).magic = ipcMagic) :
    soscIpcMsgRead buf slen magic s =
      let r := readStrdata (stringCount (SoscIpcMsg.ofImage bs).type) slen magic s₁
      { ret := if r.ok then sizeofMsg else -1
        msg := SoscIpcMsg.ofImage bs, strs := r.strs, sys := r.sys
        steps := .read (BitVec.ofNat 64 sizeofMsg) (some bs) :: .magic ipcMagic :: r.steps } := by
  obtain ⟨hlen, -, -⟩ := Sys.read_complete hread hlong
  have hdrop : bs ++ buf.image.drop bs.length = bs := by
    rw [List.drop_eq_nil_of_le (by rw [hlen, SoscIpcMsg.length_image]; decide), List.append_nil]
  have hret : (returned (some bs)).toInt = sizeofMsg := by
    rw [returned, hlen]
    decide
  simp only [soscIpcMsgRead, hread, if_neg hlong, Option.getD_some, hdrop, hmagic, hret, ne_eq,
    not_true_eq_false, if_false]

/-- The call behind a header without the magic. -/
theorem soscIpcMsgRead_badMagic {bs : List UInt8}
    (hread : s.read (BitVec.ofNat 64 sizeofMsg) = (some bs, s₁))
    (hlong : ¬ Short (some bs) (BitVec.ofNat 64 sizeofMsg))
    (hmagic : (SoscIpcMsg.ofImage bs).magic ≠ ipcMagic) :
    soscIpcMsgRead buf slen magic s =
      { ret := -1, msg := SoscIpcMsg.ofImage bs, strs := [], sys := s₁
        steps := [.read (BitVec.ofNat 64 sizeofMsg) (some bs),
          .magic (SoscIpcMsg.ofImage bs).magic] } := by
  obtain ⟨hlen, -, -⟩ := Sys.read_complete hread hlong
  have hdrop : bs ++ buf.image.drop bs.length = bs := by
    rw [List.drop_eq_nil_of_le (by rw [hlen, SoscIpcMsg.length_image]; decide), List.append_nil]
  simp only [soscIpcMsgRead, hread, if_neg hlong, Option.getD_some, hdrop, if_pos hmagic]

/-- A call succeeds when the header is there and no step refuses. -/
theorem soscIpcMsgRead_pos_iff :
    0 < (soscIpcMsgRead buf slen magic s).ret ↔ s.reads 0 ≠ .fails ∧
      ∀ step ∈ (soscIpcMsgRead buf slen magic s).steps, ¬ step.Refuses := by
  by_cases hfails : s.reads 0 = .fails
  · rw [soscIpcMsgRead_fails hfails]
    exact iff_of_false (by decide) (fun h => h.1 hfails)
  rcases hread : s.read (BitVec.ofNat 64 sizeofMsg) with ⟨got, s₁⟩
  have hsome : got ≠ none := by
    intro hnone
    exact hfails (Sys.read_none.mp (by rw [hread, hnone]))
  obtain ⟨bs, rfl⟩ := Option.ne_none_iff_exists'.mp hsome
  rw [and_iff_right hfails]
  by_cases hshort : Short (some bs) (BitVec.ofNat 64 sizeofMsg)
  · simp only [soscIpcMsgRead, hread, if_pos hshort, List.forall_mem_singleton]
    exact iff_of_false (by decide) (not_not.mpr hshort)
  by_cases hmagic : (SoscIpcMsg.ofImage bs).magic = ipcMagic
  · rw [soscIpcMsgRead_header buf slen magic hread hshort hmagic]
    simp only [List.forall_mem_cons]
    rw [← readStrdata_ok_iff]
    have hpos : (0 : ℤ) < sizeofMsg := by decide
    have hgood : ¬ (ReadStep.magic ipcMagic).Refuses := fun h => h rfl
    cases hok : (readStrdata (stringCount (SoscIpcMsg.ofImage bs).type) slen magic s₁).ok with
    | true => exact iff_of_true hpos ⟨hshort, hgood, rfl⟩
    | false => exact iff_of_false (by decide) (fun h => Bool.noConfusion h.2.2)
  · rw [soscIpcMsgRead_badMagic hread hshort hmagic]
    simp only [List.forall_mem_cons]
    exact iff_of_false (by decide) (fun h => h.2.1 hmagic)

/-- A call that succeeds is one behind a good header. -/
theorem soscIpcMsgRead_pos (hpos : 0 < (soscIpcMsgRead buf slen magic s).ret) :
    ∃ bs s₁, s.read (BitVec.ofNat 64 sizeofMsg) = (some bs, s₁) ∧ bs.length = sizeofMsg ∧
      (SoscIpcMsg.ofImage bs).magic = ipcMagic ∧
      let r := readStrdata (stringCount (SoscIpcMsg.ofImage bs).type) slen magic s₁
      r.ok = true ∧ soscIpcMsgRead buf slen magic s =
        { ret := sizeofMsg, msg := SoscIpcMsg.ofImage bs, strs := r.strs, sys := r.sys
          steps := .read (BitVec.ofNat 64 sizeofMsg) (some bs) :: .magic ipcMagic :: r.steps } := by
  obtain ⟨hfails, hsteps⟩ := soscIpcMsgRead_pos_iff.mp hpos
  rcases hread : s.read (BitVec.ofNat 64 sizeofMsg) with ⟨got, s₁⟩
  have hsome : got ≠ none := by
    intro hnone
    exact hfails (Sys.read_none.mp (by rw [hread, hnone]))
  obtain ⟨bs, rfl⟩ := Option.ne_none_iff_exists'.mp hsome
  have hlong : ¬ Short (some bs) (BitVec.ofNat 64 sizeofMsg) := by
    apply hsteps (.read _ _)
    have hmem := mem_steps_header buf slen magic s
    rwa [hread] at hmem
  obtain ⟨hlen, -, -⟩ := Sys.read_complete hread hlong
  by_cases hmagic : (SoscIpcMsg.ofImage bs).magic = ipcMagic
  · have heq := soscIpcMsgRead_header buf slen magic hread hlong hmagic
    dsimp only at heq
    rw [heq] at hpos
    have hok :
        (readStrdata (stringCount (SoscIpcMsg.ofImage bs).type) slen magic s₁).ok = true := by
      by_contra hno
      dsimp only at hpos
      rw [if_neg hno] at hpos
      exact absurd hpos (by decide)
    rw [if_pos hok] at heq
    exact ⟨bs, s₁, rfl, hlen, hmagic, hok, heq⟩
  · rw [soscIpcMsgRead_badMagic hread hlong hmagic] at hpos
    exact absurd hpos (Int.not_lt.mpr (by decide : (-1 : ℤ) ≤ 0))

theorem stringCount_of_contents {raw : SoscIpcMsg} {strAt : Addr → CString} {c : IpcMsg}
    (hc : raw.contents strAt = some c) : stringCount raw.type = c.strings.length := by
  rw [stringCount, (SoscIpcMsg.carries_of_contents hc).1]
  cases c <;> rfl

/-- The message of a type with the strings that were read for it. -/
theorem exists_carried {r : MsgRead} {ds : List (List UInt8)}
    (htype : SoscIpcType.ofRaw r.msg.type ≠ none) (hds : ds.length = stringCount r.msg.type)
    (hstrs : r.strs = ds.map (some ∘ CString.ofBytes)) :
    ∃ c : IpcMsg, r.msg.Carries c ∧ c.strings = ds.map CString.ofBytes ∧ r.contents = some c := by
  obtain ⟨type, htype⟩ := Option.ne_none_iff_exists'.mp htype
  rw [stringCount, htype] at hds
  simp only [MsgRead.contents, SoscIpcMsg.Carries, htype]
  cases type with
  | deviceConnection =>
    obtain ⟨d, rfl⟩ := List.length_eq_one_iff.mp hds
    exact ⟨.deviceConnection (.ofBytes d), ⟨rfl, nofun⟩, rfl, by rw [hstrs]; rfl⟩
  | deviceInfo =>
    obtain ⟨d, d', rfl⟩ := List.length_eq_two.mp hds
    exact ⟨.deviceInfo (.ofBytes d) (.ofBytes d'), ⟨rfl, nofun⟩, rfl, by rw [hstrs]; rfl⟩
  | deviceReady =>
    obtain rfl := List.length_eq_zero_iff.mp hds
    exact ⟨.deviceReady, ⟨rfl, nofun⟩, rfl, rfl⟩
  | deviceDisconnection =>
    obtain rfl := List.length_eq_zero_iff.mp hds
    exact ⟨.deviceDisconnection, ⟨rfl, nofun⟩, rfl, rfl⟩
  | oscPortChange =>
    obtain rfl := List.length_eq_zero_iff.mp hds
    exact ⟨.oscPortChange r.msg.port, ⟨rfl, fun _ => rfl⟩, rfl, rfl⟩
  | processShouldExit =>
    obtain rfl := List.length_eq_zero_iff.mp hds
    exact ⟨.processShouldExit, ⟨rfl, nofun⟩, rfl, rfl⟩

/-- A successful call in which nothing has failed. -/
theorem soscIpcMsgRead_clean (hpos : 0 < (soscIpcMsgRead buf slen magic s).ret)
    (hclean : ∀ step ∈ (soscIpcMsgRead buf slen magic s).steps, ¬ step.Fails) :
    let r := soscIpcMsgRead buf slen magic s
    ∃ ds : List (List UInt8), ds.length = stringCount r.msg.type ∧ r.msg.magic = ipcMagic ∧
      r.delivered = r.msg.image ++ dataRecords ds ∧
      r.strs = ds.map (some ∘ CString.ofBytes) ∧
      r.steps.countP ReadStep.isRead = 1 + 3 * stringCount r.msg.type ∧ r.InFull := by
  obtain ⟨bs, s₁, -, hlen, hmagic, hok, heq⟩ := soscIpcMsgRead_pos hpos
  dsimp only at heq ⊢
  rw [heq] at hclean ⊢
  simp only [List.forall_mem_cons] at hclean
  obtain ⟨ds, hds, hbytes, hstrs, hcount, hfull⟩ := readStrdata_clean hok hclean.2.2
  refine ⟨ds, hds, hmagic, ?_, hstrs, ?_, ?_⟩
  · simp only [MsgRead.delivered, List.flatMap_cons, ReadStep.delivered, List.nil_append, hbytes,
      SoscIpcMsg.image_ofImage hlen]
  · simp [List.countP_cons, ReadStep.isRead, hcount]
    omega
  · intro step hstep
    simp only [List.mem_cons] at hstep
    rcases hstep with rfl | rfl | hstep
    · exact ⟨bs, rfl, hlen⟩
    · trivial
    · exact hfull step hstep

/-- In a successful call that has made all its reads, every buffer was
allocated. -/
theorem soscIpcMsgRead_allocated (hpos : 0 < (soscIpcMsgRead buf slen magic s).ret)
    (hcount : (soscIpcMsgRead buf slen magic s).steps.countP ReadStep.isRead =
      1 + 3 * stringCount (soscIpcMsgRead buf slen magic s).msg.type) (size : BitVec 64) :
    .calloc size false ∉ (soscIpcMsgRead buf slen magic s).steps := by
  obtain ⟨bs, s₁, -, -, -, hok, heq⟩ := soscIpcMsgRead_pos hpos
  rw [heq] at hcount ⊢
  simp [List.countP_cons, ReadStep.isRead] at hcount
  have hfree := (readStrdata_count hok).2 (by omega) size
  simpa using hfree

/-- A serialised message is read when it is delivered in full and there is
memory. -/
theorem soscIpcMsgRead_complete (hfull : (soscIpcMsgRead buf slen magic s).InFull)
    (hmsg : s.BeginsWithMsg)
    (hcalloc : ∀ size, .calloc size false ∉ (soscIpcMsgRead buf slen magic s).steps) :
    0 < (soscIpcMsgRead buf slen magic s).ret := by
  obtain ⟨strAt, raw, c, hc, rest, hs⟩ := hmsg
  rw [wireBytes, List.append_assoc] at hs
  rcases hread : s.read (BitVec.ofNat 64 sizeofMsg) with ⟨got, s₁⟩
  have hstep := hfull _ (mem_steps_header buf slen magic s)
  rw [hread] at hstep
  obtain ⟨rfl, hs₁⟩ := Sys.read_inFull hread hstep hs.symm (SoscIpcMsg.length_image _)
  have himage := raw.setMagic.ofImage_image
  have heq := soscIpcMsgRead_header buf slen magic hread
    (not_short_inFull hstep) (by rw [himage]; rfl)
  rw [himage] at heq
  have hcount : c.strings.length = stringCount raw.setMagic.type :=
    (stringCount_of_contents hc).symm
  have hok : (readStrdata (stringCount raw.setMagic.type) slen magic s₁).ok = true := by
    rw [MsgRead.InFull, heq] at hfull
    rw [heq] at hcalloc
    refine readStrdata_wellFormed hs₁ hcount (fun step hmem => ?_) (fun size hmem => ?_)
    · exact hfull step (List.mem_cons_of_mem _ (List.mem_cons_of_mem _ hmem))
    · exact hcalloc size (List.mem_cons_of_mem _ (List.mem_cons_of_mem _ hmem))
  rw [heq]
  dsimp only
  rw [if_pos hok]
  decide

/-- With nothing failed, the decoder of buffers agrees. -/
theorem agrees_of_clean (hpos : 0 < (soscIpcMsgRead buf slen magic s).ret)
    (hclean : ∀ step ∈ (soscIpcMsgRead buf slen magic s).steps, ¬ step.Fails)
    (htype : SoscIpcType.ofRaw (soscIpcMsgRead buf slen magic s).msg.type ≠ none)
    (hsize : (soscIpcMsgRead buf slen magic s).delivered.length < 2 ^ 63) :
    (soscIpcMsgRead buf slen magic s).Agrees := by
  obtain ⟨ds, hds, hmagic, hbytes, hstrs, -, -⟩ := soscIpcMsgRead_clean hpos hclean
  obtain ⟨c, hcarries, hstrings, hcontents⟩ := exists_carried htype hds hstrs
  have hlen : (soscIpcMsgRead buf slen magic s).delivered.length = sizeofMsg + dataBytes ds := by
    rw [hbytes, List.length_append, SoscIpcMsg.length_image, length_dataRecords]
  rw [hlen] at hsize
  refine ⟨BitVec.ofNat 64 (sizeofMsg + dataBytes ds), ?_, ?_⟩
  · rw [hlen, BitVec.toNat_ofNat, Nat.mod_eq_of_lt (by omega)]
  · intro malloc h p hm d
    rw [hbytes] at hm
    obtain ⟨hret, hc, -, -⟩ := soscIpcMsgFromBuf_records malloc (s := []) hcarries hmagic hstrings
      (by simpa using hm) (by simpa using hsize)
    refine ⟨hret, ?_, c, hc, hcontents⟩
    have hpos : 0 < sizeofMsg := by decide
    rw [show d.ret = _ from hret, BitVec.toInt_eq_toNat_cond, BitVec.toNat_ofNat]
    split <;> omega

/-- What an agreeing decoder says of the type and the size. -/
theorem clean_of_agrees {r : MsgRead} (hagrees : r.Agrees) :
    SoscIpcType.ofRaw r.msg.type ≠ none ∧ r.delivered.length < 2 ^ 63 := by
  obtain ⟨n, hn, hdec⟩ := hagrees
  have hm := hasBytes_write_self (fun _ => 0) 0#64 r.delivered (by rw [← hn]; exact n.isLt)
  obtain ⟨hret, hpos, c, -, hcontents⟩ := hdec (fun _ => 0#64)
    { mem := write (fun _ => 0) 0#64 r.delivered, copies := [] } 0#64 hm
  constructor
  · intro hnone
    rw [MsgRead.contents, hnone] at hcontents
    cases hcontents
  · rw [hret, BitVec.toInt_eq_toNat_cond] at hpos
    split at hpos <;> omega

/-- A call that has succeeded as it should is one in which nothing has failed. -/
theorem ReadsSoundly.clean (h : ReadsSoundly buf slen magic s)
    (hpos : 0 < (soscIpcMsgRead buf slen magic s).ret) :
    let r := soscIpcMsgRead buf slen magic s
    (∀ step ∈ r.steps, ¬ step.Fails) ∧ SoscIpcType.ofRaw r.msg.type ≠ none ∧
      r.delivered.length < 2 ^ 63 := by
  obtain ⟨hfull, hcount, hagrees⟩ := h.sound hpos
  refine ⟨?_, clean_of_agrees hagrees⟩
  intro step hstep hfails
  cases step with
  | read asked got =>
    obtain ⟨bs, rfl, -⟩ := hfull _ hstep
    cases hfails
  | calloc size ok =>
    obtain rfl : ok = false := hfails
    exact soscIpcMsgRead_allocated hpos hcount size hstep
  | magic found => exact hfails

/-- `sosc_ipc_msg_read` does what it should when none of its steps fails
unnoticed. -/
theorem readsSoundly_of_steps (h : StepsNoticed buf slen magic s) :
    ReadsSoundly buf slen magic s := by
  constructor
  · intro r hpos
    obtain ⟨hfails, hsteps⟩ := soscIpcMsgRead_pos_iff.mp hpos
    rcases h with hhead | ⟨asked, got, hstep, hshort⟩ | ⟨⟨found, hstep, hmagic⟩, -⟩ |
      ⟨hclean, htype, hsize⟩
    · exact absurd hhead hfails
    · exact absurd hshort (hsteps _ hstep)
    · exact absurd hmagic (hsteps _ hstep)
    · obtain ⟨-, -, -, -, -, hcount, hfull⟩ := soscIpcMsgRead_clean hpos hclean
      exact ⟨hfull, hcount, agrees_of_clean hpos hclean htype hsize⟩
  · intro r hfull hmsg
    rcases h with hhead | ⟨asked, got, hstep, hshort⟩ | ⟨-, hmemory⟩ | ⟨hclean, -, -⟩
    · obtain ⟨bs, hsome, -⟩ := hfull _ (mem_steps_header buf slen magic s)
      rw [Sys.read_none.mpr hhead] at hsome
      cases hsome
    · exact absurd hshort (not_short_inFull (hfull _ hstep))
    · exact soscIpcMsgRead_complete hfull hmsg fun size hmem =>
        hmemory ⟨⟨size, hmem⟩, hfull, hmsg⟩
    · exact soscIpcMsgRead_complete hfull hmsg fun size hmem => hclean _ hmem rfl

end Header

end Serialosc
