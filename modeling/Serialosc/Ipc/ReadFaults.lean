import Serialosc.Ipc.Read

/-!
# What may go wrong while a message is read

The outcomes of `read` and `s_calloc` along the records that lie at the head of
the stream, for which a call of `sosc_ipc_msg_read` does what it should: either
everything is served, or what refuses the message comes before a failure.

Behind a failure that was not noticed the reads no longer meet the records of
the stream, and what the uninitialised variables hold decides how the call goes
on.  It cannot do what it should by succeeding any more.
-/

namespace Serialosc

open ByteMemory

namespace Sys

/-- The `i`-th call of `read` delivers the `size` bytes at offset `off`. -/
def Given (s : Sys) (i off size : ℕ) : Prop :=
  ∃ k, s.reads i = .delivers k ∧ size ≤ k ∧ size < 2 ^ 63 ∧ size ≤ (s.stream.drop off).length

/-- It delivers only some of them. -/
def CutShort (s : Sys) (i off size : ℕ) : Prop := s.reads i ≠ .fails ∧ ¬ s.Given i off size

/-- The length word of the record at the head of the stream. -/
def slen (s : Sys) : ℕ := leNat (s.stream.take 8)

/-- The magic lies at offset `off`. -/
def MagicAt (s : Sys) (off : ℕ) : Prop :=
  (s.stream.drop off).take 2 = leBytes 2 ipcMagic.toNat

/-- What is left behind `i` calls of `read` that have delivered `off` bytes, and
`j` of `s_calloc`. -/
def past (s : Sys) (i j off : ℕ) : Sys where
  stream := s.stream.drop off
  reads k := s.reads (k + i)
  callocs k := s.callocs (k + j)

/-- The three parts of the record at the head of the stream are delivered, and
there is memory for the string. -/
structure RecordGiven (s : Sys) : Prop where
  length : s.Given 0 0 8
  memory : s.callocs 0 = true
  string : s.Given 1 8 s.slen
  magic : s.Given 2 (8 + s.slen) 2

/-- A part of the record is cut short, and no failure comes before. -/
def RecordCut (s : Sys) : Prop :=
  s.CutShort 0 0 8 ∨
    s.Given 0 0 8 ∧ s.callocs 0 = true ∧
      (s.CutShort 1 8 s.slen ∨ s.Given 1 8 s.slen ∧ s.CutShort 2 (8 + s.slen) 2)

/-- The `n` records at the head of the stream, behind `size` bytes of the same
message: one that is cut short or has no magic ends the call, or all are given. -/
def StringsNoticed : ℕ → ℕ → Sys → Prop
  | 0, size, _ => size < 2 ^ 63
  | n + 1, size, s =>
      s.RecordCut ∨
        s.RecordGiven ∧ (s.MagicAt (8 + s.slen) →
          StringsNoticed n (size + (8 + s.slen + 2)) (s.past 3 1 (8 + s.slen + 2)))

/-- The header at the head of the stream. -/
def header (s : Sys) : SoscIpcMsg := .ofImage (s.stream.take sizeofMsg)

end Sys

/-- What has to happen outside for a message to be read soundly: the read of the
header fails or is cut short; or it is given, and it has no magic, or its type
is one of the six and its strings are given unless something refuses them. -/
def ReadsNoticed (s : Sys) : Prop :=
  s.reads 0 = .fails ∨ s.CutShort 0 0 sizeofMsg ∨
    s.Given 0 0 sizeofMsg ∧
      (s.header.magic = ipcMagic → SoscIpcType.ofRaw s.header.type ≠ none ∧
        (s.past 1 0 sizeofMsg).StringsNoticed (stringCount s.header.type) sizeofMsg)

/-! ## Reads that are served -/

section Served

variable {s : Sys} {n : BitVec 64} {i j off : ℕ}

theorem Sys.given_past {size : ℕ} :
    (s.past i j off).Given 0 0 size ↔ s.Given i off size := by
  simp only [Sys.Given, Sys.past, Nat.zero_add, List.drop_zero]

theorem Sys.cutShort_past {size : ℕ} :
    (s.past i j off).CutShort 0 0 size ↔ s.CutShort i off size := by
  rw [Sys.CutShort, Sys.given_past]
  simp only [Sys.CutShort, Sys.past, Nat.zero_add]

/-- A read that is served in full. -/
theorem Sys.read_given (hgiven : s.Given 0 0 n.toNat) :
    s.read n = (some (s.stream.take n.toNat), s.past 1 0 n.toNat) ∧
      (s.stream.take n.toNat).length = n.toNat := by
  obtain ⟨k, hk, hle, hlt, hlen⟩ := hgiven
  have hmin : min k (min n.toNat (2 ^ 63 - 1)) = n.toNat := by omega
  have htake : (s.stream.take n.toNat).length = n.toNat := List.length_take_of_le hlen
  rw [Sys.read, hk]
  simp only [hmin, htake, Sys.past, Nat.add_zero, and_true]

theorem Sys.not_short_given (hgiven : s.Given 0 0 n.toNat) :
    ¬ Short (some (s.stream.take n.toNat)) n :=
  not_short_inFull ⟨_, rfl, (Sys.read_given hgiven).2⟩

/-- What was read without a failure, unless it was cut short. -/
theorem Sys.given_of_read {bs : List UInt8} {s' : Sys} (hread : s.read n = (some bs, s'))
    (hlong : ¬ Short (some bs) n) : s.Given 0 0 n.toNat := by
  obtain ⟨hlen, hlt, hstream⟩ := Sys.read_complete hread hlong
  have hsome : s.reads 0 ≠ .fails := fun hfails => by
    rw [← Sys.read_none (n := n), hread] at hfails
    cases hfails
  cases hk : s.reads 0 with
  | fails => exact absurd hk hsome
  | delivers k =>
    refine ⟨k, hk, ?_, hlt, ?_⟩
    · rw [Sys.read, hk] at hread
      have hbs := congrArg List.length (Option.some.inj (Prod.mk.inj hread).1)
      rw [List.length_take] at hbs
      omega
    · rw [List.drop_zero, hstream, List.length_append]
      omega

theorem Sys.cutShort_iff : s.CutShort 0 0 n.toNat ↔ Short (s.read n).1 n := by
  rcases hread : s.read n with ⟨got, s'⟩
  constructor
  · rintro ⟨hsome, hshort⟩
    by_contra hlong
    cases got with
    | none => exact hsome (Sys.read_none.mp (by rw [hread]))
    | some bs => exact hshort (Sys.given_of_read hread hlong)
  · intro hshort
    constructor
    · intro hfails
      obtain rfl : got = none := by
        have hnone := (Sys.read_none (n := n)).mpr hfails
        rwa [hread] at hnone
      exact not_short_none n hshort
    · intro hgiven
      obtain ⟨heq, hlen⟩ := Sys.read_given hgiven
      obtain ⟨rfl, -⟩ := Prod.mk.inj (hread.symm.trans heq)
      exact not_short_inFull ⟨_, rfl, hlen⟩ hshort

end Served

/-! ## Records -/

section Record

variable {s : Sys} {n size : ℕ} {slen : BitVec 64} {magic : BitVec 16}

/-- The length word as `read_strdata` holds it. -/
def Sys.slenWord (s : Sys) : BitVec 64 := ofLeBytes 8 (s.stream.take 8)

theorem Sys.toNat_slenWord (hlength : s.Given 0 0 8) : s.slenWord.toNat = s.slen := by
  have hlen := (Sys.read_given (n := 8#64) hlength).2
  exact toNat_ofLeBytes hlen

/-- The bytes at a magic, as `read_strdata` holds them. -/
def Sys.magicWord (s : Sys) (off : ℕ) : BitVec 16 := ofLeBytes 2 ((s.stream.drop off).take 2)

theorem Sys.magicWord_iff {off : ℕ} (hlen : ((s.stream.drop off).take 2).length = 2) :
    s.magicWord off = ipcMagic ↔ s.MagicAt off := by
  constructor
  · intro hword
    rw [Sys.MagicAt, ← leBytes_ofLeBytes (w := 2) hlen, ← Sys.magicWord, hword]
  · intro hthere
    rw [Sys.magicWord, hthere, ofLeBytes_leBytes]

theorem Sys.sCalloc_past (i off : ℕ) {j : ℕ} (hmemory : s.callocs j = true) :
    (s.past i j off).sCalloc = (true, s.past i (j + 1) off) := by
  simp only [Sys.sCalloc, Sys.past, Nat.zero_add, hmemory, Prod.mk.injEq, true_and]
  congr 1
  funext k
  congr 1
  omega

theorem Sys.past_past {i j off i' j' off' : ℕ} :
    (s.past i j off).past i' j' off' = s.past (i + i') (j + j') (off + off') := by
  simp only [Sys.past, List.drop_drop, Nat.add_assoc, Nat.add_comm i', Nat.add_comm j']

/-- The read of a length word. -/
theorem Sys.read_length (hlength : s.Given 0 0 8) :
    s.read 8#64 = (some (s.stream.take 8), s.past 1 0 8) ∧
      ¬ Short (some (s.stream.take 8)) 8#64 :=
  ⟨(Sys.read_given (n := 8#64) hlength).1, Sys.not_short_given (n := 8#64) hlength⟩

/-- The read of a string behind its length. -/
theorem Sys.read_string (hlength : s.Given 0 0 8) (hstring : s.Given 1 8 s.slen) :
    (s.past 1 1 8).read s.slenWord =
        (some ((s.stream.drop 8).take s.slen), s.past 2 1 (8 + s.slen)) ∧
      ¬ Short (some ((s.stream.drop 8).take s.slen)) s.slenWord := by
  have hword := Sys.toNat_slenWord hlength
  have hgiven : (s.past 1 1 8).Given 0 0 s.slenWord.toNat := hword ▸ Sys.given_past.mpr hstring
  have hread := (Sys.read_given hgiven).1
  have hlong := Sys.not_short_given hgiven
  rw [Sys.past_past, hword] at hread
  rw [hword] at hlong
  exact ⟨hread, hlong⟩

/-- The read of a magic behind a string. -/
theorem Sys.read_magic (hmagic : s.Given 2 (8 + s.slen) 2) :
    (s.past 2 1 (8 + s.slen)).read 2#64 =
        (some ((s.stream.drop (8 + s.slen)).take 2), s.past 3 1 (8 + s.slen + 2)) ∧
      ¬ Short (some ((s.stream.drop (8 + s.slen)).take 2)) 2#64 := by
  have hgiven : (s.past 2 1 (8 + s.slen)).Given 0 0 (2#64).toNat := Sys.given_past.mpr hmagic
  have hread := (Sys.read_given hgiven).1
  rw [Sys.past_past] at hread
  exact ⟨hread, Sys.not_short_given hgiven⟩

theorem Sys.RecordGiven.length_parts (hgiven : s.RecordGiven) :
    (s.stream.take 8).length = 8 ∧ ((s.stream.drop 8).take s.slen).length = s.slen ∧
      ((s.stream.drop (8 + s.slen)).take 2).length = 2 := by
  obtain ⟨-, -, -, -, hlength⟩ := hgiven.length
  obtain ⟨-, -, -, -, hstring⟩ := hgiven.string
  obtain ⟨-, -, -, -, hmagic⟩ := hgiven.magic
  exact ⟨List.length_take_of_le hlength, List.length_take_of_le hstring,
    List.length_take_of_le hmagic⟩

theorem Sys.RecordGiven.magicWord_iff (hgiven : s.RecordGiven) :
    s.magicWord (8 + s.slen) = ipcMagic ↔ s.MagicAt (8 + s.slen) :=
  Sys.magicWord_iff hgiven.length_parts.2.2

/-- A record that is given and has its magic: the call goes on behind it. -/
theorem readStrdata_given (hgiven : s.RecordGiven) (hthere : s.MagicAt (8 + s.slen)) :
    readStrdata (n + 1) slen magic s =
      let r := readStrdata n s.slenWord ipcMagic (s.past 3 1 (8 + s.slen + 2))
      { r with
        strs := some (CString.ofBytes ((s.stream.drop 8).take s.slen)) :: r.strs
        steps := .read 8#64 (some (s.stream.take 8)) :: .calloc (s.slenWord + 1#64) true ::
          .read s.slenWord (some ((s.stream.drop 8).take s.slen)) ::
          .read 2#64 (some ((s.stream.drop (8 + s.slen)).take 2)) :: .magic ipcMagic ::
          r.steps } := by
  obtain ⟨hread₁, hlong₁⟩ := Sys.read_length hgiven.length
  have hcalloc := Sys.sCalloc_past 1 8 hgiven.memory
  obtain ⟨hread₃, hlong₃⟩ := Sys.read_string hgiven.length hgiven.string
  obtain ⟨hread₄, hlong₄⟩ := Sys.read_magic hgiven.magic
  have hlen : filled (w := 8) slen (some (s.stream.take 8)) = s.slenWord := rfl
  have hmagic : filled (w := 2) magic (some ((s.stream.drop (8 + s.slen)).take 2)) = ipcMagic :=
    hgiven.magicWord_iff.mpr hthere
  simp only [readStrdata, hread₁, hlong₁, hlen, hcalloc, hread₃, hlong₃, hread₄, hlong₄, hmagic,
    if_false, Bool.not_true, Bool.false_eq_true, ne_eq, not_true_eq_false, Option.getD_some]

/-- A record that is given without its magic ends the call. -/
theorem readStrdata_unmarked (n : ℕ) (slen : BitVec 64) (magic : BitVec 16)
    (hgiven : s.RecordGiven) (hthere : ¬ s.MagicAt (8 + s.slen)) :
    ∃ found, found ≠ ipcMagic ∧ (readStrdata (n + 1) slen magic s).steps =
      [.read 8#64 (some (s.stream.take 8)), .calloc (s.slenWord + 1#64) true,
        .read s.slenWord (some ((s.stream.drop 8).take s.slen)),
        .read 2#64 (some ((s.stream.drop (8 + s.slen)).take 2)), .magic found] := by
  obtain ⟨hread₁, hlong₁⟩ := Sys.read_length hgiven.length
  have hcalloc := Sys.sCalloc_past 1 8 hgiven.memory
  obtain ⟨hread₃, hlong₃⟩ := Sys.read_string hgiven.length hgiven.string
  obtain ⟨hread₄, hlong₄⟩ := Sys.read_magic hgiven.magic
  have hlen : filled (w := 8) slen (some (s.stream.take 8)) = s.slenWord := rfl
  have hfound : s.magicWord (8 + s.slen) ≠ ipcMagic := fun h => hthere (hgiven.magicWord_iff.mp h)
  have hmagic : filled (w := 2) magic (some ((s.stream.drop (8 + s.slen)).take 2)) =
    s.magicWord (8 + s.slen) := rfl
  refine ⟨s.magicWord (8 + s.slen), hfound, ?_⟩
  simp only [readStrdata, hread₁, hlong₁, hlen, hcalloc, hread₃, hlong₃, hread₄, hlong₄, hmagic,
    hfound, if_true, if_false, Bool.not_true, Bool.false_eq_true, ne_eq, not_false_eq_true]

/-- A record that is cut short ends the call. -/
theorem readStrdata_cut (hcut : s.RecordCut) :
    ∃ asked got, .read asked got ∈ (readStrdata (n + 1) slen magic s).steps ∧ Short got asked := by
  rcases hcut with hlength | ⟨hlength, hmemory, hstring | ⟨hstring, hmagic⟩⟩
  · have hshort := Sys.cutShort_iff (n := 8#64).mp hlength
    refine ⟨8#64, (s.read 8#64).1, ?_, hshort⟩
    simp only [readStrdata, hshort, if_true, List.mem_singleton]
  · obtain ⟨hread₁, hlong₁⟩ := Sys.read_length hlength
    have hcalloc := Sys.sCalloc_past 1 8 hmemory
    have hshort := Sys.cutShort_iff (s := s.past 1 1 8) (n := s.slenWord).mp
      (Sys.toNat_slenWord hlength ▸ Sys.cutShort_past.mpr hstring)
    have hlen : filled (w := 8) slen (some (s.stream.take 8)) = s.slenWord := rfl
    refine ⟨s.slenWord, ((s.past 1 1 8).read s.slenWord).1, ?_, hshort⟩
    simp only [readStrdata, hread₁, hlong₁, hlen, hcalloc, hshort, if_true, if_false,
      Bool.not_true, Bool.false_eq_true]
    exact .tail _ (.tail _ (.head _))
  · obtain ⟨hread₁, hlong₁⟩ := Sys.read_length hlength
    have hcalloc := Sys.sCalloc_past 1 8 hmemory
    obtain ⟨hread₃, hlong₃⟩ := Sys.read_string hlength hstring
    have hshort := Sys.cutShort_iff (s := s.past 2 1 (8 + s.slen)) (n := 2#64).mp
      (Sys.cutShort_past.mpr hmagic)
    have hlen : filled (w := 8) slen (some (s.stream.take 8)) = s.slenWord := rfl
    refine ⟨2#64, ((s.past 2 1 (8 + s.slen)).read 2#64).1, ?_, hshort⟩
    simp only [readStrdata, hread₁, hlong₁, hlen, hcalloc, hread₃, hlong₃, hshort, if_true,
      if_false, Bool.not_true, Bool.false_eq_true]
    exact .tail _ (.tail _ (.tail _ (.head _)))

/-- The strings of a message, by the steps of the call that reads them. -/
theorem stringsNoticed_steps (slen : BitVec 64) (magic : BitVec 16)
    (hnoticed : s.StringsNoticed n size) :
    let steps := (readStrdata n slen magic s).steps
    (∃ asked got, .read asked got ∈ steps ∧ Short got asked) ∨
      ((∃ found, .magic found ∈ steps ∧ found ≠ ipcMagic) ∧ ∀ k, .calloc k false ∉ steps) ∨
      (∀ step ∈ steps, ¬ step.Fails) ∧
        size + (steps.flatMap ReadStep.delivered).length < 2 ^ 63 := by
  induction n generalizing s size slen magic with
  | zero => exact .inr (.inr ⟨fun step hstep => absurd hstep List.not_mem_nil, hnoticed⟩)
  | succ n ih =>
    rcases hnoticed with hcut | ⟨hgiven, hnext⟩
    · exact .inl (readStrdata_cut hcut)
    by_cases hthere : s.MagicAt (8 + s.slen)
    · rw [readStrdata_given hgiven hthere]
      have hbytes := hgiven.length_parts
      rcases ih s.slenWord ipcMagic (hnext hthere) with
        ⟨asked, got, hmem, hshort⟩ | ⟨⟨found, hmem, hfound⟩, hmemory⟩ | ⟨hclean, hsize⟩
      · exact .inl ⟨asked, got, List.mem_append_right [_, _, _, _, _] hmem, hshort⟩
      · refine .inr (.inl ⟨⟨found, List.mem_append_right [_, _, _, _, _] hmem, hfound⟩, ?_⟩)
        intro k
        simpa using hmemory k
      · refine .inr (.inr ⟨?_, ?_⟩)
        · simpa [ReadStep.Fails] using hclean
        · simp only [List.flatMap_cons, ReadStep.delivered, List.nil_append, List.length_append]
          omega
    · obtain ⟨found, hfound, hsteps⟩ := readStrdata_unmarked n slen magic hgiven hthere
      rw [hsteps]
      refine .inr (.inl ⟨⟨found, by simp, hfound⟩, ?_⟩)
      simp

/-- Conversely, a call in which nothing fails has found its strings in the
stream. -/
theorem stringsNoticed_of_clean (hok : (readStrdata n slen magic s).ok = true)
    (hclean : ∀ step ∈ (readStrdata n slen magic s).steps, ¬ step.Fails)
    (hsize : size + ((readStrdata n slen magic s).steps.flatMap ReadStep.delivered).length <
      2 ^ 63) : s.StringsNoticed n size := by
  induction n generalizing s size slen magic with
  | zero => exact hsize
  | succ n ih =>
    obtain ⟨got₁, s₁, hread₁, h₁, hcase⟩ := readStrdata_succ_ok hok
    rcases hcase with ⟨s₂, -, -, heq⟩ |
      ⟨s₂, got₃, s₃, got₄, s₄, hcalloc, hread₃, h₃, hread₄, h₄, hmagic, hrest, heq⟩
    · rw [heq] at hclean
      exact absurd rfl (hclean _ (List.mem_cons_of_mem _ List.mem_cons_self))
    rw [heq] at hclean hsize
    simp only [List.forall_mem_cons] at hclean
    obtain ⟨hgot₁, -, hgot₃, hgot₄, -, hclean⟩ := hclean
    obtain ⟨bs₁, rfl⟩ := Option.ne_none_iff_exists'.mp hgot₁
    obtain ⟨d, rfl⟩ := Option.ne_none_iff_exists'.mp hgot₃
    obtain ⟨bs₄, rfl⟩ := Option.ne_none_iff_exists'.mp hgot₄
    -- each part was given, and leaves the next one at the head of the stream
    have hlength : s.Given 0 0 8 := Sys.given_of_read (n := 8#64) hread₁ h₁
    obtain ⟨hbs₁, hs₁⟩ := Prod.mk.inj (hread₁.symm.trans (Sys.read_length hlength).1)
    obtain rfl := Option.some.inj hbs₁
    subst hs₁
    have hmemory : s.callocs 0 = true := (Prod.mk.inj hcalloc).1
    obtain rfl := (Prod.mk.inj (hcalloc.symm.trans (Sys.sCalloc_past 1 8 hmemory))).2
    have hstring : s.Given 1 8 s.slen :=
      Sys.given_past.mp (Sys.toNat_slenWord hlength ▸ Sys.given_of_read hread₃ h₃)
    obtain ⟨hd, hs₃⟩ := Prod.mk.inj (hread₃.symm.trans (Sys.read_string hlength hstring).1)
    obtain rfl := Option.some.inj hd
    subst hs₃
    have hmagics : s.Given 2 (8 + s.slen) 2 :=
      Sys.given_past.mp (Sys.given_of_read (n := 2#64) hread₄ h₄)
    obtain ⟨hbs₄, hs₄⟩ := Prod.mk.inj (hread₄.symm.trans (Sys.read_magic hmagics).1)
    subst hs₄
    have hgiven : s.RecordGiven := ⟨hlength, hmemory, hstring, hmagics⟩
    refine .inr ⟨hgiven, fun _ => ih hrest hclean ?_⟩
    have hbytes := hgiven.length_parts
    rw [← Option.some.inj hbs₄] at hbytes
    simp only [List.flatMap_cons, ReadStep.delivered, List.nil_append, List.length_append] at hsize
    omega

end Record

/-! ## Messages -/

section Message

variable {s : Sys} {buf : SoscIpcMsg} {slen : BitVec 64} {magic : BitVec 16}

/-- Such surroundings, by the steps of the call. -/
theorem ReadsNoticed.steps (hnoticed : ReadsNoticed s) : StepsNoticed buf slen magic s := by
  have hsize : (BitVec.ofNat 64 sizeofMsg).toNat = sizeofMsg := by decide
  rcases hnoticed with hfails | hcut | ⟨hgiven, hheader⟩
  · exact .inl hfails
  · exact .inr (.inl ⟨_, _, mem_steps_header buf slen magic s, Sys.cutShort_iff.mp (hsize ▸ hcut)⟩)
  rw [← hsize] at hgiven
  have hread := (Sys.read_given hgiven).1
  have hlong := Sys.not_short_given hgiven
  rw [hsize] at hread hlong
  by_cases hmagic : s.header.magic = ipcMagic
  · obtain ⟨htype, hstrings⟩ := hheader hmagic
    have heq := soscIpcMsgRead_header buf slen magic hread hlong hmagic
    dsimp only at heq
    rw [StepsNoticed, heq, ← Sys.header]
    rcases stringsNoticed_steps slen magic hstrings with
      ⟨asked, got, hmem, hshort⟩ | ⟨⟨found, hmem, hfound⟩, hmemory⟩ | ⟨hclean, hlt⟩
    · exact .inr (.inl ⟨asked, got, List.mem_append_right [_, _] hmem, hshort⟩)
    · refine .inr (.inr (.inl ⟨⟨found, List.mem_append_right [_, _] hmem, hfound⟩, ?_⟩))
      rintro ⟨⟨k, hk⟩, -⟩
      exact hmemory k (by simpa using hk)
    · refine .inr (.inr (.inr ⟨?_, htype, ?_⟩))
      · simpa [ReadStep.Fails] using hclean
      · have hbytes := (Sys.read_given hgiven).2
        rw [hsize] at hbytes
        simpa only [MsgRead.delivered, List.flatMap_cons, ReadStep.delivered, List.nil_append,
          List.length_append, hbytes] using hlt
  · rw [StepsNoticed, soscIpcMsgRead_badMagic hread hlong hmagic]
    refine .inr (.inr (.inl ⟨⟨s.header.magic, .tail _ (.head _), hmagic⟩, ?_⟩))
    rintro ⟨⟨k, hk⟩, -⟩
    simp at hk

/-- A call that succeeds without a failure was given its message. -/
theorem readsNoticed_of_clean (hpos : 0 < (soscIpcMsgRead buf slen magic s).ret)
    (hclean : ∀ step ∈ (soscIpcMsgRead buf slen magic s).steps, ¬ step.Fails)
    (htype : SoscIpcType.ofRaw (soscIpcMsgRead buf slen magic s).msg.type ≠ none)
    (hlt : (soscIpcMsgRead buf slen magic s).delivered.length < 2 ^ 63) : ReadsNoticed s := by
  have hsize : (BitVec.ofNat 64 sizeofMsg).toNat = sizeofMsg := by decide
  obtain ⟨bs, s₁, hread, hlen, -, hok, heq⟩ := soscIpcMsgRead_pos hpos
  have hlong : ¬ Short (some bs) (BitVec.ofNat 64 sizeofMsg) :=
    not_short_inFull ⟨bs, rfl, hlen.trans hsize.symm⟩
  have hgiven := Sys.given_of_read hread hlong
  obtain ⟨hbs, hs₁⟩ := Prod.mk.inj (hread.symm.trans (Sys.read_given hgiven).1)
  rw [hsize] at hgiven hbs hs₁
  obtain rfl := Option.some.inj hbs
  subst hs₁
  rw [heq, ← Sys.header] at hclean htype hlt
  refine .inr (.inr ⟨hgiven, fun _ => ⟨htype, stringsNoticed_of_clean hok ?_ ?_⟩⟩)
  · intro step hstep
    exact hclean step (List.mem_append_right [_, _] hstep)
  · simpa only [MsgRead.delivered, List.flatMap_cons, ReadStep.delivered, List.nil_append,
      List.length_append, hlen] using hlt

end Message

/-- `sosc_ipc_msg_read` does what it should when no failure goes unnoticed.
Otherwise it never does by succeeding: it is right only where it returns `-1`,
and not if a whole message was delivered. -/
theorem readsSoundly_of_noticed (buf : SoscIpcMsg) (slen : BitVec 64) (magic : BitVec 16)
    (s : Sys) :
    (ReadsNoticed s → ReadsSoundly buf slen magic s) ∧
      (¬ ReadsNoticed s →
        let r := soscIpcMsgRead buf slen magic s
        ReadsSoundly buf slen magic s ↔ ¬ 0 < r.ret ∧ ¬ (r.InFull ∧ s.BeginsWithMsg)) := by
  refine ⟨fun hnoticed => readsSoundly_of_steps hnoticed.steps, ?_⟩
  intro hunnoticed r
  constructor
  · intro hsoundly
    have hneg : ¬ 0 < r.ret := by
      intro hpos
      obtain ⟨hclean, htype, hlt⟩ := hsoundly.clean hpos
      exact hunnoticed (readsNoticed_of_clean hpos hclean htype hlt)
    exact ⟨hneg, fun hmsg => hneg (hsoundly.complete hmsg.1 hmsg.2)⟩
  · rintro ⟨hneg, hmsg⟩
    exact ⟨fun hpos => absurd hpos hneg, fun hfull hbegins => absurd ⟨hfull, hbegins⟩ hmsg⟩

/-- A connection whose length word is never read: the second call of `read`
fails, and the variable happens to hold zero. -/
def staleLength : Sys where
  stream := connectionMsg.setMagic.image ++ [0x5C, 0x50]
  reads i := if i = 1 then .fails else .delivers 64
  callocs _ := true

/-- The string of that connection is read although its length is not. -/
theorem not_readsSoundly :
    ¬ ∀ (buf : SoscIpcMsg) (slen : BitVec 64) (magic : BitVec 16) (s : Sys),
      ReadsSoundly buf slen magic s := by
  intro hall
  have hret : (soscIpcMsgRead connectionMsg 0#64 0#16 staleLength).ret = 32 := by rfl
  obtain ⟨hfull, -⟩ := (hall connectionMsg 0#64 0#16 staleLength).sound (by rw [hret]; decide)
  have hmem : .read 8#64 none ∈ (soscIpcMsgRead connectionMsg 0#64 0#16 staleLength).steps :=
    .tail _ (.tail _ (.head _))
  obtain ⟨bs, hbs, -⟩ := hfull _ hmem
  cases hbs

end Serialosc
