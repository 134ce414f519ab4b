import Serialosc.Confuse.Lexer
import Mathlib.Data.List.Infix

/-!
# Words and quoted strings

What the lexer makes of the pieces that a printed configuration consists of:
words, blanks, single characters, and strings in double quotes.  A printed
string is read back as it was, whatever the environment says, if no dollar sign
in it has an opening brace after it (`tokens_quoted`).  If one has, then in an
empty environment either closing braces are lost, or the closing quote is
(`garbled_of_substitutes`).
-/

namespace Serialosc.Confuse

variable {getenv : Environment} {qstring rest : List UInt8} {c : UInt8}

/-! ## Words -/

/-- The digits, the letters and the signs in what is printed outside quotes. -/
def IsWord (c : UInt8) : Prop :=
  0x30 ≤ c ∧ c ≤ 0x39 ∨ 0x61 ≤ c ∧ c ≤ 0x7a ∨ c = 0x5f ∨ c = 0x2d

instance (c : UInt8) : Decidable (IsWord c) := inferInstanceAs (Decidable (_ ∨ _))

/-- The classes of the characters that end a word or are none of a word. -/
abbrev delimiters : List ℕ := [2, 3, 4, 5, 6, 7, 8, 9, 10, 11, 12, 13, 14, 17, 29, 30]

theorem charClass_of_isWord : ∀ c : UInt8, IsWord c → charClass c ∉ delimiters :=
  forall_byte (by decide +kernel)

/-- The states in a word. -/
theorem stays_word : scanner.Stays (fun s => s = 10 ∨ s = 39) IsWord (some 43) where
  rule s hs := by
    rcases hs with rfl | rfl <;> rfl
  next s hs c hc := by
    have hdelim := charClass_of_isWord c hc
    rcases hs with rfl | rfl
    · exact next_of_forall (fun s => (s = 10 ∨ s = 39) ∧ scanner.stuck s = false) delimiters
        (by decide +kernel) hdelim
    · exact next_of_forall (fun s => (s = 10 ∨ s = 39) ∧ scanner.stuck s = false) delimiters
        (by decide +kernel) hdelim

theorem jam_of_delimiter (hc : c ∈ [newline, blank, equals, lbrace, rbrace]) (s : ℕ)
    (hs : s = 10 ∨ s = 39) :
    scanner.stuck (scanner.next s c) = true ∧ scanner.rule (scanner.next s c) = none := by
  have hjam : ∀ b ∈ [newline, blank, equals, lbrace, rbrace],
      scanner.next 10 b = jam ∧ scanner.next 39 b = jam := by
    decide +kernel
  obtain ⟨hten, hnine⟩ := hjam c hc
  rcases hs with rfl | rfl
  · rw [hten]
    exact ⟨rfl, rfl⟩
  · rw [hnine]
    exact ⟨rfl, rfl⟩

theorem next_initial_of_isWord (hc : IsWord c) : scanner.next 1 c = 10 :=
  next_of_forall (· = 10) delimiters (by decide +kernel) (charClass_of_isWord c hc)

/-- A word is read up to the character that ends it. -/
theorem tokens_word {w : List UInt8} (hne : w ≠ []) (hw : ∀ b ∈ w, IsWord b)
    (hc : c ∈ [newline, blank, equals, lbrace, rbrace]) :
    tokens getenv .initial qstring (w ++ c :: rest) =
      .str (.ofBytes w) :: tokens getenv .initial [] (c :: rest) := by
  refine tokens_of_ret hne (?_ : scanner.longestMatch 1 _ = some ⟨43, _⟩) rfl
  obtain ⟨a, w, rfl⟩ := List.exists_cons_of_ne_nil hne
  have hfirst : scanner.next 1 a = 10 := next_initial_of_isWord (hw a List.mem_cons_self)
  have hgoes : scanner.stuck (scanner.next 1 a) = false := by
    rw [hfirst]
    rfl
  obtain ⟨last, hscan⟩ := Scanner.longestMatch_cons hgoes (w ++ c :: rest)
  rw [List.cons_append, hscan, hfirst,
    stays_word.scan_of_dead (.inl rfl) (fun b hb => hw b (.tail a hb)) (jam_of_delimiter hc),
    List.length_cons, Nat.add_comm]

/-! ## Blanks and single characters -/

/-- The states in blanks. -/
theorem stays_blank : scanner.Stays (fun s => s = 11 ∨ s = 41) (· = blank) (some 1) where
  rule s hs := by
    rcases hs with rfl | rfl <;> rfl
  next s hs c hc := by
    subst hc
    rcases hs with rfl | rfl
    · exact ⟨.inr rfl, rfl⟩
    · exact ⟨.inr rfl, rfl⟩

/-- Blanks are skipped. -/
theorem tokens_blanks (n : ℕ) (hc : IsWord c ∨ c = lbrace) :
    tokens getenv .initial qstring (List.replicate (n + 1) blank ++ c :: rest) =
      tokens getenv .initial qstring (c :: rest) := by
  have hclass : charClass c ∉ [2] := by
    rcases hc with hword | rfl
    · have hdelim := charClass_of_isWord c hword
      intro hmem
      rw [List.mem_singleton] at hmem
      exact hdelim (hmem ▸ List.mem_cons_self)
    · decide
  have hjam (s : ℕ) (hs : s = 11 ∨ s = 41) : scanner.next s c = jam := by
    rcases hs with rfl | rfl
    · exact next_of_forall (· = jam) [2] (by decide +kernel) hclass
    · exact next_of_forall (· = jam) [2] (by decide +kernel) hclass
  refine tokens_of_next (by simp) (?_ : scanner.longestMatch 1 _ = some ⟨1, _⟩) rfl
  have hfirst : scanner.next 1 blank = 11 := rfl
  have hgoes : scanner.stuck (scanner.next 1 blank) = false := rfl
  obtain ⟨last, hscan⟩ :=
    Scanner.longestMatch_cons hgoes (List.replicate n blank ++ c :: rest)
  have hblank : ∀ b ∈ List.replicate n blank, b = blank := fun _ => List.eq_of_mem_replicate
  rw [List.replicate_succ, List.cons_append, hscan, hfirst,
    stays_blank.scan_of_dead (.inl rfl) hblank, List.length_cons, Nat.add_comm]
  intro s hs
  rw [hjam s hs]
  exact ⟨rfl, rfl⟩

theorem tokens_newline :
    tokens getenv .initial qstring (newline :: rest) = tokens getenv .initial qstring rest :=
  tokens_of_next (List.cons_ne_nil newline [])
    (Scanner.longestMatch_of_stuck rfl rfl : scanner.longestMatch 1 _ = some ⟨2, 1⟩) rfl

/-- Equal signs and braces stand for themselves. -/
theorem tokens_char (hc : c ∈ [equals, lbrace, rbrace]) :
    tokens getenv .initial qstring (c :: rest) = .char c :: tokens getenv .initial [] rest := by
  have hmatch : ∀ b ∈ [equals, lbrace, rbrace], ∃ rule,
      scanner.longestMatch 1 (b :: rest) = some ⟨rule, 1⟩ ∧
        action getenv .initial qstring rule [b] = .ret (.char b) := by
    simp only [List.forall_mem_cons, List.not_mem_nil, false_implies, implies_true, and_true]
    exact ⟨⟨9, Scanner.longestMatch_of_stuck rfl rfl, rfl⟩,
      ⟨5, Scanner.longestMatch_of_stuck rfl rfl, rfl⟩,
      ⟨6, Scanner.longestMatch_of_stuck rfl rfl, rfl⟩⟩
  obtain ⟨rule, hrule, haction⟩ := hmatch c hc
  exact tokens_of_ret (List.cons_ne_nil c []) hrule haction

/-- An opening quote. -/
theorem tokens_dquote : tokens getenv .initial qstring (dquote :: rest) =
    tokens getenv .dqStr [] rest :=
  tokens_of_next (List.cons_ne_nil dquote [])
    (Scanner.longestMatch_of_stuck rfl rfl : scanner.longestMatch 1 _ = some ⟨17, 1⟩) rfl

/-! ## Quoted strings -/

/-- A character in double quotes, as `cfg_opt_nprint_var` prints it. -/
def escape (c : UInt8) : List UInt8 := if c = dquote ∨ c = backslash then [backslash, c] else [c]

/-- There is a dollar sign with an opening brace after it. -/
def Substitutes (s : List UInt8) : Prop := [dollar, lbrace] <:+: s

instance (s : List UInt8) : Decidable (Substitutes s) := inferInstanceAs (Decidable (_ <:+: _))

theorem substitutes_cons {s : List UInt8} :
    Substitutes (c :: s) ↔ c = dollar ∧ s.head? = some lbrace ∨ Substitutes s := by
  rw [Substitutes, List.infix_cons_iff, List.cons_prefix_cons,
    List.singleton_prefix_iff_head?_eq_some, eq_comm, Substitutes]

theorem mem_escape {b : UInt8} (h : b ∈ escape c) : b = backslash ∨ b = c := by
  rw [escape] at h
  split_ifs at h
  · simpa using h
  · exact .inr (List.mem_singleton.mp h)

/-- The characters of a substitution are printed as they are. -/
theorem escape_substitution :
    escape dollar = [dollar] ∧ escape lbrace = [lbrace] ∧ escape rbrace = [rbrace] :=
  ⟨rfl, rfl, rfl⟩

/-- Characters other than backslashes are neither lost nor added. -/
theorem notMem_escape {b : UInt8} {s : List UInt8} (hb : b ≠ backslash) (h : b ∉ s) :
    b ∉ s.flatMap escape := by
  intro hmem
  obtain ⟨c, hc, hbc⟩ := List.mem_flatMap.mp hmem
  rcases mem_escape hbc with hback | rfl
  · exact hb hback
  · exact h hc

/-- The characters with a meaning of their own in double quotes. -/
abbrev special : List UInt8 := [newline, dquote, dollar, backslash]

theorem charClass_of_notMem_special :
    ∀ c : UInt8, c ∉ special → charClass c ∉ [3, 5, 7, 19] :=
  forall_byte (by decide +kernel)

theorem charClass_of_ne_lbrace : ∀ c : UInt8, c ≠ lbrace → charClass c ∉ [29] :=
  forall_byte (by decide +kernel)

theorem charClass_of_ne_rbrace : ∀ c : UInt8, c ≠ rbrace → charClass c ∉ [30] :=
  forall_byte (by decide +kernel)

/-- A dollar sign that no opening brace follows is a match of its own. -/
theorem longestMatch_dollar (h : rest.head? ≠ some lbrace) :
    scanner.longestMatch 5 (dollar :: rest) = some ⟨34, 1⟩ := by
  cases rest with
  | nil => rfl
  | cons d rest =>
    have hd : d ≠ lbrace := by simpa using h
    have hjam : scanner.next 33 d = jam :=
      next_of_forall (· = jam) [29] (by decide +kernel) (charClass_of_ne_lbrace d hd)
    have hstuck : scanner.stuck (scanner.next 33 d) = true := by
      rw [hjam]
      rfl
    obtain ⟨last, hscan⟩ := Scanner.longestMatch_cons (A := scanner) (s := 5) (c := dollar) rfl
      (d :: rest)
    have hfirst : scanner.next 5 dollar = 33 := rfl
    rw [hscan, hfirst, Scanner.scan_of_stuck hstuck, hjam]
    rfl

/-- A character stands for itself, unless a substitution begins there. -/
theorem tokens_plain (hquote : c ≠ dquote) (hback : c ≠ backslash)
    (hdollar : c = dollar → rest.head? ≠ some lbrace) :
    tokens getenv .dqStr qstring (c :: rest) = tokens getenv .dqStr (qstring ++ [c]) rest := by
  by_cases hline : c = newline
  · subst hline
    exact tokens_of_next (List.cons_ne_nil newline [])
      (Scanner.longestMatch_of_stuck rfl rfl : scanner.longestMatch 5 _ = some ⟨20, 1⟩) rfl
  by_cases hc : c = dollar
  · subst hc
    exact tokens_of_next (List.cons_ne_nil dollar []) (longestMatch_dollar (hdollar rfl)) rfl
  · have hnext : scanner.next 5 c = 30 := by
      refine next_of_forall (· = 30) [3, 5, 7, 19] (by decide +kernel)
        (charClass_of_notMem_special c ?_)
      simp only [special, List.mem_cons, List.not_mem_nil, or_false, not_or]
      exact ⟨hline, hquote, hc, hback⟩
    have hmatch : scanner.longestMatch 5 (c :: rest) = some ⟨34, 1⟩ := by
      refine Scanner.longestMatch_of_stuck ?_ ?_
      · rw [hnext]
        rfl
      · rw [hnext]
        rfl
    exact tokens_of_next (List.cons_ne_nil c []) hmatch rfl

/-- What is escaped stands for itself. -/
theorem tokens_escaped (hc : c = dquote ∨ c = backslash) :
    tokens getenv .dqStr qstring (backslash :: c :: rest) =
      tokens getenv .dqStr (qstring ++ [c]) rest := by
  have hmatch : scanner.longestMatch 5 (backslash :: c :: rest) = some ⟨33, 2⟩ := by
    obtain ⟨last, hscan⟩ := Scanner.longestMatch_cons (A := scanner) (s := 5) (c := backslash) rfl
      (c :: rest)
    rw [hscan]
    rcases hc with rfl | rfl
    · exact Scanner.scan_of_stuck rfl
    · exact Scanner.scan_of_stuck rfl
  exact tokens_of_next (List.cons_ne_nil backslash [c]) hmatch rfl

theorem tokens_close : tokens getenv .dqStr qstring (dquote :: rest) =
    .str (.ofBytes qstring) :: tokens getenv .initial [] rest :=
  tokens_of_ret (List.cons_ne_nil dquote [])
    (Scanner.longestMatch_of_stuck rfl rfl : scanner.longestMatch 5 _ = some ⟨18, 1⟩) rfl

/-- The states between the braces of a substitution. -/
theorem stays_substitution :
    scanner.Stays (fun s => s = 55 ∨ s = 78) (· ≠ rbrace) none where
  rule s hs := by
    rcases hs with rfl | rfl <;> rfl
  next s hs c hc := by
    have hclass := charClass_of_ne_rbrace c hc
    rcases hs with rfl | rfl
    · exact next_of_forall (fun s => (s = 55 ∨ s = 78) ∧ scanner.stuck s = false) [30]
        (by decide +kernel) hclass
    · exact next_of_forall (fun s => (s = 55 ∨ s = 78) ∧ scanner.stuck s = false) [30]
        (by decide +kernel) hclass

/-- What a substitution puts in its place. -/
def substituted (getenv : Environment) (body : List UInt8) : List UInt8 :=
  ((substitution getenv (dollar :: lbrace :: (body ++ [rbrace]))).map OscString.bytes).getD []

/-- A substitution reaches to the next closing brace. -/
theorem tokens_substitution {body : List UInt8} (h : rbrace ∉ body) :
    tokens getenv .dqStr qstring (dollar :: lbrace :: (body ++ rbrace :: rest)) =
      tokens getenv .dqStr (qstring ++ substituted getenv body) rest := by
  have hbody : ∀ b ∈ body, b ≠ rbrace := by
    rintro b hb rfl
    exact h hb
  have hfinal (s : ℕ) (hs : s = 55 ∨ s = 78) :
      scanner.stuck (scanner.next s rbrace) = true ∧
        scanner.rule (scanner.next s rbrace) = some 19 := by
    rcases hs with rfl | rfl
    · exact ⟨rfl, rfl⟩
    · exact ⟨rfl, rfl⟩
  obtain ⟨last, hscan⟩ := Scanner.longestMatch_cons (A := scanner) (s := 5) (c := dollar) rfl
      (lbrace :: (body ++ rbrace :: rest))
  have hbrace : scanner.next (scanner.next 5 dollar) lbrace = 55 := rfl
  have hmatch : scanner.longestMatch 5 (dollar :: lbrace :: (body ++ rbrace :: rest)) =
      some ⟨19, (dollar :: lbrace :: (body ++ [rbrace])).length⟩ := by
    rw [hscan, Scanner.scan_of_not_stuck rfl, hbrace,
      stays_substitution.scan_of_final (.inl rfl) hbody hfinal]
    simp only [List.length_cons, List.length_append, List.length_nil]
    congr 2
    omega
  have happend : dollar :: lbrace :: (body ++ rbrace :: rest) =
      (dollar :: lbrace :: (body ++ [rbrace])) ++ rest := by
    simp
  rw [happend] at hmatch ⊢
  exact tokens_of_next (List.cons_ne_nil _ _) hmatch rfl

/-- What a printed string begins with, where a substitution is none. -/
theorem head_flatMap_escape {s : List UInt8} (h : s.head? ≠ some lbrace) :
    (s.flatMap escape ++ dquote :: rest).head? ≠ some lbrace := by
  cases s with
  | nil =>
    intro hquote
    exact absurd (Option.some.inj hquote) (by decide)
  | cons b s =>
    rw [List.flatMap_cons, escape]
    split_ifs
    · intro hback
      exact absurd (Option.some.inj hback) (by decide)
    · exact h

/-- Reading one character of a printed string. -/
theorem tokens_escape {s : List UInt8} (h : ¬ (c = dollar ∧ s.head? = some lbrace)) :
    tokens getenv .dqStr qstring ((c :: s).flatMap escape ++ dquote :: rest) =
      tokens getenv .dqStr (qstring ++ [c]) (s.flatMap escape ++ dquote :: rest) := by
  rw [List.flatMap_cons, List.append_assoc, escape]
  split_ifs with hescaped
  · exact tokens_escaped hescaped
  · rw [not_or] at hescaped
    exact tokens_plain hescaped.1 hescaped.2 fun hc =>
      head_flatMap_escape fun hhead => h ⟨hc, hhead⟩

/-- A printed string without substitutions is read back as it was. -/
theorem tokens_quoted {s : List UInt8} (h : ¬ Substitutes s) :
    tokens getenv .dqStr qstring (s.flatMap escape ++ dquote :: rest) =
      .str (.ofBytes (qstring ++ s)) :: tokens getenv .initial [] rest := by
  induction s generalizing qstring with
  | nil =>
    rw [List.append_nil]
    exact tokens_close
  | cons c s ih =>
    rw [substitutes_cons, not_or] at h
    rw [tokens_escape h.1, ih h.2, List.append_assoc, List.singleton_append]

/-! ## Substitutions in an empty environment -/

/-- No variable is set. -/
def unset : Environment := fun _ => none

/-- Nothing but what is between the braces is put in the place of a
substitution. -/
theorem mem_of_mem_substituted {b : UInt8} {body : List UInt8} (hnul : 0 ∉ body)
    (h : b ∈ substituted unset body) : b ∈ body := by
  have hbytes : (OscString.ofBytes (dollar :: lbrace :: (body ++ [rbrace]))).bytes =
      dollar :: lbrace :: (body ++ [rbrace]) := by
    refine List.takeWhile_eq_self_iff.mpr fun a ha => decide_eq_true ?_
    rintro rfl
    have hbraces : (0 : UInt8) ≠ dollar ∧ (0 : UInt8) ≠ lbrace ∧ (0 : UInt8) ≠ rbrace := by decide
    simp [hnul, hbraces] at ha
  have hbody : (dollar :: lbrace :: (body ++ [rbrace])).dropLast.drop 2 = body := by
    have happend : dollar :: lbrace :: (body ++ [rbrace]) =
        (dollar :: lbrace :: body) ++ [rbrace] := rfl
    rw [happend, List.dropLast_concat]
    rfl
  rw [substituted, substitution] at h
  simp only [hbytes, hbody, unset, Option.none_or] at h
  split_ifs at h
  · exact List.mem_of_mem_drop (List.mem_of_mem_drop ((List.takeWhile_prefix _).subset h))
  · exact absurd h List.not_mem_nil

/-- What a substitution puts in its place has no closing brace. -/
theorem count_substituted {body : List UInt8} (hnul : 0 ∉ body) (hbrace : rbrace ∉ body) :
    (substituted unset body).count rbrace = 0 :=
  List.count_eq_zero.mpr fun h => hbrace (mem_of_mem_substituted hnul h)

/-- The two ways in which a string `s` goes wrong that was printed after
`qstring` and before a closing brace. -/
def Garbled (qstring s before after : List UInt8) : Prop :=
  (∃ value, value.count rbrace < (qstring ++ s).count rbrace ∧
    tokens unset .dqStr qstring (s.flatMap escape ++ dquote :: (before ++ rbrace :: after)) =
      .str (.ofBytes value) :: tokens unset .initial [] (before ++ rbrace :: after)) ∨
  ∃ qstring', tokens unset .dqStr qstring
    (s.flatMap escape ++ dquote :: (before ++ rbrace :: after)) =
      tokens unset .dqStr qstring' after

/-- A substitution that is closed inside the string. -/
theorem garbled_of_closed {body s before after : List UInt8} (hnul : 0 ∉ body)
    (hbody : rbrace ∉ body)
    (h : Substitutes s → ∀ qstring, Garbled qstring s before after) :
    Garbled qstring (dollar :: lbrace :: (body ++ rbrace :: s)) before after := by
  let rest := dquote :: (before ++ rbrace :: after)
  let put := substituted unset (body.flatMap escape)
  have hput : put.count rbrace = 0 :=
    count_substituted (notMem_escape (by decide) hnul) (notMem_escape (by decide) hbody)
  have hcount : ((qstring ++ put) ++ s).count rbrace <
      (qstring ++ dollar :: lbrace :: (body ++ rbrace :: s)).count rbrace := by
    rw [List.count_append, List.count_append, hput, Nat.add_zero, List.count_append]
    refine Nat.add_lt_add_left ?_ _
    have hself : (rbrace :: s).count rbrace = s.count rbrace + 1 := List.count_cons_self
    rw [List.count_cons_of_ne (by decide), List.count_cons_of_ne (by decide),
      List.count_append, hself]
    omega
  have htokens : tokens unset .dqStr qstring
      ((dollar :: lbrace :: (body ++ rbrace :: s)).flatMap escape ++ rest) =
        tokens unset .dqStr (qstring ++ put) (s.flatMap escape ++ rest) := by
    rw [← tokens_substitution (notMem_escape (by decide) hbody)]
    congr 1
    simp [escape_substitution]
  by_cases hs : Substitutes s
  · rcases h hs (qstring ++ put) with ⟨value, hvalue, hclosed⟩ | ⟨qstring', hopen⟩
    · exact .inl ⟨value, hvalue.trans hcount, htokens.trans hclosed⟩
    · exact .inr ⟨qstring', htokens.trans hopen⟩
  · exact .inl ⟨_, hcount, htokens.trans (tokens_quoted hs)⟩

/-- A substitution that is not closed inside the string. -/
theorem garbled_of_open {s before after : List UInt8} (hs : rbrace ∉ s)
    (hbefore : rbrace ∉ before) : Garbled qstring (dollar :: lbrace :: s) before after := by
  refine .inr ⟨qstring ++ substituted unset (s.flatMap escape ++ dquote :: before), ?_⟩
  have hbody : rbrace ∉ s.flatMap escape ++ dquote :: before := by
    rw [List.mem_append, List.mem_cons, not_or, not_or]
    exact ⟨notMem_escape (by decide) hs, by decide, hbefore⟩
  rw [← tokens_substitution hbody]
  congr 1
  simp [escape_substitution]

/-- In an empty environment a printed string with a substitution is read back
with fewer closing braces, or its closing quote is overlooked and the lexer is
still inside of a string after the next closing brace. -/
theorem garbled_of_substitutes {s before after : List UInt8} (hnul : 0 ∉ s)
    (hbefore : rbrace ∉ before) (h : Substitutes s) : Garbled qstring s before after := by
  obtain ⟨n, hn⟩ : ∃ n, s.length ≤ n := ⟨_, le_rfl⟩
  induction n generalizing s qstring with
  | zero =>
    rw [List.length_eq_zero_iff.mp (Nat.le_zero.mp hn)] at h
    exact absurd h (by decide)
  | succ n ih =>
    cases s with
    | nil => exact absurd h (by decide)
    | cons c s =>
      rw [List.length_cons, Nat.add_le_add_iff_right] at hn
      rw [List.mem_cons, not_or] at hnul
      by_cases hhere : c = dollar ∧ s.head? = some lbrace
      · obtain ⟨rfl, hhead⟩ := hhere
        obtain ⟨s, rfl⟩ := List.head?_eq_some_iff.mp hhead
        by_cases hclosed : rbrace ∈ s
        · obtain ⟨body, s, rfl, hbody⟩ := List.eq_append_cons_of_mem hclosed
          simp only [List.mem_cons, List.mem_append, not_or] at hnul
          refine garbled_of_closed hnul.2.2.1 hbody fun hs qstring => ih hnul.2.2.2.2 hs ?_
          simp only [List.length_cons, List.length_append] at hn
          omega
        · exact garbled_of_open hclosed hbefore
      · have hrest : Substitutes s := (substitutes_cons.mp h).resolve_left hhere
        have hgarbled : Garbled (qstring ++ [c]) s before after := ih hnul.2 hrest hn
        rw [Garbled, ← tokens_escape hhere, List.append_assoc, List.singleton_append] at hgarbled
        exact hgarbled

end Serialosc.Confuse
