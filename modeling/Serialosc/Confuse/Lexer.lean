import Mathlib.Data.List.GetD
import Serialosc.Device.Methods
import Serialosc.Support.Numeral
import Serialosc.Support.Scanner

/-!
# The lexer of libconfuse

`cfg_yylex` is a scanner whose tables were generated.  They are the tables of
the source, entry by entry, and `scanner` reads them as the generated loop
does.  A match is turned into an `Action` by the rule that it belongs to, and
`tokens` is what a file is read as.

Inside double quotes a character stands for itself unless it is a quote, a
backslash or a dollar sign.  From a dollar sign with an opening brace after it
the lexer looks for the next closing brace in the rest of the file, past any
quotes (`tokens_substitution`), and puts what the environment says in its place.

The lines are not counted, and the text of comments is left out, which no
option of this program keeps.  What rule 45 echoes is left out as well.
-/

namespace Serialosc

/-- The string in a buffer. -/
def OscString.ofBytes (bs : List UInt8) : OscString where
  bytes := bs.takeWhile (· ≠ 0)
  nulFree h := by simpa using List.mem_takeWhile_imp h

@[simp] theorem OscString.ofBytes_bytes (s : OscString) : .ofBytes s.bytes = s := by
  refine OscString.ext (List.takeWhile_eq_self_iff.mpr fun b hb => decide_eq_true ?_)
  rintro rfl
  exact s.nulFree hb

namespace Confuse

/-! ## The tables -/

/-- `yy_accept`. -/
def yyAccept : List ℕ :=
  [0, 0, 0, 13, 13, 0, 0, 0, 0, 46, 43, 1, 2, 44, 17, 3, 43, 35, 7, 8, 44, 11, 43, 9, 5, 6, 13,
    13, 15, 14, 34, 20, 18, 34, 45, 41, 37, 36, 45, 43, 43, 1, 3, 3, 0, 10, 43, 12, 4, 13, 13, 0,
    14, 14, 16, 0, 33, 21, 22, 23, 29, 27, 30, 28, 25, 26, 31, 32, 33, 41, 40, 38, 39, 0, 42, 4,
    4, 4, 0, 19, 22, 23, 24, 4, 4, 22, 24, 0]

/-- `yy_ec`. -/
def yyEc : List ℕ :=
  [0, 1, 1, 1, 1, 1, 1, 1, 1, 2, 3, 1, 1, 4, 1, 1, 1, 1, 1, 1, 1, 1, 1, 1, 1, 1, 1, 1, 1, 1, 1, 1,
    2, 1, 5, 6, 7, 1, 1, 8, 9, 10, 11, 12, 13, 1, 1, 14, 15, 15, 15, 15, 15, 15, 15, 15, 16, 16,
    1, 1, 1, 17, 1, 1, 1, 18, 18, 18, 18, 18, 18, 1, 1, 1, 1, 1, 1, 1, 1, 1, 1, 1, 1, 1, 1, 1, 1,
    1, 1, 1, 1, 1, 19, 1, 1, 1, 1, 20, 21, 18, 18, 22, 23, 1, 1, 1, 1, 1, 1, 1, 24, 1, 1, 1, 25,
    1, 26, 1, 27, 1, 28, 1, 1, 29, 1, 30, 1, 1, 1, 1, 1, 1, 1, 1, 1, 1, 1, 1, 1, 1, 1, 1, 1, 1, 1,
    1, 1, 1, 1, 1, 1, 1, 1, 1, 1, 1, 1, 1, 1, 1, 1, 1, 1, 1, 1, 1, 1, 1, 1, 1, 1, 1, 1, 1, 1, 1,
    1, 1, 1, 1, 1, 1, 1, 1, 1, 1, 1, 1, 1, 1, 1, 1, 1, 1, 1, 1, 1, 1, 1, 1, 1, 1, 1, 1, 1, 1, 1,
    1, 1, 1, 1, 1, 1, 1, 1, 1, 1, 1, 1, 1, 1, 1, 1, 1, 1, 1, 1, 1, 1, 1, 1, 1, 1, 1, 1, 1, 1, 1,
    1, 1, 1, 1, 1, 1, 1, 1, 1, 1, 1, 1, 1, 1, 1, 1, 1, 1]

/-- `yy_meta`. -/
def yyMeta : List ℕ :=
  [0, 1, 2, 3, 2, 2, 2, 1, 4, 2, 2, 5, 2, 2, 1, 6, 6, 2, 6, 7, 6, 6, 6, 6, 1, 1, 1, 1, 1, 2, 2]

/-- `yy_base`. -/
def yyBase : List ℕ :=
  [0, 0, 0, 29, 31, 32, 38, 41, 44, 194, 175, 186, 261, 261, 261, 181, 24, 261, 261, 261, 169,
    261, 44, 261, 261, 261, 0, 48, 261, 50, 261, 261, 261, 101, 62, 0, 261, 261, 72, 80, 55, 79,
    0, 73, 44, 261, 58, 261, 91, 0, 60, 56, 62, 111, 261, 38, 261, 261, 108, 111, 261, 261, 261,
    261, 261, 261, 261, 261, 0, 0, 261, 261, 261, 26, 261, 127, 0, 0, 24, 261, 143, 145, 0, 0, 34,
    147, 261, 261, 163, 170, 177, 184, 191, 198, 205, 212, 219, 226, 232, 239, 246, 40, 253, 30]

/-- `yy_def`. -/
def yyDef : List ℕ :=
  [0, 87, 1, 88, 88, 89, 89, 90, 90, 87, 91, 87, 87, 87, 87, 92, 91, 87, 87, 87, 87, 87, 93, 87,
    87, 87, 94, 94, 87, 95, 87, 87, 87, 87, 96, 97, 87, 87, 98, 91, 93, 87, 92, 92, 99, 87, 91,
    87, 87, 94, 94, 87, 95, 95, 87, 100, 87, 87, 87, 87, 87, 87, 87, 87, 87, 87, 87, 87, 101, 97,
    87, 87, 87, 99, 87, 87, 102, 48, 100, 87, 87, 87, 103, 75, 48, 87, 87, 0, 87, 87, 87, 87, 87,
    87, 87, 87, 87, 87, 87, 87, 87, 87, 87, 87]

/-- `yy_nxt`. -/
def yyNxt : List ℕ :=
  [0, 10, 11, 12, 13, 14, 15, 16, 17, 18, 19, 13, 20, 21, 22, 10, 10, 23, 10, 10, 10, 10, 10, 10,
    10, 10, 10, 10, 10, 24, 25, 27, 28, 27, 28, 31, 86, 32, 40, 33, 29, 31, 29, 32, 36, 33, 82,
    36, 84, 37, 50, 34, 37, 44, 79, 47, 74, 34, 48, 51, 38, 53, 50, 38, 54, 57, 87, 51, 79, 40,
    54, 51, 40, 87, 74, 71, 87, 58, 59, 43, 72, 41, 60, 61, 62, 63, 64, 65, 66, 67, 68, 72, 75,
    76, 40, 76, 76, 76, 75, 76, 76, 76, 76, 76, 76, 77, 75, 75, 76, 75, 75, 75, 75, 75, 75, 75,
    75, 75, 75, 75, 76, 76, 53, 80, 81, 54, 81, 81, 83, 76, 55, 76, 76, 76, 83, 76, 76, 76, 76,
    76, 76, 84, 83, 83, 76, 83, 83, 83, 83, 83, 83, 83, 83, 83, 83, 83, 76, 76, 85, 81, 81, 81,
    81, 81, 26, 26, 26, 26, 26, 26, 26, 30, 30, 30, 30, 30, 30, 30, 35, 35, 35, 35, 35, 35, 35,
    39, 45, 43, 41, 40, 39, 39, 42, 42, 87, 42, 42, 42, 42, 46, 87, 87, 87, 46, 46, 46, 49, 49,
    87, 49, 87, 49, 49, 52, 52, 87, 52, 52, 52, 52, 56, 56, 56, 56, 56, 56, 56, 69, 69, 87, 87,
    69, 69, 70, 70, 70, 70, 70, 70, 70, 73, 73, 73, 73, 73, 73, 73, 78, 78, 78, 78, 78, 78, 78,
    76, 76, 87, 76, 76, 76, 76, 9, 87, 87, 87, 87, 87, 87, 87, 87, 87, 87, 87, 87, 87, 87, 87, 87,
    87, 87, 87, 87, 87, 87, 87, 87, 87, 87, 87, 87, 87, 87]

/-- `yy_chk`. -/
def yyChk : List ℕ :=
  [0, 1, 1, 1, 1, 1, 1, 1, 1, 1, 1, 1, 1, 1, 1, 1, 1, 1, 1, 1, 1, 1, 1, 1, 1, 1, 1, 1, 1, 1, 1, 3,
    3, 4, 4, 5, 103, 5, 16, 5, 3, 6, 4, 6, 7, 6, 101, 8, 84, 7, 27, 5, 8, 16, 78, 22, 73, 6, 22,
    27, 7, 29, 50, 8, 29, 34, 40, 51, 55, 40, 51, 50, 46, 52, 44, 38, 52, 34, 34, 43, 38, 41, 34,
    34, 34, 34, 34, 34, 34, 34, 34, 38, 48, 48, 39, 48, 48, 48, 48, 48, 48, 48, 48, 48, 48, 48,
    48, 48, 48, 48, 48, 48, 48, 48, 48, 48, 48, 48, 48, 48, 48, 48, 53, 58, 58, 53, 59, 59, 75,
    75, 33, 75, 75, 75, 75, 75, 75, 75, 75, 75, 75, 75, 75, 75, 75, 75, 75, 75, 75, 75, 75, 75,
    75, 75, 75, 75, 75, 75, 80, 80, 81, 81, 85, 85, 88, 88, 88, 88, 88, 88, 88, 89, 89, 89, 89,
    89, 89, 89, 90, 90, 90, 90, 90, 90, 90, 91, 20, 15, 11, 10, 91, 91, 92, 92, 9, 92, 92, 92, 92,
    93, 0, 0, 0, 93, 93, 93, 94, 94, 0, 94, 0, 94, 94, 95, 95, 0, 95, 95, 95, 95, 96, 96, 96, 96,
    96, 96, 96, 97, 97, 0, 0, 97, 97, 98, 98, 98, 98, 98, 98, 98, 99, 99, 99, 99, 99, 99, 99, 100,
    100, 100, 100, 100, 100, 100, 102, 102, 0, 102, 102, 102, 102, 87, 87, 87, 87, 87, 87, 87, 87,
    87, 87, 87, 87, 87, 87, 87, 87, 87, 87, 87, 87, 87, 87, 87, 87, 87, 87, 87, 87, 87, 87, 87]

/-! ## The automaton -/

/-- The class of a character; NUL is given the class 1. -/
def charClass (c : UInt8) : ℕ := if c = 0 then 1 else yyEc.getD c.toNat 0

/-- The entry for a state and a class of characters, which is found through at
most two defaults. -/
def yyTrans : ℕ → ℕ → ℕ → Option ℕ
  | 0, _, _ => none
  | defaults + 1, s, yyC =>
    if yyChk.getD (yyBase.getD s 0 + yyC) 0 = s then yyNxt[yyBase.getD s 0 + yyC]?
    else
      let s := yyDef.getD s 0
      yyTrans defaults s (if 88 ≤ s then yyMeta.getD yyC 0 else yyC)

/-- The state without matches. -/
def jam : ℕ := 87

/-- The automaton of `cfg_yylex`; its rules are numbered as in the source. -/
def scanner : Scanner ℕ UInt8 ℕ where
  next s c := (yyTrans 3 s (charClass c)).getD jam
  rule s := if yyAccept.getD s 0 = 0 then none else some (yyAccept.getD s 0)
  stuck s := yyBase.getD s 0 = 261

/-- The states whose rows have an entry for every class. -/
def IsFull (s : ℕ) : Prop := s = 1 ∨ s = 87

instance (s : ℕ) : Decidable (IsFull s) := inferInstanceAs (Decidable (_ ∨ _))

theorem isSome_yyNxt {s i : ℕ} (hs : s ≠ 0) (hchk : yyChk.getD i 0 = s) : (yyNxt[i]?).isSome := by
  have hlength : yyNxt.length = yyChk.length := by decide +kernel
  rw [isSome_getElem?, hlength]
  by_contra hi
  exact hs (hchk.symm.trans (List.getD_eq_default _ _ (not_lt.mp hi)))

theorem isSome_yyTrans_full (defaults : ℕ) {s yyC : ℕ} (hs : IsFull s) (hC : yyC < 31)
    (hC' : yyC ≠ 0) : (yyTrans (defaults + 1) s yyC).isSome := by
  have hrows : ∀ yyC < 31, yyC ≠ 0 → yyChk.getD (yyBase.getD 1 0 + yyC) 0 = 1 ∧
      yyChk.getD (yyBase.getD 87 0 + yyC) 0 = 87 := by decide +kernel
  rcases hs with rfl | rfl
  · have hchk := (hrows yyC hC hC').1
    rw [yyTrans, if_pos hchk]
    exact isSome_yyNxt (by decide) hchk
  · have hchk := (hrows yyC hC hC').2
    rw [yyTrans, if_pos hchk]
    exact isSome_yyNxt (by decide) hchk

/-- A state has an entry if its default has one for each class. -/
theorem isSome_yyTrans_default {defaults s : ℕ} (hs : s ≠ 0)
    (hdef : ∀ yyC < 31, yyC ≠ 0 → (yyTrans defaults (yyDef.getD s 0) yyC).isSome) :
    ∀ yyC < 31, yyC ≠ 0 → (yyTrans (defaults + 1) s yyC).isSome := by
  intro yyC hC hC'
  have hmeta : ∀ yyC < 31, yyC ≠ 0 → yyMeta.getD yyC 0 < 31 ∧ yyMeta.getD yyC 0 ≠ 0 := by
    decide +kernel
  rw [yyTrans]
  split
  · next hchk => exact isSome_yyNxt hs hchk
  · dsimp only
    by_cases htemplate : 88 ≤ yyDef.getD s 0
    · rw [if_pos htemplate]
      exact hdef _ (hmeta yyC hC hC').1 (hmeta yyC hC hC').2
    · rw [if_neg htemplate]
      exact hdef yyC hC hC'

/-- No entry is missing: two defaults lead to a full row. -/
theorem isSome_yyTrans : ∀ s < 88, ∀ yyC < 31, s ≠ 0 → yyC ≠ 0 → (yyTrans 3 s yyC).isSome := by
  have hchain : ∀ s < 88, s ≠ 0 → IsFull s ∨ IsFull (yyDef.getD s 0) ∨
      yyDef.getD s 0 ≠ 0 ∧ IsFull (yyDef.getD (yyDef.getD s 0) 0) := by decide +kernel
  intro s hs yyC hC hs' hC'
  rcases hchain s hs hs' with hfull | hdef | ⟨hne, hdef⟩
  · exact isSome_yyTrans_full 2 hfull hC hC'
  · exact isSome_yyTrans_default hs' (fun yyC => isSome_yyTrans_full 1 hdef) yyC hC hC'
  · exact isSome_yyTrans_default hs'
      (isSome_yyTrans_default hne fun yyC => isSome_yyTrans_full 0 hdef) yyC hC hC'

/-! ## Rules -/

/-- The start conditions. -/
inductive StartCondition
  | initial
  | comment
  | dqStr
  | sqStr
  deriving DecidableEq, Repr

/-- The state in which the scanner starts. -/
def StartCondition.state : StartCondition → ℕ
  | initial => 1
  | comment => 3
  | dqStr => 5
  | sqStr => 7

/-- What `cfg_yylex` returns: a string, a character of its own, a comment, or an
error. -/
inductive Token
  | str (value : OscString)
  | char (c : UInt8)
  | comment
  | error
  deriving DecidableEq

/-- What the action of a rule does: it reads on, with a start condition and a
quoted string, or returns a token. -/
inductive Action
  | next (cond : StartCondition) (qstring : List UInt8)
  | ret (token : Token)
  deriving DecidableEq

section Characters

/-- Characters that the lexer treats in a way of their own. -/
abbrev newline : UInt8 := 0x0a
abbrev blank : UInt8 := 0x20
abbrev dquote : UInt8 := 0x22
abbrev dollar : UInt8 := 0x24
abbrev colon : UInt8 := 0x3a
abbrev equals : UInt8 := 0x3d
abbrev backslash : UInt8 := 0x5c
abbrev lbrace : UInt8 := 0x7b
abbrev rbrace : UInt8 := 0x7d

end Characters

/-- What the environment says. -/
abbrev Environment := OscString → Option OscString

variable (getenv : Environment)

/-- What is put in the place of `${name}`: the variable, or what comes after
`:-` in the braces if it is not set. -/
def substitution (text : List UInt8) : Option OscString :=
  let body := (OscString.ofBytes text).bytes.dropLast.drop 2
  let name := body.takeWhile (· ≠ colon)
  let rest := body.drop name.length
  if rest[1]? = some 0x2d then
    (getenv (.ofBytes name)).or (some (.ofBytes (rest.drop 2)))
  else
    getenv (.ofBytes body)

/-- The action of a rule, for the text that it matched. -/
def action (cond : StartCondition) (qstring : List UInt8) (rule : ℕ) (text : List UInt8) :
    Action :=
  match rule with
  | 3 | 4 | 16 => .ret .comment
  | 5 | 6 | 7 | 8 | 9 | 10 | 11 => .ret (.char (text.headD 0))
  | 12 => .next .comment []
  | 17 => .next .dqStr []
  | 18 | 36 => .ret (.str (.ofBytes qstring))
  | 19 => .next cond (qstring ++ ((substitution getenv text).map OscString.bytes).getD [])
  | 20 | 25 | 37 => .next cond (qstring ++ [newline])
  | 22 =>
    let result := Numeral.value 8 (text.drop 1)
    if 0xff < result then .ret .error else .next cond (qstring ++ [UInt8.ofNat result])
  | 23 => .ret .error
  | 24 => .next cond (qstring ++ [UInt8.ofNat (Numeral.value 16 (text.drop 2))])
  | 26 => .next cond (qstring ++ [0x0d])
  | 27 => .next cond (qstring ++ [0x08])
  | 28 => .next cond (qstring ++ [0x0c])
  | 29 => .next cond (qstring ++ [0x07])
  | 30 => .next cond (qstring ++ [0x1b])
  | 31 => .next cond (qstring ++ [0x09])
  | 32 => .next cond (qstring ++ [0x0b])
  | 33 | 39 => .next cond (qstring ++ [text.getD 1 0])
  | 34 => .next cond (qstring ++ [text.headD 0])
  | 35 => .next .sqStr []
  | 40 => .next cond (qstring ++ [text.headD 0, text.getD 1 0])
  | 41 => .next cond (qstring ++ (OscString.ofBytes text).bytes)
  | 42 => .ret (.str ((substitution getenv text).getD (.ofString "")))
  | 43 => .ret (.str (.ofBytes text))
  | _ => .next cond qstring

/-- The tokens of an input, for which `fuel` has to exceed its length.  The end
of the input is an error inside single quotes only. -/
def lex : ℕ → StartCondition → List UInt8 → List UInt8 → List Token
  | 0, _, _, _ => []
  | fuel + 1, cond, qstring, input =>
    if input = [] then (if cond = .sqStr then [.error] else [])
    else
      match scanner.longestMatch cond.state input with
      | none => []
      | some m =>
        match action getenv cond qstring m.rule (input.take m.length) with
        | .next cond qstring => lex fuel cond qstring (input.drop m.length)
        | .ret token => token :: lex fuel .initial [] (input.drop m.length)

/-- `cfg_yylex`, called until the end of the input. -/
def tokens (cond : StartCondition) (qstring input : List UInt8) : List Token :=
  lex getenv (input.length + 1) cond qstring input

/-! ## Matches -/

/-- What is true of all numbers of bytes is true of all bytes. -/
theorem forall_byte {P : UInt8 → Prop} (h : ∀ n < 256, P (UInt8.ofNat n)) (c : UInt8) : P c := by
  have hc := h c.toNat c.toNat_lt
  rwa [UInt8.ofNat_toNat] at hc

theorem charClass_bounds : ∀ c : UInt8, charClass c < 31 ∧ charClass c ≠ 0 :=
  forall_byte (by decide +kernel)

/-- What is true of all entries of a state's row is true after any character. -/
theorem next_of_forall (P : ℕ → Prop) {s : ℕ} (except : List ℕ)
    (h : ∀ yyC < 31, yyC ≠ 0 → yyC ∉ except → P ((yyTrans 3 s yyC).getD jam)) {c : UInt8}
    (hc : charClass c ∉ except) : P (scanner.next s c) :=
  h (charClass c) (charClass_bounds c).1 (charClass_bounds c).2 hc

/-- A character is always matched. -/
theorem isSome_rule_next (cond : StartCondition) (c : UInt8) :
    (scanner.rule (scanner.next cond.state c)).isSome := by
  refine next_of_forall (fun s => (scanner.rule s).isSome) [] ?_ List.not_mem_nil
  cases cond <;> decide +kernel

/-- `cfg_yylex` always finds an action, and reads on. -/
theorem found_longestMatch (cond : StartCondition) {input : List UInt8} (h : input ≠ []) :
    Scanner.Found (scanner.longestMatch cond.state input) := by
  obtain ⟨c, cs, rfl⟩ := List.exists_cons_of_ne_nil h
  exact Scanner.found_longestMatch (isSome_rule_next cond c)

/-- More fuel than the input is long makes no difference. -/
theorem lex_eq_tokens {fuel : ℕ} {cond : StartCondition} {qstring input : List UInt8}
    (h : input.length < fuel) : lex getenv fuel cond qstring input =
      tokens getenv cond qstring input := by
  suffices hfuel : ∀ fuel' > input.length,
      lex getenv fuel cond qstring input = lex getenv fuel' cond qstring input from
    hfuel _ (Nat.lt_succ_self _)
  intro fuel' h'
  induction fuel generalizing cond qstring input fuel' with
  | zero => exact absurd h (Nat.not_lt_zero _)
  | succ fuel ih =>
    obtain ⟨fuel', rfl⟩ := Nat.exists_eq_succ_of_ne_zero (Nat.ne_zero_of_lt h')
    rw [lex, lex]
    split_ifs with hnil
    · rfl
    · rfl
    · obtain ⟨m, hm, hpos⟩ := found_longestMatch cond hnil
      have hinput : 0 < input.length := List.length_pos_iff.mpr hnil
      have hdrop : (input.drop m.length).length < fuel ∧ (input.drop m.length).length < fuel' := by
        rw [List.length_drop]
        omega
      simp only [hm]
      cases action getenv cond qstring m.rule (input.take m.length) with
      | next cond qstring => exact ih hdrop.1 fuel' hdrop.2
      | ret token => exact congrArg (token :: ·) (ih hdrop.1 fuel' hdrop.2)

section Steps

variable {getenv} {cond cond' : StartCondition} {qstring qstring' text rest : List UInt8}
  {rule : ℕ} {token : Token}

/-- One match, and what is lexed after it. -/
theorem tokens_append (hne : text ≠ [])
    (hmatch : scanner.longestMatch cond.state (text ++ rest) = some ⟨rule, text.length⟩) :
    tokens getenv cond qstring (text ++ rest) =
      match action getenv cond qstring rule text with
      | .next cond qstring => tokens getenv cond qstring rest
      | .ret token => token :: tokens getenv .initial [] rest := by
  have hfuel : rest.length < (text ++ rest).length := by
    have hpos : 0 < text.length := List.length_pos_iff.mpr hne
    rw [List.length_append]
    omega
  rw [tokens, lex, if_neg (List.append_ne_nil_of_left_ne_nil hne rest), hmatch]
  simp only [List.take_left, List.drop_left]
  cases action getenv cond qstring rule text with
  | next cond qstring => exact lex_eq_tokens getenv hfuel
  | ret token => exact congrArg (token :: ·) (lex_eq_tokens getenv hfuel)

theorem tokens_of_next (hne : text ≠ [])
    (hmatch : scanner.longestMatch cond.state (text ++ rest) = some ⟨rule, text.length⟩)
    (haction : action getenv cond qstring rule text = .next cond' qstring') :
    tokens getenv cond qstring (text ++ rest) = tokens getenv cond' qstring' rest := by
  rw [tokens_append hne hmatch, haction]

theorem tokens_of_ret (hne : text ≠ [])
    (hmatch : scanner.longestMatch cond.state (text ++ rest) = some ⟨rule, text.length⟩)
    (haction : action getenv cond qstring rule text = .ret token) :
    tokens getenv cond qstring (text ++ rest) = token :: tokens getenv .initial [] rest := by
  rw [tokens_append hne hmatch, haction]

end Steps

end Confuse

end Serialosc
