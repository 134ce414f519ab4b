import Serialosc.Device.Config
import Mathlib.Data.Bool.AllAny

/-!
# Reading a printed configuration

The printer writes a line for each option, and the parser reads the lines back
one by one.  A number survives that if `long` holds it, and a string if there
is no substitution in it: `cfgParse_cfgPrint` says so for the whole file and
every environment.
-/

namespace Serialosc

open Confuse

variable {getenv : Environment} {saved cfg : ConfigValues} {rest : List UInt8}

/-! ## Names and numbers -/

theorem isWord_name (opt : CfgOpt) : opt.name.bytes ≠ [] ∧ ∀ b ∈ opt.name.bytes, IsWord b := by
  have hall : opt.name.bytes ≠ [] ∧ opt.name.bytes.all fun b => IsWord b := by
    rcases opt with opt | opt <;> cases opt <;> decide
  exact hall.imp_right List.all_iff_forall_prop.mp

theorem isWord_secName (sec : CfgSec) :
    sec.name.bytes ≠ [] ∧ ∀ b ∈ sec.name.bytes, IsWord b := by
  have hall : sec.name.bytes ≠ [] ∧ sec.name.bytes.all fun b => IsWord b := by
    cases sec <;> decide
  exact hall.imp_right List.all_iff_forall_prop.mp

theorem isWord_decimal (n : ℤ) : Numeral.decimal n ≠ [] ∧ ∀ b ∈ Numeral.decimal n, IsWord b := by
  have hdigits (k : ℕ) : ∀ b ∈ Numeral.natDigits k, IsWord b := fun b hb =>
    .inl (Numeral.le_of_digitValue_lt (Numeral.digitValue_lt_of_mem b hb))
  by_cases h : 0 ≤ n
  · rw [Numeral.decimal_of_nonneg h]
    exact ⟨Numeral.natDigits_ne_nil _, hdigits _⟩
  · rw [Numeral.decimal_of_neg (by omega)]
    exact ⟨List.cons_ne_nil _ _, List.forall_mem_cons.mpr ⟨by decide, hdigits _⟩⟩

/-- The name of an option of a section is looked up there. -/
theorem cfgGetopt_opt {sec : CfgSec} {opt : CfgOpt} (h : opt ∈ sec.opts) :
    cfgGetopt (some sec) opt.name = some (.opt opt) := by
  revert h
  rcases opt with opt | opt <;> cases opt <;> cases sec <;> decide

theorem cfgGetopt_sec (sec : CfgSec) : cfgGetopt none sec.name = some (.sec sec) := by
  cases sec <;> decide

/-- `long` holds the number. -/
def InLong (n : ℤ) : Prop := Numeral.longMin ≤ n ∧ n ≤ Numeral.longMax

/-- A printed number is read back. -/
theorem cfgNumber_decimal {n : ℤ} (h : InLong n) : cfgNumber (.decimal n) = some n := by
  by_cases hzero : n = 0
  · subst hzero
    decide
  · have hhead : (Numeral.decimal n).head? ≠ some 0x30 := by
      rcases lt_or_gt_of_ne hzero with hneg | hpos
      · rw [Numeral.decimal_of_neg hneg]
        exact fun hminus => absurd (Option.some.inj hminus) (by decide)
      · rw [Numeral.decimal_of_nonneg hpos.le]
        exact Numeral.head_natDigits (by omega)
    have hradix : cfgRadix (OscString.decimal n).bytes = (0, Numeral.decimal n) := if_neg hhead
    rw [cfgNumber, hradix]
    simp only [Numeral.parse_zero_decimal hzero]
    rw [if_neg (not_not.mpr rfl), if_neg (not_or.mpr ⟨not_lt.mpr h.1, not_lt.mpr h.2⟩)]

/-! ## Reading what was printed -/

/-- `cfg_parse_internal` for the rest of a file. -/
def parseFrom (getenv : Environment) (input : List UInt8) (sec : Option CfgSec)
    (state : ParseState) (cfg : ConfigValues) : ConfigValues × Bool :=
  cfgParseInternal (tokens getenv .initial [] input) sec state cfg

/-- The opening line of a section. -/
theorem parseFrom_open (sec : CfgSec) :
    parseFrom getenv (sec.name.bytes ++ blank :: lbrace :: newline :: rest) none .name cfg =
      parseFrom getenv rest (some sec) .name cfg := by
  obtain ⟨hne, hword⟩ := isWord_secName sec
  have hblank : tokens getenv .initial [] (blank :: lbrace :: newline :: rest) =
      tokens getenv .initial [] (lbrace :: newline :: rest) := tokens_blanks 0 (.inr rfl)
  rw [parseFrom, tokens_word hne hword (by decide), hblank, tokens_char (by decide),
    tokens_newline, OscString.ofBytes_bytes, cfgParseInternal, cfgGetopt_sec]
  rfl

/-- The closing line of a section. -/
theorem parseFrom_close (sec : CfgSec) :
    parseFrom getenv (rbrace :: newline :: rest) (some sec) .name cfg =
      parseFrom getenv rest none .name cfg := by
  rw [parseFrom, tokens_char (by decide), tokens_newline]
  rfl

/-- The beginning of the line of an option. -/
theorem parseFrom_name {sec : CfgSec} {opt : CfgOpt} (h : opt ∈ sec.opts) :
    parseFrom getenv (cfgIndent 1 ++ (opt.name.bytes ++ equals :: rest)) (some sec) .name cfg =
      parseFrom getenv rest (some sec) (.value opt) cfg := by
  obtain ⟨hne, hword⟩ := isWord_name opt
  have hindent : tokens getenv .initial [] (cfgIndent 1 ++ (opt.name.bytes ++ equals :: rest)) =
      tokens getenv .initial [] (opt.name.bytes ++ equals :: rest) := by
    obtain ⟨b, bs, hbs⟩ := List.exists_cons_of_ne_nil hne
    rw [hbs, List.cons_append]
    exact tokens_blanks 1 (.inl (hword b (by rw [hbs]; exact List.mem_cons_self)))
  rw [parseFrom, hindent, tokens_word hne hword (by decide), tokens_char (by decide),
    OscString.ofBytes_bytes, cfgParseInternal, cfgGetopt_opt h]
  rfl

/-- The number of an option. -/
theorem parseFrom_number {sec : Option CfgSec} {opt : IntOpt} {n : ℤ} (h : InLong n) :
    parseFrom getenv (Numeral.decimal n ++ newline :: rest) sec (.value (.int opt)) cfg =
      parseFrom getenv rest sec .name (cfg.setNumber n opt) := by
  obtain ⟨hne, hword⟩ := isWord_decimal n
  have hstr : OscString.ofBytes (Numeral.decimal n) = .decimal n :=
    OscString.ofBytes_bytes (.decimal n)
  rw [parseFrom, tokens_word hne hword (by decide), tokens_newline, hstr, cfgParseInternal,
    cfgSetopt, cfgNumber_decimal h]
  rfl

/-- The string of an option. -/
theorem parseFrom_string {sec : Option CfgSec} {opt : StrOpt} {s : OscString}
    (h : ¬ Substitutes s.bytes) :
    parseFrom getenv (dquote :: (s.bytes.flatMap escape ++ dquote :: newline :: rest)) sec
        (.value (.str opt)) cfg =
      parseFrom getenv rest sec .name (cfg.setString s opt) := by
  rw [parseFrom, tokens_dquote, tokens_quoted h, List.nil_append, OscString.ofBytes_bytes,
    tokens_newline]
  rfl

/-- The value of an option is read back if it is printed. -/
def Faithful (saved : ConfigValues) : CfgOpt → Prop
  | .int o => InLong (saved.number o)
  | .str o => ¬ Substitutes (saved.string o).bytes

/-- The options with the value of one of them taken over. -/
def ConfigValues.copy (saved cfg : ConfigValues) : CfgOpt → ConfigValues
  | .int o => cfg.setNumber (saved.number o) o
  | .str o => cfg.setString (saved.string o) o

theorem parseFrom_opt {sec : CfgSec} {opt : CfgOpt} (h : opt ∈ sec.opts)
    (hsaved : Faithful saved opt) :
    parseFrom getenv (cfgOptPrint saved 1 opt ++ rest) (some sec) .name cfg =
      parseFrom getenv rest (some sec) .name (saved.copy cfg opt) := by
  rw [cfgOptPrint, List.append_assoc, List.append_assoc, List.cons_append, parseFrom_name h]
  cases opt with
  | int opt =>
    rw [cfgOptNprintVar, List.append_assoc]
    exact parseFrom_number hsaved
  | str opt =>
    rw [cfgOptNprintVar, List.cons_append, List.append_assoc, List.cons_append,
      List.append_assoc]
    exact parseFrom_string hsaved

theorem parseFrom_opts {sec : CfgSec} {opts : List CfgOpt} (h : ∀ opt ∈ opts, opt ∈ sec.opts)
    (hsaved : ∀ opt ∈ opts, Faithful saved opt) :
    parseFrom getenv (opts.flatMap (cfgOptPrint saved 1) ++ rest) (some sec) .name cfg =
      parseFrom getenv rest (some sec) .name (opts.foldl saved.copy cfg) := by
  induction opts generalizing cfg with
  | nil => rfl
  | cons opt opts ih =>
    rw [List.forall_mem_cons] at h hsaved
    rw [List.flatMap_cons, List.append_assoc, parseFrom_opt h.1 hsaved.1, ih h.2 hsaved.2,
      List.foldl_cons]

theorem parseFrom_sec (sec : CfgSec) (hsaved : ∀ opt ∈ sec.opts, Faithful saved opt) :
    parseFrom getenv (cfgSecPrint saved 0 sec ++ rest) none .name cfg =
      parseFrom getenv rest none .name (sec.opts.foldl saved.copy cfg) := by
  have hprint : cfgSecPrint saved 0 sec ++ rest =
      sec.name.bytes ++ blank :: lbrace :: newline ::
        (sec.opts.flatMap (cfgOptPrint saved 1) ++ rbrace :: newline :: rest) := by
    simp [cfgSecPrint, cfgIndent]
  rw [hprint, parseFrom_open, parseFrom_opts (fun _ => id) hsaved, parseFrom_close]

/-- What is printed is read back, whatever the environment says. -/
theorem cfgParse_cfgPrint (hsaved : ∀ opt, Faithful saved opt) :
    cfgParse getenv (some (cfgPrint saved)) = (saved, .success) := by
  have hparse : parseFrom getenv (cfgPrint saved) none .name .default = (saved, true) := by
    rw [cfgPrint, cfgOpts, List.flatMap_cons, List.flatMap_cons, List.flatMap_cons,
      List.flatMap_nil, parseFrom_sec _ fun opt _ => hsaved opt,
      parseFrom_sec _ fun opt _ => hsaved opt, parseFrom_sec _ fun opt _ => hsaved opt]
    rfl
  rw [parseFrom] at hparse
  rw [cfgParse, hparse]

end Serialosc
