import Serialosc.Device.Printed

/-!
# Restoring saved settings

A device server saves its prefix, the host and the port of its application and
its rotation, and reads them again when it is started the next time.  Three
things are lost on the way: a port of zero, which is written as a number and
read as no port, and a prefix or a host in which the lexer finds a
substitution.  `restored_iff` says that nothing else is.

That a substitution is lost is shown for an environment without variables.  If
it is closed inside the string, then a closing brace is missing in what is read
back.  If it is not, then it ends in the text of another option, which is then
not read.
-/

namespace Serialosc

open Confuse

variable {getenv : Environment} {saved cfg : ConfigValues}

/-! ## Strings with substitutions -/

/-- What is printed after the host. -/
def afterHost (saved : ConfigValues) : List UInt8 :=
  newline :: (cfgOptPrint saved 1 (.int .port) ++
    rbrace :: newline :: cfgSecPrint saved 0 .device)

/-- What is printed after the prefix. -/
def afterPrefix (saved : ConfigValues) : List UInt8 :=
  newline :: (cfgIndent 1 ++ ((CfgOpt.str .host).name.bytes ++
    equals :: dquote :: (saved.host.bytes.flatMap escape ++ dquote :: afterHost saved)))

theorem cfgPrint_eq (saved : ConfigValues) :
    cfgPrint saved = cfgSecPrint saved 0 .server ++ (CfgSec.application.name.bytes ++
      blank :: lbrace :: newline :: (cfgIndent 1 ++ ((CfgOpt.str .oscPrefix).name.bytes ++
        equals :: dquote ::
          (saved.oscPrefix.bytes.flatMap escape ++ dquote :: afterPrefix saved)))) := by
  simp [cfgPrint, cfgOpts, cfgSecPrint, CfgSec.opts, cfgOptPrint, cfgOptNprintVar,
    ConfigValues.string, cfgIndent, afterPrefix, afterHost]

theorem parseFrom_afterHost (hnumber : ∀ o, InLong (saved.number o)) :
    parseFrom getenv (afterHost saved) (some .application) .name cfg =
      (saved.copy (saved.copy cfg (.int .port)) (.int .rotation), true) := by
  have hport : Faithful saved (.int .port) := hnumber .port
  have hdevice : ∀ opt ∈ CfgSec.device.opts, Faithful saved opt :=
    List.forall_mem_singleton.mpr (hnumber .rotation)
  have hline : parseFrom getenv (afterHost saved) (some .application) .name cfg =
      parseFrom getenv (cfgOptPrint saved 1 (.int .port) ++
        rbrace :: newline :: (cfgSecPrint saved 0 .device ++ []))
          (some .application) .name cfg := by
    rw [List.append_nil, parseFrom, afterHost, tokens_newline, parseFrom]
  rw [hline, parseFrom_opt (by decide) hport, parseFrom_close, parseFrom_sec _ hdevice]
  rfl

/-- What numbers are printed with. -/
theorem mem_cfgOptPrint_int {opt : IntOpt} {c : UInt8}
    (h : c ∈ cfgOptPrint saved 1 (.int opt)) : IsWord c ∨ c ∈ [blank, equals, newline] := by
  have hindent : ∀ b ∈ cfgIndent 1, b ∈ [blank, equals, newline] :=
    List.all_iff_forall_prop.mp (by decide)
  rw [cfgOptPrint, cfgOptNprintVar] at h
  rcases List.mem_append.mp h with hblank | h
  · exact .inr (hindent c hblank)
  rcases List.mem_append.mp h with hname | h
  · exact .inl ((isWord_name _).2 c hname)
  rcases List.mem_cons.mp h with hequals | h
  · exact .inr (by rw [hequals]; decide)
  rcases List.mem_append.mp h with hnumber | hline
  · exact .inl ((isWord_decimal _).2 c hnumber)
  · exact .inr (by rw [List.mem_singleton.mp hline]; decide)

theorem rbrace_notMem_cfgOptPrint_int (saved : ConfigValues) (opt : IntOpt) :
    rbrace ∉ newline :: cfgOptPrint saved 1 (.int opt) := by
  rw [List.mem_cons, not_or]
  refine ⟨by decide, fun h => ?_⟩
  rcases mem_cfgOptPrint_int h with hword | hmem
  · exact absurd hword (by decide)
  · exact absurd hmem (by decide)

/-- What follows the section of the application has no quotes. -/
theorem notMem_special_of_device {c : UInt8}
    (h : c ∈ newline :: cfgSecPrint saved 0 .device) : c ∉ [dquote, backslash, dollar] := by
  have hspecial : [dquote, backslash, dollar].all fun b => ¬ IsWord b ∧
      b ∉ [blank, equals, newline] ∧
        b ∉ newline :: (CfgSec.device.name.bytes ++ [blank, lbrace, newline]) ∧
          b ∉ [rbrace, newline] := by
    decide
  have hprint : newline :: cfgSecPrint saved 0 .device =
      newline :: (CfgSec.device.name.bytes ++ [blank, lbrace, newline]) ++
        (cfgOptPrint saved 1 (.int .rotation) ++ [rbrace, newline]) := by
    simp [cfgSecPrint, cfgIndent, CfgSec.opts]
  intro hc
  obtain ⟨hword, hline, hopening, hclosing⟩ := List.all_iff_forall_prop.mp hspecial c hc
  rw [hprint] at h
  rcases List.mem_append.mp h with hfront | h
  · exact hopening hfront
  rcases List.mem_append.mp h with hopt | hback
  · exact (mem_cfgOptPrint_int hopt).elim hword hline
  · exact hclosing hback

/-- Inside of double quotes, nothing is a token where there are no quotes. -/
theorem tokens_of_unquoted {s qstring : List UInt8}
    (h : ∀ c ∈ s, c ∉ [dquote, backslash, dollar]) : tokens getenv .dqStr qstring s = [] := by
  induction s generalizing qstring with
  | nil => rfl
  | cons c s ih =>
    obtain ⟨hc, hs⟩ := List.forall_mem_cons.mp h
    simp only [List.mem_cons, List.not_mem_nil, or_false, not_or] at hc
    rw [tokens_plain hc.1 hc.2.1 fun heq => absurd heq hc.2.2]
    exact ih hs

/-- Inside of double quotes, nothing after the section of the application is a
token. -/
theorem tokens_device (saved : ConfigValues) (qstring : List UInt8) :
    tokens getenv .dqStr qstring (newline :: cfgSecPrint saved 0 .device) = [] :=
  tokens_of_unquoted fun _ => notMem_special_of_device

/-- What becomes of the options where `s` and what follows the host are still to
be read, as the end of a string. -/
def parseLast (saved : ConfigValues) (qstring s : List UInt8) (opt : StrOpt)
    (cfg : ConfigValues) : ConfigValues × Bool :=
  cfgParseInternal (tokens unset .dqStr qstring (s.flatMap escape ++ dquote :: afterHost saved))
    (some .application) (.value (.str opt)) cfg

/-- The string becomes the value of the option, or the file ends in it. -/
theorem parseLast_cases (hnumber : ∀ o, InLong (saved.number o)) {s : List UInt8}
    (hnul : 0 ∉ s) (qstring : List UInt8) (opt : StrOpt) (cfg : ConfigValues) :
    (∃ value, (Substitutes s → value.count rbrace < (qstring ++ s).count rbrace) ∧
      (parseLast saved qstring s opt cfg).1 =
        saved.copy (saved.copy (cfg.setString (.ofBytes value) opt) (.int .port))
          (.int .rotation)) ∨
      Substitutes s ∧ (parseLast saved qstring s opt cfg).1 = cfg := by
  have hread (value : List UInt8) :
      (cfgParseInternal (.str (.ofBytes value) :: tokens unset .initial [] (afterHost saved))
          (some .application) (.value (.str opt)) cfg).1 =
        saved.copy (saved.copy (cfg.setString (.ofBytes value) opt) (.int .port))
          (.int .rotation) :=
    congrArg Prod.fst (parseFrom_afterHost hnumber)
  by_cases hs : Substitutes s
  · have hsplit : (newline :: cfgOptPrint saved 1 (.int .port)) ++
        rbrace :: newline :: cfgSecPrint saved 0 .device = afterHost saved := rfl
    have hgarbled : Garbled qstring s (newline :: cfgOptPrint saved 1 (.int .port))
        (newline :: cfgSecPrint saved 0 .device) :=
      garbled_of_substitutes hnul (rbrace_notMem_cfgOptPrint_int saved .port) hs
    rw [Garbled, hsplit] at hgarbled
    rcases hgarbled with ⟨value, hvalue, hclosed⟩ | ⟨_, hopen⟩
    · refine .inl ⟨value, fun _ => hvalue, ?_⟩
      rw [parseLast, hclosed, hread]
    · refine .inr ⟨hs, ?_⟩
      rw [parseLast, hopen, tokens_device]
      rfl
  · refine .inl ⟨qstring ++ s, fun h => absurd h hs, ?_⟩
    rw [parseLast, tokens_quoted hs, hread]

/-- No other string is changed. -/
theorem string_parseLast (hnumber : ∀ o, InLong (saved.number o)) {s : List UInt8}
    (hnul : 0 ∉ s) (qstring : List UInt8) {opt : StrOpt} (other : StrOpt) (hne : other ≠ opt)
    (cfg : ConfigValues) :
    (parseLast saved qstring s opt cfg).1.string other = cfg.string other := by
  rcases parseLast_cases hnumber hnul qstring opt cfg with ⟨value, -, heq⟩ | ⟨-, heq⟩
  · rw [heq]
    cases opt <;> cases other <;> first | rfl | exact absurd rfl hne
  · rw [heq]

theorem count_ofBytes_le (value : List UInt8) :
    (OscString.ofBytes value).bytes.count rbrace ≤ value.count rbrace :=
  (List.takeWhile_prefix _).sublist.count_le rbrace

/-- A host with a substitution is not read back. -/
theorem host_parseLast_ne (hnumber : ∀ o, InLong (saved.number o))
    (h : Substitutes saved.host.bytes) (hcfg : cfg.host ≠ saved.host) :
    (parseLast saved [] saved.host.bytes .host cfg).1.host ≠ saved.host := by
  rcases parseLast_cases hnumber saved.host.nulFree [] .host cfg with
    ⟨value, hvalue, heq⟩ | ⟨-, heq⟩
  · have hcount : (OscString.ofBytes value).bytes.count rbrace < saved.host.bytes.count rbrace :=
      (count_ofBytes_le value).trans_lt (hvalue h)
    rw [heq]
    intro hsame
    have hbytes : (OscString.ofBytes value).bytes = saved.host.bytes :=
      congrArg OscString.bytes hsame
    rw [hbytes] at hcount
    exact Nat.lt_irrefl _ hcount
  · rwa [heq]

theorem parseFrom_afterPrefix (saved cfg : ConfigValues) :
    parseFrom unset (afterPrefix saved) (some .application) .name cfg =
      parseLast saved [] saved.host.bytes .host cfg := by
  have hhost : CfgOpt.str .host ∈ CfgSec.application.opts := by decide
  have hline : parseFrom unset (afterPrefix saved) (some .application) .name cfg =
      parseFrom unset (cfgIndent 1 ++ ((CfgOpt.str .host).name.bytes ++
        equals :: dquote :: (saved.host.bytes.flatMap escape ++ dquote :: afterHost saved)))
          (some .application) .name cfg := by
    rw [parseFrom, afterPrefix, tokens_newline, parseFrom]
  rw [hline, parseFrom_name hhost, parseFrom, tokens_dquote, parseLast]

/-- What is printed between the prefix and the characters of the host. -/
def beforeHost : List UInt8 :=
  newline :: (cfgIndent 1 ++ ((CfgOpt.str .host).name.bytes ++ [equals, dquote]))

theorem rbrace_notMem_beforeHost_append {s : List UInt8} (h : rbrace ∉ s) :
    rbrace ∉ beforeHost ++ s := fun hmem =>
  (List.mem_append.mp hmem).elim (by decide) h

/-- What follows the prefix up to the next closing brace, and what is read if
the prefix goes on after that brace: the host is not, or nothing is. -/
theorem exists_split_afterPrefix (hnumber : ∀ o, InLong (saved.number o))
    (hcfg : rbrace ∉ cfg.host.bytes) :
    ∃ before after, afterPrefix saved = before ++ rbrace :: after ∧ rbrace ∉ before ∧
      ∀ qstring result, cfgParseInternal (tokens unset .dqStr qstring after)
          (some .application) (.value (.str .oscPrefix)) cfg = result →
        result.1.host ≠ saved.host ∨ result.1 = cfg := by
  by_cases hmem : rbrace ∈ saved.host.bytes
  · obtain ⟨body, s, hhost, hbody⟩ := List.eq_append_cons_of_mem hmem
    have hnul : 0 ∉ s := fun h => saved.host.nulFree (by simp [hhost, h])
    refine ⟨beforeHost ++ body.flatMap escape, s.flatMap escape ++ dquote :: afterHost saved, ?_,
      rbrace_notMem_beforeHost_append (notMem_escape (by decide) hbody), ?_⟩
    · simp [afterPrefix, beforeHost, hhost, escape_substitution]
    · rintro qstring _ rfl
      have hsame : (parseLast saved qstring s .oscPrefix cfg).1.host = cfg.host :=
        string_parseLast hnumber hnul qstring .host (by decide) cfg
      refine .inl fun heq => hcfg ?_
      rwa [← hsame.symm.trans heq] at hmem
  · have hbefore : rbrace ∉ saved.host.bytes.flatMap escape ++ dquote :: newline ::
        cfgOptPrint saved 1 (.int .port) := by
      rw [List.mem_append, List.mem_cons, not_or, not_or]
      exact ⟨notMem_escape (by decide) hmem, by decide,
        rbrace_notMem_cfgOptPrint_int saved .port⟩
    refine ⟨_, newline :: cfgSecPrint saved 0 .device, ?_,
      rbrace_notMem_beforeHost_append hbefore, ?_⟩
    · simp [afterPrefix, afterHost, beforeHost]
    · rintro qstring _ rfl
      rw [tokens_device]
      exact .inr rfl

/-- Prepending a slash adds no closing brace. -/
theorem count_newPrefix (s : OscString) :
    (newPrefix s).bytes.count rbrace = s.bytes.count rbrace := by
  rw [newPrefix]
  split_ifs
  · exact List.count_cons_of_ne (by decide)
  · rfl

theorem cfgParse_fst (contents : List UInt8) :
    (cfgParse getenv (some contents)).1 = (parseFrom getenv contents none .name .default).1 := by
  rw [cfgParse, ← parseFrom]
  rcases parseFrom getenv contents none .name .default with ⟨cfg, _ | _⟩ <;> rfl

/-- Reading a printed configuration up to the characters of the prefix. -/
theorem cfgParse_cfgPrint_fst (hnumber : ∀ o, InLong (saved.number o)) :
    (cfgParse getenv (some (cfgPrint saved))).1 =
      (cfgParseInternal (tokens getenv .dqStr []
        (saved.oscPrefix.bytes.flatMap escape ++ dquote :: afterPrefix saved))
          (some .application) (.value (.str .oscPrefix))
            (saved.copy .default (.int .serverPort))).1 := by
  have hserver : ∀ opt ∈ CfgSec.server.opts, Faithful saved opt :=
    List.forall_mem_singleton.mpr (hnumber .serverPort)
  have hosc : CfgOpt.str .oscPrefix ∈ CfgSec.application.opts := by decide
  rw [cfgParse_fst, cfgPrint_eq, parseFrom_sec _ hserver, parseFrom_open, parseFrom_name hosc,
    parseFrom, tokens_dquote]
  rfl

/-- The prefix is read, and the host is next. -/
theorem parse_prefix (saved cfg : ConfigValues) (value : OscString) :
    cfgParseInternal (.str value :: tokens unset .initial [] (afterPrefix saved))
        (some .application) (.value (.str .oscPrefix)) cfg =
      parseLast saved [] saved.host.bytes .host (cfg.setString value .oscPrefix) :=
  parseFrom_afterPrefix saved _

/-- A prefix with a substitution is not read back, or the host is not. -/
theorem ne_of_substitutes_prefix (hnumber : ∀ o, InLong (saved.number o))
    (hbrace : rbrace ∉ cfg.host.bytes) (hcfg : newPrefix cfg.oscPrefix ≠ saved.oscPrefix)
    (h : Substitutes saved.oscPrefix.bytes) {result : ConfigValues × Bool}
    (hresult : cfgParseInternal (tokens unset .dqStr []
      (saved.oscPrefix.bytes.flatMap escape ++ dquote :: afterPrefix saved))
        (some .application) (.value (.str .oscPrefix)) cfg = result) :
    newPrefix result.1.oscPrefix ≠ saved.oscPrefix ∨ result.1.host ≠ saved.host := by
  obtain ⟨before, after, hsplit, hbefore, hopened⟩ := exists_split_afterPrefix hnumber hbrace
  have hgarbled : Garbled [] saved.oscPrefix.bytes before after :=
    garbled_of_substitutes saved.oscPrefix.nulFree hbefore h
  rw [Garbled, ← hsplit, List.nil_append] at hgarbled
  rcases hgarbled with ⟨value, hvalue, hclosed⟩ | ⟨qstring, hopen⟩
  · have hread : result.1.oscPrefix = .ofBytes value := by
      rw [← hresult, hclosed, parse_prefix]
      exact string_parseLast hnumber saved.host.nulFree [] .oscPrefix (by decide) _
    refine .inl fun heq => ?_
    rw [hread] at heq
    have hcount := count_newPrefix (.ofBytes value)
    rw [heq] at hcount
    exact absurd (hcount ▸ count_ofBytes_le value) (not_le.mpr hvalue)
  · rw [hopen] at hresult
    rcases hopened qstring _ hresult with hne | hnone
    · exact .inr hne
    · rw [hnone]
      exact .inl hcfg

/-- In an empty environment a prefix or a host with a substitution is not read
back. -/
theorem ne_of_substitutes (hnumber : ∀ o, InLong (saved.number o))
    (h : Substitutes saved.oscPrefix.bytes ∨ Substitutes saved.host.bytes) :
    (soscConfigReadFile unset (some (cfgPrint saved))).oscPrefix ≠ saved.oscPrefix ∨
      (soscConfigReadFile unset (some (cfgPrint saved))).host ≠ saved.host := by
  -- no default has a substitution
  have hdefault {s t : OscString} (ht : ¬ Substitutes t.bytes) (hs : Substitutes s.bytes) :
      t ≠ s := fun heq => ht (heq ▸ hs)
  rw [soscConfigReadFile, cfgParse_cfgPrint_fst hnumber]
  simp only [soscConfigRead]
  let cfg := saved.copy .default (.int .serverPort)
  have hhost : cfg.host = ConfigValues.default.host := rfl
  have hosc : cfg.oscPrefix = ConfigValues.default.oscPrefix := rfl
  by_cases hsub : Substitutes saved.oscPrefix.bytes
  · refine ne_of_substitutes_prefix hnumber ?_ ?_ hsub rfl
    · rw [hhost]
      decide
    · rw [hosc]
      exact hdefault (by decide) hsub
  · have hsubHost : Substitutes saved.host.bytes := h.resolve_left hsub
    have hne : cfg.host ≠ saved.host := by
      rw [hhost]
      exact hdefault (by decide) hsubHost
    rw [tokens_quoted hsub, parse_prefix]
    exact .inr (host_parseLast_ne hnumber hsubHost hne)

/-! ## The settings of a running server -/

theorem newPrefix_newPrefix (s : OscString) : newPrefix (newPrefix s) = newPrefix s := by
  have hslash : (newPrefix s).bytes.head? = some OscString.slash := by
    rw [newPrefix]
    split_ifs with h
    · rfl
    · exact not_not.mp h
  rw [newPrefix, if_neg (not_not.mpr hslash)]

namespace Device

variable {monome : Monome}

/-- The prefix begins with a slash, and the port is a number that is cut off
after five characters. -/
structure Settled (s : DeviceServer) : Prop where
  oscPrefix : newPrefix s.osc.oscPrefix = s.osc.oscPrefix
  port : ∀ p, s.outgoing.port = some p → ∃ n, p = (OscString.decimal n).take 5

theorem settled_serverRun (cfg : ConfigValues) : Settled (serverRun (soscConfigRead cfg)) where
  oscPrefix := newPrefix_newPrefix cfg.oscPrefix
  port p hp := by
    have hport : nullIfZero (soscPortItos cfg.port) = some p := hp
    rw [nullIfZero] at hport
    split_ifs at hport with hnil
    obtain rfl := Option.some.inj hport
    rw [soscPortItos] at hnil ⊢
    split_ifs at hnil ⊢
    · exact ⟨cfg.port, rfl⟩
    · exact absurd rfl hnil

theorem settled_of_sends {P : OscAddress → Prop} {s s' : DeviceServer} (h : s.Sends P s')
    (hs : Settled s) : Settled s' where
  oscPrefix := by
    rw [h.osc]
    exact hs.oscPrefix
  port := by
    rw [h.outgoing]
    exact hs.port

theorem Settled.changeRotation {s : DeviceServer} (hs : Settled s) (new : UInt32) :
    Settled (changeRotation monome new s) := by
  rcases changeRotation_spec monome new s with ⟨-, heq⟩ | ⟨-, hsends⟩
  · rwa [heq]
  · exact settled_of_sends hsends ⟨hs.oscPrefix, hs.port⟩

theorem Settled.handle {s s' : DeviceServer} {e : SysEvent} (hs : Settled s)
    (h : handle monome s e = some s') : Settled s' := by
  obtain ⟨m, allocated⟩ := e
  cases m with
  | info prop host port => exact settled_of_sends (infoPropHandler_spec h) hs
  | infoDefault prop => exact settled_of_sends (infoPropHandlerDefault_spec h) hs
  | cable arg =>
    obtain rfl := Option.some.inj h
    rw [sysCableLegacyHandler]
    cases cableRotation arg.first with
    | none => exact hs
    | some new => exact hs.changeRotation new
  | rotation arg =>
    obtain rfl := Option.some.inj h
    exact hs.changeRotation _
  | port arg =>
    rcases sysPortHandler_spec h with ⟨-, rfl⟩ | ⟨-, hsends⟩
    · exact hs
    · refine settled_of_sends hsends ⟨hs.oscPrefix, fun p hp => ⟨arg.toInt, ?_⟩⟩
      exact (Option.some.inj hp).symm
  | host arg =>
    obtain rfl := Option.some.inj h
    rcases sysHostHandler_spec arg allocated s with ⟨-, heq⟩ | ⟨-, hsends⟩
    · rwa [heq]
    · exact settled_of_sends hsends ⟨hs.oscPrefix, hs.port⟩
  | oscPrefix arg =>
    obtain rfl := Option.some.inj h
    exact settled_of_sends (sysPrefixHandler_spec arg s) ⟨newPrefix_newPrefix arg, hs.port⟩

theorem settled_invariant (monome : Monome) : (system monome).Invariant Settled where
  init := by
    rintro _ ⟨cfg, rfl⟩
    exact settled_serverRun cfg
  step _ _ _ hs h := hs.handle h

/-! ## Ports and rotations -/

/-- A port is read back from the number that `strtol` reads unless it is zero. -/
theorem soscPortItos_strtol_iff {p : OscString} (h : ∃ n, p = (OscString.decimal n).take 5) :
    soscPortItos (Numeral.strtol 10 p.bytes) = p ↔ p ≠ .ofString "0" := by
  obtain ⟨n, rfl⟩ := h
  by_cases hn : n = 0
  · subst hn
    exact iff_of_false (by decide) (not_not.mpr (by decide))
  · obtain ⟨m, hm, htake⟩ := Numeral.exists_take_decimal hn 3
    have hp : (OscString.decimal n).take 5 = OscString.decimal m := OscString.ext htake
    have hlength : (Numeral.decimal m).length ≤ 5 := htake ▸ List.length_take_le _ _
    have hread : Numeral.strtol 10 (OscString.decimal m).bytes = m :=
      Numeral.strtol_decimal (hlength.trans (by decide))
    rw [hp, hread]
    refine iff_of_true ?_ fun hzero => hm ?_
    · rw [soscPortItos, if_pos hm]
      exact OscString.ext (List.take_of_length_le hlength)
    · rw [← hread, hzero]
      rfl

/-- A rotation is read back from its degrees. -/
theorem rotation_read {r : UInt32} (h : r < 4) :
    UInt32.ofInt ((((r * 90).toNat : ℤ).tdiv 90).tmod 4) = r := by
  have hr : r = 0 ∨ r = 1 ∨ r = 2 ∨ r = 3 := by
    rw [UInt32.lt_iff_toNat_lt] at h
    simp only [← UInt32.toNat_inj, UInt32.reduceToNat] at h ⊢
    omega
  rcases hr with rfl | rfl | rfl | rfl <;> decide

/-! ## Saving and restoring -/

/-- The settings that `config` gives are those of the server. -/
structure Restored (monome : Monome) (s : DeviceServer) (config : SoscConfig) : Prop where
  oscPrefix : config.oscPrefix = s.osc.oscPrefix
  host : config.host = s.outgoing.host
  port : s.outgoing.port = some config.port
  rotation : config.rotation = monome.getRotation s.rotation

/-- The settings that survive being saved: there is no dollar sign with an
opening brace after it in the prefix or in the host, and the port is not zero. -/
structure Restorable (s : DeviceServer) : Prop where
  oscPrefix : ¬ Substitutes s.osc.oscPrefix.bytes
  host : ¬ Substitutes s.outgoing.host.bytes
  port : s.outgoing.port ≠ some (.ofString "0")

theorem inLong_savedValues {s : DeviceServer} {serverPort : Int32} {saved : ConfigValues}
    (h : savedValues monome serverPort s = some saved) (o : IntOpt) : InLong (saved.number o) := by
  obtain ⟨p, -, rfl⟩ := Option.map_eq_some_iff.mp h
  cases o with
  | serverPort =>
    have hlo := serverPort.le_toInt
    have hhi := serverPort.toInt_lt
    simp only [InLong, ConfigValues.number, Numeral.longMin, Numeral.longMax]
    omega
  | port =>
    simp only [InLong, ConfigValues.number, Numeral.strtol, Numeral.longMin, Numeral.longMax]
    omega
  | rotation =>
    have hlt := (monome.getRotation s.rotation * 90).toNat_lt
    simp only [InLong, ConfigValues.number, Numeral.longMin, Numeral.longMax]
    omega

/-- What a file that was written consists of. -/
theorem soscConfigWrite_cases {s : DeviceServer} {serverPort : Int32} {opened : Bool}
    {contents : List UInt8} (h : soscConfigWrite monome serverPort opened s = some contents) :
    ∃ p saved, s.outgoing.port = some p ∧ savedValues monome serverPort s = some saved ∧
      contents = cfgPrint saved ∧ saved.oscPrefix = s.osc.oscPrefix ∧
        saved.host = s.outgoing.host ∧ saved.port = Numeral.strtol 10 p.bytes ∧
          saved.rotation = (monome.getRotation s.rotation * 90).toNat := by
  rw [soscConfigWrite] at h
  split_ifs at h
  obtain ⟨saved, hsaved, rfl⟩ := Option.map_eq_some_iff.mp h
  obtain ⟨p, hp, rfl⟩ := Option.map_eq_some_iff.mp hsaved
  exact ⟨p, _, hp, hsaved, rfl, rfl, rfl, rfl, rfl⟩

/-- Without substitutions the file is read as what was written. -/
theorem soscConfigReadFile_cfgPrint (hnumber : ∀ o, InLong (saved.number o))
    (hosc : ¬ Substitutes saved.oscPrefix.bytes) (hhost : ¬ Substitutes saved.host.bytes) :
    soscConfigReadFile getenv (some (cfgPrint saved)) = soscConfigRead saved := by
  have hsaved (opt : CfgOpt) : Faithful saved opt := by
    rcases opt with o | o
    · exact hnumber o
    · cases o with
      | oscPrefix => exact hosc
      | host => exact hhost
  rw [soscConfigReadFile, cfgParse_cfgPrint hsaved]

/-- Whatever the environment says, the settings that a server has saved are
restored if and only if there is no dollar sign with an opening brace after it
in its prefix or its host, and its port is not zero. -/
theorem restored_iff {monome : Monome} (hget : ∀ r < 4, monome.getRotation r = r)
    {self : DeviceServer} (hself : (system monome).Reachable self) (hrotation : self.rotation < 4)
    {serverPort : Int32} {opened : Bool} {contents : List UInt8}
    (hwrite : soscConfigWrite monome serverPort opened self = some contents) :
    (∀ getenv, Restored monome self (soscConfigReadFile getenv (some contents))) ↔
      Restorable self := by
  have hsettled : Settled self := (settled_invariant monome).reachable hself
  obtain ⟨p, saved, hp, hsaved, rfl, hosc, hhost, hport, hturned⟩ :=
    soscConfigWrite_cases hwrite
  have hnumber : ∀ o, InLong (saved.number o) := inLong_savedValues hsaved
  have hportIff : soscPortItos saved.port = p ↔ p ≠ .ofString "0" := by
    rw [hport]
    exact soscPortItos_strtol_iff (hsettled.port p hp)
  constructor
  · intro h
    have hlost : ¬ (Substitutes saved.oscPrefix.bytes ∨ Substitutes saved.host.bytes) := by
      intro hsub
      rcases ne_of_substitutes hnumber hsub with hne | hne
      · exact hne ((h unset).oscPrefix.trans hosc.symm)
      · exact hne ((h unset).host.trans hhost.symm)
    rw [not_or] at hlost
    refine ⟨hosc ▸ hlost.1, hhost ▸ hlost.2, fun hzero => ?_⟩
    have hrestored := (h unset).port
    rw [soscConfigReadFile_cfgPrint hnumber hlost.1 hlost.2, hp] at hrestored
    exact hportIff.mp (Option.some.inj hrestored).symm (Option.some.inj (hp.symm.trans hzero))
  · intro h getenv
    rw [soscConfigReadFile_cfgPrint hnumber (hosc ▸ h.oscPrefix) (hhost ▸ h.host)]
    have hsame : soscPortItos saved.port = p := by
      refine hportIff.mpr fun hzero => h.port ?_
      rw [hp, hzero]
    refine ⟨?_, hhost, ?_, ?_⟩
    · exact (congrArg newPrefix hosc).trans hsettled.oscPrefix
    · rw [hp, ← hsame]
      rfl
    · rw [hget _ hrotation] at hturned ⊢
      rw [soscConfigRead, hturned]
      exact rotation_read hrotation

/-- The settings of a server that was told a host with a dollar sign. -/
theorem restored_iff_dollar :
    ∃ self contents, (system sampleMonome).exec (serverRun (soscConfigRead .default))
        [⟨.host (.ofString "$h"), true⟩] = some self ∧
      soscConfigWrite sampleMonome 17171 true self = some contents ∧
        ((∀ getenv, Restored sampleMonome self (soscConfigReadFile getenv (some contents))) ↔
          Restorable self) := by
  refine ⟨_, _, rfl, rfl, ?_⟩
  have hself : (system sampleMonome).Reachable
      (sysHostHandler (.ofString "$h") true (serverRun (soscConfigRead .default))) :=
    ⟨_, [⟨.host (.ofString "$h"), true⟩], ⟨.default, rfl⟩, rfl⟩
  have hwrite : soscConfigWrite sampleMonome 17171 true
      (sysHostHandler (.ofString "$h") true (serverRun (soscConfigRead .default))) = some _ := rfl
  exact restored_iff (fun _ _ => rfl) hself (by decide) hwrite

/-- A prefix with a substitution in it is saved as it is, and read without the
substitution where the variable is not set. -/
theorem not_restored :
    ¬ ∀ (monome : Monome), (∀ r < 4, monome.getRotation r = r) →
      ∀ (self : DeviceServer), (system monome).Reachable self → self.rotation < 4 →
        ∀ (serverPort : Int32) (opened : Bool) (contents : List UInt8),
          soscConfigWrite monome serverPort opened self = some contents →
            ∀ getenv, Restored monome self (soscConfigReadFile getenv (some contents)) := by
  intro h
  let start := serverRun (soscConfigRead .default)
  let arg : OscString := .ofString "/a$\x7bb\x7d"
  let saved : ConfigValues := { ConfigValues.default with serverPort := 17171, oscPrefix := arg }
  have hself : (system sampleMonome).Reachable (sysPrefixHandler arg start) :=
    ⟨start, [⟨.oscPrefix arg, true⟩], ⟨.default, rfl⟩, rfl⟩
  have hwrite : soscConfigWrite sampleMonome 17171 true (sysPrefixHandler arg start) =
      some (cfgPrint saved) := rfl
  have hrestored := h sampleMonome (fun _ _ => rfl) _ hself (by decide) 17171 true _ hwrite unset
  have hnumber (o : IntOpt) : InLong (saved.number o) := by
    cases o <;> exact ⟨by decide, by decide⟩
  rcases ne_of_substitutes hnumber (.inl (by decide)) with hne | hne
  · exact hne hrestored.oscPrefix
  · exact hne hrestored.host

end Device

end Serialosc
