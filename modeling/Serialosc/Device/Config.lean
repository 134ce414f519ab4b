import Serialosc.Confuse.Lexemes
import Serialosc.Device.Server

/-!
# The configuration file of a device

`sosc_config_write` puts the settings of a device server into the options of a
configuration and prints it, and `sosc_config_read` parses the file.  The
parser of libconfuse is modelled for the options of this program: three
sections, none of them with a title or inside another one, and five options
that hold one value each.

A value that is given for an option first takes the place of the old one by
zero, and then by itself, which fails for a number that is not written as one.
The parser stops at an error, and the program goes on with the options as they
are then.  What is printed on `stderr` is left out.
-/

namespace Serialosc

open Confuse

/-! ## The options -/

/-- The options that are numbers. -/
inductive IntOpt
  | serverPort
  | port
  | rotation
  deriving DecidableEq, Repr

/-- The options that are strings. -/
inductive StrOpt
  | oscPrefix
  | host
  deriving DecidableEq, Repr

/-- `cfg_opt_t`, for the options that are no section. -/
inductive CfgOpt
  | int (opt : IntOpt)
  | str (opt : StrOpt)
  deriving DecidableEq, Repr

/-- `cfg_opt_t`, for the sections. -/
inductive CfgSec
  | server
  | application
  | device
  deriving DecidableEq, Repr

def CfgOpt.name : CfgOpt → OscString
  | .int .serverPort => .ofString "port"
  | .int .port => .ofString "port"
  | .int .rotation => .ofString "rotation"
  | .str .oscPrefix => .ofString "osc_prefix"
  | .str .host => .ofString "host"

def CfgSec.name : CfgSec → OscString
  | server => .ofString "server"
  | application => .ofString "application"
  | device => .ofString "device"

/-- `server_opts`, `app_opts` and `dev_opts`. -/
def CfgSec.opts : CfgSec → List CfgOpt
  | server => [.int .serverPort]
  | application => [.str .oscPrefix, .str .host, .int .port]
  | device => [.int .rotation]

/-- `opts`. -/
def cfgOpts : List CfgSec := [.server, .application, .device]

namespace ConfigValues

/-- `cfg_opt_getnint`. -/
def number (cfg : ConfigValues) : IntOpt → ℤ
  | .serverPort => cfg.serverPort
  | .port => cfg.port
  | .rotation => cfg.rotation

/-- `cfg_opt_getnstr`. -/
def string (cfg : ConfigValues) : StrOpt → OscString
  | .oscPrefix => cfg.oscPrefix
  | .host => cfg.host

def setNumber (cfg : ConfigValues) (n : ℤ) : IntOpt → ConfigValues
  | .serverPort => { cfg with serverPort := n }
  | .port => { cfg with port := n }
  | .rotation => { cfg with rotation := n }

def setString (cfg : ConfigValues) (s : OscString) : StrOpt → ConfigValues
  | .oscPrefix => { cfg with oscPrefix := s }
  | .host => { cfg with host := s }

end ConfigValues

/-! ## Names -/

/-- `tolower`. -/
def toLower (c : UInt8) : UInt8 := if 0x41 ≤ c ∧ c ≤ 0x5a then c + 0x20 else c

/-- `strcasecmp` finds no difference. -/
def strcaseeq (s t : List UInt8) : Bool := s.map toLower = t.map toLower

/-- What a name in a configuration file stands for. -/
inductive CfgName
  | sec (sec : CfgSec)
  | opt (opt : CfgOpt)
  deriving DecidableEq, Repr

/-- `cfg_getopt_leaf`, in a section or in no section. -/
def cfgGetoptLeaf (sec : Option CfgSec) (name : List UInt8) : Option CfgName :=
  match sec with
  | none => (cfgOpts.find? fun s => strcaseeq s.name.bytes name).map .sec
  | some s => (s.opts.find? fun o => strcaseeq o.name.bytes name).map .opt

/-- The character between the name of a section and that of an option. -/
abbrev bar : UInt8 := 0x7c

/-- `cfg_getopt_secidx`, for a name with no more than `fuel` characters.  An
equal sign asks for one of several sections, of which there are none. -/
def cfgGetoptSecidx : ℕ → Option CfgSec → List UInt8 → Option CfgName
  | 0, sec, name => cfgGetoptLeaf sec name
  | fuel + 1, sec, name =>
    let secname := name.takeWhile fun c => c ≠ bar ∧ c ≠ equals
    let rest := name.drop secname.length
    if rest = [] ∨ secname = [] then cfgGetoptLeaf sec name
    else
      match cfgGetoptLeaf sec secname with
      | some (.sec s) =>
        if rest.head? = some bar then cfgGetoptSecidx fuel (some s) (rest.dropWhile (· = bar))
        else none
      | _ => none

/-- `cfg_getopt`. -/
def cfgGetopt (sec : Option CfgSec) (name : OscString) : Option CfgName :=
  if name.bytes = [] then none else cfgGetoptSecidx name.bytes.length sec name.bytes

/-! ## Values -/

/-- The base that the beginning of a number asks for, and the rest of it. -/
def cfgRadix (value : List UInt8) : ℕ × List UInt8 :=
  if value.head? = some 0x30 then
    if value[1]? = some 0x62 then (2, value.drop 2)
    else if value[1]? = some 0x78 then (16, value.drop 2)
    else (8, value.drop 1)
  else (0, value)

/-- The number that `cfg_setopt` reads. -/
def cfgNumber (value : OscString) : Option ℤ :=
  let (radix, str) := cfgRadix value.bytes
  let parsed := Numeral.parse radix str
  if parsed.rest ≠ [] then none
  else if parsed.number < Numeral.longMin ∨ Numeral.longMax < parsed.number then none
  else some parsed.number

/-- `cfg_setopt`, and whether it succeeds. -/
def cfgSetopt (cfg : ConfigValues) (opt : CfgOpt) (value : OscString) : ConfigValues × Bool :=
  match opt with
  | .int opt =>
    match cfgNumber value with
    | some n => (cfg.setNumber n opt, true)
    | none => (cfg.setNumber 0 opt, false)
  | .str opt => (cfg.setString value opt, true)

/-! ## The parser -/

/-- What `cfg_parse_internal` expects next. -/
inductive ParseState
  | name
  | equalSign (opt : CfgOpt)
  | value (opt : CfgOpt)
  | openingBrace (sec : CfgSec)
  deriving DecidableEq, Repr

/-- `cfg_parse_internal`, and whether it succeeds.  A section may end with the
file. -/
def cfgParseInternal : List Token → Option CfgSec → ParseState → ConfigValues →
    ConfigValues × Bool
  | [], _, state, cfg => (cfg, state = .name)
  | .error :: _, _, _, cfg => (cfg, false)
  | .comment :: ts, sec, .name, cfg => cfgParseInternal ts sec .name cfg
  | .char c :: ts, sec, .name, cfg =>
    if c = rbrace ∧ sec ≠ none then cfgParseInternal ts none .name cfg else (cfg, false)
  | .str name :: ts, sec, .name, cfg =>
    match cfgGetopt sec name with
    | some (.sec s) => cfgParseInternal ts sec (.openingBrace s) cfg
    | some (.opt o) => cfgParseInternal ts sec (.equalSign o) cfg
    | none => (cfg, false)
  | .char c :: ts, sec, .equalSign o, cfg =>
    if c = equals then cfgParseInternal ts sec (.value o) cfg else (cfg, false)
  | .str value :: ts, sec, .value o, cfg =>
    match cfgSetopt cfg o value with
    | (cfg, true) => cfgParseInternal ts sec .name cfg
    | (cfg, false) => (cfg, false)
  | .char c :: ts, _, .openingBrace s, cfg =>
    if c = lbrace then cfgParseInternal ts (some s) .name cfg else (cfg, false)
  | _ :: _, _, _, cfg => (cfg, false)

/-- What `cfg_parse` returns. -/
inductive CfgResult
  | success
  | fileError
  | parseError
  deriving DecidableEq, Repr

/-- `cfg_init` and `cfg_parse`, for the contents of a file that may not be there. -/
def cfgParse (getenv : Environment) : Option (List UInt8) → ConfigValues × CfgResult
  | none => (.default, .fileError)
  | some contents =>
    match cfgParseInternal (tokens getenv .initial [] contents) none .name .default with
    | (cfg, true) => (cfg, .success)
    | (cfg, false) => (cfg, .parseError)

/-! ## The printer -/

/-- `cfg_indent`. -/
def cfgIndent (indent : ℕ) : List UInt8 := List.replicate (2 * indent) blank

/-- `cfg_opt_nprint_var`. -/
def cfgOptNprintVar (cfg : ConfigValues) : CfgOpt → List UInt8
  | .int o => Numeral.decimal (cfg.number o)
  | .str o => dquote :: ((cfg.string o).bytes.flatMap escape ++ [dquote])

/-- `cfg_opt_print_pff_indent`, for an option that is no section. -/
def cfgOptPrint (cfg : ConfigValues) (indent : ℕ) (opt : CfgOpt) : List UInt8 :=
  cfgIndent indent ++ (opt.name.bytes ++ equals :: (cfgOptNprintVar cfg opt ++ [newline]))

/-- `cfg_opt_print_pff_indent`, for a section. -/
def cfgSecPrint (cfg : ConfigValues) (indent : ℕ) (sec : CfgSec) : List UInt8 :=
  cfgIndent indent ++ (sec.name.bytes ++ blank :: lbrace :: newline ::
    (sec.opts.flatMap (cfgOptPrint cfg (indent + 1)) ++
      (cfgIndent indent ++ [rbrace, newline])))

/-- `cfg_print`. -/
def cfgPrint (cfg : ConfigValues) : List UInt8 := cfgOpts.flatMap (cfgSecPrint cfg 0)

/-! ## Saving and restoring -/

/-- The options that `sosc_config_write` sets; nothing where there is no port to
read a number from. -/
def savedValues (monome : Monome) (serverPort : Int32) (self : DeviceServer) :
    Option ConfigValues :=
  self.outgoing.port.map fun port =>
    { serverPort := serverPort.toInt
      oscPrefix := self.osc.oscPrefix
      host := self.outgoing.host
      port := Numeral.strtol 10 port.bytes
      rotation := (monome.getRotation self.rotation * 90).toNat }

/-- `sosc_config_write`: the contents of the file, unless the device has no
serial number, the file does not open, or the program crashes. -/
def soscConfigWrite (monome : Monome) (serverPort : Int32) (opened : Bool)
    (self : DeviceServer) : Option (List UInt8) :=
  if monome.serial = none ∨ opened = false then none
  else (savedValues monome serverPort self).map cfgPrint

/-- `sosc_config_read`, for a device with a serial number. -/
def soscConfigReadFile (getenv : Environment) (contents : Option (List UInt8)) : SoscConfig :=
  soscConfigRead (cfgParse getenv contents).1

end Serialosc
