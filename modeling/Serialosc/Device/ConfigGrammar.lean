import Serialosc.Device.Config

/-!
# The language of configuration files

What `cfg_parse` reads, by a grammar: a file consists of assignments, of sections that
hold assignments, and of comments; the last section need not be closed.  The parser is one
loop with a state; the grammar does not mention its states.

`cfgParse_success_iff` says that the parser accepts the files of the grammar and no others.
The device server does not ask whether a file was accepted, so that `cfgParse_reads_iff` says
what the options are for any contents: what the assignments make of the defaults that stand
before the first place where nothing of the grammar begins.
-/

namespace Serialosc

open Confuse

/-! ## The grammar -/

/-- An option, and the value that is given for it. -/
abbrev Assignment := CfgOpt × OscString

/-- What there may be inside of a section. -/
inductive CfgBody (sec : CfgSec) : List Token → List Assignment → Prop
  | nil : CfgBody sec [] []
  | comment {ts : List Token} {as : List Assignment} (hrest : CfgBody sec ts as) :
      CfgBody sec (.comment :: ts) as
  | assign {name value : OscString} {opt : CfgOpt} {ts : List Token} {as : List Assignment}
      (hname : cfgGetopt (some sec) name = some (.opt opt)) (hrest : CfgBody sec ts as) :
      CfgBody sec (.str name :: .char equals :: .str value :: ts) ((opt, value) :: as)

/-- A file. -/
inductive CfgFile : List Token → List Assignment → Prop
  | nil : CfgFile [] []
  | comment {ts : List Token} {as : List Assignment} (hrest : CfgFile ts as) :
      CfgFile (.comment :: ts) as
  | assign {name value : OscString} {opt : CfgOpt} {ts : List Token} {as : List Assignment}
      (hname : cfgGetopt none name = some (.opt opt)) (hrest : CfgFile ts as) :
      CfgFile (.str name :: .char equals :: .str value :: ts) ((opt, value) :: as)
  | sec {name : OscString} {sec : CfgSec} {inner after : List Token} {as bs : List Assignment}
      (hname : cfgGetopt none name = some (.sec sec)) (hinner : CfgBody sec inner as)
      (hafter : CfgFile after bs) :
      CfgFile (.str name :: .char lbrace :: (inner ++ .char rbrace :: after)) (as ++ bs)
  | unclosed {name : OscString} {sec : CfgSec} {inner : List Token} {as : List Assignment}
      (hname : cfgGetopt none name = some (.sec sec)) (hinner : CfgBody sec inner as) :
      CfgFile (.str name :: .char lbrace :: inner) as

/-- What stands in a file before a place that is in a section, or in none. -/
inductive CfgFront : List Token → List Assignment → Option CfgSec → Prop
  | nil : CfgFront [] [] none
  | comment {ts : List Token} {as : List Assignment} {sec : Option CfgSec}
      (hfront : CfgFront ts as sec) : CfgFront (ts ++ [.comment]) as sec
  | assign {name value : OscString} {opt : CfgOpt} {ts : List Token} {as : List Assignment}
      {sec : Option CfgSec} (hfront : CfgFront ts as sec)
      (hname : cfgGetopt sec name = some (.opt opt)) :
      CfgFront (ts ++ [.str name, .char equals, .str value]) (as ++ [(opt, value)]) sec
  | sec {name : OscString} {sec : CfgSec} {ts : List Token} {as : List Assignment}
      (hfront : CfgFront ts as none) (hname : cfgGetopt none name = some (.sec sec)) :
      CfgFront (ts ++ [.str name, .char lbrace]) as (some sec)
  | close {sec : CfgSec} {ts : List Token} {as : List Assignment}
      (hfront : CfgFront ts as (some sec)) : CfgFront (ts ++ [.char rbrace]) as none

/-- Something of the grammar begins at a place. -/
inductive Begins (sec : Option CfgSec) : List Token → Prop
  | comment {ts : List Token} : Begins sec (.comment :: ts)
  | assign {name value : OscString} {opt : CfgOpt} {ts : List Token}
      (hname : cfgGetopt sec name = some (.opt opt)) :
      Begins sec (.str name :: .char equals :: .str value :: ts)
  | sec {name : OscString} {s : CfgSec} {ts : List Token}
      (hname : cfgGetopt sec name = some (.sec s)) : Begins sec (.str name :: .char lbrace :: ts)
  | close {ts : List Token} (hsec : sec ≠ none) : Begins sec (.char rbrace :: ts)

/-- An assignment, if it succeeds. -/
def assign (cfg : ConfigValues) (a : Assignment) : Option ConfigValues :=
  if (cfgSetopt cfg a.1 a.2).2 then some (cfgSetopt cfg a.1 a.2).1 else none

/-- The options after several assignments, if all of them succeed. -/
def assignAll (cfg : ConfigValues) : List Assignment → Option ConfigValues
  | [] => some cfg
  | a :: as => (assign cfg a).bind fun cfg => assignAll cfg as

variable {ts rest : List Token} {as bs : List Assignment} {cfg cfg' : ConfigValues}
  {sec : Option CfgSec}

theorem assignAll_append :
    assignAll cfg (as ++ bs) = (assignAll cfg as).bind fun cfg => assignAll cfg bs := by
  induction as generalizing cfg with
  | nil => rfl
  | cons a as ih =>
    rw [List.cons_append, assignAll, assignAll, Option.bind_assoc]
    congr 1
    funext cfg
    exact ih

theorem assignAll_singleton {a : Assignment} : assignAll cfg [a] = assign cfg a :=
  Option.bind_fun_some _

/-! ## One thing after the other -/

/-- Where the parser stops, with the options as they are then: at the end, where nothing of
the grammar begins, or at an assignment of a number that cannot be read, which sets the
option that is named to zero. -/
inductive Stops (sec : Option CfgSec) (cfg : ConfigValues) :
    List Token → ConfigValues × Bool → Prop
  | done : Stops sec cfg [] (cfg, true)
  | error {ts : List Token} (hne : ts ≠ []) (hbegins : ¬ Begins sec ts) :
      Stops sec cfg ts (cfg, false)
  | number {opt : IntOpt} {name value : OscString} {ts : List Token}
      (hname : cfgGetopt sec name = some (.opt (.int opt))) (hvalue : cfgNumber value = none) :
      Stops sec cfg (.str name :: .char equals :: .str value :: ts) (cfg.setNumber 0 opt, false)

/-- What the parser reads where it expects a name. -/
inductive ReadsName (sec : Option CfgSec) (cfg : ConfigValues) (result : ConfigValues × Bool) :
    List Token → Prop
  | stop {ts : List Token} (hstop : Stops sec cfg ts result) : ReadsName sec cfg result ts
  | comment {ts : List Token} (hrest : cfgParseInternal ts sec .name cfg = result) :
      ReadsName sec cfg result (.comment :: ts)
  | close {ts : List Token} {s : CfgSec} (hsec : sec = some s)
      (hrest : cfgParseInternal ts none .name cfg = result) :
      ReadsName sec cfg result (.char rbrace :: ts)
  | assign {name value : OscString} {opt : CfgOpt} {ts : List Token} {cfg' : ConfigValues}
      (hname : cfgGetopt sec name = some (.opt opt)) (hassign : assign cfg (opt, value) = some cfg')
      (hrest : cfgParseInternal ts sec .name cfg' = result) :
      ReadsName sec cfg result (.str name :: .char equals :: .str value :: ts)
  | sec {name : OscString} {s : CfgSec} {ts : List Token}
      (hname : cfgGetopt sec name = some (.sec s))
      (hrest : cfgParseInternal ts (some s) .name cfg = result) :
      ReadsName sec cfg result (.str name :: .char lbrace :: ts)

/-- A number that cannot be read has been set to zero. -/
theorem cfgSetopt_of_fails {opt : CfgOpt} {value : OscString}
    (h : cfgSetopt cfg opt value = (cfg', false)) :
    ∃ o, opt = .int o ∧ cfgNumber value = none ∧ cfg' = cfg.setNumber 0 o := by
  cases opt with
  | str o => cases h
  | int o =>
    rw [cfgSetopt] at h
    cases hvalue : cfgNumber value with
    | none =>
      rw [hvalue] at h
      exact ⟨o, rfl, rfl, (Prod.mk.inj h).1.symm⟩
    | some n =>
      rw [hvalue] at h
      cases h

section Places

variable {name : OscString}

theorem not_begins_of_opt {opt : CfgOpt} (hname : cfgGetopt sec name = some (.opt opt))
    (hts : ∀ value rest, ts ≠ .char equals :: .str value :: rest) :
    ¬ Begins sec (.str name :: ts) := by
  intro hbegins
  cases hbegins with
  | assign => exact hts _ _ rfl
  | sec hsec =>
    rw [hname] at hsec
    cases hsec

theorem not_begins_of_sec {s : CfgSec} (hname : cfgGetopt sec name = some (.sec s))
    (hts : ∀ rest, ts ≠ .char lbrace :: rest) : ¬ Begins sec (.str name :: ts) := by
  intro hbegins
  cases hbegins with
  | sec => exact hts _ rfl
  | assign hopt =>
    rw [hname] at hopt
    cases hopt

theorem not_begins_of_none (hname : cfgGetopt sec name = none) :
    ¬ Begins sec (.str name :: ts) := by
  intro hbegins
  cases hbegins with
  | sec hsec =>
    rw [hname] at hsec
    cases hsec
  | assign hopt =>
    rw [hname] at hopt
    cases hopt

theorem not_begins_char {c : UInt8} (hclose : ¬ (c = rbrace ∧ sec ≠ none)) :
    ¬ Begins sec (.char c :: ts) := by
  intro hbegins
  cases hbegins with
  | close hsec => exact hclose ⟨rfl, hsec⟩

theorem not_begins_error : ¬ Begins sec (.error :: ts) := by
  intro hbegins
  cases hbegins

/-- A value is read, or it is missing. -/
theorem readsName_value {opt : CfgOpt} (hname : cfgGetopt sec name = some (.opt opt)) :
    ReadsName sec cfg (cfgParseInternal ts sec (.value opt) cfg)
      (.str name :: .char equals :: ts) := by
  have hmissing (hts : ∀ value rest, ts ≠ .str value :: rest) :
      ReadsName sec cfg (cfg, false) (.str name :: .char equals :: ts) := by
    refine .stop (.error (List.cons_ne_nil _ _) (not_begins_of_opt hname ?_))
    intro value rest heq
    exact hts value rest (List.cons.inj heq).2
  cases ts with
  | nil => exact hmissing (by simp)
  | cons t ts =>
    cases t with
    | str value =>
      rw [cfgParseInternal]
      rcases hset : cfgSetopt cfg opt value with ⟨cfg', _ | _⟩
      · obtain ⟨o, rfl, hvalue, rfl⟩ := cfgSetopt_of_fails hset
        exact .stop (.number hname hvalue)
      · refine .assign hname ?_ rfl
        rw [Serialosc.assign, hset, if_pos rfl]
    | char c => exact hmissing (by simp)
    | comment => exact hmissing (by simp)
    | error => exact hmissing (by simp)

theorem readsName_equalSign {opt : CfgOpt} (hname : cfgGetopt sec name = some (.opt opt)) :
    ReadsName sec cfg (cfgParseInternal ts sec (.equalSign opt) cfg) (.str name :: ts) := by
  have hmissing (hts : ∀ rest, ts ≠ .char equals :: rest) :
      ReadsName sec cfg (cfg, false) (.str name :: ts) := by
    refine .stop (.error (List.cons_ne_nil _ _) (not_begins_of_opt hname ?_))
    exact fun value rest => hts (.str value :: rest)
  cases ts with
  | nil => exact hmissing (by simp)
  | cons t ts =>
    cases t with
    | char c =>
      rw [cfgParseInternal]
      split_ifs with hc
      · rw [hc]
        exact readsName_value hname
      · exact hmissing (by simp [hc])
    | str value => exact hmissing (by simp)
    | comment => exact hmissing (by simp)
    | error => exact hmissing (by simp)

theorem readsName_openingBrace {s : CfgSec} (hname : cfgGetopt sec name = some (.sec s)) :
    ReadsName sec cfg (cfgParseInternal ts sec (.openingBrace s) cfg) (.str name :: ts) := by
  have hmissing (hts : ∀ rest, ts ≠ .char lbrace :: rest) :
      ReadsName sec cfg (cfg, false) (.str name :: ts) :=
    .stop (.error (List.cons_ne_nil _ _) (not_begins_of_sec hname hts))
  cases ts with
  | nil => exact hmissing (by simp)
  | cons t ts =>
    cases t with
    | char c =>
      rw [cfgParseInternal]
      split_ifs with hc
      · rw [hc]
        exact .sec hname rfl
      · exact hmissing (by simp [hc])
    | str value => exact hmissing (by simp)
    | comment => exact hmissing (by simp)
    | error => exact hmissing (by simp)

end Places

/-- What the parser does with tokens of any kind. -/
theorem readsName : ReadsName sec cfg (cfgParseInternal ts sec .name cfg) ts := by
  cases ts with
  | nil => exact .stop .done
  | cons t ts =>
    cases t with
    | comment => exact .comment rfl
    | error => exact .stop (.error (List.cons_ne_nil _ _) not_begins_error)
    | char c =>
      rw [cfgParseInternal]
      split_ifs with hclose
      · obtain ⟨rfl, hsec⟩ := hclose
        obtain ⟨s, hs⟩ := Option.ne_none_iff_exists'.mp hsec
        exact .close hs rfl
      · exact .stop (.error (List.cons_ne_nil _ _) (not_begins_char hclose))
    | str name =>
      rw [cfgParseInternal]
      cases hname : cfgGetopt sec name with
      | none => exact .stop (.error (List.cons_ne_nil _ _) (not_begins_of_none hname))
      | some found =>
        cases found with
        | sec s => exact readsName_openingBrace hname
        | opt o => exact readsName_equalSign hname

/-- An assignment that succeeds is parsed. -/
theorem cfgParseInternal_assign {name value : OscString} {opt : CfgOpt}
    (hname : cfgGetopt sec name = some (.opt opt)) (hassign : assign cfg (opt, value) = some cfg') :
    cfgParseInternal (.str name :: .char equals :: .str value :: ts) sec .name cfg =
      cfgParseInternal ts sec .name cfg' := by
  rw [cfgParseInternal, hname]
  dsimp only
  rw [cfgParseInternal, if_pos rfl, cfgParseInternal]
  rw [assign] at hassign
  rcases hset : cfgSetopt cfg opt value with ⟨next, _ | _⟩
  · rw [hset] at hassign
    cases hassign
  · rw [hset] at hassign
    rw [← Option.some.inj hassign]

theorem cfgParseInternal_section {name : OscString} {s : CfgSec}
    (hname : cfgGetopt sec name = some (.sec s)) :
    cfgParseInternal (.str name :: .char lbrace :: ts) sec .name cfg =
      cfgParseInternal ts (some s) .name cfg := by
  rw [cfgParseInternal, hname]
  dsimp only
  rw [cfgParseInternal, if_pos rfl]

/-! ## The files that are accepted -/

/-- The assignments of a section are made. -/
theorem CfgBody.parse {s : CfgSec} (h : CfgBody s ts as) (hassign : assignAll cfg as = some cfg') :
    cfgParseInternal (ts ++ rest) (some s) .name cfg =
      cfgParseInternal rest (some s) .name cfg' := by
  induction h generalizing cfg with
  | nil =>
    obtain rfl := Option.some.inj hassign
    rfl
  | comment _ ih => exact ih hassign
  | assign hname _ ih =>
    obtain ⟨next, hnext, hrest⟩ := Option.bind_eq_some_iff.mp hassign
    rw [List.cons_append, List.cons_append, List.cons_append, cfgParseInternal_assign hname hnext]
    exact ih hrest

theorem CfgBody.parse_end {s : CfgSec} (h : CfgBody s ts as)
    (hassign : assignAll cfg as = some cfg') :
    cfgParseInternal ts (some s) .name cfg = (cfg', true) := by
  have hend : cfgParseInternal (ts ++ []) (some s) .name cfg = _ := h.parse hassign
  rwa [List.append_nil] at hend

/-- A file of the grammar is accepted. -/
theorem CfgFile.parse (h : CfgFile ts as) (hassign : assignAll cfg as = some cfg') :
    cfgParseInternal ts none .name cfg = (cfg', true) := by
  induction h generalizing cfg with
  | nil =>
    obtain rfl := Option.some.inj hassign
    rfl
  | comment _ ih => exact ih hassign
  | assign hname _ ih =>
    obtain ⟨next, hnext, hrest⟩ := Option.bind_eq_some_iff.mp hassign
    rw [cfgParseInternal_assign hname hnext]
    exact ih hrest
  | sec hname hinner _ ih =>
    rw [assignAll_append] at hassign
    obtain ⟨next, hnext, hrest⟩ := Option.bind_eq_some_iff.mp hassign
    rw [cfgParseInternal_section hname, hinner.parse hnext]
    exact ih hrest
  | unclosed hname hinner =>
    rw [cfgParseInternal_section hname]
    exact hinner.parse_end hassign

/-! ## The files of the grammar -/

/-- There are no sections inside of sections. -/
theorem cfgGetoptLeaf_ne_sec {s t : CfgSec} {name : List UInt8} :
    cfgGetoptLeaf (some s) name ≠ some (.sec t) := by
  intro h
  obtain ⟨o, -, ho⟩ := Option.map_eq_some_iff.mp h
  cases ho

theorem cfgGetoptSecidx_ne_sec {fuel : ℕ} {s t : CfgSec} {name : List UInt8} :
    cfgGetoptSecidx fuel (some s) name ≠ some (.sec t) := by
  intro h
  cases fuel with
  | zero => exact cfgGetoptLeaf_ne_sec h
  | succ fuel =>
    rw [cfgGetoptSecidx] at h
    split at h
    · exact cfgGetoptLeaf_ne_sec h
    · split at h
      · rename_i hfound
        exact cfgGetoptLeaf_ne_sec hfound
      · cases h

theorem cfgGetopt_ne_sec {s t : CfgSec} {name : OscString} :
    cfgGetopt (some s) name ≠ some (.sec t) := by
  intro h
  rw [cfgGetopt] at h
  split_ifs at h
  exact cfgGetoptSecidx_ne_sec h

/-- What may stand in a file after a place. -/
def CfgRest (ts : List Token) (as : List Assignment) : Option CfgSec → Prop
  | none => CfgFile ts as
  | some s => ∃ inner bs, CfgBody s inner bs ∧
      (ts = inner ∧ as = bs ∨
        ∃ after cs, ts = inner ++ .char rbrace :: after ∧ CfgFile after cs ∧ as = bs ++ cs)

theorem CfgRest.nil : CfgRest [] [] sec := by
  cases sec with
  | none => exact .nil
  | some s => exact ⟨[], [], .nil, .inl ⟨rfl, rfl⟩⟩

/-- A comment in front is no matter. -/
theorem CfgRest.comment (h : CfgRest ts as sec) : CfgRest (.comment :: ts) as sec := by
  cases sec with
  | none => exact CfgFile.comment h
  | some s =>
    obtain ⟨inner, bs, hbody, ⟨rfl, rfl⟩ | ⟨after, cs, rfl, hafter, rfl⟩⟩ := h
    · exact ⟨_, _, .comment hbody, .inl ⟨rfl, rfl⟩⟩
    · exact ⟨_, _, .comment hbody, .inr ⟨after, cs, rfl, hafter, rfl⟩⟩

/-- An assignment in front is made first. -/
theorem CfgRest.assign {name value : OscString} {opt : CfgOpt}
    (hname : cfgGetopt sec name = some (.opt opt)) (h : CfgRest ts as sec) :
    CfgRest (.str name :: .char equals :: .str value :: ts) ((opt, value) :: as) sec := by
  cases sec with
  | none => exact CfgFile.assign hname h
  | some s =>
    obtain ⟨inner, bs, hbody, ⟨rfl, rfl⟩ | ⟨after, cs, rfl, hafter, rfl⟩⟩ := h
    · exact ⟨_, _, .assign hname hbody, .inl ⟨rfl, rfl⟩⟩
    · exact ⟨_, _, .assign hname hbody, .inr ⟨after, cs, rfl, hafter, rfl⟩⟩

/-- What a section holds belongs to the file. -/
theorem CfgRest.of_section {name : OscString} {s : CfgSec}
    (hname : cfgGetopt none name = some (.sec s)) (h : CfgRest ts as (some s)) :
    CfgFile (.str name :: .char lbrace :: ts) as := by
  obtain ⟨inner, bs, hbody, ⟨rfl, rfl⟩ | ⟨after, cs, rfl, hafter, rfl⟩⟩ := h
  · exact .unclosed hname hbody
  · exact .sec hname hbody hafter

/-- A closing brace in front is the end of the section. -/
theorem CfgRest.close {s : CfgSec} (h : CfgFile ts as) :
    CfgRest (.char rbrace :: ts) as (some s) :=
  ⟨[], [], .nil, .inr ⟨ts, as, rfl, h, rfl⟩⟩

/-- What stands before and after a place is a file. -/
theorem CfgFront.append (h : CfgFront ts as sec) (hrest : CfgRest rest bs sec) :
    CfgFile (ts ++ rest) (as ++ bs) := by
  induction h generalizing rest bs with
  | nil => exact hrest
  | comment _ ih =>
    rw [List.append_assoc]
    exact ih hrest.comment
  | assign _ hname ih =>
    rw [List.append_assoc, List.append_assoc]
    exact ih (hrest.assign hname)
  | sec _ hname ih =>
    rw [List.append_assoc]
    exact ih (hrest.of_section hname)
  | close _ ih =>
    rw [List.append_assoc]
    exact ih (.close hrest)

/-- What stands before a place is itself a file. -/
theorem CfgFront.file (h : CfgFront ts as sec) : CfgFile ts as := by
  have hfile : CfgFile (ts ++ []) (as ++ []) := h.append .nil
  rwa [List.append_nil, List.append_nil] at hfile

/-! ## The place where the parser stops -/

/-- The parser comes to every place that it reads up to, with the assignments made. -/
theorem CfgFront.parse (h : CfgFront ts as sec) (hassign : assignAll cfg as = some cfg') :
    cfgParseInternal (ts ++ rest) none .name cfg = cfgParseInternal rest sec .name cfg' := by
  induction h generalizing rest cfg' with
  | nil =>
    obtain rfl := Option.some.inj hassign
    rfl
  | comment _ ih =>
    rw [List.append_assoc, ih hassign]
    rfl
  | assign _ hname ih =>
    rw [assignAll_append] at hassign
    obtain ⟨next, hnext, hlast⟩ := Option.bind_eq_some_iff.mp hassign
    rw [assignAll_singleton] at hlast
    rw [List.append_assoc, ih hnext]
    exact cfgParseInternal_assign hname hlast
  | sec _ hname ih =>
    rw [List.append_assoc, ih hassign]
    exact cfgParseInternal_section hname
  | close _ ih =>
    rw [List.append_assoc, ih hassign]
    rfl

/-- The parser does stop there. -/
theorem Stops.parse {result : ConfigValues × Bool} (h : Stops sec cfg ts result) :
    cfgParseInternal ts sec .name cfg = result := by
  cases h with
  | done => rfl
  | number hname hvalue =>
    rw [cfgParseInternal, hname]
    dsimp only
    rw [cfgParseInternal, if_pos rfl, cfgParseInternal, cfgSetopt, hvalue]
  | error hne hbegins =>
    have hreads : ReadsName sec cfg (cfgParseInternal ts sec .name cfg) ts := readsName
    generalize cfgParseInternal ts sec .name cfg = result at hreads
    cases hreads with
    | comment => exact absurd .comment hbegins
    | close hsec => exact absurd (.close (hsec ▸ Option.some_ne_none _)) hbegins
    | assign hname => exact absurd (.assign hname) hbegins
    | sec hname => exact absurd (.sec hname) hbegins
    | stop hstop =>
      cases hstop with
      | done => exact absurd rfl hne
      | error => rfl
      | number hname => exact absurd (.assign hname) hbegins

/-- The tokens up to a place are read, and the parser stops there. -/
def Reads (ts : List Token) (result : ConfigValues × Bool) : Prop :=
  ∃ head tail as sec mid, ts = head ++ tail ∧ CfgFront head as sec ∧
    assignAll .default as = some mid ∧ Stops sec mid tail result

/-- From any place on, the parser comes to where it stops.  The induction is on the number of
tokens: an assignment consists of three. -/
theorem CfgFront.reads {result : ConfigValues × Bool} (hfront : CfgFront ts as sec)
    (hassign : assignAll .default as = some cfg)
    (h : cfgParseInternal rest sec .name cfg = result) : Reads (ts ++ rest) result := by
  induction hn : rest.length using Nat.strong_induction_on generalizing ts rest as sec cfg with
  | _ n ih =>
    subst hn
    have hreads : ReadsName sec cfg result rest := h ▸ readsName
    cases hreads with
    | stop hstop => exact ⟨ts, rest, as, sec, cfg, rfl, hfront, hassign, hstop⟩
    | @comment after hrest =>
      have hnext := ih after.length (by simp) hfront.comment hassign hrest rfl
      rwa [List.append_assoc] at hnext
    | @close after s hsec hrest =>
      subst hsec
      have hnext := ih after.length (by simp) hfront.close hassign hrest rfl
      rwa [List.append_assoc] at hnext
    | @assign name value opt after next hname ha hrest =>
      have hlonger : after.length <
          (Token.str name :: .char equals :: .str value :: after).length := by
        simp only [List.length_cons]
        omega
      have hnext : assignAll .default (as ++ [(opt, value)]) = some next := by
        rw [assignAll_append, hassign, Option.bind_some, assignAll_singleton]
        exact ha
      have hfront' : CfgFront (ts ++ [.str name, .char equals, .str value]) _ sec :=
        hfront.assign hname
      have hreads := ih after.length hlonger hfront' hnext hrest rfl
      rwa [List.append_assoc] at hreads
    | @sec name s after hname hrest =>
      cases sec with
      | none =>
        have hlonger : after.length < (Token.str name :: .char lbrace :: after).length := by
          simp only [List.length_cons]
          omega
        have hnext := ih after.length hlonger (hfront.sec hname) hassign hrest rfl
        rwa [List.append_assoc] at hnext
      | some outer => exact absurd hname cfgGetopt_ne_sec

theorem cfgParseInternal_iff {result : ConfigValues × Bool} :
    cfgParseInternal ts none .name .default = result ↔ Reads ts result := by
  constructor
  · exact CfgFront.reads .nil rfl
  · rintro ⟨head, tail, as, sec, mid, rfl, hfront, hassign, hstop⟩
    exact (hfront.parse hassign).trans hstop.parse

/-- Whatever a configuration file holds, the options are what the assignments make of the
defaults that stand before the place where the parser stops.  This is the end of the file,
the first place where nothing of the grammar begins, or the first number that cannot be read,
for which the option of that name has been set to zero; only at the end, the file has been
accepted. -/
theorem cfgParse_reads_iff {getenv : Environment} {contents : List UInt8} {cfg : ConfigValues}
    {accepted : Bool} :
    ((cfgParse getenv (some contents)).1 = cfg ∧
        ((cfgParse getenv (some contents)).2 = .success ↔ accepted = true)) ↔
      ∃ head tail as sec mid, tokens getenv .initial [] contents = head ++ tail ∧
        CfgFront head as sec ∧ assignAll .default as = some mid ∧
        Stops sec mid tail (cfg, accepted) := by
  have hparse : ((cfgParse getenv (some contents)).1 = cfg ∧
      ((cfgParse getenv (some contents)).2 = .success ↔ accepted = true)) ↔
        cfgParseInternal (tokens getenv .initial [] contents) none .name .default =
          (cfg, accepted) := by
    rw [cfgParse]
    rcases cfgParseInternal (tokens getenv .initial [] contents) none .name .default with
      ⟨found, _ | _⟩
    · cases accepted <;> simp
    · cases accepted <;> simp
  exact hparse.trans cfgParseInternal_iff

/-- The parser accepts the files of the grammar whose assignments succeed, and no others.
The options then are what the assignments make of the defaults. -/
theorem cfgParse_success_iff {getenv : Environment} {contents : List UInt8} :
    cfgParse getenv (some contents) = (cfg, .success) ↔
      ∃ as, CfgFile (tokens getenv .initial [] contents) as ∧
        assignAll .default as = some cfg := by
  constructor
  · intro h
    rw [cfgParse] at h
    split at h
    case h_1 found hfound =>
      obtain rfl := (Prod.mk.inj h).1
      obtain ⟨head, tail, as, sec, mid, htokens, hfront, hassign, hstop⟩ :=
        cfgParseInternal_iff.mp hfound
      cases hstop
      rw [List.append_nil] at htokens
      rw [htokens]
      exact ⟨as, hfront.file, hassign⟩
    case h_2 => cases (Prod.mk.inj h).2
  · intro ⟨as, hfile, hassign⟩
    rw [cfgParse, hfile.parse hassign]

end Serialosc
