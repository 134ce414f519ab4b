import Mathlib.Data.List.Perm.Basic
import Mathlib.Data.List.Infix

/-!
# The OSC methods of a device server

A device server registers its methods under a prefix that `/sys/prefix`
changes.  The handler takes the methods of the old prefix out of the server
and puts those of the new one in, by two tables that are kept by hand.  The
second table lacks `ring/intensity`, so each change of the prefix leaves one
method behind; `sysPrefixHandler_methods` says exactly what the server holds
after any number of changes.

Allocation is taken to succeed.
-/

namespace Serialosc

/-! ## Strings and methods -/

/-- A string without its terminator. -/
@[ext] structure OscString where
  bytes : List UInt8
  nulFree : 0 ∉ bytes
  deriving DecidableEq

namespace OscString

/-- A string of ASCII characters. -/
def ofString (s : String) : OscString where
  bytes := (s.toList.map fun c => UInt8.ofNat c.toNat).filter (· ≠ 0)
  nulFree := by simp

/-- The character `'/'`. -/
def slash : UInt8 := 0x2f

/-- `"%s/%s"`. -/
def join (s t : OscString) : OscString where
  bytes := s.bytes ++ slash :: t.bytes
  nulFree h := by
    rcases List.mem_append.mp h with hs | hrest
    · exact s.nulFree hs
    · rcases List.mem_cons.mp hrest with heq | ht
      · exact absurd heq (by decide)
      · exact t.nulFree ht

end OscString

/-- A method of a liblo server: a path and a typespec, which may be `NULL`. -/
structure Method where
  path : OscString
  typespec : Option OscString
  deriving DecidableEq

/-- The part of `sosc_state_t` that the methods depend on. -/
structure SoscState where
  oscPrefix : OscString
  methods : List Method
  deriving DecidableEq

/-- `lo_server_add_method`. -/
def loServerAddMethod (methods : List Method) (path : OscString)
    (typespec : Option OscString) : List Method :=
  methods ++ [⟨path, typespec⟩]

/-- `lo_server_del_method`, which deletes every method with this path and this
typespec. -/
def loServerDelMethod (methods : List Method) (path : OscString)
    (typespec : Option OscString) : List Method :=
  methods.filter fun m => m ≠ ⟨path, typespec⟩

/-- `osc_path`. -/
def oscPath (path : String) (oscPrefix : OscString) : OscString :=
  oscPrefix.join (.ofString path)

/-! ## The tables -/

/-- A row of a table of methods: a path below the prefix, and a typespec. -/
structure Row where
  path : String
  types : Option String
  deriving DecidableEq

/-- The method that a row stands for under a prefix. -/
def Row.method (row : Row) (oscPrefix : OscString) : Method where
  path := oscPath row.path oscPrefix
  typespec := row.types.map .ofString

/-- Eight groups of eight integers. -/
def sixtyFour : String :=
  "iiiiiiii" ++ "iiiiiiii" ++ "iiiiiiii" ++ "iiiiiiii" ++
    "iiiiiiii" ++ "iiiiiiii" ++ "iiiiiiii" ++ "iiiiiiii"

/-- What `osc_register_methods` registers. -/
def registered : List Row :=
  [⟨"grid/led/set", some "iii"⟩,
    ⟨"grid/led/all", some "i"⟩,
    ⟨"grid/led/map", some "iiiiiiiiii"⟩,
    ⟨"grid/led/col", none⟩,
    ⟨"grid/led/row", none⟩,
    ⟨"grid/led/intensity", some "i"⟩,
    ⟨"grid/led/level/set", some "iii"⟩,
    ⟨"grid/led/level/all", some "i"⟩,
    ⟨"grid/led/level/map", some ("ii" ++ sixtyFour)⟩,
    ⟨"grid/led/level/col", none⟩,
    ⟨"grid/led/level/row", none⟩,
    ⟨"ring/set", some "iii"⟩,
    ⟨"ring/all", some "ii"⟩,
    ⟨"ring/map", some ("i" ++ sixtyFour)⟩,
    ⟨"ring/range", some "iiii"⟩,
    ⟨"ring/intensity", some "i"⟩,
    ⟨"tilt/set", some "ii"⟩]

/-- What `osc_unregister_methods` deletes. -/
def unregistered : List Row :=
  [⟨"grid/led/set", some "iii"⟩,
    ⟨"grid/led/all", some "i"⟩,
    ⟨"grid/led/map", some "iiiiiiiiii"⟩,
    ⟨"grid/led/col", none⟩,
    ⟨"grid/led/row", none⟩,
    ⟨"grid/led/intensity", some "i"⟩,
    ⟨"grid/led/level/set", some "iii"⟩,
    ⟨"grid/led/level/all", some "i"⟩,
    ⟨"grid/led/level/map", some ("ii" ++ sixtyFour)⟩,
    ⟨"grid/led/level/col", none⟩,
    ⟨"grid/led/level/row", none⟩,
    ⟨"ring/set", some "iii"⟩,
    ⟨"ring/all", some "ii"⟩,
    ⟨"ring/map", some ("i" ++ sixtyFour)⟩,
    ⟨"ring/range", some "iiii"⟩,
    ⟨"tilt/set", some "ii"⟩]

/-- `REGISTER_INFO_PROP`, and the methods of `/sys/info` itself. -/
def infoRows (path : String) : List Row :=
  [⟨path, some "si"⟩, ⟨path, some "i"⟩, ⟨path, some ""⟩]

/-- What `osc_register_sys_methods` registers, below `/sys`. -/
def sysRegistered : List Row :=
  infoRows "info/id" ++ infoRows "info/size" ++ infoRows "info/host" ++
    infoRows "info/port" ++ infoRows "info/prefix" ++ infoRows "info/rotation" ++
    infoRows "info" ++
    [⟨"cable", some "s"⟩, ⟨"rotation", some "i"⟩, ⟨"port", some "i"⟩, ⟨"host", some "s"⟩,
      ⟨"prefix", some "s"⟩]

/-! ## Registering and unregistering -/

/-- `osc_register_methods`. -/
def oscRegisterMethods (state : SoscState) : SoscState :=
  { state with
    methods := registered.foldl
      (fun methods row => loServerAddMethod methods (oscPath row.path state.oscPrefix)
        (row.types.map .ofString)) state.methods }

/-- `osc_unregister_methods`. -/
def oscUnregisterMethods (state : SoscState) : SoscState :=
  { state with
    methods := unregistered.foldl
      (fun methods row => loServerDelMethod methods (oscPath row.path state.oscPrefix)
        (row.types.map .ofString)) state.methods }

/-- `osc_register_sys_methods`. -/
def oscRegisterSysMethods (state : SoscState) : SoscState :=
  { state with
    methods := sysRegistered.foldl
      (fun methods row => loServerAddMethod methods (oscPath row.path (.ofString "/sys"))
        (row.types.map .ofString)) state.methods }

/-- The prefix that a `/sys/prefix` message asks for. -/
def newPrefix (arg : OscString) : OscString :=
  if arg.bytes.head? ≠ some OscString.slash then (OscString.ofString "").join arg else arg

/-- `sys_prefix_handler`. -/
def sysPrefixHandler (state : SoscState) (arg : OscString) : SoscState :=
  oscRegisterMethods { oscUnregisterMethods state with oscPrefix := newPrefix arg }

/-- The registrations of `sosc_server_run`, under the configured prefix. -/
def soscServerRun (oscPrefix : OscString) : SoscState :=
  oscRegisterMethods (oscRegisterSysMethods { oscPrefix := oscPrefix, methods := [] })

/-- The methods of a table under a prefix. -/
def methodsUnder (rows : List Row) (oscPrefix : OscString) : List Method :=
  rows.map fun row => row.method oscPrefix

/-- The methods of `osc_register_sys_methods`. -/
def sysMethods : List Method := methodsUnder sysRegistered (.ofString "/sys")

theorem foldl_loServerAddMethod (rows : List Row) (oscPrefix : OscString)
    (methods : List Method) :
    rows.foldl (fun methods row => loServerAddMethod methods (oscPath row.path oscPrefix)
      (row.types.map .ofString)) methods = methods ++ methodsUnder rows oscPrefix := by
  induction rows generalizing methods with
  | nil => exact (List.append_nil methods).symm
  | cons row rows ih =>
    rw [List.foldl_cons, ih, loServerAddMethod, List.append_assoc]
    rfl

theorem foldl_loServerDelMethod (rows : List Row) (oscPrefix : OscString)
    (methods : List Method) :
    rows.foldl (fun methods row => loServerDelMethod methods (oscPath row.path oscPrefix)
      (row.types.map .ofString)) methods =
      methods.filter fun m => m ∉ methodsUnder rows oscPrefix := by
  induction rows generalizing methods with
  | nil => simp [methodsUnder]
  | cons row rows ih =>
    rw [List.foldl_cons, ih, loServerDelMethod, List.filter_filter]
    refine List.filter_congr fun m _ => ?_
    rw [Bool.and_comm, ← Bool.decide_and]
    refine decide_eq_decide.mpr ?_
    have hcons : methodsUnder (row :: rows) oscPrefix =
        row.method oscPrefix :: methodsUnder rows oscPrefix := rfl
    rw [hcons, List.mem_cons, not_or]
    rfl

theorem oscRegisterMethods_methods (state : SoscState) :
    (oscRegisterMethods state).methods =
      state.methods ++ methodsUnder registered state.oscPrefix := by
  simp only [oscRegisterMethods, foldl_loServerAddMethod]

theorem oscUnregisterMethods_methods (state : SoscState) :
    (oscUnregisterMethods state).methods =
      state.methods.filter fun m => m ∉ methodsUnder unregistered state.oscPrefix := by
  simp only [oscUnregisterMethods, foldl_loServerDelMethod]

theorem soscServerRun_methods (oscPrefix : OscString) :
    (soscServerRun oscPrefix).methods = sysMethods ++ methodsUnder registered oscPrefix := by
  rw [soscServerRun, oscRegisterMethods_methods]
  simp only [oscRegisterSysMethods, foldl_loServerAddMethod, List.nil_append, sysMethods]

/-! ## The missing row -/

/-- The row that `osc_unregister_methods` lacks. -/
def ringIntensity : Row := ⟨"ring/intensity", some "i"⟩

theorem registered_eq :
    registered = unregistered.take 15 ++ ringIntensity :: unregistered.drop 15 := rfl

/-- The bytes of a path from its last prefix on. -/
def Row.tail (row : Row) : List UInt8 :=
  OscString.slash :: (OscString.ofString row.path).bytes

theorem Row.tail_suffix (row : Row) (oscPrefix : OscString) :
    row.tail <:+ (row.method oscPrefix).path.bytes :=
  ⟨oscPrefix.bytes, rfl⟩

/-- Two rows whose paths do not end alike never stand for the same method,
whatever the prefixes are. -/
theorem method_ne_of_not_suffix {row row' : Row} {p q : OscString}
    (h : ¬ row.tail <:+ row'.tail) (h' : ¬ row'.tail <:+ row.tail) :
    row.method p ≠ row'.method q := by
  intro heq
  have hsuffix := row.tail_suffix p
  rw [heq] at hsuffix
  exact (List.suffix_or_suffix_of_suffix hsuffix (row'.tail_suffix q)).elim h h'

theorem ringIntensity_notMem (p q : OscString) :
    ringIntensity.method q ∉ methodsUnder unregistered p := by
  intro hmem
  obtain ⟨row, hrow, heq⟩ := List.mem_map.mp hmem
  have hdiffer : ∀ row ∈ unregistered,
      ¬ row.tail <:+ ringIntensity.tail ∧ ¬ ringIntensity.tail <:+ row.tail := by decide
  exact method_ne_of_not_suffix (hdiffer row hrow).1 (hdiffer row hrow).2 heq

/-- No prefix makes a method of the table one of the `/sys` methods. -/
theorem sysMethods_notMem (p : OscString) {m : Method} (hm : m ∈ methodsUnder registered p) :
    m ∉ sysMethods := by
  intro hsys
  obtain ⟨row, hrow, rfl⟩ := List.mem_map.mp hm
  have hdiffer : ∀ s ∈ sysMethods, ∀ row ∈ registered, ¬ row.tail <:+ s.path.bytes := by
    decide
  exact hdiffer _ hsys row hrow (row.tail_suffix p)

theorem mem_methodsUnder_registered {p : OscString} {row : Row} (hrow : row ∈ unregistered) :
    row.method p ∈ methodsUnder unregistered p :=
  List.mem_map.mpr ⟨row, hrow, rfl⟩

/-- Unregistering takes the whole table out again, but for the row it lacks. -/
theorem filter_methodsUnder_registered (p : OscString) :
    (methodsUnder registered p).filter (fun m => m ∉ methodsUnder unregistered p) =
      [ringIntensity.method p] := by
  have hnone (rows : List Row) (hrows : ∀ row ∈ rows, row ∈ unregistered) :
      (methodsUnder rows p).filter (fun m => m ∉ methodsUnder unregistered p) = [] := by
    refine List.filter_eq_nil_iff.mpr fun m hm => ?_
    obtain ⟨row, hrow, rfl⟩ := List.mem_map.mp hm
    simpa using mem_methodsUnder_registered (hrows row hrow)
  have hsplit : methodsUnder registered p =
      methodsUnder (unregistered.take 15) p ++
        ringIntensity.method p :: methodsUnder (unregistered.drop 15) p := by
    rw [registered_eq, methodsUnder, List.map_append, List.map_cons]
    rfl
  rw [hsplit, List.filter_append, List.filter_cons, hnone _ fun row => List.mem_of_mem_take,
    hnone _ fun row => List.mem_of_mem_drop]
  simp [ringIntensity_notMem]

/-! ## Changing the prefix -/

/-- The server holds its own methods, those of the current prefix, and one
for each of the prefixes in `olds`. -/
def Holds (olds : List OscString) (state : SoscState) : Prop :=
  state.methods = sysMethods ++ olds.map ringIntensity.method ++
    methodsUnder registered state.oscPrefix

theorem holds_soscServerRun (p : OscString) : Holds [] (soscServerRun p) := by
  rw [Holds, soscServerRun_methods, List.map_nil, List.append_nil]
  rfl

/-- A change of the prefix leaves one more method behind. -/
theorem Holds.sysPrefixHandler {olds : List OscString} {state : SoscState}
    (h : Holds olds state) (arg : OscString) :
    Holds (olds ++ [state.oscPrefix]) (sysPrefixHandler state arg) := by
  have hsys : sysMethods.filter (fun m => m ∉ methodsUnder unregistered state.oscPrefix) =
      sysMethods := by
    refine List.filter_eq_self.mpr fun m hm => decide_eq_true fun hmem => ?_
    obtain ⟨row, hrow, rfl⟩ := List.mem_map.mp hmem
    have hrow' : row ∈ registered := by
      rw [registered_eq, List.mem_append, List.mem_cons]
      rw [← List.take_append_drop 15 unregistered, List.mem_append] at hrow
      exact hrow.imp_right Or.inr
    exact sysMethods_notMem state.oscPrefix (List.mem_map.mpr ⟨row, hrow', rfl⟩) hm
  have holds : (olds.map ringIntensity.method).filter
      (fun m => m ∉ methodsUnder unregistered state.oscPrefix) =
      olds.map ringIntensity.method := by
    refine List.filter_eq_self.mpr fun m hm => decide_eq_true ?_
    obtain ⟨q, -, rfl⟩ := List.mem_map.mp hm
    exact ringIntensity_notMem state.oscPrefix q
  rw [Holds, Serialosc.sysPrefixHandler, oscRegisterMethods_methods]
  simp only [oscUnregisterMethods_methods]
  rw [h, List.filter_append, List.filter_append, hsys, holds, filter_methodsUnder_registered,
    List.map_append, List.map_singleton, ← List.append_assoc sysMethods]
  rfl

/-- The prefixes that a sequence of messages has replaced. -/
def formers (p : OscString) : List OscString → List OscString
  | [] => []
  | arg :: args => p :: formers (newPrefix arg) args

theorem length_formers (p : OscString) (args : List OscString) :
    (formers p args).length = args.length := by
  induction args generalizing p with
  | nil => rfl
  | cons arg args ih => rw [formers, List.length_cons, List.length_cons, ih]

theorem Holds.foldl {olds : List OscString} {state : SoscState} (h : Holds olds state)
    (args : List OscString) :
    Holds (olds ++ formers state.oscPrefix args) (args.foldl Serialosc.sysPrefixHandler state) := by
  induction args generalizing olds state with
  | nil => rwa [formers, List.append_nil]
  | cons arg args ih =>
    have hrest := ih (h.sysPrefixHandler arg)
    rw [List.append_assoc] at hrest
    exact hrest

/-- What the server holds after any sequence of `/sys/prefix` messages. -/
theorem sysPrefixHandler_methods (p : OscString) (args : List OscString) :
    (args.foldl sysPrefixHandler (soscServerRun p)).methods =
      sysMethods ++ (formers p args).map ringIntensity.method ++
        methodsUnder registered (args.foldl sysPrefixHandler (soscServerRun p)).oscPrefix :=
  (holds_soscServerRun p).foldl args

/-- Apart from the `/sys` methods, the server holds the table of
`osc_register_methods` under the current prefix. -/
def MethodsMatch (state : SoscState) : Prop :=
  (state.methods.filter fun m => m ∉ sysMethods).Perm
    (methodsUnder registered state.oscPrefix)

theorem Holds.matches_iff {olds : List OscString} {state : SoscState}
    (h : Holds olds state) : MethodsMatch state ↔ olds = [] := by
  have hkeep (rows : List Method) (hrows : ∀ m ∈ rows, m ∉ sysMethods) :
      rows.filter (fun m => m ∉ sysMethods) = rows :=
    List.filter_eq_self.mpr fun m hm => decide_eq_true (hrows m hm)
  have hsys : sysMethods.filter (fun m => m ∉ sysMethods) = [] :=
    List.filter_eq_nil_iff.mpr fun m hm => by simpa using hm
  have holds : ∀ m ∈ olds.map ringIntensity.method, m ∉ sysMethods := by
    intro m hm
    obtain ⟨q, -, rfl⟩ := List.mem_map.mp hm
    refine sysMethods_notMem q (List.mem_map.mpr ⟨ringIntensity, ?_, rfl⟩)
    rw [registered_eq]
    exact List.mem_append_right _ List.mem_cons_self
  rw [MethodsMatch, h, List.filter_append, List.filter_append, hsys, hkeep _ holds,
    hkeep _ fun m => sysMethods_notMem state.oscPrefix, List.nil_append]
  constructor
  · intro hperm
    have hlength := hperm.length_eq
    rw [List.length_append, List.length_map] at hlength
    exact List.eq_nil_of_length_eq_zero (Nat.add_eq_right.mp hlength)
  · rintro rfl
    exact List.Perm.refl _

/-- Whatever the prefixes are, the methods match the current one as long as it
is the first. -/
theorem methodsMatch_iff (p : OscString) (args : List OscString) :
    MethodsMatch (args.foldl sysPrefixHandler (soscServerRun p)) ↔ args = [] := by
  rw [((holds_soscServerRun p).foldl args).matches_iff, List.nil_append,
    ← List.length_eq_zero_iff, length_formers, List.length_eq_zero_iff]

/-- After `/sys/prefix foo`, the server still answers to
`/monome/ring/intensity`. -/
theorem methodsMatch_fails :
    ¬ MethodsMatch (sysPrefixHandler (soscServerRun (.ofString "/monome")) (.ofString "foo")) ∧
      ⟨.ofString "/monome/ring/intensity", some (.ofString "i")⟩ ∈
        (sysPrefixHandler (soscServerRun (.ofString "/monome")) (.ofString "foo")).methods := by
  have hholds := (holds_soscServerRun (.ofString "/monome")).sysPrefixHandler (.ofString "foo")
  refine ⟨fun h => List.cons_ne_nil _ _ (hholds.matches_iff.mp h), ?_⟩
  rw [show (sysPrefixHandler _ _).methods = _ from hholds]
  exact List.mem_append_left _ (List.mem_append_right _ List.mem_cons_self)

end Serialosc
