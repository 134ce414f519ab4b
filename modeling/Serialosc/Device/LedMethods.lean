import Serialosc.Device.Leds

/-!
# The table of LED methods

The methods of `osc_register_methods` as a whole.  Seven of its handlers pass an
array on and are treated with the arrays; the other ten pass their integers on,
three of them not as they are.

`runMethod_registered` is about every row of the table and every message that
liblo delivers for it.  Which rows are registered, and how often, after the prefix
has changed is the other half: `methodsAt_eq` lists the methods of an address,
whatever prefixes there have been.
-/

namespace Serialosc.Leds

open Statement

/-! ## The handlers of integers -/

/-- The functions of libmonome that take integers only. -/
inductive IntFunction
  | ledSet
  | ledAll
  | ledIntensity
  | ledLevelSet
  | ledLevelAll
  | ledRingSet
  | ledRingAll
  | ledRingRange
  | ledRingIntensity
  | tiltEnable
  | tiltDisable
  deriving DecidableEq, Repr

/-- A call of one of them. -/
structure IntCall where
  fn : IntFunction
  args : List (BitVec 32)
  deriving DecidableEq

/-- The local state of a handler of integers. -/
structure IntLocals where
  argv : List LoArg
  calls : List IntCall
  deriving DecidableEq

/-- `argv[k]->i`. -/
def argument (k : ℕ) : Statement IntLocals Exit (BitVec 32) := do
  let l ← get
  match l.argv[k]? with
  | some arg => return arg.i
  | none => leave .outOfBounds

/-- The first `n` arguments. -/
def arguments : ℕ → Statement IntLocals Exit (List (BitVec 32))
  | 0 => return []
  | n + 1 => do
      let args ← arguments n
      let x ← argument n
      return args ++ [x]

/-- `!!x`. -/
def notNot (x : BitVec 32) : BitVec 32 := if x = 0 then 0 else 1

section Handlers

variable (monome : IntCall → ℤ)

/-- `return monome_…(monome, args…)`. -/
def callInts (fn : IntFunction) (args : List (BitVec 32)) : Statement IntLocals Exit ℤ := do
  let l ← get
  let call : IntCall := ⟨fn, args⟩
  set { l with calls := l.calls ++ [call] }
  return monome call

/-- The handlers that pass their arguments on as they are. -/
def intsHandler (fn : IntFunction) (n : ℕ) : Statement IntLocals Exit ℤ := do
  let args ← arguments n
  callInts monome fn args

/-- `led_set_handler`. -/
def ledSetHandler : Statement IntLocals Exit ℤ := do
  let x ← argument 0
  let y ← argument 1
  let on ← argument 2
  callInts monome .ledSet [x, y, notNot on]

/-- `led_all_handler`. -/
def ledAllHandler : Statement IntLocals Exit ℤ := do
  let on ← argument 0
  callInts monome .ledAll [notNot on]

/-- `led_intensity_handler`. -/
def ledIntensityHandler : Statement IntLocals Exit ℤ := intsHandler monome .ledIntensity 1

/-- `led_level_set_handler`. -/
def ledLevelSetHandler : Statement IntLocals Exit ℤ := intsHandler monome .ledLevelSet 3

/-- `led_level_all_handler`. -/
def ledLevelAllHandler : Statement IntLocals Exit ℤ := intsHandler monome .ledLevelAll 1

/-- `led_ring_set_handler`. -/
def ledRingSetHandler : Statement IntLocals Exit ℤ := intsHandler monome .ledRingSet 3

/-- `led_ring_all_handler`. -/
def ledRingAllHandler : Statement IntLocals Exit ℤ := intsHandler monome .ledRingAll 2

/-- `led_ring_range_handler`. -/
def ledRingRangeHandler : Statement IntLocals Exit ℤ := intsHandler monome .ledRingRange 4

/-- `led_ring_intensity_handler`. -/
def ledRingIntensityHandler : Statement IntLocals Exit ℤ :=
  intsHandler monome .ledRingIntensity 1

/-- `tilt_set_handler`. -/
def tiltSetHandler : Statement IntLocals Exit ℤ := do
  let on ← argument 1
  if on ≠ 0 then
    let sensor ← argument 0
    callInts monome .tiltEnable [sensor]
  else
    let sensor ← argument 0
    callInts monome .tiltDisable [sensor]

end Handlers

/-! ## All methods -/

/-- The methods whose handlers pass integers on. -/
inductive IntMethod
  | ledSet
  | ledAll
  | ledIntensity
  | ledLevelSet
  | ledLevelAll
  | ringSet
  | ringAll
  | ringRange
  | ringIntensity
  | tiltSet
  deriving DecidableEq, Repr

namespace IntMethod

/-- The path below the prefix that the handler is registered for. -/
def path : IntMethod → String
  | .ledSet => "grid/led/set"
  | .ledAll => "grid/led/all"
  | .ledIntensity => "grid/led/intensity"
  | .ledLevelSet => "grid/led/level/set"
  | .ledLevelAll => "grid/led/level/all"
  | .ringSet => "ring/set"
  | .ringAll => "ring/all"
  | .ringRange => "ring/range"
  | .ringIntensity => "ring/intensity"
  | .tiltSet => "tilt/set"

/-- The handler that `osc_register_methods` registers. -/
def handler (monome : IntCall → ℤ) : IntMethod → Statement IntLocals Exit ℤ
  | .ledSet => ledSetHandler monome
  | .ledAll => ledAllHandler monome
  | .ledIntensity => ledIntensityHandler monome
  | .ledLevelSet => ledLevelSetHandler monome
  | .ledLevelAll => ledLevelAllHandler monome
  | .ringSet => ledRingSetHandler monome
  | .ringAll => ledRingAllHandler monome
  | .ringRange => ledRingRangeHandler monome
  | .ringIntensity => ledRingIntensityHandler monome
  | .tiltSet => tiltSetHandler monome

/-- How many integers a message to the method has. -/
def arity : IntMethod → ℕ
  | .ledAll | .ledIntensity | .ledLevelAll | .ringIntensity => 1
  | .ringAll | .tiltSet => 2
  | .ledSet | .ledLevelSet | .ringSet => 3
  | .ringRange => 4

/-- The call that a message with the integers `xs` asks for. -/
def asked : IntMethod → List (BitVec 32) → IntCall
  | .ledSet, xs => ⟨.ledSet, xs.take 2 ++ (xs.drop 2).map notNot⟩
  | .ledAll, xs => ⟨.ledAll, xs.map notNot⟩
  | .ledIntensity, xs => ⟨.ledIntensity, xs⟩
  | .ledLevelSet, xs => ⟨.ledLevelSet, xs⟩
  | .ledLevelAll, xs => ⟨.ledLevelAll, xs⟩
  | .ringSet, xs => ⟨.ledRingSet, xs⟩
  | .ringAll, xs => ⟨.ledRingAll, xs⟩
  | .ringRange, xs => ⟨.ledRingRange, xs⟩
  | .ringIntensity, xs => ⟨.ledRingIntensity, xs⟩
  | .tiltSet, xs => ⟨if xs[1]? = some 0 then .tiltDisable else .tiltEnable, xs.take 1⟩

end IntMethod

/-- A handler of integers runs on a message. -/
def runInts (handler : Statement IntLocals Exit ℤ) (msg : LoMessage) :
    Option (ℤ × List IntCall) :=
  match handler ⟨msg.argv, []⟩ with
  | (.ok status, l) => some (status, l.calls)
  | (.error (.returned status), l) => some (status, l.calls)
  | (.error .outOfBounds, _) => none

/-- A method of the table. -/
inductive MextMethod
  | array (fn : LedFunction)
  | ints (method : IntMethod)
  deriving DecidableEq, Repr

/-- A call of libmonome. -/
inductive MonomeCall
  | array (call : LedCall)
  | ints (call : IntCall)
  deriving DecidableEq

namespace MextMethod

def path : MextMethod → String
  | .array fn => fn.path
  | .ints method => method.path

variable (lo : LoCoerce) (monome : MonomeCall → ℤ) (garbage : ℕ → UInt8)

/-- The handler of the method runs on a message. -/
def run (msg : LoMessage) : MextMethod → Option (ℤ × List MonomeCall)
  | .array fn =>
      (runHandler (fn.handler lo fun call => monome (.array call)) garbage msg).map
        fun r => (r.1, r.2.map .array)
  | .ints method =>
      (runInts (method.handler fun call => monome (.ints call)) msg).map
        fun r => (r.1, r.2.map .ints)

/-- The call is the one that the message asks the method for. -/
def Asks (msg : LoMessage) : MextMethod → MonomeCall → Prop
  | .array fn, .array call => PassesOn lo fn msg call
  | .ints method, .ints call => call = method.asked (msg.argv.map LoArg.i)
  | _, _ => False

end MextMethod

/-! ## What the handlers do -/

section

variable {monome : IntCall → ℤ}

theorem ends_argument {l : IntLocals} {k : ℕ} {arg : LoArg} {Q : BitVec 32 → IntLocals → Prop}
    {E : Exit → IntLocals → Prop} (harg : l.argv[k]? = some arg) :
    Ends (argument k) l Q E ↔ Q arg.i l := by
  rw [argument, ends_bind, ends_get, harg]
  exact ends_pure

theorem ends_arguments {l : IntLocals} {n : ℕ} {E : Exit → IntLocals → Prop}
    (hn : n ≤ l.argv.length) :
    Ends (arguments n) l
      (fun args l' => l' = l ∧ args = (l.argv.take n).map LoArg.i) E := by
  induction n with
  | zero => exact ⟨rfl, rfl⟩
  | succ n ih =>
    rw [arguments, ends_bind]
    refine (ih (Nat.le_of_succ_le hn)).mono ?_ fun _ _ h => h
    rintro _ _ ⟨rfl, rfl⟩
    rw [ends_bind, ends_argument (List.getElem?_eq_getElem hn), ends_pure,
      List.take_succ_eq_append_getElem hn, List.map_append]
    exact ⟨rfl, rfl⟩

theorem runInts_of_ends {handler : Statement IntLocals Exit ℤ} {msg : LoMessage} {call : IntCall}
    (hends : Ends handler ⟨msg.argv, []⟩
      (fun status l => status = monome call ∧ l.calls = [call]) fun _ _ => False) :
    runInts handler msg = some (monome call, [call]) := by
  rw [runInts]
  rcases hrun : handler ⟨msg.argv, []⟩ with ⟨e | status, l⟩
  · exact ((ends_of_error hrun).mp hends).elim
  · obtain ⟨hstatus, hcalls⟩ := (ends_of_ok hrun).mp hends
    dsimp only
    rw [hstatus, hcalls]

/-- The handlers that pass their arguments on as they are. -/
theorem runInts_intsHandler {fn : IntFunction} {msg : LoMessage} :
    runInts (intsHandler monome fn msg.argc) msg =
      some (monome ⟨fn, msg.argv.map LoArg.i⟩, [⟨fn, msg.argv.map LoArg.i⟩]) := by
  apply runInts_of_ends
  rw [intsHandler, ends_bind]
  refine (ends_arguments msg.length_argv.ge).mono ?_ fun _ _ h => h
  rintro _ _ ⟨rfl, rfl⟩
  have hall : msg.argv.take msg.argc = msg.argv := List.take_of_length_le msg.length_argv.le
  rw [hall]
  exact ⟨rfl, rfl⟩

/-- Every handler of integers makes the call that it is asked for. -/
theorem runInts_handler (method : IntMethod) {msg : LoMessage} (hargc : msg.argc = method.arity) :
    let call := method.asked (msg.argv.map LoArg.i)
    runInts (method.handler monome) msg = some (monome call, [call]) := by
  have hints {fn : IntFunction} {n : ℕ} (hn : msg.argc = n) :
      runInts (intsHandler monome fn n) msg =
        some (monome ⟨fn, msg.argv.map LoArg.i⟩, [⟨fn, msg.argv.map LoArg.i⟩]) := by
    rw [← hn]
    exact runInts_intsHandler
  have hlength := msg.length_argv.trans hargc
  cases method with
  | ledIntensity => exact hints hargc
  | ledLevelSet => exact hints hargc
  | ledLevelAll => exact hints hargc
  | ringSet => exact hints hargc
  | ringAll => exact hints hargc
  | ringRange => exact hints hargc
  | ringIntensity => exact hints hargc
  | ledSet =>
    obtain ⟨x, y, on, hargv⟩ := List.length_eq_three.mp hlength
    rw [runInts, hargv]
    rfl
  | ledAll =>
    obtain ⟨on, hargv⟩ := List.length_eq_one_iff.mp hlength
    rw [runInts, hargv]
    rfl
  | tiltSet =>
    obtain ⟨sensor, on, hargv⟩ := List.length_eq_two.mp hlength
    apply runInts_of_ends
    rw [hargv, IntMethod.handler, tiltSetHandler, ends_bind, ends_argument rfl]
    by_cases hon : on.i = 0
    · rw [if_neg (not_not.mpr hon), ends_bind, ends_argument rfl]
      simp only [IntMethod.asked, List.map_cons, List.map_nil, List.getElem?_cons_succ,
        List.getElem?_cons_zero, hon, if_true]
      exact ⟨rfl, rfl⟩
    · rw [if_pos hon, ends_bind, ends_argument rfl]
      have hne : some on.i ≠ some 0 := fun h => hon (Option.some.inj h)
      simp only [IntMethod.asked, List.map_cons, List.map_nil, List.getElem?_cons_succ,
        List.getElem?_cons_zero, hne, if_false]
      exact ⟨rfl, rfl⟩

end

/-! ## Every row of the table -/

/-- liblo delivers the message for the row: it has the types of the row, if that
has any. -/
def Delivered (row : Row) (msg : LoMessage) : Prop :=
  ∀ typespec, row.types = some typespec → msg.types.map LoType.tag = typespec.toList

section

variable {lo : LoCoerce} {monome : MonomeCall → ℤ} {garbage : ℕ → UInt8} {row : Row}
  {msg : LoMessage}

theorem exists_method (hrow : row ∈ registered) :
    ∃ method : MextMethod, method.path = row.path := by
  have hall : ∀ path ∈ registered.map Row.path,
      path ∈ ([.ints .ledSet, .ints .ledAll, .array .ledMap, .array .ledCol, .array .ledRow,
        .ints .ledIntensity, .ints .ledLevelSet, .ints .ledLevelAll, .array .ledLevelMap,
        .array .ledLevelCol, .array .ledLevelRow, .ints .ringSet, .ints .ringAll,
        .array .ledRingMap, .ints .ringRange, .ints .ringIntensity, .ints .tiltSet] :
          List MextMethod).map MextMethod.path := by
    decide
  obtain ⟨method, -, hmethod⟩ := List.mem_map.mp (hall _ (List.mem_map_of_mem hrow))
  exact ⟨method, hmethod⟩

/-- A row whose types are `n` integers gets `n` arguments. -/
theorem Delivered.argc (hmsg : Delivered row msg) {n : ℕ}
    (htypes : row.types.map String.toList = some (List.replicate n 'i')) : msg.argc = n := by
  obtain ⟨typespec, htypespec, hspec⟩ := Option.map_eq_some_iff.mp htypes
  have hlength := congrArg List.length ((hmsg typespec htypespec).trans hspec)
  rwa [List.length_map, msg.length_types, List.length_replicate] at hlength

/-- The message is refused with the status 1, as the row has no types and the message
is none of those that are accepted; or the call that it asks for is made. -/
def Answered (lo : LoCoerce) (monome : MonomeCall → ℤ) (row : Row) (msg : LoMessage)
    (method : MextMethod) (status : ℤ) (calls : List MonomeCall) : Prop :=
  row.types = none ∧ ¬ Accepts msg ∧ status = 1 ∧ calls = [] ∨
    (row.types = none → Accepts msg) ∧
      ∃ call, calls = [call] ∧ status = monome call ∧ method.Asks lo msg call

theorem answered_map {fn : LedFunction} (htypes : row.types ≠ none)
    (h : ∃ status calls,
      runHandler (fn.handler lo fun call => monome (.array call)) garbage msg =
        some (status, calls) ∧
      PassedOn lo (fun call => monome (.array call)) fn msg status calls) :
    ∃ status calls, (MextMethod.array fn).run lo monome garbage msg = some (status, calls) ∧
      Answered lo monome row msg (.array fn) status calls := by
  obtain ⟨status, calls, hrun, call, rfl, hstatus, hpasses⟩ := h
  refine ⟨status, [.array call], ?_, .inr ⟨fun h => absurd h htypes, ?_⟩⟩
  · rw [MextMethod.run, hrun]
    rfl
  · exact ⟨.array call, rfl, hstatus, hpasses⟩

theorem answered_line {fn : LedFunction} (htypes : row.types = none)
    (h : ∃ status calls,
      runHandler (fn.handler lo fun call => monome (.array call)) garbage msg =
        some (status, calls) ∧
      (¬ Accepts msg ∧ Refused status calls ∨
        Accepts msg ∧ PassedOn lo (fun call => monome (.array call)) fn msg status calls)) :
    ∃ status calls, (MextMethod.array fn).run lo monome garbage msg = some (status, calls) ∧
      Answered lo monome row msg (.array fn) status calls := by
  obtain ⟨status, calls, hrun, hended⟩ := h
  refine ⟨status, calls.map .array, ?_, ?_⟩
  · rw [MextMethod.run, hrun]
    rfl
  · rcases hended with ⟨hno, rfl, rfl⟩ | ⟨haccepts, call, rfl, hstatus, hpasses⟩
    · exact .inl ⟨htypes, hno, rfl, rfl⟩
    · exact .inr ⟨fun _ => haccepts, .array call, rfl, hstatus, hpasses⟩

theorem answered_ints {method : IntMethod} (htypes : row.types ≠ none)
    (hargc : msg.argc = method.arity) :
    ∃ status calls, (MextMethod.ints method).run lo monome garbage msg = some (status, calls) ∧
      Answered lo monome row msg (.ints method) status calls := by
  let call : MonomeCall := .ints (method.asked (msg.argv.map LoArg.i))
  have hrun : runInts (method.handler fun call => monome (.ints call)) msg =
      some (monome call, [method.asked (msg.argv.map LoArg.i)]) := runInts_handler method hargc
  refine ⟨monome call, [call], ?_, .inr ⟨fun h => absurd h htypes, call, rfl, rfl, rfl⟩⟩
  rw [MextMethod.run, hrun]
  rfl

/-- Whatever message liblo delivers for a row of the table, the handler of the row
stays inside its arrays, and either makes the one call of libmonome that the message
asks for or refuses the message before any call.  It refuses only where the row has no
types. -/
theorem runMethod_registered (lo : LoCoerce) (monome : MonomeCall → ℤ) (garbage : ℕ → UInt8)
    (row : Row) (hrow : row ∈ registered) (msg : LoMessage) (hmsg : Delivered row msg) :
    (∃ method : MextMethod, method.path = row.path) ∧
      ∀ method : MextMethod, method.path = row.path → ∃ status calls,
        method.run lo monome garbage msg = some (status, calls) ∧
          Answered lo monome row msg method status calls := by
  refine ⟨exists_method hrow, fun method hpath => ?_⟩
  have hrows {P : Row → Prop} (hP : ∀ row ∈ registered, row.path = method.path → P row) : P row :=
    hP row hrow hpath.symm
  have hmap {n : ℕ} (h : ∀ row ∈ registered, row.path = method.path →
      row.types.map String.toList = some (List.replicate n 'i')) : row.types ≠ none := by
    intro hnone
    have hn := hrows h
    rw [hnone] at hn
    cases hn
  have hline (h : ∀ row ∈ registered, row.path = method.path → row.types = none) :
      row.types = none := hrows h
  cases method with
  | array fn =>
    have hdispatched : Dispatched fn msg := ⟨row, hrow, hpath.symm, hmsg⟩
    cases fn with
    | ledMap =>
      obtain ⟨hargc, htypes⟩ := hdispatched.types 10 (by decide)
      exact answered_map (hmap (n := 10) (by decide)) (runHandler_mapHandler hargc htypes rfl)
    | ledLevelMap =>
      obtain ⟨hargc, htypes⟩ := hdispatched.types 66 (by decide)
      exact answered_map (hmap (n := 66) (by decide)) (runHandler_mapHandler hargc htypes rfl)
    | ledRingMap =>
      obtain ⟨hargc, htypes⟩ := hdispatched.types 65 (by decide)
      exact answered_map (hmap (n := 65) (by decide)) (runHandler_mapHandler hargc htypes rfl)
    | ledCol => exact answered_line (hline (by decide)) (runHandler_lineHandler rfl)
    | ledRow => exact answered_line (hline (by decide)) (runHandler_lineHandler rfl)
    | ledLevelCol => exact answered_line (hline (by decide)) (runHandler_lineHandler rfl)
    | ledLevelRow => exact answered_line (hline (by decide)) (runHandler_lineHandler rfl)
  | ints method =>
    have harity : ∀ row ∈ registered, row.path = method.path →
        row.types.map String.toList = some (List.replicate method.arity 'i') := by
      cases method <;> decide
    exact answered_ints (hmap harity) (hmsg.argc (hrows harity))

end

/-- The sensor 2 is turned on. -/
def sampleTilt : LoMessage where
  args := [(.int32, ⟨2, []⟩), (.int32, ⟨1, []⟩)]

theorem runMethod_registered_sampleTilt :
    (∃ method : MextMethod, method.path = "tilt/set") ∧
      ∀ method : MextMethod, method.path = "tilt/set" → ∃ status calls,
        method.run sampleCoerce (fun _ => 0) (fun _ => 0) sampleTilt = some (status, calls) ∧
          Answered sampleCoerce (fun _ => 0) ⟨"tilt/set", some "ii"⟩ sampleTilt method status
            calls := by
  refine runMethod_registered sampleCoerce (fun _ => 0) (fun _ => 0) ⟨"tilt/set", some "ii"⟩
    (by decide) sampleTilt ?_
  intro typespec htypes
  obtain rfl := Option.some.inj htypes
  decide

end Serialosc.Leds

/-! ## The methods of an address -/

namespace Serialosc

/-- The methods that are registered for an address. -/
def methodsAt (methods : List Method) (path : OscString) : List Method :=
  methods.filter (·.path = path)

/-- Two rows with methods of the same path are the same row, under the same
prefix. -/
theorem eq_of_path_eq {row row' : Row} (hrow : row ∈ registered) (hrow' : row' ∈ registered)
    {p q : OscString} (h : (row.method p).path = (row'.method q).path) : row = row' ∧ p = q := by
  have hdiffer : ∀ row ∈ registered, ∀ row' ∈ registered, row ≠ row' →
      ¬ row.tail <:+ row'.tail := by
    decide
  have hsuffix := row.tail_suffix p
  rw [h] at hsuffix
  have heq : row = row' := by
    by_contra hne
    rcases List.suffix_or_suffix_of_suffix hsuffix (row'.tail_suffix q) with htail | htail
    · exact hdiffer row hrow row' hrow' hne htail
    · exact hdiffer row' hrow' row hrow (Ne.symm hne) htail
  subst heq
  refine ⟨rfl, OscString.ext ?_⟩
  have hbytes : p.bytes ++ row.tail = q.bytes ++ row.tail := congrArg OscString.bytes h
  exact List.append_cancel_right hbytes

section

variable {row : Row}

theorem path_eq_iff (hrow : row ∈ registered) {row' : Row} (hrow' : row' ∈ registered)
    (p q : OscString) : (row'.method p).path = (row.method q).path ↔ row' = row ∧ p = q := by
  constructor
  · exact eq_of_path_eq hrow' hrow
  · rintro ⟨rfl, rfl⟩
    rfl

theorem methodsAt_sysMethods (hrow : row ∈ registered) (q : OscString) :
    methodsAt sysMethods (row.method q).path = [] := by
  have hdiffer : ∀ s ∈ sysMethods, ∀ row ∈ registered, ¬ row.tail <:+ s.path.bytes := by
    decide
  refine List.filter_eq_nil_iff.mpr fun m hm hpath => ?_
  apply hdiffer m hm row hrow
  rw [of_decide_eq_true hpath]
  exact row.tail_suffix q

theorem methodsAt_registered (hrow : row ∈ registered) (p q : OscString) :
    methodsAt (methodsUnder registered p) (row.method q).path =
      List.replicate (if p = q then 1 else 0) (row.method q) := by
  have hnodup : registered.Nodup := by decide
  rw [methodsAt, methodsUnder, List.filter_map]
  by_cases hp : p = q
  · have hfilter : registered.filter (fun row' => decide (row' = row)) = [row] := by
      rw [List.filter_eq, hnodup.count, if_pos hrow]
      rfl
    have hsame : registered.filter
        ((fun m : Method => decide (m.path = (row.method q).path)) ∘ fun row => row.method p) =
          registered.filter (fun row' => decide (row' = row)) := by
      refine List.filter_congr fun row' hrow' => decide_eq_decide.mpr ?_
      exact (path_eq_iff hrow hrow' p q).trans (and_iff_left hp)
    rw [hsame, hfilter, if_pos hp, hp]
    rfl
  · rw [if_neg hp, List.replicate_zero, List.map_eq_nil_iff]
    refine List.filter_eq_nil_iff.mpr fun row' hrow' hpath => hp ?_
    exact ((path_eq_iff hrow hrow' p q).mp (of_decide_eq_true hpath)).2

/-- Of the methods that were left behind, those under the given prefix are registered for
`ring/intensity`, and none for another address. -/
theorem methodsAt_ringIntensity (hrow : row ∈ registered) (olds : List OscString)
    (q : OscString) :
    methodsAt (olds.map ringIntensity.method) (row.method q).path =
      List.replicate (if row = ringIntensity then olds.count q else 0) (row.method q) := by
  have hring : ringIntensity ∈ registered := by decide
  rw [methodsAt, List.filter_map]
  by_cases heq : row = ringIntensity
  · have hsame : olds.filter
        ((fun m : Method => decide (m.path = (row.method q).path)) ∘ ringIntensity.method) =
          olds.filter (fun p => decide (p = q)) := by
      refine List.filter_congr fun p _ => decide_eq_decide.mpr ?_
      exact (path_eq_iff hrow hring p q).trans (and_iff_right heq.symm)
    rw [hsame, List.filter_eq, List.map_replicate, if_pos heq, heq]
  · rw [if_neg heq, List.replicate_zero, List.map_eq_nil_iff]
    refine List.filter_eq_nil_iff.mpr fun p _ hpath => heq ?_
    exact ((path_eq_iff hrow hring p q).mp (of_decide_eq_true hpath)).1.symm

end

/-- After any sequence of `/sys/prefix` messages, an address of the table has the one method
of its row if it is under the current prefix.  Besides, `ring/intensity` has another one for
every time that its prefix has been given up, and so more than one where a prefix has come
back. -/
theorem methodsAt_eq (p : OscString) (args : List OscString) (row : Row)
    (hrow : row ∈ registered) (q : OscString) :
    let state := args.foldl sysPrefixHandler (soscServerRun p)
    methodsAt state.methods (oscPath row.path q) =
      List.replicate ((if state.oscPrefix = q then 1 else 0) +
        if row = ringIntensity then (formers p args).count q else 0) (row.method q) := by
  intro state
  have hmethods : state.methods = sysMethods ++ (formers p args).map ringIntensity.method ++
      methodsUnder registered state.oscPrefix := sysPrefixHandler_methods p args
  have hpath : oscPath row.path q = (row.method q).path := rfl
  have happend (ms ms' : List Method) (path : OscString) :
      methodsAt (ms ++ ms') path = methodsAt ms path ++ methodsAt ms' path :=
    List.filter_append ..
  rw [hpath, hmethods, happend, happend, methodsAt_sysMethods hrow, methodsAt_ringIntensity hrow,
    methodsAt_registered hrow, List.nil_append, List.replicate_append_replicate, Nat.add_comm]

/-- From `/monome` to `/a` and back, `ring/intensity` is registered twice. -/
theorem methodsAt_eq_back :
    let state := [OscString.ofString "/a", .ofString "/monome"].foldl sysPrefixHandler
      (soscServerRun (.ofString "/monome"))
    methodsAt state.methods (oscPath "ring/intensity" (.ofString "/monome")) =
      List.replicate 2 (ringIntensity.method (.ofString "/monome")) :=
  methodsAt_eq (.ofString "/monome") [.ofString "/a", .ofString "/monome"] ringIntensity
    (by decide) (.ofString "/monome")

end Serialosc
