import Serialosc.Device.Methods
import Serialosc.Support.Statements

/-!
# The handlers that light LEDs from an array

Seven methods take some offsets and then an array of levels.  The maps have a
typespec, so liblo delivers as many integers as they read.  The columns and
rows have none: they check the number of arguments themselves and coerce each
argument to an integer in place, before they copy any of them.

A handler is a statement over its argument vector, its local buffer and the
calls of libmonome so far.  An access outside the vector or the buffer leaves
the handler with `Exit.outOfBounds`.
-/

namespace Serialosc.Leds

open Statement

/-! ## Messages -/

/-- `lo_type`. -/
inductive LoType
  | int32
  | float
  | string
  | blob
  | int64
  | timetag
  | double
  | symbol
  | char
  | midi
  | true
  | false
  | nil
  | infinitum
  deriving DecidableEq, Repr

/-- The tag in a typespec. -/
def LoType.tag : LoType → Char
  | .int32 => 'i'
  | .float => 'f'
  | .string => 's'
  | .blob => 'b'
  | .int64 => 'h'
  | .timetag => 't'
  | .double => 'd'
  | .symbol => 'S'
  | .char => 'c'
  | .midi => 'm'
  | .true => 'T'
  | .false => 'F'
  | .nil => 'N'
  | .infinitum => 'I'

/-- `lo_is_numerical_type`. -/
def LoType.isNumerical : LoType → Bool
  | .int32 | .float | .int64 | .double => Bool.true
  | .string | .blob | .timetag | .symbol | .char | .midi | .true | .false | .nil
  | .infinitum => Bool.false

/-- What an entry of `argv` points to: the member `i` of the union, and the bytes
behind it. -/
structure LoArg where
  i : BitVec 32
  behind : List UInt8
  deriving DecidableEq

/-- `lo_coerce` with the target `LO_INT32`, which liblo provides. -/
structure LoCoerce where
  toInt32 : LoType → LoArg → Option (BitVec 32)
  isSome_toInt32 : ∀ type src, (toInt32 type src).isSome = type.isNumerical
  toInt32_int32 : ∀ src, toInt32 .int32 src = some src.i

/-- A message as a handler gets it: an argument has its type in `types` and its
value in `argv`. -/
structure LoMessage where
  args : List (LoType × LoArg)
  deriving DecidableEq

namespace LoMessage

def types (msg : LoMessage) : List LoType := msg.args.map Prod.fst

def argv (msg : LoMessage) : List LoArg := msg.args.map Prod.snd

def argc (msg : LoMessage) : ℕ := msg.args.length

@[simp] theorem length_types (msg : LoMessage) : msg.types.length = msg.argc := List.length_map ..

@[simp] theorem length_argv (msg : LoMessage) : msg.argv.length = msg.argc := List.length_map ..

end LoMessage

/-! ## The handlers -/

/-- The functions of libmonome that take an array. -/
inductive LedFunction
  | ledMap
  | ledCol
  | ledRow
  | ledLevelMap
  | ledLevelCol
  | ledLevelRow
  | ledRingMap
  deriving DecidableEq, Repr

/-- A call of libmonome.  The maps have no parameter for the number of bytes:
they read as many as the map has LEDs. -/
structure LedCall where
  fn : LedFunction
  offsets : List (BitVec 32)
  count : ℕ
  buf : List UInt8
  deriving DecidableEq

/-- The bytes that libmonome reads. -/
def LedCall.data (call : LedCall) : List UInt8 := call.buf.take call.count

/-- The local state of a handler. -/
structure Locals where
  argv : List LoArg
  buf : List UInt8
  calls : List LedCall
  deriving DecidableEq

/-- How a handler ends early. -/
inductive Exit
  | outOfBounds
  | returned (status : ℤ)
  deriving DecidableEq

/-- The conversion of an `int32_t` to a `uint8_t`. -/
def lowByte (x : BitVec 32) : UInt8 := .ofBitVec (x.setWidth 8)

/-- `argv[k]->i`. -/
def argI (k : ℤ) : Statement Locals Exit (BitVec 32) := do
  let l ← get
  match if 0 ≤ k then l.argv[k.toNat]? else none with
  | some arg => return arg.i
  | none => leave .outOfBounds

/-- `buf[i] = x`. -/
def setBuf (i : ℕ) (x : BitVec 32) : Statement Locals Exit Unit := do
  let l ← get
  if i < l.buf.length then set { l with buf := l.buf.set i (lowByte x) }
  else leave .outOfBounds

/-- `for (i = 0; i < n; i++) buf[i] = argv[i + shift]->i`. -/
def copyArgs (shift : ℤ) (n : ℕ) : Statement Locals Exit Unit :=
  forRange (fun i => do
    let x ← argI (i + shift)
    setBuf i x) n

/-- The first `n` arguments, which every handler passes on as offsets. -/
def offsetArgs : ℕ → Statement Locals Exit (List (BitVec 32))
  | 0 => return []
  | n + 1 => do
      let offsets ← offsetArgs n
      let x ← argI n
      return offsets ++ [x]

variable (lo : LoCoerce) (monome : LedCall → ℤ)

/-- `return monome_…(monome, offsets, count, buf)`, where `monome` says what the
functions of libmonome return. -/
def callMonome (fn : LedFunction) (offsets : List (BitVec 32)) (count : ℕ) :
    Statement Locals Exit ℤ := do
  let l ← get
  let call : LedCall := ⟨fn, offsets, count, l.buf⟩
  set { l with calls := l.calls ++ [call] }
  return monome call

/-- `coerce_arg_to_int`: the result, and what it leaves in `src`. -/
def coerceArgToInt (type : LoType) (src : LoArg) : ℤ × LoArg :=
  match lo.toInt32 type src with
  | none => (-1, src)
  | some dst => (0, { src with i := dst })

/-- `if (coerce_arg_to_int(types[i], argv[i])) return 1;` -/
def coerceArg (types : List LoType) (i : ℕ) : Statement Locals Exit Unit := do
  let l ← get
  match types[i]?, l.argv[i]? with
  | some type, some src =>
      set { l with argv := l.argv.set i (coerceArgToInt lo type src).2 }
      if (coerceArgToInt lo type src).1 ≠ 0 then leave (.returned 1)
  | _, _ => leave .outOfBounds

/-- An `OSC_HANDLER_FUNC` with the size of its local `buf`. -/
structure OscHandler where
  bufSize : ℕ
  body : LoMessage → Statement Locals Exit ℤ

/-- The handlers of maps: `buf` is as large as the map. -/
def mapHandler (fn : LedFunction) (size offsets : ℕ) : OscHandler where
  bufSize := size
  body msg := do
    copyArgs (msg.argc - size) size
    let offsets ← offsetArgs offsets
    callMonome monome fn offsets size

/-- The handlers of columns and rows. -/
def lineHandler (fn : LedFunction) : OscHandler where
  bufSize := 32
  body msg := do
    if msg.argc < 3 ∨ 34 < msg.argc then leave (.returned 1)
    forRange (coerceArg lo msg.types) msg.argc
    copyArgs 2 (msg.argc - 2)
    let offsets ← offsetArgs 2
    callMonome monome fn offsets (msg.argc - 2)

/-- `led_map_handler`. -/
def ledMapHandler : OscHandler := mapHandler monome .ledMap 8 2

/-- `led_col_handler`. -/
def ledColHandler : OscHandler := lineHandler lo monome .ledCol

/-- `led_row_handler`. -/
def ledRowHandler : OscHandler := lineHandler lo monome .ledRow

/-- `led_level_map_handler`. -/
def ledLevelMapHandler : OscHandler := mapHandler monome .ledLevelMap 64 2

/-- `led_level_col_handler`. -/
def ledLevelColHandler : OscHandler := lineHandler lo monome .ledLevelCol

/-- `led_level_row_handler`. -/
def ledLevelRowHandler : OscHandler := lineHandler lo monome .ledLevelRow

/-- `led_ring_map_handler`. -/
def ledRingMapHandler : OscHandler := mapHandler monome .ledRingMap 64 1

/-- A handler runs on a message; `garbage` is what its buffer holds before.  The
result is its status and the calls of libmonome, unless it goes out of bounds. -/
def runHandler (handler : OscHandler) (garbage : ℕ → UInt8) (msg : LoMessage) :
    Option (ℤ × List LedCall) :=
  match handler.body msg ⟨msg.argv, (List.range handler.bufSize).map garbage, []⟩ with
  | (.ok status, l) => some (status, l.calls)
  | (.error (.returned status), l) => some (status, l.calls)
  | (.error .outOfBounds, _) => none

/-! ## Their methods -/

namespace LedFunction

/-- The path below the prefix that the handler is registered for. -/
def path : LedFunction → String
  | .ledMap => "grid/led/map"
  | .ledCol => "grid/led/col"
  | .ledRow => "grid/led/row"
  | .ledLevelMap => "grid/led/level/map"
  | .ledLevelCol => "grid/led/level/col"
  | .ledLevelRow => "grid/led/level/row"
  | .ledRingMap => "ring/map"

/-- The handler that `osc_register_methods` registers. -/
def handler : LedFunction → OscHandler
  | .ledMap => ledMapHandler monome
  | .ledCol => ledColHandler lo monome
  | .ledRow => ledRowHandler lo monome
  | .ledLevelMap => ledLevelMapHandler monome
  | .ledLevelCol => ledLevelColHandler lo monome
  | .ledLevelRow => ledLevelRowHandler lo monome
  | .ledRingMap => ledRingMapHandler monome

/-- The number of offsets that the function takes: a ring has its number only. -/
def offsets : LedFunction → ℕ
  | .ledRingMap => 1
  | .ledMap | .ledCol | .ledRow | .ledLevelMap | .ledLevelCol | .ledLevelRow => 2

end LedFunction

/-- liblo dispatches the message to the handler: it has the types of the method,
if that has a typespec. -/
def Dispatched (fn : LedFunction) (msg : LoMessage) : Prop :=
  ∃ row ∈ registered, row.path = fn.path ∧
    ∀ typespec, row.types = some typespec → msg.types.map LoType.tag = typespec.toList

/-- The call passes the arguments on, coerced to integers: the first ones as
offsets and a byte of each of the others. -/
def PassesOn (fn : LedFunction) (msg : LoMessage) (call : LedCall) : Prop :=
  ∃ offsets rest : List (BitVec 32),
    msg.args.map (fun arg => lo.toInt32 arg.1 arg.2) = (offsets ++ rest).map some ∧
      offsets.length = fn.offsets ∧
      call = ⟨fn, offsets, rest.length, call.buf⟩ ∧ call.data = rest.map lowByte

/-! ## The statements -/

variable {lo : LoCoerce} {monome : LedCall → ℤ} {l : Locals} {E : Exit → Locals → Prop}

theorem ends_argI {k : ℕ} {arg : LoArg} {Q : BitVec 32 → Locals → Prop}
    (harg : l.argv[k]? = some arg) : Ends (argI k) l Q E ↔ Q arg.i l := by
  rw [argI, ends_bind, ends_get, if_pos (Int.natCast_nonneg k), Int.toNat_natCast, harg]
  exact ends_pure

theorem ends_setBuf {i : ℕ} {x : BitVec 32} {Q : Unit → Locals → Prop}
    (hi : i < l.buf.length) :
    Ends (setBuf i x) l Q E ↔ Q () { l with buf := l.buf.set i (lowByte x) } := by
  rw [setBuf, ends_bind, ends_get, if_pos hi]
  exact ends_set

/-- A byte of each argument from `k` on. -/
def bytesFrom (argv : List LoArg) (k : ℕ) : List UInt8 :=
  (argv.drop k).map fun arg : LoArg => lowByte arg.i

/-- Copying goes out of neither array, and replaces the front of the buffer. -/
theorem ends_copyArgs {shift n : ℕ} (hargs : shift + n ≤ l.argv.length)
    (hbuf : n ≤ l.buf.length) :
    Ends (copyArgs shift n) l (fun _ l' =>
      l' = { l with buf := (bytesFrom l.argv shift).take n ++ l.buf.drop n }) E := by
  refine ends_forRange (I := fun i l' =>
    l' = { l with buf := (bytesFrom l.argv shift).take i ++ l.buf.drop i }) rfl ?_
  intro i hi l' hl'
  have hlt : i + shift < l.argv.length := by omega
  have hbyte : (bytesFrom l.argv shift)[i]? = some (lowByte l.argv[i + shift].i) := by
    rw [bytesFrom, List.getElem?_map, List.getElem?_drop, Nat.add_comm shift,
      List.getElem?_eq_getElem hlt]
    rfl
  have harg : l'.argv[i + shift]? = some l.argv[i + shift] := by
    rw [hl']
    exact List.getElem?_eq_getElem hlt
  have hroom : i < l'.buf.length := by
    have hle : i ≤ (bytesFrom l.argv shift).length := (List.getElem?_eq_some_iff.mp hbyte).1.le
    rw [hl', List.length_append, List.length_take_of_le hle, List.length_drop]
    omega
  rw [ends_bind, ← Int.natCast_add, ends_argI harg, ends_setBuf hroom, hl',
    set_take_append_drop hbyte (hi.trans_le hbuf)]

theorem ends_offsetArgs {n : ℕ} (hn : n ≤ l.argv.length) :
    Ends (offsetArgs n) l
      (fun offsets l' => l' = l ∧ offsets = (l.argv.take n).map LoArg.i) E := by
  induction n with
  | zero => exact ⟨rfl, rfl⟩
  | succ n ih =>
    rw [offsetArgs, ends_bind]
    refine (ih (Nat.le_of_succ_le hn)).mono ?_ fun _ _ h => h
    rintro _ _ ⟨rfl, rfl⟩
    rw [ends_bind, ends_argI (List.getElem?_eq_getElem hn), ends_pure,
      List.take_succ_eq_append_getElem hn, List.map_append]
    exact ⟨rfl, rfl⟩

theorem ends_callMonome {fn : LedFunction} {offsets : List (BitVec 32)} {count : ℕ} :
    Ends (callMonome monome fn offsets count) l (fun status l' =>
      status = monome ⟨fn, offsets, count, l.buf⟩ ∧
        l'.calls = l.calls ++ [⟨fn, offsets, count, l.buf⟩]) E :=
  ⟨rfl, rfl⟩

/-! ## Coercing the arguments -/

/-- The argument after `coerce_arg_to_int`. -/
def coerced (lo : LoCoerce) (arg : LoType × LoArg) : LoArg := (coerceArgToInt lo arg.1 arg.2).2

theorem coerceArgToInt_eq_zero_iff {arg : LoType × LoArg} :
    (coerceArgToInt lo arg.1 arg.2).1 = 0 ↔ arg.1.isNumerical = true := by
  rw [← lo.isSome_toInt32 arg.1 arg.2, coerceArgToInt]
  cases lo.toInt32 arg.1 arg.2 with
  | none => simp
  | some dst => simp

theorem toInt32_eq_coerced {arg : LoType × LoArg} (harg : arg.1.isNumerical = true) :
    lo.toInt32 arg.1 arg.2 = some (coerced lo arg).i := by
  rw [← lo.isSome_toInt32 arg.1 arg.2] at harg
  obtain ⟨dst, hdst⟩ := Option.isSome_iff_exists.mp harg
  rw [coerced, coerceArgToInt, hdst]

theorem ends_coerceArg {types : List LoType} {i : ℕ} {arg : LoType × LoArg}
    {Q : Unit → Locals → Prop} (htype : types[i]? = some arg.1)
    (hsrc : l.argv[i]? = some arg.2) :
    Ends (coerceArg lo types i) l Q E ↔
      if arg.1.isNumerical then Q () { l with argv := l.argv.set i (coerced lo arg) }
      else E (.returned 1) { l with argv := l.argv.set i (coerced lo arg) } := by
  rw [coerceArg, ends_bind, ends_get, htype, hsrc]
  dsimp only
  rw [ends_bind, ends_set]
  by_cases hnum : arg.1.isNumerical = true
  · rw [if_pos hnum, if_neg (not_not.mpr (coerceArgToInt_eq_zero_iff.mpr hnum))]
    exact ends_pure
  · rw [if_neg hnum, if_pos (mt coerceArgToInt_eq_zero_iff.mp hnum)]
    exact ends_leave

/-- The first `i` arguments are numerical and have been coerced; nothing else has
changed since `l`. -/
def CoercedUpTo (lo : LoCoerce) (msg : LoMessage) (l : Locals) (i : ℕ) (l' : Locals) : Prop :=
  (∀ arg ∈ msg.args.take i, arg.1.isNumerical = true) ∧
    l' = { l with argv := (msg.args.map (coerced lo)).take i ++ msg.argv.drop i }

/-- The handler has returned 1 for an argument that is not numerical. -/
def Rejected (msg : LoMessage) (l : Locals) (e : Exit) (l' : Locals) : Prop :=
  (∃ arg ∈ msg.args, arg.1.isNumerical = false) ∧ e = .returned 1 ∧ l'.calls = l.calls

/-- One round of the loop: the next argument is coerced, or it is rejected after
those before it have been rewritten. -/
theorem CoercedUpTo.round {msg : LoMessage} {i : ℕ} {l' : Locals} (hi : i < msg.argc)
    (h : CoercedUpTo lo msg l i l') :
    Ends (coerceArg lo msg.types i) l' (fun _ => CoercedUpTo lo msg l (i + 1))
      (Rejected msg l) := by
  obtain ⟨hnum, hl'⟩ := h
  obtain ⟨arg, harg⟩ : ∃ arg, msg.args[i]? = some arg := ⟨_, List.getElem?_eq_getElem hi⟩
  have htype : msg.types[i]? = some arg.1 := by
    rw [LoMessage.types, List.getElem?_map, harg]
    rfl
  have hsrc : l'.argv[i]? = some arg.2 := by
    have hle : i ≤ (msg.args.map (coerced lo)).length := by
      rw [List.length_map]
      exact hi.le
    rw [hl', getElem?_take_append_drop hle, LoMessage.argv, List.getElem?_map, harg]
    rfl
  have hcoerced : (msg.args.map (coerced lo))[i]? = some (coerced lo arg) := by
    rw [List.getElem?_map, harg]
    rfl
  rw [ends_coerceArg htype hsrc]
  by_cases hthis : arg.1.isNumerical = true
  · rw [if_pos hthis]
    refine ⟨?_, ?_⟩
    · intro other hother
      rw [List.take_add_one, harg] at hother
      rcases List.mem_append.mp hother with hbefore | hlast
      · exact hnum other hbefore
      · rw [Option.toList_some, List.mem_singleton] at hlast
        exact hlast ▸ hthis
    · rw [hl', set_take_append_drop hcoerced (hi.trans_le msg.length_argv.ge)]
  · rw [if_neg hthis]
    exact ⟨⟨arg, List.mem_of_getElem? harg, eq_false_of_ne_true hthis⟩, rfl, hl' ▸ rfl⟩

/-- Coercing all arguments succeeds if they are numerical and leaves the handler
otherwise. -/
theorem ends_coerceArgs {msg : LoMessage} (hargv : l.argv = msg.argv) :
    Ends (forRange (coerceArg lo msg.types) msg.argc) l
      (fun _ => CoercedUpTo lo msg l msg.argc) (Rejected msg l) := by
  refine ends_forRange (I := CoercedUpTo lo msg l) ⟨?_, ?_⟩ fun i hi l' hround => hround.round hi
  · rw [List.take_zero]
    exact List.forall_mem_nil _
  · rw [List.take_zero, List.nil_append, List.drop_zero, ← hargv]

theorem CoercedUpTo.all {msg : LoMessage} {l' : Locals} (h : CoercedUpTo lo msg l msg.argc l') :
    (∀ arg ∈ msg.args, arg.1.isNumerical = true) ∧
      l' = { l with argv := msg.args.map (coerced lo) } := by
  obtain ⟨hnum, hl'⟩ := h
  have hargs : msg.args.take msg.argc = msg.args := List.take_length
  have hnone : msg.argv.drop msg.argc = [] := List.drop_of_length_le msg.length_argv.le
  rw [hargs] at hnum
  rw [← List.map_take, hargs, hnone, List.append_nil] at hl'
  exact ⟨hnum, hl'⟩

/-! ## Whole handlers -/

/-- The message is refused without a call of libmonome. -/
def Refused (status : ℤ) (calls : List LedCall) : Prop := status = 1 ∧ calls = []

/-- The message is passed on in a single call, and the status is what it returns. -/
def PassedOn (lo : LoCoerce) (monome : LedCall → ℤ) (fn : LedFunction) (msg : LoMessage)
    (status : ℤ) (calls : List LedCall) : Prop :=
  ∃ call, calls = [call] ∧ status = monome call ∧ PassesOn lo fn msg call

/-- A handler that ends inside its arrays has a result. -/
theorem runHandler_of_ends {handler : OscHandler} {garbage : ℕ → UInt8} {msg : LoMessage}
    {P : ℤ → List LedCall → Prop}
    (hends : Ends (handler.body msg) ⟨msg.argv, (List.range handler.bufSize).map garbage, []⟩
      (fun status l => P status l.calls)
      (fun e l => ∃ status, e = .returned status ∧ P status l.calls)) :
    ∃ status calls, runHandler handler garbage msg = some (status, calls) ∧ P status calls := by
  rw [runHandler]
  rcases hbody : handler.body msg ⟨msg.argv, (List.range handler.bufSize).map garbage, []⟩ with
    ⟨e | status, l⟩
  · obtain ⟨status, rfl, hP⟩ := (ends_of_error hbody).mp hends
    exact ⟨status, l.calls, rfl, hP⟩
  · exact ⟨status, l.calls, rfl, (ends_of_ok hbody).mp hends⟩

/-- The end of every handler: once the arguments are integers, they are passed on. -/
theorem ends_passOn {fn : LedFunction} {msg : LoMessage} {shift n : ℕ}
    (hargc : l.argv.length = shift + n) (hbuf : n ≤ l.buf.length) (hcalls : l.calls = [])
    (hvalues : msg.args.map (fun arg => lo.toInt32 arg.1 arg.2) =
      (l.argv.map LoArg.i).map some)
    (hoffsets : shift = fn.offsets) :
    Ends (do
        copyArgs shift n
        let offsets ← offsetArgs shift
        callMonome monome fn offsets n) l
      (fun status l' => PassedOn lo monome fn msg status l'.calls) E := by
  rw [ends_bind]
  refine (ends_copyArgs hargc.ge hbuf).mono ?_ fun _ _ h => h
  rintro _ l₁ hl₁
  rw [ends_bind]
  have hshift : shift ≤ l₁.argv.length := by
    rw [hl₁, hargc]
    exact Nat.le_add_right shift n
  refine (ends_offsetArgs hshift).mono ?_ fun _ _ h => h
  rintro offsets _ ⟨rfl, hoff⟩
  refine ends_callMonome.mono ?_ fun _ _ h => h
  rintro status l₂ ⟨hstatus, hl₂⟩
  have hcount : ((l.argv.drop shift).map LoArg.i).length = n := by
    rw [List.length_map, List.length_drop, hargc, Nat.add_sub_cancel_left]
  have hbytes : bytesFrom l.argv shift = ((l.argv.drop shift).map LoArg.i).map lowByte := by
    rw [bytesFrom, List.map_map]
    rfl
  refine ⟨_, by rw [hl₂, hl₁, hcalls]; rfl, hstatus, (l.argv.take shift).map LoArg.i,
    (l.argv.drop shift).map LoArg.i, ?_, ?_, ?_, ?_⟩
  · rw [hvalues, ← List.map_append, List.take_append_drop]
  · rw [List.length_map, List.length_take, hargc, ← hoffsets]
    exact Nat.min_eq_left (Nat.le_add_right shift n)
  · rw [hcount, hoff, hl₁]
  · have hdata : (bytesFrom l.argv shift).length = n := by rw [hbytes, List.length_map, hcount]
    rw [LedCall.data, hl₁, List.take_of_length_le hdata.le, ← hbytes]
    exact List.take_left' hdata

/-- The handler of a map, whose message has as many integers as it reads. -/
theorem runHandler_mapHandler {fn : LedFunction} {size offsets : ℕ} {garbage : ℕ → UInt8}
    {msg : LoMessage} (hargc : msg.argc = offsets + size)
    (htypes : ∀ arg ∈ msg.args, arg.1 = .int32) (hoffsets : offsets = fn.offsets) :
    ∃ status calls, runHandler (mapHandler monome fn size offsets) garbage msg =
      some (status, calls) ∧ PassedOn lo monome fn msg status calls := by
  refine runHandler_of_ends ?_
  have hshift : ((msg.argc : ℤ) - size) = offsets := by omega
  change Ends (do
      copyArgs (msg.argc - size) size
      let offsets ← offsetArgs offsets
      callMonome monome fn offsets size) _ _ _
  rw [hshift]
  refine ends_passOn ?_ ?_ rfl ?_ hoffsets
  · rw [msg.length_argv, hargc]
  · rw [List.length_map, List.length_range]
    exact le_rfl
  · rw [LoMessage.argv, List.map_map, List.map_map]
    refine List.map_congr_left fun arg harg => ?_
    rw [htypes arg harg, lo.toInt32_int32]
    rfl

/-- A column or row is passed on if it has some levels, as many as fit, and nothing
but numbers. -/
def Accepts (msg : LoMessage) : Prop :=
  3 ≤ msg.argc ∧ msg.argc ≤ 34 ∧ ∀ arg ∈ msg.args, arg.1.isNumerical = true

/-- The handler of a column or row, whose message may have any arguments. -/
theorem runHandler_lineHandler {fn : LedFunction} {garbage : ℕ → UInt8} {msg : LoMessage}
    (hoffsets : 2 = fn.offsets) :
    ∃ status calls, runHandler (lineHandler lo monome fn) garbage msg = some (status, calls) ∧
      (¬ Accepts msg ∧ Refused status calls ∨
        Accepts msg ∧ PassedOn lo monome fn msg status calls) := by
  refine runHandler_of_ends ?_
  simp only [lineHandler]
  by_cases hargc : msg.argc < 3 ∨ 34 < msg.argc
  · rw [if_pos hargc, ends_bind, ends_leave]
    refine ⟨1, rfl, .inl ⟨?_, rfl, rfl⟩⟩
    rintro ⟨hmin, hmax, -⟩
    omega
  · rw [if_neg hargc, ends_bind]
    obtain ⟨hmin, hmax⟩ := not_or.mp hargc
    refine (ends_coerceArgs rfl).mono ?_ ?_
    · intro _ l' hcoerced
      obtain ⟨hnum, rfl⟩ := hcoerced.all
      have haccepts : Accepts msg := ⟨not_lt.mp hmin, not_lt.mp hmax, hnum⟩
      refine (ends_passOn ?_ ?_ rfl ?_ hoffsets).mono
        (fun status l hpassed => .inr ⟨haccepts, hpassed⟩) fun _ _ h => h
      · rw [List.length_map]
        change msg.argc = _
        omega
      · rw [List.length_map, List.length_range]
        omega
      · rw [List.map_map, List.map_map]
        exact List.map_congr_left fun arg harg => toInt32_eq_coerced (hnum arg harg)
    · rintro _ l' ⟨⟨arg, harg, hnum⟩, rfl, hcalls⟩
      refine ⟨1, rfl, .inl ⟨?_, rfl, hcalls⟩⟩
      rintro ⟨-, -, hall⟩
      exact absurd (hall arg harg) (ne_true_of_eq_false hnum)

/-! ## Dispatched messages -/

theorem eq_int32_of_tag {type : LoType} (htag : type.tag = 'i') : type = .int32 := by
  cases type <;> first | rfl | exact absurd htag (by decide)

/-- A method whose typespec is `n` integers gets `n` integers. -/
theorem Dispatched.types {fn : LedFunction} {msg : LoMessage} (h : Dispatched fn msg) (n : ℕ)
    (hrow : ∀ row ∈ registered, row.path = fn.path →
      row.types.map String.toList = some (List.replicate n 'i')) :
    msg.argc = n ∧ ∀ arg ∈ msg.args, arg.1 = .int32 := by
  obtain ⟨row, hmem, hpath, htypes⟩ := h
  obtain ⟨typespec, htypespec, hspec⟩ := Option.map_eq_some_iff.mp (hrow row hmem hpath)
  have htags := (htypes typespec htypespec).trans hspec
  rw [List.eq_replicate_iff, List.length_map, msg.length_types] at htags
  refine ⟨htags.1, fun arg harg => eq_int32_of_tag (htags.2 _ ?_)⟩
  exact List.mem_map_of_mem (List.mem_map_of_mem harg)

/-- Every message that liblo dispatches to one of the handlers is either refused
with the status 1 before any call of libmonome, or passed on in a single call.  The
handler stays inside its argument vector and its buffer. -/
theorem runHandler_dispatched (lo : LoCoerce) (monome : LedCall → ℤ) (garbage : ℕ → UInt8)
    (fn : LedFunction) (msg : LoMessage) (hmsg : Dispatched fn msg) :
    ∃ status calls,
      runHandler (fn.handler lo monome) garbage msg = some (status, calls) ∧
        (Refused status calls ∨ PassedOn lo monome fn msg status calls) := by
  have hmap {handler : OscHandler} (h : ∃ status calls,
      runHandler handler garbage msg = some (status, calls) ∧
        PassedOn lo monome fn msg status calls) :
      ∃ status calls, runHandler handler garbage msg = some (status, calls) ∧
        (Refused status calls ∨ PassedOn lo monome fn msg status calls) := by
    obtain ⟨status, calls, hrun, hpassed⟩ := h
    exact ⟨status, calls, hrun, .inr hpassed⟩
  have hline (hoffsets : 2 = fn.offsets) : ∃ status calls,
      runHandler (lineHandler lo monome fn) garbage msg = some (status, calls) ∧
        (Refused status calls ∨ PassedOn lo monome fn msg status calls) := by
    obtain ⟨status, calls, hrun, hended⟩ := runHandler_lineHandler hoffsets
    exact ⟨status, calls, hrun, hended.imp And.right And.right⟩
  cases fn with
  | ledMap =>
    obtain ⟨hargc, htypes⟩ := hmsg.types 10 (by decide)
    exact hmap (runHandler_mapHandler hargc htypes rfl)
  | ledLevelMap =>
    obtain ⟨hargc, htypes⟩ := hmsg.types 66 (by decide)
    exact hmap (runHandler_mapHandler hargc htypes rfl)
  | ledRingMap =>
    obtain ⟨hargc, htypes⟩ := hmsg.types 65 (by decide)
    exact hmap (runHandler_mapHandler hargc htypes rfl)
  | ledCol => exact hline rfl
  | ledRow => exact hline rfl
  | ledLevelCol => exact hline rfl
  | ledLevelRow => exact hline rfl

/-! ## A column -/

/-- A `lo_coerce` that is right for integers of either width. -/
def sampleCoerce : LoCoerce where
  toInt32 type src := if type.isNumerical then some src.i else none
  isSome_toInt32 type src := by
    cases type.isNumerical with
    | false => rfl
    | true => rfl
  toInt32_int32 _ := rfl

/-- The column 3 from row 8 on, with a level that is 64 bits wide. -/
def sampleColumn : LoMessage where
  args := [(.int32, ⟨3, []⟩), (.int32, ⟨8, []⟩), (.int64, ⟨0x1fe, [0, 0, 0, 0]⟩)]

theorem runHandler_dispatched_sampleColumn :
    Dispatched .ledCol sampleColumn ∧
      ∃ status calls,
        runHandler (LedFunction.ledCol.handler sampleCoerce fun _ => 0) (fun _ => 0xaa)
            sampleColumn = some (status, calls) ∧
          (Refused status calls ∨
            PassedOn sampleCoerce (fun _ => 0) .ledCol sampleColumn status calls) := by
  have hdispatched : Dispatched .ledCol sampleColumn := by
    refine ⟨⟨"grid/led/col", none⟩, by decide, rfl, ?_⟩
    intro typespec hnone
    cases hnone
  exact ⟨hdispatched, runHandler_dispatched sampleCoerce (fun _ => 0) (fun _ => 0xaa) .ledCol
    sampleColumn hdispatched⟩

example : runHandler (LedFunction.ledCol.handler sampleCoerce fun _ => 0) (fun _ => 0xaa)
    sampleColumn = some (0, [⟨.ledCol, [3, 8], 1, 0xfe :: List.replicate 31 0xaa⟩]) := by
  decide

end Serialosc.Leds
