import Mathlib.Data.Nat.Notation
import Mathlib.Data.Bool.Basic
import Mathlib.Order.Nat

/-!
# Vectors

The macros of wwrl for arrays that grow: a vector is a block of memory, of which it knows the
capacity, and the number of elements at its beginning.  The sizes are those of 64-bit
machines, and wrap around; whether the allocator grants a block depends on the number of
bytes.

`Holds` says that the block begins with given items.  The macros keep it, and fail only
where a larger block is refused, or where the first one was.
-/

namespace Wwrl

/-- `VECTOR`.  A cell of the block holds an element once one has been stored there; `data`
may be `NULL`. -/
structure Vector (α : Type) where
  size : ℕ
  capacity : ℕ
  data : Option (List (Option α))

/-- The number of values of `size_t`, which has 64 bits. -/
abbrev sizeMax : ℕ := 0x10000000000000000

/-- The allocator does not grant a block of this many bytes. -/
abbrev ptrdiffMax : ℕ := 0x8000000000000000

namespace Vector

variable {α : Type}

/-- `VECTOR_INIT`.  The capacity is the same when `calloc` returns `NULL`. -/
def init (sizeof : ℕ) (granted : ℕ → Bool) (initialSize : ℕ) : Vector α :=
  let capacity := if initialSize = 0 then 1 else initialSize
  { size := 0
    capacity := capacity
    data := if granted (sizeof * capacity) then some (List.replicate capacity none) else none }

/-- `realloc` to a block with room for so many elements. -/
def realloc (cells : List (Option α)) (room : ℕ) : List (Option α) :=
  cells.take room ++ List.replicate (room - cells.length) none

/-- The block that `VECTOR_PUSH_BACK` stores into, and its capacity. -/
def grow (sizeof : ℕ) (granted : ℕ → Bool) (vec : Vector α) (cells : List (Option α)) :
    ℕ × Option (List (Option α)) :=
  if vec.capacity ≤ vec.size then
    let capacity := vec.capacity * 2 % sizeMax
    let bytes := capacity * sizeof % sizeMax
    (capacity, if granted bytes then some (realloc cells (bytes / sizeof)) else none)
  else (vec.capacity, some cells)

/-- `VECTOR_PUSH_BACK`.  The program ends at the assertion that `data` is not `NULL`, and
where it stores through `NULL` or outside of the block. -/
def pushBack (sizeof : ℕ) (granted : ℕ → Bool) (vec : Vector α) (item : α) :
    Option (Vector α) :=
  vec.data.bind fun cells =>
    let grown := grow sizeof granted vec cells
    grown.2.bind fun cells =>
      if vec.size < cells.length then
        some ⟨(vec.size + 1) % sizeMax, grown.1, some (cells.set vec.size (some item))⟩
      else none

/-- `VECTOR_CLEAR`, with the same assertion. -/
def clear (vec : Vector α) : Option (Vector α) := vec.data.map fun _ => { vec with size := 0 }

/-- `data[i]`, if it lies in the block and has been stored. -/
def get (vec : Vector α) (i : ℕ) : Option α := vec.data.bind fun cells => (cells[i]?).join

/-! ## What a vector holds -/

/-- The vector holds the items, in a block that has been granted. -/
structure Holds (sizeof : ℕ) (vec : Vector α) (items : List α) : Prop where
  size : vec.size = items.length
  pos : 0 < vec.capacity
  bytes : vec.capacity * sizeof < ptrdiffMax
  data : ∃ rest, vec.data = some (items.map some ++ rest) ∧
    items.length + rest.length = vec.capacity

variable {sizeof : ℕ} {vec : Vector α} {items : List α}

theorem Holds.size_le (h : Holds sizeof vec items) : vec.size ≤ vec.capacity := by
  obtain ⟨rest, -, hlength⟩ := h.data
  rw [h.size, ← hlength]
  exact Nat.le_add_right _ _

/-- The items are read from the block, in their order. -/
theorem Holds.get (h : Holds sizeof vec items) {i : ℕ} (hi : i < vec.size) :
    vec.get i = items[i]? := by
  obtain ⟨rest, hdata, -⟩ := h.data
  rw [h.size] at hi
  have hmap : (items.map some).length = items.length := List.length_map _
  rw [Vector.get, hdata, Option.bind_some, List.getElem?_append_left (hmap.symm ▸ hi),
    List.getElem?_map, List.getElem?_eq_getElem hi, Option.map_some, Option.join_some]

section Init

variable {granted : ℕ → Bool} {initialSize : ℕ}

theorem capacity_init (hpos : 0 < initialSize) :
    (init sizeof granted initialSize : Vector α).capacity = initialSize :=
  if_neg (Nat.ne_of_gt hpos)

theorem holds_init (hpos : 0 < initialSize) (hbytes : initialSize * sizeof < ptrdiffMax)
    (hgrant : granted (sizeof * initialSize) = true) :
    Holds sizeof (init sizeof granted initialSize : Vector α) [] := by
  refine ⟨rfl, ?_, ?_, List.replicate initialSize none, ?_, ?_⟩
  · rw [capacity_init hpos]
    exact hpos
  · rw [capacity_init hpos]
    exact hbytes
  · rw [init, if_neg (Nat.ne_of_gt hpos), if_pos hgrant]
    rfl
  · rw [capacity_init hpos, List.length_replicate, List.length_nil, Nat.zero_add]

theorem data_init_of_refused (hpos : 0 < initialSize)
    (hrefused : granted (sizeof * initialSize) = false) :
    (init sizeof granted initialSize : Vector α).data = none := by
  rw [init, if_neg (Nat.ne_of_gt hpos), hrefused]
  rfl

end Init

/-- Nothing can be done with a vector whose first block was refused. -/
theorem pushBack_of_null {granted : ℕ → Bool} (h : vec.data = none) (item : α) :
    vec.pushBack sizeof granted item = none := by
  rw [pushBack, h]
  rfl

theorem clear_of_null (h : vec.data = none) : vec.clear = none := by
  rw [clear, h]
  rfl

theorem Holds.clear (h : Holds sizeof vec items) :
    ∃ vec', vec.clear = some vec' ∧ vec'.capacity = vec.capacity ∧ Holds sizeof vec' [] := by
  obtain ⟨rest, hdata, hlength⟩ := h.data
  refine ⟨{ vec with size := 0 }, ?_, rfl, rfl, h.pos, h.bytes, items.map some ++ rest, ?_, ?_⟩
  · rw [Vector.clear, hdata, Option.map_some]
  · exact hdata
  · rw [List.length_append, List.length_map, hlength, List.length_nil, Nat.zero_add]

/-- What becomes of a vector that an item is pushed to. -/
inductive Pushed (sizeof : ℕ) (granted : ℕ → Bool) (vec : Vector α) (items : List α) :
    Option (Vector α) → Prop
  | stored (vec' : Vector α) (hroom : vec.size < vec.capacity)
      (hcapacity : vec'.capacity = vec.capacity) (hholds : Holds sizeof vec' items) :
      Pushed sizeof granted vec items (some vec')
  | grown (vec' : Vector α) (hfull : vec.size = vec.capacity)
      (hcapacity : vec'.capacity = vec.capacity * 2) (hholds : Holds sizeof vec' items) :
      Pushed sizeof granted vec items (some vec')
  | refused (hfull : vec.size = vec.capacity)
      (hrefused : granted (vec.capacity * 2 * sizeof) = false) :
      Pushed sizeof granted vec items none

/-- Storing an item behind the others. -/
theorem set_append {rest : List (Option α)} {item : α} (hrest : 0 < rest.length) :
    (items.map some ++ rest).set items.length (some item) =
      (items ++ [item]).map some ++ rest.tail := by
  cases rest with
  | nil => exact absurd hrest (Nat.lt_irrefl 0)
  | cons cell rest =>
    rw [List.set_append_right _ _ (List.length_map _).le, List.length_map, Nat.sub_self,
      List.set_cons_zero, List.map_append, List.append_assoc]
    rfl

/-- An item is stored behind the others where there is room for one more. -/
theorem holds_store {capacity : ℕ} {rest : List (Option α)} (hsizeof : 0 < sizeof)
    (hsize : vec.size = items.length) (hlength : items.length + rest.length = capacity)
    (hroom : items.length < capacity) (hbytes : capacity * sizeof < ptrdiffMax) (item : α) :
    ∃ vec' : Vector α,
      (if vec.size < (items.map some ++ rest).length then
        some (Vector.mk ((vec.size + 1) % sizeMax) capacity
          (some ((items.map some ++ rest).set vec.size (some item))))
      else none) = some vec' ∧ vec'.capacity = capacity ∧ Holds sizeof vec' (items ++ [item]) := by
  have hcells : (items.map some ++ rest).length = capacity := by
    rw [List.length_append, List.length_map, hlength]
  have hwrap : (vec.size + 1) % sizeMax = items.length + 1 := by
    have hmax : ptrdiffMax ≤ sizeMax := by decide
    have hcapacity : capacity < ptrdiffMax := (Nat.le_mul_of_pos_right _ hsizeof).trans_lt hbytes
    rw [hsize, Nat.mod_eq_of_lt (by omega)]
  have hrest : 0 < rest.length := by omega
  rw [hcells, hsize, if_pos hroom, ← hsize, hwrap, hsize, set_append hrest]
  refine ⟨_, rfl, rfl, ?_, Nat.zero_lt_of_lt hroom, hbytes, rest.tail, rfl, ?_⟩
  · rw [List.length_append, List.length_singleton]
  · rw [List.length_append, List.length_singleton, List.length_tail]
    dsimp only
    omega

/-- A block that is moved to a larger one keeps its cells. -/
theorem realloc_of_le {cells : List (Option α)} {room : ℕ} (h : cells.length ≤ room) :
    realloc cells room = cells ++ List.replicate (room - cells.length) none := by
  rw [realloc, List.take_of_length_le h]

/-- What a full vector asks for: the sizes do not wrap around. -/
theorem Holds.grow_full (granted : ℕ → Bool) (hsizeof : 0 < sizeof) (h : Holds sizeof vec items)
    (hfull : vec.capacity ≤ vec.size) {rest : List (Option α)}
    (hlength : items.length + rest.length = vec.capacity) :
    grow sizeof granted vec (items.map some ++ rest) =
      (vec.capacity * 2,
        if granted (vec.capacity * 2 * sizeof) then
          some (items.map some ++
            (rest ++ List.replicate (vec.capacity * 2 - vec.capacity) none))
        else none) := by
  have hdouble : vec.capacity * 2 % sizeMax = vec.capacity * 2 := by
    have hcapacity := (Nat.le_mul_of_pos_right vec.capacity hsizeof).trans_lt h.bytes
    refine Nat.mod_eq_of_lt ?_
    rw [Nat.mul_comm]
    exact (Nat.mul_lt_mul_left Nat.two_pos).mpr hcapacity
  have hbytes : vec.capacity * 2 * sizeof % sizeMax = vec.capacity * 2 * sizeof := by
    refine Nat.mod_eq_of_lt ?_
    rw [Nat.mul_right_comm, Nat.mul_comm]
    exact (Nat.mul_lt_mul_left Nat.two_pos).mpr h.bytes
  have hcells : (items.map some ++ rest).length = vec.capacity := by
    rw [List.length_append, List.length_map, hlength]
  rw [grow, if_pos hfull]
  dsimp only
  rw [hdouble, hbytes, Nat.mul_div_cancel _ hsizeof, realloc_of_le (by omega), hcells,
    List.append_assoc]

/-- Nothing wraps around as long as the allocator has its limit. -/
theorem Holds.pushBack {granted : ℕ → Bool} (hsizeof : 0 < sizeof)
    (hgranted : ∀ bytes, granted bytes = true → bytes < ptrdiffMax)
    (h : Holds sizeof vec items) (item : α) :
    Pushed sizeof granted vec (items ++ [item]) (vec.pushBack sizeof granted item) := by
  obtain ⟨rest, hdata, hlength⟩ := h.data
  have hsize := h.size
  have hpos := h.pos
  rw [Vector.pushBack, hdata, Option.bind_some]
  by_cases hfull : vec.capacity ≤ vec.size
  · have hsame : vec.size = vec.capacity := h.size_le.antisymm hfull
    rw [h.grow_full granted hsizeof hfull hlength]
    by_cases hgrant : granted (vec.capacity * 2 * sizeof) = true
    · have hlength' : items.length +
          (rest ++ List.replicate (vec.capacity * 2 - vec.capacity) none).length =
            vec.capacity * 2 := by
        rw [List.length_append, List.length_replicate]
        omega
      obtain ⟨vec', hstored, hcapacity, hholds⟩ :=
        holds_store hsizeof hsize hlength' (by omega) (hgranted _ hgrant) item
      rw [if_pos hgrant, Option.bind_some, hstored]
      exact .grown vec' hsame hcapacity hholds
    · rw [if_neg hgrant]
      exact .refused hsame (Bool.eq_false_of_not_eq_true hgrant)
  · obtain ⟨vec', hstored, hcapacity, hholds⟩ :=
      holds_store hsizeof hsize hlength (by omega) h.bytes item
    rw [grow, if_neg hfull, Option.bind_some]
    dsimp only
    rw [hstored]
    exact .stored vec' (by omega) hcapacity hholds

end Vector

end Wwrl
