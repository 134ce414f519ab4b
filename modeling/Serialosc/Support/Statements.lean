import Mathlib.Data.List.Basic

/-!
# Statements that may leave their function

A statement changes the local state and then either goes on with a value or
leaves the function.  `Ends` gives it one postcondition for each of the two.
The rules follow the syntax: sequences pass the first postcondition on, and a
loop with a counter keeps an invariant that the counter indexes.  All of them
are about total correctness, as the loops are bounded.
-/

/-- A statement over the local state `σ` that goes on with `α` or leaves with `ε`. -/
def Statement (σ ε α : Type) : Type := σ → Except ε α × σ

namespace Statement

variable {σ ε α β : Type}

instance : Monad (Statement σ ε) where
  pure a := fun s => (.ok a, s)
  bind m f := fun s =>
    match m s with
    | (.ok a, s') => f a s'
    | (.error e, s') => (.error e, s')

/-- Leave the function. -/
def leave (e : ε) : Statement σ ε α := fun s => (.error e, s)

/-- The local state. -/
def get : Statement σ ε σ := fun s => (.ok s, s)

/-- Replace the local state. -/
def set (s' : σ) : Statement σ ε Unit := fun _ => (.ok (), s')

/-- `for (i = 0; i < n; i++) body(i)`. -/
def forRange (body : ℕ → Statement σ ε Unit) : ℕ → Statement σ ε Unit
  | 0 => pure ()
  | n + 1 => do
      forRange body n
      body n

/-- From `s`, the statement goes on with `Q` or leaves with `E`. -/
def Ends (m : Statement σ ε α) (s : σ) (Q : α → σ → Prop) (E : ε → σ → Prop) : Prop :=
  match m s with
  | (.ok a, s') => Q a s'
  | (.error e, s') => E e s'

variable {m : Statement σ ε α} {f : α → Statement σ ε β} {s : σ}
variable {Q Q' : α → σ → Prop} {R : β → σ → Prop} {E E' : ε → σ → Prop}

/-! ## Rules -/

@[simp] theorem ends_pure {a : α} : Ends (pure a : Statement σ ε α) s Q E ↔ Q a s := Iff.rfl

@[simp] theorem ends_leave {e : ε} : Ends (leave e : Statement σ ε α) s Q E ↔ E e s := Iff.rfl

@[simp] theorem ends_get {Q : σ → σ → Prop} : Ends (get : Statement σ ε σ) s Q E ↔ Q s s := Iff.rfl

@[simp] theorem ends_set {s' : σ} {Q : Unit → σ → Prop} :
    Ends (set s' : Statement σ ε Unit) s Q E ↔ Q () s' := Iff.rfl

theorem ends_of_ok {a : α} {s' : σ} (hm : m s = (.ok a, s')) : Ends m s Q E ↔ Q a s' := by
  simp only [Ends, hm]

theorem ends_of_error {e : ε} {s' : σ} (hm : m s = (.error e, s')) : Ends m s Q E ↔ E e s' := by
  simp only [Ends, hm]

/-- The rule of sequences. -/
@[simp] theorem ends_bind : Ends (m >>= f) s R E ↔ Ends m s (fun a s' => Ends (f a) s' R E) E := by
  have hbind : (m >>= f) s = match m s with
      | (.ok a, s') => f a s'
      | (.error e, s') => (.error e, s') := rfl
  rcases hm : m s with ⟨e | a, s'⟩
  · rw [ends_of_error hm, ends_of_error (hbind.trans (by rw [hm]))]
  · rw [ends_of_ok hm, Ends, hbind, hm, Ends]

/-- The rule of consequence. -/
theorem Ends.mono (h : Ends m s Q E) (hQ : ∀ a s', Q a s' → Q' a s')
    (hE : ∀ e s', E e s' → E' e s') : Ends m s Q' E' := by
  rcases hm : m s with ⟨e | a, s'⟩
  · exact (ends_of_error hm).mpr (hE e s' ((ends_of_error hm).mp h))
  · exact (ends_of_ok hm).mpr (hQ a s' ((ends_of_ok hm).mp h))

/-- The rule of loops: a round takes the invariant on by one, or leaves. -/
theorem ends_forRange {body : ℕ → Statement σ ε Unit} {I : ℕ → σ → Prop} {n : ℕ} (hinit : I 0 s)
    (hround : ∀ i < n, ∀ s, I i s → Ends (body i) s (fun _ => I (i + 1)) E) :
    Ends (forRange body n) s (fun _ => I n) E := by
  induction n with
  | zero => exact hinit
  | succ n ih =>
    have hbefore := ih fun i hi => hround i (Nat.lt_succ_of_lt hi)
    rw [forRange, ends_bind]
    exact hbefore.mono (fun _ s' hs' => hround n n.lt_succ_self s' hs') fun _ _ => id

/-! ## Arrays that a loop fills

After `i` rounds such an array is what is to be stored up to `i`, and what it was
from there on.  The loop works at the seam. -/

section Filled

variable {xs ys : List α} {i : ℕ}

/-- A store at the seam moves the seam on. -/
theorem set_take_append_drop {x : α} (hx : xs[i]? = some x) (hi : i < ys.length) :
    (xs.take i ++ ys.drop i).set i x = xs.take (i + 1) ++ ys.drop (i + 1) := by
  obtain ⟨hlt, rfl⟩ := List.getElem?_eq_some_iff.mp hx
  have hseam : (xs.take i).length = i := List.length_take_of_le (Nat.le_of_lt hlt)
  rw [List.set_append_right _ _ (Nat.le_of_eq hseam), hseam, Nat.sub_self,
    List.drop_eq_getElem_cons hi, List.set_cons_zero, List.take_succ_eq_append_getElem hlt,
    List.append_assoc]
  rfl

/-- The seam is at the first element that is left. -/
theorem getElem?_take_append_drop (hi : i ≤ xs.length) :
    (xs.take i ++ ys.drop i)[i]? = ys[i]? := by
  have hseam : (xs.take i).length = i := List.length_take_of_le hi
  rw [List.getElem?_append_right (Nat.le_of_eq hseam), hseam, Nat.sub_self, List.getElem?_drop,
    Nat.add_zero]

end Filled

end Statement
