import Mathlib.Algebra.GroupWithZero.Nat
import Mathlib.Algebra.Order.BigOperators.Group.List
import Mathlib.Data.List.SplitLengths
import Mathlib.Order.Monotone.Basic

/-!
# Cutting a sequence of sized items

Items are laid end to end, each with a size, and the whole is then cut into
pieces of other sizes.  A cut is aligned when every piece ends where an item
ends.  `complete` lists the items that lie within the first so many units.

An aligned cut is taken apart piece by piece with `Aligned.uncons`.  For a cut
that is not aligned, `exists_straddled` finds a piece that begins inside an
item and reaches its end.
-/

namespace Cuts

variable {α : Type*} (size : α → ℕ)

/-- The space that the items take. -/
def total (xs : List α) : ℕ := (xs.map size).sum

@[simp] theorem total_nil : total size [] = 0 := rfl

@[simp] theorem total_cons (x : α) (xs : List α) :
    total size (x :: xs) = size x + total size xs := rfl

theorem total_append (xs ys : List α) :
    total size (xs ++ ys) = total size xs + total size ys := by
  rw [total, List.map_append, List.sum_append]
  rfl

/-- The items that end within the first `n` units. -/
def complete : List α → ℕ → List α
  | [], _ => []
  | x :: xs, n => if size x ≤ n then x :: complete xs (n - size x) else []

theorem complete_zero {xs : List α} (hpos : ∀ x ∈ xs, 0 < size x) :
    complete size xs 0 = [] := by
  cases xs with
  | nil => rfl
  | cons x xs =>
    have hx := hpos x List.mem_cons_self
    rw [complete, if_neg (by omega)]

theorem complete_append (xs ys : List α) (n : ℕ) :
    complete size (xs ++ ys) (total size xs + n) = xs ++ complete size ys n := by
  induction xs with
  | nil => rw [total_nil, Nat.zero_add, List.nil_append, List.nil_append]
  | cons x xs ih =>
    rw [total_cons, List.cons_append, complete, if_pos (by omega), List.cons_append,
      ← ih]
    congr 2
    omega

theorem complete_inside (xs ys : List α) {x : α} {n : ℕ} (hn : n < size x) :
    complete size (xs ++ x :: ys) (total size xs + n) = xs := by
  rw [complete_append, complete, if_neg (Nat.not_le.mpr hn), List.append_nil]

theorem complete_reached (xs ys : List α) {x : α} {n : ℕ} (hn : size x ≤ n) :
    complete size (xs ++ x :: ys) (total size xs + n) =
      xs ++ x :: complete size ys (n - size x) := by
  rw [complete_append, complete, if_pos hn]

/-- Every piece ends where an item ends. -/
def Aligned (xs : List α) (sizes : List ℕ) : Prop :=
  ∀ k ≤ sizes.length, ∃ j ≤ xs.length, (sizes.take k).sum = total size (xs.take j)

instance (xs : List α) (sizes : List ℕ) : Decidable (Aligned size xs sizes) :=
  inferInstanceAs (Decidable (∀ k ≤ sizes.length, ∃ j ≤ xs.length,
    (sizes.take k).sum = total size (xs.take j)))

variable {size}

theorem total_take_lt {xs : List α} (hpos : ∀ x ∈ xs, 0 < size x) {i j : ℕ} (hij : i < j)
    (hj : j ≤ xs.length) : total size (xs.take i) < total size (xs.take j) := by
  induction xs generalizing i j with
  | nil =>
    rw [List.length_nil] at hj
    omega
  | cons x xs ih =>
    obtain ⟨j, rfl⟩ := Nat.exists_eq_add_one_of_ne_zero (Nat.ne_zero_of_lt hij)
    have hx := hpos x List.mem_cons_self
    rcases i with _ | i
    · rw [List.take_zero, total_nil, List.take_succ_cons, total_cons]
      omega
    · rw [List.take_succ_cons, List.take_succ_cons, total_cons, total_cons]
      exact Nat.add_lt_add_left (ih (fun y hy => hpos y (List.mem_cons_of_mem _ hy))
        (by omega) (by simpa using hj)) _

/-- The first piece of an aligned cut consists of whole items, and so do the
others. -/
theorem Aligned.uncons {xs : List α} {n : ℕ} {sizes : List ℕ}
    (hpos : ∀ x ∈ xs, 0 < size x) (h : Aligned size xs (n :: sizes)) :
    ∃ ys zs, xs = ys ++ zs ∧ n = total size ys ∧ Aligned size zs sizes := by
  obtain ⟨i, hi, hn⟩ := h 1 (by simp)
  rw [List.take_succ_cons, List.take_zero, List.sum_singleton] at hn
  refine ⟨xs.take i, xs.drop i, (List.take_append_drop i xs).symm, hn, ?_⟩
  intro k hk
  obtain ⟨j, hj, hend⟩ := h (k + 1) (by simpa using hk)
  rw [List.take_succ_cons, List.sum_cons] at hend
  have hij : i ≤ j := by
    by_contra hlt
    have := total_take_lt hpos (Nat.lt_of_not_le hlt) hi
    omega
  refine ⟨j - i, by rw [List.length_drop]; omega, ?_⟩
  have hsplit : xs.take j = xs.take i ++ (xs.drop i).take (j - i) := by
    rw [← List.take_add, Nat.add_sub_cancel' hij]
  rw [hsplit, total_append] at hend
  omega

/-- A point that is not the end of an item lies inside one. -/
theorem exists_inside {xs : List α} {n : ℕ} (hn : n ≤ total size xs)
    (hend : ∀ j ≤ xs.length, n ≠ total size (xs.take j)) :
    ∃ ys x zs, xs = ys ++ x :: zs ∧ total size ys < n ∧ n < total size ys + size x := by
  induction xs generalizing n with
  | nil => exact absurd (Nat.le_zero.mp hn) (hend 0 (Nat.le_refl 0))
  | cons x xs ih =>
    rw [total_cons] at hn
    rcases Nat.lt_or_ge n (size x) with hin | hout
    · have hpos := hend 0 (Nat.zero_le _)
      refine ⟨[], x, xs, rfl, Nat.pos_of_ne_zero hpos, ?_⟩
      rwa [total_nil, Nat.zero_add]
    · obtain ⟨ys, y, zs, rfl, hlow, hhigh⟩ := ih (n := n - size x) (by omega) (by
        intro j hj heq
        apply hend (j + 1) (Nat.succ_le_succ hj)
        rw [List.take_succ_cons, total_cons, ← heq]
        omega)
      refine ⟨x :: ys, y, zs, rfl, ?_, ?_⟩
      all_goals
        rw [total_cons]
        omega

theorem sum_take_mono (sizes : List ℕ) : Monotone fun k => (sizes.take k).sum := by
  apply monotone_nat_of_le_succ
  intro k
  rw [List.take_add_one, List.sum_append]
  exact Nat.le_add_right _ _

/-- The last point of a sequence before a bound that it reaches. -/
theorem exists_crossing (f : ℕ → ℕ) {k n b : ℕ} (hk : f k < b) (hkn : k ≤ n) (hn : b ≤ f n) :
    ∃ q, k ≤ q ∧ q < n ∧ f q < b ∧ b ≤ f (q + 1) := by
  induction n, hkn using Nat.le_induction with
  | base => exact absurd hk (Nat.not_lt.mpr hn)
  | succ n hkn ih =>
    rcases Nat.lt_or_ge (f n) b with hlt | hge
    · exact ⟨n, hkn, Nat.lt_succ_self n, hlt, hn⟩
    · obtain ⟨q, hkq, hqn, hcross⟩ := ih hge
      exact ⟨q, hkq, Nat.lt_succ_of_lt hqn, hcross⟩

/-- A cut that is not aligned has a piece that begins inside an item and
contains the rest of it. -/
theorem exists_straddled {xs : List α} {sizes : List ℕ} (hsum : sizes.sum = total size xs)
    (h : ¬ Aligned size xs sizes) :
    ∃ ys x zs q, xs = ys ++ x :: zs ∧ q < sizes.length ∧
      total size ys < (sizes.take q).sum ∧ (sizes.take q).sum < total size ys + size x ∧
      total size ys + size x ≤ (sizes.take (q + 1)).sum := by
  unfold Aligned at h
  push Not at h
  obtain ⟨k, hk, hend⟩ := h
  have hlast : (sizes.take sizes.length).sum = total size xs := by
    rw [List.take_length, hsum]
  have hle : (sizes.take k).sum ≤ total size xs := hlast ▸ sum_take_mono sizes hk
  obtain ⟨ys, x, zs, rfl, hlow, hhigh⟩ := exists_inside hle hend
  have hreach : total size ys + size x ≤ (sizes.take sizes.length).sum := by
    rw [hlast, total_append, total_cons]
    omega
  obtain ⟨q, hkq, hq, hbefore, hafter⟩ :=
    exists_crossing (fun k => (sizes.take k).sum) hhigh hk hreach
  exact ⟨ys, x, zs, q, rfl, hq, lt_of_lt_of_le hlow (sum_take_mono sizes hkq), hbefore,
    hafter⟩

/-- A piece, in the sequence that it was cut from. -/
theorem getElem?_splitLengths {β : Type*} (sizes : List ℕ) (xs : List β) {q n : ℕ}
    (hq : sizes[q]? = some n) :
    (sizes.splitLengths xs)[q]? = some ((xs.drop (sizes.take q).sum).take n) := by
  induction sizes generalizing xs q with
  | nil => cases hq
  | cons m sizes ih =>
    rw [List.splitLengths_cons]
    rcases q with _ | q
    · obtain rfl : m = n := Option.some.inj hq
      rfl
    · rw [List.getElem?_cons_succ, ih (xs.drop m) hq, List.drop_drop, List.take_succ_cons,
        List.sum_cons]

end Cuts
