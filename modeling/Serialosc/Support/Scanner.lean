import Mathlib.Data.Nat.Notation
import Mathlib.Data.List.Basic

/-!
# Scanners

A scanner is an automaton whose states may have a rule.  It reads until it is
stuck and then backs up to the last state that had one: `longestMatch` is that
rule, with the length of the text it matched.

`Stays` describes a set of states in which the scanner remains on some of the
characters.  A word of these characters is read without a look at the states in
between, and what matches is decided by the character after the word
(`Stays.scan_of_dead` and `Stays.scan_of_final`).
-/

universe u v w

/-- An automaton over the characters in `α`, with rules in `ρ`. -/
structure Scanner (σ : Type u) (α : Type v) (ρ : Type w) where
  next : σ → α → σ
  rule : σ → Option ρ
  stuck : σ → Bool

namespace Scanner

/-- A rule, and the length of the text that it matched. -/
structure Match (ρ : Type w) where
  rule : ρ
  length : ℕ
  deriving DecidableEq

variable {σ : Type u} {α : Type v} {ρ : Type w} (A : Scanner σ α ρ)

/-- The last match, when the scanner is in `s` after `n` characters and `last`
was the last match before. -/
def accepted (s : σ) (n : ℕ) (last : Option (Match ρ)) : Option (Match ρ) :=
  match A.rule s with
  | some r => some ⟨r, n⟩
  | none => last

/-- The last match from `s` on. -/
def scan (s : σ) (n : ℕ) (last : Option (Match ρ)) : List α → Option (Match ρ)
  | [] => A.accepted s n last
  | c :: cs =>
    if A.stuck (A.next s c) then A.accepted (A.next s c) (n + 1) (A.accepted s n last)
    else scan (A.next s c) (n + 1) (A.accepted s n last) cs

/-- The longest match at the head of the input. -/
def longestMatch (s : σ) (input : List α) : Option (Match ρ) := A.scan s 0 none input

variable {A} {s : σ} {n : ℕ} {last : Option (Match ρ)} {c : α} {cs : List α} {r : ρ}

theorem accepted_of_some (h : A.rule s = some r) : A.accepted s n last = some ⟨r, n⟩ := by
  rw [accepted, h]

theorem accepted_of_none (h : A.rule s = none) : A.accepted s n last = last := by
  rw [accepted, h]

theorem scan_of_stuck (h : A.stuck (A.next s c) = true) :
    A.scan s n last (c :: cs) =
      A.accepted (A.next s c) (n + 1) (A.accepted s n last) := by
  rw [scan, if_pos h]

theorem scan_of_not_stuck (h : A.stuck (A.next s c) = false) :
    A.scan s n last (c :: cs) = A.scan (A.next s c) (n + 1) (A.accepted s n last) cs := by
  rw [scan, if_neg (ne_true_of_eq_false h)]

/-- A single character that matches. -/
theorem longestMatch_of_stuck (hstuck : A.stuck (A.next s c) = true)
    (hrule : A.rule (A.next s c) = some r) : A.longestMatch s (c :: cs) = some ⟨r, 1⟩ := by
  rw [longestMatch, scan_of_stuck hstuck, accepted_of_some hrule]

/-- After a first character that does not matter. -/
theorem longestMatch_cons (hgoes : A.stuck (A.next s c) = false) (cs : List α) :
    ∃ last, A.longestMatch s (c :: cs) = A.scan (A.next s c) 1 last cs :=
  ⟨_, scan_of_not_stuck hgoes⟩

/-! ## Whether there is a match -/

/-- There is a match, and not of the empty text. -/
def Found (m : Option (Match ρ)) : Prop := ∃ m', m = some m' ∧ 0 < m'.length

theorem found_accepted (h : Found last) (hn : 0 < n) : Found (A.accepted s n last) := by
  rw [accepted]
  split
  · exact ⟨_, rfl, hn⟩
  · exact h

theorem found_scan (h : Found last) (hn : 0 < n) : Found (A.scan s n last cs) := by
  induction cs generalizing s n last with
  | nil => exact found_accepted h hn
  | cons c cs ih =>
    have hbefore : Found (A.accepted s n last) := found_accepted h hn
    rw [scan]
    split_ifs
    · exact found_accepted hbefore n.succ_pos
    · exact ih hbefore n.succ_pos

/-- There is a match if the first character leads to a state with a rule. -/
theorem found_longestMatch (h : (A.rule (A.next s c)).isSome) :
    Found (A.longestMatch s (c :: cs)) := by
  obtain ⟨r, hr⟩ := Option.isSome_iff_exists.mp h
  have hone {last : Option (Match ρ)} : Found (A.accepted (A.next s c) 1 last) :=
    ⟨⟨r, 1⟩, accepted_of_some hr, Nat.one_pos⟩
  rw [longestMatch, scan]
  split_ifs
  · exact hone
  · cases cs with
    | nil => exact hone
    | cons d ds =>
      rw [scan]
      split_ifs
      · exact found_accepted hone (Nat.succ_pos _)
      · exact found_scan hone (Nat.succ_pos _)

/-! ## Words -/

/-- The states in `S` have the rule `o`, and the scanner stays among them on
the characters in `p`. -/
structure Stays (A : Scanner σ α ρ) (S : σ → Prop) (p : α → Prop) (o : Option ρ) : Prop where
  rule : ∀ s, S s → A.rule s = o
  next : ∀ s, S s → ∀ c, p c → S (A.next s c) ∧ A.stuck (A.next s c) = false

namespace Stays

variable {S : σ → Prop} {p : α → Prop} {o : Option ρ} {xs : List α}

/-- After a word the scanner is in one of the states still. -/
theorem scan_append (h : A.Stays S p o) (hs : S s) (hxs : ∀ x ∈ xs, p x) :
    ∃ s' last', S s' ∧ A.scan s n last (xs ++ cs) = A.scan s' (n + xs.length) last' cs := by
  induction xs generalizing s n last with
  | nil => exact ⟨s, last, hs, rfl⟩
  | cons x xs ih =>
    obtain ⟨hnext, hgoes⟩ := h.next s hs x (hxs x List.mem_cons_self)
    obtain ⟨s', last', hs', heq⟩ := ih hnext fun y hy => hxs y (.tail x hy)
    refine ⟨s', last', hs', ?_⟩
    rw [List.cons_append, scan_of_not_stuck hgoes, heq, List.length_cons, Nat.add_right_comm,
      Nat.add_assoc]

/-- A word that is followed by a character on which no match is left. -/
theorem scan_of_dead (h : A.Stays S p (some r)) (hs : S s) (hxs : ∀ x ∈ xs, p x)
    (hdead : ∀ s, S s → A.stuck (A.next s c) = true ∧ A.rule (A.next s c) = none) :
    A.scan s n last (xs ++ c :: cs) = some ⟨r, n + xs.length⟩ := by
  obtain ⟨s', last', hs', heq⟩ := h.scan_append hs hxs
  obtain ⟨hstuck, hnone⟩ := hdead s' hs'
  rw [heq, scan_of_stuck hstuck, accepted_of_none hnone, accepted_of_some (h.rule s' hs')]

/-- A word that only the character after it makes a match. -/
theorem scan_of_final (h : A.Stays S p o) (hs : S s) (hxs : ∀ x ∈ xs, p x)
    (hfinal : ∀ s, S s → A.stuck (A.next s c) = true ∧ A.rule (A.next s c) = some r) :
    A.scan s n last (xs ++ c :: cs) = some ⟨r, n + xs.length + 1⟩ := by
  obtain ⟨s', last', hs', heq⟩ := h.scan_append hs hxs
  obtain ⟨hstuck, hrule⟩ := hfinal s' hs'
  rw [heq, scan_of_stuck hstuck, accepted_of_some hrule]

end Stays

end Scanner
