import Serialosc.Support.Runs
import Mathlib.Data.List.Infix
import Mathlib.Logic.Function.Basic

/-!
# Systems that are fed through ordered channels

A process that writes a fixed sequence of messages into a channel of its own,
and a system that reads from these channels in order, at any pace.  A message
that does not fit is not written.

`feed` composes a system with such processes.  `Invariant.feed` keeps what is
known of the system alone; `feed_seen` is the rule for what the system knows
of each process by the messages it has read from it.
-/

namespace Runs

universe u v w x

/-- One process and its channel: what is still to be written, what has been
written but not read, and what has been read. -/
structure Channel (μ : Type w) where
  script : List μ
  pipe : List μ := []
  seen : List μ := []

namespace Channel

variable {μ : Type w}

/-- The next message of the script is written. -/
def write (fits : μ → Bool) (c : Channel μ) : Option (Channel μ) :=
  match c.script with
  | [] => none
  | m :: rest =>
      some { c with script := rest, pipe := if fits m then c.pipe ++ [m] else c.pipe }

/-- The message `m` is read. -/
def read [DecidableEq μ] (c : Channel μ) (m : μ) : Option (Channel μ) :=
  match c.pipe with
  | [] => none
  | m' :: rest =>
      if m' = m then some { c with pipe := rest, seen := c.seen ++ [m] } else none

/-- Everything is somewhere, in order. -/
def Whole (script : List μ) (c : Channel μ) : Prop := c.seen ++ c.pipe ++ c.script = script

variable {script : List μ} {c c' : Channel μ} {fits : μ → Bool} {m : μ}

theorem Whole.write (h : Whole script c) (hfits : ∀ m ∈ script, fits m = true)
    (hwrite : c.write fits = some c') : Whole script c' ∧ c'.seen = c.seen := by
  rw [Channel.write] at hwrite
  split at hwrite
  · cases hwrite
  · next m rest hscript =>
    obtain rfl := Option.some.inj hwrite
    have hmem : m ∈ script := by
      rw [← h, hscript]
      exact List.mem_append_right _ List.mem_cons_self
    refine ⟨?_, rfl⟩
    rw [Whole, hscript] at h
    rw [Whole, hfits m hmem, if_pos rfl, ← h]
    simp

theorem Whole.read [DecidableEq μ] (h : Whole script c) (hread : c.read m = some c') :
    Whole script c' ∧ c'.seen = c.seen ++ [m] := by
  rw [Channel.read] at hread
  split at hread
  · cases hread
  · next m' rest hpipe =>
    obtain ⟨rfl, hc⟩ := Option.ite_none_right_eq_some.mp hread
    obtain rfl := Option.some.inj hc
    refine ⟨?_, rfl⟩
    rw [Whole, hpipe] at h
    rw [Whole, ← h]
    simp

theorem Whole.seen_isInitial (h : Whole script c) : c.seen <+: script :=
  ⟨c.pipe ++ c.script, by rw [← List.append_assoc]; exact h⟩

end Channel

namespace EventSystem

variable {σ : Type u} {ε : Type v} {μ : Type w} {ι : Type x} [DecidableEq μ] [DecidableEq ι]

/-- A system together with the processes that feed it.  `reads` tells which
message an event reads from which process, and `live` which processes are
running. -/
def feed (sys : EventSystem σ ε) (live : σ → ι → Bool) (fits : μ → Bool)
    (reads : ε → Option (ι × μ)) (script : ι → List μ) :
    EventSystem (σ × (ι → Channel μ)) (ε ⊕ ι) where
  init n := sys.init n.1 ∧ ∀ i, n.2 i = { script := script i }
  step n
    | .inl e =>
        match reads e with
        | none => (sys.step n.1 e).map fun s => (s, n.2)
        | some (i, m) =>
            ((n.2 i).read m).bind fun c =>
              (sys.step n.1 e).map fun s => (s, Function.update n.2 i c)
    | .inr i =>
        if live n.1 i then
          ((n.2 i).write fits).map fun c => (n.1, Function.update n.2 i c)
        else none

variable {sys : EventSystem σ ε} {live : σ → ι → Bool} {fits : μ → Bool}
  {reads : ε → Option (ι × μ)} {script : ι → List μ}

/-- The messages that an event reads from process `i`. -/
def readFrom (reads : ε → Option (ι × μ)) (i : ι) (e : ε) : List μ :=
  match reads e with
  | none => []
  | some (j, m) => if j = i then [m] else []

/-- The two kinds of steps of a fed system. -/
theorem feed_cases {n n' : σ × (ι → Channel μ)} {e : ε ⊕ ι}
    (hfits : ∀ i, ∀ m ∈ script i, fits m = true)
    (hwhole : ∀ i, (n.2 i).Whole (script i))
    (h : (sys.feed live fits reads script).step n e = some n') :
    (∀ i, (n'.2 i).Whole (script i)) ∧
      ((∃ e₀, e = .inl e₀ ∧ sys.step n.1 e₀ = some n'.1 ∧
          ∀ i, (n'.2 i).seen = (n.2 i).seen ++ readFrom reads i e₀) ∨
        (∃ i, e = .inr i) ∧ n'.1 = n.1 ∧ ∀ i, (n'.2 i).seen = (n.2 i).seen) := by
  cases e with
  | inl e₀ =>
    simp only [feed] at h
    split at h
    · next hreads =>
      obtain ⟨s, hs, rfl⟩ := Option.map_eq_some_iff.mp h
      refine ⟨hwhole, Or.inl ⟨e₀, rfl, hs, fun i => ?_⟩⟩
      rw [readFrom, hreads, List.append_nil]
    · next j m hreads =>
      obtain ⟨c, hc, hrest⟩ := Option.bind_eq_some_iff.mp h
      obtain ⟨s, hs, rfl⟩ := Option.map_eq_some_iff.mp hrest
      obtain ⟨hc', hseen⟩ := (hwhole j).read hc
      refine ⟨fun i => ?_, Or.inl ⟨e₀, rfl, hs, fun i => ?_⟩⟩
      · by_cases hi : i = j
        · subst hi
          simpa using hc'
        · simpa [Function.update_of_ne hi] using hwhole i
      · by_cases hi : i = j
        · subst hi
          simp [readFrom, hreads, hseen]
        · simp [readFrom, hreads, Function.update_of_ne hi, Ne.symm hi]
  | inr j =>
    obtain ⟨-, hstep⟩ := Option.ite_none_right_eq_some.mp h
    obtain ⟨c, hc, rfl⟩ := Option.map_eq_some_iff.mp hstep
    obtain ⟨hc', hseen⟩ := (hwhole j).write (hfits j) hc
    refine ⟨fun i => ?_, Or.inr ⟨⟨j, rfl⟩, rfl, fun i => ?_⟩⟩
    · by_cases hi : i = j
      · subst hi
        simpa using hc'
      · simpa [Function.update_of_ne hi] using hwhole i
    · by_cases hi : i = j
      · subst hi
        simpa using hseen
      · simp [Function.update_of_ne hi]

/-- The rule for a fed system.  `P` is known of the system, and `Q` relates
the system to what it has read from each process: an event may suppose that
what it reads continues the script. -/
theorem feed_seen {P : σ → Prop} {Q : σ → ι → List μ → Prop}
    (hfits : ∀ i, ∀ m ∈ script i, fits m = true) (hP : sys.Invariant P)
    (hinit : ∀ s i, sys.init s → Q s i [])
    (hstep : ∀ s e s' i seen, P s → Q s i seen → sys.step s e = some s' →
      seen ++ readFrom reads i e <+: script i → Q s' i (seen ++ readFrom reads i e)) :
    (sys.feed live fits reads script).Invariant fun n =>
      P n.1 ∧ (∀ i, (n.2 i).Whole (script i)) ∧ ∀ i, Q n.1 i (n.2 i).seen where
  init n hn := by
    refine ⟨hP.init n.1 hn.1, fun i => ?_, fun i => ?_⟩
    · rw [hn.2 i]
      rfl
    · rw [hn.2 i]
      exact hinit n.1 i hn.1
  step n e n' hn he := by
    obtain ⟨hPn, hwhole, hQ⟩ := hn
    obtain ⟨hwhole', ⟨e₀, -, hs, hseen⟩ | ⟨-, hs, hseen⟩⟩ := feed_cases hfits hwhole he
    · refine ⟨hP.step n.1 e₀ n'.1 hPn hs, hwhole', fun i => ?_⟩
      rw [hseen i]
      refine hstep n.1 e₀ n'.1 i _ hPn (hQ i) hs ?_
      rw [← hseen i]
      exact (hwhole' i).seen_isInitial
    · rw [hs]
      refine ⟨hPn, hwhole', fun i => ?_⟩
      rw [hseen i]
      exact hQ i

/-- Process `i` writes the next messages of its script. -/
theorem feed_writes {n : σ × (ι → Channel μ)} {i : ι} {msgs rest : List μ}
    (hlive : live n.1 i = true) (hscript : (n.2 i).script = msgs ++ rest)
    (hfits : ∀ m ∈ msgs, fits m = true) :
    (sys.feed live fits reads script).exec n (msgs.map fun _ => .inr i) =
      some (n.1, Function.update n.2 i
        { n.2 i with script := rest, pipe := (n.2 i).pipe ++ msgs }) := by
  induction msgs generalizing n with
  | nil =>
    have hsame : { n.2 i with script := rest, pipe := (n.2 i).pipe ++ [] } = n.2 i := by
      rw [List.append_nil, ← List.nil_append rest, ← hscript]
    rw [hsame, Function.update_eq_self]
    rfl
  | cons m msgs ih =>
    let c : Channel μ := { n.2 i with script := msgs ++ rest, pipe := (n.2 i).pipe ++ [m] }
    have hc : (n.2 i).write fits = some c := by
      rw [Channel.write, hscript]
      simp only [List.cons_append, hfits m List.mem_cons_self, if_true, c]
    have hstep : (sys.feed live fits reads script).step n (.inr i) =
        some (n.1, Function.update n.2 i c) := by
      rw [feed]
      simp only [hlive, if_true, hc, Option.map_some]
    have hi : Function.update n.2 i c i = c := Function.update_self ..
    rw [List.map_cons, exec, hstep, Option.bind_some,
      @ih (n.1, Function.update n.2 i c) hlive (congrArg Channel.script hi)
        fun m' hm' => hfits m' (List.mem_cons_of_mem m hm')]
    simp only [hi, Function.update_idem, c, List.append_assoc, List.singleton_append]

end EventSystem

end Runs
