import Mathlib.Data.Nat.Notation
import Mathlib.Logic.Basic
import Mathlib.Tactic.ByContra

/-!
# Runs of an event-driven system

A system has initial states and a step that an event may or may not enable.
Besides reachability and its induction rule, this module treats properties of
a whole run: `Along` says that every state of a run has a property, and
`StepsMeet` that every step is taken under a condition.  The rules
`along_of_stepsMeet`, `along_iff_stepsMeet` and `stepsMeet_congr` reduce
comparisons between these to what is true of a single step.

`LeadsTo` says that something holds after enough steps of a part of the
system, whatever the others do in between; `leadsTo_of_within` proves it by a
bound that these steps lower.

A `Monitor` watches a run without taking part in it.  It gives conditions on
the order of events a state to be phrased over.
-/

namespace Runs

universe u v w

/-- A system driven by events. -/
structure EventSystem (σ : Type u) (ε : Type v) where
  init : σ → Prop
  step : σ → ε → Option σ

namespace EventSystem

variable {σ : Type u} {ε : Type v} (sys : EventSystem σ ε)

/-- Take the events one after the other, each of which must be enabled. -/
def exec (s : σ) : List ε → Option σ
  | [] => some s
  | e :: es => (sys.step s e).bind fun s' => exec s' es

/-- The states that some run from an initial state ends in. -/
def Reachable (s : σ) : Prop :=
  ∃ s₀ es, sys.init s₀ ∧ sys.exec s₀ es = some s

theorem exec_append (s : σ) (es fs : List ε) :
    sys.exec s (es ++ fs) = (sys.exec s es).bind fun s' => sys.exec s' fs := by
  induction es generalizing s with
  | nil => rfl
  | cons e es ih =>
    rw [List.cons_append, exec, exec, Option.bind_assoc]
    congr 1
    funext s'
    exact ih s'

theorem exec_cons_some {s s' : σ} {e : ε} {es : List ε} :
    sys.exec s (e :: es) = some s' ↔
      ∃ s₁, sys.step s e = some s₁ ∧ sys.exec s₁ es = some s' :=
  Option.bind_eq_some_iff

/-- The state in which an event of a run is taken. -/
theorem exec_append_cons_some {s s' s₁ : σ} {e : ε} {es fs : List ε}
    (hes : sys.exec s es = some s₁) (hrun : sys.exec s (es ++ e :: fs) = some s') :
    ∃ s₂, sys.step s₁ e = some s₂ ∧ sys.exec s₂ fs = some s' := by
  rw [exec_append, hes, Option.bind_some] at hrun
  exact (exec_cons_some sys).mp hrun

variable {sys}

theorem Reachable.exec {s s' : σ} {es : List ε} (hs : sys.Reachable s)
    (hes : sys.exec s es = some s') : sys.Reachable s' := by
  obtain ⟨s₀, es₀, hinit, hrun⟩ := hs
  exact ⟨s₀, es₀ ++ es, hinit, by rw [exec_append, hrun, Option.bind_some, hes]⟩

theorem Reachable.step {s s' : σ} {e : ε} (hs : sys.Reachable s)
    (he : sys.step s e = some s') : sys.Reachable s' := by
  have hrun : sys.exec s [e] = some s' := (exec_cons_some sys).mpr ⟨s', he, rfl⟩
  exact hs.exec hrun

/-! ## Invariants -/

/-- What holds initially and is preserved by every enabled step. -/
structure Invariant (sys : EventSystem σ ε) (P : σ → Prop) : Prop where
  init : ∀ s, sys.init s → P s
  step : ∀ s e s', P s → sys.step s e = some s' → P s'

theorem Invariant.exec {P : σ → Prop} (hP : sys.Invariant P) {s s' : σ} {es : List ε}
    (hs : P s) (hes : sys.exec s es = some s') : P s' := by
  induction es generalizing s with
  | nil =>
    obtain rfl : s = s' := Option.some.inj hes
    exact hs
  | cons e es ih =>
    obtain ⟨s₁, he, hrest⟩ := (exec_cons_some sys).mp hes
    exact ih (hP.step s e s₁ hs he) hrest

/-- An invariant holds in every reachable state. -/
theorem Invariant.reachable {P : σ → Prop} (hP : sys.Invariant P) {s : σ}
    (hs : sys.Reachable s) : P s := by
  obtain ⟨s₀, es, hinit, hrun⟩ := hs
  exact hP.exec (hP.init s₀ hinit) hrun

/-- An invariant may be proved on top of another one. -/
theorem Invariant.and_of {P Q : σ → Prop} (hP : sys.Invariant P)
    (hinit : ∀ s, sys.init s → Q s)
    (hstep : ∀ s e s', P s → Q s → sys.step s e = some s' → Q s') :
    sys.Invariant fun s => P s ∧ Q s where
  init s hs := ⟨hP.init s hs, hinit s hs⟩
  step s e s' hs he := ⟨hP.step s e s' hs.1 he, hstep s e s' hs.1 hs.2 he⟩

/-- What holds of the empty history in every initial state, and is carried on by
every step, holds of the events of any run in the state it ends in.  `I` collects
what is known of every reachable state. -/
theorem Invariant.history {I : σ → Prop} (hI : sys.Invariant I) {P : List ε → σ → Prop}
    (hinit : ∀ s, sys.init s → P [] s)
    (hstep : ∀ past s e s', I s → P past s → sys.step s e = some s' → P (past ++ [e]) s')
    {s₀ s : σ} {es : List ε} (h₀ : sys.init s₀) (hrun : sys.exec s₀ es = some s) : P es s := by
  have hfrom : ∀ past s₁, I s₁ → P past s₁ → sys.exec s₁ es = some s → P (past ++ es) s := by
    clear hrun
    induction es with
    | nil =>
      intro past s₁ _ hP hrun
      obtain rfl : s₁ = s := Option.some.inj hrun
      rw [List.append_nil]
      exact hP
    | cons e es ih =>
      intro past s₁ hs hP hrun
      obtain ⟨s₂, he, hrest⟩ := (exec_cons_some sys).mp hrun
      have hnext := ih (past ++ [e]) s₂ (hI.step s₁ e s₂ hs he) (hstep past s₁ e s₂ hs hP he) hrest
      rw [List.append_assoc] at hnext
      exact hnext
  exact hfrom [] s₀ (hI.init s₀ h₀) (hinit s₀ h₀) hrun

/-! ## Properties of a whole run -/

variable (sys)

/-- Every state of the run of `es` from `s` satisfies `P`. -/
def Along (P : σ → Prop) (s : σ) : List ε → Prop
  | [] => P s
  | e :: es => P s ∧ ∀ s', sys.step s e = some s' → Along P s' es

/-- Every step of the run of `es` from `s` is taken under the condition `C`. -/
def StepsMeet (C : σ → ε → Prop) (s : σ) : List ε → Prop
  | [] => True
  | e :: es => C s e ∧ ∀ s', sys.step s e = some s' → StepsMeet C s' es

variable {sys}

theorem Along.head {P : σ → Prop} {s : σ} {es : List ε} (h : sys.Along P s es) :
    P s := by
  cases es with
  | nil => exact h
  | cons e es => exact h.1

/-- The last state of a run has the property as well. -/
theorem Along.last {P : σ → Prop} {s s' : σ} {es : List ε} (h : sys.Along P s es)
    (hrun : sys.exec s es = some s') : P s' := by
  induction es generalizing s with
  | nil =>
    obtain rfl : s = s' := Option.some.inj hrun
    exact h
  | cons e es ih =>
    obtain ⟨s₁, he, hrest⟩ := (exec_cons_some sys).mp hrun
    exact ih (h.2 s₁ he) hrest

/-- Events that meet the condition in every state. -/
theorem stepsMeet_of_forall {C : σ → ε → Prop} {es : List ε} (h : ∀ s, ∀ e ∈ es, C s e) (s : σ) :
    sys.StepsMeet C s es := by
  induction es generalizing s with
  | nil => exact trivial
  | cons e es ih =>
    refine ⟨h s e List.mem_cons_self, fun s' _ => ?_⟩
    exact ih (fun s e' he' => h s e' (List.mem_cons_of_mem e he')) s'

theorem StepsMeet.append {C : σ → ε → Prop} {s : σ} {es fs : List ε} (h : sys.StepsMeet C s es)
    (hrest : ∀ s', sys.exec s es = some s' → sys.StepsMeet C s' fs) :
    sys.StepsMeet C s (es ++ fs) := by
  induction es generalizing s with
  | nil => exact hrest s rfl
  | cons e es ih =>
    refine ⟨h.1, fun s₁ he => ih (h.2 s₁ he) fun s' hrun => ?_⟩
    exact hrest s' ((exec_cons_some sys).mpr ⟨s₁, he, hrun⟩)

/-- The step that is not taken under the condition. -/
theorem exists_of_not_stepsMeet {C : σ → ε → Prop} {s : σ} {es : List ε}
    (h : ¬ sys.StepsMeet C s es) :
    ∃ fs e gs s₁, es = fs ++ e :: gs ∧ sys.exec s fs = some s₁ ∧ ¬ C s₁ e := by
  induction es generalizing s with
  | nil => exact absurd trivial h
  | cons e es ih =>
    by_cases hC : C s e
    · have hnext : ¬ ∀ s', sys.step s e = some s' → sys.StepsMeet C s' es :=
        fun hall => h ⟨hC, hall⟩
      obtain ⟨s', hs'⟩ := not_forall.mp hnext
      obtain ⟨he, hs'⟩ := Classical.not_imp.mp hs'
      obtain ⟨fs, e', gs, s₁, rfl, hrun, hne⟩ := ih hs'
      exact ⟨e :: fs, e', gs, s₁, rfl, (exec_cons_some sys).mpr ⟨s', he, hrun⟩, hne⟩
    · exact ⟨[], e, es, s, rfl, rfl, hC⟩

theorem StepsMeet.cons {C : σ → ε → Prop} {s s' : σ} {e : ε} {es : List ε}
    (hstep : sys.step s e = some s') (hC : C s e) (hrest : sys.StepsMeet C s' es) :
    sys.StepsMeet C s (e :: es) := by
  refine ⟨hC, fun t ht => ?_⟩
  obtain rfl : s' = t := Option.some.inj (hstep.symm.trans ht)
  exact hrest

/-- Conditions that agree in the states that can be reached are met by the same
runs. -/
theorem stepsMeet_congr {I : σ → Prop} {C D : σ → ε → Prop} (hI : sys.Invariant I)
    (hCD : ∀ s e, I s → (C s e ↔ D s e)) {s : σ} {es : List ε} (hs : I s) :
    sys.StepsMeet C s es ↔ sys.StepsMeet D s es := by
  induction es generalizing s with
  | nil => exact Iff.rfl
  | cons e es ih =>
    refine and_congr (hCD s e hs) (forall₂_congr fun s' hs' => ?_)
    exact ih (hI.step s e s' hs hs')

/-- A property that steps under `C` preserve holds all along a run whose steps
meet `C`.  `I` collects what is known of every reachable state. -/
theorem along_of_stepsMeet {I P : σ → Prop} {C : σ → ε → Prop}
    (hI : sys.Invariant I)
    (hgood : ∀ s e s', I s → P s → C s e → sys.step s e = some s' → P s')
    {s : σ} {es : List ε} (hs : I s) (hP : P s) (hC : sys.StepsMeet C s es) :
    sys.Along P s es := by
  induction es generalizing s with
  | nil => exact hP
  | cons e es ih =>
    refine ⟨hP, fun s' he => ?_⟩
    exact ih (hI.step s e s' hs he) (hgood s e s' hs hP hC.1 he) (hC.2 s' he)

/-- When, besides, a step outside `C` breaks the property, a run keeps the
property if and only if all its steps meet `C`. -/
theorem along_iff_stepsMeet {I P : σ → Prop} {C : σ → ε → Prop}
    (hI : sys.Invariant I)
    (hgood : ∀ s e s', I s → P s → C s e → sys.step s e = some s' → P s')
    (hbad : ∀ s e s', I s → P s → ¬ C s e → sys.step s e = some s' → ¬ P s')
    {s s' : σ} {es : List ε} (hs : I s) (hP : P s) (hrun : sys.exec s es = some s') :
    sys.Along P s es ↔ sys.StepsMeet C s es := by
  refine ⟨fun hall => ?_, along_of_stepsMeet hI hgood hs hP⟩
  induction es generalizing s with
  | nil => exact trivial
  | cons e es ih =>
    obtain ⟨s₁, he, hrest⟩ := (exec_cons_some sys).mp hrun
    have hP₁ : P s₁ := (hall.2 s₁ he).head
    have hC : C s e := by
      by_contra hne
      exact hbad s e s₁ hs hP hne he hP₁
    refine ⟨hC, fun s₂ he₂ => ?_⟩
    obtain rfl : s₁ = s₂ := Option.some.inj (he.symm.trans he₂)
    exact ih (hI.step s e s₁ hs he) hP₁ hrest (hall.2 s₁ he)

/-! ## Progress -/

variable (sys)

/-- Whatever events that are `allowed` occur from `s` on, `P` holds as soon as `n`
of them were `own`. -/
def LeadsTo (own : ε → Bool) (allowed : ε → Prop) (P : σ → Prop) (n : ℕ) (s : σ) : Prop :=
  ∀ es s', sys.exec s es = some s' → (∀ e ∈ es, allowed e) → n ≤ es.countP own → P s'

variable {sys}

/-- `W n` bounds the own events that are missing by `n`: no event makes it false, and
an own one lowers the bound. -/
theorem leadsTo_of_within {own : ε → Bool} {allowed : ε → Prop} {P : σ → Prop}
    {W : ℕ → σ → Prop} (hdone : ∀ s, W 0 s → P s)
    (hkeep : ∀ n s e s', W n s → allowed e → sys.step s e = some s' → W n s')
    (hown : ∀ n s e s', W (n + 1) s → allowed e → own e → sys.step s e = some s' → W n s')
    {n : ℕ} {s : σ} (hs : W n s) : sys.LeadsTo own allowed P n s := by
  intro es
  induction es generalizing n s with
  | nil =>
    intro s' hrun _ hn
    obtain rfl : s = s' := Option.some.inj hrun
    obtain rfl : n = 0 := Nat.le_zero.mp hn
    exact hdone s hs
  | cons e es ih =>
    intro s' hrun hallowed hn
    obtain ⟨s₁, hstep, hrest⟩ := (exec_cons_some sys).mp hrun
    obtain ⟨he, hes⟩ := List.forall_mem_cons.mp hallowed
    by_cases howned : own e
    · rw [List.countP_cons_of_pos howned] at hn
      cases n with
      | zero => exact ih (hkeep 0 s e s₁ hs he hstep) s' hrest hes (Nat.zero_le _)
      | succ n =>
        exact ih (hown n s e s₁ hs he howned hstep) s' hrest hes (Nat.le_of_succ_le_succ hn)
    · rw [List.countP_cons_of_neg howned] at hn
      exact ih (hkeep n s e s₁ hs he hstep) s' hrest hes hn

/-- What every allowed event leaves false is not led to, if own events can go on. -/
theorem not_leadsTo_of_stable {own : ε → Bool} {allowed : ε → Prop} {P N : σ → Prop}
    (hN : ∀ s, N s → ¬ P s) (e : ε) (hallowed : allowed e) (howned : own e)
    (hstable : ∀ s, N s → ∃ s', sys.step s e = some s' ∧ N s') (n : ℕ) {s : σ} (hs : N s) :
    ¬ sys.LeadsTo own allowed P n s := by
  have hrun : ∃ s', sys.exec s (List.replicate n e) = some s' ∧ N s' := by
    induction n generalizing s with
    | zero => exact ⟨s, rfl, hs⟩
    | succ n ih =>
      obtain ⟨s₁, hstep, hs₁⟩ := hstable s hs
      obtain ⟨s', hrest, hs'⟩ := ih hs₁
      exact ⟨s', (exec_cons_some sys).mpr ⟨s₁, hstep, hrest⟩, hs'⟩
  obtain ⟨s', hrun, hs'⟩ := hrun
  intro hleads
  refine hN s' hs' (hleads _ s' hrun (fun f hf => ?_) ?_)
  · rw [List.eq_of_mem_replicate hf]
    exact hallowed
  · have hcount : (List.replicate n e).countP own = n := by
      rw [List.countP_replicate, if_pos howned]
    exact Nat.le_of_eq hcount.symm

/-! ## Monitors -/

/-- An observer of the steps of a system. -/
structure Monitor (sys : EventSystem σ ε) (μ : Type w) where
  start : μ
  watch : μ → σ → ε → μ

/-- The system together with what a monitor has seen so far. -/
def Monitor.attach {μ : Type w} (mon : Monitor sys μ) : EventSystem (σ × μ) ε where
  init s := sys.init s.1 ∧ s.2 = mon.start
  step s e := (sys.step s.1 e).map fun s' => (s', mon.watch s.2 s.1 e)

theorem Monitor.attach_step {μ : Type w} {mon : Monitor sys μ} {s s' : σ × μ} {e : ε} :
    mon.attach.step s e = some s' ↔
      sys.step s.1 e = some s'.1 ∧ s'.2 = mon.watch s.2 s.1 e := by
  rw [attach, Option.map_eq_some_iff]
  constructor
  · rintro ⟨t, ht, rfl⟩
    exact ⟨ht, rfl⟩
  · rintro ⟨ht, hm⟩
    exact ⟨s'.1, ht, by rw [← hm]⟩

theorem Monitor.exec_attach {μ : Type w} (mon : Monitor sys μ) {s s' : σ} {es : List ε}
    (hrun : sys.exec s es = some s') (m : μ) :
    ∃ m', mon.attach.exec (s, m) es = some (s', m') := by
  induction es generalizing s m with
  | nil =>
    obtain rfl : s = s' := Option.some.inj hrun
    exact ⟨m, rfl⟩
  | cons e es ih =>
    obtain ⟨s₁, he, hrest⟩ := (exec_cons_some sys).mp hrun
    obtain ⟨m', hm'⟩ := ih hrest (mon.watch m s e)
    exact ⟨m', (exec_cons_some _).mpr ⟨(s₁, _), attach_step.mpr ⟨he, rfl⟩, hm'⟩⟩

/-- A monitor does not disturb a property of the states. -/
theorem Monitor.along_attach {μ : Type w} (mon : Monitor sys μ) {P : σ → Prop} {s : σ}
    {es : List ε} (m : μ) :
    mon.attach.Along (fun t => P t.1) (s, m) es ↔ sys.Along P s es := by
  induction es generalizing s m with
  | nil => exact Iff.rfl
  | cons e es ih =>
    refine and_congr_right fun _ => ?_
    constructor
    · intro h s' hs'
      exact (ih _).mp (h (s', mon.watch m s e) (attach_step.mpr ⟨hs', rfl⟩))
    · intro h s' hs'
      obtain ⟨hstep, hwatch⟩ := attach_step.mp hs'
      exact (ih s'.2).mpr (h s'.1 hstep)

end EventSystem

end Runs
