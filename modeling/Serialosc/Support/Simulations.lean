import Serialosc.Support.Runs

/-!
# Simulations

A system simulates another one if each of its steps is matched by events of the other,
in states that stay related.  The steps of the first are taken in states of which an
invariant is known.  `Simulation.reachable` carries what is known of the other system
over.

A part of a system is another one if each step is one of the part, or leaves it alone;
`Projection.leadsTo` carries what happens in time over.
-/

namespace Runs

universe u v w x

namespace EventSystem

variable {σ : Type u} {ε : Type v} {τ : Type w} {φ : Type x}

/-- The steps of `sys` are matched by the events of `abs` that `matched` gives. -/
structure Simulation (sys : EventSystem σ ε) (abs : EventSystem τ φ) (I : σ → Prop)
    (R : σ → τ → Prop) (matched : σ → ε → List φ) : Prop where
  known : sys.Invariant I
  init : ∀ s, sys.init s → ∃ t, abs.init t ∧ R s t
  step : ∀ s t e s', I s → R s t → sys.step s e = some s' →
    ∃ t', abs.exec t (matched s e) = some t' ∧ R s' t'

variable {sys : EventSystem σ ε} {abs : EventSystem τ φ} {I : σ → Prop} {R : σ → τ → Prop}
  {matched : σ → ε → List φ}

/-- A run is matched by a run. -/
theorem Simulation.exec (h : Simulation sys abs I R matched) {s s' : σ} {t : τ} {es : List ε}
    (hs : I s) (hR : R s t) (hrun : sys.exec s es = some s') :
    ∃ fs t', abs.exec t fs = some t' ∧ R s' t' := by
  induction es generalizing s t with
  | nil =>
    obtain rfl : s = s' := Option.some.inj hrun
    exact ⟨[], t, rfl, hR⟩
  | cons e es ih =>
    obtain ⟨s₁, he, hrest⟩ := (exec_cons_some sys).mp hrun
    obtain ⟨t₁, ht₁, hR₁⟩ := h.step s t e s₁ hs hR he
    obtain ⟨fs, t', hfs, hR'⟩ := ih (h.known.step s e s₁ hs he) hR₁ hrest
    refine ⟨matched s e ++ fs, t', ?_, hR'⟩
    rw [exec_append, ht₁, Option.bind_some, hfs]

/-- What can be reached is related to what the other system can reach. -/
theorem Simulation.reachable (h : Simulation sys abs I R matched) {s : σ}
    (hs : sys.Reachable s) : ∃ t, abs.Reachable t ∧ R s t := by
  obtain ⟨s₀, es, hinit, hrun⟩ := hs
  obtain ⟨t₀, ht₀, hR₀⟩ := h.init s₀ hinit
  obtain ⟨fs, t, hfs, hR⟩ := h.exec (h.known.init s₀ hinit) hR₀ hrun
  exact ⟨t, ⟨t₀, fs, ht₀, hfs⟩, hR⟩

/-- `view` is a part of `sys`, which takes the step of `abs` that `shown` gives, if any. -/
structure Projection (sys : EventSystem σ ε) (abs : EventSystem τ φ) (view : σ → τ)
    (shown : ε → Option φ) : Prop where
  init : ∀ s, sys.init s → abs.init (view s)
  step : ∀ s e s', sys.step s e = some s' →
    abs.exec (view s) (shown e).toList = some (view s')

variable {view : σ → τ} {shown : ε → Option φ}

theorem filterMap_cons_eq (shown : ε → Option φ) (e : ε) (es : List ε) :
    (e :: es).filterMap shown = (shown e).toList ++ es.filterMap shown := by
  rw [List.filterMap_cons]
  cases shown e <;> rfl

/-- The part runs through the events that are shown. -/
theorem Projection.exec (h : Projection sys abs view shown) {s s' : σ} {es : List ε}
    (hrun : sys.exec s es = some s') :
    abs.exec (view s) (es.filterMap shown) = some (view s') := by
  induction es generalizing s with
  | nil =>
    obtain rfl : s = s' := Option.some.inj hrun
    rfl
  | cons e es ih =>
    obtain ⟨s₁, he, hrest⟩ := (exec_cons_some sys).mp hrun
    rw [filterMap_cons_eq, exec_append, h.step s e s₁ he, Option.bind_some]
    exact ih hrest

theorem Projection.reachable (h : Projection sys abs view shown) {s : σ}
    (hs : sys.Reachable s) : abs.Reachable (view s) := by
  obtain ⟨s₀, es, hinit, hrun⟩ := hs
  exact ⟨view s₀, es.filterMap shown, h.init s₀ hinit, h.exec hrun⟩

/-- What the part is led to, the whole is led to. -/
theorem Projection.leadsTo (h : Projection sys abs view shown) {own : φ → Bool}
    {allowed : φ → Prop} {P : τ → Prop} {n : ℕ} {s : σ}
    (hleads : abs.LeadsTo own allowed P n (view s)) :
    sys.LeadsTo (fun e => (shown e).any own) (fun e => ∀ f, shown e = some f → allowed f)
      (fun t => P (view t)) n s := by
  intro es s' hrun hes hn
  refine hleads (es.filterMap shown) (view s') (h.exec hrun) (fun f hf => ?_) (Nat.le_trans hn ?_)
  · obtain ⟨e, he, hef⟩ := List.mem_filterMap.mp hf
    exact hes e he f hef
  · rw [List.countP_filterMap]
    refine List.countP_mono_left fun e _ howned => ?_
    obtain ⟨f, hf, hown⟩ := (Option.any_eq_true _ _).mp howned
    rw [hf]
    exact hown

/-- What follows from `P` in the states that can be reached is led to as well. -/
theorem LeadsTo.imp {own : ε → Bool} {allowed : ε → Prop} {P Q : σ → Prop} {n : ℕ} {s : σ}
    (h : sys.LeadsTo own allowed P n s) (hs : sys.Reachable s)
    (hPQ : ∀ t, sys.Reachable t → P t → Q t) : sys.LeadsTo own allowed Q n s := by
  obtain ⟨s₀, fs, hinit, hrun₀⟩ := hs
  intro es s' hrun hes hn
  refine hPQ s' ⟨s₀, fs ++ es, hinit, ?_⟩ (h es s' hrun hes hn)
  rw [exec_append, hrun₀, Option.bind_some, hrun]

end EventSystem

end Runs
