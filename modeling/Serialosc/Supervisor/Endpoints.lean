import Serialosc.Supervisor.Notifications
import Serialosc.Wwrl.Vector

/-!
# The vector of the notification endpoints

`self->notifications` is a vector: `osc_add_notification_endpoint` pushes an endpoint,
`drain_notifications_cb` clears all of them, and the loop of `osc_notify` reads them one by
one.  `endpointMonitor` keeps such a vector next to the supervisor, whose list of endpoints
it has to agree with.  The allocator may refuse any block: that of `VECTOR_INIT`, which
`main` does not look at, as well as the larger ones.
-/

namespace Serialosc

open Runs

/-- The size of `struct sosc_notification_endpoint`. -/
abbrev sizeofEndpoint : ℕ := 128 + 6

/-- `self->notifications`, the number of pushes so far, the largest number of endpoints so
far, and whether the program has come to its end at one of the macros. -/
structure EndpointVector where
  vec : Wwrl.Vector SoscNotificationEndpoint
  pushes : ℕ := 0
  peak : ℕ := 0
  crashed : Bool := false

/-- The vector as `main` sets it up.  `granted` tells whether the allocator grants so many
bytes, first here and then in each push. -/
def EndpointVector.init (granted : ℕ → ℕ → Bool) : EndpointVector where
  vec := .init sizeofEndpoint (granted 0) 32

/-- Another endpoint is pushed. -/
def EndpointVector.push (self : EndpointVector) (granted : ℕ → ℕ → Bool)
    (n : SoscNotificationEndpoint) : EndpointVector :=
  match self.vec.pushBack sizeofEndpoint (granted (self.pushes + 1)) n with
  | some vec => ⟨vec, self.pushes + 1, max self.peak vec.size, false⟩
  | none => { self with crashed := true }

/-- All endpoints are cleared. -/
def EndpointVector.clear (self : EndpointVector) : EndpointVector :=
  match self.vec.clear with
  | some vec => { self with vec := vec }
  | none => { self with crashed := true }

/-- What `osc_add_notification_endpoint` and `drain_notifications_cb` do to the vector, until
the program comes to its end. -/
def EndpointVector.watch (granted : ℕ → ℕ → Bool) (self : EndpointVector) (s : SoscSupervisor) :
    Event → EndpointVector
  | .osc (.notify host port) =>
      if self.crashed then self else self.push granted (notificationEndpoint host port)
  | .check =>
      if self.crashed = false ∧ s.drainActive = true then self.clear else self
  | _ => self

/-- The vector next to the supervisor. -/
def endpointMonitor (env : Env) (granted : ℕ → ℕ → Bool) :
    (supervisor env).Monitor EndpointVector where
  start := .init granted
  watch := EndpointVector.watch granted

/-- The first block was refused, and nothing has been pushed yet. -/
structure EndpointVector.Null (granted : ℕ → ℕ → Bool) (v : EndpointVector) : Prop where
  refused : granted 0 (sizeofEndpoint * 32) = false
  data : v.vec.data = none
  size : v.vec.size = 0
  pushes : v.pushes = 0

/-- What is known of the vector between two events. -/
structure EndpointVector.Follows (granted : ℕ → ℕ → Bool) (v : EndpointVector)
    (ns : List SoscNotificationEndpoint) : Prop where
  holds : v.crashed = false →
    v.vec.Holds sizeofEndpoint ns ∨ v.Null granted ∧ v.vec.capacity = 32 ∧ ns = []
  doubled : ∃ k, v.vec.capacity = 32 * 2 ^ k
  bounded : v.vec.capacity = 32 ∨ v.vec.capacity < 2 * v.peak
  refused : v.crashed = true → v.Null granted ∨ v.vec.size = v.vec.capacity ∧
    granted (v.pushes + 1) (v.vec.capacity * 2 * sizeofEndpoint) = false

section

variable {env : Env} {granted : ℕ → ℕ → Bool} {self : EndpointVector}
  {ns : List SoscNotificationEndpoint}

/-- The program comes to its end. -/
theorem EndpointVector.Follows.crash (h : self.Follows granted ns)
    (hrefused : self.Null granted ∨ self.vec.size = self.vec.capacity ∧
      granted (self.pushes + 1) (self.vec.capacity * 2 * sizeofEndpoint) = false)
    (ns' : List SoscNotificationEndpoint) :
    ({ self with crashed := true } : EndpointVector).Follows granted ns' where
  holds hlives := Bool.noConfusion hlives
  doubled := h.doubled
  bounded := h.bounded
  refused _ := hrefused.imp_left fun hnull => ⟨hnull.1, hnull.2, hnull.3, hnull.4⟩

theorem EndpointVector.Follows.push (hgranted : ∀ k bytes, granted k bytes = true →
    bytes < Wwrl.ptrdiffMax) (h : self.Follows granted ns) (hcrashed : self.crashed = false)
    (n : SoscNotificationEndpoint) : (self.push granted n).Follows granted (ns ++ [n]) := by
  rw [EndpointVector.push]
  rcases h.holds hcrashed with hholds | ⟨hnull, -⟩
  · have hpushed := hholds.pushBack (by decide) (hgranted (self.pushes + 1)) n
    generalize self.vec.pushBack sizeofEndpoint (granted (self.pushes + 1)) n = pushed at hpushed
    obtain ⟨k, hk⟩ := h.doubled
    cases hpushed with
    | stored vec' hroom hcapacity hholds' =>
      refine ⟨fun _ => .inl hholds', ⟨k, hcapacity.trans hk⟩, ?_, Bool.noConfusion⟩
      have hpeak := Nat.le_max_left self.peak vec'.size
      rcases h.bounded with hfirst | hlater
      · exact .inl (hcapacity.trans hfirst)
      · exact .inr (by dsimp only; omega)
    | grown vec' hfull hcapacity hholds' =>
      refine ⟨fun _ => .inl hholds', ⟨k + 1, ?_⟩, .inr ?_, Bool.noConfusion⟩
      · rw [hcapacity, hk, Nat.pow_succ, Nat.mul_assoc]
      · -- the block grows when there is one endpoint more than it has room for
        have hpeak := Nat.le_max_right self.peak vec'.size
        have hsize := hholds'.size
        rw [List.length_append, List.length_singleton, ← hholds.size, hfull] at hsize
        dsimp only
        omega
    | refused hfull hrefused => exact h.crash (.inr ⟨hfull, hrefused⟩) _
  · rw [Wwrl.Vector.pushBack_of_null hnull.data]
    exact h.crash (.inl hnull) _

theorem EndpointVector.Follows.clear (h : self.Follows granted ns)
    (hcrashed : self.crashed = false) : self.clear.Follows granted [] := by
  rw [EndpointVector.clear]
  rcases h.holds hcrashed with hholds | ⟨hnull, -⟩
  · obtain ⟨vec', hclear, hcapacity, hholds'⟩ := hholds.clear
    rw [hclear]
    refine ⟨fun _ => .inl hholds', ?_, ?_, fun hcrash => ?_⟩
    · rw [hcapacity]
      exact h.doubled
    · rw [hcapacity]
      exact h.bounded
    · exact Bool.noConfusion (hcrashed.symm.trans hcrash)
  · rw [Wwrl.Vector.clear_of_null hnull.data]
    exact h.crash (.inl hnull) _

theorem EndpointVector.follows_init (granted : ℕ → ℕ → Bool) :
    (EndpointVector.init granted).Follows granted [] where
  holds _ := by
    cases hgrant : granted 0 (sizeofEndpoint * 32) with
    | true => exact .inl (Wwrl.Vector.holds_init (by decide) (by decide) hgrant)
    | false =>
      refine .inr ⟨⟨hgrant, Wwrl.Vector.data_init_of_refused (by decide) hgrant, rfl, rfl⟩, ?_, rfl⟩
      exact Wwrl.Vector.capacity_init (by decide)
  doubled := ⟨0, rfl⟩
  bounded := .inl rfl
  refused hcrash := Bool.noConfusion hcrash

theorem EndpointVector.Follows.step {s s' : SoscSupervisor} {e : Event}
    (hgranted : ∀ k bytes, granted k bytes = true → bytes < Wwrl.ptrdiffMax)
    (h : self.Follows granted s.notifications) (hstep : Serialosc.step env s e = some s') :
    (self.watch granted s e).Follows granted s'.notifications := by
  have hns : s'.notifications = (nextSubscriptions s e).1 :=
    congrArg Prod.fst (subscriptions_step hstep)
  rw [hns]
  have hquiet (ns : List SoscNotificationEndpoint) (hcrashed : self.crashed = true) :
      self.Follows granted ns :=
    ⟨fun hlives => Bool.noConfusion (hlives.symm.trans hcrashed), h.doubled, h.bounded, h.refused⟩
  cases e with
  | osc req =>
    cases req with
    | notify host port =>
      rw [EndpointVector.watch]
      split_ifs with hcrashed
      · exact hquiet _ hcrashed
      · exact h.push hgranted (Bool.eq_false_of_not_eq_true hcrashed) _
    | _ => exact h
  | check =>
    rw [EndpointVector.watch, nextSubscriptions]
    by_cases hcrashed : self.crashed = true
    · rw [if_neg fun hlives => Bool.noConfusion (hlives.1.symm.trans hcrashed)]
      exact hquiet _ hcrashed
    · have hlives := Bool.eq_false_of_not_eq_true hcrashed
      by_cases hdrain : s.drainActive = true
      · rw [if_pos ⟨hlives, hdrain⟩, if_pos hdrain]
        exact h.clear hlives
      · rw [if_neg fun hboth => hdrain hboth.2, if_neg hdrain]
        exact h
  | _ => exact h

/-- In every run, the vector holds the endpoints of the list in the cells that the loop of
`osc_notify` reads, all of them inside of the block; the block has been doubled a number of
times, and not before it was needed; and the program only comes to its end in a push for
which a larger block was refused, or before anything was pushed, when `main` was refused the
first one. -/
theorem endpoints_held (hgranted : ∀ k bytes, granted k bytes = true → bytes < Wwrl.ptrdiffMax)
    {s : SoscSupervisor} {v : EndpointVector}
    (hreach : (endpointMonitor env granted).attach.Reachable (s, v)) :
    (v.crashed = false → v.vec.size = s.notifications.length ∧ v.vec.size ≤ v.vec.capacity ∧
      ∀ i < v.vec.size, v.vec.get i = s.notifications[i]?) ∧
    (∃ k, v.vec.capacity = 32 * 2 ^ k) ∧
    (v.vec.capacity = 32 ∨ v.vec.capacity < 2 * v.peak) ∧
    (v.crashed = true →
      granted 0 (sizeofEndpoint * 32) = false ∧ v.pushes = 0 ∧ v.vec.data = none ∨
        v.vec.size = v.vec.capacity ∧
          granted (v.pushes + 1) (v.vec.capacity * 2 * sizeofEndpoint) = false) := by
  have hinvariant : (endpointMonitor env granted).attach.Invariant fun t =>
      t.2.Follows granted t.1.notifications := by
    refine ⟨fun t ht => ?_, fun t e t' ht he => ?_⟩
    · obtain ⟨hinit, hstart⟩ := ht
      obtain ⟨exeDir, configDir, -, heq⟩ := supervisor_init_iff.mp hinit
      have hnone : t.1.notifications = [] := by
        rw [heq]
        rfl
      rw [hstart, hnone]
      exact EndpointVector.follows_init granted
    · obtain ⟨hstep, hwatch⟩ := EventSystem.Monitor.attach_step.mp he
      rw [hwatch]
      exact ht.step hgranted hstep
  have hfollows := hinvariant.reachable hreach
  refine ⟨fun hlives => ?_, hfollows.doubled, hfollows.bounded, fun hcrashed => ?_⟩
  · rcases hfollows.holds hlives with hholds | ⟨hnull, -, hnone⟩
    · exact ⟨hholds.size, hholds.size_le, fun i hi => hholds.get hi⟩
    · refine ⟨?_, ?_, fun i hi => ?_⟩
      · rw [hnull.size, hnone]
        rfl
      · rw [hnull.size]
        exact Nat.zero_le _
      · rw [hnull.size] at hi
        exact absurd hi (Nat.not_lt_zero i)
  · exact (hfollows.refused hcrashed).imp_left fun hnull =>
      ⟨hnull.refused, hnull.pushes, hnull.data⟩

/-- Two endpoints subscribe. -/
theorem endpoints_held_reliable :
    ∃ s v, (endpointMonitor Env.reliable fun _ bytes => bytes < 65536).attach.exec
        (reliableStart, .init fun _ bytes => bytes < 65536)
        [.idle, .osc (.notify (.ofString "localhost") 8000),
          .osc (.notify (.ofString "localhost") 8001)] = some (s, v) ∧
      (v.crashed = false → v.vec.size = s.notifications.length ∧ v.vec.size ≤ v.vec.capacity ∧
        ∀ i < v.vec.size, v.vec.get i = s.notifications[i]?) ∧
      (∃ k, v.vec.capacity = 32 * 2 ^ k) ∧
      (v.vec.capacity = 32 ∨ v.vec.capacity < 2 * v.peak) ∧
      v.crashed = false ∧ v.vec.size = 2 := by
  have hgranted : ∀ k bytes : ℕ, (fun _ bytes => decide (bytes < 65536)) k bytes = true →
      bytes < Wwrl.ptrdiffMax := fun k bytes h => (of_decide_eq_true h).trans (by decide)
  obtain ⟨s, v, hrun, hcrashed, hsize⟩ : ∃ s v,
      (endpointMonitor Env.reliable fun _ bytes => bytes < 65536).attach.exec
        (reliableStart, .init fun _ bytes => bytes < 65536)
        [.idle, .osc (.notify (.ofString "localhost") 8000),
          .osc (.notify (.ofString "localhost") 8001)] = some (s, v) ∧
        v.crashed = false ∧ v.vec.size = 2 := ⟨_, _, rfl, rfl, rfl⟩
  obtain ⟨hheld, hdoubled, hbounded, -⟩ :=
    endpoints_held hgranted ⟨_, _, ⟨init_reliableStart, rfl⟩, hrun⟩
  exact ⟨s, v, hrun, hheld, hdoubled, hbounded, hcrashed, hsize⟩

end

end Serialosc
