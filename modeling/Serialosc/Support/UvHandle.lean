import Mathlib.Init

/-!
# Handles of a libuv event loop

A handle enters the loop when it is initialised and leaves it when a close
completes; in between, `uv_walk` sees it whether it is active or not.  A
close that is requested before the closing phase of an iteration completes in
that phase.  One that is requested by a close callback, that is during the
closing phase, waits for the next.  `Stage.finishing` marks the handles whose
turn has come.

Initialising a handle leaves its `data` member alone.
-/

namespace Uv

/-- Where a handle stands between `uv_*_init` and its close callback. -/
inductive Stage
  | unregistered
  | registered
  | closing
  | finishing
  deriving DecidableEq, Repr

/-- The part of a handle that its owner can observe.  `active` covers a
running process, a stream that is being read and a started watcher. -/
structure Handle (τ : Type) where
  stage : Stage := .unregistered
  active : Bool := false
  data : Option τ := none
  deriving DecidableEq, Repr

namespace Handle

variable {τ : Type} (h : Handle τ)

/-- `uv_walk` visits the handle. -/
def InLoop : Prop := h.stage ≠ .unregistered

instance : Decidable h.InLoop := inferInstanceAs (Decidable (_ ≠ _))

/-- `uv_*_init`. -/
def init : Handle τ := { h with stage := .registered, active := false }

/-- A successful `uv_spawn`, which initialises the handle too. -/
def spawn : Handle τ := { h with stage := .registered, active := true }

/-- `uv_*_start`. -/
def start : Handle τ := { h with active := true }

/-- The handle stops by itself: a process has exited. -/
def stop : Handle τ := { h with active := false }

/-- `uv_close`. -/
def close : Handle τ := { h with stage := .closing, active := false }

/-- The closing phase begins. -/
def beginClosing : Handle τ :=
  { h with stage := if h.stage = .closing then .finishing else h.stage }

/-- The close completes. -/
def finishClose : Handle τ := { h with stage := .unregistered }

@[simp] theorem stage_init : h.init.stage = .registered := rfl
@[simp] theorem active_init : h.init.active = false := rfl
@[simp] theorem data_init : h.init.data = h.data := rfl
@[simp] theorem stage_spawn : h.spawn.stage = .registered := rfl
@[simp] theorem active_spawn : h.spawn.active = true := rfl
@[simp] theorem data_spawn : h.spawn.data = h.data := rfl
@[simp] theorem stage_start : h.start.stage = h.stage := rfl
@[simp] theorem active_start : h.start.active = true := rfl
@[simp] theorem data_start : h.start.data = h.data := rfl
@[simp] theorem stage_stop : h.stop.stage = h.stage := rfl
@[simp] theorem active_stop : h.stop.active = false := rfl
@[simp] theorem data_stop : h.stop.data = h.data := rfl
@[simp] theorem stage_close : h.close.stage = .closing := rfl
@[simp] theorem active_close : h.close.active = false := rfl
@[simp] theorem data_close : h.close.data = h.data := rfl
@[simp] theorem active_beginClosing : h.beginClosing.active = h.active := rfl
@[simp] theorem data_beginClosing : h.beginClosing.data = h.data := rfl
@[simp] theorem stage_finishClose : h.finishClose.stage = .unregistered := rfl
@[simp] theorem active_finishClose : h.finishClose.active = h.active := rfl
@[simp] theorem data_finishClose : h.finishClose.data = h.data := rfl

theorem stage_beginClosing :
    h.beginClosing.stage = if h.stage = .closing then .finishing else h.stage := rfl

theorem stage_beginClosing_of_registered (hreg : h.stage = .registered) :
    h.beginClosing.stage = .registered := by
  simp [stage_beginClosing, hreg]

/-- Beginning the closing phase takes nothing out of the loop. -/
@[simp] theorem inLoop_beginClosing : h.beginClosing.InLoop ↔ h.InLoop := by
  unfold InLoop
  rw [stage_beginClosing]
  split <;> simp_all

end Handle

end Uv
