import Serialosc.Supervisor.Notifications

/-!
# Subscriptions are for one iteration

An endpoint may be pushed several times, so an entry of `self->notifications`
goes by the number of endpoints pushed before it.  `Ledger` keeps these numbers
beside the list, and records which entry has been sent an event in which
iteration of the loop.  `Ledger.Follows` ties it to the list and to the log.

The first event of an iteration starts the check watcher, and the check phase of
the same iteration clears the list.  So an entry that has been sent something is
on the list only while the check watcher is active, which is only in the poll
phase.
-/

namespace Serialosc

open ByteMemory Runs

/-! ## Who is sent what -/

/-- The elements of a list for which `lo_address_new` succeeds, from the call
number `calls` on. -/
def served {α : Type} (env : Env) : ℕ → List α → List α
  | _, [] => []
  | calls, x :: xs =>
      if env.loAddressNew calls = true then x :: served env (calls + 1) xs
      else served env (calls + 1) xs

theorem map_served {α β : Type} (env : Env) (f : α → β) (calls : ℕ) (xs : List α) :
    (served env calls xs).map f = served env calls (xs.map f) := by
  induction xs generalizing calls with
  | nil => rfl
  | cons x xs ih =>
    rw [served, List.map_cons, served]
    split
    · rw [List.map_cons, ih]
    · exact ih (calls + 1)

theorem mem_of_mem_served {α : Type} {env : Env} {calls : ℕ} {xs : List α} {x : α}
    (hx : x ∈ served env calls xs) : x ∈ xs := by
  induction xs generalizing calls with
  | nil => exact hx
  | cons y ys ih =>
    rw [served] at hx
    split at hx
    · rcases List.mem_cons.mp hx with rfl | hmem
      · exact List.mem_cons_self
      · exact List.mem_cons_of_mem y (ih hmem)
    · exact List.mem_cons_of_mem y (ih hx)

/-- The address that an effect sends an announcement to. -/
def Effect.notice : Effect → Option LoAddress
  | .loSendFrom (some _) dst path _ =>
      if path = "/serialosc/add" ∨ path = "/serialosc/remove" then some dst else none
  | _ => none

/-- The addresses that announcements have been sent to. -/
def notices (log : List Effect) : List LoAddress := log.filterMap Effect.notice

/-- The endpoint that an effect has pushed. -/
def Effect.endpoint : Effect → Option SoscNotificationEndpoint
  | .subscribed n => some n
  | _ => none

/-- The endpoints that have been pushed. -/
def endpoints (log : List Effect) : List SoscNotificationEndpoint :=
  log.filterMap Effect.endpoint

/-- The endpoint that an event pushes. -/
def pushedBy : Event → List SoscNotificationEndpoint
  | .osc (.notify host port) => [notificationEndpoint host port]
  | _ => []

section

variable {env : Env} {self self' : SoscSupervisor} {e : Event}

theorem foldl_notifyEndpoint_served (d : ℕ) (path : String) (entry : List OscArg)
    (ns : List SoscNotificationEndpoint) (self : SoscSupervisor) :
    (ns.foldl (notifyEndpoint env path d entry) self).log =
      self.log ++ (served env self.calls ns).map (notifySend d path entry) := by
  induction ns generalizing self with
  | nil => exact (List.append_nil _).symm
  | cons n ns ih =>
    rw [List.foldl_cons, ih, served]
    cases halloc : env.loAddressNew self.calls with
    | false =>
      simp [notifyEndpoint, loAddressNew, halloc, SoscSupervisor.tick]
    | true =>
      simp [notifyEndpoint, loAddressNew, halloc, SoscSupervisor.tick, SoscSupervisor.emit,
        notifySend, SoscNotificationEndpoint.address]

theorem notices_oscNotify (d : ℕ) (dev : SoscDeviceSubprocess) {type : SoscIpcType}
    {path : String} (hpath : notifyPath type = some path)
    (hnotice : path = "/serialosc/add" ∨ path = "/serialosc/remove") :
    notices (oscNotify env self d dev type).log =
      notices self.log ++
        (served env self.calls self.notifications).map SoscNotificationEndpoint.address := by
  have hlog : (oscNotify env self d dev type).log =
      (self.log ++ [.oscNotify type d dev.entry]) ++
        (served env self.calls self.notifications).map (notifySend d path dev.entry) := by
    simp only [oscNotify, hpath]
    exact foldl_notifyEndpoint_served d path dev.entry self.notifications _
  have hsend : Effect.notice ∘ notifySend d path dev.entry =
      some ∘ SoscNotificationEndpoint.address := by
    funext n
    exact if_pos hnotice
  rw [hlog, notices, List.filterMap_append, List.filterMap_append, List.filterMap_map, hsend,
    List.filterMap_eq_map]
  simp [notices, Effect.notice]

/-- An event that raises no notification announces nothing. -/
theorem NewEffects.notices_eq_nil {effects : List Effect} (h : NewEffects env self e effects)
    (hraises : Raises self e = false) : notices effects = [] := by
  refine List.filterMap_eq_nil_iff.mpr fun x hx => ?_
  cases x with
  | loSendFrom dev dst path args =>
    cases dev with
    | none => rfl
    | some d =>
      refine if_neg fun hpath => ?_
      cases h with
      | replied req effects hquery hsends hlist =>
        obtain ⟨rfl, -⟩ := hlist _ hx d dst path args rfl
        rcases hpath with heq | heq <;> simp at heq
      | silent e hsilent => exact List.not_mem_nil hx
      | disabling hstate hcheck =>
        rcases List.mem_cons.mp hx with heq | hmem
        · cases heq
        · obtain ⟨id, -, hmem⟩ := List.mem_flatMap.mp hmem
          obtain ⟨d', heq, -⟩ := mem_killWrites hmem
          cases heq
      | added d dev effects hdev hannounce =>
        rw [Raises, hdev] at hraises
        exact Bool.noConfusion hraises
      | removed d dev effects hdev hready hannounce =>
        rw [Raises, hdev, Option.any_some, hready] at hraises
        exact Bool.noConfusion hraises
      | _ => cases List.mem_singleton.mp hx
  | _ => rfl

/-- The announcements of a step go to the entries that are on the list. -/
theorem notices_step (hstep : step env self e = some self') :
    notices self'.log = notices self.log ++
      if Raises self e = true then
        (served env self.calls self.notifications).map SoscNotificationEndpoint.address
      else [] := by
  cases hraises : Raises self e with
  | false =>
    obtain ⟨effects, hlog, hnew⟩ := step_log hstep
    have hnone := hnew.notices_eq_nil hraises
    rw [notices] at hnone
    rw [if_neg Bool.false_ne_true, hlog, notices, List.filterMap_append, hnone]
    rfl
  | true =>
    rw [if_pos rfl]
    cases stepped_of_step hstep with
    | deviceRead d msg hphase hread =>
      cases msg with
      | deviceReady =>
        obtain ⟨dev, hdev⟩ := Option.isSome_iff_exists.mp hraises
        rw [handleDeviceMsg_of_some hdev]
        exact notices_oscNotify d _ rfl (Or.inl rfl)
      | _ => cases hraises
    | exit who hphase halive =>
      cases who with
      | detector => cases hraises
      | device d =>
        obtain ⟨dev, hdev, hready⟩ := (Option.any_eq_true _ _).mp hraises
        have hready' : dev.stopped.ready = true := hready
        rw [processExit_of_some hdev, deviceExitCb, log_uvClose, log_uvClose, if_pos hready',
          notices_oscNotify d dev.stopped rfl (Or.inr rfl)]
        congr 1
        simp [notices, SoscSupervisor.stopped, SoscSupervisor.emit, List.filterMap_append,
          Effect.notice, SoscSupervisor.modifySubprocess, SoscSupervisor.modifyDevice]
    | _ => cases hraises

theorem endpoints_step (hstep : step env self e = some self') :
    endpoints self'.log = endpoints self.log ++ pushedBy e := by
  obtain ⟨effects, hlog, hnew⟩ := step_log hstep
  rw [hlog, endpoints, List.filterMap_append]
  congr 1
  by_cases hnotify : ∃ host port, e = .osc (.notify host port)
  · obtain ⟨host, port, rfl⟩ := hnotify
    cases hnew with
    | subscribed host port => rfl
    | silent e hsilent => exact absurd hsilent id
    | replied req effects hquery hsends hlist => exact absurd hquery id
  · have hnone : pushedBy e = [] := by
      unfold pushedBy
      split
      · next host port => exact absurd ⟨host, port, rfl⟩ hnotify
      · rfl
    rw [hnone]
    refine List.filterMap_eq_nil_iff.mpr fun x hx => ?_
    cases x with
    | subscribed n => exact absurd (subscribed_mem hnew hx) hnotify
    | _ => rfl

end

/-! ## The ledger -/

/-- What has become of the entries of `self->notifications`: the number of
entries pushed so far, those that are on the list, and which entry has been
sent an event in which iteration. -/
structure Ledger where
  iteration : ℕ := 0
  pushed : ℕ := 0
  held : List ℕ := []
  sent : List (ℕ × ℕ) := []

/-- The entries that an event is sent to, in the current iteration. -/
def Ledger.deliveries (env : Env) (ledger : Ledger) (s : SoscSupervisor) : List (ℕ × ℕ) :=
  (served env s.calls ledger.held).map fun entry => (entry, ledger.iteration)

/-- The ledger after an event. -/
def Ledger.watch (env : Env) (ledger : Ledger) (s : SoscSupervisor) : Event → Ledger
  | .idle => { ledger with iteration := ledger.iteration + 1 }
  | .osc (.notify _ _) =>
      { ledger with pushed := ledger.pushed + 1, held := ledger.held ++ [ledger.pushed] }
  | .check => if s.drainActive = true then { ledger with held := [] } else ledger
  | e =>
      if Raises s e = true then { ledger with sent := ledger.sent ++ ledger.deliveries env s }
      else ledger

/-- `Ledger.watch`, as a monitor of the supervisor. -/
def ledgerMonitor (env : Env) : (supervisor env).Monitor Ledger where
  start := {}
  watch := Ledger.watch env

/-- The entry `k` of the list, as it was pushed. -/
def entryOf (log : List Effect) (k : ℕ) : Option SoscNotificationEndpoint :=
  (endpoints log)[k]?

/-- The ledger tells the truth: the entries it holds are those on the list, and
what it has recorded as sent is what the log shows, in the same order. -/
structure Ledger.Follows (ledger : Ledger) (s : SoscSupervisor) : Prop where
  pushed : ledger.pushed = (endpoints s.log).length
  held : ledger.held.map (entryOf s.log) = s.notifications.map some
  sent : ledger.sent.map (fun p => (entryOf s.log p.1).map SoscNotificationEndpoint.address) =
    (notices s.log).map some

/-- What holds of the ledger between two events. -/
structure OneShot (s : SoscSupervisor × Ledger) : Prop where
  follows : s.2.Follows s.1
  draining : s.1.drainActive = true → s.1.phase = .poll
  held_lt : ∀ k ∈ s.2.held, k < s.2.pushed
  sent_lt : ∀ p ∈ s.2.sent, p.1 < s.2.pushed
  current : ∀ p ∈ s.2.sent, p.1 ∈ s.2.held → p.2 = s.2.iteration ∧ s.1.drainActive = true
  once : ∀ p ∈ s.2.sent, ∀ q ∈ s.2.sent, p.1 = q.1 → p.2 = q.2

section

variable {env : Env} {self self' : SoscSupervisor} {ledger : Ledger} {e : Event}

/-- Entries keep their endpoint when the log grows. -/
theorem map_entryOf_append {log : List Effect} {ns : List SoscNotificationEndpoint}
    {log' : List Effect} (hlog : endpoints log' = endpoints log ++ ns) {ks : List ℕ}
    (hlt : ∀ k ∈ ks, k < (endpoints log).length) :
    ks.map (entryOf log') = ks.map (entryOf log) := by
  refine List.map_congr_left fun k hk => ?_
  rw [entryOf, entryOf, hlog, List.getElem?_append_left (hlt k hk)]

theorem mem_deliveries {p : ℕ × ℕ} (hp : p ∈ ledger.deliveries env self) :
    p.1 ∈ ledger.held ∧ p.2 = ledger.iteration := by
  obtain ⟨k, hk, rfl⟩ := List.mem_map.mp hp
  exact ⟨mem_of_mem_served hk, rfl⟩

theorem watch_of_ne (hidle : e ≠ .idle) (hnotify : ∀ host port, e ≠ .osc (.notify host port))
    (hcheck : e ≠ .check) :
    ledger.watch env self e =
      if Raises self e = true then
        { ledger with sent := ledger.sent ++ ledger.deliveries env self }
      else ledger := by
  cases e with
  | idle => exact absurd rfl hidle
  | osc req =>
    cases req with
    | notify host port => exact absurd rfl (hnotify host port)
    | _ => rfl
  | check => exact absurd rfl hcheck
  | _ => rfl

/-- The entries that are sent something, by their endpoints. -/
theorem Ledger.Follows.deliveries (h : ledger.Follows self) :
    (ledger.deliveries env self).map
        (fun p => (entryOf self.log p.1).map SoscNotificationEndpoint.address) =
      ((served env self.calls self.notifications).map
        SoscNotificationEndpoint.address).map some := by
  rw [Ledger.deliveries, List.map_map, List.map_map]
  have hentries : (served env self.calls ledger.held).map (entryOf self.log) =
      (served env self.calls self.notifications).map some := by
    rw [map_served, h.held, ← map_served]
  have haddresses := congrArg (List.map (Option.map SoscNotificationEndpoint.address)) hentries
  rw [List.map_map, List.map_map] at haddresses
  exact haddresses

/-- The entries on the list are still those that the ledger holds. -/
theorem Ledger.Follows.held_step (h : ledger.Follows self)
    (hheld : ∀ k ∈ ledger.held, k < ledger.pushed)
    (hstep : Serialosc.step env self e = some self') :
    ledger.held.map (entryOf self'.log) = self.notifications.map some := by
  rw [h.pushed] at hheld
  exact (map_entryOf_append (endpoints_step hstep) hheld).trans h.held

theorem Ledger.Follows.sent_step (h : ledger.Follows self)
    (hsent : ∀ p ∈ ledger.sent, p.1 < ledger.pushed)
    (hstep : Serialosc.step env self e = some self') :
    ledger.sent.map (fun p => (entryOf self'.log p.1).map SoscNotificationEndpoint.address) =
      (notices self.log).map some := by
  rw [h.pushed] at hsent
  rw [← h.sent]
  refine List.map_congr_left fun p hp => ?_
  rw [entryOf, entryOf, endpoints_step hstep, List.getElem?_append_left (hsent p hp)]

theorem Ledger.Follows.pushed_step (h : ledger.Follows self)
    (hstep : Serialosc.step env self e = some self') (hnone : pushedBy e = []) :
    ledger.pushed = (endpoints self'.log).length := by
  rw [endpoints_step hstep, hnone, List.append_nil]
  exact h.pushed

theorem notices_of_quiet (hstep : Serialosc.step env self e = some self')
    (hraises : Raises self e = false) : notices self'.log = notices self.log := by
  rw [notices_step hstep, hraises, if_neg Bool.false_ne_true, List.append_nil]

/-- A new entry is pushed and held. -/
theorem Ledger.Follows.notify_step (h : ledger.Follows self)
    (hheld : ∀ k ∈ ledger.held, k < ledger.pushed)
    (hsent : ∀ p ∈ ledger.sent, p.1 < ledger.pushed) {host : CString} {port : ℤ}
    (hstep : Serialosc.step env self (.osc (.notify host port)) = some self') :
    (ledger.watch env self (.osc (.notify host port))).Follows self' := by
  have hpushed := endpoints_step hstep
  have hns : self'.notifications = self.notifications ++ [notificationEndpoint host port] :=
    congrArg Prod.fst (subscriptions_step hstep)
  refine ⟨?_, ?_, ?_⟩
  · rw [hpushed, List.length_append, ← h.pushed]
    rfl
  · have hnew : entryOf self'.log ledger.pushed = some (notificationEndpoint host port) := by
      rw [entryOf, hpushed, h.pushed, List.getElem?_append_right (Nat.le_refl _), Nat.sub_self]
      rfl
    simp only [Ledger.watch, List.map_append, h.held_step hheld hstep, List.map_cons,
      List.map_nil, hnew, hns]
  · rw [notices_of_quiet hstep rfl]
    exact h.sent_step hsent hstep

/-- What is raised is sent to the entries on the list. -/
theorem Ledger.Follows.raise_step (h : ledger.Follows self)
    (hheld : ∀ k ∈ ledger.held, k < ledger.pushed)
    (hsent : ∀ p ∈ ledger.sent, p.1 < ledger.pushed)
    (hstep : Serialosc.step env self e = some self')
    (hns : self'.notifications = self.notifications) (hnone : pushedBy e = [])
    (hraises : Raises self e = true) :
    Ledger.Follows { ledger with sent := ledger.sent ++ ledger.deliveries env self } self' := by
  have hsame : endpoints self'.log = endpoints self.log := by
    rw [endpoints_step hstep, hnone, List.append_nil]
  refine ⟨h.pushed_step hstep hnone, ?_, ?_⟩
  · rw [hns]
    exact h.held_step hheld hstep
  · rw [notices_step hstep, hraises, if_pos rfl, List.map_append, List.map_append,
      h.sent_step hsent hstep]
    congr 1
    rw [← h.deliveries]
    refine List.map_congr_left fun p _ => ?_
    rw [entryOf, entryOf, hsame]

theorem Ledger.Follows.step (h : ledger.Follows self)
    (hheld : ∀ k ∈ ledger.held, k < ledger.pushed)
    (hsent : ∀ p ∈ ledger.sent, p.1 < ledger.pushed)
    (hstep : Serialosc.step env self e = some self') :
    (ledger.watch env self e).Follows self' := by
  have hsubs := congrArg Prod.fst (subscriptions_step hstep)
  have hentries := h.held_step hheld hstep
  have haddresses := h.sent_step hsent hstep
  by_cases hidle : e = .idle
  · subst hidle
    refine ⟨h.pushed_step hstep rfl, hentries.trans ?_, haddresses.trans ?_⟩
    · rw [show self'.notifications = self.notifications from hsubs]
    · rw [notices_of_quiet hstep rfl]
  by_cases hcheck : e = .check
  · subst hcheck
    have hquiet : notices self'.log = notices self.log := notices_of_quiet hstep rfl
    have hns : self'.notifications =
        if self.drainActive = true then [] else self.notifications := hsubs
    rw [Ledger.watch]
    split
    · next hdrain =>
      rw [if_pos hdrain] at hns
      exact ⟨h.pushed_step hstep rfl, by rw [hns]; rfl, by rw [haddresses, hquiet]⟩
    · next hdrain =>
      rw [if_neg hdrain] at hns
      exact ⟨h.pushed_step hstep rfl, by rw [hns]; exact hentries, by rw [haddresses, hquiet]⟩
  by_cases hnotify : ∃ host port, e = .osc (.notify host port)
  · obtain ⟨host, port, rfl⟩ := hnotify
    exact h.notify_step hheld hsent hstep
  · have hnotify' (host : CString) (port : ℤ) : e ≠ .osc (.notify host port) :=
      fun heq => hnotify ⟨host, port, heq⟩
    have hnone : pushedBy e = [] := by
      unfold pushedBy
      split
      · next host port => exact absurd rfl (hnotify' host port)
      · rfl
    have hns : self'.notifications = self.notifications :=
      hsubs.trans (congrArg Prod.fst (nextSubscriptions_of_ne false hnotify' hcheck).1)
    rw [watch_of_ne hidle hnotify' hcheck]
    cases hraises : Raises self e with
    | false =>
      rw [if_neg Bool.false_ne_true]
      refine ⟨h.pushed_step hstep hnone, ?_, ?_⟩
      · rw [hns]
        exact hentries
      · rw [notices_of_quiet hstep hraises]
        exact haddresses
    | true =>
      rw [if_pos rfl]
      exact h.raise_step hheld hsent hstep hns hnone hraises

theorem OneShot.follows_step (h : OneShot (self, ledger))
    (hstep : Serialosc.step env self e = some self') : (ledger.watch env self e).Follows self' :=
  h.follows.step h.held_lt h.sent_lt hstep

/-- In the first phase nothing on the list has been sent anything. -/
theorem OneShot.idle_step (h : OneShot (self, ledger))
    (hstep : Serialosc.step env self .idle = some self') :
    OneShot (self', ledger.watch env self .idle) := by
  have hdrain : self'.drainActive = self.drainActive :=
    (congrArg Prod.snd (subscriptions_step hstep)).trans (Bool.or_false _)
  have hoff : self.drainActive = false := by
    by_contra hon
    have hpoll := h.draining (Bool.eq_true_of_not_eq_false hon)
    cases stepped_of_step hstep with
    | idle hstart => cases hstart.symm.trans hpoll
  refine ⟨h.follows_step hstep, fun hon => ?_, h.held_lt, h.sent_lt, fun p hp hmem => ?_, h.once⟩
  · cases (hdrain.trans hoff).symm.trans hon
  · cases hoff.symm.trans (h.current p hp hmem).2

/-- The check phase drops the list if something has been raised. -/
theorem OneShot.check_step (h : OneShot (self, ledger))
    (hstep : Serialosc.step env self .check = some self') :
    OneShot (self', ledger.watch env self .check) := by
  have hfollows := h.follows_step hstep
  have hoff : self'.drainActive = false := congrArg Prod.snd (subscriptions_step hstep)
  rw [Ledger.watch] at hfollows ⊢
  split at hfollows
  · next hdrain =>
    rw [if_pos hdrain]
    exact ⟨hfollows, fun hon => Bool.noConfusion (hoff.symm.trans hon),
      fun k hk => absurd hk List.not_mem_nil, h.sent_lt,
      fun p _ hmem => absurd hmem List.not_mem_nil, h.once⟩
  · next hdrain =>
    rw [if_neg hdrain]
    refine ⟨hfollows, fun hon => Bool.noConfusion (hoff.symm.trans hon), h.held_lt, h.sent_lt,
      fun p hp hmem => ?_, h.once⟩
    exact absurd (h.current p hp hmem).2 hdrain

/-- A new entry has been sent nothing. -/
theorem OneShot.notify_step (h : OneShot (self, ledger)) {host : CString} {port : ℤ}
    (hstep : Serialosc.step env self (.osc (.notify host port)) = some self') :
    OneShot (self', ledger.watch env self (.osc (.notify host port))) := by
  have hdrain : self'.drainActive = self.drainActive :=
    congrArg Prod.snd (subscriptions_step hstep)
  have hphase : self'.phase = self.phase := phase_step hstep
  refine ⟨h.follows_step hstep, fun hon => ?_, fun k hk => ?_, fun p hp => ?_,
    fun p hp hmem => ?_, h.once⟩
  · rw [hphase]
    exact h.draining (hdrain.symm.trans hon)
  · rcases List.mem_append.mp hk with hold | hnew
    · exact Nat.lt_succ_of_lt (h.held_lt k hold)
    · rw [List.mem_singleton.mp hnew]
      exact Nat.lt_succ_self _
  · exact Nat.lt_succ_of_lt (h.sent_lt p hp)
  · rcases List.mem_append.mp hmem with hold | hnew
    · rw [hdrain]
      exact h.current p hp hold
    · exact absurd (List.mem_singleton.mp hnew) (Nat.ne_of_lt (h.sent_lt p hp))

/-- What is raised is raised while the loop polls, and the loop polls on. -/
theorem OneShot.poll_of_drain (h : OneShot (self, ledger))
    (hstep : Serialosc.step env self e = some self') (hcheck : e ≠ .check)
    (hon : (self.drainActive || Raises self e) = true) : self'.phase = .poll := by
  have hself : self.phase = .poll := by
    rcases (Bool.or_eq_true _ _).mp hon with hon | hraises
    · exact h.draining hon
    · cases stepped_of_step hstep with
      | deviceRead d msg hpoll hread => exact hpoll
      | exit who hpoll halive => exact hpoll
      | _ => cases hraises
  rw [phase_step hstep, hself]
  cases stepped_of_step hstep with
  | check _ => exact absurd rfl hcheck
  | endIteration hclosing _ => cases hclosing.symm.trans hself
  | _ => rfl

/-- What is delivered goes to entries that are on the list, in this iteration,
and such an entry has been sent something in this iteration only. -/
theorem OneShot.once_deliveries (h : OneShot (self, ledger)) :
    ∀ p ∈ ledger.sent ++ ledger.deliveries env self,
      ∀ q ∈ ledger.sent ++ ledger.deliveries env self, p.1 = q.1 → p.2 = q.2 := by
  intro p hp q hq heq
  rcases List.mem_append.mp hp with hold | hnew
  · rcases List.mem_append.mp hq with hold' | hnew'
    · exact h.once p hold q hold' heq
    · obtain ⟨hmem, hiter⟩ := mem_deliveries hnew'
      rw [hiter]
      exact (h.current p hold (heq ▸ hmem)).1
  · obtain ⟨hmem, hiter⟩ := mem_deliveries hnew
    rcases List.mem_append.mp hq with hold' | hnew'
    · rw [hiter]
      exact (h.current q hold' (heq ▸ hmem)).1.symm
    · rw [hiter, (mem_deliveries hnew').2]

theorem OneShot.step (h : OneShot (self, ledger))
    (hstep : Serialosc.step env self e = some self') :
    OneShot (self', ledger.watch env self e) := by
  by_cases hidle : e = .idle
  · subst hidle
    exact h.idle_step hstep
  by_cases hcheck : e = .check
  · subst hcheck
    exact h.check_step hstep
  by_cases hnotify : ∃ host port, e = .osc (.notify host port)
  · obtain ⟨host, port, rfl⟩ := hnotify
    exact h.notify_step hstep
  · have hnotify' (host : CString) (port : ℤ) : e ≠ .osc (.notify host port) :=
      fun heq => hnotify ⟨host, port, heq⟩
    have hfollows := h.follows_step hstep
    have hdrain : self'.drainActive = (self.drainActive || Raises self e) :=
      congrArg Prod.snd ((subscriptions_step hstep).trans
        (nextSubscriptions_of_ne false hnotify' hcheck).1)
    have hpoll (hon : self'.drainActive = true) : self'.phase = .poll :=
      h.poll_of_drain hstep hcheck (hdrain.symm.trans hon)
    rw [watch_of_ne hidle hnotify' hcheck] at hfollows ⊢
    cases hraises : Raises self e with
    | false =>
      rw [hraises, if_neg Bool.false_ne_true] at hfollows
      rw [hraises, Bool.or_false] at hdrain
      rw [if_neg Bool.false_ne_true]
      refine ⟨hfollows, hpoll, h.held_lt, h.sent_lt, fun p hp hmem => ?_, h.once⟩
      rw [show (self', ledger).1.drainActive = self.drainActive from hdrain]
      exact h.current p hp hmem
    | true =>
      rw [hraises, if_pos rfl] at hfollows
      rw [hraises, Bool.or_true] at hdrain
      rw [if_pos rfl]
      refine ⟨hfollows, hpoll, h.held_lt, fun p hp => ?_, fun p hp hmem => ?_, h.once_deliveries⟩
      · rcases List.mem_append.mp hp with hold | hnew
        · exact h.sent_lt p hold
        · exact h.held_lt p.1 (mem_deliveries hnew).1
      · rcases List.mem_append.mp hp with hold | hnew
        · exact ⟨(h.current p hold hmem).1, hdrain⟩
        · exact ⟨(mem_deliveries hnew).2, hdrain⟩

end

theorem oneShot_invariant (env : Env) : (ledgerMonitor env).attach.Invariant OneShot where
  init s hs := by
    obtain ⟨self, ledger⟩ := s
    obtain ⟨hinit, hstart⟩ := hs
    obtain rfl : ledger = {} := hstart
    obtain ⟨exeDir, configDir, herr, rfl⟩ := supervisor_init_iff.mp hinit
    exact ⟨⟨rfl, rfl, rfl⟩, fun hon => Bool.noConfusion hon,
      fun k hk => absurd hk List.not_mem_nil, fun p hp => absurd hp List.not_mem_nil,
      fun p hp => absurd hp List.not_mem_nil, fun p hp => absurd hp List.not_mem_nil⟩
  step s e s' hs hstep := by
    obtain ⟨self, ledger⟩ := s
    obtain ⟨self', ledger'⟩ := s'
    obtain ⟨hself, hledger⟩ := EventSystem.Monitor.attach_step.mp hstep
    obtain rfl : ledger' = ledger.watch env self e := hledger
    exact hs.step hself

/-- At any point of any run, no entry has been sent events in two iterations, and
an entry that has been sent one is on the list only in the rest of the poll phase
of that iteration. -/
theorem subscriptions_oneShot (env : Env) {s : SoscSupervisor} {ledger : Ledger}
    (hs : (ledgerMonitor env).attach.Reachable (s, ledger)) :
    ledger.Follows s ∧
      (∀ k i j, (k, i) ∈ ledger.sent → (k, j) ∈ ledger.sent → i = j) ∧
      ∀ k i, (k, i) ∈ ledger.sent → k ∈ ledger.held →
        s.phase = .poll ∧ i = ledger.iteration := by
  have h := (oneShot_invariant env).reachable hs
  refine ⟨h.follows, fun k i j hi hj => h.once _ hi _ hj rfl, fun k i hi hk => ?_⟩
  obtain ⟨hiter, hdrain⟩ := h.current (k, i) hi hk
  exact ⟨h.draining hdrain, hiter⟩

/-- A client subscribes twice, a device becomes ready, and both entries are sent
the event in the first iteration. -/
theorem subscriptions_oneShot_twice :
    ∃ s ledger, (ledgerMonitor Env.reliable).attach.Reachable (s, ledger) ∧
      ledger.sent = [(0, 1), (1, 1)] ∧ ledger.iteration = 1 ∧ s.phase = .closing ∧
      ∀ k i, (k, i) ∈ ledger.sent → k ∉ ledger.held := by
  obtain ⟨s, ledger, hs, hsent, hiter, hphase⟩ :
      ∃ s ledger, (ledgerMonitor Env.reliable).attach.Reachable (s, ledger) ∧
        ledger.sent = [(0, 1), (1, 1)] ∧ ledger.iteration = 1 ∧ s.phase = .closing :=
    ⟨_, _, ⟨(reliableStart, {}), [.idle, .osc (.notify sampleClient 8000),
      .osc (.notify sampleClient 8000), .detectorRead (.deviceConnection sampleDevnode),
      .deviceRead 0 .deviceReady, .check], ⟨init_reliableStart, rfl⟩, rfl⟩, rfl, rfl, rfl⟩
  refine ⟨s, ledger, hs, hsent, hiter, hphase, fun k i hi hk => ?_⟩
  have hpoll := ((subscriptions_oneShot Env.reliable hs).2.2 k i hi hk).1
  cases hphase.symm.trans hpoll

end Serialosc
