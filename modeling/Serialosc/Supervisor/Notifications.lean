import Serialosc.Supervisor.Disable

/-!
# Subscriptions and the events they receive

An endpoint that subscribes stays subscribed until the check watcher clears
the list, which the first event of an iteration asks for.  An endpoint that
subscribes after the last event of such an iteration, but before its check
phase, is cleared with the others and has been told nothing.

Whether a subscription comes that late depends on the order of events, which
`lateSubscription` watches; `subscriptionsServed_iff` says that no other order
loses one.
-/

namespace Serialosc

open ByteMemory Runs

/-! ## The list of subscriptions -/

/-- The event makes `osc_notify` announce a device. -/
def Raises (s : SoscSupervisor) : Event → Bool
  | .deviceRead d .deviceReady => (s.devices[d]?).isSome
  | .exit (.device d) => (s.devices[d]?).any fun dev => dev.ready
  | _ => false

/-- The list of subscriptions after an event, and whether it is to be
cleared. -/
def nextSubscriptions (s : SoscSupervisor) : Event → List SoscNotificationEndpoint × Bool
  | .osc (.notify host port) =>
      (s.notifications ++ [notificationEndpoint host port], s.drainActive)
  | .check => (if s.drainActive then [] else s.notifications, false)
  | e => (s.notifications, s.drainActive || Raises s e)

def SoscSupervisor.subscriptions (s : SoscSupervisor) :
    List SoscNotificationEndpoint × Bool :=
  (s.notifications, s.drainActive)

section

variable {env : Env} {self self' : SoscSupervisor}

@[simp] theorem subscriptions_modifySubprocess (who : ProcessId)
    (f : SoscSubprocess → SoscSubprocess) :
    (self.modifySubprocess who f).subscriptions = self.subscriptions := by
  cases who <;> rfl

@[simp] theorem subscriptions_uvClose (h : HandleId) :
    (self.uvClose h).subscriptions = self.subscriptions :=
  subscriptions_modifySubprocess h.who _

theorem subscriptions_oscNotify (d : ℕ) (dev : SoscDeviceSubprocess) {type : SoscIpcType}
    {path : String} (hpath : notifyPath type = some path) :
    (oscNotify env self d dev type).subscriptions = (self.notifications, true) := by
  obtain ⟨sends, heq, -, -⟩ := oscNotify_spec env self d dev hpath
  rw [heq]
  rfl

theorem subscriptions_osc (req : OscRequest) :
    (oscPollCb env self req).subscriptions = nextSubscriptions self (.osc req) := by
  have hquiet : self.subscriptions = (self.notifications, self.drainActive || false) := by
    rw [Bool.or_false]
    rfl
  cases req with
  | list host port =>
    rw [oscPollCb, oscListDevices_spec]
    split <;> exact hquiet
  | notify host port => rfl
  | enable =>
    have hspec := supervisorChangeState_spec env self .enabled
    simp only [oscPollCb, supervisorEnable]
    generalize supervisorChangeState env self .enabled = r at hspec
    cases hspec <;> exact hquiet
  | disable =>
    have hspec := supervisorChangeState_spec env self .disabled
    simp only [oscPollCb, supervisorDisable]
    generalize supervisorChangeState env self .disabled = r at hspec
    cases hspec <;> exact hquiet
  | status host port =>
    cases halloc : env.loAddressNew self.calls <;>
      simp only [oscPollCb, oscReportStatus, loAddressNew, halloc] <;> exact hquiet
  | version host port =>
    cases halloc : env.loAddressNew self.calls <;>
      simp only [oscPollCb, oscReportVersion, loAddressNew, halloc] <;> exact hquiet

theorem subscriptions_exit (who : ProcessId) :
    (processExit env self who).subscriptions =
      (self.notifications, self.drainActive || Raises self (.exit who)) := by
  cases who with
  | detector => exact congrArg _ (Bool.or_false _).symm
  | device d =>
    have hstopped : (self.stopped (.device d)).subscriptions =
        (self.notifications, self.drainActive) := rfl
    cases hdev : self.devices[d]? with
    | none =>
      rw [processExit_of_none hdev]
      simpa [Raises, hdev] using hstopped
    | some dev =>
      rw [processExit_of_some hdev]
      cases hready : dev.ready with
      | false =>
        have hquiet : dev.stopped.ready = false := hready
        simpa [deviceExitCb, Raises, hdev, hready, hquiet] using hstopped
      | true =>
        have hquiet : dev.stopped.ready = true := hready
        have hnotify : (oscNotify env (self.stopped (.device d)) d dev.stopped
            .deviceDisconnection).subscriptions = (self.notifications, true) :=
          subscriptions_oscNotify d _ rfl
        simpa [deviceExitCb, Raises, hdev, hready, hquiet] using hnotify

theorem subscriptions_deviceRead (d : ℕ) (msg : IpcMsg) :
    (handleDeviceMsg env self d msg).subscriptions =
      (self.notifications, self.drainActive || Raises self (.deviceRead d msg)) := by
  have hquiet : self.subscriptions = (self.notifications, self.drainActive || false) := by
    rw [Bool.or_false]
    rfl
  cases msg with
  | deviceReady =>
    have hmarked : (self.marked d).subscriptions =
        (self.notifications, self.drainActive) := rfl
    cases hdev : self.devices[d]? with
    | none =>
      rw [handleDeviceMsg_of_none hdev]
      simpa [Raises, hdev] using hmarked
    | some dev =>
      have hnotify : (oscNotify env (self.marked d) d { dev with ready := true }
          .deviceConnection).subscriptions = (self.notifications, true) :=
        subscriptions_oscNotify d _ rfl
      rw [handleDeviceMsg_of_some hdev]
      simpa [Raises, hdev] using hnotify
  | _ => exact hquiet

/-- What a step does to the list of subscriptions. -/
theorem subscriptions_step {e : Event} (hstep : step env self e = some self') :
    self'.subscriptions = nextSubscriptions self e := by
  have hquiet : self.subscriptions = (self.notifications, self.drainActive || false) := by
    rw [Bool.or_false]
    rfl
  cases stepped_of_step hstep with
  | idle hphase =>
    have hsame : (if self.checkActive then stateChangeCheckCb self else self).subscriptions =
        self.subscriptions := by
      split
      · rcases stateChangeCheckCb_cases self with heq | ⟨heq, -⟩
        · rw [heq]
        · rw [heq]
          rfl
      · rfl
    exact hsame.trans hquiet
  | osc req hphase => exact subscriptions_osc req
  | detectorRead msg hphase hread =>
    cases msg with
    | deviceConnection devnode =>
      have hspec := handleConnection_spec env self devnode
      simp only [handleDetectorMsg]
      generalize handleConnection env self devnode = r at hspec
      cases hspec <;> exact hquiet
    | _ => exact hquiet
  | deviceRead d msg hphase hread =>
    rw [subscriptions_deviceRead]
    cases msg <;> rfl
  | exit who hphase halive => exact subscriptions_exit who
  | check hphase =>
    cases hdrain : self.drainActive with
    | false =>
      have hkept : (beginClosing self).subscriptions = (self.notifications, false) :=
        congrArg (Prod.mk _) hdrain
      simpa [nextSubscriptions, hdrain] using hkept
    | true =>
      have hdrained : (beginClosing (drainNotificationsCb self)).subscriptions = ([], false) :=
        rfl
      simpa [nextSubscriptions, hdrain] using hdrained
  | closed id hphase hfinishing =>
    obtain ⟨who, member⟩ := id
    have hsame : (closeCompleted self ⟨who, member⟩).subscriptions = self.subscriptions := by
      cases who <;> cases member <;> rfl
    exact hsame.trans hquiet
  | endIteration hphase hdone => exact hquiet

end

/-! ## Served and lost subscriptions -/

/-- The endpoint is told of a device that was added or removed. -/
def Announces (n : SoscNotificationEndpoint) (e : Effect) : Prop :=
  ∃ d path entry, (path = "/serialosc/add" ∨ path = "/serialosc/remove") ∧
    e = notifySend d path entry n

/-- A subscription that is on the list has been told nothing so far. -/
def Unserved (log : List Effect) : Prop :=
  ∃ before n mid, log = before ++ .subscribed n :: mid ∧ .drained ∉ mid ∧
    ∀ e ∈ mid, ¬ Announces n e

/-- Every subscription that was cleared had been told of an event raised after
it. -/
def SubscriptionsServed (log : List Effect) : Prop :=
  ∀ before n mid after, log = before ++ .subscribed n :: (mid ++ .drained :: after) →
    .drained ∉ mid → ∃ e ∈ mid, Announces n e

/-- Since the last event of this iteration that raised a notification, an
endpoint has subscribed. -/
def lateSubscription (late : Bool) (s : SoscSupervisor) : Event → Bool
  | .osc (.notify _ _) => s.drainActive
  | .check => false
  | e => late && !Raises s e

/-- `lateSubscription`, as a monitor of the supervisor. -/
def subscriptionMonitor (env : Env) : (supervisor env).Monitor Bool where
  start := false
  watch := lateSubscription

/-- The list of subscriptions is not cleared while `lateSubscription` holds. -/
def ClearsInTime (s : SoscSupervisor × Bool) (e : Event) : Prop :=
  e = .check → s.1.drainActive = true → s.2 = false

/-- What the log and the monitor tell about the list of subscriptions. -/
structure Watched (s : SoscSupervisor × Bool) : Prop where
  late : s.1.drainActive = true → (s.2 = true ↔ Unserved s.1.log)
  onTime : s.1.drainActive = false → s.2 = false
  listed : ∀ before n mid, s.1.log = before ++ .subscribed n :: mid → .drained ∉ mid →
    n ∈ s.1.notifications

section

variable {env : Env} {self self' : SoscSupervisor} {effects : List Effect} {e : Event}

theorem not_announces_of_not_send {n : SoscNotificationEndpoint} {x : Effect}
    (hsend : ¬ x.IsSend) : ¬ Announces n x := by
  rintro ⟨d, path, entry, -, rfl⟩
  exact hsend trivial

/-- An event that raises no notification tells no subscriber anything. -/
theorem NewEffects.quiet (h : NewEffects env self e effects) (hraises : Raises self e = false)
    {n : SoscNotificationEndpoint} {x : Effect} (hx : x ∈ effects) : ¬ Announces n x := by
  cases h with
  | silent e hsilent => exact absurd hx List.not_mem_nil
  | replied req effects hquery hsends hlist =>
    rintro ⟨d, path, entry, hpath, rfl⟩
    obtain ⟨rfl, -⟩ := hlist _ hx d n.address path entry rfl
    rcases hpath with heq | heq <;> simp at heq
  | subscribed host port =>
    obtain rfl := List.mem_singleton.mp hx
    exact not_announces_of_not_send id
  | detectorSpawn hstate hcheck =>
    obtain rfl := List.mem_singleton.mp hx
    exact not_announces_of_not_send id
  | disabling hstate hcheck =>
    rcases List.mem_cons.mp hx with rfl | hmem
    · exact not_announces_of_not_send id
    · obtain ⟨id, -, hmem⟩ := List.mem_flatMap.mp hmem
      obtain ⟨d, rfl, -, -⟩ := mem_killWrites hmem
      exact not_announces_of_not_send fun h => h
  | deviceSpawn devnode hcalloc =>
    obtain rfl := List.mem_singleton.mp hx
    exact not_announces_of_not_send id
  | added d dev effects hdev hannounce =>
    rw [Raises, hdev] at hraises
    exact Bool.noConfusion hraises
  | exited who hquiet =>
    obtain rfl := List.mem_singleton.mp hx
    exact not_announces_of_not_send id
  | removed d dev effects hdev hready hannounce =>
    rw [Raises, hdev, Option.any_some, hready] at hraises
    exact Bool.noConfusion hraises
  | drained hdrain =>
    obtain rfl := List.mem_singleton.mp hx
    exact not_announces_of_not_send id

theorem Announcement.announces {ns : List SoscNotificationEndpoint} {d : ℕ}
    {type : SoscIpcType} {path : String} {entry : List OscArg}
    (h : Announcement env ns d type path entry effects)
    (halloc : ∀ k, env.loAddressNew k = true)
    (hpath : path = "/serialosc/add" ∨ path = "/serialosc/remove")
    {n : SoscNotificationEndpoint} (hn : n ∈ ns) : ∃ x ∈ effects, Announces n x := by
  obtain ⟨sends, rfl, -, hall⟩ := h
  exact ⟨_, List.mem_cons_of_mem _ (hall halloc n hn), d, path, entry, hpath, rfl⟩

/-- An event that raises a notification tells every subscriber. -/
theorem NewEffects.announces (h : NewEffects env self e effects)
    (halloc : ∀ k, env.loAddressNew k = true) (hraises : Raises self e = true)
    {n : SoscNotificationEndpoint} (hn : n ∈ self.notifications) :
    ∃ x ∈ effects, Announces n x := by
  cases h with
  | silent e hsilent =>
    cases e with
    | deviceRead d msg =>
      cases msg with
      | deviceReady =>
        have hnone : self.devices[d]? = none := hsilent
        rw [Raises, hnone] at hraises
        exact Bool.noConfusion hraises
      | _ => exact Bool.noConfusion hraises
    | exit who => exact absurd hsilent id
    | _ => exact Bool.noConfusion hraises
  | added d dev effects hdev hannounce =>
    exact hannounce.announces halloc (Or.inl rfl) hn
  | exited who hquiet =>
    cases who with
    | detector => exact Bool.noConfusion hraises
    | device d =>
      obtain ⟨dev, hdev, hready⟩ := (Option.any_eq_true _ _).mp hraises
      exact Bool.noConfusion ((hquiet d dev rfl hdev).symm.trans hready)
  | removed d dev effects hdev hready hannounce =>
    obtain ⟨x, hx, htold⟩ := hannounce.announces halloc (Or.inr rfl) hn
    exact ⟨x, List.mem_cons_of_mem _ hx, htold⟩
  | _ => exact Bool.noConfusion hraises

theorem drained_mem (h : NewEffects env self e effects) (hx : .drained ∈ effects) :
    e = .check ∧ self.drainActive = true := by
  cases h.origin hx with
  | drained hdrain => exact ⟨rfl, hdrain⟩

theorem subscribed_mem {n : SoscNotificationEndpoint} (h : NewEffects env self e effects)
    (hx : .subscribed n ∈ effects) : ∃ host port, e = .osc (.notify host port) := by
  cases h.origin hx with
  | subscribed host port => exact ⟨host, port, rfl⟩

/-- What the list and the monitor do on an event that is neither a
subscription nor the check phase. -/
theorem nextSubscriptions_of_ne (late : Bool)
    (hnotify : ∀ host port, e ≠ .osc (.notify host port)) (hcheck : e ≠ .check) :
    nextSubscriptions self e = (self.notifications, self.drainActive || Raises self e) ∧
      lateSubscription late self e = (late && !Raises self e) := by
  cases e with
  | osc req =>
    cases req with
    | notify host port => exact absurd rfl (hnotify host port)
    | _ => exact ⟨rfl, rfl⟩
  | check => exact absurd rfl hcheck
  | _ => exact ⟨rfl, rfl⟩

theorem unserved_append_iff {log : List Effect} (hsub : ∀ n, .subscribed n ∉ effects)
    (hdrained : .drained ∉ effects) (hquiet : ∀ n, ∀ x ∈ effects, ¬ Announces n x) :
    Unserved (log ++ effects) ↔ Unserved log := by
  constructor
  · rintro ⟨before, n, mid, heq, hmid, hnone⟩
    rcases append_eq_split heq with ⟨mid₀, hlog, rfl⟩ | ⟨mid₀, -, heffects⟩
    · exact ⟨before, n, mid₀, hlog, fun hx => hmid (List.mem_append_left _ hx),
        fun x hx => hnone x (List.mem_append_left _ hx)⟩
    · exact absurd (heffects ▸ List.mem_append_right mid₀ List.mem_cons_self) (hsub n)
  · rintro ⟨before, n, mid, rfl, hmid, hnone⟩
    refine ⟨before, n, mid ++ effects, by simp, fun hx => ?_, fun x hx => ?_⟩
    · rcases List.mem_append.mp hx with hx | hx
      · exact hmid hx
      · exact hdrained hx
    · rcases List.mem_append.mp hx with hx | hx
      · exact hnone x hx
      · exact hquiet n x hx

theorem listed_append {log : List Effect} {ns : List SoscNotificationEndpoint}
    (h : ∀ before n mid, log = before ++ .subscribed n :: mid → .drained ∉ mid → n ∈ ns)
    (hsub : ∀ n, .subscribed n ∉ effects) :
    ∀ before n mid, log ++ effects = before ++ .subscribed n :: mid → .drained ∉ mid →
      n ∈ ns := by
  intro before n mid heq hmid
  rcases append_eq_split heq with ⟨mid₀, hlog, rfl⟩ | ⟨mid₀, -, heffects⟩
  · exact h before n mid₀ hlog fun hx => hmid (List.mem_append_left _ hx)
  · exact absurd (heffects ▸ List.mem_append_right mid₀ List.mem_cons_self) (hsub n)

variable {late : Bool}

theorem Watched.subscribe {host : CString} {port : ℤ} (h : Watched (self, late))
    (hstep : step env self (.osc (.notify host port)) = some self') :
    Watched (self', lateSubscription late self (.osc (.notify host port))) := by
  have hself : self' = oscAddNotificationEndpoint self host port := by
    cases stepped_of_step hstep with
    | osc req hphase => rfl
  subst hself
  have hlog : (oscAddNotificationEndpoint self host port).log =
      self.log ++ [.subscribed (notificationEndpoint host port)] := rfl
  refine ⟨fun hdrain => iff_of_true hdrain ?_, id, fun before n mid heq hmid => ?_⟩
  · exact ⟨self.log, _, [], hlog, List.not_mem_nil, fun x hx => absurd hx List.not_mem_nil⟩
  · rw [hlog] at heq
    rcases append_eq_split heq with ⟨mid₀, hlog₀, rfl⟩ | ⟨mid₀, -, heffects⟩
    · have hmem : n ∈ self.notifications :=
        h.listed before n mid₀ hlog₀ fun hx => hmid (List.mem_append_left _ hx)
      exact List.mem_append_left _ hmem
    · have hmem : Effect.subscribed n ∈ [.subscribed (notificationEndpoint host port)] :=
        heffects ▸ List.mem_append_right mid₀ List.mem_cons_self
      obtain rfl : n = notificationEndpoint host port := by simpa using hmem
      exact List.mem_append_right _ (List.mem_singleton.mpr rfl)

theorem Watched.check (h : Watched (self, late))
    (hstep : step env self .check = some self') :
    Watched (self', lateSubscription late self .check) := by
  obtain ⟨effects, hlog, hnew⟩ := step_log hstep
  have hsubs := subscriptions_step hstep
  have hdrain : self'.drainActive = false := congrArg Prod.snd hsubs
  refine ⟨fun hactive => Bool.noConfusion (hdrain.symm.trans hactive), fun _ => rfl,
    fun before n mid heq hmid => ?_⟩
  have hlog' : self.log ++ effects = before ++ .subscribed n :: mid := hlog.symm.trans heq
  cases hnew with
  | silent e hsilent =>
    have hns : self'.notifications = self.notifications := by
      have hkept : self.drainActive = false := hsilent
      have hfst := congrArg Prod.fst hsubs
      rwa [nextSubscriptions, hkept] at hfst
    rw [show (self', _).1.notifications = self.notifications from hns]
    exact h.listed before n mid (by rw [← hlog', List.append_nil]) hmid
  | drained hactive =>
    -- the list has just been cleared, so nothing subscribed since
    rcases append_eq_split hlog' with ⟨mid₀, -, rfl⟩ | ⟨mid₀, -, heffects⟩
    · exact absurd (List.mem_append_right mid₀ (List.mem_singleton.mpr rfl)) hmid
    · have hmem : Effect.subscribed n ∈ [.drained] :=
        heffects ▸ List.mem_append_right mid₀ List.mem_cons_self
      cases List.mem_singleton.mp hmem

theorem Watched.other (halloc : ∀ k, env.loAddressNew k = true) (h : Watched (self, late))
    (hnotify : ∀ host port, e ≠ .osc (.notify host port)) (hcheck : e ≠ .check)
    (hstep : step env self e = some self') :
    Watched (self', lateSubscription late self e) := by
  obtain ⟨effects, hlog, hnew⟩ := step_log hstep
  obtain ⟨hnext, hlate⟩ := nextSubscriptions_of_ne late hnotify hcheck
  have hsubs := (subscriptions_step hstep).trans hnext
  have hns : self'.notifications = self.notifications := congrArg Prod.fst hsubs
  have hdrain : self'.drainActive = (self.drainActive || Raises self e) :=
    congrArg Prod.snd hsubs
  have hsub (n : SoscNotificationEndpoint) : .subscribed n ∉ effects := by
    intro hx
    obtain ⟨host, port, heq⟩ := subscribed_mem hnew hx
    exact hnotify host port heq
  have hdrained : .drained ∉ effects := fun hx => hcheck (drained_mem hnew hx).1
  have hlisted := listed_append h.listed hsub
  rw [← hlog, ← hns] at hlisted
  rw [hlate]
  cases hraises : Raises self e with
  | false =>
    rw [hraises, Bool.or_false] at hdrain
    rw [Bool.not_false, Bool.and_true]
    refine ⟨fun hactive => ?_, fun hactive => h.onTime (hdrain.symm.trans hactive), hlisted⟩
    rw [show (self', late).1.log = self.log ++ effects from hlog,
      unserved_append_iff hsub hdrained fun n x hx => hnew.quiet hraises hx]
    exact h.late (hdrain.symm.trans hactive)
  | true =>
    rw [Bool.not_true, Bool.and_false]
    refine ⟨fun _ => iff_of_false Bool.noConfusion ?_, fun _ => rfl, hlisted⟩
    -- whoever is on the list has just been told
    rintro ⟨before, n, mid, heq, hmid, hnone⟩
    have hlog' : self.log ++ effects = before ++ .subscribed n :: mid := hlog.symm.trans heq
    rcases append_eq_split hlog' with ⟨mid₀, hlog₀, rfl⟩ | ⟨mid₀, -, heffects⟩
    · have hmem : n ∈ self.notifications :=
        h.listed before n mid₀ hlog₀ fun hx => hmid (List.mem_append_left _ hx)
      obtain ⟨x, hx, htold⟩ := hnew.announces halloc hraises hmem
      exact hnone x (List.mem_append_right _ hx) htold
    · exact hsub n (heffects ▸ List.mem_append_right mid₀ List.mem_cons_self)

theorem watched_invariant (halloc : ∀ k, env.loAddressNew k = true) :
    (subscriptionMonitor env).attach.Invariant Watched where
  init s hs := by
    obtain ⟨hinit, hstart⟩ := hs
    obtain ⟨s, late⟩ := s
    obtain rfl : late = false := hstart
    obtain ⟨exeDir, configDir, herr, rfl⟩ := supervisor_init_iff.mp hinit
    refine ⟨fun hactive => Bool.noConfusion hactive, fun _ => rfl, fun before n mid heq _ => ?_⟩
    have hmem : Effect.subscribed n ∈ before ++ .subscribed n :: mid :=
      List.mem_append_right before List.mem_cons_self
    rw [← heq] at hmem
    cases List.mem_singleton.mp hmem
  step s e s' hs hstep := by
    obtain ⟨self, late⟩ := s
    obtain ⟨self', late'⟩ := s'
    have hstep' : Serialosc.step env self e = some self' :=
      (EventSystem.Monitor.attach_step.mp hstep).1
    obtain rfl : late' = lateSubscription late self e :=
      (EventSystem.Monitor.attach_step.mp hstep).2
    by_cases hcheck : e = .check
    · subst hcheck
      exact hs.check hstep'
    · by_cases hnotify : ∃ host port, e = .osc (.notify host port)
      · obtain ⟨host, port, rfl⟩ := hnotify
        exact hs.subscribe hstep'
      · exact hs.other halloc (fun host port heq => hnotify ⟨host, port, heq⟩) hcheck hstep'

theorem subscriptionsServed_step (hwatched : Watched (self, late))
    (h : SubscriptionsServed self.log) (hgood : ClearsInTime (self, late) e)
    (hstep : step env self e = some self') : SubscriptionsServed self'.log := by
  obtain ⟨effects, hlog, hnew⟩ := step_log hstep
  intro before n mid after heq hmid
  have hlog' : self.log ++ effects =
      before ++ .subscribed n :: (mid ++ .drained :: after) := hlog.symm.trans heq
  rw [← List.cons_append, ← List.append_assoc] at hlog'
  rcases append_eq_split hlog' with ⟨mid₀, hlog₀, -⟩ | ⟨mid₀, hbefore, heffects⟩
  · rw [List.append_assoc, List.cons_append] at hlog₀
    exact h before n mid mid₀ hlog₀ hmid
  · -- the list is cleared in this step
    have hx : .drained ∈ effects := heffects ▸ List.mem_append_right mid₀ List.mem_cons_self
    obtain ⟨rfl, hdrain⟩ := drained_mem hnew hx
    have hlate := hgood rfl hdrain
    have hserved : ¬ Unserved self.log := fun hun =>
      Bool.noConfusion (hlate.symm.trans ((hwatched.late hdrain).mpr hun))
    cases hnew with
    | silent e hsilent => exact absurd hx List.not_mem_nil
    | drained _ =>
      obtain rfl : mid₀ = [] := by
        cases mid₀ with
        | nil => rfl
        | cons y ys => simp at heffects
      rw [List.append_nil] at hbefore
      by_contra hnone
      exact hserved ⟨before, n, mid, hbefore.symm, hmid, fun x hx htold =>
        hnone ⟨x, hx, htold⟩⟩

theorem subscriptionsServed_broken (hwatched : Watched (self, late))
    (hbad : ¬ ClearsInTime (self, late) e) (hstep : step env self e = some self') :
    ¬ SubscriptionsServed self'.log := by
  simp only [ClearsInTime, not_forall, Bool.not_eq_false] at hbad
  obtain ⟨rfl, hdrain, hlate⟩ := hbad
  obtain ⟨before, n, mid, hlog, hmid, hnone⟩ := (hwatched.late hdrain).mp hlate
  obtain ⟨effects, hlog', hnew⟩ := step_log hstep
  intro h
  cases hnew with
  | silent e hsilent => exact Bool.noConfusion (Eq.trans (Eq.symm hsilent) hdrain)
  | drained _ =>
    obtain ⟨x, hx, htold⟩ := h before n mid [] (by rw [hlog', show self.log = _ from hlog]; simp)
      hmid
    exact hnone x hx htold

/-- Along any run in which addresses can be allocated, every subscription that
is cleared has been served if and only if the list is never cleared with a
late subscription on it. -/
theorem subscriptionsServed_iff (env : Env) (halloc : ∀ k, env.loAddressNew k = true)
    {s₀ s : SoscSupervisor} {es : List Event} (hinit : (supervisor env).init s₀)
    (hrun : (supervisor env).exec s₀ es = some s) :
    (supervisor env).Along (fun s => SubscriptionsServed s.log) s₀ es ↔
      (subscriptionMonitor env).attach.StepsMeet ClearsInTime (s₀, false) es := by
  have hI := watched_invariant halloc
  obtain ⟨late, hrun'⟩ := (subscriptionMonitor env).exec_attach hrun false
  rw [← (subscriptionMonitor env).along_attach false]
  refine EventSystem.along_iff_stepsMeet hI (fun s e s' hs hP hgood hstep => ?_)
    (fun s e s' hs _ hbad hstep => ?_) (hI.init (s₀, false) ⟨hinit, rfl⟩) ?_ hrun'
  · exact subscriptionsServed_step hs hP hgood (EventSystem.Monitor.attach_step.mp hstep).1
  · exact subscriptionsServed_broken hs hbad (EventSystem.Monitor.attach_step.mp hstep).1
  · obtain ⟨exeDir, configDir, herr, rfl⟩ := supervisor_init_iff.mp hinit
    intro before n mid after heq _
    have hmem : Effect.subscribed n ∈ before ++ .subscribed n :: (mid ++ .drained :: after) :=
      List.mem_append_right before List.mem_cons_self
    rw [← show _ = _ from heq] at hmem
    cases List.mem_singleton.mp hmem

end

/-- A client, as a subscription request names it. -/
def sampleClient : CString := .ofString "127.0.0.1"

/-- A device becomes ready, then a client subscribes, then the check phase
clears the list: the client has been told nothing. -/
theorem subscriptionsServed_fails :
    ∃ s, (supervisor Env.reliable).exec reliableStart
        [.idle, .detectorRead (.deviceConnection sampleDevnode), .deviceRead 0 .deviceReady,
          .osc (.notify sampleClient 12000), .check] = some s ∧
      ¬ SubscriptionsServed s.log := by
  obtain ⟨s, hrun, before, hlog⟩ : ∃ s, (supervisor Env.reliable).exec reliableStart
      [.idle, .detectorRead (.deviceConnection sampleDevnode), .deviceRead 0 .deviceReady,
        .osc (.notify sampleClient 12000), .check] = some s ∧
      ∃ before, s.log =
        before ++ .subscribed (notificationEndpoint sampleClient 12000) :: ([] ++ [.drained]) :=
    ⟨_, rfl, [_, _, _], rfl⟩
  refine ⟨s, hrun, fun h => ?_⟩
  obtain ⟨x, hx, -⟩ := h before _ [] [] hlog List.not_mem_nil
  exact List.not_mem_nil hx

theorem subscriptionsServed_iff_served :
    (supervisor Env.reliable).Along (fun s => SubscriptionsServed s.log) reliableStart
      [.idle, .detectorRead (.deviceConnection sampleDevnode),
        .osc (.notify sampleClient 12000), .deviceRead 0 .deviceReady, .check] := by
  refine (subscriptionsServed_iff Env.reliable (fun _ => rfl) init_reliableStart rfl).mpr ?_
  refine .cons rfl Event.noConfusion (.cons rfl Event.noConfusion ?_)
  refine .cons rfl Event.noConfusion (.cons rfl Event.noConfusion ?_)
  exact .cons rfl (fun _ _ => rfl) trivial

end Serialosc
