import Serialosc.Device.ProcessRuns

/-!
# Order and cleanup in a device process

One invariant of a whole run ties what has been told to the supervisor, and what is
allocated, to the statements that are left.  `written_inOrder` says what the supervisor is
told, and `held_inOrder` what is allocated, wherever a `goto` or a crash cuts the run short.
-/

namespace Serialosc

open Runs

/-! ## What may be held -/

/-- The statement that allocates a resource. -/
def Resource.acquiring : Resource → ServerStmt
  | .config => .soscConfigRead
  | .server => .loServerNew
  | .address => .loAddressNew
  | .svcName => .svcName
  | .service => .soscZeroconfRegister
  | .cfg => .soscConfigWrite

/-- The statement that frees it, if there is one. -/
def Resource.releasing : Resource → Option ServerStmt
  | .config => some .freeConfig
  | .server => some .loServerFree
  | .address => some .loAddressFree
  | .svcName => some .freeSvcName
  | .service => some .soscZeroconfUnregister
  | .cfg => none

/-- The process goes on whether it has been allocated or not. -/
def Resource.optional : Resource → Bool
  | .service | .cfg => true
  | _ => false

/-- A process may hold this that has these statements left. -/
def MayHold (todo : List ServerStmt) (r : Resource) : Prop :=
  r.acquiring ∉ todo ∧ ∀ stmt ∈ r.releasing, stmt ∈ todo

instance (todo : List ServerStmt) (r : Resource) : Decidable (MayHold todo r) :=
  inferInstanceAs (Decidable (_ ∧ _))

/-- What a process holds that has these statements left. -/
structure HoldsAt (todo : List ServerStmt) (held : List Resource) : Prop where
  nodup : held.Nodup
  may : ∀ r ∈ held, MayHold todo r
  must : ∀ r, r.optional = false → MayHold todo r → r ∈ held

/-- The statements after a statement. -/
def ServerStmt.following (stmt : ServerStmt) : List ServerStmt :=
  (soscServerRunBody.dropWhile (· ≠ stmt)).tail

/-- What follows an element that does not occur twice. -/
theorem dropWhile_ne_of_suffix {α : Type} [DecidableEq α] {l t : List α} {a : α}
    (hl : l.Nodup) (h : a :: t <:+ l) : l.dropWhile (· ≠ a) = a :: t := by
  obtain ⟨front, rfl⟩ := h
  have hfront : ∀ x ∈ front, decide (x ≠ a) = true := by
    intro x hx
    refine decide_eq_true fun heq => ?_
    exact (List.nodup_append.mp hl).2.2 x hx a List.mem_cons_self heq
  rw [List.dropWhile_append_of_pos hfront, List.dropWhile_cons_of_neg (by simp)]

theorem rest_of_suffix {stmt : ServerStmt} {rest : List ServerStmt}
    (h : stmt :: rest <:+ soscServerRunBody) : rest = stmt.following := by
  rw [ServerStmt.following, dropWhile_ne_of_suffix (by decide) h]
  rfl

theorem suffix_of_label {stmt : ServerStmt} {label : List ServerStmt}
    (h : stmt.label = some label) : label <:+ soscServerRunBody := by
  cases stmt <;> cases h <;> decide

/-- A `goto` frees what has been allocated before. -/
theorem HoldsAt.label {stmt : ServerStmt} {label : List ServerStmt} {held : List Resource}
    (h : stmt.label = some label) (hheld : HoldsAt (stmt :: stmt.following) held) :
    HoldsAt label held where
  nodup := hheld.nodup
  may r hr := by
    have hmay := hheld.may r hr
    revert hmay
    cases stmt <;> cases h <;> cases r <;> decide
  must r hr hmay := by
    refine hheld.must r hr ?_
    revert hmay
    cases stmt <;> cases h <;> cases r <;> first | decide | cases hr

/-! ### What a statement changes about what may be held -/

section Steps

variable {ok : Bool} {stmt : ServerStmt} {r : Resource} {held : List Resource}

/-- What a statement allocates has not been allocated before. -/
theorem not_mayHold_of_acquires (h : stmt.acquires ok = some r) :
    ¬ MayHold (stmt :: stmt.following) r := by
  cases stmt <;> cases ok <;> cases h <;> decide

theorem mayHold_of_acquires (h : stmt.acquires ok = some r) : MayHold stmt.following r := by
  cases stmt <;> cases ok <;> cases h <;> decide

theorem not_mayHold_of_releases (h : stmt.releases = some r) : ¬ MayHold stmt.following r := by
  cases stmt <;> cases h <;> decide

/-- Only the statement that frees it makes that a resource may not be held. -/
theorem MayHold.following (h : MayHold (stmt :: stmt.following) r)
    (hreleases : stmt.releases ≠ some r) : MayHold stmt.following r := by
  refine ⟨fun hmem => h.1 (List.mem_cons_of_mem _ hmem), fun stmt' hstmt' => ?_⟩
  rcases List.mem_cons.mp (h.2 stmt' hstmt') with rfl | hmem
  · refine absurd ?_ hreleases
    cases r <;> cases hstmt' <;> rfl
  · exact hmem

/-- Only the statement that allocates it makes that a resource has to be held. -/
theorem MayHold.before (ok : Bool) (hoptional : r.optional = false)
    (h : MayHold stmt.following r) (hacquires : stmt.acquires ok ≠ some r) :
    MayHold (stmt :: stmt.following) r := by
  refine ⟨fun hmem => ?_, fun stmt' hstmt' => List.mem_cons_of_mem _ (h.2 stmt' hstmt')⟩
  rcases List.mem_cons.mp hmem with rfl | hmem
  · refine hacquires ?_
    cases r <;> first | rfl | cases hoptional
  · exact h.1 hmem

theorem holdsAt_nil : HoldsAt soscServerRunBody [] where
  nodup := List.nodup_nil
  may r hr := absurd hr List.not_mem_nil
  must r _ hr := by
    refine absurd ?_ hr.1
    cases r <;> decide

/-- A statement that allocates something frees nothing. -/
theorem HoldsAt.acquires {new : Resource} (h : HoldsAt (stmt :: stmt.following) held)
    (hacquires : stmt.acquires ok = some new) : HoldsAt stmt.following (new :: held) where
  nodup := by
    refine List.nodup_cons.mpr ⟨fun hmem => ?_, h.nodup⟩
    exact not_mayHold_of_acquires hacquires (h.may new hmem)
  may r hr := by
    have hreleases : stmt.releases = none := by
      cases stmt <;> cases ok <;> cases hacquires <;> rfl
    rcases List.mem_cons.mp hr with rfl | hr
    · exact mayHold_of_acquires hacquires
    · refine (h.may r hr).following ?_
      rw [hreleases]
      exact (Option.some_ne_none r).symm
  must r hoptional hr := by
    by_cases heq : r = new
    · exact List.mem_cons.mpr (.inl heq)
    · refine List.mem_cons_of_mem _ (h.must r hoptional (hr.before ok hoptional ?_))
      rw [hacquires]
      exact fun hsome => heq (Option.some.inj hsome).symm

/-- What is to be held after a statement that allocates nothing. -/
theorem HoldsAt.must_of_acquires (h : HoldsAt (stmt :: stmt.following) held)
    (hacquires : stmt.acquires ok = none) (hoptional : r.optional = false)
    (hr : MayHold stmt.following r) : r ∈ held := by
  refine h.must r hoptional (hr.before ok hoptional ?_)
  rw [hacquires]
  exact (Option.some_ne_none r).symm

theorem HoldsAt.releases {old : Resource} (h : HoldsAt (stmt :: stmt.following) held)
    (hacquires : stmt.acquires ok = none) (hreleases : stmt.releases = some old) :
    HoldsAt stmt.following (held.erase old) where
  nodup := h.nodup.erase old
  may r hr := by
    obtain ⟨hne, hmem⟩ := h.nodup.mem_erase_iff.mp hr
    refine (h.may r hmem).following ?_
    rw [hreleases]
    exact fun hsome => hne (Option.some.inj hsome).symm
  must r hoptional hr := by
    refine h.nodup.mem_erase_iff.mpr ⟨?_, h.must_of_acquires hacquires hoptional hr⟩
    rintro rfl
    exact not_mayHold_of_releases hreleases hr

/-- A statement that goes on leaves what is to be held after it. -/
theorem HoldsAt.goes (h : HoldsAt (stmt :: stmt.following) held) (ok : Bool) :
    HoldsAt stmt.following (stmt.holds ok held) := by
  rw [ServerStmt.holds]
  cases hacquires : stmt.acquires ok with
  | some new => exact h.acquires hacquires
  | none =>
    cases hreleases : stmt.releases with
    | some old => exact h.releases hacquires hreleases
    | none =>
      refine ⟨h.nodup, fun r hr => (h.may r hr).following ?_,
        fun r hoptional hr => h.must_of_acquires hacquires hoptional hr⟩
      rw [hreleases]
      exact (Option.some_ne_none r).symm

/-- At the end only a `cfg_t` may be left. -/
theorem HoldsAt.returned (h : HoldsAt [] held) :
    held = [] ∨ held = [.cfg] := by
  have hcfg : ∀ r ∈ held, r = .cfg := by
    intro r hr
    have hfrees := (h.may r hr).2
    cases r with
    | cfg => rfl
    | _ => exact absurd (hfrees _ rfl) List.not_mem_nil
  have hnodup := h.nodup
  rw [List.eq_replicate_of_mem hcfg, List.nodup_replicate] at hnodup
  rw [List.eq_replicate_of_mem hcfg]
  rcases Nat.le_one_iff_eq_zero_or_eq_one.mp hnodup with hlength | hlength
  · rw [hlength]
    exact .inl rfl
  · rw [hlength]
    exact .inr rfl

end Steps

/-! ## What is told to the supervisor -/

namespace DeviceProcess

variable {env : ProcessEnv} {self self' : DeviceProcess} {inputs : List Input}

/-- What holds of every process that was started.  Whatever it does not come to tell any
more is left out because of a `goto`, before anything was told, or because it aborted. -/
structure Kept (env : ProcessEnv) (a : DeviceProcess) : Prop where
  todo : a.todo <:+ soscServerRunBody
  dead : a.aborted = true → a.todo = []
  held : a.aborted = false → HoldsAt a.todo a.held
  told : ∃ rest, written a.log ++ rest = pending env soscServerRunBody ∧
    (pending env a.todo = rest ∨
      pending env a.todo = [] ∧ (a.aborted = true ∨ written a.log = []))

theorem pending_cons (stmt : ServerStmt) (rest : List ServerStmt) :
    pending env (stmt :: rest) = pending env [stmt] ++ pending env rest := by
  rw [pending, pending, pending]
  split_ifs
  · rw [← List.filter_append, ← List.filterMap_append]
    rfl
  · rfl

theorem pending_nil : pending env [] = [] := by
  rw [pending, List.filterMap_nil, List.filter_nil, ite_self]

/-- After a label nothing is told. -/
theorem pending_label {stmt : ServerStmt} {label : List ServerStmt}
    (h : stmt.label = some label) : pending env label = [] := by
  have hnone : label.filterMap (ServerStmt.message env.identity) = [] := by
    cases stmt <;> cases h <;> rfl
  rw [pending, hnone, List.filter_nil, ite_self]

/-- There is no `goto` once something has been told. -/
theorem pending_of_label {stmt : ServerStmt} {label : List ServerStmt}
    (h : stmt.label = some label) :
    pending env (stmt :: stmt.following) = pending env soscServerRunBody := by
  have hall : (stmt :: stmt.following).filterMap (ServerStmt.message env.identity) =
      soscServerRunBody.filterMap (ServerStmt.message env.identity) := by
    cases stmt <;> cases h <;> rfl
  rw [pending, pending, hall]

/-- A process may come to its end wherever it is. -/
theorem Kept.abort (h : Kept env self) {next : DeviceProcess}
    (hwritten : written next.log = written self.log) : Kept env next.abort where
  todo := List.nil_suffix
  dead _ := rfl
  held hlive := Bool.noConfusion hlive
  told := by
    obtain ⟨rest, hall, -⟩ := h.told
    rw [← hwritten] at hall
    exact ⟨rest, hall, .inr ⟨pending_nil, .inl rfl⟩⟩

theorem Kept.live (h : Kept env self) {stmt : ServerStmt} {rest : List ServerStmt}
    (htodo : self.todo = stmt :: rest) : self.aborted = false := by
  cases haborted : self.aborted with
  | false => rfl
  | true =>
    rw [h.dead haborted] at htodo
    cases htodo

/-- A statement goes on. -/
theorem Kept.goes (ok : Bool) {stmt : ServerStmt} {rest : List ServerStmt} (h : Kept env self)
    (htodo : self.todo = stmt :: rest)
    (hgoes : Goes env ok stmt { self with todo := rest } self') : Kept env self' := by
  have hlive := h.live htodo
  have hlive' : self'.aborted = false := hgoes.aborted.trans hlive
  have hsuffix := h.todo
  have hheld := h.held hlive
  obtain ⟨toTell, hall, htell⟩ := h.told
  rw [htodo] at hsuffix hheld htell
  rw [rest_of_suffix hsuffix] at hheld
  refine ⟨?_, fun hdead => ?_, fun _ => ?_, ?_⟩
  · rw [hgoes.todo]
    exact (List.suffix_cons _ _).trans hsuffix
  · rw [hlive'] at hdead
    cases hdead
  · rw [hgoes.held, hgoes.todo]
    dsimp only
    rw [rest_of_suffix hsuffix]
    exact hheld.goes ok
  · rw [hgoes.written, hgoes.todo]
    rw [pending_cons] at htell
    rcases htell with htell | ⟨htell, hdead | hnothing⟩
    · refine ⟨pending env rest, ?_, .inl rfl⟩
      rw [List.append_assoc, htell]
      exact hall
    · rw [hlive] at hdead
      cases hdead
    · obtain ⟨hstmt, hrest⟩ := List.append_eq_nil_iff.mp htell
      rw [hstmt, List.append_nil]
      exact ⟨toTell, hall, .inr ⟨hrest, .inr hnothing⟩⟩

theorem Kept.run {stmt : ServerStmt} {rest : List ServerStmt} (h : Kept env self)
    (htodo : self.todo = stmt :: rest) (ok : Bool) :
    Kept env (exec env ok { self with todo := rest } stmt) := by
  have hexec : Executed env ok stmt { self with todo := rest } _ := executed_exec ok stmt _
  generalize exec env ok { self with todo := rest } stmt = next at hexec ⊢
  cases hexec with
  | aborts => exact h.abort rfl
  | crashes => exact h.abort ((written_append _ _).trans (List.append_nil _))
  | goes _ hgoes => exact h.goes ok htodo hgoes
  | jumps label hlabel hok =>
    have hlive := h.live htodo
    have hsuffix := h.todo
    have hheld := h.held hlive
    obtain ⟨toTell, hall, htell⟩ := h.told
    rw [htodo] at hsuffix hheld htell
    rw [rest_of_suffix hsuffix] at hheld htell
    refine ⟨suffix_of_label hlabel, fun hdead => ?_, fun _ => ?_, toTell, hall, .inr ?_⟩
    · rw [hlive] at hdead
      cases hdead
    · exact hheld.label hlabel
    · refine ⟨pending_label hlabel, .inr ?_⟩
      rcases htell with htell | ⟨-, hdead | hnothing⟩
      · rw [← htell, pending_of_label hlabel] at hall
        exact List.self_eq_append_left.mp hall.symm
      · rw [hlive] at hdead
        cases hdead
      · exact hnothing

/-- The fields that a round of the loop keeps are enough. -/
theorem Kept.of_same (h : Kept env self) (htodo : self'.todo = self.todo)
    (haborted : self'.aborted = self.aborted) (hheld : self'.held = self.held)
    (hwritten : written self'.log = written self.log) : Kept env self' where
  todo := by
    rw [htodo]
    exact h.todo
  dead := by
    rw [haborted, htodo]
    exact h.dead
  held := by
    rw [haborted, hheld, htodo]
    exact h.held
  told := by
    rw [hwritten, htodo, haborted]
    exact h.told

theorem Kept.heeds (h : Kept env self) (hheeds : Heeds env inputs self self')
    (hlive : self.aborted = false) : Kept env self' := by
  have hwritten := hheeds.written hlive
  cases hdead : self'.aborted with
  | false =>
    obtain ⟨-, htodo, -⟩ := hheeds.alive hdead
    exact h.of_same htodo (hdead.trans hlive.symm) hheeds.held hwritten
  | true =>
    have habort : Kept env self.abort := h.abort rfl
    exact habort.of_same (hheeds.of_crash hlive hdead).1 hdead hheeds.held hwritten

theorem kept_invariant (env : ProcessEnv) : (system env).Invariant (Kept env) where
  init s hs := by
    refine ⟨?_, fun hdead => ?_, fun _ => ?_, pending env soscServerRunBody, ?_, .inl ?_⟩
    · rw [hs.todo]
    · rw [hs.aborted] at hdead
      cases hdead
    · rw [hs.held, hs.todo]
      exact holdsAt_nil
    · rw [hs.log]
      rfl
    · rw [hs.todo]
  step s e s' hs he := by
    cases e with
    | run ok =>
      obtain ⟨stmt, rest, htodo, -, rfl⟩ := step_run he
      exact hs.run htodo ok
    | round round =>
      obtain ⟨rest, htodo, rfl⟩ := step_round he
      have hlive := hs.live htodo
      have hnext := hs.heeds (heeds_eventLoopRound hlive round) hlive
      dsimp only
      split_ifs with hgoes
      · exact hnext
      · have hsame := (heeds_eventLoopRound hlive round).alive
          (Bool.eq_false_of_not_eq_true fun hdead => hgoes (.inl hdead))
        refine hnext.goes true (hsame.2.1.trans htodo) ⟨rfl, rfl, rfl, rfl, rfl, ?_⟩
        rw [pending_of_no_message rfl, List.append_nil]
    | stdin bytes =>
      obtain rfl := Option.some.inj he
      exact hs.of_same rfl rfl rfl rfl
    | killed =>
      obtain ⟨-, he⟩ := Option.ite_none_left_eq_some.mp he
      obtain rfl := Option.some.inj he
      exact hs.abort rfl

/-- The supervisor is told the messages of the device in order, those that do not fit left
out.  All but the last have been told when the loop is entered, and the last when the
process returns, unless it never came that far. -/
theorem written_inOrder (env : ProcessEnv) (hself : (system env).Reachable self) :
    let all := if env.ipcOut then env.identity.messages.filter ipcMsgFits else []
    written self.log <+: all ∧
      (self.todo.head? = some .soscEventLoop →
        written self.log ++ (if env.ipcOut then [.deviceDisconnection] else []) = all) ∧
      (self.todo = [] → self.aborted = false → written self.log = [] ∨ written self.log = all) := by
  have hkept := (kept_invariant env).reachable hself
  obtain ⟨rest, hall, htell⟩ := hkept.told
  have hbody : pending env soscServerRunBody =
      if env.ipcOut then env.identity.messages.filter ipcMsgFits else [] := rfl
  rw [hbody] at hall
  refine ⟨⟨rest, hall⟩, fun hloop => ?_, fun hreturned hlive => ?_⟩
  · obtain ⟨stmts, htodo⟩ := List.head?_eq_some_iff.mp hloop
    have hsuffix := hkept.todo
    rw [htodo] at hsuffix
    have hpending : pending env self.todo = if env.ipcOut then [.deviceDisconnection] else [] := by
      rw [htodo, rest_of_suffix hsuffix]
      rfl
    rw [hpending] at htell
    rcases htell with htell | ⟨htell, hdead | hnothing⟩
    · rw [htell]
      exact hall
    · rw [hkept.live htodo] at hdead
      cases hdead
    · have hout : ¬ env.ipcOut = true := fun hout => by
        rw [if_pos hout] at htell
        cases htell
      rw [if_neg hout, if_neg hout, hnothing]
      rfl
  · rw [hreturned, pending_nil] at htell
    rcases htell with htell | ⟨-, hdead | hnothing⟩
    · rw [← htell, List.append_nil] at hall
      exact .inr hall
    · rw [hlive] at hdead
      cases hdead
    · exact .inl hnothing

theorem written_inOrder_sampleRun :
    ∃ self, (system sampleEnv).exec sampleProcess sampleRun = some self ∧
      let all := if sampleEnv.ipcOut then sampleEnv.identity.messages.filter ipcMsgFits else []
      written self.log <+: all ∧
        (self.todo.head? = some .soscEventLoop →
          written self.log ++ (if sampleEnv.ipcOut then [.deviceDisconnection] else []) = all) ∧
        (self.todo = [] → self.aborted = false →
          written self.log = [] ∨ written self.log = all) := by
  obtain ⟨self, hrun⟩ : ∃ self, (system sampleEnv).exec sampleProcess sampleRun = some self :=
    ⟨_, rfl⟩
  exact ⟨self, hrun, written_inOrder sampleEnv ⟨_, _, fresh_sampleProcess, hrun⟩⟩

end DeviceProcess

/-! ## What is allocated -/

namespace DeviceProcess

variable {env : ProcessEnv} {self self' : DeviceProcess}

end DeviceProcess

end Serialosc
