/-
What one operation can do, said once.

`exec` is a table of twenty operations with up to four outcomes each. Every
invariant of the monolith is about one part of the state, so this file turns
`exec` into one inversion lemma per part: `exec_rows` for the subscription rows,
`exec_sagas` for the saga rows, `exec_log` for the recorded status writes,
`exec_waiting` for the orchestrator's channels, and `exec_frame` for the parts
an operation does not touch. `Evolves` collects what no step of the monolith
ever undoes. The proofs after this file do not unfold `exec` again.
-/
import ReleaseNotifier.Service

set_option autoImplicit false

namespace ReleaseNotifier

open Conc

/-! ## The part of the state an operation writes -/

/-- A part of the state. -/
inductive Part
  | tables
  | sagas
  | waiting
  | broker
  | nothing
  deriving DecidableEq, Repr

/-- The one part an operation may write. -/
def Op.part : Op → Part
  | .stmtUpdateToken _ _ _ => .tables
  | .stmtUpsert _ _ => .tables
  | .stmtCreate _ _ _ => .tables
  | .stmtUpdateStatus _ _ _ => .tables
  | .sagaCreate _ _ _ => .sagas
  | .sagaCompleteIfAwaiting _ => .sagas
  | .sagaClaimCompensation _ => .sagas
  | .sagaMarkCompensated _ => .sagas
  | .publish _ _ => .broker
  | .registerWaiter _ => .waiting
  | .unregisterWaiter _ => .waiting
  | .trySend _ _ => .waiting
  | .await _ => .waiting
  | _ => .nothing

section Frame

variable {α : Type} {s t : State} {ch : Choice}

/-- What the effect leaves alone, the attempt leaves alone. -/
theorem attempt_frame {β : Type} (f : State → β) {effect : Except Err (α × State)}
    {r : Except Err α} (h : attempt s effect ch = some (r, t))
    (hf : ∀ a t', effect = .ok (a, t') → f t' = f s) : f t = f s := by
  rcases attempt_cases h with ⟨_, _, rfl, _⟩ | ⟨a, ha, _⟩
  · rfl
  · exact hf a t ha

theorem attemptData_frame {β : Type} (f : State → β) {found : Option α} {s' : State}
    {r : Except Err (Option (Except Err α))} (h : attemptData s found s' ch = some (r, t))
    (hf : f s' = f s) : f t = f s := by
  rcases attemptData_cases h with ⟨_, _, rfl⟩ | ⟨rfl, _⟩
  · rfl
  · exact hf

/-- A query changes nothing. -/
theorem attempt_query {a : α} {r : Except Err α} (h : attempt s (.ok (a, s)) ch = some (r, t)) :
    t = s ∧ ∀ b, r = .ok b → b = a := by
  refine ⟨attempt_frame id h (fun b t' hb => ?_), fun b hb => ?_⟩
  · simp only [Except.ok.injEq, Prod.mk.injEq] at hb
    exact hb.2.symm
  · subst hb
    have := attempt_ok h
    simp only [Except.ok.injEq, Prod.mk.injEq] at this
    exact this.1.symm

end Frame

/-- A successful execution of an operation. -/
def Executed (_c : Call) (o : Op) (r : o.Res) (s s' : State) : Prop :=
  ∃ ch, exec s o ch = some (r, s')

section Exec

variable {s s' : State} {o : Op} {ch : Choice} {r : o.Res}

/-! ## Results of single operations -/

theorem exec_getByEmailAndRepo {k : Key} {r : Except Err (Option Subscription)}
    (h : exec s (.stmtGetByEmailAndRepo k) ch = some (r, s')) :
    s' = s ∧ ∀ x, r = .ok x → x = s.tables.getByEmailAndRepoQuery k :=
  attempt_query h

/-- A lookup changes nothing and answers what the table has. -/
theorem exec_getByToken {token : String} {r : Except Err (Option Subscription)}
    (h : exec s (.stmtGetByToken token) ch = some (r, s')) :
    s' = s ∧ ∀ x, r = .ok x → x = s.tables.getByTokenQuery token :=
  attempt_query h

theorem exec_listTimedOut {limit : Nat} {r : Except Err (List String)}
    (h : exec s (.sagaListTimedOut limit) ch = some (r, s')) :
    s' = s ∧ ∀ ids, r = .ok ids → ids = s.sagas.listTimedOut s.now limit :=
  attempt_query h

/-- An error that none of the code's own sentinels is in. -/
def Err.Foreign (e : Err) : Prop := ∀ s, e.is s = false

/-- A status write: it fails before the row is touched, or it is carried out
and logged. -/
theorem exec_updateStatus {origin : Origin} {status : Status} {id : Nat}
    {r : Except Err (Except Err Nat)}
    (h : exec s (.stmtUpdateStatus origin status id) ch = some (r, s')) :
    (∃ e, r = .error e ∧ e.is .errNotFound = false ∧
        s' = s.logStatus origin status id r) ∨
      ∃ t n, s.tables.updateStatusQuery status id = .ok (t, n) ∧
        s' = ({ s with tables := t } : State).logStatus origin status id r ∧
        (r = .ok (.ok n) ∨ (∃ f : Fault, r = .ok (.error f.err)) ∨
          ∃ f : Fault, r = .error f.err) := by
  simp only [exec] at h
  obtain ⟨⟨r₀, s₀⟩, hx, hy⟩ := Option.map_eq_some_iff.mp h
  simp only [Prod.mk.injEq] at hy
  obtain ⟨rfl, rfl⟩ := hy
  -- the log entry is made whatever the statement answers
  rcases attemptUpdate_cases hx with ⟨e, rfl, rfl, he⟩ | ⟨n, hn, hr⟩
  · refine .inl ⟨e, rfl, ?_, rfl⟩
    rcases he with he | ⟨f, rfl⟩
    · -- the only refusal is the partial index's
      cases hq : s₀.tables.updateStatusQuery status id with
      | ok x => rw [hq] at he; cases he
      | error e' =>
        rw [hq] at he
        simp only [Except.map, Except.error.injEq] at he
        subst he
        unfold Tables.updateStatusQuery at hq
        split at hq
        · cases hq
        · simp only [Except.error.injEq] at hq
          rw [← hq]
          rfl
    · exact Fault.is_err _ f
  · cases hq : s.tables.updateStatusQuery status id with
    | error e => rw [hq] at hn; cases hn
    | ok x =>
      rw [hq] at hn
      simp only [Except.map, Except.ok.injEq, Prod.mk.injEq] at hn
      obtain ⟨rfl, rfl⟩ := hn
      exact .inr ⟨x.1, x.2, rfl, rfl, hr⟩

/-- `UpdateToken` without an error: the number of rows that carried the old
token. -/
theorem exec_updateToken {newToken oldToken : String} {id : Nat}
    {r : Except Err (Except Err Nat)}
    (h : exec s (.stmtUpdateToken newToken id oldToken) ch = some (r, s')) :
    (s' = s ∧ ∃ e, r = .error e) ∨
      ∃ t n, s.tables.updateTokenQuery newToken id oldToken = .ok (t, n) ∧
        s' = { s with tables := t } ∧
        (r = .ok (.ok n) ∨ (∃ f : Fault, r = .ok (.error f.err)) ∨
          ∃ f : Fault, r = .error f.err) := by
  simp only [exec] at h
  rcases attemptUpdate_cases h with ⟨e, rfl, rfl, _⟩ | ⟨n, hn, hr⟩
  · exact .inl ⟨rfl, e, rfl⟩
  · cases hq : s.tables.updateTokenQuery newToken id oldToken with
    | error e => rw [hq] at hn; cases hn
    | ok x =>
      rw [hq] at hn
      simp only [Except.map, Except.ok.injEq, Prod.mk.injEq] at hn
      obtain ⟨rfl, rfl⟩ := hn
      exact .inr ⟨x.1, x.2, rfl, rfl, hr⟩

/-- An insert fails without a trace, or adds its row and may still report an error. -/
theorem exec_create {k : Key} {token : String} {status : Status} {r : Except Err Nat}
    (h : exec s (.stmtCreate k token status) ch = some (r, s')) :
    (s' = s ∧ ∃ e, r = .error e) ∨
      ∃ t, s.tables.createQuery k token status = .ok t ∧ s' = { s with tables := t } ∧
        (r = .ok s.tables.nextSubscriptionID ∨ ∃ f : Fault, r = .error f.err) := by
  simp only [exec] at h
  rcases attempt_cases h with ⟨e, rfl, rfl, _⟩ | ⟨n, hn, hr⟩
  · exact .inl ⟨rfl, e, rfl⟩
  · cases hq : s.tables.createQuery k token status with
    | error e => rw [hq] at hn; cases hn
    | ok t =>
      rw [hq] at hn
      simp only [Except.map, Except.ok.injEq, Prod.mk.injEq] at hn
      obtain ⟨rfl, rfl⟩ := hn
      exact .inr ⟨t, rfl, rfl, hr⟩

variable {id : String} {data : SubscriptionData}

/-- A saga id is used once. -/
theorem exec_sagaCreate {timeout : Nat} {r : Except Err Unit}
    (h : exec s (.sagaCreate id data timeout) ch = some (r, s')) :
    (s' = s ∧ ∃ e, r = .error e) ∨
      ∃ hnone : s.sagas.get id = none,
        s' = { s with
          sagas := s.sagas.insert ⟨id, .awaitingConfirmation, data, s.now + timeout⟩ hnone } := by
  simp only [exec] at h
  rcases attempt_cases h with ⟨e, rfl, rfl, _⟩ | ⟨a, ha, _⟩
  · exact .inl ⟨rfl, e, rfl⟩
  · unfold State.createSaga at ha
    split at ha
    · next hnone =>
      simp only [Except.ok.injEq, Prod.mk.injEq] at ha
      exact .inr ⟨hnone, ha.2.symm⟩
    · cases ha

theorem exec_upsert {owner name : String} {r : Except Err Unit}
    (h : exec s (.stmtUpsert owner name) ch = some (r, s')) :
    (s' = s ∧ ∃ e, r = .error e) ∨ s' = { s with tables := s.tables.upsertQuery owner name } := by
  simp only [exec] at h
  rcases attempt_cases h with ⟨e, rfl, rfl, _⟩ | ⟨a, ha, _⟩
  · exact .inl ⟨rfl, e, rfl⟩
  · simp only [Except.ok.injEq, Prod.mk.injEq] at ha
    exact .inr ha.2.symm

/-- A publish that reports an error may have got through. -/
theorem exec_publish {routingKey : String} {body : Bytes} {r : Except Err Unit}
    (h : exec s (.publish routingKey body) ch = some (r, s')) :
    (s' = s ∧ ∃ e, r = .error e) ∨ s' = { s with commands := body :: s.commands } := by
  simp only [exec] at h
  rcases attempt_cases h with ⟨e, rfl, rfl, _⟩ | ⟨a, ha, _⟩
  · exact .inl ⟨rfl, e, rfl⟩
  · simp only [Except.ok.injEq, Prod.mk.injEq] at ha
    exact .inr ha.2.symm

/-- The number of rows says whether the saga was waiting. -/
theorem exec_complete {r : Except Err (Except Err Nat)}
    (h : exec s (.sagaCompleteIfAwaiting id) ch = some (r, s')) :
    (s' = s ∧ ∃ e, r = .error e) ∨
      (s' = s.moveSaga .completed id .awaitingConfirmation ∧
        ∀ n, r = .ok (.ok n) → n = s.sagas.hits id .awaitingConfirmation) := by
  simp only [exec] at h
  rcases attemptUpdate_cases h with ⟨e, rfl, rfl, _⟩ | ⟨n, hn, hr⟩
  · exact .inl ⟨rfl, e, rfl⟩
  · simp only [Except.ok.injEq, Prod.mk.injEq] at hn
    refine .inr ⟨hn.2.symm, fun m hm => ?_⟩
    rw [hn.1]
    rcases hr with hr | ⟨f, hr⟩ | ⟨f, hr⟩
    · rw [hm] at hr; cases hr; rfl
    · rw [hm] at hr; cases hr
    · rw [hm] at hr; cases hr

/-- A claim without an error: the data of the saga it moved, or nothing if the
saga was not awaiting. -/
theorem exec_claim {r : Except Err (Option (Except Err SubscriptionData))}
    (h : exec s (.sagaClaimCompensation id) ch = some (r, s')) :
    (s' = s ∧ ∃ e, r = .error e) ∨
      (s' = s.moveSaga .compensating id .awaitingConfirmation ∧
        (r = .ok none → s.claimed id = none) ∧
        ∀ data, r = .ok (some (.ok data)) → s.claimed id = some data) := by
  simp only [exec] at h
  rcases attemptData_cases h with ⟨f, rfl, rfl⟩ | ⟨rfl, hr⟩
  · exact .inl ⟨rfl, f.err, rfl⟩
  · refine .inr ⟨rfl, fun hn => ?_, fun data hd => ?_⟩
    · rcases hr with hr | ⟨f, hr⟩ | ⟨f, hr, _⟩
      · rw [hn, Except.ok.injEq] at hr
        exact Option.map_eq_none_iff.mp hr.symm
      · rw [hn] at hr; cases hr
      · rw [hn] at hr; cases hr
    · rcases hr with hr | ⟨f, hr⟩ | ⟨f, hr, _⟩
      · rw [hd, Except.ok.injEq] at hr
        obtain ⟨d, hd', heq⟩ := Option.map_eq_some_iff.mp hr.symm
        cases heq
        exact hd'
      · rw [hd] at hr; cases hr
      · rw [hd] at hr; cases hr

variable {x : String}

/-- The saga a successful claim leaves behind. -/
theorem claimed_saga (h : s.claimed x = some data) :
    ∃ inst, (s.moveSaga .compensating x .awaitingConfirmation).sagas.get x = some inst ∧
      inst.data = data ∧ inst.state = .compensating := by
  unfold State.claimed at h
  split at h
  · next inst hx =>
    split at h
    · next hst =>
      rw [Option.some.injEq] at h
      refine ⟨{ inst with state := .compensating }, ?_, h, rfl⟩
      simp [State.moveSaga, SagaTable.get_transition, hx, hst]
    · cases h
  · cases h

/-- The mark fails without a trace, or takes effect and may still report an error. -/
theorem exec_mark {r : Except Err Unit} (h : exec s (.sagaMarkCompensated id) ch = some (r, s')) :
    (s' = s ∧ ∃ e, r = .error e) ∨ s' = s.moveSaga .failed id .compensating := by
  simp only [exec] at h
  rcases attempt_cases h with ⟨e, rfl, rfl, _⟩ | ⟨a, ha, _⟩
  · exact .inl ⟨rfl, e, rfl⟩
  · simp only [Except.ok.injEq, Prod.mk.injEq] at ha
    exact .inr ha.2.symm

/-- A saga that is read is the one in the table. -/
theorem exec_sagaGet {r : Except Err (Option (Except Err Instance))}
    (h : exec s (.sagaGet id) ch = some (r, s')) :
    s' = s ∧ ∀ inst, r = .ok (some (.ok inst)) → s.sagas.get id = some inst := by
  simp only [exec] at h
  refine ⟨attemptData_frame (fun x => x) h rfl, fun inst hi => ?_⟩
  rcases attemptData_cases h with ⟨f, hr, _⟩ | ⟨_, hr | ⟨f, hr⟩ | ⟨f, hr, _⟩⟩
  · rw [hi] at hr; cases hr
  · rw [hi, Except.ok.injEq] at hr
    obtain ⟨x, hx, heq⟩ := Option.map_eq_some_iff.mp hr.symm
    cases heq
    exact hx
  · rw [hi] at hr; cases hr
  · rw [hi] at hr; cases hr

/-- A saga that cannot be created is not created for a reason of the database. -/
theorem exec_sagaCreate_error {timeout : Nat} {e : Err}
    (h : exec s (.sagaCreate id data timeout) ch = some (.error e, s')) : e.Foreign := by
  intro q
  simp only [exec] at h
  rcases attempt_cases h with ⟨e', he, _, hs | ⟨f, hf⟩⟩ | ⟨a, _, hr | ⟨f, hf⟩⟩
  · cases he
    unfold State.createSaga at hs
    split at hs
    · cases hs
    · cases hs
      rfl
  · cases he
    rw [hf]
    exact Fault.is_err q f
  · cases hr
  · cases hf
    exact Fault.is_err q f

variable {n : Nat}

/-- A waiter gets a new, empty channel. -/
theorem exec_registerWaiter (h : exec s (.registerWaiter x) ch = some (n, s')) :
    s'.chans[n]? = some ⟨x, none⟩ := by
  cases ch <;> simp only [exec, Option.some.injEq, Prod.mk.injEq, reduceCtorEq] at h
  rw [← h.2, ← h.1]
  simp

theorem exec_lookupWaiter {n : Option Nat} (h : exec s (.lookupWaiter x) ch = some (n, s')) :
    s' = s ∧ n = s.waiters x := by
  cases ch <;> simp only [exec, Option.some.injEq, Prod.mk.injEq, reduceCtorEq] at h
  exact ⟨h.2.symm, h.1.symm⟩

/-- A send that finds the buffer full is dropped. -/
theorem exec_trySend {state : SagaState} {r : Unit}
    (h : exec s (.trySend n state) ch = some (r, s')) : s' = s.offer n state := by
  cases ch <;> simp only [exec, Option.some.injEq, Prod.mk.injEq, reduceCtorEq] at h
  exact h.2.symm

/-- A send reaches an empty channel, and is dropped by a full one. -/
theorem offer_chan {state : SagaState} {c : Chan} (h : s.chans[n]? = some c) :
    (s.offer n state).chans[n]? = some { c with buf := some (c.buf.getD state) } := by
  obtain ⟨sagaID, buf⟩ := c
  have hn : n < s.chans.length := (List.getElem?_eq_some_iff.mp h).1
  cases buf with
  | none =>
    simp only [State.offer, h]
    exact List.getElem?_set_self hn
  | some b =>
    simp only [State.offer, h]
    rfl

/-- What is received was in the channel. -/
theorem exec_await {final : SagaState} (h : exec s (.await n) ch = some (.received final, s')) :
    ∃ c, s.chans[n]? = some c ∧ c.buf = some final := by
  cases ch <;> simp only [exec, Option.some.injEq, Prod.mk.injEq, reduceCtorEq, false_and] at h
  split at h
  · next sagaID final' hc =>
    simp only [Option.some.injEq, Prod.mk.injEq, Woken.received.injEq] at h
    exact ⟨_, hc, by rw [h.1]⟩
  · cases h

/-- A context that is done reports an error of its own. -/
theorem exec_await_done {e : Err} (h : exec s (.await n) ch = some (.done e, s')) : e.Foreign := by
  cases ch <;> simp only [exec, Option.some.injEq, Prod.mk.injEq, reduceCtorEq, false_and,
    Woken.done.injEq] at h
  · split at h
    · simp at h
    · cases h
  · rw [← h.1]
    exact fun q => Fault.is_err q _

/-! ## Operations that succeed

What the operations of a compensation answer when nothing fails. -/

/-- A claim that succeeds returns the data of the row it moved, if any. -/
theorem exec_claim_ok (s : State) (x : String) :
    exec s (.sagaClaimCompensation x) .ok = some (.ok ((s.claimed x).map .ok),
      s.moveSaga .compensating x .awaitingConfirmation) := rfl

theorem exec_sagaGet_ok (s : State) (x : String) :
    exec s (.sagaGet x) .ok = some (.ok ((s.sagas.get x).map .ok), s) := rfl

theorem exec_mark_ok (s : State) (x : String) :
    exec s (.sagaMarkCompensated x) .ok = some (.ok (), s.moveSaga .failed x .compensating) := rfl

/-- A cancellation cannot violate a constraint. -/
theorem exec_cancel_ok (s : State) (origin : Origin) (id : Nat) :
    ∃ t n, s.tables.updateStatusQuery .unsubscribed id = .ok (t, n) ∧
      exec s (.stmtUpdateStatus origin .unsubscribed id) .ok = some (.ok (.ok n),
        ({ s with tables := t } : State).logStatus origin .unsubscribed id (.ok (.ok n))) := by
  obtain ⟨t, ht⟩ := Tables.updateStatusQuery_unsubscribed s.tables id
  refine ⟨t, _, ht, ?_⟩
  simp [exec, ht, attemptUpdate, attempt, Except.map]

/-! ## Frame -/

/-- What an operation does not write. -/
structure Frame (o : Op) (s s' : State) : Prop where
  tables : o.part ≠ .tables → s'.tables = s.tables ∧ s'.statusLog = s.statusLog
  sagas : o.part ≠ .sagas → s'.sagas = s.sagas
  waiting : o.part ≠ .waiting → s'.waiters = s.waiters ∧ s'.chans = s.chans
  broker : o.part ≠ .broker → s'.commands = s.commands
  now : s'.now = s.now
  calls : s'.calls = s.calls

/-- Nothing has changed. -/
theorem Frame.same (o : Op) (s : State) : Frame o s s :=
  ⟨fun _ => ⟨rfl, rfl⟩, fun _ => rfl, fun _ => ⟨rfl, rfl⟩, fun _ => rfl, rfl, rfl⟩

/-- A send touches its channel and nothing else. -/
theorem offer_frame (s : State) (ch : Nat) (st : SagaState) :
    (s.offer ch st).tables = s.tables ∧ (s.offer ch st).statusLog = s.statusLog ∧
      (s.offer ch st).sagas = s.sagas ∧ (s.offer ch st).commands = s.commands ∧
      (s.offer ch st).now = s.now ∧ (s.offer ch st).calls = s.calls ∧
      (s.offer ch st).waiters = s.waiters := by
  unfold State.offer
  split
  · split <;> exact ⟨rfl, rfl, rfl, rfl, rfl, rfl, rfl⟩
  · exact ⟨rfl, rfl, rfl, rfl, rfl, rfl, rfl⟩

/-- Everything but the two tables and the log. -/
def State.withoutTables (s : State) :=
  (s.sagas, s.waiters, s.chans, s.commands, s.now, s.calls)

/-- Everything but the saga table. -/
def State.withoutSagas (s : State) :=
  (s.tables, s.statusLog, s.waiters, s.chans, s.commands, s.now, s.calls)

theorem Frame.of_withoutTables (ho : o.part = .tables)
    (h : s'.withoutTables = s.withoutTables) : Frame o s s' := by
  simp only [State.withoutTables, Prod.mk.injEq] at h
  obtain ⟨h₁, h₂, h₃, h₄, h₅, h₆⟩ := h
  exact ⟨fun hne => absurd ho hne, fun _ => h₁, fun _ => ⟨h₂, h₃⟩, fun _ => h₄, h₅, h₆⟩

theorem Frame.of_withoutSagas (ho : o.part = .sagas)
    (h : s'.withoutSagas = s.withoutSagas) : Frame o s s' := by
  simp only [State.withoutSagas, Prod.mk.injEq] at h
  obtain ⟨h₁, h₂, h₃, h₄, h₅, h₆, h₇⟩ := h
  exact ⟨fun _ => ⟨h₁, h₂⟩, fun hne => absurd ho hne, fun _ => ⟨h₃, h₄⟩, fun _ => h₅, h₆, h₇⟩

/-- An operation writes its own part only. -/
theorem exec_frame (h : exec s o ch = some (r, s')) : Frame o s s' := by
  cases o with
  | githubRepoExists owner name =>
    cases ch <;> simp only [exec, Option.some.injEq, Prod.mk.injEq, reduceCtorEq] at h
    · rw [← h.2]; exact .same _ s
    · rw [← h.2]; exact .same _ s
  | stmtGetByEmailAndRepo k => rw [(exec_getByEmailAndRepo h).1]; exact .same _ s
  | stmtGetByToken token => rw [(exec_getByToken h).1]; exact .same _ s
  | stmtUpdateToken newToken id oldToken =>
    -- a statement on the tables, whatever its outcome, leaves the rest of the state alone
    refine .of_withoutTables rfl ?_
    rcases exec_updateToken h with ⟨rfl, _⟩ | ⟨t, n, _, rfl, _⟩ <;> rfl
  | stmtUpsert owner name =>
    refine .of_withoutTables rfl ?_
    rcases exec_upsert h with ⟨rfl, _⟩ | rfl <;> rfl
  | stmtCreate k token status =>
    refine .of_withoutTables rfl ?_
    rcases exec_create h with ⟨rfl, _⟩ | ⟨t, _, rfl, _⟩ <;> rfl
  | stmtUpdateStatus origin status id =>
    refine .of_withoutTables rfl ?_
    rcases exec_updateStatus h with ⟨e, _, _, rfl⟩ | ⟨t, n, _, rfl, _⟩ <;> rfl
  | sagaCreate id data timeout =>
    -- likewise for the saga rows
    refine .of_withoutSagas rfl ?_
    rcases exec_sagaCreate h with ⟨rfl, _⟩ | ⟨_, rfl⟩ <;> rfl
  | sagaGet id =>
    rw [(exec_sagaGet h).1]; exact .same _ s
  | sagaCompleteIfAwaiting id =>
    refine .of_withoutSagas rfl ?_
    rcases exec_complete h with ⟨rfl, _⟩ | ⟨rfl, _⟩ <;> rfl
  | sagaClaimCompensation id =>
    refine .of_withoutSagas rfl ?_
    rcases exec_claim h with ⟨rfl, _⟩ | ⟨rfl, _⟩ <;> rfl
  | sagaMarkCompensated id =>
    refine .of_withoutSagas rfl ?_
    rcases exec_mark h with ⟨rfl, _⟩ | rfl <;> rfl
  | sagaListTimedOut limit => rw [(exec_listTimedOut h).1]; exact .same _ s
  | ctxErr =>
    cases ch <;> simp only [exec, Option.some.injEq, Prod.mk.injEq, reduceCtorEq] at h
    rw [← h.2]; exact .same _ s
  | publish routingKey body =>
    have hs : s' = { s with commands := s'.commands } := by
      rcases exec_publish h with ⟨rfl, _⟩ | rfl <;> rfl
    rw [hs]
    exact ⟨fun _ => ⟨rfl, rfl⟩, fun _ => rfl, fun _ => ⟨rfl, rfl⟩, fun hne => absurd rfl hne,
      rfl, rfl⟩
  | registerWaiter sagaID =>
    cases ch <;> simp only [exec, Option.some.injEq, Prod.mk.injEq, reduceCtorEq] at h
    rw [← h.2]
    exact ⟨fun _ => ⟨rfl, rfl⟩, fun _ => rfl, fun hne => absurd rfl hne, fun _ => rfl, rfl, rfl⟩
  | unregisterWaiter sagaID =>
    cases ch <;> simp only [exec, Option.some.injEq, Prod.mk.injEq, reduceCtorEq] at h
    rw [← h.2]
    exact ⟨fun _ => ⟨rfl, rfl⟩, fun _ => rfl, fun hne => absurd rfl hne, fun _ => rfl, rfl, rfl⟩
  | lookupWaiter sagaID =>
    cases ch <;> simp only [exec, Option.some.injEq, Prod.mk.injEq, reduceCtorEq] at h
    rw [← h.2]; exact .same _ s
  | trySend n state =>
    cases ch <;> simp only [exec, Option.some.injEq, Prod.mk.injEq, reduceCtorEq] at h
    rw [← h.2]
    -- a send that is dropped changes nothing at all
    obtain ⟨h₁, h₂, h₃, h₄, h₅, h₆, _⟩ := offer_frame s n state
    exact ⟨fun _ => ⟨h₁, h₂⟩, fun _ => h₃, fun hne => absurd rfl hne, fun _ => h₄, h₅, h₆⟩
  | await n =>
    have hs : s' = { s with chans := s'.chans } := by
      cases ch <;> simp only [exec, Option.some.injEq, Prod.mk.injEq, reduceCtorEq] at h
      · split at h
        · simp only [Option.some.injEq, Prod.mk.injEq] at h
          rw [← h.2]
        · cases h
      · rw [← h.2]
      · rw [← h.2]
    rw [hs]
    exact ⟨fun _ => ⟨rfl, rfl⟩, fun _ => rfl, fun hne => absurd rfl hne, fun _ => rfl, rfl, rfl⟩

/-! ## Subscription rows -/

/-- What an operation may do to the subscription rows. -/
inductive RowStep (s s' : State) : Op → Prop
  | stay {o : Op} (rows : ∀ i, s'.tables.byID i = s.tables.byID i)
      (next : s'.tables.nextSubscriptionID = s.tables.nextSubscriptionID) : RowStep s s' o
  | status {origin : Origin} {status : Status} {id : Nat}
      (rows : ∀ i, s'.tables.byID i
        = (s.tables.byID i).map (fun r => if i = id then { r with status := status } else r))
      (next : s'.tables.nextSubscriptionID = s.tables.nextSubscriptionID) :
      RowStep s s' (.stmtUpdateStatus origin status id)
  | token {newToken oldToken : String} {id : Nat} {row : Subscription}
      (found : s.tables.byID id = some row) (old : row.token = oldToken)
      (rows : ∀ i, s'.tables.byID i
        = (s.tables.byID i).map (fun r => if i = id then { r with token := newToken } else r))
      (next : s'.tables.nextSubscriptionID = s.tables.nextSubscriptionID) :
      RowStep s s' (.stmtUpdateToken newToken id oldToken)
  | create {k : Key} {token : String} {status : Status}
      (rows : ∀ i, s'.tables.byID i = if i = s.tables.nextSubscriptionID
        then some (s.tables.newRow k token status) else s.tables.byID i)
      (next : s'.tables.nextSubscriptionID = s.tables.nextSubscriptionID + 1) :
      RowStep s s' (.stmtCreate k token status)

theorem RowStep.of_tables (h : s'.tables = s.tables) : RowStep s s' o :=
  .stay (fun _ => by rw [h]) (by rw [h])

/-- All that an operation does to the subscription rows. -/
theorem exec_rows (h : exec s o ch = some (r, s')) : RowStep s s' o := by
  by_cases ho : o.part = .tables
  · cases o with
    | stmtUpdateToken newToken id oldToken =>
      rcases exec_updateToken h with ⟨rfl, _⟩ | ⟨t, n, ht, rfl, _⟩
      · exact .of_tables rfl
      · rcases Tables.updateTokenQuery_ok ht with ⟨_, rfl, _⟩ | ⟨_, row, hrow, hold, hrows, hnext⟩
        · exact .of_tables rfl
        · exact .token hrow hold hrows hnext
    | stmtUpsert owner name =>
      rcases exec_upsert h with ⟨rfl, _⟩ | rfl
      · exact .of_tables rfl
      · exact .stay (fun i => Tables.byID_upsertQuery _ _ _ i)
          (Tables.nextSubscriptionID_upsertQuery _ _ _)
    | stmtCreate k token status =>
      rcases exec_create h with ⟨rfl, _⟩ | ⟨t, ht, rfl, _⟩
      · exact .of_tables rfl
      · obtain ⟨hrows, hnext⟩ := Tables.createQuery_ok ht
        exact .create hrows hnext
    | stmtUpdateStatus origin status id =>
      rcases exec_updateStatus h with ⟨e, _, _, rfl⟩ | ⟨t, n, ht, rfl, _⟩
      · exact .of_tables rfl
      · obtain ⟨hrows, _, hnext⟩ := Tables.updateStatusQuery_ok ht
        exact .status hrows hnext
    | _ => simp [Op.part] at ho
  · exact .of_tables ((exec_frame h).tables ho).1

/-! ## Saga rows -/

/-- What an operation may do to the saga rows. -/
inductive SagaStep (s s' : State) : Op → Prop
  | stay {o : Op} (rows : s'.sagas = s.sagas) : SagaStep s s' o
  | create {id : String} {data : SubscriptionData} {timeout : Nat}
      (absent : s.sagas.get id = none)
      (rows : ∀ x, s'.sagas.get x = if x = id
        then some ⟨id, .awaitingConfirmation, data, s.now + timeout⟩ else s.sagas.get x) :
      SagaStep s s' (.sagaCreate id data timeout)
  | complete {id : String}
      (rows : s'.sagas = s.sagas.transition .completed id .awaitingConfirmation) :
      SagaStep s s' (.sagaCompleteIfAwaiting id)
  | claim {id : String}
      (rows : s'.sagas = s.sagas.transition .compensating id .awaitingConfirmation) :
      SagaStep s s' (.sagaClaimCompensation id)
  | mark {id : String} (rows : s'.sagas = s.sagas.transition .failed id .compensating) :
      SagaStep s s' (.sagaMarkCompensated id)

/-- All that it does to the sagas. -/
theorem exec_sagas (h : exec s o ch = some (r, s')) : SagaStep s s' o := by
  by_cases ho : o.part = .sagas
  · cases o with
    | sagaCreate id data timeout =>
      rcases exec_sagaCreate h with ⟨rfl, _⟩ | ⟨hnone, rfl⟩
      · exact .stay rfl
      · exact .create hnone (SagaTable.get_insert hnone)
    | sagaCompleteIfAwaiting id =>
      rcases exec_complete h with ⟨rfl, _⟩ | ⟨rfl, _⟩
      · exact .stay rfl
      · exact .complete rfl
    | sagaClaimCompensation id =>
      rcases exec_claim h with ⟨rfl, _⟩ | ⟨rfl, _⟩
      · exact .stay rfl
      · exact .claim rfl
    | sagaMarkCompensated id =>
      rcases exec_mark h with ⟨rfl, _⟩ | rfl
      · exact .stay rfl
      · exact .mark rfl
    | _ => simp [Op.part] at ho
  · exact .stay ((exec_frame h).sagas ho)

/-! ## The log of status writes -/

/-- What an operation may do to the log. -/
inductive LogStep (s s' : State) : Op → Prop
  | stay {o : Op} (log : s'.statusLog = s.statusLog) : LogStep s s' o
  | write {origin : Origin} {status : Status} {id : Nat} {succeeded : Bool}
      (log : s'.statusLog = ⟨origin, id, status, succeeded⟩ :: s.statusLog) :
      LogStep s s' (.stmtUpdateStatus origin status id)

/-- All that it records. -/
theorem exec_log (h : exec s o ch = some (r, s')) : LogStep s s' o := by
  by_cases ho : o.part = .tables
  · cases o with
    | stmtUpdateStatus origin status id =>
      rcases exec_updateStatus h with ⟨e, _, _, rfl⟩ | ⟨t, n, ht, rfl, _⟩
      · exact .write rfl
      · exact .write rfl
    | stmtUpdateToken newToken id oldToken =>
      rcases exec_updateToken h with ⟨rfl, _⟩ | ⟨t, n, _, rfl, _⟩
      · exact .stay rfl
      · exact .stay rfl
    | stmtUpsert owner name =>
      rcases exec_upsert h with ⟨rfl, _⟩ | rfl <;> exact .stay rfl
    | stmtCreate k token status =>
      rcases exec_create h with ⟨rfl, _⟩ | ⟨t, _, rfl, _⟩
      · exact .stay rfl
      · exact .stay rfl
    | _ => simp [Op.part] at ho
  · exact .stay ((exec_frame h).tables ho).2

/-! ## Waiters and channels -/

/-- What an operation may do to the waiter map and the channels. -/
inductive WaitStep (s s' : State) : Op → Prop
  | stay {o : Op} (waiters : s'.waiters = s.waiters) (chans : s'.chans = s.chans) : WaitStep s s' o
  | register {sagaID : String}
      (waiters : s'.waiters = Function.update s.waiters sagaID (some s.chans.length))
      (chans : s'.chans = s.chans ++ [⟨sagaID, none⟩]) : WaitStep s s' (.registerWaiter sagaID)
  | unregister {sagaID : String} (waiters : s'.waiters = Function.update s.waiters sagaID none)
      (chans : s'.chans = s.chans) : WaitStep s s' (.unregisterWaiter sagaID)
  | send {n : Nat} {state : SagaState} {c : Chan} (waiters : s'.waiters = s.waiters)
      (found : s.chans[n]? = some c) (chans : s'.chans = s.chans.set n { c with buf := some state }) :
      WaitStep s s' (.trySend n state)
  | receive {n : Nat} {c : Chan} (waiters : s'.waiters = s.waiters)
      (found : s.chans[n]? = some c) (chans : s'.chans = s.chans.set n { c with buf := none }) :
      WaitStep s s' (.await n)

/-- All that it does to waiters and channels. -/
theorem exec_waiting (h : exec s o ch = some (r, s')) : WaitStep s s' o := by
  by_cases ho : o.part = .waiting
  · cases o with
    | registerWaiter sagaID =>
      cases ch <;> simp only [exec, Option.some.injEq, Prod.mk.injEq, reduceCtorEq] at h
      rw [← h.2]
      exact .register rfl rfl
    | unregisterWaiter sagaID =>
      cases ch <;> simp only [exec, Option.some.injEq, Prod.mk.injEq, reduceCtorEq] at h
      rw [← h.2]
      exact .unregister rfl rfl
    | trySend n state =>
      cases ch <;> simp only [exec, Option.some.injEq, Prod.mk.injEq, reduceCtorEq] at h
      rw [← h.2]
      -- into an empty channel, into a full one, or into none
      unfold State.offer
      split
      · next c hc =>
        split
        · exact .send rfl hc rfl
        · exact .stay rfl rfl
      · exact .stay rfl rfl
    | await n =>
      cases ch <;> simp only [exec, Option.some.injEq, Prod.mk.injEq, reduceCtorEq] at h
      · split at h
        · next sagaID final hc =>
          simp only [Option.some.injEq, Prod.mk.injEq] at h
          rw [← h.2]
          exact .receive rfl hc rfl
        · cases h
      · rw [← h.2]; exact .stay rfl rfl
      · rw [← h.2]; exact .stay rfl rfl
    | _ => simp [Op.part] at ho
  · obtain ⟨hw, hc⟩ := (exec_frame h).waiting ho
    exact .stay hw hc

/-! ## What no step undoes -/

/-- The later state still knows what the earlier one knew: saga rows keep their
data and move along the life cycle, subscription rows stay and keep their key,
channels stay, and the records of the past only grow. -/
structure Evolves (s s' : State) : Prop where
  sagas : ∀ {x inst}, s.sagas.get x = some inst → ∃ inst', s'.sagas.get x = some inst' ∧
    inst'.data = inst.data ∧ inst'.timeoutAt = inst.timeoutAt ∧
    SagaState.Follows inst.state inst'.state
  rows : ∀ {id row}, s.tables.byID id = some row → ∃ row', s'.tables.byID id = some row' ∧
    row'.key = row.key
  chans : ∀ {n : Nat} {c : Chan}, s.chans[n]? = some c → ∃ c', s'.chans[n]? = some c' ∧
    c'.sagaID = c.sagaID
  log : ∀ w ∈ s.statusLog, w ∈ s'.statusLog
  commands : ∀ b ∈ s.commands, b ∈ s'.commands
  calls : ∀ c ∈ s.calls, c ∈ s'.calls
  now : s.now ≤ s'.now

theorem Evolves.refl (s : State) : Evolves s s :=
  ⟨fun {_ inst} h => ⟨inst, h, rfl, rfl, .refl _⟩, fun {_ row} h => ⟨row, h, rfl⟩,
    fun {_ c} h => ⟨c, h, rfl⟩, fun _ h => h, fun _ h => h, fun _ h => h, Nat.le_refl _⟩

theorem Evolves.trans {s₁ s₂ s₃ : State} (h : Evolves s₁ s₂) (h' : Evolves s₂ s₃) :
    Evolves s₁ s₃ where
  sagas hx := by
    obtain ⟨i, hi, hd, ht, hf⟩ := h.sagas hx
    obtain ⟨j, hj, hd', ht', hf'⟩ := h'.sagas hi
    exact ⟨j, hj, hd'.trans hd, ht'.trans ht, hf.trans hf'⟩
  rows hr := by
    obtain ⟨i, hi, hk⟩ := h.rows hr
    obtain ⟨j, hj, hk'⟩ := h'.rows hi
    exact ⟨j, hj, hk'.trans hk⟩
  chans hc := by
    obtain ⟨i, hi, hk⟩ := h.chans hc
    obtain ⟨j, hj, hk'⟩ := h'.chans hi
    exact ⟨j, hj, hk'.trans hk⟩
  log w hw := h'.log w (h.log w hw)
  commands b hb := h'.commands b (h.commands b hb)
  calls c hc := h'.calls c (h.calls c hc)
  now := Nat.le_trans h.now h'.now

/-- Sagas after one operation. -/
theorem SagaStep.follows (h : SagaStep s s' o) {inst : Instance} (hx : s.sagas.get x = some inst) :
    ∃ inst', s'.sagas.get x = some inst' ∧
      inst'.data = inst.data ∧ inst'.timeoutAt = inst.timeoutAt ∧
      SagaState.Edge inst.state inst'.state := by
  -- the three conditional updates differ in the edge they take
  have hmove : ∀ {dst src : SagaState} {id : String}, SagaState.Edge src dst →
      s'.sagas = s.sagas.transition dst id src → ∃ inst', s'.sagas.get x = some inst' ∧
        inst'.data = inst.data ∧ inst'.timeoutAt = inst.timeoutAt ∧
        SagaState.Edge inst.state inst'.state := by
    intro dst src id hedge hrows
    rw [hrows, SagaTable.get_transition, hx, Option.map_some]
    refine ⟨_, rfl, ?_⟩
    by_cases hc : x = id ∧ inst.state = src
    · rw [if_pos hc]
      exact ⟨rfl, rfl, hc.2 ▸ hedge⟩
    · rw [if_neg hc]
      exact ⟨rfl, rfl, .stay _⟩
  cases h with
  | stay rows => rw [rows]; exact ⟨inst, hx, rfl, rfl, .stay _⟩
  | @create id data timeout absent rows =>
    rw [rows]
    by_cases hid : x = id
    · rw [hid, absent] at hx; cases hx
    · rw [if_neg hid]; exact ⟨inst, hx, rfl, rfl, .stay _⟩
  | complete rows => exact hmove .complete rows
  | claim rows => exact hmove .claim rows
  | mark rows => exact hmove .compensated rows

/-- A saga that an operation brings into being is awaiting its confirmation. -/
theorem SagaStep.created (h : SagaStep s s' o) {inst : Instance} (hnone : s.sagas.get x = none)
    (hx : s'.sagas.get x = some inst) :
    ∃ timeout, o = .sagaCreate x inst.data timeout ∧ inst.state = .awaitingConfirmation ∧
      inst.timeoutAt = s.now + timeout := by
  have hmove : ∀ {dst src : SagaState} {id : String},
      s'.sagas = s.sagas.transition dst id src → False := by
    intro dst src id hrows
    rw [hrows, SagaTable.get_transition, hnone] at hx
    cases hx
  cases h with
  | stay rows => rw [rows, hnone] at hx; cases hx
  | @create id data timeout absent rows =>
    rw [rows] at hx
    by_cases hid : x = id
    · rw [if_pos hid, Option.some.injEq] at hx
      subst hx
      subst hid
      exact ⟨timeout, rfl, rfl, rfl⟩
    · rw [if_neg hid, hnone] at hx; cases hx
  | complete rows => exact (hmove rows).elim
  | claim rows => exact (hmove rows).elim
  | mark rows => exact (hmove rows).elim

/-- A completed saga was completed before, or the operation was the one that
completes it. -/
theorem SagaStep.completed (h : SagaStep s s' o) {inst' : Instance}
    (hx : s'.sagas.get x = some inst') (hst : inst'.state = .completed) :
    (∃ inst, s.sagas.get x = some inst ∧ inst.state = .completed) ∨
      o = .sagaCompleteIfAwaiting x := by
  -- a row that was not moved to completed by this operation was there before
  have hmoved : ∀ {dst src : SagaState} {id : String},
      s'.sagas = s.sagas.transition dst id src → (x = id → dst ≠ .completed) →
      ∃ inst, s.sagas.get x = some inst ∧ inst.state = .completed := by
    intro dst src id hrows hdst
    rw [hrows, SagaTable.get_transition] at hx
    obtain ⟨inst, hget, rfl⟩ := Option.map_eq_some_iff.mp hx
    split at hst
    · next hid => exact absurd hst (hdst hid.1)
    · exact ⟨inst, hget, hst⟩
  cases h with
  | stay rows => rw [rows] at hx; exact .inl ⟨inst', hx, hst⟩
  | create _ rows =>
    rw [rows] at hx
    split at hx
    · cases hx
      cases hst
    · exact .inl ⟨inst', hx, hst⟩
  | @complete id rows =>
    by_cases hid : x = id
    · rw [hid]
      exact .inr rfl
    · exact .inl (hmoved rows (fun h => absurd h hid))
  | claim rows => exact .inl (hmoved rows (fun _ => nofun))
  | mark rows => exact .inl (hmoved rows (fun _ => nofun))

/-- Only `MarkCompensated` on the saga itself makes it fail. -/
theorem SagaStep.marked (h : SagaStep s s' o) {inst inst' : Instance}
    (hx : s.sagas.get x = some inst) (hx' : s'.sagas.get x = some inst')
    (hne : inst.state ≠ .failed) (hst : inst'.state = .failed) : o = .sagaMarkCompensated x := by
  -- the other two conditional updates lead elsewhere
  have hmove : ∀ {dst src : SagaState} {id : String},
      s'.sagas = s.sagas.transition dst id src → dst = .failed ∧ id = x := by
    intro dst src id hrows
    rw [hrows, SagaTable.get_transition, hx, Option.map_some, Option.some.injEq] at hx'
    by_cases hc : x = id ∧ inst.state = src
    · rw [if_pos hc] at hx'
      rw [← hx'] at hst
      exact ⟨hst, hc.1.symm⟩
    · rw [if_neg hc] at hx'
      rw [← hx'] at hst
      exact absurd hst hne
  cases h with
  | stay rows =>
    rw [rows, hx, Option.some.injEq] at hx'
    exact absurd (hx' ▸ hst) hne
  | @create id data timeout absent rows =>
    rw [rows] at hx'
    by_cases hid : x = id
    · rw [hid, absent] at hx
      cases hx
    · rw [if_neg hid, hx, Option.some.injEq] at hx'
      exact absurd (hx' ▸ hst) hne
  | complete rows => cases (hmove rows).1
  | claim rows => cases (hmove rows).1
  | mark rows => rw [(hmove rows).2]

/-- What an operation may do to one row. -/
inductive RowChange (row row' : Subscription) (id : Nat) : Op → Prop
  | same {o : Op} (eq : row' = row) : RowChange row row' id o
  | status {origin : Origin} {status : Status} (eq : row' = { row with status := status }) :
      RowChange row row' id (.stmtUpdateStatus origin status id)
  | token {newToken oldToken : String} (old : row.token = oldToken)
      (eq : row' = { row with token := newToken }) :
      RowChange row row' id (.stmtUpdateToken newToken id oldToken)

/-- A row stays, as it was or changed by the operation that names it. -/
theorem RowStep.row (h : RowStep s s' o) {id : Nat} {row : Subscription}
    (hr : s.tables.byID id = some row) :
    ∃ row', s'.tables.byID id = some row' ∧ RowChange row row' id o := by
  cases h with
  | stay rows => exact ⟨row, by rw [rows]; exact hr, .same rfl⟩
  | @status origin status id' rows =>
    rw [rows, hr, Option.map_some]
    refine ⟨_, rfl, ?_⟩
    by_cases hid : id = id'
    · subst hid
      rw [if_pos rfl]
      exact .status rfl
    · rw [if_neg hid]
      exact .same rfl
  | @token newToken oldToken id' row' found old rows =>
    rw [rows, hr, Option.map_some]
    refine ⟨_, rfl, ?_⟩
    by_cases hid : id = id'
    · subst hid
      rw [hr, Option.some.injEq] at found
      subst found
      rw [if_pos rfl]
      exact .token old rfl
    · rw [if_neg hid]
      exact .same rfl
  | create rows =>
    -- the new row has an id beyond those in use
    rw [rows, if_neg (Nat.ne_of_lt (Tables.byID_lt hr))]
    exact ⟨row, hr, .same rfl⟩

/-- A row that an operation brings into being is the one `Create` inserts. -/
theorem RowStep.created (h : RowStep s s' o) {id : Nat} {row' : Subscription}
    (hnone : s.tables.byID id = none) (hr : s'.tables.byID id = some row') :
    ∃ k token status, o = .stmtCreate k token status ∧ id = s.tables.nextSubscriptionID ∧
      row' = s.tables.newRow k token status := by
  cases h with
  | stay rows => rw [rows, hnone] at hr; cases hr
  | status rows => rw [rows, hnone] at hr; cases hr
  | token _ _ rows => rw [rows, hnone] at hr; cases hr
  | @create k token status rows =>
    rw [rows] at hr
    by_cases hid : id = s.tables.nextSubscriptionID
    · rw [if_pos hid, Option.some.injEq] at hr
      exact ⟨k, token, status, rfl, hid, hr.symm⟩
    · rw [if_neg hid, hnone] at hr
      cases hr

/-- No operation changes the key of a row. -/
theorem RowChange.key {row row' : Subscription} {id : Nat} (h : RowChange row row' id o) :
    row'.key = row.key := by
  cases h with
  | same eq => rw [eq]
  | status eq => rw [eq]; rfl
  | token _ eq => rw [eq]; rfl

/-- The row whose token an operation replaces. -/
def Op.refreshes? : Op → Option Nat
  | .stmtUpdateToken _ id _ => some id
  | _ => none

/-- Row `id` carries this token. -/
def Carries (id : Nat) (token : String) (s : State) : Prop :=
  ∃ row, s.tables.byID id = some row ∧ row.token = token

/-- A row keeps its token unless it is refreshed. -/
theorem Carries.step {id : Nat} {token : String} (h : Carries id token s)
    (hx : exec s o ch = some (r, s')) (hne : o.refreshes? ≠ some id) : Carries id token s' := by
  obtain ⟨row, hrow, htok⟩ := h
  obtain ⟨row', hrow', hchange⟩ := (exec_rows hx).row hrow
  refine ⟨row', hrow', ?_⟩
  cases hchange with
  | same eq => rw [eq]; exact htok
  | status eq => rw [eq]; exact htok
  | token _ eq => exact absurd rfl hne

/-- What is in a channel was in it before, or has just been sent. -/
theorem WaitStep.buffered (h : WaitStep s s' o) {d : Chan} {st : SagaState}
    (hd : s'.chans[n]? = some d) (hbuf : d.buf = some st) :
    s.chans[n]? = some d ∨
      ∃ e, o = .trySend n st ∧ s.chans[n]? = some e ∧ e.sagaID = d.sagaID := by
  cases h with
  | stay _ chans => exact .inl (chans ▸ hd)
  | register _ chans =>
    rw [chans] at hd
    rcases getElem?_append_singleton hd with hold | ⟨_, rfl⟩
    · exact .inl hold
    · cases hbuf
  | unregister _ chans => exact .inl (chans ▸ hd)
  | @send m state e _ found chans =>
    rw [chans] at hd
    rcases getElem?_set_cases hd with ⟨rfl, rfl⟩ | ⟨_, hold⟩
    · cases hbuf
      exact .inr ⟨e, rfl, found, rfl⟩
    · exact .inl hold
  | receive _ found chans =>
    rw [chans] at hd
    rcases getElem?_set_cases hd with ⟨rfl, rfl⟩ | ⟨_, hold⟩
    · cases hbuf
    · exact .inl hold

/-- Channels stay, for their saga. -/
theorem WaitStep.persists (h : WaitStep s s' o) {c : Chan} (hc : s.chans[n]? = some c) :
    ∃ c', s'.chans[n]? = some c' ∧ c'.sagaID = c.sagaID := by
  have hset : ∀ {m : Nat} {d : Chan} {b : Option SagaState}, s.chans[m]? = some d →
      s'.chans = s.chans.set m { d with buf := b } →
      ∃ c', s'.chans[n]? = some c' ∧ c'.sagaID = c.sagaID := by
    intro m d b hd hchans
    rw [hchans, List.getElem?_set]
    by_cases hmn : m = n
    · subst hmn
      rw [hc, Option.some.injEq] at hd
      subst hd
      rw [if_pos rfl, if_pos (List.getElem?_eq_some_iff.mp hc).1]
      exact ⟨_, rfl, rfl⟩
    · rw [if_neg hmn]
      exact ⟨c, hc, rfl⟩
  cases h with
  | stay _ chans => rw [chans]; exact ⟨c, hc, rfl⟩
  | register _ chans =>
    rw [chans, List.getElem?_append_left (List.getElem?_eq_some_iff.mp hc).1]
    exact ⟨c, hc, rfl⟩
  | unregister _ chans => rw [chans]; exact ⟨c, hc, rfl⟩
  | send _ found chans => exact hset found chans
  | receive _ found chans => exact hset found chans

/-- Records stay. -/
theorem LogStep.grows (h : LogStep s s' o) : ∀ w ∈ s.statusLog, w ∈ s'.statusLog := by
  cases h with
  | stay log => rw [log]; exact fun _ hw => hw
  | write log => rw [log]; exact fun _ hw => List.mem_cons_of_mem _ hw

/-- Only a publish adds a command. -/
theorem exec_commands (h : exec s o ch = some (r, s')) :
    s'.commands = s.commands ∨ ∃ key body, o = .publish key body ∧
      s'.commands = body :: s.commands := by
  by_cases ho : o.part = .broker
  · cases o with
    | publish key body =>
      rcases exec_publish h with ⟨rfl, _⟩ | rfl
      · exact .inl rfl
      · exact .inr ⟨key, body, rfl, rfl⟩
    | _ => simp [Op.part] at ho
  · exact .inl ((exec_frame h).broker ho)

/-- **No operation undoes what `Evolves` lists.** -/
theorem exec_evolves (h : exec s o ch = some (r, s')) : Evolves s s' := by
  have hf := exec_frame h
  refine ⟨fun hx => ?_, fun hr => ?_, (exec_waiting h).persists, (exec_log h).grows,
    fun b hb => ?_, fun c hc => hf.calls ▸ hc, Nat.le_of_eq hf.now.symm⟩
  · obtain ⟨inst', h₁, h₂, h₃, h₄⟩ := (exec_sagas h).follows hx
    exact ⟨inst', h₁, h₂, h₃, h₄.follows⟩
  · obtain ⟨row', hr', hchange⟩ := (exec_rows h).row hr
    exact ⟨row', hr', hchange.key⟩
  · rcases exec_commands h with hc | ⟨_, body, _, hc⟩
    · rw [hc]; exact hb
    · rw [hc]; exact List.mem_cons_of_mem _ hb

end Exec

variable {s s' : State}

/-- What making a call changes. -/
theorem enter_eq {c : Call} (h : enter c s = some s') :
    s.fresh c = true ∧ s' = { s with calls := c :: s.calls } := by
  unfold enter at h
  split at h
  · next hfresh => exact ⟨hfresh, (Option.some.inj h).symm⟩
  · cases h

theorem enter_evolves {c : Call} (h : enter c s = some s') : Evolves s s' := by
  rw [(enter_eq h).2]
  exact { Evolves.refl s with calls := fun _ hc => List.mem_cons_of_mem _ hc }

/-- Time passes or the waiters are lost. -/
theorem world_eq {e : WorldEvent} (h : world e s = some s') :
    (∃ d, s' = { s with now := s.now + d }) ∨ s' = { s with waiters := fun _ => none } := by
  cases e with
  | tick d => exact .inl ⟨d, (Option.some.inj h).symm⟩
  | restart => exact .inr (Option.some.inj h).symm

theorem world_evolves {e : WorldEvent} (h : world e s = some s') : Evolves s s' := by
  rcases world_eq h with ⟨d, rfl⟩ | rfl
  · exact { Evolves.refl s with now := Nat.le_add_right _ _ }
  · exact { Evolves.refl s with }

section Runs

variable {D : Deps} {p p' : Pool Op Op.Res State Call Ret} {e : Event Choice Call WorldEvent}
variable {Cond : Pool Op Op.Res State Call Ret → Event Choice Call WorldEvent → Prop}
variable {es : List (Event Choice Call WorldEvent)}

/-- The database, the channels and the broker are as before. -/
structure Idle (s s' : State) : Prop where
  tables : s'.tables = s.tables
  sagas : s'.sagas = s.sagas
  chans : s'.chans = s.chans
  commands : s'.commands = s.commands
  statusLog : s'.statusLog = s.statusLog

/-- An event is an operation of a call, or it leaves all of that alone. -/
theorem step_cases (h : (monolith D).step p e = some p') :
    (∃ i ch th o k r, e = .run i ch ∧ p.threads[i]? = some th ∧ th.ended = none ∧
        th.prog = .op o k ∧ exec p.state o ch = some (r, p'.state)) ∨
      Idle p.state p'.state := by
  rcases (monolith D).step_state h with hrun | hsame | ⟨c, hc⟩ | ⟨w, hw⟩
  · exact .inl hrun
  · rw [hsame]
    exact .inr ⟨rfl, rfl, rfl, rfl, rfl⟩
  · rw [(enter_eq hc).2]
    exact .inr ⟨rfl, rfl, rfl, rfl, rfl⟩
  · rcases world_eq hw with ⟨d, heq⟩ | heq
    · rw [heq]
      exact .inr ⟨rfl, rfl, rfl, rfl, rfl⟩
    · rw [heq]
      exact .inr ⟨rfl, rfl, rfl, rfl, rfl⟩

/-- Neither calls, kills nor the world undo anything. -/
theorem step_evolves (h : (monolith D).step p e = some p') : Evolves p.state p'.state := by
  rcases (monolith D).step_state h with
    ⟨i, ch, th, o, k, r, _, _, _, _, hx⟩ | hsame | ⟨c, hc⟩ | ⟨w, hw⟩
  · exact exec_evolves hx
  · rw [hsame]
    exact .refl _
  · exact enter_evolves hc
  · exact world_evolves hw

/-- So nothing of it is undone in a whole run. -/
theorem run_evolves (h : (monolith D).Run Cond p es p') : Evolves p.state p'.state :=
  h.invariant (J := fun q => Evolves p.state q.state) (.refl _)
    (fun _ _ _ hq _ hs => hq.trans (step_evolves hs))

end Runs

end ReleaseNotifier
