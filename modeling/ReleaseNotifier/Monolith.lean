/-
The shared state of the monolith and its atomic operations.

An operation is one SQL statement, one publish, one critical section of the
orchestrator's waiter map, one channel operation or one call to GitHub; between
two of them any other request may run. `exec` says what an operation does and
answers under a choice of the environment. A statement may succeed, fail
without effect, or report an error although it took effect; a publish may fail
although the broker has the message; a `select` may take any branch that is
ready.

Random draws are made when a call is made (`Draws`): what `tokens.Generate` and
`tracectx.NewID` return if the call reaches them. The clock is read in the step
of the statement it parametrises. `calls` and `statusLog` record the past and
are read by no operation.

Prepared statements of `subscription.Repo` are not modelled; a statement that
cannot be prepared is one that fails without effect.
-/
import ReleaseNotifier.Conc.Pool
import ReleaseNotifier.Attempt
import ReleaseNotifier.Subscriptions
import ReleaseNotifier.Sagas
import ReleaseNotifier.Wire
import Mathlib.Logic.Function.Basic

set_option autoImplicit false

namespace ReleaseNotifier

/-- The part of a `context.Context` the code reads. -/
structure Context where
  traceID : Option String
  deriving DecidableEq, Repr

/-- What a call draws at random: the outcome of `tokens.Generate` and the id
of `tracectx.NewID`. -/
structure Draws where
  token : Except Fault String
  sagaID : String
  deriving DecidableEq

/-- The entry points of the monolith. `startAndWait` is called by `subscribe`
only; it is also a call of its own, for statements about it alone. -/
inductive Call
  | subscribe (ctx : Context) (rawEmail rawRepo : String) (draws : Draws)
  | confirm (token : String)
  | unsubscribe (token : String)
  | handleReply (body : Bytes)
  | reap
  | startAndWait (ctx : Context) (data : SubscriptionData) (sagaID : String)
  deriving DecidableEq

/-- The token a call draws. -/
def Call.token? : Call → Option String
  | .subscribe _ _ _ ⟨.ok token, _⟩ => some token
  | _ => none

/-- The saga id a call draws. -/
def Call.sagaID? : Call → Option String
  | .subscribe _ _ _ draws => some draws.sagaID
  | .startAndWait _ _ sagaID => some sagaID
  | _ => none

/-- On whose behalf a status is written. No statement reads it. -/
inductive Origin
  | confirm (token : String)
  | unsubscribe (token : String)
  | compensation (sagaID token : String)
  | rollback (token : String)
  deriving DecidableEq, Repr

/-- A status write that was issued, and whether success was reported. -/
structure StatusWrite where
  origin : Origin
  id : Nat
  status : Status
  succeeded : Bool
  deriving DecidableEq, Repr

/-- A waiter's channel, of capacity one, with the saga it was made for. -/
structure Chan where
  sagaID : String
  buf : Option SagaState
  deriving DecidableEq, Repr

/-- Database, orchestrator and broker as the monolith sees them. -/
structure State where
  now : Nat
  tables : Tables
  sagas : SagaTable
  waiters : String → Option Nat
  chans : List Chan
  commands : List Bytes
  calls : List Call
  statusLog : List StatusWrite

/-- The state before the first request. -/
def State.init : State where
  now := 0
  tables := .empty
  sagas := .empty
  waiters := fun _ => none
  chans := []
  commands := []
  calls := []
  statusLog := []

/-- How the `select` of `StartAndWait` ended. -/
inductive Woken
  | received (final : SagaState)
  | timeout
  | done (e : Err)
  deriving DecidableEq, Repr

/-- The atomic operations. -/
inductive Op
  | githubRepoExists (owner name : String)
  | stmtGetByEmailAndRepo (k : Key)
  | stmtGetByToken (token : String)
  | stmtUpdateToken (newToken : String) (id : Nat) (oldToken : String)
  | stmtUpsert (owner name : String)
  | stmtCreate (k : Key) (token : String) (status : Status)
  | stmtUpdateStatus (origin : Origin) (status : Status) (id : Nat)
  | sagaCreate (id : String) (data : SubscriptionData) (timeout : Nat)
  | sagaGet (id : String)
  | sagaCompleteIfAwaiting (id : String)
  | sagaClaimCompensation (id : String)
  | sagaMarkCompensated (id : String)
  | sagaListTimedOut (limit : Nat)
  | ctxErr
  | publish (routingKey : String) (body : Bytes)
  | registerWaiter (sagaID : String)
  | unregisterWaiter (sagaID : String)
  | lookupWaiter (sagaID : String)
  | trySend (ch : Nat) (state : SagaState)
  | await (ch : Nat)
  deriving DecidableEq

/-- What an operation answers. A query answers `none` for `sql.ErrNoRows`; an
update answers with the outcome of `RowsAffected`; a stored `data` column
answers with the outcome of `json.Unmarshal`. -/
abbrev Op.Res : Op → Type
  | .githubRepoExists _ _ => Except Err Bool
  | .stmtGetByEmailAndRepo _ => Except Err (Option Subscription)
  | .stmtGetByToken _ => Except Err (Option Subscription)
  | .stmtUpdateToken _ _ _ => Except Err (Except Err Nat)
  | .stmtUpsert _ _ => Except Err Unit
  | .stmtCreate _ _ _ => Except Err Nat
  | .stmtUpdateStatus _ _ _ => Except Err (Except Err Nat)
  | .sagaCreate _ _ _ => Except Err Unit
  | .sagaGet _ => Except Err (Option (Except Err Instance))
  | .sagaCompleteIfAwaiting _ => Except Err (Except Err Nat)
  | .sagaClaimCompensation _ => Except Err (Option (Except Err SubscriptionData))
  | .sagaMarkCompensated _ => Except Err Unit
  | .sagaListTimedOut _ => Except Err (List String)
  | .ctxErr => Bool
  | .publish _ _ => Except Err Unit
  | .registerWaiter _ => Nat
  | .unregisterWaiter _ => Unit
  | .lookupWaiter _ => Option Nat
  | .trySend _ _ => Unit
  | .await _ => Woken

/-! ## One operation -/

section Attempts

variable {α : Type}

/-- An update, whose answer goes through `RowsAffected`. -/
def attemptUpdate (s : State) (effect : Except Err (Nat × State)) :
    Choice → Option (Except Err (Except Err Nat) × State)
  | .noCount f =>
    match effect with
    | .ok (_, s') => some (.ok (.error f.err), s')
    | .error _ => none
  | ch => attempt s (effect.map (fun x => (.ok x.1, x.2))) ch

/-- A query for a row with a `data` column, which may not decode. -/
def attemptData (s : State) (found : Option α) (s' : State) :
    Choice → Option (Except Err (Option (Except Err α)) × State)
  | .badData f =>
    match found with
    | some _ => some (.ok (some (.error f.err)), s')
    | none => none
  | ch => attempt s (.ok (found.map .ok, s')) ch

end Attempts

/-- Enter a status write into the log. -/
def State.logStatus (s : State) (origin : Origin) (status : Status) (id : Nat)
    (r : Except Err (Except Err Nat)) : State :=
  { s with
    statusLog := ⟨origin, id, status, match r with | .ok (.ok _) => true | _ => false⟩
      :: s.statusLog }

/-- The effect of `INSERT INTO saga_instances`. -/
def State.createSaga (s : State) (inst : Instance) : Except Err (Unit × State) :=
  if h : s.sagas.get inst.id = none then .ok ((), { s with sagas := s.sagas.insert inst h })
  else .error (.pq pgUniqueViolation "saga_instances_pkey")

/-- The state column of saga `id` moves from `src` to `dst`, if it is there. -/
def State.moveSaga (s : State) (dst : SagaState) (id : String) (src : SagaState) : State :=
  { s with sagas := s.sagas.transition dst id src }

/-- `data` of the row that `UPDATE ... RETURNING data` hits. -/
def State.claimed (s : State) (id : String) : Option SubscriptionData :=
  match s.sagas.get id with
  | some inst => if inst.state = .awaitingConfirmation then some inst.data else none
  | none => none

/-- A send into a channel of capacity one that is dropped when it is full. -/
def State.offer (s : State) (ch : Nat) (state : SagaState) : State :=
  match s.chans[ch]? with
  | some c =>
    match c.buf with
    | none => { s with chans := s.chans.set ch { c with buf := some state } }
    | some _ => s
  | none => s

/-- What one operation does and answers. -/
def exec (s : State) : (o : Op) → Choice → Option (o.Res × State)
  | .githubRepoExists _ _ => fun
    | .answer b => some (.ok b, s)
    | .fail f => some (.error f.err, s)
    | _ => none
  | .stmtGetByEmailAndRepo k =>
    attempt s (.ok (s.tables.getByEmailAndRepoQuery k, s))
  | .stmtGetByToken token =>
    attempt s (.ok (s.tables.getByTokenQuery token, s))
  | .stmtUpdateToken newToken id oldToken =>
    attemptUpdate s ((s.tables.updateTokenQuery newToken id oldToken).map
      (fun x => (x.2, { s with tables := x.1 })))
  | .stmtUpsert owner name =>
    attempt s (.ok ((), { s with tables := s.tables.upsertQuery owner name }))
  | .stmtCreate k token status =>
    attempt s ((s.tables.createQuery k token status).map
      (fun t => (s.tables.nextSubscriptionID, { s with tables := t })))
  | .stmtUpdateStatus origin status id => fun ch =>
    (attemptUpdate s ((s.tables.updateStatusQuery status id).map
      (fun x => (x.2, { s with tables := x.1 }))) ch).map
        (fun x => (x.1, x.2.logStatus origin status id x.1))
  | .sagaCreate id data timeout =>
    attempt s (s.createSaga ⟨id, .awaitingConfirmation, data, s.now + timeout⟩)
  | .sagaGet id => attemptData s (s.sagas.get id) s
  | .sagaCompleteIfAwaiting id =>
    attemptUpdate s (.ok (s.sagas.hits id .awaitingConfirmation,
      s.moveSaga .completed id .awaitingConfirmation))
  | .sagaClaimCompensation id =>
    attemptData s (s.claimed id) (s.moveSaga .compensating id .awaitingConfirmation)
  | .sagaMarkCompensated id =>
    attempt s (.ok ((), s.moveSaga .failed id .compensating))
  | .sagaListTimedOut limit => attempt s (.ok (s.sagas.listTimedOut s.now limit, s))
  | .ctxErr => fun
    | .answer b => some (b, s)
    | _ => none
  | .publish _ body => attempt s (.ok ((), { s with commands := body :: s.commands }))
  | .registerWaiter sagaID => fun
    | .ok => some (s.chans.length,
        { s with
          waiters := Function.update s.waiters sagaID (some s.chans.length)
          chans := s.chans ++ [⟨sagaID, none⟩] })
    | _ => none
  | .unregisterWaiter sagaID => fun
    | .ok => some ((), { s with waiters := Function.update s.waiters sagaID none })
    | _ => none
  | .lookupWaiter sagaID => fun
    | .ok => some (s.waiters sagaID, s)
    | _ => none
  | .trySend ch state => fun
    | .ok => some ((), s.offer ch state)
    | _ => none
  | .await ch => fun
    | .receive =>
      match s.chans[ch]? with
      | some ⟨sagaID, some final⟩ =>
        some (.received final, { s with chans := s.chans.set ch ⟨sagaID, none⟩ })
      | _ => none
    | .timeout => some (.timeout, s)
    | .done f => some (.done f.err, s)
    | _ => none

/-! ## What an attempt can do -/

section Attempts

variable {α : Type} {s t : State} {ch : Choice}

/-- An update fails before it takes effect, or takes effect and may still report an error. -/
theorem attemptUpdate_cases {effect : Except Err (Nat × State)}
    {r : Except Err (Except Err Nat)} (h : attemptUpdate s effect ch = some (r, t)) :
    (∃ e, r = .error e ∧ t = s ∧ (effect = .error e ∨ ∃ f : Fault, e = f.err)) ∨
      ∃ n, effect = .ok (n, t) ∧ (r = .ok (.ok n) ∨ (∃ f : Fault, r = .ok (.error f.err)) ∨
        ∃ f : Fault, r = .error f.err) := by
  -- `RowsAffected` failing is the one outcome that `attempt` does not know
  by_cases hno : ∃ f, ch = .noCount f
  · obtain ⟨f, rfl⟩ := hno
    cases effect with
    | error e' => simp [attemptUpdate] at h
    | ok x =>
      simp only [attemptUpdate, Option.some.injEq, Prod.mk.injEq] at h
      obtain ⟨rfl, rfl⟩ := h
      exact .inr ⟨x.1, rfl, .inr (.inl ⟨f, rfl⟩)⟩
  · have hatt : attempt s (effect.map (fun x => ((.ok x.1 : Except Err Nat), x.2))) ch
        = some (r, t) := by
      rw [← h]
      cases ch with
      | noCount f => exact absurd ⟨f, rfl⟩ hno
      | _ => rfl
    cases effect with
    | error e =>
      rcases attempt_cases hatt with ⟨e', hr, ht, hs⟩ | ⟨a, ha, hr⟩
      · refine .inl ⟨e', hr, ht, ?_⟩
        rcases hs with hs | hs
        · simp only [Except.map, Except.error.injEq] at hs
          exact .inl (by rw [hs])
        · exact .inr hs
      · simp [Except.map] at ha
    | ok x =>
      rcases attempt_cases hatt with ⟨e', hr, ht, hs⟩ | ⟨a, ha, hr⟩
      · refine .inl ⟨e', hr, ht, ?_⟩
        rcases hs with hs | hs
        · simp [Except.map] at hs
        · exact .inr hs
      · simp only [Except.map, Except.ok.injEq, Prod.mk.injEq] at ha
        obtain ⟨rfl, rfl⟩ := ha
        refine .inr ⟨x.1, rfl, ?_⟩
        rcases hr with hr | hr
        · exact .inl hr
        · exact .inr (.inr hr)

/-- A query that returns a row may find it and fail to decode it. -/
theorem attemptData_cases {found : Option α} {s' : State}
    {r : Except Err (Option (Except Err α))} (h : attemptData s found s' ch = some (r, t)) :
    (∃ f : Fault, r = .error f.err ∧ t = s) ∨
      (t = s' ∧ (r = .ok (found.map .ok) ∨ (∃ f : Fault, r = .error f.err) ∨
        ∃ f : Fault, r = .ok (some (.error f.err)) ∧ found.isSome)) := by
  by_cases hbad : ∃ f, ch = .badData f
  · obtain ⟨f, rfl⟩ := hbad
    cases found with
    | none => simp [attemptData] at h
    | some a =>
      simp only [attemptData, Option.some.injEq, Prod.mk.injEq] at h
      obtain ⟨rfl, rfl⟩ := h
      exact .inr ⟨rfl, .inr (.inr ⟨f, rfl, rfl⟩)⟩
  · have hatt : attempt s (.ok (found.map .ok, s')) ch = some (r, t) := by
      rw [← h]
      cases ch with
      | badData f => exact absurd ⟨f, rfl⟩ hbad
      | _ => rfl
    rcases attempt_cases hatt with ⟨e, hr, ht, he | ⟨f, rfl⟩⟩ | ⟨a, ha, hr⟩
    · cases he
    · exact .inl ⟨f, hr, ht⟩
    · simp only [Except.ok.injEq, Prod.mk.injEq] at ha
      obtain ⟨rfl, rfl⟩ := ha
      refine .inr ⟨rfl, ?_⟩
      rcases hr with hr | hr
      · exact .inl hr
      · exact .inr (.inl hr)

end Attempts

end ReleaseNotifier
