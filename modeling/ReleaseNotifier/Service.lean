/-
`internal/subscription/service.go`, and the monolith as a machine.

`Subscribe`, `Confirm` and `Unsubscribe` each read a row in one statement and
write it in another. The machine at the end runs any number of them next to
each other and next to the replies and the reaper of the saga.
-/
import ReleaseNotifier.Orchestrator
import ReleaseNotifier.RefGrammar

set_option autoImplicit false

namespace ReleaseNotifier

open Conc

/-- `email.NewAddress`. -/
def newAddress (D : Deps) (raw : String) : Except Err String :=
  match D.parseAddress raw with
  | none => .error (.wrapBoth (.text "invalid email address") (.text "mail: no address"))
  | some addr => .ok (D.toLower addr)

/-- `parseSubscribeInput`. -/
def parseSubscribeInput (D : Deps) (rawEmail rawRepo : String) : Except Err (String × Ref) :=
  match newAddress D rawEmail with
  | .error _ => .error (.sentinel .errInvalidEmail)
  | .ok addr =>
    match parseRef rawRepo with
    | .error _ => .error (.sentinel .errInvalidRepo)
    | .ok ref => .ok (addr, ref)

/-- `strings.TrimRight(s, "/")`. -/
def trimRightSlash (s : String) : String :=
  String.ofList ((s.toList.reverse.dropWhile (fun c => c == '/')).reverse)

/-- `ConfirmLinkBuilder.ConfirmURL`. -/
def confirmURL (D : Deps) (token : String) : String :=
  trimRightSlash D.baseURL ++ "/api/confirm/" ++ token

/-- `ensureRepoExistsOnGitHub`. -/
def ensureRepoExistsOnGitHub (ref : Ref) : P (Option Err) := do
  match ← perform (.githubRepoExists ref.owner ref.name) with
  | .error err => return some (.wrap "checking repo" err)
  | .ok exists_ => if exists_ then return none else return some (.sentinel .errRepoNotFound)

/-- `refreshPendingSubscription`; `draw` is what `tokens.Generate` returned. -/
def refreshPendingSubscription (sub : Subscription) (draw : Except Fault String) :
    P (Except Err Subscription) :=
  match draw with
  | .error f => return .error (.wrap "generating token" f.err)
  | .ok token => do
    match ← Repo.updateToken sub.id sub.token token with
    | some err =>
      if err.is .errNotFound then return .error (.sentinel .errAlreadyExists)
      else return .error (.wrap "refreshing confirmation token" err)
    | none => return .ok { sub with token := token }

/-- `createPendingSubscription`. -/
def createPendingSubscription (addr : String) (ref : Ref) (draw : Except Fault String) :
    P (Except Err Subscription) :=
  match draw with
  | .error f => return .error (.wrap "generating token" f.err)
  | .ok token => do
    match ← Repo.upsert ref.owner ref.name with
    | some err => return .error (.wrap "upserting tracked repo" err)
    | none =>
      match ← Repo.create ⟨addr, ref.owner, ref.name⟩ token .pending with
      | .error err => return .error (.wrap "creating subscription" err)
      | .ok id => return .ok ⟨id, addr, ref.owner, ref.name, token, .pending⟩

/-- `reserveSubscription`. -/
def reserveSubscription (addr : String) (ref : Ref) (draw : Except Fault String) :
    P (Except Err Subscription) := do
  match ← Repo.getByEmailAndRepo ⟨addr, ref.owner, ref.name⟩ with
  | .ok existing =>
    if existing.status = .active then return .error (.sentinel .errAlreadyExists)
    else refreshPendingSubscription existing draw
  | .error err =>
    if err.is .errNotFound then createPendingSubscription addr ref draw
    else return .error (.wrap "checking existing subscription" err)

/-- The saga data of a reserved subscription. -/
def sagaData (D : Deps) (sub : Subscription) (ref : Ref) : SubscriptionData where
  email := sub.email
  repo := ref.string
  owner := ref.owner
  name := ref.name
  token := sub.token
  confirmURL := confirmURL D sub.token
  subscriptionID := sub.id

/-- `Subscribe`. -/
def subscribe (D : Deps) (ctx : Context) (rawEmail rawRepo : String) (draws : Draws) :
    P (Option Err) :=
  match parseSubscribeInput D rawEmail rawRepo with
  | .error err => return some err
  | .ok (addr, ref) => do
    match ← ensureRepoExistsOnGitHub ref with
    | some err => return some err
    | none =>
      match ← reserveSubscription addr ref draws.token with
      | .error err => return some err
      | .ok sub =>
        match ← startAndWait D ctx (sagaData D sub ref) draws.sagaID with
        | some err => return some (.wrapBoth (.sentinel .errEmailSendFailed) err)
        | none => return none

/-- `Confirm`. -/
def confirm (token : String) : P (Option Err) := do
  match ← Repo.getByToken token with
  | .error err =>
    if err.is .errNotFound then return some (.sentinel .errTokenNotFound)
    else return some (.wrap "looking up token" err)
  | .ok sub =>
    if sub.status = .active then return none
    else if sub.status ≠ .pending then return some (.sentinel .errSubscriptionInactive)
    else Repo.updateStatus (.confirm token) sub.id .active

/-- `Unsubscribe`. -/
def unsubscribe (token : String) : P (Option Err) := do
  match ← Repo.getByToken token with
  | .error err =>
    if err.is .errNotFound then return some (.sentinel .errTokenNotFound)
    else return some (.wrap "looking up token" err)
  | .ok sub =>
    if sub.status = .unsubscribed then return none
    else Repo.updateStatus (.unsubscribe token) sub.id .unsubscribed

/-! ## Footprints

What a property `F` has to hold of so that it holds of every operation a program
can issue, whatever the answers are. -/

/-- The operations of `compensate`. -/
def Op.compensates : Op → Bool
  | .sagaClaimCompensation _ => true
  | .sagaGet _ => true
  | .stmtUpdateStatus (.compensation _ _) _ _ => true
  | .sagaMarkCompensated _ => true
  | _ => false

/-- The operations of `StartAndWait` once its saga is created. -/
def Op.follows : Op → Bool
  | .registerWaiter _ => true
  | .unregisterWaiter _ => true
  | .publish _ _ => true
  | .await _ => true
  | o => o.compensates

section Uses

variable {F : Op → Prop} {x : String} {data : SubscriptionData}

/-- A one-statement function issues its statement. -/
theorem statement_uses {α : Type} {o : Op} {answer : o.Res → α} (h : F o) :
    (statement o answer).Uses F := ⟨h, fun _ => trivial⟩

/-- `Cancel` issues one statement, and reads a missing row as success. -/
theorem cancel_uses {origin : Origin} {id : Nat}
    (h : F (.stmtUpdateStatus origin .unsubscribed id)) : (cancel origin id).Uses F := by
  refine Prog.Uses.bind (statement_uses h) (fun res => ?_)
  cases res with
  | none => trivial
  | some err => dsimp only; split <;> trivial

/-- The mark comes after a cancellation without an error. -/
theorem cancelAndMark_uses
    (hcancel : F (.stmtUpdateStatus (.compensation x data.token) .unsubscribed
      data.subscriptionID))
    (hmark : F (.sagaMarkCompensated x)) : (cancelAndMark x data).Uses F := by
  refine Prog.Uses.bind (cancel_uses hcancel) (fun res => ?_)
  cases res with
  | none => exact statement_uses hmark
  | some err => trivial

/-- `compensate` issues four statements at most: the claim, the read after a lost
claim, the cancellation and the mark. -/
theorem compensate_uses (hclaim : F (.sagaClaimCompensation x)) (hget : F (.sagaGet x))
    (hcancel : ∀ token id, F (.stmtUpdateStatus (.compensation x token) .unsubscribed id))
    (hmark : F (.sagaMarkCompensated x)) : (compensate x).Uses F := by
  refine Prog.Uses.bind (statement_uses hclaim) (fun res => ?_)
  cases res with
  | error err => trivial
  | ok claimed =>
    cases claimed with
    | some data => exact cancelAndMark_uses (hcancel _ _) hmark
    | none =>
      refine Prog.Uses.bind (statement_uses hget) (fun res => ?_)
      cases res with
      | error err => trivial
      | ok inst =>
        dsimp only
        split
        · trivial
        · exact cancelAndMark_uses (hcancel _ _) hmark

/-- Between two compensations the loop of `Reap` only asks its context. -/
theorem reapLoop_uses (hctx : F .ctxErr) (hcompensate : ∀ x, (compensate x).Uses F)
    (ids : List String) : (reapLoop ids).Uses F := by
  induction ids with
  | nil => trivial
  | cons x ids ih =>
    refine ⟨hctx, fun done => ?_⟩
    cases done with
    | true => trivial
    | false =>
      show Prog.Uses F (compensate x >>= fun _ => reapLoop ids)
      exact Prog.Uses.bind (hcompensate x) (fun _ => ih)

/-- A waiter is looked up, and sent to if there is one. -/
theorem signalWaiter_uses {state : SagaState} (hlookup : F (.lookupWaiter x))
    (hsend : ∀ n, F (.trySend n state)) : (signalWaiter x state).Uses F := by
  refine ⟨hlookup, fun r => ?_⟩
  cases r with
  | none => trivial
  | some n => exact ⟨hsend n, fun _ => trivial⟩

variable {D : Deps} {ctx : Context}

/-- A command that cannot be marshalled is not published. -/
theorem publishConfirmation_uses (h : ∀ body, F (.publish cmdSendConfirmation body)) :
    (publishConfirmation D ctx x data).Uses F := by
  unfold publishConfirmation
  split
  · trivial
  · split
    · trivial
    · exact statement_uses (h _)

/-- A failed publish is compensated; after a successful one the call waits. -/
theorem dispatchAndWait_uses {n : Nat} (hpublish : ∀ body, F (.publish cmdSendConfirmation body))
    (hawait : F (.await n)) (hcompensate : (compensate x).Uses F) :
    (dispatchAndWait D ctx data x n).Uses F := by
  refine Prog.Uses.bind (publishConfirmation_uses hpublish) (fun res => ?_)
  cases res with
  | some err => exact Prog.Uses.bind hcompensate (fun _ => trivial)
  | none =>
    refine ⟨hawait, fun woken => ?_⟩
    cases woken with
    | received final =>
      show Prog.Uses _ (if final = .completed then _ else _)
      split <;> trivial
    | timeout => trivial
    | done e => trivial

/-- What `StartAndWait` may still issue once its saga is created. -/
theorem registered_uses :
    (registerWaiter x >>= fun ch => dispatchAndWait D ctx data x ch >>= fun res =>
      unregisterWaiter x >>= fun _ => pure res).Uses (fun o => o.follows = true) :=
  Prog.Uses.bind ⟨rfl, fun _ => trivial⟩ (fun _ =>
    Prog.Uses.bind
      (dispatchAndWait_uses (fun _ => rfl) rfl (compensate_uses rfl rfl (fun _ _ => rfl) rfl))
      (fun _ => Prog.Uses.bind ⟨rfl, fun _ => trivial⟩ (fun _ => trivial)))

variable {token : String}

/-- `Confirm` reads its row and may make it active. -/
theorem confirm_uses (hget : F (.stmtGetByToken token))
    (hset : ∀ id, F (.stmtUpdateStatus (.confirm token) .active id)) :
    (confirm token).Uses F := by
  refine Prog.Uses.bind (statement_uses hget) (fun res => ?_)
  cases res with
  | error err => dsimp only; split <;> trivial
  | ok sub =>
    dsimp only
    split
    · trivial
    · split
      · trivial
      · exact statement_uses (hset _)

/-- `Unsubscribe` reads its row and may withdraw it. -/
theorem unsubscribe_uses (hget : F (.stmtGetByToken token))
    (hset : ∀ id, F (.stmtUpdateStatus (.unsubscribe token) .unsubscribed id)) :
    (unsubscribe token).Uses F := by
  refine Prog.Uses.bind (statement_uses hget) (fun res => ?_)
  cases res with
  | error err => dsimp only; split <;> trivial
  | ok sub =>
    dsimp only
    split
    · trivial
    · exact statement_uses (hset _)

end Uses

/-! ## The monolith as a machine -/

/-- What a call returns: an error (or none), a settlement, or nothing. -/
inductive Ret
  | error (e : Option Err)
  | action (a : Action)
  | unit
  deriving DecidableEq, Repr

/-- The program of a call. -/
def program (D : Deps) : Call → P Ret
  | .subscribe ctx rawEmail rawRepo draws => do
    return .error (← subscribe D ctx rawEmail rawRepo draws)
  | .confirm token => do return .error (← confirm token)
  | .unsubscribe token => do return .error (← unsubscribe token)
  | .handleReply body => do return .action (← handleReply D body)
  | .reap => do
    reap
    return .unit
  | .startAndWait ctx data sagaID => do return .error (← startAndWait D ctx data sagaID)

/-- What a call drew was not drawn before. -/
def State.fresh (s : State) (c : Call) : Bool :=
  s.calls.all (fun c' =>
    (c.token?.isNone || decide (c'.token? ≠ c.token?)) &&
      (c.sagaID?.isNone || decide (c'.sagaID? ≠ c.sagaID?)))

/-- Make a call, if its draws are fresh. -/
def enter (c : Call) (s : State) : Option State :=
  if s.fresh c then some { s with calls := c :: s.calls } else none

/-- What happens without a call: time passes, or the process restarts and its
waiters are gone. -/
inductive WorldEvent
  | tick (d : Nat)
  | restart
  deriving DecidableEq, Repr

/-- One step of the world. -/
def world : WorldEvent → State → Option State
  | .tick d, s => some { s with now := s.now + d }
  | .restart, s => some { s with waiters := fun _ => none }

/-- The monolith. -/
def monolith (D : Deps) : Machine Op Op.Res State Choice Call WorldEvent Ret where
  program := program D
  enter := enter
  exec := exec
  env := world

/-- The monolith before the first request. -/
def monolithInit : Pool Op Op.Res State Call Ret := ⟨.init, []⟩

/-! ## A configuration to run

Two requests of one subscriber with their sagas `s1` and `s2`, for concrete
runs. -/

/-- A deployment with a saga timeout of 30. -/
def sample : Deps where
  parseAddress raw := some raw
  toLower addr := addr
  baseURL := "https://h/"
  sagaTimeout := 30
  json := sampleJson

/-- The first request of `a@b.c` for `o/n`. -/
def sampleSubscribe₁ : Call := .subscribe ⟨none⟩ "a@b.c" "o/n" ⟨.ok "t1", "s1"⟩

/-- Its second request. -/
def sampleSubscribe₂ : Call := .subscribe ⟨none⟩ "a@b.c" "o/n" ⟨.ok "t2", "s2"⟩

/-- The saga data of the first request, when its row got id 1. -/
def sampleData₁ : SubscriptionData :=
  ⟨"a@b.c", "o/n", "o", "n", "t1", "https://h/api/confirm/t1", 1⟩

/-- The first request has reserved its row, started its saga and handed its
command to the broker. -/
def sampleMailed : List (Event Choice Call WorldEvent) :=
  [.call sampleSubscribe₁, .run 0 (.answer true), .run 0 .ok, .run 0 .ok, .run 0 .ok, .run 0 .ok,
    .run 0 .ok, .run 0 .ok]

end ReleaseNotifier
