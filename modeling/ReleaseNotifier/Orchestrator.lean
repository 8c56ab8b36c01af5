/-
`internal/saga`: the store's error mapping and the orchestrator.

`compensate` is the one piece that the reply consumer, the reaper and the
request itself all run, and it is several statements long; everything that can
go wrong between the saga and the subscription row goes wrong between two of
them.
-/
import ReleaseNotifier.Repo

set_option autoImplicit false

namespace ReleaseNotifier

open Conc

/-- What the monolith is configured with: `net/mail.ParseAddress` (the address
part) and `strings.ToLower` for email addresses, the public base URL, the saga
timeout in nanoseconds and `encoding/json`. -/
structure Deps where
  parseAddress : String → Option String
  toLower : String → String
  baseURL : String
  sagaTimeout : Int
  json : Json

/-- `defaultTimeout`: thirty seconds. -/
def defaultTimeout : Nat := 30 * 1000000000

/-- `reaperBatch`. -/
def reaperBatch : Nat := 100

/-- The timeout `NewOrchestrator` settles on. -/
def Deps.timeout (D : Deps) : Nat :=
  if D.sagaTimeout ≤ 0 then defaultTimeout else D.sagaTimeout.toNat

/-! ## `Store` -/

namespace SagaStore

/-- `Store.Create`. -/
def create (id : String) (data : SubscriptionData) (timeout : Nat) : P (Option Err) :=
  statement (.sagaCreate id data timeout) fun
    | .error err => some (.wrap s!"saga: create instance {id}" err)
    | .ok () => none

/-- `Store.Get`. -/
def get (id : String) : P (Except Err Instance) :=
  statement (.sagaGet id) fun
    | .error err => .error (.wrap s!"saga: get instance {id}" err)
    | .ok none => .error (.sentinel .errInstanceNotFound)
    | .ok (some (.error err)) => .error (.wrap s!"saga: unmarshal data {id}" err)
    | .ok (some (.ok inst)) => .ok inst

/-- `Store.CompleteIfAwaiting`: whether this call made the transition. -/
def completeIfAwaiting (id : String) : P (Except Err Bool) :=
  statement (.sagaCompleteIfAwaiting id) fun
    | .error err => .error (.wrap s!"saga: complete {id}" err)
    | .ok (.error err) => .error (.wrap s!"saga: complete rows {id}" err)
    | .ok (.ok n) => .ok (decide (n = 1))

/-- `Store.ClaimCompensation`: the data if this call won the claim. -/
def claimCompensation (id : String) : P (Except Err (Option SubscriptionData)) :=
  statement (.sagaClaimCompensation id) fun
    | .error err => .error (.wrap s!"saga: claim compensation {id}" err)
    | .ok none => .ok none
    | .ok (some (.error err)) => .error (.wrap s!"saga: unmarshal data {id}" err)
    | .ok (some (.ok data)) => .ok (some data)

/-- `Store.MarkCompensated`. -/
def markCompensated (id : String) : P (Option Err) :=
  statement (.sagaMarkCompensated id) fun
    | .error err => some (.wrap s!"saga: mark compensated {id}" err)
    | .ok () => none

/-- `Store.ListTimedOut`, at the current time. -/
def listTimedOut (limit : Nat) : P (Except Err (List String)) :=
  statement (.sagaListTimedOut limit) fun
    | .error err => .error (.wrap "saga: list timed out" err)
    | .ok ids => .ok ids

end SagaStore

/-! ## Waiters -/

/-- `registerWaiter`. -/
def registerWaiter (sagaID : String) : P Nat := perform (.registerWaiter sagaID)

/-- `unregisterWaiter`. -/
def unregisterWaiter (sagaID : String) : P Unit := perform (.unregisterWaiter sagaID)

/-- `signalWaiter`: the map is read under the lock, the send is outside it. -/
def signalWaiter (sagaID : String) (state : SagaState) : P Unit := do
  match ← perform (.lookupWaiter sagaID) with
  | none => return ()
  | some ch => perform (.trySend ch state)

/-! ## `Orchestrator` -/

/-- The end of `compensate`: cancel the subscription, then finish the saga. -/
def cancelAndMark (sagaID : String) (data : SubscriptionData) : P (Option Err) := do
  match ← cancel (.compensation sagaID data.token) data.subscriptionID with
  | some err => return some (.wrap s!"saga: cancel subscription {data.subscriptionID}" err)
  | none => SagaStore.markCompensated sagaID

/-- `compensate`: a claim that is lost is resumed if the saga is still
compensating. -/
def compensate (sagaID : String) : P (Option Err) := do
  match ← SagaStore.claimCompensation sagaID with
  | .error err => return some err
  | .ok (some data) => cancelAndMark sagaID data
  | .ok none =>
    match ← SagaStore.get sagaID with
    | .error err => return some err
    | .ok inst =>
      if inst.state ≠ .compensating then return none
      else cancelAndMark sagaID inst.data

/-- `publishConfirmation`. -/
def publishConfirmation (D : Deps) (ctx : Context) (sagaID : String) (data : SubscriptionData) :
    P (Option Err) :=
  match D.json.payload.marshal ⟨data.email, data.repo, data.confirmURL⟩ with
  | .error f => return some (.wrap "marshal confirmation payload" f.err)
  | .ok payload =>
    match D.json.command.marshal ⟨sagaID, cmdSendConfirmation, ctx.traceID.getD "", payload⟩ with
    | .error f => return some (.wrap "marshal confirmation command" f.err)
    | .ok body =>
      statement (.publish cmdSendConfirmation body) fun
        | .error err => some err
        | .ok () => none

/-- The body of `StartAndWait` between `registerWaiter` and its deferred
`unregisterWaiter`. -/
def dispatchAndWait (D : Deps) (ctx : Context) (data : SubscriptionData) (sagaID : String)
    (ch : Nat) : P (Option Err) := do
  match ← publishConfirmation D ctx sagaID data with
  | some err =>
    -- `compensateQuietly` drops the outcome of `compensate`
    let _ ← compensate sagaID
    return some (.wrapBoth (.sentinel .errConfirmationFailed) err)
  | none =>
    match ← perform (.await ch) with
    | .received final =>
      if final = .completed then return none
      else return some (.sentinel .errConfirmationFailed)
    | .timeout => return some (.sentinel .errConfirmationTimeout)
    | .done e => return some e

/-- `StartAndWait`; `sagaID` is what `tracectx.NewID` returned. -/
def startAndWait (D : Deps) (ctx : Context) (data : SubscriptionData) (sagaID : String) :
    P (Option Err) := do
  match ← SagaStore.create sagaID data D.timeout with
  | some err =>
    -- `cancelQuietly` drops the outcome of `Cancel`
    let _ ← cancel (.rollback data.token) data.subscriptionID
    return some (.wrap "saga: start" err)
  | none =>
    let ch ← registerWaiter sagaID
    let res ← dispatchAndWait D ctx data sagaID ch
    unregisterWaiter sagaID
    return res

/-- `onConfirmationSent`. -/
def onConfirmationSent (sagaID : String) : P Action := do
  match ← SagaStore.completeIfAwaiting sagaID with
  | .error _ => return .requeue
  | .ok transitioned =>
    if transitioned then signalWaiter sagaID .completed
    return .ack

/-- `onConfirmationFailed`. -/
def onConfirmationFailed (sagaID : String) : P Action := do
  match ← compensate sagaID with
  | some _ => return .requeue
  | none =>
    signalWaiter sagaID .failed
    return .ack

/-- `HandleReply`. -/
def handleReply (D : Deps) (body : Bytes) : P Action :=
  match D.json.reply.unmarshal body with
  | .error _ => return .drop
  | .ok reply =>
    if reply.type = replyConfirmationSent then onConfirmationSent reply.sagaID
    else if reply.type = replyConfirmationFailed then onConfirmationFailed reply.sagaID
    else return .drop

/-- The loop of `Reap` over the ids that were listed. -/
def reapLoop : List String → P Unit
  | [] => return ()
  | id :: ids => do
    if ← perform .ctxErr then return ()
    else
      let _ ← compensate id
      reapLoop ids

/-- `Reap`. -/
def reap : P Unit := do
  match ← SagaStore.listTimedOut reaperBatch with
  | .error _ => return ()
  | .ok ids => reapLoop ids

end ReleaseNotifier
