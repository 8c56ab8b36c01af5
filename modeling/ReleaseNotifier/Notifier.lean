/-
The notification service: `services/notification` with its store, consumer,
saga participant and start-up wiring.

The process has one `Store`, whose two prepared statements are handles into the
database connection. Handle and statement are separate pieces of state, as they
are in `database/sql`: closing a statement does not clear the handle, and the
`prepared` flag is not looked at again once it is set. A statement that has been
closed answers with an error, and nothing prepares it anew.

`sends` records every invocation of the mailer and whether it returned without
an error, `replies` what the reply publisher handed to the broker. No operation
reads them.
-/
import ReleaseNotifier.Conc.Pool
import ReleaseNotifier.Attempt
import ReleaseNotifier.Ledger
import ReleaseNotifier.Wire
import Mathlib.Logic.Equiv.Basic
import Mathlib.Algebra.Group.End

set_option autoImplicit false

namespace ReleaseNotifier.Notifier

open Conc

/-! ## `notification.go` -/

/-- `notification.Confirmation`. -/
structure Confirmation where
  email : String
  confirmURL : String
  repo : String
  deriving DecidableEq, Repr

/-- `notification.ReleaseInfo`. -/
structure ReleaseInfo where
  tagName : String
  name : String
  htmlURL : String
  publishedAt : String
  deriving DecidableEq, Repr

/-- What the sender is asked to send: `SendConfirmation` or
`SendReleaseNotification` with its arguments. -/
inductive Mail
  | confirmation (c : Confirmation)
  | release (email repo : String) (rel : Option ReleaseInfo)
  deriving DecidableEq, Repr

/-- An invocation of the sender, and whether it returned without an error. -/
structure Send where
  mail : Mail
  succeeded : Bool
  deriving DecidableEq, Repr

/-! ## The shared state -/

/-- The fields of `store.Store`. The flag is only set when both statements have
been prepared. -/
structure Store where
  prepared : Bool
  stmtReserve : Option Nat
  stmtConfirm : Option Nat
  handles : prepared = true → stmtReserve.isSome = true ∧ stmtConfirm.isSome = true

/-- `&Store{...}`. -/
def Store.fresh : Store := ⟨false, none, none, fun h => by cases h⟩

/-- The notifier's process and database. A statement is `true` while it is open. -/
structure State where
  now : Nat
  store : Store
  stmts : List Bool
  ledger : Ledger
  sends : List Send
  replies : List (String × Bytes)

/-- The state before the process is started for the first time. -/
def State.init : State where
  now := 0
  store := .fresh
  stmts := []
  ledger := .empty
  sends := []
  replies := []

/-- The two statements of the store. -/
inductive Stmt
  | reserve
  | confirm
  deriving DecidableEq, Repr

/-- The store's handle of a statement. -/
def Store.handle (st : Store) : Stmt → Option Nat
  | .reserve => st.stmtReserve
  | .confirm => st.stmtConfirm

/-- The atomic operations: the allocation of a store, the critical section of
`ensurePrepared`, one prepared statement, closing one, one invocation of the
sender, one publish. -/
inductive Op
  | newStore
  | ensurePrepared
  | queryReserve (kind : Kind) (dedupKey : String)
  | execConfirm (dedupKey : String)
  | closeStmt (stmt : Stmt)
  | send (mail : Mail)
  | publish (routingKey : String) (body : Bytes)
  deriving DecidableEq

/-- What an operation answers. `queryReserve` answers `none` for `sql.ErrNoRows`. -/
abbrev Op.Res : Op → Type
  | .newStore => Unit
  | .ensurePrepared => Except Err Unit
  | .queryReserve _ _ => Except Err (Option Nat)
  | .execConfirm _ => Except Err Unit
  | .closeStmt _ => Except Err Unit
  | .send _ => Except Err Unit
  | .publish _ _ => Except Err Unit

/-- The error `database/sql` gives for a statement that has been closed. -/
def errStmtClosed : Err := .text "sql: statement is closed"

/-- `ensurePrepared` under its mutex. The choice `fail` is a `prepare` that
fails at its first statement, `failApplied` one that fails at its second. -/
def State.ensurePrepared (s : State) : Choice → Option (Except Err Unit × State) :=
  if s.store.prepared then fun
    | .ok => some (.ok (), s)
    | _ => none
  else fun
    | .ok => some (.ok (), { s with
        stmts := s.stmts ++ [true, true]
        store := ⟨true, some s.stmts.length, some (s.stmts.length + 1), fun _ => ⟨rfl, rfl⟩⟩ })
    | .fail f => some (.error (.wrap "preparing notification reserve" f.err), { s with
        store := ⟨false, none, s.store.stmtConfirm, fun h => by cases h⟩ })
    | .failApplied f => some (.error (.wrap "preparing notification confirm" f.err), { s with
        stmts := s.stmts ++ [true]
        store := ⟨false, some s.stmts.length, none, fun h => by cases h⟩ })
    | _ => none

/-- The store's statement is open. -/
def State.isOpen (s : State) (stmt : Stmt) : Bool :=
  match s.store.handle stmt with
  | some h => decide (s.stmts[h]? = some true)
  | none => false

/-- Execute a prepared statement that would answer `a` and move to `s'`. With
no handle the code would dereference nil; it never gets there, since the flag
is set with the handles. -/
def State.execStmt {α : Type} (s : State) (stmt : Stmt) (a : α) (s' : State) (ch : Choice) :
    Option (Except Err α × State) :=
  if (s.store.handle stmt).isNone then none
  else if s.isOpen stmt then attempt s (.ok (a, s')) ch
  else attempt s (.error errStmtClosed) ch

/-- The state with the statement closed; a nil one is left alone. -/
def State.withClosed (s : State) (stmt : Stmt) : State :=
  match s.store.handle stmt with
  | some h => { s with stmts := s.stmts.set h false }
  | none => s

/-- `stmt.Close`. The statement counts as closed also when an error is
reported, and closing a nil or a closed statement is no error. -/
def State.close (s : State) (stmt : Stmt) : Choice → Option (Except Err Unit × State)
  | .ok => some (.ok (), s.withClosed stmt)
  | .failApplied f =>
    if s.isOpen stmt then some (.error f.err, s.withClosed stmt) else none
  | _ => none

/-- What one operation does and answers. -/
def exec (s : State) : (o : Op) → Choice → Option (o.Res × State)
  | .newStore => fun
    | .ok => some ((), { s with store := .fresh })
    | _ => none
  | .ensurePrepared => s.ensurePrepared
  | .queryReserve kind dedupKey =>
    s.execStmt .reserve (s.ledger.reserveQuery kind dedupKey).1
      { s with ledger := (s.ledger.reserveQuery kind dedupKey).2 }
  | .execConfirm dedupKey =>
    s.execStmt .confirm () { s with ledger := s.ledger.confirmQuery s.now dedupKey }
  | .closeStmt stmt => s.close stmt
  | .send mail => fun
    | .ok => some (.ok (), { s with sends := ⟨mail, true⟩ :: s.sends })
    | .fail f => some (.error f.err, { s with sends := ⟨mail, false⟩ :: s.sends })
    | _ => none
  | .publish routingKey body =>
    attempt s (.ok ((), { s with replies := (routingKey, body) :: s.replies }))

/-- However closing a statement ends, it is closed. -/
theorem exec_closeStmt {s s' : State} {stmt : Stmt} {ch : Choice} {r : Except Err Unit}
    (h : exec s (.closeStmt stmt) ch = some (r, s')) : s' = s.withClosed stmt := by
  simp only [exec] at h
  cases ch with
  | ok =>
    simp only [State.close, Option.some.injEq, Prod.mk.injEq] at h
    exact h.2.symm
  | failApplied f =>
    simp only [State.close] at h
    split at h
    · simp only [Option.some.injEq, Prod.mk.injEq] at h
      exact h.2.symm
    · cases h
  | _ => cases h

/-! ## `store/postgres.go` -/

/-- Programs of the notifier. -/
abbrev P := Prog Op Op.Res

/-- Issue one operation. -/
def perform (o : Op) : P o.Res := Prog.perform o

/-- `closeStmt`, for a statement under its name in the store. -/
def closeStmt (stmt : Stmt) : P (Option Err) := do
  match ← perform (.closeStmt stmt) with
  | .error err =>
    let name := match stmt with
      | .reserve => "notification reserve"
      | .confirm => "notification confirm"
    return some (.wrap ("closing " ++ name ++ " statement") err)
  | .ok () => return none

namespace Store

/-- `Store.Close`. -/
def close : P (Option Err) := do
  let errReserve ← closeStmt .reserve
  let errConfirm ← closeStmt .confirm
  return joinErrors errReserve errConfirm

/-- `NewWithContext`. -/
def newWithContext : P (Option Err) := do
  perform .newStore
  match ← perform .ensurePrepared with
  | .error err =>
    let errClose ← close
    return joinErrors (some err) errClose
  | .ok () => return none

/-- `Store.Reserve`. -/
def reserve (kind : Kind) (dedupKey : String) : P (Except Err Bool) := do
  match ← perform .ensurePrepared with
  | .error err => return .error err
  | .ok () =>
    match ← perform (.queryReserve kind dedupKey) with
    | .ok none => return .ok false
    | .error err =>
      return .error (.wrap ("reserving notification dedup_key=\"" ++ dedupKey ++ "\"") err)
    | .ok (some _) => return .ok true

/-- `Store.Confirm`. -/
def confirm (dedupKey : String) : P (Option Err) := do
  match ← perform .ensurePrepared with
  | .error err => return some err
  | .ok () =>
    match ← perform (.execConfirm dedupKey) with
    | .error err =>
      return some (.wrap ("confirming notification dedup_key=\"" ++ dedupKey ++ "\"") err)
    | .ok () => return none

end Store

/-! ## `service.go` -/

/-- What the notifier is configured with: `encoding/json`, and SHA-256 in
hexadecimal. -/
structure Deps where
  json : Json
  sha256Hex : String → String

/-- `hashDedupKey`. -/
def hashDedupKey (E : Deps) (logical : String) : String := E.sha256Hex logical

/-- The kind a mail is reserved under. -/
def Mail.kind : Mail → Kind
  | .confirmation _ => .confirmation
  | .release _ _ _ => .release

/-- What identifies a mail, before it is hashed. -/
def Mail.logicalKey : Mail → String
  | .confirmation c => "confirm:" ++ c.confirmURL
  | .release email repo rel =>
    let tag := match rel with
      | some rel => rel.tagName
      | none => ""
    "release:" ++ repo ++ ":" ++ tag ++ ":" ++ email

/-- The dedup key of a mail. -/
def Mail.dedupKey (E : Deps) (m : Mail) : String := hashDedupKey E m.logicalKey

namespace Service

/-- `reserveAndSend`; `send` is the sender's method for this mail. -/
def reserveAndSend (kind : Kind) (dedupKey : String) (mail : Mail) : P (Except Err Bool) := do
  match ← Store.reserve kind dedupKey with
  | .error err => return .error (.wrap "reserving notification" err)
  | .ok reserved =>
    if reserved then
      match ← perform (.send mail) with
      | .error err => return .error (.wrap ("sending notification kind=" ++ kind.text) err)
      | .ok () =>
        -- a failed confirmation is only logged: the mail is out
        let _ ← Store.confirm dedupKey
        return .ok true
    else return .ok false

/-- `Service.SendConfirmation` and `Service.SendReleaseNotification`, which
differ in the key they derive and in the method of the sender they call. -/
def send (E : Deps) (mail : Mail) : P (Except Err Bool) :=
  reserveAndSend mail.kind (mail.dedupKey E) mail

/-- `Service.SendConfirmation`. -/
def sendConfirmation (E : Deps) (confirmation : Confirmation) : P (Except Err Bool) :=
  send E (.confirmation confirmation)

/-- `Service.SendReleaseNotification`. -/
def sendReleaseNotification (E : Deps) (email repo : String) (rel : Option ReleaseInfo) :
    P (Except Err Bool) :=
  send E (.release email repo rel)

end Service

/-! ## `consumer/consumer.go` -/

namespace Consumer

/-- `handleConfirmation`. -/
def handleConfirmation (E : Deps) (payload : Bytes) : P Action :=
  match E.json.confirmation.unmarshal payload with
  | .error _ => return .drop
  | .ok cmd =>
    if cmd.email = "" ∨ cmd.confirmURL = "" ∨ cmd.repo = "" then return .drop
    else do
      match ← Service.sendConfirmation E ⟨cmd.email, cmd.confirmURL, cmd.repo⟩ with
      | .error _ => return .requeue
      | .ok _ => return .ack

/-- `handleRelease`. -/
def handleRelease (E : Deps) (payload : Bytes) : P Action :=
  match E.json.release.unmarshal payload with
  | .error _ => return .drop
  | .ok cmd =>
    if cmd.email = "" ∨ cmd.repo = "" then return .drop
    else do
      match ← Service.sendReleaseNotification E cmd.email cmd.repo
          (some ⟨cmd.release.tagName, cmd.release.name, cmd.release.htmlURL,
            cmd.release.publishedAt⟩) with
      | .error _ => return .requeue
      | .ok _ => return .ack

/-- `Consumer.Handle`. -/
def handle (E : Deps) (body : Bytes) : P Action :=
  match E.json.envelope.unmarshal body with
  | .error _ => return .drop
  | .ok envelope =>
    if envelope.type = typeConfirmation then handleConfirmation E envelope.payload
    else if envelope.type = typeRelease then handleRelease E envelope.payload
    else return .drop

end Consumer

/-! ## `sagaparticipant/participant.go` -/

namespace Participant

/-- `Participant.reply`. -/
def reply (E : Deps) (cmd : Command) (replyType reason : String) : P Action :=
  match E.json.reply.marshal ⟨cmd.sagaID, replyType, cmd.traceID, E.json.replyPayload reason⟩ with
  | .error _ => return .requeue
  | .ok body => do
    match ← perform (.publish replyType body) with
    | .error _ => return .requeue
    | .ok () => return .ack

/-- `Participant.Handle`. -/
def handle (E : Deps) (body : Bytes) : P Action :=
  match E.json.command.unmarshal body with
  | .error _ => return .drop
  | .ok cmd =>
    if cmd.type ≠ cmdSendConfirmation then return .drop
    else
      match E.json.payload.unmarshal cmd.payload with
      | .error _ => reply E cmd replyConfirmationFailed "invalid payload"
      | .ok payload =>
        if payload.email = "" ∨ payload.confirmURL = "" ∨ payload.repo = "" then
          reply E cmd replyConfirmationFailed "missing fields"
        else do
          match ← Service.sendConfirmation E ⟨payload.email, payload.confirmURL, payload.repo⟩ with
          | .error err => reply E cmd replyConfirmationFailed err.error
          | .ok _ => reply E cmd replyConfirmationSent ""

end Participant

/-! ## `app/deps.go` -/

/-- The part of `config.Config` that decides whether the wiring succeeds. -/
structure Config where
  rabbitMQURL : String
  deriving DecidableEq, Repr

/-- `sagaevent.Exchange`. -/
def sagaExchange : String := "saga"

/-- The checks of `messaging.NewPublisher`. -/
def newPublisher (url exchange : String) : Option Err :=
  if url = "" then some (.text "messaging: broker url is empty")
  else if exchange = "" then some (.text "messaging: exchange is empty")
  else none

/-- `closeQuietly` on the ledger: what `Close` reports is logged. -/
def closeLedgerQuietly : P Unit := do
  let _ ← Store.close
  return ()

/-- `buildDependencies` between the `defer` and its return, started with
`depsReady` as given: the flag's value at the end, and the error. The other
constructors only refuse nil arguments, which are not nil here. -/
def wire (cfg : Config) (depsReady : Bool) : P (Bool × Option Err) := do
  match newPublisher cfg.rabbitMQURL sagaExchange with
  | some err =>
    closeLedgerQuietly
    return (depsReady, some (.wrap "creating saga reply publisher" err))
  | none => return (depsReady, none)

/-- `buildDependencies`. -/
def buildDependencies (cfg : Config) : P (Option Err) := do
  match ← Store.newWithContext with
  | some err => return some (.wrap "creating notification store" err)
  | none =>
    let (depsReady, err) ← wire cfg false
    -- the deferred function
    if !depsReady then closeLedgerQuietly
    return err

/-! ## The notifier as a machine -/

/-- The entry points. `sendConfirmation` and `sendReleaseNotification` are the
calls the gRPC server and the REST handler make. -/
inductive Call
  | buildDependencies (cfg : Config)
  | consume (body : Bytes)
  | participate (body : Bytes)
  | sendConfirmation (confirmation : Confirmation)
  | sendReleaseNotification (email repo : String) (rel : Option ReleaseInfo)
  | close
  deriving DecidableEq

/-- What a call returns. -/
inductive Ret
  | error (e : Option Err)
  | action (a : Action)
  | delivered (r : Except Err Bool)

/-- The program of a call. -/
def program (E : Deps) : Call → P Ret
  | .buildDependencies cfg => do return .error (← buildDependencies cfg)
  | .consume body => do return .action (← Consumer.handle E body)
  | .participate body => do return .action (← Participant.handle E body)
  | .sendConfirmation confirmation => do
    return .delivered (← Service.sendConfirmation E confirmation)
  | .sendReleaseNotification email repo rel => do
    return .delivered (← Service.sendReleaseNotification E email repo rel)
  | .close => do return .error (← Store.close)

/-- What happens without a call: time passes, or the process is restarted. Its
statements go with the connection. -/
inductive WorldEvent
  | tick (d : Nat)
  | restart
  deriving DecidableEq, Repr

/-- One step of the world. -/
def world : WorldEvent → State → Option State
  | .tick d, s => some { s with now := s.now + d }
  | .restart, s => some { s with store := .fresh, stmts := [] }

/-- The notifier. -/
def machine (E : Deps) : Machine Op Op.Res State Choice Call WorldEvent Ret where
  program := program E
  enter := fun _ s => some s
  exec := exec
  env := world

/-- The notifier before its first start. -/
def init : Pool Op Op.Res State Call Ret := ⟨.init, []⟩

/-- A one-to-one function that agrees with SHA-256 on the keys of the sample
messages. -/
def sampleSum : Equiv.Perm String :=
  Equiv.swap "confirm:https://h/api/confirm/t1" sampleConfirmationSum *
    Equiv.swap "release:o/n:v1:a@b.c" sampleReleaseSum

/-- A notifier to run. -/
def sample : Deps := ⟨sampleJson, sampleSum⟩

end ReleaseNotifier.Notifier
