/-
`internal/subscription/repo.go`, `sagacanceller.go`, and `Upsert` of
`internal/repository/store.go`: the statements with the errors the callers see.
Logging is left out throughout; it changes neither state nor answers.
-/
import ReleaseNotifier.Monolith

set_option autoImplicit false

namespace ReleaseNotifier

open Conc

/-- Programs of the monolith. -/
abbrev P := Prog Op Op.Res

/-- Issue one operation. -/
def perform (o : Op) : P o.Res := Prog.perform o

/-- Issue one statement and make something of its outcome. -/
def statement {α : Type} (o : Op) (answer : o.Res → α) : P α := .op o (fun r => .ret (answer r))

namespace Repo

/-! ## `Repo` -/

/-- `Repo.Create`: the row's id. Only a violation of the partial index is
reported as `ErrAlreadyExists`. -/
def create (k : Key) (token : String) (status : Status) : P (Except Err Nat) :=
  statement (.stmtCreate k token status) fun
    | .ok id => .ok id
    | .error err =>
      if err.asPq? = some (pgUniqueViolation, emailRepoActiveIndex) then
        .error (.sentinel .errAlreadyExists)
      else .error (.wrap s!"creating subscription owner={k.owner} name={k.name}" err)

/-- `Repo.GetByToken`. -/
def getByToken (token : String) : P (Except Err Subscription) :=
  statement (.stmtGetByToken token) fun
    | .ok (some sub) => .ok sub
    | .ok none => .error (.sentinel .errNotFound)
    | .error err => .error (.wrap "querying subscription by token" err)

/-- `Repo.GetByEmailAndRepo`. -/
def getByEmailAndRepo (k : Key) : P (Except Err Subscription) :=
  statement (.stmtGetByEmailAndRepo k) fun
    | .ok (some sub) => .ok sub
    | .ok none => .error (.sentinel .errNotFound)
    | .error err => .error (.wrap s!"querying subscription owner={k.owner} name={k.name}" err)

/-- `Repo.UpdateStatus`; no error is `none`. -/
def updateStatus (origin : Origin) (id : Nat) (status : Status) : P (Option Err) :=
  statement (.stmtUpdateStatus origin status id) fun
    | .error err =>
      some (.wrap s!"updating subscription status id={id} status={status.text}" err)
    | .ok (.error err) =>
      some (.wrap s!"getting rows affected id={id} status={status.text}" err)
    | .ok (.ok 0) => some (.sentinel .errNotFound)
    | .ok (.ok (_ + 1)) => none

/-- `Repo.UpdateToken`: a compare-and-swap on the token column. -/
def updateToken (id : Nat) (oldToken newToken : String) : P (Option Err) :=
  statement (.stmtUpdateToken newToken id oldToken) fun
    | .error err => some (.wrap s!"updating subscription token id={id}" err)
    | .ok (.error err) => some (.wrap s!"getting rows affected id={id}" err)
    | .ok (.ok 0) => some (.sentinel .errNotFound)
    | .ok (.ok (_ + 1)) => none

/-- `repository.Store.Upsert`. -/
def upsert (owner name : String) : P (Option Err) :=
  statement (.stmtUpsert owner name) fun
    | .error err => some (.wrap s!"inserting tracked repository owner={owner} name={name}" err)
    | .ok () => none

end Repo

/-- `SagaCanceller.Cancel`: a missing row is a success. -/
def cancel (origin : Origin) (subscriptionID : Nat) : P (Option Err) := do
  match ← Repo.updateStatus origin subscriptionID .unsubscribed with
  | some err => if err.is .errNotFound then return none else return some err
  | none => return none

end ReleaseNotifier
