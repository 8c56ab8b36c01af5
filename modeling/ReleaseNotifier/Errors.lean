/-
Go errors as the code builds and inspects them.

The sentinels are the package-level variables of `internal/subscription`
(`errors.go`) and `internal/saga`, and the two errors of the standard library
the code passes on. Wrapping keeps the chain, because `errors.Is` and
`errors.As` walk it: whether a caller sees "already exists" depends on how an
error was wrapped on its way up, not only on where it arose.
-/
import Mathlib.Logic.Basic

set_option autoImplicit false

namespace ReleaseNotifier

/-- The errors that are compared by identity. -/
inductive Sentinel
  | errInvalidRepo
  | errRepoNotFound
  | errAlreadyExists
  | errTokenNotFound
  | errSubscriptionInactive
  | errInvalidEmail
  | errEmailSendFailed
  | errNotFound
  | errConfirmationFailed
  | errConfirmationTimeout
  | errInstanceNotFound
  deriving DecidableEq, Repr

/-- The text each sentinel is created with. `errInstanceNotFound` is the
`ErrNotFound` of `internal/saga/store.go`. -/
def Sentinel.text : Sentinel → String
  | .errInvalidRepo => "invalid repository format, expected owner/repo"
  | .errRepoNotFound => "repository not found on GitHub"
  | .errAlreadyExists => "subscription already exists"
  | .errTokenNotFound => "subscription token not found"
  | .errSubscriptionInactive => "subscription is not active"
  | .errInvalidEmail => "invalid email address"
  | .errEmailSendFailed => "failed to send email"
  | .errNotFound => "subscription not found"
  | .errConfirmationFailed => "saga: confirmation failed"
  | .errConfirmationTimeout => "saga: confirmation timed out"
  | .errInstanceNotFound => "saga: instance not found"

/-- An error value. -/
inductive Err
  /-- a package-level sentinel -/
  | sentinel (s : Sentinel)
  /-- `errors.New`, or an error of a driver or library with no identity of its own -/
  | text (msg : String)
  /-- a `*pq.Error`, of which the code reads the code and the constraint -/
  | pq (code constraint : String)
  /-- `fmt.Errorf("msg: %w", e)` -/
  | wrap (msg : String) (e : Err)
  /-- `fmt.Errorf("%w: %w", a, b)` -/
  | wrapBoth (a b : Err)
  /-- `errors.Join(a, b)` of two errors -/
  | join (a b : Err)
  deriving DecidableEq, Repr

/-- `errors.Is` against a sentinel. -/
def Err.is (s : Sentinel) : Err → Bool
  | .sentinel s' => decide (s' = s)
  | .text _ => false
  | .pq _ _ => false
  | .wrap _ e => e.is s
  | .wrapBoth a b => a.is s || b.is s
  | .join a b => a.is s || b.is s

/-- `errors.As` with a `*pq.Error` target: code and constraint of the first one
in the chain. -/
def Err.asPq? : Err → Option (String × String)
  | .sentinel _ => none
  | .text _ => none
  | .pq code constraint => some (code, constraint)
  | .wrap _ e => e.asPq?
  | .wrapBoth a b => a.asPq?.or b.asPq?
  | .join a b => a.asPq?.or b.asPq?

/-- `Error()`: the text of the whole chain. -/
def Err.error : Err → String
  | .sentinel s => s.text
  | .text msg => msg
  | .pq code constraint => "pq: " ++ code ++ " " ++ constraint
  | .wrap msg e => msg ++ ": " ++ e.error
  | .wrapBoth a b => a.error ++ ": " ++ b.error
  | .join a b => a.error ++ "\n" ++ b.error

/-- `errors.Join`: nil errors are dropped. -/
def joinErrors : Option Err → Option Err → Option Err
  | some a, some b => some (.join a b)
  | some a, none => some a
  | none, b => b

@[simp] theorem Err.is_sentinel (s s' : Sentinel) :
    (Err.sentinel s').is s = decide (s' = s) := rfl

@[simp] theorem Err.is_wrap (s : Sentinel) (msg : String) (e : Err) :
    (Err.wrap msg e).is s = e.is s := rfl

/-- Two `%w` in one format: `errors.Is` looks into both. -/
@[simp] theorem Err.is_wrapBoth (s : Sentinel) (a b : Err) :
    (Err.wrapBoth a b).is s = (a.is s || b.is s) := rfl

/-- An error that arises outside the code, in a driver, on the network or in a
library: a plain error, or a server error that names no constraint. It is never
one of the code's own sentinels. -/
inductive Fault
  | io (msg : String)
  | server (code : String)
  deriving DecidableEq, Repr

/-- The error value the code sees. -/
def Fault.err : Fault → Err
  | .io msg => .text msg
  | .server code => .pq code ""

/-- What a driver or a network reports is none of the program's sentinels. -/
@[simp] theorem Fault.is_err (s : Sentinel) (f : Fault) : f.err.is s = false := by
  cases f <;> rfl

/-- The code Postgres gives to a violated unique constraint. -/
def pgUniqueViolation : String := "23505"

/-- The code Postgres gives to a violated foreign key. -/
def pgForeignKeyViolation : String := "23503"

/-- The code Postgres gives to a string that is longer than its column. -/
def pgStringDataRightTruncation : String := "22001"

end ReleaseNotifier
