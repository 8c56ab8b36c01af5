/-
`internal/messaging/publisher.go`, with `dialContext` and `declareTopology` of
`messaging.go`.

All publishers of a process share one connection and one channel, which any of
them may replace. The critical sections are programs of their own over the
client library and the two fields; under the mutex they run as one operation of
the publisher, whatever happens inside. Waiting for the broker is outside of the
mutex, so a channel may be closed under a caller that waits on it.

Connections, channels and deferred confirmations are named by their position in
the order in which they came to be, as pointers name them in the code. Of
`amqp091-go` the model has this: publishing on a closed channel is an error, and
closing a connection closes its channels. A `Close` waits for the server's
close-ok. An answer that the broker sent before it is dispatched first, and what
is outstanding after that is resolved as not acknowledged. A broker answers
nothing on a channel that is closed. Only a connection that dies loses answers
that are on their way.
-/
import ReleaseNotifier.Attempt
import ReleaseNotifier.Conc.Protocol
import ReleaseNotifier.Wire

set_option autoImplicit false

namespace ReleaseNotifier.Publisher

open Conc

/-! ## The shared state -/

/-- A connection that was dialled. It is `late` if `dialContext` had given up on
it before it came, and `released` once `Close` has been called on it. -/
structure Connection where
  late : Bool
  released : Bool
  deriving DecidableEq, Repr

/-- A channel, and the connection it was opened on. -/
structure Channel where
  conn : Nat
  closed : Bool
  deriving DecidableEq, Repr

/-- A message that was written to a channel, and the confirmation the caller
`call` waits for. `verdict` is the broker's, `resolved` what the caller sees,
`expired` says that `publishTimeout` has passed. -/
structure Confirmation where
  call : Nat
  chan : Nat
  routingKey : String
  body : Bytes
  verdict : Option Bool
  resolved : Option Bool
  expired : Bool
  deriving DecidableEq, Repr

/-- The fields `conn` and `ch` of the `Publisher`, the library's objects, the
contexts that are done, the dials nobody waits for any more and the calls made. -/
structure State where
  conn : Option Nat
  ch : Option Nat
  conns : List Connection
  chans : List Channel
  confirmations : List Confirmation
  cancelled : List Nat
  abandoned : Nat
  calls : List Nat

/-- A new `Publisher`. -/
def State.init : State := ⟨none, none, [], [], [], [], 0, []⟩

/-- The confirmation, if it is outstanding, resolved as `acked`. -/
def Confirmation.resolve (c : Confirmation) (acked : Bool) : Confirmation :=
  { c with resolved := some (c.resolved.getD acked) }

/-- What the caller has been told once the channel is closed: an answer the broker has
sent is dispatched before close-ok, and without one it is "not acknowledged". -/
def Confirmation.settle (c : Confirmation) : Confirmation := c.resolve (c.verdict.getD false)

/-- The same for a connection that is lost, with the answers on their way. -/
def Confirmation.drop (c : Confirmation) : Confirmation := c.resolve false

/-- Close the channels that satisfy `f`, and do `g` to the confirmations on them. -/
def State.closeWhere (s : State) (f : Nat → Channel → Bool) (g : Confirmation → Confirmation) :
    State :=
  { s with
    chans := s.chans.mapIdx (fun k x => if f k x then { x with closed := true } else x)
    confirmations := s.confirmations.map (fun c =>
      if (s.chans[c.chan]?).any (f c.chan) then g c else c) }

/-- `ch.Close`, and a channel the server closes: its channel.close comes after the
answers it has sent. -/
def State.closeChannel (s : State) (ch : Nat) : State :=
  s.closeWhere (fun k _ => decide (k = ch)) Confirmation.settle

/-- A connection that dies takes its channels with it. -/
def State.dropConn (s : State) (conn : Nat) : State :=
  s.closeWhere (fun _ x => decide (x.conn = conn)) Confirmation.drop

/-- `conn.Close`. -/
def State.closeConn (s : State) (conn : Nat) : State :=
  { s.closeWhere (fun _ x => decide (x.conn = conn)) Confirmation.settle with
    conns := s.conns.modify conn (fun x => { x with released := true }) }

/-! ## Under the mutex -/

/-- What the critical sections do: read and write the two fields, call the
library. -/
inductive LockedOp
  | fields
  | isClosed (ch : Nat)
  | dial (ctx : Nat)
  | openChannel (conn : Nat)
  | confirmMode (ch : Nat)
  | exchangeDeclare (ch : Nat) (exchange : String)
  | queueDeclare (ch : Nat) (queue : String)
  | queueBind (ch : Nat) (queue key exchange : String)
  | closeChannel (ch : Nat)
  | closeConn (conn : Nat)
  | clearCh
  | clearConn
  | install (conn ch : Nat)
  deriving DecidableEq

/-- What they are answered. -/
abbrev LockedOp.Res : LockedOp → Type
  | .fields => Option Nat × Option Nat
  | .isClosed _ => Bool
  | .dial _ => Except Err Nat
  | .openChannel _ => Except Err Nat
  | .confirmMode _ => Except Err Unit
  | .exchangeDeclare _ _ => Except Err Unit
  | .queueDeclare _ _ => Except Err Unit
  | .queueBind _ _ _ _ => Except Err Unit
  | .closeChannel _ => Except Err Unit
  | .closeConn _ => Except Err Unit
  | .clearCh => Unit
  | .clearConn => Unit
  | .install _ _ => Unit

/-- A call of the library that changes nothing here: it succeeds or fails. -/
def State.request (s : State) : Choice → Option (Except Err Unit × State)
  | .ok => some (.ok (), s)
  | .fail f => some (.error f.err, s)
  | _ => none

/-- A `Close`: it takes effect, with or without an error. Where it fails because the
connection is lost, the loss is an event of its own (`connDies`) that comes before. -/
def State.closing (s' : State) : Choice → Option (Except Err Unit × State)
  | .ok => some (.ok (), s')
  | .failApplied f => some (.error f.err, s')
  | _ => none

/-- What one of these operations does. `dial` is `dialContext`: the choice
`done` is the branch of its `select` that sees the context done and leaves the
dial to a goroutine of its own. -/
def lockedExec (s : State) : (o : LockedOp) → Choice → Option (o.Res × State)
  | .fields => fun
    | .ok => some ((s.conn, s.ch), s)
    | _ => none
  | .isClosed ch => fun
    | .ok => some ((s.chans[ch]?).all Channel.closed, s)
    | _ => none
  | .dial ctx => fun
    | .ok => some (.ok s.conns.length, { s with conns := s.conns ++ [⟨false, false⟩] })
    | .fail f => some (.error f.err, s)
    | .done f =>
      if ctx ∈ s.cancelled then some (.error f.err, { s with abandoned := s.abandoned + 1 })
      else none
    | _ => none
  | .openChannel conn => fun
    | .ok => some (.ok s.chans.length, { s with chans := s.chans ++ [⟨conn, false⟩] })
    | .fail f => some (.error f.err, s)
    | _ => none
  | .confirmMode _ => s.request
  | .exchangeDeclare _ _ => s.request
  | .queueDeclare _ _ => s.request
  | .queueBind _ _ _ _ => s.request
  | .closeChannel ch => (s.closeChannel ch).closing
  | .closeConn conn => (s.closeConn conn).closing
  | .clearCh => fun
    | .ok => some ((), { s with ch := none })
    | _ => none
  | .clearConn => fun
    | .ok => some ((), { s with conn := none })
    | _ => none
  | .install conn ch => fun
    | .ok => some ((), { s with conn := some conn, ch := some ch })
    | _ => none

/-- Programs of the critical sections. -/
abbrev Locked := Prog LockedOp LockedOp.Res

/-- Issue one operation under the mutex. -/
def locked (o : LockedOp) : Locked o.Res := Prog.perform o

/-- The error of an answer, if it is one. -/
def error? : Except Err Unit → Option Err
  | .error err => some err
  | .ok () => none

/-- `messaging.Topology`. -/
structure Topology where
  exchange : String
  queue : String
  routingKeys : List String
  deriving DecidableEq, Repr

/-- The loop over the routing keys in `declareTopology`. -/
def bindQueue (ch : Nat) (topology : Topology) : List String → Locked (Option Err)
  | [] => return none
  | key :: keys => do
    match ← locked (.queueBind ch topology.queue key topology.exchange) with
    | .error err =>
      return some (.wrap s!"messaging: bind queue {topology.queue} to {key}" err)
    | .ok () => bindQueue ch topology keys

/-- `declareTopology`. -/
def declareTopology (ch : Nat) (topology : Topology) : Locked (Option Err) := do
  match ← locked (.exchangeDeclare ch topology.exchange) with
  | .error err => return some (.wrap s!"messaging: declare exchange {topology.exchange}" err)
  | .ok () =>
    if topology.queue = "" then return none
    else
      match ← locked (.queueDeclare ch topology.queue) with
      | .error err => return some (.wrap s!"messaging: declare queue {topology.queue}" err)
      | .ok () => bindQueue ch topology topology.routingKeys

/-- The first half of `resetLocked`. -/
def resetCh : Locked (Option Err) := do
  let (_, ch) ← locked .fields
  match ch with
  | some ch =>
    let err ← locked (.closeChannel ch)
    locked .clearCh
    return error? err
  | none => return none

/-- The second half. -/
def resetConn : Locked (Option Err) := do
  let (conn, _) ← locked .fields
  match conn with
  | some conn =>
    let err ← locked (.closeConn conn)
    locked .clearConn
    return error? err
  | none => return none

/-- `resetLocked`. -/
def resetLocked : Locked (Option Err) := do
  let errCh ← resetCh
  let errConn ← resetConn
  return joinErrors errCh errConn

/-- The clean-up on the early exits of the dial path. -/
def closeBoth (err : Err) (ch conn : Nat) : Locked (Except Err Nat) := do
  let errCh ← locked (.closeChannel ch)
  let errConn ← locked (.closeConn conn)
  return .error ((joinErrors (some err) (joinErrors (error? errCh) (error? errConn))).getD err)

/-- `getChannel` after the second look at the fields. -/
def redial (topology : Topology) (ctx : Nat) : Locked (Except Err Nat) := do
  let _ ← resetLocked
  match ← locked (.dial ctx) with
  | .error err => return .error (.wrap "messaging: dial broker" err)
  | .ok conn =>
    match ← locked (.openChannel conn) with
    | .error err =>
      let errConn ← locked (.closeConn conn)
      let err := .wrap "messaging: open channel" err
      return .error ((joinErrors (some err) (error? errConn)).getD err)
    | .ok ch =>
      match ← locked (.confirmMode ch) with
      | .error err => closeBoth (.wrap "messaging: enable publisher confirms" err) ch conn
      | .ok () =>
        match ← declareTopology ch topology with
        | some err => closeBoth err ch conn
        | none =>
          locked (.install conn ch)
          return .ok ch

/-- The cached channel, if it is alive. -/
def liveChannel : Locked (Option Nat) := do
  let (_, ch) ← locked .fields
  match ch with
  | some ch =>
    let closed ← locked (.isClosed ch)
    return (if closed then none else some ch)
  | none => return none

/-- `getChannel` from `p.mu.Lock()` on. -/
def getChannelLocked (topology : Topology) (ctx : Nat) : Locked (Except Err Nat) := do
  match ← liveChannel with
  | some ch => return .ok ch
  | none => redial topology ctx

/-- `resetIfCurrent` under the mutex. -/
def resetIfCurrentLocked (failed : Nat) : Locked (Option Err) := do
  let (_, ch) ← locked .fields
  if ch ≠ some failed then return none else resetLocked

/-! ## The publisher -/

/-- The operations of the publisher: the critical sections, a publish, the wait
for its confirmation. -/
inductive Op
  | liveChannel
  | getChannelLocked (ctx : Nat)
  | resetIfCurrent (failed : Nat)
  | close
  | publish (call ch : Nat) (routingKey : String) (body : Bytes)
  | wait (confirmation ctx : Nat)
  deriving DecidableEq

/-- What they are answered. -/
abbrev Op.Res : Op → Type
  | .liveChannel => Option Nat
  | .getChannelLocked _ => Except Err Nat
  | .resetIfCurrent _ => Option Err
  | .close => Option Err
  | .publish _ _ _ _ => Except Err Nat
  | .wait _ _ => Except Err Bool

/-- A critical section runs to its end. -/
def critical {α : Type} (p : Locked α) (s : State) (chs : List Choice) : Option (α × State) :=
  match p.follow lockedExec chs s with
  | some (_, .ret a, s') => some (a, s')
  | _ => none

/-- `amqp.ErrClosed`. -/
def errClosed : Err := .text "Exception (504) Reason: \"channel/connection is not open\""

/-- `PublishWithDeferredConfirmWithContext`; the library does not look at the
context. -/
def State.publish (s : State) (call ch : Nat) (routingKey : String) (body : Bytes) :
    List Choice → Option (Except Err Nat × State)
  | [.ok] =>
    if (s.chans[ch]?).all Channel.closed then some (.error errClosed, s)
    else some (.ok s.confirmations.length, { s with
      confirmations := s.confirmations ++ [⟨call, ch, routingKey, body, none, none, false⟩] })
  | [.fail f] => some (.error f.err, s)
  | _ => none

/-- The context the call waits under is done: its own, or the timeout. -/
def State.isDone (s : State) (c : Confirmation) (ctx : Nat) : Bool :=
  decide (ctx ∈ s.cancelled) || c.expired

/-- `WaitContext`: its `select` takes a branch that is ready. -/
def State.wait (s : State) (confirmation ctx : Nat) :
    List Choice → Option (Except Err Bool × State)
  | [.receive] =>
    match s.confirmations[confirmation]? with
    | some c => c.resolved.map (fun acked => (.ok acked, s))
    | none => none
  | [.done f] =>
    match s.confirmations[confirmation]? with
    | some c => if s.isDone c ctx then some (.error f.err, s) else none
    | none => none
  | _ => none

/-- What one operation does and answers. -/
def exec (topology : Topology) (s : State) : (o : Op) → List Choice → Option (o.Res × State)
  | .liveChannel => critical Publisher.liveChannel s
  | .getChannelLocked ctx => critical (Publisher.getChannelLocked topology ctx) s
  | .resetIfCurrent failed => critical (resetIfCurrentLocked failed) s
  | .close => critical resetLocked s
  | .publish call ch routingKey body => s.publish call ch routingKey body
  | .wait confirmation ctx => s.wait confirmation ctx

/-- Programs of the publisher. -/
abbrev P := Prog Op Op.Res

/-- Issue one operation. -/
def perform (o : Op) : P o.Res := Prog.perform o

/-- `getChannel`. -/
def getChannel (ctx : Nat) : P (Except Err Nat) := do
  match ← perform .liveChannel with
  | some ch => return .ok ch
  | none => perform (.getChannelLocked ctx)

/-- `Publisher.Publish`, of the call `call` with the context `ctx`. -/
def publish (topology : Topology) (call ctx : Nat) (routingKey : String) (body : Bytes) :
    P (Option Err) := do
  match ← getChannel ctx with
  | .error err => return some err
  | .ok ch =>
    match ← perform (.publish call ch routingKey body) with
    | .error err =>
      let errReset ← perform (.resetIfCurrent ch)
      return joinErrors
        (some (.wrap s!"messaging: publish to {topology.exchange}/{routingKey}" err)) errReset
    | .ok confirmation =>
      match ← perform (.wait confirmation ctx) with
      | .error err =>
        let errReset ← perform (.resetIfCurrent ch)
        return joinErrors (some (.wrap
          s!"messaging: await broker confirm for {topology.exchange}/{routingKey}" err)) errReset
      | .ok ok =>
        if !ok then
          return some (.text s!"messaging: broker nacked publish to {topology.exchange}/{routingKey}")
        else return none

/-- The methods of a `Publisher`. -/
inductive Call
  | publish (call ctx : Nat) (routingKey : String) (body : Bytes)
  | close
  deriving DecidableEq

/-- The program of a call. -/
def program (topology : Topology) : Call → P (Option Err)
  | .publish call ctx routingKey body => publish topology call ctx routingKey body
  | .close => perform .close

/-- Make a call; a publish has a number of its own. -/
def enter (c : Call) (s : State) : Option State :=
  match c with
  | .publish call _ _ _ =>
    if call ∈ s.calls then none else some { s with calls := call :: s.calls }
  | .close => some s

/-- What happens without a call. The broker accepts a message and confirms it,
or refuses it, on a channel that is open; its answer arrives. A context is
cancelled, a timeout passes. Channels and connections die. A dial that was given
up on fails, or succeeds and its connection is closed by the goroutine that was
left waiting for it. -/
inductive WorldEvent
  | answer (confirmation : Nat) (accepted : Bool)
  | arrive (confirmation : Nat)
  | cancel (ctx : Nat)
  | expire (confirmation : Nat)
  | channelDies (ch : Nat)
  | connDies (conn : Nat)
  | lateDial (succeeds : Bool)
  | closeLate (conn : Nat)
  deriving DecidableEq, Repr

/-- Change one confirmation. -/
def State.amend (s : State) (confirmation : Nat) (f : Confirmation → Confirmation) : State :=
  { s with confirmations := s.confirmations.modify confirmation f }

/-- One step of the world. -/
def world : WorldEvent → State → Option State
  | .answer m accepted, s =>
    match s.confirmations[m]? with
    | some c =>
      if c.verdict.isNone && !(s.chans[c.chan]?).all Channel.closed then
        some (s.amend m (fun c => { c with verdict := some accepted }))
      else none
    | none => none
  | .arrive m, s =>
    match s.confirmations[m]? with
    | some c =>
      if c.resolved.isNone && c.verdict.isSome then
        some (s.amend m (fun c => { c with resolved := c.verdict }))
      else none
    | none => none
  | .cancel ctx, s => some { s with cancelled := ctx :: s.cancelled }
  | .expire m, s => some (s.amend m (fun c => { c with expired := true }))
  | .channelDies ch, s => some (s.closeChannel ch)
  | .connDies conn, s => some (s.dropConn conn)
  | .lateDial succeeds, s =>
    if s.abandoned = 0 then none
    else some { s with
      abandoned := s.abandoned - 1
      conns := if succeeds then s.conns ++ [⟨true, false⟩] else s.conns }
  | .closeLate conn, s =>
    match s.conns[conn]? with
    | some x => if x.late && !x.released then some (s.closeConn conn) else none
    | none => none

/-- The publisher. -/
def machine (topology : Topology) :
    Machine Op Op.Res State (List Choice) Call WorldEvent (Option Err) where
  program := program topology
  enter := enter
  exec := exec topology
  env := world

/-- A publisher nobody has used yet. -/
def init : Pool Op Op.Res State Call (Option Err) := ⟨.init, []⟩

end ReleaseNotifier.Publisher
