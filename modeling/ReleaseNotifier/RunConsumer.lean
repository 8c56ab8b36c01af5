/-
`internal/messaging/consumer.go`: a consumer of a queue that reconnects for ever.

The broker's side is a queue with consumers on channels. A message that has been
delivered stays with its channel until it is settled there; a channel that closes,
for whatever reason and whoever notices first, gives what is left on it back to the
queue. The client's side is what the library has read off the socket and not handed
out yet; it may hand out a delivery whose channel is gone, and a settlement may be
written to a connection that breaks before the broker reads it.

`RunConsumer` is translated from the loop over sessions down to `settle`. Programs
are finite, so the two endless loops are unrolled a number of times that the call
carries; a call that comes to the end of it is `unfinished`, which is not an end in
the source and promises nothing. The handler is an operation that may answer any
`Action`, numbers without a name included.
-/
import ReleaseNotifier.Conc.Protocol
import ReleaseNotifier.Topology

set_option autoImplicit false

namespace ReleaseNotifier.Consuming

open Conc
open Publisher (Topology)

/-! ## The queue and its consumers -/

/-- A message, with its position in the order of publication. -/
structure Message where
  id : Nat
  body : Bytes
  deriving DecidableEq, Repr

/-- A message handed to the consumer of a channel. The tag tells deliveries apart,
also those of one message. -/
structure Delivery where
  ch : Nat
  tag : Nat
  message : Message
  deriving DecidableEq, Repr

/-- An `Action`, which is a number in the source. -/
inductive Verdict
  | known (action : Action)
  | unknown (n : Int)
  deriving DecidableEq, Repr

/-- A connection, and the context of the `RunConsumer` it was dialled for. It is
`late` if `dialContext` had given up on it before it came, and `released` once
`Close` has been called on it. -/
structure Connection where
  owner : Nat
  late : Bool
  released : Bool
  deriving DecidableEq, Repr

/-- A channel as the broker sees it. A prefetch of 0 is no limit. -/
structure Channel where
  conn : Nat
  prefetch : Nat
  consuming : Bool
  closed : Bool
  deriving DecidableEq, Repr

/-- The broker's queue, what clients have read and not handed out (`buffered`), what
handlers have answered, and the bookkeeping of connections. `refused` counts the
settlements the broker answers with `PRECONDITION_FAILED`. -/
structure State where
  conns : List Connection
  chans : List Channel
  published : List Message
  ready : List Message
  unacked : List Delivery
  acked : List Message
  dropped : List Message
  buffered : List Delivery
  verdicts : List (Delivery × Verdict)
  tags : Nat
  refused : Nat
  contexts : List Nat
  cancelled : List Nat
  abandoned : List Nat

/-- A queue nobody has used yet. -/
def State.init : State := ⟨[], [], [], [], [], [], [], [], [], 0, 0, [], [], []⟩

/-- The channel is open at the broker. -/
def State.isOpen (s : State) (ch : Nat) : Bool := (s.chans[ch]?).any (fun x => !x.closed)

/-- The broker closes the channels that satisfy `f`: what is unacknowledged on them
is ready again. -/
def State.closeWhere (s : State) (f : Nat → Channel → Bool) : State :=
  let gone (d : Delivery) : Bool := (s.chans[d.ch]?).any (f d.ch)
  { s with
    chans := s.chans.mapIdx (fun k x => if f k x then { x with closed := true } else x)
    ready := s.ready ++ (s.unacked.filter gone).map Delivery.message
    unacked := s.unacked.filter (fun d => !gone d) }

/-- One channel. -/
def State.closeChannel (s : State) (ch : Nat) : State := s.closeWhere (fun k _ => decide (k = ch))

/-- The channels of a connection. -/
def State.dropConn (s : State) (conn : Nat) : State :=
  s.closeWhere (fun _ x => decide (x.conn = conn))

/-- `conn.Close` on the client's side. -/
def State.release (s : State) (conn : Nat) : State :=
  { s with conns := s.conns.modify conn (fun x => { x with released := true }) }

/-- How a delivery is settled: `Ack(false)`, `Nack(false, false)` or
`Nack(false, true)`. -/
inductive Settlement
  | ack
  | drop
  | requeue
  deriving DecidableEq, Repr

/-- A delivery taken off its channel. -/
def State.take (s : State) (d : Delivery) (how : Settlement) : State :=
  { s with
    unacked := s.unacked.erase d
    ready := s.ready ++ (if how = .requeue then [d.message] else [])
    acked := s.acked ++ (if how = .ack then [d.message] else [])
    dropped := s.dropped ++ (if how = .drop then [d.message] else []) }

/-- A settlement that gets to the broker. Nobody listens on a closed channel; on an
open one a tag that is not outstanding is an error that closes the channel. -/
def State.settle (s : State) (d : Delivery) (how : Settlement) : State :=
  if s.isOpen d.ch then
    if d ∈ s.unacked then s.take d how
    else { s.closeChannel d.ch with refused := s.refused + 1 }
  else s

/-! ## The library -/

/-- What `RunConsumer` calls. -/
inductive Op
  | ctxErr (ctx : Nat)
  | dial (ctx : Nat)
  | openChannel (conn : Nat)
  | declare (ch : Nat) (o : Messaging.DeclareOp)
  | qos (ch : Nat) (prefetch : Int)
  | consume (ch : Nat) (queue : String)
  | select (ctx ch : Nat)
  | handle (ctx : Nat) (d : Delivery)
  | settle (d : Delivery) (how : Settlement)
  | closeChannel (ch : Nat)
  | closeConn (conn : Nat)
  | sleep (ctx : Nat)
  | log (event : String)
  deriving DecidableEq

/-- The cases of the `select` in `pump`. -/
inductive Selected
  | done
  | closed (err : Option Err)
  | delivery (d : Option Delivery)

/-- What the calls are answered. -/
abbrev Op.Res : Op → Type
  | .ctxErr _ => Bool
  | .dial _ => Except Err Nat
  | .openChannel _ => Except Err Nat
  | .declare _ _ => Except Err Unit
  | .qos _ _ => Except Err Unit
  | .consume _ _ => Except Err Unit
  | .select _ _ => Selected
  | .handle _ _ => Verdict
  | .settle _ _ => Except Err Unit
  | .closeChannel _ => Except Err Unit
  | .closeConn _ => Except Err Unit
  | .sleep _ => Bool
  | .log _ => Unit

/-- The environment's part in one of them. -/
inductive Turn
  | ok
  /-- it fails and has no effect -/
  | fail (f : Fault)
  /-- it reports an error although it took effect -/
  | failApplied (f : Fault)
  /-- it reports success and never gets to the broker -/
  | lost
  /-- the `select` sees the context done -/
  | done (f : Fault)
  /-- it sees the channel's close notification, with a reason or without -/
  | closed (f : Option Fault)
  /-- it sees the deliveries closed -/
  | drained
  /-- it receives the delivery with this tag -/
  | receive (tag : Nat)
  | verdict (v : Verdict)
  deriving DecidableEq, Repr

/-- A request to the broker with an effect. -/
def request (s s' : State) : Turn → Option (Except Err Unit × State)
  | .ok => some (.ok (), s')
  | .fail f => some (.error f.err, s)
  | .failApplied f => some (.error f.err, s')
  | _ => none

/-- Change one channel. -/
def State.amend (s : State) (ch : Nat) (f : Channel → Channel) : State :=
  { s with chans := s.chans.modify ch f }

/-- `ch.Qos` puts the count into 16 bits. -/
def wirePrefetch (prefetch : Int) : Nat := (prefetch % 65536).toNat

/-- What one call does. `dial` is `dialContext`: with `done` it leaves the dial to a
goroutine of its own. A `Close` of a connection always counts on the client's side;
the broker may have to find out by itself. -/
def exec (s : State) : (o : Op) → Turn → Option (o.Res × State)
  | .ctxErr ctx => fun
    | .ok => some (decide (ctx ∈ s.cancelled), s)
    | _ => none
  | .dial ctx => fun
    | .ok => some (.ok s.conns.length, { s with conns := s.conns ++ [⟨ctx, false, false⟩] })
    | .fail f => some (.error f.err, s)
    | .done f =>
      if ctx ∈ s.cancelled then some (.error f.err, { s with abandoned := ctx :: s.abandoned })
      else none
    | _ => none
  | .openChannel conn => fun
    | .ok => some (.ok s.chans.length, { s with chans := s.chans ++ [⟨conn, 0, false, false⟩] })
    | .fail f => some (.error f.err, s)
    | _ => none
  | .declare _ _ => request s s
  | .qos ch prefetch =>
    request s (s.amend ch (fun x => { x with prefetch := wirePrefetch prefetch }))
  | .consume ch _ => request s (s.amend ch (fun x => { x with consuming := true }))
  | .select ctx ch => fun
    | .done _ => if ctx ∈ s.cancelled then some (.done, s) else none
    | .closed f => if s.isOpen ch then none else some (.closed (f.map Fault.err), s)
    | .drained => if s.isOpen ch then none else some (.delivery none, s)
    | .receive tag =>
      (s.buffered.find? (fun d => decide (d.ch = ch ∧ d.tag = tag))).map
        (fun d => (.delivery (some d), { s with buffered := s.buffered.erase d }))
    | _ => none
  | .handle _ d => fun
    | .verdict v => some (v, { s with verdicts := (d, v) :: s.verdicts })
    | _ => none
  | .settle d how => fun
    | .lost => some (.ok (), s)
    | turn => request s (s.settle d how) turn
  | .closeChannel ch => request s (s.closeChannel ch)
  | .closeConn conn => fun
    | .fail f => some (.error f.err, s.release conn)
    | turn => request s ((s.dropConn conn).release conn) turn
  | .sleep ctx => fun
    | .ok => some (true, s)
    | .done _ => if ctx ∈ s.cancelled then some (false, s) else none
    | _ => none
  | .log _ => fun
    | .ok => some ((), s)
    | _ => none

section Answers

variable {s s' t : State} {turn : Turn}

variable {r : Except Err Unit}

/-- A request to the broker fails without a trace, or takes effect. -/
theorem request_answer (h : request s t turn = some (r, s')) :
    (s' = s ∧ ∃ err, r = .error err) ∨ s' = t := by
  cases turn <;> simp only [request, Option.some.injEq, Prod.mk.injEq, reduceCtorEq] at h
  · exact .inr h.2.symm
  · exact .inl ⟨h.2.symm, _, h.1.symm⟩
  · exact .inr h.2.symm

/-- A dial answers with a new connection, or gives up and leaves at most an abandoned one. -/
theorem dial_answer {ctx : Nat} {r : Except Err Nat} (h : exec s (.dial ctx) turn = some (r, s')) :
    (∃ err l, r = .error err ∧ s' = { s with abandoned := l }) ∨
      (r = .ok s.conns.length ∧ s' = { s with conns := s.conns ++ [⟨ctx, false, false⟩] }) := by
  cases turn <;> simp only [exec, Option.some.injEq, Prod.mk.injEq, reduceCtorEq] at h
  · exact .inr ⟨h.1.symm, h.2.symm⟩
  · exact .inl ⟨_, s.abandoned, h.1.symm, h.2.symm⟩
  · split at h
    · cases h
      exact .inl ⟨_, _, rfl, rfl⟩
    · cases h

/-- Channels are numbered in the order in which they are opened. -/
theorem openChannel_answer {conn : Nat} {r : Except Err Nat}
    (h : exec s (.openChannel conn) turn = some (r, s')) :
    (s' = s ∧ ∃ err, r = .error err) ∨
      (r = .ok s.chans.length ∧ s' = { s with chans := s.chans ++ [⟨conn, 0, false, false⟩] }) := by
  cases turn <;> simp only [exec, Option.some.injEq, Prod.mk.injEq, reduceCtorEq] at h
  · exact .inr ⟨h.1.symm, h.2.symm⟩
  · exact .inl ⟨h.2.symm, _, h.1.symm⟩

/-- The select loop takes deliveries of its own channel, from what the client has buffered. -/
theorem select_answer {ctx ch : Nat} {r : Selected}
    (h : exec s (.select ctx ch) turn = some (r, s')) :
    (s' = s ∧ ∀ d, r ≠ .delivery (some d)) ∨
      ∃ d ∈ s.buffered, d.ch = ch ∧ r = .delivery (some d) ∧
        s' = { s with buffered := s.buffered.erase d } := by
  cases turn <;> simp only [exec, Option.map_eq_some_iff, reduceCtorEq] at h
  · split at h <;> cases h
    exact .inl ⟨rfl, fun d hd => by cases hd⟩
  · split at h <;> cases h
    exact .inl ⟨rfl, fun d hd => by cases hd⟩
  · split at h <;> cases h
    exact .inl ⟨rfl, fun d hd => by cases hd⟩
  · obtain ⟨d, hfind, heq⟩ := h
    cases heq
    have hd := List.find?_some hfind
    rw [decide_eq_true_eq] at hd
    exact .inr ⟨d, List.mem_of_find?_eq_some hfind, hd.1, rfl, rfl⟩

/-- A context is reported done only after its cancellation. -/
theorem ctxErr_answer {ctx : Nat} {r : Bool} (h : exec s (.ctxErr ctx) turn = some (r, s'))
    (hr : r = true) : ctx ∈ s.cancelled := by
  cases turn <;> simp only [exec, Option.some.injEq, Prod.mk.injEq, reduceCtorEq] at h
  exact of_decide_eq_true (h.1.trans hr)

/-- The backoff is cut short only by a cancellation. -/
theorem sleep_answer {ctx : Nat} {r : Bool} (h : exec s (.sleep ctx) turn = some (r, s'))
    (hr : r = false) : ctx ∈ s.cancelled := by
  cases turn <;> simp only [exec, Option.some.injEq, Prod.mk.injEq, reduceCtorEq] at h
  · exact absurd (h.1.trans hr) (by simp)
  · split at h
    · next hdone => exact hdone
    · cases h

/-- A handler's verdict is recorded under the delivery it is about. -/
theorem handle_answer {ctx : Nat} {d : Delivery} {v : Verdict}
    (h : exec s (.handle ctx d) turn = some (v, s')) :
    s' = { s with verdicts := (d, v) :: s.verdicts } := by
  cases turn <;> simp only [exec, Option.some.injEq, Prod.mk.injEq, reduceCtorEq] at h
  obtain ⟨rfl, rfl⟩ := h
  rfl

/-- A settlement reaches the broker or does not. -/
theorem settle_answer {d : Delivery} {how : Settlement}
    (h : exec s (.settle d how) turn = some (r, s')) : s' = s ∨ s' = s.settle d how := by
  cases turn <;> simp only [exec, request, Option.some.injEq, Prod.mk.injEq, reduceCtorEq] at h
  · exact .inr h.2.symm
  · exact .inl h.2.symm
  · exact .inr h.2.symm
  · exact .inl h.2.symm

/-- The client's side of a connection is gone after `Close`, the broker's perhaps. -/
theorem closeConn_answer {conn : Nat} (h : exec s (.closeConn conn) turn = some (r, s')) :
    s' = s.release conn ∨ s' = (s.dropConn conn).release conn := by
  cases turn <;> simp only [exec, request, Option.some.injEq, Prod.mk.injEq, reduceCtorEq] at h
  · exact .inr h.2.symm
  · exact .inl h.2.symm
  · exact .inr h.2.symm

end Answers

abbrev Session := Prog Op Op.Res

def perform (o : Op) : Session o.Res := Prog.perform o

def log (event : String) : Session Unit := perform (.log event)

/-! ## `RunConsumer` -/

/-- How a function that loops ended: it returned an error or nil, or it has been
followed no further. -/
inductive Ended
  | returned (err : Option Err)
  | unfinished
  deriving DecidableEq, Repr

structure ConsumerConfig where
  url : String
  topology : Topology
  prefetch : Int
  deriving DecidableEq, Repr

def defaultPrefetch : Int := 16

/-- The prefetch `consumeSession` settles on. -/
def ConsumerConfig.effective (cfg : ConsumerConfig) : Int :=
  if cfg.prefetch ≤ 0 then defaultPrefetch else cfg.prefetch

/-- The last lines of `settle`. -/
def reported : Except Err Unit → Session Unit
  | .error _ => log "consumer_settle_failed"
  | .ok () => return ()

/-- `settle`. -/
def settle (ctx : Nat) (d : Delivery) : Session Unit := do
  let err ← match ← perform (.handle ctx d) with
    | .known .ack => perform (.settle d .ack)
    | .known .drop => perform (.settle d .drop)
    | .known .requeue => perform (.settle d .requeue)
    | .unknown _ => do
      log "consumer_settle_unknown_action"
      perform (.settle d .requeue)
  reported err

/-- `pump`. -/
def pump (ctx ch : Nat) : Nat → Session Ended
  | 0 => return .unfinished
  | rounds + 1 => do
    match ← perform (.select ctx ch) with
    | .done => return .returned none
    | .closed (some err) => return .returned (some (.wrap "messaging: channel closed" err))
    | .closed none => return .returned (some (.text "messaging: channel closed"))
    | .delivery none => return .returned (some (.text "messaging: deliveries channel closed"))
    | .delivery (some d) =>
      settle ctx d
      pump ctx ch rounds

/-- A deferred `Close`: it is called when the function returns. -/
def deferring (close : Session (Except Err Unit)) (body : Session Ended) : Session Ended := do
  match ← body with
  | .unfinished => return .unfinished
  | .returned err =>
    let _ ← close
    return .returned err

/-- `consumeSession` once it has a channel. -/
def onChannel (cfg : ConsumerConfig) (ctx ch rounds : Nat) : Session Ended := do
  match ← (Messaging.declareTopology cfg.topology).interpret
      (fun o => perform (.declare ch o)) with
  | some err => return .returned (some err)
  | none =>
    match ← perform (.qos ch cfg.effective) with
    | .error err => return .returned (some (.wrap "messaging: set qos" err))
    | .ok () =>
      match ← perform (.consume ch cfg.topology.queue) with
      | .error err =>
        return .returned (some (.wrap s!"messaging: consume {cfg.topology.queue}" err))
      | .ok () =>
        log "consumer_started"
        pump ctx ch rounds

/-- `consumeSession`. -/
def consumeSession (cfg : ConsumerConfig) (ctx rounds : Nat) : Session Ended := do
  match ← perform (.dial ctx) with
  | .error err => return .returned (some (.wrap "messaging: dial broker" err))
  | .ok conn =>
    deferring (perform (.closeConn conn)) do
      match ← perform (.openChannel conn) with
      | .error err => return .returned (some (.wrap "messaging: open channel" err))
      | .ok ch => deferring (perform (.closeChannel ch)) (onChannel cfg ctx ch rounds)

/-- The loop of `RunConsumer`. -/
def reconnecting (cfg : ConsumerConfig) (ctx rounds : Nat) : Nat → Session Ended
  | 0 => return .unfinished
  | sessions + 1 => do
    if ← perform (.ctxErr ctx) then return .returned none
    else
      match ← consumeSession cfg ctx rounds with
      | .unfinished => return .unfinished
      | .returned none => reconnecting cfg ctx rounds sessions
      | .returned (some _) =>
        log "consumer_session_failed"
        if ← perform (.sleep ctx) then reconnecting cfg ctx rounds sessions
        else return .returned none

/-- `RunConsumer`; `nilHandler` says that `handle` is nil. -/
def runConsumer (cfg : ConsumerConfig) (nilHandler : Bool) (ctx rounds sessions : Nat) :
    Session Ended :=
  if nilHandler then return .returned (some (.text "messaging: consumer handler is nil"))
  else if cfg.url = "" ∨ cfg.topology.queue = "" then
    return .returned (some (.text "messaging: consumer url and queue are required"))
  else reconnecting cfg ctx rounds sessions

/-! ## Consumers side by side -/

/-- A call of `RunConsumer`, with the context it is given. -/
structure Call where
  nilHandler : Bool
  ctx : Nat
  rounds : Nat
  sessions : Nat
  deriving DecidableEq, Repr

/-- What happens without a call: a message is published, or delivered on a channel
that has room for it; channels and connections die; a context is cancelled; a dial
that was given up on fails, or succeeds and is closed by the goroutine that was left
waiting for it. -/
inductive WorldEvent
  | publish (body : Bytes)
  | deliver (ch : Nat) (message : Message)
  | channelDies (ch : Nat)
  | connDies (conn : Nat)
  | cancel (ctx : Nat)
  | lateDial (ctx : Nat) (succeeds : Bool)
  | closeLate (conn : Nat)
  deriving DecidableEq, Repr

/-- The broker may deliver on this channel. -/
def State.hasRoom (s : State) (ch : Nat) : Bool :=
  (s.chans[ch]?).any (fun x => x.consuming && !x.closed &&
    (x.prefetch == 0 || decide (s.unacked.countP (fun d => decide (d.ch = ch)) < x.prefetch)))

/-- A message delivered. -/
def State.deliver (s : State) (ch : Nat) (message : Message) : State :=
  let d : Delivery := ⟨ch, s.tags, message⟩
  { s with
    ready := s.ready.erase message
    unacked := s.unacked ++ [d]
    buffered := s.buffered ++ [d]
    tags := s.tags + 1 }

/-- One step of the world. -/
def world : WorldEvent → State → Option State
  | .publish body, s =>
    let message : Message := ⟨s.published.length, body⟩
    some { s with published := s.published ++ [message], ready := s.ready ++ [message] }
  | .deliver ch message, s =>
    if s.hasRoom ch ∧ message ∈ s.ready then some (s.deliver ch message) else none
  | .channelDies ch, s => some (s.closeChannel ch)
  | .connDies conn, s => some (s.dropConn conn)
  | .cancel ctx, s => some { s with cancelled := ctx :: s.cancelled }
  | .lateDial ctx succeeds, s =>
    if ctx ∈ s.abandoned then some { s with
      abandoned := s.abandoned.erase ctx
      conns := if succeeds then s.conns ++ [⟨ctx, true, false⟩] else s.conns }
    else none
  | .closeLate conn, s =>
    match s.conns[conn]? with
    | some x => if x.late then some ((s.dropConn conn).release conn) else none
    | none => none

/-- The consumers of one queue; every call has a context of its own. -/
def machine (cfg : ConsumerConfig) : Machine Op Op.Res State Turn Call WorldEvent Ended where
  program c := runConsumer cfg c.nilHandler c.ctx c.rounds c.sessions
  enter c s :=
    if c.ctx ∈ s.contexts then none else some { s with contexts := c.ctx :: s.contexts }
  exec := exec
  env := world

abbrev Consumers := Pool Op Op.Res State Call Ended

/-- Nobody consumes yet. -/
def init : Consumers := ⟨.init, []⟩

end ReleaseNotifier.Consuming
