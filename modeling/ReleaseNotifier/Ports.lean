/-
The ends of the two transports between the monolith and the notifier, with the
contexts they run under.

On the monolith's side are `notification.Publisher`, which turns a request into a
command on the broker, and `notification.Client`, which makes an RPC of it. On
the notifier's side are the broker consumer, the saga participant and the gRPC
server, each a client of the same service. The reply consumer of the
orchestrator closes the circle. All of them are translated against the
interfaces they are given (`Outlet`, `Port`), and say with each call which
context they pass.

The handlers are modelled elsewhere without contexts, against the statements
they execute. They are the same programs: the theorems at the end erase the
contexts and fill the interfaces in.
-/
import ReleaseNotifier.Conc.Scoped
import ReleaseNotifier.Orchestrator
import ReleaseNotifier.Notifier
import ReleaseNotifier.Poller

set_option autoImplicit false

namespace ReleaseNotifier

/-- `tracectx.WithTraceID`. -/
def Context.withTraceID (ctx : Context) (id : String) : Context := { ctx with traceID := some id }

/-- The context a handler goes on with when a message carries `id`. -/
def Context.adopt (ctx : Context) (id : String) : Context :=
  if id ≠ "" then ctx.withTraceID id else ctx

namespace Ports

open Conc

/-! ## The monolith's side -/

/-- `notificationv1.SendReleaseNotificationRequest`; its release may be absent. -/
structure SendReleaseNotificationRequest where
  email : String
  repo : String
  release : Option Release
  deriving DecidableEq, Repr

/-- What the monolith calls to reach the notifier: `broker.Publish` and the stub
of the gRPC client. -/
inductive Outlet
  | publish (routingKey : String) (body : Bytes)
  | sendReleaseNotification (req : SendReleaseNotificationRequest)
  deriving DecidableEq

/-- What they answer; an RPC answers with `delivered`. -/
abbrev Outlet.Res : Outlet → Type
  | .publish _ _ => Except Err Unit
  | .sendReleaseNotification _ => Except Err Bool

/-- Programs over the outlets. -/
abbrev Outgoing := Prog.Traced Context Outlet Outlet.Res

/-- Call an outlet under a context. -/
def Outlet.call (ctx : Context) (o : Outlet) : Outgoing o.Res := Prog.perform (Scoped.within ctx o)

namespace Publisher

/-- `releaseToEvent`. -/
def releaseToEvent : Option Poller.Release → Release
  -- the event has no way to say that there is none
  | none => ⟨"", "", "", ""⟩
  | some rel => ⟨rel.tagName, rel.name, rel.htmlURL, rel.publishedAt⟩

/-- `Publisher.publish`. -/
def publish (json : Json) (ctx : Context) (msgType : String) (payload : Bytes) :
    Outgoing (Option Err) :=
  match json.envelope.marshal ⟨msgType, ctx.traceID.getD "", payload⟩ with
  | .error f => return some (.wrap s!"marshaling {msgType} envelope" f.err)
  | .ok body => do
    match ← Outlet.call ctx (.publish msgType body) with
    | .error err => return some (.wrap s!"publishing {msgType} command" err)
    | .ok () => return none

/-- `Publisher.SendConfirmation`. -/
def sendConfirmation (json : Json) (ctx : Context) (email confirmURL repo : String) :
    Outgoing (Option Err) :=
  match json.confirmation.marshal ⟨email, confirmURL, repo⟩ with
  | .error f => return some (.wrap "marshaling confirmation command" f.err)
  | .ok payload => publish json ctx typeConfirmation payload

/-- `Publisher.SendReleaseNotification`. -/
def sendReleaseNotification (json : Json) (ctx : Context) (email repo : String)
    (rel : Option Poller.Release) : Outgoing (Option Err) :=
  match json.release.marshal ⟨email, repo, releaseToEvent rel⟩ with
  | .error f => return some (.wrap "marshaling release command" f.err)
  | .ok payload => publish json ctx typeRelease payload

end Publisher

namespace Client

/-- `releaseToProto`. -/
def releaseToProto : Option Poller.Release → Option Release
  | none => none
  | some rel => some ⟨rel.tagName, rel.name, rel.htmlURL, rel.publishedAt⟩

/-- `Client.SendReleaseNotification`; the status code in the error's text is left
out. -/
def sendReleaseNotification (ctx : Context) (email repo : String) (rel : Option Poller.Release) :
    Outgoing (Option Err) := do
  match ← Outlet.call ctx (.sendReleaseNotification ⟨email, repo, releaseToProto rel⟩) with
  | .error err => return some (.wrap "notification grpc send release notification failed" err)
  | .ok delivered =>
    -- one that was sent before is no error
    if !delivered then Prog.log ctx "notification_deduped"
    return none

end Client

/-! ## The notifier's side -/

open Notifier (Mail Confirmation ReleaseInfo)

/-- What the notifier's handlers call: a method of the service, given by its
arguments, and the reply publisher. -/
inductive Port
  | service (mail : Mail)
  | publish (routingKey : String) (body : Bytes)
  deriving DecidableEq

/-- What they answer; the service answers with `delivered`. -/
abbrev Port.Res : Port → Type
  | .service _ => Except Err Bool
  | .publish _ _ => Except Err Unit

/-- Programs over the ports. -/
abbrev Handler := Prog.Traced Context Port Port.Res

/-- Call a port under a context. -/
def Port.call (ctx : Context) (o : Port) : Handler o.Res := Prog.perform (Scoped.within ctx o)

namespace Consumer

/-- `handleConfirmation`. -/
def handleConfirmation (json : Json) (ctx : Context) (payload : Bytes) : Handler Action :=
  match json.confirmation.unmarshal payload with
  | .error _ => do
    Prog.log ctx "consume_decode_failed"
    return .drop
  | .ok cmd =>
    if cmd.email = "" ∨ cmd.confirmURL = "" ∨ cmd.repo = "" then do
      Prog.log ctx "consume_invalid_command"
      return .drop
    else do
      match ← Port.call ctx (.service (.confirmation ⟨cmd.email, cmd.confirmURL, cmd.repo⟩)) with
      | .error _ =>
        Prog.log ctx "consume_send_failed"
        return .requeue
      | .ok _ => return .ack

/-- `handleRelease`. -/
def handleRelease (json : Json) (ctx : Context) (payload : Bytes) : Handler Action :=
  match json.release.unmarshal payload with
  | .error _ => do
    Prog.log ctx "consume_decode_failed"
    return .drop
  | .ok cmd =>
    if cmd.email = "" ∨ cmd.repo = "" then do
      Prog.log ctx "consume_invalid_command"
      return .drop
    else do
      match ← Port.call ctx (.service (.release cmd.email cmd.repo
          (some ⟨cmd.release.tagName, cmd.release.name, cmd.release.htmlURL,
            cmd.release.publishedAt⟩))) with
      | .error _ =>
        Prog.log ctx "consume_send_failed"
        return .requeue
      | .ok _ => return .ack

/-- `Consumer.Handle`. -/
def handle (json : Json) (ctx : Context) (body : Bytes) : Handler Action :=
  match json.envelope.unmarshal body with
  | .error _ => do
    Prog.log ctx "consume_decode_failed"
    return .drop
  | .ok envelope =>
    let ctx := ctx.adopt envelope.traceID
    if envelope.type = typeConfirmation then handleConfirmation json ctx envelope.payload
    else if envelope.type = typeRelease then handleRelease json ctx envelope.payload
    else do
      Prog.log ctx "consume_unknown_type"
      return .drop

end Consumer

namespace Participant

/-- `Participant.reply`. -/
def reply (json : Json) (ctx : Context) (cmd : Command) (replyType reason : String) :
    Handler Action :=
  match json.reply.marshal ⟨cmd.sagaID, replyType, cmd.traceID, json.replyPayload reason⟩ with
  | .error _ => do
    Prog.log ctx "saga_reply_marshal_failed"
    return .requeue
  | .ok body => do
    match ← Port.call ctx (.publish replyType body) with
    | .error _ =>
      Prog.log ctx "saga_reply_publish_failed"
      return .requeue
    | .ok () => return .ack

/-- The body of `Participant.Handle` once the command is decoded and its trace
id is in the context. -/
def process (json : Json) (ctx : Context) (cmd : Command) : Handler Action :=
  if cmd.type ≠ cmdSendConfirmation then do
    Prog.log ctx "saga_command_unknown_type"
    return .drop
  else
    match json.payload.unmarshal cmd.payload with
    | .error _ => do
      Prog.log ctx "saga_command_decode_failed"
      -- the saga is told, so that it is not left waiting
      reply json ctx cmd replyConfirmationFailed "invalid payload"
    | .ok payload =>
      if payload.email = "" ∨ payload.confirmURL = "" ∨ payload.repo = "" then do
        Prog.log ctx "saga_command_invalid"
        reply json ctx cmd replyConfirmationFailed "missing fields"
      else do
        match ← Port.call ctx
            (.service (.confirmation ⟨payload.email, payload.confirmURL, payload.repo⟩)) with
        | .error err =>
          Prog.log ctx "saga_confirmation_send_failed"
          reply json ctx cmd replyConfirmationFailed err.error
        | .ok _ => reply json ctx cmd replyConfirmationSent ""

/-- `Participant.Handle`. -/
def handle (json : Json) (ctx : Context) (body : Bytes) : Handler Action :=
  match json.command.unmarshal body with
  | .error _ => do
    Prog.log ctx "saga_command_decode_failed"
    return .drop
  | .ok cmd => process json (ctx.adopt cmd.traceID) cmd

end Participant

namespace Server

/-- The status codes the server answers with. -/
inductive Code
  | invalidArgument
  | unavailable
  deriving DecidableEq, Repr

/-- `releaseFromProto`. -/
def releaseFromProto : Option Release → Option ReleaseInfo
  | none => none
  | some rel => some ⟨rel.tagName, rel.name, rel.htmlURL, rel.publishedAt⟩

/-- `Server.SendReleaseNotification`. -/
def sendReleaseNotification (ctx : Context) (req : Option SendReleaseNotificationRequest) :
    Handler (Except (Code × String) Bool) :=
  match req with
  | none => return .error (.invalidArgument, "request is required")
  | some req =>
    if req.email = "" ∨ req.repo = "" then
      return .error (.invalidArgument, "email and repo are required")
    else do
      match ← Port.call ctx
          (.service (.release req.email req.repo (releaseFromProto req.release))) with
      | .error _ =>
        Prog.log ctx "send_release_notification_failed"
        return .error (.unavailable, "failed to send release notification")
      | .ok delivered => return .ok delivered

end Server

/-! ## The reply consumer -/

namespace Replies

/-- Programs of the orchestrator, with their contexts. -/
abbrev Orchestration := Prog.Traced Context Op Op.Res

/-- `compensate`. -/
def compensate (ctx : Context) (sagaID : String) : Orchestration (Option Err) := do
  match ← (SagaStore.claimCompensation sagaID).within ctx with
  | .error err => return some err
  | .ok (some data) => cancelAndMark data
  | .ok none =>
    match ← (SagaStore.get sagaID).within ctx with
    | .error err => return some err
    | .ok inst =>
      if inst.state ≠ .compensating then return none
      else cancelAndMark inst.data
where
  /-- Cancel the subscription, finish the saga, and say so. -/
  cancelAndMark (data : SubscriptionData) : Orchestration (Option Err) := do
    match ← (cancel (.compensation sagaID data.token) data.subscriptionID).within ctx with
    | some err => return some (.wrap s!"saga: cancel subscription {data.subscriptionID}" err)
    | none =>
      match ← (SagaStore.markCompensated sagaID).within ctx with
      | some err => return some err
      | none =>
        Prog.log ctx "saga_compensated"
        return none

/-- `onConfirmationSent`. -/
def onConfirmationSent (ctx : Context) (sagaID : String) : Orchestration Action := do
  match ← (SagaStore.completeIfAwaiting sagaID).within ctx with
  | .error _ =>
    Prog.log ctx "saga_complete_failed"
    return .requeue
  | .ok transitioned =>
    if transitioned then
      Prog.log ctx "saga_completed"
      (signalWaiter sagaID .completed).free
    return .ack

/-- `onConfirmationFailed`. -/
def onConfirmationFailed (ctx : Context) (sagaID : String) : Orchestration Action := do
  match ← compensate ctx sagaID with
  | some _ =>
    Prog.log ctx "saga_compensate_failed"
    return .requeue
  | none =>
    (signalWaiter sagaID .failed).free
    return .ack

/-- `HandleReply`. -/
def handleReply (json : Json) (ctx : Context) (body : Bytes) : Orchestration Action :=
  match json.reply.unmarshal body with
  | .error _ => do
    Prog.log ctx "saga_reply_decode_failed"
    return .drop
  | .ok reply =>
    let ctx := ctx.adopt reply.traceID
    if reply.type = replyConfirmationSent then onConfirmationSent ctx reply.sagaID
    else if reply.type = replyConfirmationFailed then onConfirmationFailed ctx reply.sagaID
    else do
      Prog.log ctx "saga_reply_unknown_type"
      return .drop

end Replies

/-! ## Without the contexts -/

/-- The service and the reply publisher behind the ports. -/
def serve (E : Notifier.Deps) : (o : Port) → Notifier.P o.Res
  | .service mail => Notifier.Service.send E mail
  | .publish routingKey body => Notifier.perform (.publish routingKey body)

/-- A handler with its ports filled in. -/
def Handler.served {α : Type} (E : Notifier.Deps) (p : Handler α) : Notifier.P α :=
  p.erase.interpret (serve E)

theorem Consumer.served_handleConfirmation (E : Notifier.Deps) (ctx : Context) (payload : Bytes) :
    (Consumer.handleConfirmation E.json ctx payload).served E
      = Notifier.Consumer.handleConfirmation E payload := by
  rw [Consumer.handleConfirmation, Notifier.Consumer.handleConfirmation]
  cases E.json.confirmation.unmarshal payload with
  | error f => rfl
  | ok cmd =>
    by_cases hempty : cmd.email = "" ∨ cmd.confirmURL = "" ∨ cmd.repo = ""
    · simp only [if_pos hempty]
      rfl
    · simp only [if_neg hempty]
      refine congrArg _ (funext fun res => ?_)
      cases res with
      | error err => rfl
      | ok delivered => rfl

theorem Consumer.served_handleRelease (E : Notifier.Deps) (ctx : Context) (payload : Bytes) :
    (Consumer.handleRelease E.json ctx payload).served E
      = Notifier.Consumer.handleRelease E payload := by
  rw [Consumer.handleRelease, Notifier.Consumer.handleRelease]
  cases E.json.release.unmarshal payload with
  | error f => rfl
  | ok cmd =>
    by_cases hempty : cmd.email = "" ∨ cmd.repo = ""
    · simp only [if_pos hempty]
      rfl
    · simp only [if_neg hempty]
      refine congrArg _ (funext fun res => ?_)
      cases res with
      | error err => rfl
      | ok delivered => rfl

/-- `Consumer.Handle` is the program the notifier is modelled with. -/
theorem Consumer.served_handle (E : Notifier.Deps) (ctx : Context) (body : Bytes) :
    (Consumer.handle E.json ctx body).served E = Notifier.Consumer.handle E body := by
  rw [Consumer.handle, Notifier.Consumer.handle]
  cases E.json.envelope.unmarshal body with
  | error f => rfl
  | ok envelope =>
    by_cases hconf : envelope.type = typeConfirmation
    · simp only [if_pos hconf]
      exact Consumer.served_handleConfirmation E _ _
    · by_cases hrel : envelope.type = typeRelease
      · simp only [if_neg hconf, if_pos hrel]
        exact Consumer.served_handleRelease E _ _
      · simp only [if_neg hconf, if_neg hrel]
        rfl

/-- The participant's reply, with its ports served by the notifier. -/
theorem Participant.served_reply (E : Notifier.Deps) (ctx : Context) (cmd : Command)
    (replyType reason : String) :
    (Participant.reply E.json ctx cmd replyType reason).served E
      = Notifier.Participant.reply E cmd replyType reason := by
  rw [Participant.reply, Notifier.Participant.reply]
  cases E.json.reply.marshal ⟨cmd.sagaID, replyType, cmd.traceID, _⟩ with
  | error f => rfl
  | ok body =>
    refine congrArg (Prog.op _) (funext fun res => ?_)
    cases res with
    | error err => rfl
    | ok u => rfl

/-- Serving a port and going on. -/
theorem served_bind {β : Type} (E : Notifier.Deps) (ctx : Context) (o : Port)
    (k : o.Res → Handler β) :
    (Port.call ctx o >>= k).served E = serve E o >>= fun res => (k res).served E := rfl

/-- So is `Participant.Handle`. -/
theorem Participant.served_handle (E : Notifier.Deps) (ctx : Context) (body : Bytes) :
    (Participant.handle E.json ctx body).served E = Notifier.Participant.handle E body := by
  rw [Participant.handle, Notifier.Participant.handle]
  cases E.json.command.unmarshal body with
  | error f => rfl
  | ok cmd =>
    simp only [Participant.process]
    by_cases htype : cmd.type ≠ cmdSendConfirmation
    · simp only [if_pos htype]
      rfl
    · simp only [if_neg htype]
      cases E.json.payload.unmarshal cmd.payload with
      | error f => exact Participant.served_reply E _ cmd _ _
      | ok payload =>
        by_cases hempty : payload.email = "" ∨ payload.confirmURL = "" ∨ payload.repo = ""
        · simp only [if_pos hempty]
          exact Participant.served_reply E _ cmd _ _
        · simp only [if_neg hempty]
          refine (served_bind E _ _ _).trans (congrArg _ (funext fun res => ?_))
          cases res with
          | error err => exact Participant.served_reply E _ cmd _ _
          | ok delivered => exact Participant.served_reply E _ cmd _ _

theorem Replies.erase_cancelAndMark (ctx : Context) (sagaID : String) (data : SubscriptionData) :
    (Replies.compensate.cancelAndMark ctx sagaID data).erase = cancelAndMark sagaID data := by
  rw [Replies.compensate.cancelAndMark, cancelAndMark, Prog.erase_bind, Prog.erase_within]
  refine congrArg _ (funext fun err => ?_)
  cases err with
  | some err => rfl
  | none =>
    simp only [Prog.erase_bind, Prog.erase_within]
    rw [SagaStore.markCompensated, statement, Prog.op_bind]
    refine congrArg _ (funext fun res => ?_)
    cases res with
    | error err => rfl
    | ok u => rfl

/-- Without its contexts this is the orchestrator's `compensate`. -/
theorem Replies.erase_compensate (ctx : Context) (sagaID : String) :
    (Replies.compensate ctx sagaID).erase = ReleaseNotifier.compensate sagaID := by
  rw [Replies.compensate, ReleaseNotifier.compensate, Prog.erase_bind, Prog.erase_within]
  refine congrArg _ (funext fun claim => ?_)
  cases claim with
  | error err => rfl
  | ok claimed =>
    cases claimed with
    | some data => exact Replies.erase_cancelAndMark ctx sagaID data
    | none =>
      simp only [Prog.erase_bind, Prog.erase_within]
      refine congrArg _ (funext fun found => ?_)
      cases found with
      | error err => rfl
      | ok inst =>
        by_cases hst : inst.state ≠ .compensating
        · simp only [if_pos hst]
          rfl
        · simp only [if_neg hst]
          exact Replies.erase_cancelAndMark ctx sagaID inst.data

/-- And `HandleReply` is the program the monolith is modelled with. -/
theorem Replies.erase_handleReply (D : Deps) (ctx : Context) (body : Bytes) :
    (Replies.handleReply D.json ctx body).erase = ReleaseNotifier.handleReply D body := by
  rw [Replies.handleReply, ReleaseNotifier.handleReply]
  cases D.json.reply.unmarshal body with
  | error f => rfl
  | ok reply =>
    by_cases hsent : reply.type = replyConfirmationSent
    · simp only [if_pos hsent, Replies.onConfirmationSent,
        ReleaseNotifier.onConfirmationSent, Prog.erase_bind, Prog.erase_within]
      refine congrArg _ (funext fun res => ?_)
      cases res with
      | error err => rfl
      | ok transitioned =>
        cases transitioned with
        | false => rfl
        | true => simp
    · by_cases hfailed : reply.type = replyConfirmationFailed
      · simp only [if_neg hsent, if_pos hfailed, Replies.onConfirmationFailed,
          ReleaseNotifier.onConfirmationFailed, Prog.erase_bind, Replies.erase_compensate]
        refine congrArg _ (funext fun err => ?_)
        cases err with
        | some err => rfl
        | none => simp
      · simp only [if_neg hsent, if_neg hfailed]
        rfl

end Ports

end ReleaseNotifier
