/-
A trace id from the edge to the last hop.

The id of a request comes from one of three places with three notions of what an
id is, and each hop has its own: the gRPC server reads two fields and validates
both, the broker messages have a field that is left out when it is empty. What
makes them fit is one fact, `isSafeExternalID_traceIDFromRequest`: whatever the
headers are, the id of a request is a safe one. It is not empty, so no message
drops it; it is ASCII, so text carries it unchanged; and if it is a W3C id it
survives the traceparent, while if it is not, no traceparent is sent that could
take precedence over it.

A handler runs with an id if it does something and every context it passes on
carries the id, for each of its calls and each of its log lines, whatever it is
answered.
-/
import ReleaseNotifier.Tracectx
import ReleaseNotifier.Ports
import ReleaseNotifier.Service

set_option autoImplicit false

namespace ReleaseNotifier

open Conc Ports

/-- The trace id of the context is `id`. -/
def Context.Carries (id : Bytes) (ctx : Context) : Prop := ctx.traceID.map utf8 = some id

/-- A trace id from a message replaces the one of the context. -/
theorem Context.carries_adopt {t : String} (ht : t ≠ "") (ctx : Context) :
    (ctx.adopt t).Carries (utf8 t) := by
  rw [Context.adopt, if_pos ht]
  rfl

section RunsWith

variable {Op : Type} {Res : Op → Type} {α : Type}

/-- Every context the program passes on carries `id`. -/
def Keeps (id : Bytes) (p : Prog.Traced Context Op Res α) : Prop :=
  p.Uses (Scoped.Under (Context.Carries id))

/-- The program does something, and all of it with `id` for its trace id. -/
def RunsWith (id : Bytes) (p : Prog.Traced Context Op Res α) : Prop :=
  p.next? ≠ none ∧ Keeps id p

end RunsWith

section Handlers

variable {json : Json} {id : Bytes} {ctx : Context} (hctx : ctx.Carries id)

include hctx

theorem Ports.Consumer.keeps_handleConfirmation (payload : Bytes) :
    Keeps id (Consumer.handleConfirmation json ctx payload) := by
  rw [Consumer.handleConfirmation]
  cases json.confirmation.unmarshal payload with
  | error f => exact ⟨hctx, fun _ => trivial⟩
  | ok cmd =>
    by_cases hempty : cmd.email = "" ∨ cmd.confirmURL = "" ∨ cmd.repo = ""
    · simp only [if_pos hempty]
      exact ⟨hctx, fun _ => trivial⟩
    · simp only [if_neg hempty]
      refine ⟨hctx, fun res => ?_⟩
      cases res with
      | error err => exact ⟨hctx, fun _ => trivial⟩
      | ok delivered => trivial

theorem Ports.Consumer.keeps_handleRelease (payload : Bytes) :
    Keeps id (Consumer.handleRelease json ctx payload) := by
  rw [Consumer.handleRelease]
  cases json.release.unmarshal payload with
  | error f => exact ⟨hctx, fun _ => trivial⟩
  | ok cmd =>
    by_cases hempty : cmd.email = "" ∨ cmd.repo = ""
    · simp only [if_pos hempty]
      exact ⟨hctx, fun _ => trivial⟩
    · simp only [if_neg hempty]
      refine ⟨hctx, fun res => ?_⟩
      cases res with
      | error err => exact ⟨hctx, fun _ => trivial⟩
      | ok delivered => trivial

theorem Ports.Replies.keeps_cancelAndMark (sagaID : String) (data : SubscriptionData) :
    Keeps id (Replies.compensate.cancelAndMark ctx sagaID data) := by
  rw [Replies.compensate.cancelAndMark]
  refine Prog.Uses.bind (Prog.uses_within hctx _) (fun err => ?_)
  cases err with
  | some err => trivial
  | none =>
    refine Prog.Uses.bind (Prog.uses_within hctx _) (fun err => ?_)
    cases err with
    | some err => trivial
    | none => exact ⟨hctx, fun _ => trivial⟩

/-- `compensate` hands its own context to every port. -/
theorem Ports.Replies.keeps_compensate (sagaID : String) :
    Keeps id (Replies.compensate ctx sagaID) := by
  rw [Replies.compensate]
  refine Prog.Uses.bind (Prog.uses_within hctx _) (fun claim => ?_)
  cases claim with
  | error err => trivial
  | ok claimed =>
    cases claimed with
    | some data => exact Replies.keeps_cancelAndMark hctx sagaID data
    -- the claim was lost, and the saga is read again under the same context
    | none =>
      refine Prog.Uses.bind (Prog.uses_within hctx _) (fun found => ?_)
      cases found with
      | error err => trivial
      | ok inst =>
        by_cases hst : inst.state ≠ .compensating
        · simp only [if_pos hst]
          trivial
        · simp only [if_neg hst]
          exact Replies.keeps_cancelAndMark hctx sagaID inst.data

/-- The handler of a success keeps its context too. -/
theorem Ports.Replies.keeps_onConfirmationSent (sagaID : String) :
    Keeps id (Replies.onConfirmationSent ctx sagaID) := by
  rw [Replies.onConfirmationSent]
  refine Prog.Uses.bind (Prog.uses_within hctx _) (fun res => ?_)
  cases res with
  | error err => exact ⟨hctx, fun _ => trivial⟩
  | ok transitioned =>
    cases transitioned with
    | false => trivial
    | true =>
      -- waiters are signalled without a context
      have hsignal : Keeps id
          ((signalWaiter sagaID .completed).free >>= fun _ => Prog.ret Action.ack) :=
        Prog.Uses.bind (Prog.uses_free _) (fun _ => trivial)
      exact ⟨hctx, fun _ => hsignal⟩

theorem Ports.Replies.keeps_onConfirmationFailed (sagaID : String) :
    Keeps id (Replies.onConfirmationFailed ctx sagaID) := by
  rw [Replies.onConfirmationFailed]
  refine Prog.Uses.bind (Replies.keeps_compensate hctx sagaID) (fun err => ?_)
  cases err with
  | some err => exact ⟨hctx, fun _ => trivial⟩
  | none => exact Prog.Uses.bind (Prog.uses_free _) (fun _ => trivial)

end Handlers

/-! ## One message -/

theorem Ports.Consumer.handleConfirmation_acts (json : Json) (ctx : Context) (payload : Bytes) :
    (Consumer.handleConfirmation json ctx payload).next? ≠ none := by
  rw [Consumer.handleConfirmation]
  split
  · exact Option.some_ne_none _
  · split
    · exact Option.some_ne_none _
    · exact Option.some_ne_none _

theorem Ports.Consumer.handleRelease_acts (json : Json) (ctx : Context) (payload : Bytes) :
    (Consumer.handleRelease json ctx payload).next? ≠ none := by
  rw [Consumer.handleRelease]
  split
  · exact Option.some_ne_none _
  · split
    · exact Option.some_ne_none _
    · exact Option.some_ne_none _

/-- Even a body that does not parse is logged. -/
theorem Ports.Participant.handle_acts (json : Json) (ctx : Context) (body : Bytes) :
    (Participant.handle json ctx body).next? ≠ none := by
  rw [Participant.handle]
  split
  · exact Option.some_ne_none _
  · next cmd _ =>
    simp only [Participant.process]
    split
    · exact Option.some_ne_none _
    · split
      · exact Option.some_ne_none _
      · split
        · exact Option.some_ne_none _
        · exact Option.some_ne_none _

section Messages

variable {json : Json} {t : String} (ht : t ≠ "")

include ht

/-- An envelope's id is the one `Consumer.Handle` runs with. -/
theorem Ports.Consumer.runsWith_handle (hjson : json.ReadsEnvelopes) {type : String}
    {payload body : Bytes} (hwrites : json.WritesEnvelope ⟨type, t, payload⟩)
    (hbody : json.envelope.marshal ⟨type, t, payload⟩ = .ok body) (ctx : Context) :
    RunsWith (utf8 t) (Consumer.handle json ctx body) := by
  have hctx := Context.carries_adopt ht ctx
  rw [Consumer.handle, hjson _ _ hwrites hbody]
  by_cases hconf : type = typeConfirmation
  · simp only [if_pos hconf]
    exact ⟨Consumer.handleConfirmation_acts _ _ _, Consumer.keeps_handleConfirmation hctx payload⟩
  · by_cases hrel : type = typeRelease
    · simp only [if_neg hconf, if_pos hrel]
      exact ⟨Consumer.handleRelease_acts _ _ _, Consumer.keeps_handleRelease hctx payload⟩
    · -- an unknown type is logged under the id before it is dropped
      simp only [if_neg hconf, if_neg hrel]
      exact ⟨Option.some_ne_none _, hctx, fun _ => trivial⟩

/-- A reply's id is the one `HandleReply` runs with. -/
theorem Ports.Replies.runsWith_handleReply (hjson : json.ReadsReplies) {sagaID type : String}
    {payload body : Bytes} (hwrites : json.WritesReply ⟨sagaID, type, t, payload⟩)
    (hbody : json.reply.marshal ⟨sagaID, type, t, payload⟩ = .ok body) (ctx : Context) :
    RunsWith (utf8 t) (Replies.handleReply json ctx body) := by
  have hctx := Context.carries_adopt ht ctx
  rw [Replies.handleReply, hjson _ _ hwrites hbody]
  by_cases hsent : type = replyConfirmationSent
  · simp only [if_pos hsent]
    exact ⟨Option.some_ne_none _, Replies.keeps_onConfirmationSent hctx sagaID⟩
  · by_cases hfailed : type = replyConfirmationFailed
    · simp only [if_neg hsent, if_pos hfailed]
      exact ⟨Option.some_ne_none _, Replies.keeps_onConfirmationFailed hctx sagaID⟩
    · simp only [if_neg hsent, if_neg hfailed]
      exact ⟨Option.some_ne_none _, hctx, fun _ => trivial⟩

end Messages

/-! ## The saga's round trip -/

/-- An operation of the participant that carries `id` and, if it publishes a
reply, hands `id` on to whoever handles the reply. -/
def HandsOn (json : Json) (id : Bytes) (o : Scoped Context Port) : Prop :=
  Scoped.Under (Context.Carries id) o ∧ ∀ c routingKey body,
    o = .within c (.publish routingKey body) →
      ∀ ctx, RunsWith id (Replies.handleReply json ctx body)

section Participant

variable {json : Json} (hjson : json.ReadsReplies) {ctx : Context} {cmd : Command}
  (hne : cmd.traceID ≠ "") (hctx : ctx.Carries (utf8 cmd.traceID))

include hctx

theorem HandsOn.log (event : String) : HandsOn json (utf8 cmd.traceID) (.log ctx event) :=
  ⟨hctx, by simp⟩

/-- The service is called in the context of the command. -/
theorem HandsOn.service (mail : Notifier.Mail) :
    HandsOn json (utf8 cmd.traceID) (.within ctx (.service mail)) :=
  ⟨hctx, by simp⟩

include hjson hne

/-- A reply carries the trace id of its command. -/
theorem Ports.Participant.uses_reply (replyType reason : String) :
    (Participant.reply json ctx cmd replyType reason).Uses
      (HandsOn json (utf8 cmd.traceID)) := by
  rw [Participant.reply]
  split
  · exact ⟨HandsOn.log hctx _, fun _ => trivial⟩
  · next body hbody =>
    refine ⟨⟨hctx, fun c routingKey body' ho => ?_⟩, fun res => ?_⟩
    · -- the reply repeats the command's trace id
      cases ho
      exact fun ctx' => Replies.runsWith_handleReply hne hjson
        (json.writesReply_replyPayload _ _ _ reason) hbody ctx'
    · cases res with
      | error err => exact ⟨HandsOn.log hctx _, fun _ => trivial⟩
      | ok u => trivial

/-- So does everything the participant does for a command. -/
theorem Ports.Participant.uses_process :
    (Participant.process json ctx cmd).Uses (HandsOn json (utf8 cmd.traceID)) := by
  have hreply := Participant.uses_reply hjson hne hctx
  rw [Participant.process]
  by_cases htype : cmd.type ≠ cmdSendConfirmation
  · simp only [if_pos htype]
    exact ⟨HandsOn.log hctx _, fun _ => trivial⟩
  · simp only [if_neg htype]
    cases json.payload.unmarshal cmd.payload with
    -- a failed confirmation is reported back as well
    | error f => exact ⟨HandsOn.log hctx _, fun _ => hreply _ _⟩
    | ok payload =>
      by_cases hempty : payload.email = "" ∨ payload.confirmURL = "" ∨ payload.repo = ""
      · simp only [if_pos hempty]
        exact ⟨HandsOn.log hctx _, fun _ => hreply _ _⟩
      · simp only [if_neg hempty]
        refine ⟨HandsOn.service hctx _, fun res => ?_⟩
        cases res with
        | error err => exact ⟨HandsOn.log hctx _, fun _ => hreply _ _⟩
        | ok delivered => exact hreply _ _

end Participant

/-- A command's id is the one `Participant.Handle` runs with, and the one it
hands on. -/
theorem Ports.Participant.uses_handle {json : Json} (hcmd : json.ReadsCommands)
    (hreply : json.ReadsReplies) {cmd : Command} (hne : cmd.traceID ≠ "") {body : Bytes}
    (hwrites : json.WritesCommand cmd) (hbody : json.command.marshal cmd = .ok body)
    (ctx : Context) :
    (Participant.handle json ctx body).Uses (HandsOn json (utf8 cmd.traceID)) := by
  rw [Participant.handle, hcmd _ _ hwrites hbody]
  exact Participant.uses_process hreply hne (Context.carries_adopt hne ctx)

/-! ## From the edge -/

section Publishing

variable {json : Json} (hjson : json.ReadsEnvelopes) {t : String} (ht : t ≠ "")

include hjson ht

/-- What `Ports.Publisher.publish` publishes is handled with the publisher's id. -/
theorem Ports.Publisher.uses_publish (type : String) {payload : Bytes}
    (hwrites : json.WritesEnvelope ⟨type, t, payload⟩) :
    (Ports.Publisher.publish json ⟨some t⟩ type payload).Uses (fun o => ∀ c routingKey body,
      o = .within c (.publish routingKey body) →
        ∀ ctx, RunsWith (utf8 t) (Consumer.handle json ctx body)) := by
  rw [Ports.Publisher.publish]
  split
  · trivial
  · next body hbody =>
    refine ⟨fun c routingKey body' ho => ?_, fun res => ?_⟩
    · -- the envelope carries the context's own id
      cases ho
      exact fun ctx => Consumer.runsWith_handle ht hjson hwrites hbody ctx
    · cases res with
      | error err => trivial
      | ok u => trivial

/-- The envelope carries the id to whoever consumes it. -/
theorem Ports.Publisher.uses_sendConfirmation (email confirmURL repo : String) :
    (Publisher.sendConfirmation json ⟨some t⟩ email confirmURL repo).Uses
      (fun o => ∀ c routingKey body, o = .within c (.publish routingKey body) →
        ∀ ctx, RunsWith (utf8 t) (Consumer.handle json ctx body)) := by
  rw [Publisher.sendConfirmation]
  split
  · trivial
  · next payload hpayload => exact Publisher.uses_publish hjson ht _ (.inl ⟨_, hpayload⟩)

theorem Ports.Publisher.uses_sendReleaseNotification (email repo : String)
    (rel : Option Poller.Release) :
    (Publisher.sendReleaseNotification json ⟨some t⟩ email repo rel).Uses
      (fun o => ∀ c routingKey body, o = .within c (.publish routingKey body) →
        ∀ ctx, RunsWith (utf8 t) (Consumer.handle json ctx body)) := by
  rw [Publisher.sendReleaseNotification]
  split
  · trivial
  · next payload hpayload => exact Publisher.uses_publish hjson ht _ (.inr ⟨_, hpayload⟩)

end Publishing

/-- What `publishConfirmation` publishes is handled with the request's id, and
so is the reply. -/
theorem uses_publishConfirmation (D : Deps) (hcmd : D.json.ReadsCommands)
    (hreply : D.json.ReadsReplies) {t : String} (ht : t ≠ "") (sagaID : String)
    (data : SubscriptionData) :
    (publishConfirmation D ⟨some t⟩ sagaID data).Uses (fun o => ∀ routingKey body,
      o = .publish routingKey body →
        ∀ ctx, (Participant.handle D.json ctx body).Uses (HandsOn D.json (utf8 t))) := by
  rw [publishConfirmation]
  split
  · trivial
  · next payload hpayload =>
    split
    · trivial
    · next body hbody =>
      refine ⟨fun routingKey body' ho => ?_, fun res => ?_⟩
      · cases ho
        exact fun ctx => Participant.uses_handle hcmd hreply ht ⟨_, hpayload⟩ hbody ctx
      · cases res with
        | error err => trivial
        | ok u => trivial

/-- For every pair of header values, with `id` the id of the request: the server
of a gRPC call made in the request's context reads `id` from the metadata; what
is published in it by `notification.Publisher` is handled with `id`; what
`publishConfirmation` publishes in it is handled with `id`, and so is every reply
to it. -/
theorem trace_id_survives (D : Deps) (henvelope : D.json.ReadsEnvelopes)
    (hcommand : D.json.ReadsCommands) (hreply : D.json.ReadsReplies)
    (r : Middleware.Headers) (draw : Vector UInt8 16) :
    let id := Middleware.traceIDFromRequest r draw
    let ctx := Middleware.traceID r draw
    (∀ (d : Tracectx.SpanDraws) (outgoing incoming : Grpc.MD),
      outgoing.get Grpc.keyTraceparent = [] → outgoing.get Grpc.keyRequestID = [] →
      (∀ key, key = Grpc.keyTraceparent ∨ key = Grpc.keyRequestID →
        incoming.get key = (Grpc.traceUnaryClientInterceptor ctx outgoing d).get key) →
      Grpc.traceIDFromMetadata (some incoming) = id) ∧
    (∀ email confirmURL repo,
      (Publisher.sendConfirmation D.json ctx email confirmURL repo).Uses
        (fun o => ∀ c routingKey body, o = .within c (.publish routingKey body) →
          ∀ ctx', RunsWith id (Consumer.handle D.json ctx' body))) ∧
    (∀ email repo rel,
      (Publisher.sendReleaseNotification D.json ctx email repo rel).Uses
        (fun o => ∀ c routingKey body, o = .within c (.publish routingKey body) →
          ∀ ctx', RunsWith id (Consumer.handle D.json ctx' body))) ∧
    (∀ sagaID data,
      (publishConfirmation D ctx sagaID data).Uses (fun o => ∀ routingKey body,
        o = .publish routingKey body → ∀ ctx', RunsWith id (Participant.handle D.json ctx' body) ∧
          (Participant.handle D.json ctx' body).Uses (fun o' => ∀ c routingKey' body',
            o' = .within c (.publish routingKey' body') →
              ∀ ctx'', RunsWith id (Replies.handleReply D.json ctx'' body')))) := by
  intro id ctx
  have hsafe := Middleware.isSafeExternalID_traceIDFromRequest r draw
  have hne := Middleware.text_ne_empty hsafe
  have hid : utf8 (Middleware.text id) = id := Middleware.utf8_text hsafe
  refine ⟨fun d outgoing incoming hparent hrequest hcarried => ?_, fun email confirmURL repo => ?_,
    fun email repo rel => ?_, fun sagaID data => ?_⟩
  · exact Grpc.traceIDFromMetadata_interceptor hsafe d hparent hrequest hcarried
  · have huses := Publisher.uses_sendConfirmation henvelope hne email confirmURL repo
    rw [hid] at huses
    exact huses
  · have huses := Publisher.uses_sendReleaseNotification henvelope hne email repo rel
    rw [hid] at huses
    exact huses
  · have huses := uses_publishConfirmation D hcommand hreply hne sagaID data
    rw [hid] at huses
    refine huses.mono (fun o ho routingKey body heq ctx' => ?_)
    have hhandle := ho routingKey body heq ctx'
    exact ⟨⟨Participant.handle_acts _ _ _, hhandle.mono (fun _ h => h.1)⟩,
      hhandle.mono (fun _ h => h.2)⟩

/-- The confirmation command of a request with the id `req-1`. -/
def tracedEnvelope : Bytes :=
  utf8 "\x7b\"type\":\"confirmation\",\"trace_id\":\"req-1\",\"payload\":" ++ sampleConfirmation
    ++ utf8 "\x7d"

/-- Its saga command. -/
def tracedCommand : Bytes :=
  utf8 ("\x7b\"saga_id\":\"s1\",\"type\":\"saga.send_confirmation\",\"trace_id\":\"req-1\","
    ++ "\"payload\":") ++ samplePayload "t1" ++ utf8 "\x7d"

/-- The reply to it. -/
def tracedReply : Bytes :=
  utf8 "\x7b\"saga_id\":\"s1\",\"type\":\"saga.confirmation_sent\",\"trace_id\":\"req-1\"\x7d"

/-- `encoding/json` on these messages. -/
def tracedJson : Json :=
  { sampleJson with
    envelope := .ofTable [(⟨typeConfirmation, "req-1", sampleConfirmation⟩, tracedEnvelope)]
    command := .ofTable
      [(⟨"s1", cmdSendConfirmation, "req-1", samplePayload "t1"⟩, tracedCommand)]
    reply := .ofTable [(⟨"s1", replyConfirmationSent, "req-1", []⟩, tracedReply)] }

/-- A request with the header `X-Request-ID: req-1`: a gRPC call, a confirmation
command and a saga command made for it arrive with that id. -/
theorem trace_id_survives_request :
    ∃ ctx : Context, ctx = Middleware.traceID ⟨[], utf8 "req-1"⟩ (Vector.replicate 16 0) ∧
      Grpc.traceIDFromMetadata (some (Grpc.traceUnaryClientInterceptor ctx []
        ⟨[Vector.replicate 8 1], by decide⟩)) = utf8 "req-1" ∧
      (Publisher.sendConfirmation tracedJson ctx "a@b.c" "https://h/api/confirm/t1" "o/n").next?
        = some (.within ctx (.publish typeConfirmation tracedEnvelope)) ∧
      (∀ ctx', RunsWith (utf8 "req-1") (Consumer.handle tracedJson ctx' tracedEnvelope)) ∧
      (publishConfirmation { sample with json := tracedJson } ctx "s1" sampleData₁).next?
        = some (.publish cmdSendConfirmation tracedCommand) ∧
      ∀ ctx', RunsWith (utf8 "req-1") (Participant.handle tracedJson ctx' tracedCommand) := by
  have hsurvives := trace_id_survives { sample with json := tracedJson }
    ((Codec.ofTable_roundTrips (by decide)).on _) ((Codec.ofTable_roundTrips (by decide)).on _)
    ((Codec.ofTable_roundTrips (by decide)).on _) ⟨[], utf8 "req-1"⟩ (Vector.replicate 16 0)
  have hid : Middleware.traceIDFromRequest ⟨[], utf8 "req-1"⟩ (Vector.replicate 16 0)
      = utf8 "req-1" := by
    decide
  rw [hid] at hsurvives
  obtain ⟨hgrpc, hconf, -, hsaga⟩ := hsurvives
  have henvelope : (Publisher.sendConfirmation tracedJson
      (Middleware.traceID ⟨[], utf8 "req-1"⟩ (Vector.replicate 16 0)) "a@b.c"
      "https://h/api/confirm/t1" "o/n").next?
      = some (.within (Middleware.traceID ⟨[], utf8 "req-1"⟩ (Vector.replicate 16 0))
        (.publish typeConfirmation tracedEnvelope)) := by
    decide
  have hcommand : (publishConfirmation { sample with json := tracedJson }
      (Middleware.traceID ⟨[], utf8 "req-1"⟩ (Vector.replicate 16 0)) "s1" sampleData₁).next?
      = some (.publish cmdSendConfirmation tracedCommand) := by
    decide
  exact ⟨_, rfl, hgrpc _ [] _ rfl rfl (fun _ _ => rfl), henvelope,
    (hconf _ _ _).next henvelope _ _ _ rfl, hcommand,
    fun ctx' => ((hsaga _ _).next hcommand _ _ rfl ctx').1⟩

end ReleaseNotifier
