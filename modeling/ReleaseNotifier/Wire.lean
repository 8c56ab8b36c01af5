/-
What travels over the broker: `internal/sagaevent`, `internal/notifyevent`, and
the settlement verdicts of `internal/messaging`.

Message bodies are byte strings. `encoding/json` enters as a pair of functions
for each wire type; what the code relies on is only that a body it wrote itself
reads back as the value it was written from, and that is a hypothesis where it
is used, never a part of the definitions.
-/
import ReleaseNotifier.Errors
import ReleaseNotifier.Table
import ReleaseNotifier.Text.Strings

set_option autoImplicit false

namespace ReleaseNotifier

/-- `[]byte`. -/
abbrev Bytes := List UInt8

/-- `messaging.Action`: how a delivery is settled after its handler ran. -/
inductive Action
  | ack
  | drop
  | requeue
  deriving DecidableEq, Repr

/-! ## `internal/sagaevent` -/

/-- Command type and routing key `saga.send_confirmation`. -/
def cmdSendConfirmation : String := "saga.send_confirmation"

/-- Reply type and routing key `saga.confirmation_sent`. -/
def replyConfirmationSent : String := "saga.confirmation_sent"

/-- Reply type and routing key `saga.confirmation_failed`. -/
def replyConfirmationFailed : String := "saga.confirmation_failed"

/-- `sagaevent.Command`, the orchestrator's instruction to a participant. -/
structure Command where
  sagaID : String
  type : String
  traceID : String
  payload : Bytes
  deriving DecidableEq, Repr

/-- `sagaevent.Reply`; an absent payload is the empty one. -/
structure Reply where
  sagaID : String
  type : String
  traceID : String
  payload : Bytes
  deriving DecidableEq, Repr

/-- `sagaevent.SendConfirmationPayload`. -/
structure SendConfirmationPayload where
  email : String
  repo : String
  confirmURL : String
  deriving DecidableEq, Repr

/-- `sagaevent.ConfirmationFailedPayload`. -/
structure ConfirmationFailedPayload where
  reason : String
  deriving DecidableEq, Repr

/-! ## `internal/notifyevent` -/

/-- Command type and routing key `confirmation`. -/
def typeConfirmation : String := "confirmation"

/-- Command type and routing key `release`. -/
def typeRelease : String := "release"

/-- `notifyevent.Envelope`. -/
structure Envelope where
  type : String
  traceID : String
  payload : Bytes
  deriving DecidableEq, Repr

/-- `notifyevent.ConfirmationCommand`. -/
structure ConfirmationCommand where
  email : String
  confirmURL : String
  repo : String
  deriving DecidableEq, Repr

/-- `notifyevent.Release`. -/
structure Release where
  tagName : String
  name : String
  htmlURL : String
  publishedAt : String
  deriving DecidableEq, Repr

/-- `notifyevent.ReleaseCommand`. -/
structure ReleaseCommand where
  email : String
  repo : String
  release : Release
  deriving DecidableEq, Repr

/-! ## `encoding/json` -/

/-- `json.Marshal` and `json.Unmarshal` at one type. -/
structure Codec (α : Type) where
  marshal : α → Except Fault Bytes
  unmarshal : Bytes → Except Fault α

/-- What was marshalled unmarshals to the same value, among the values of `P`. -/
def Codec.RoundTripsOn {α : Type} (c : Codec α) (P : α → Prop) : Prop :=
  ∀ a b, P a → c.marshal a = .ok b → c.unmarshal b = .ok a

/-- For every value, as is so at a type whose fields are texts. -/
def Codec.RoundTrips {α : Type} (c : Codec α) : Prop :=
  ∀ a b, c.marshal a = .ok b → c.unmarshal b = .ok a

theorem Codec.RoundTrips.on {α : Type} {c : Codec α} (h : c.RoundTrips) (P : α → Prop) :
    c.RoundTripsOn P := fun a b _ => h a b

/-- A codec for the values of a table. -/
def Codec.ofTable {α : Type} [DecidableEq α] (l : List (α × Bytes)) : Codec α where
  marshal a :=
    match l.find? (fun x => decide (x.1 = a)) with
    | some x => .ok x.2
    | none => .error (.io "json: unsupported value")
  unmarshal b :=
    match l.find? (fun x => decide (x.2 = b)) with
    | some x => .ok x.1
    | none => .error (.io "unexpected end of JSON input")

/-- A table without repeated bodies can be read back. -/
theorem Codec.ofTable_roundTrips {α : Type} [DecidableEq α] {l : List (α × Bytes)}
    (h : (l.map Prod.snd).Nodup) : (Codec.ofTable l).RoundTrips := by
  intro a b hb
  simp only [Codec.ofTable] at hb ⊢
  split at hb
  · next x hx =>
    have hfst : x.1 = a := by simpa using List.find?_some hx
    cases hb
    have hread : l.find? (fun y => decide (y.2 = x.2)) = some x :=
      Table.lookup_of_mem h (List.mem_of_find?_eq_some hx)
    rw [hread, ← hfst]
  · cases hb

/-- `encoding/json` at the wire types. -/
structure Json where
  command : Codec Command
  reply : Codec Reply
  payload : Codec SendConfirmationPayload
  failure : Codec ConfirmationFailedPayload
  envelope : Codec Envelope
  confirmation : Codec ConfirmationCommand
  release : Codec ReleaseCommand

/-! A payload is a `json.RawMessage`, which `Marshal` compacts and escapes: a message with a
payload reads back as it was only if the payload was marshalled before. The messages the code
makes are of this kind. -/

/-- The commands the orchestrator marshals. -/
def Json.WritesCommand (json : Json) (cmd : Command) : Prop :=
  ∃ payload, json.payload.marshal payload = .ok cmd.payload

/-- The replies the participant marshals. -/
def Json.WritesReply (json : Json) (reply : Reply) : Prop :=
  reply.payload = [] ∨ ∃ failure, json.failure.marshal failure = .ok reply.payload

/-- The envelopes `notification.Publisher` marshals. -/
def Json.WritesEnvelope (json : Json) (envelope : Envelope) : Prop :=
  (∃ cmd, json.confirmation.marshal cmd = .ok envelope.payload) ∨
    ∃ cmd, json.release.marshal cmd = .ok envelope.payload

/-- What the code relies on: each of them reads back. -/
def Json.ReadsCommands (json : Json) : Prop := json.command.RoundTripsOn json.WritesCommand

def Json.ReadsReplies (json : Json) : Prop := json.reply.RoundTripsOn json.WritesReply

def Json.ReadsEnvelopes (json : Json) : Prop := json.envelope.RoundTripsOn json.WritesEnvelope

/-- The payload of a reply of the participant: absent without a reason, or when the reason
does not marshal. -/
def Json.replyPayload (json : Json) (reason : String) : Bytes :=
  if reason = "" then []
  else
    match json.failure.marshal ⟨reason⟩ with
    | .ok payload => payload
    | .error _ => []

/-- The payload that the participant builds is one that a reply can carry. -/
theorem Json.writesReply_replyPayload (json : Json) (sagaID type traceID reason : String) :
    json.WritesReply ⟨sagaID, type, traceID, json.replyPayload reason⟩ := by
  unfold WritesReply replyPayload
  dsimp only
  split
  · exact .inl rfl
  · split
    · next payload hpayload => exact .inr ⟨_, hpayload⟩
    · exact .inl rfl

/-! ## Messages to run with

The JSON texts of a few messages, as `encoding/json` writes them, for concrete
runs. -/

/-- The bytes of a text. -/
def utf8 (text : String) : Bytes := text.toUTF8.data.toList

/-- Go's strings are bytes; these are those of a Lean string. -/
theorem utf8_eq_encode (text : String) : utf8 text = Text.encode text.toList :=
  Text.toUTF8_eq_encode text

theorem utf8_ofList (cs : List Char) : utf8 (String.ofList cs) = Text.encode cs := by
  rw [utf8_eq_encode, String.toList_ofList]

@[simp] theorem utf8_append (text text' : String) : utf8 (text ++ text') = utf8 text ++ utf8 text' := by
  rw [utf8_eq_encode, utf8_eq_encode, utf8_eq_encode, String.toList_append, Text.encode_append]

/-- The payload of a saga command for `a@b.c` and `o/n`. -/
def samplePayload (token : String) : Bytes :=
  utf8 ("\x7b\"email\":\"a@b.c\",\"repo\":\"o/n\",\"confirm_url\":\"https://h/api/confirm/" ++ token
    ++ "\"\x7d")

/-- The saga command with that payload. -/
def sampleCommand (sagaID token : String) : Bytes :=
  utf8 ("\x7b\"saga_id\":\"" ++ sagaID ++ "\",\"type\":\"saga.send_confirmation\",\"payload\":")
    ++ samplePayload token ++ utf8 "\x7d"

/-- The reply that the confirmation was sent. -/
def sampleSent (sagaID : String) : Bytes :=
  utf8 ("\x7b\"saga_id\":\"" ++ sagaID ++ "\",\"type\":\"saga.confirmation_sent\"\x7d")

/-- The payload of the reply that it failed; the reason is given as JSON text. -/
def sampleReason (reason : String) : Bytes := utf8 ("\x7b\"reason\":\"" ++ reason ++ "\"\x7d")

/-- The reply that it failed. -/
def sampleFailed (sagaID reason : String) : Bytes :=
  utf8 ("\x7b\"saga_id\":\"" ++ sagaID ++ "\",\"type\":\"saga.confirmation_failed\",\"payload\":")
    ++ sampleReason reason ++ utf8 "\x7d"

/-- The confirmation command for `a@b.c` and `o/n`, as a payload. -/
def sampleConfirmation : Bytes :=
  utf8 ("\x7b\"email\":\"a@b.c\",\"confirm_url\":\"https://h/api/confirm/t1\","
    ++ "\"repo\":\"o/n\"\x7d")

/-- A release command for them, as a payload. -/
def sampleRelease : Bytes :=
  utf8 ("\x7b\"email\":\"a@b.c\",\"repo\":\"o/n\",\"release\":\x7b\"tag_name\":\"v1\",\"name\":\"First\","
    ++ "\"html_url\":\"https://g/v1\",\"published_at\":\"2026-01-01\"\x7d\x7d")

/-- A payload in its envelope. -/
def sampleEnvelope (type : String) (payload : Bytes) : Bytes :=
  utf8 ("\x7b\"type\":\"" ++ type ++ "\",\"payload\":") ++ payload ++ utf8 "\x7d"

/-- The SHA-256 sum of the key of the sample confirmation. -/
def sampleConfirmationSum : String :=
  "860515393ebe8eca6b7a45ae926ca33d2e51c64dbee49bcec64ebec13927f915"

/-- The SHA-256 sum of the key of the sample release. -/
def sampleReleaseSum : String :=
  "d8f1ca7b10c304c7ca6dbfd9f33798bb05d65e3ceffa573078445a8357e7feb6"

/-- The error a reservation of that confirmation gives on a closed statement. -/
def sampleClosedReason : String :=
  "reserving notification: reserving notification dedup_key=\"" ++ sampleConfirmationSum
    ++ "\": sql: statement is closed"

/-- The same as JSON text, with its quotes escaped. -/
def sampleClosedText : String :=
  "reserving notification: reserving notification dedup_key=\\\"" ++ sampleConfirmationSum
    ++ "\\\": sql: statement is closed"

/-- `encoding/json` on these messages: two sagas `s1` and `s2`, and two commands
of the notification queue. -/
def sampleJson : Json where
  payload := .ofTable [(⟨"a@b.c", "o/n", "https://h/api/confirm/t1"⟩, samplePayload "t1"),
    (⟨"a@b.c", "o/n", "https://h/api/confirm/t2"⟩, samplePayload "t2")]
  command := .ofTable [(⟨"s1", cmdSendConfirmation, "", samplePayload "t1"⟩, sampleCommand "s1" "t1"),
    (⟨"s2", cmdSendConfirmation, "", samplePayload "t2"⟩, sampleCommand "s2" "t2")]
  reply := .ofTable [(⟨"s1", replyConfirmationSent, "", []⟩, sampleSent "s1"),
    (⟨"s2", replyConfirmationSent, "", []⟩, sampleSent "s2"),
    (⟨"s1", replyConfirmationFailed, "", sampleReason "smtp"⟩, sampleFailed "s1" "smtp"),
    (⟨"s1", replyConfirmationFailed, "", sampleReason sampleClosedText⟩,
      sampleFailed "s1" sampleClosedText)]
  failure := .ofTable [(⟨"smtp"⟩, sampleReason "smtp"),
    (⟨sampleClosedReason⟩, sampleReason sampleClosedText)]
  envelope := .ofTable
    [(⟨typeConfirmation, "", sampleConfirmation⟩, sampleEnvelope typeConfirmation sampleConfirmation),
      (⟨typeRelease, "", sampleRelease⟩, sampleEnvelope typeRelease sampleRelease)]
  confirmation := .ofTable [(⟨"a@b.c", "https://h/api/confirm/t1", "o/n"⟩, sampleConfirmation)]
  release := .ofTable
    [(⟨"a@b.c", "o/n", ⟨"v1", "First", "https://g/v1", "2026-01-01"⟩⟩, sampleRelease)]

end ReleaseNotifier
