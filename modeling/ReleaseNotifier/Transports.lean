/-
Two ways to ask the notifier for a release mail, and whether they ask the same.

A request goes through two conversions on either way, from the domain to the
wire and back. Over gRPC an absent release stays absent: the message type has a
field that may be missing. The broker's command holds its release by value, so
`releaseToEvent` has nothing to write for an absent one but four empty strings,
and `handleRelease` makes a release of them again. The service then builds the
mail of a release without a tag, where the other way builds the mail it has for
"no release".

The dedup key does not see the difference, since an absent release and an empty
tag give the same key; the message does.
-/
import ReleaseNotifier.Ports

set_option autoImplicit false

namespace ReleaseNotifier

open Conc Ports

/-! ## `smtp/templates.go` -/

namespace Smtp

/-- `smtp.Message`; `recipient` is its field `To`. -/
structure Message where
  recipient : String
  subject : String
  body : String
  deriving DecidableEq, Repr

/-- `sanitizeHeader`. -/
def sanitizeHeader (value : String) : String :=
  String.ofList (value.toList.filter (fun c => c ≠ '\r' ∧ c ≠ '\n'))

/-- `TemplateBuilder.Confirmation`. -/
def confirmation (email confirmURL repo : String) : Message :=
  let safeRepo := sanitizeHeader repo
  { recipient := sanitizeHeader email
    subject := s!"Confirm your subscription to {safeRepo} releases"
    body := s!"You have subscribed to release notifications for {safeRepo}.\n\n" ++
      s!"Please confirm your subscription by clicking the link below:\n{confirmURL}\n\n" ++
      "If you did not request this, you can ignore this email." }

/-- `TemplateBuilder.ReleaseNotification`. -/
def releaseNotification (email repo : String) (rel : Option Notifier.ReleaseInfo) : Message :=
  let safeEmail := sanitizeHeader email
  let safeRepo := sanitizeHeader repo
  match rel with
  | none =>
    { recipient := safeEmail
      subject := s!"New release for {safeRepo}"
      body := s!"A new release has been published for {safeRepo}.\n" }
  | some rel =>
    let safeTag := sanitizeHeader rel.tagName
    { recipient := safeEmail
      subject := s!"New release for {safeRepo}: {safeTag}"
      body := s!"A new release has been published for {safeRepo}!\n\n" ++
        s!"Version: {rel.tagName}\nName: {rel.name}\nURL: {rel.htmlURL}\n" }

/-- The message the mailer builds for what it is asked to send. -/
def message : Notifier.Mail → Message
  | .confirmation c => confirmation c.email c.confirmURL c.repo
  | .release email repo rel => releaseNotification email repo rel

end Smtp

/-! ## The two ways -/

/-- The codec writes `a`, and reads it back. -/
def Codec.Carries {α : Type} (c : Codec α) (a : α) : Prop :=
  ∃ b, c.marshal a = .ok b ∧ c.unmarshal b = .ok a

/-- `Client.SendReleaseNotification` in `ctx`, through a server that runs the
handler in `sctx`, makes the service send `mail`. -/
def GrpcDelivers (proto : Codec SendReleaseNotificationRequest) (ctx sctx : Context)
    (email repo : String) (rel : Option Poller.Release) (mail : Notifier.Mail) : Prop :=
  ∃ req b req',
    (Client.sendReleaseNotification ctx email repo rel).next?
      = some (.within ctx (.sendReleaseNotification req)) ∧
    proto.marshal req = .ok b ∧ proto.unmarshal b = .ok req' ∧
    (Server.sendReleaseNotification sctx (some req')).next?
      = some (.within sctx (.service mail))

/-- `Publisher.SendReleaseNotification` in `ctx`, through a consumer that handles
the command in `dctx`, makes the service send `mail`. -/
def BrokerDelivers (json : Json) (ctx dctx : Context) (email repo : String)
    (rel : Option Poller.Release) (mail : Notifier.Mail) : Prop :=
  ∃ routingKey body c,
    (Publisher.sendReleaseNotification json ctx email repo rel).next?
      = some (.within ctx (.publish routingKey body)) ∧
    (Consumer.handle json dctx body).next? = some (.within c (.service mail))

section Delivery

variable {email repo : String} {rel : Option Poller.Release} (hemail : email ≠ "")
  (hrepo : repo ≠ "")

include hemail hrepo

theorem grpcDelivers_iff {proto : Codec SendReleaseNotificationRequest}
    (hproto : proto.Carries ⟨email, repo, Client.releaseToProto rel⟩) (ctx sctx : Context)
    (mail : Notifier.Mail) :
    GrpcDelivers proto ctx sctx email repo rel mail ↔
      mail = .release email repo (Server.releaseFromProto (Client.releaseToProto rel)) := by
  obtain ⟨b, hmarshal, hunmarshal⟩ := hproto
  have hserver : (Server.sendReleaseNotification sctx
      (some ⟨email, repo, Client.releaseToProto rel⟩)).next? = some (.within sctx
        (.service (.release email repo (Server.releaseFromProto (Client.releaseToProto rel))))) := by
    have hgiven : ¬ (email = "" ∨ repo = "") := not_or.mpr ⟨hemail, hrepo⟩
    simp only [Server.sendReleaseNotification, if_neg hgiven]
    rfl
  constructor
  · -- both ends are functions of what is on the wire
    rintro ⟨req, b', req', hcall, hm, hu, hservice⟩
    cases hcall
    rw [hmarshal] at hm
    cases hm
    rw [hunmarshal] at hu
    cases hu
    rw [hserver] at hservice
    cases hservice
    rfl
  · rintro rfl
    exact ⟨_, b, _, rfl, hmarshal, hunmarshal, hserver⟩

theorem brokerDelivers_iff {json : Json} {ctx : Context}
    (hrelease : json.release.Carries ⟨email, repo, Publisher.releaseToEvent rel⟩)
    (henvelope : ∀ payload, json.release.marshal ⟨email, repo, Publisher.releaseToEvent rel⟩
      = .ok payload → json.envelope.Carries ⟨typeRelease, ctx.traceID.getD "", payload⟩)
    (dctx : Context) (mail : Notifier.Mail) :
    BrokerDelivers json ctx dctx email repo rel mail ↔
      mail = .release email repo (some ⟨(Publisher.releaseToEvent rel).tagName,
        (Publisher.releaseToEvent rel).name, (Publisher.releaseToEvent rel).htmlURL,
        (Publisher.releaseToEvent rel).publishedAt⟩) := by
  obtain ⟨payload, hmarshal, hunmarshal⟩ := hrelease
  obtain ⟨body, hwritten, hread⟩ := henvelope payload hmarshal
  have hpublish : (Publisher.sendReleaseNotification json ctx email repo rel).next?
      = some (.within ctx (.publish typeRelease body)) := by
    simp only [Publisher.sendReleaseNotification, hmarshal, Ports.Publisher.publish, hwritten]
    rfl
  have hgiven : ¬ (email = "" ∨ repo = "") := not_or.mpr ⟨hemail, hrepo⟩
  -- the consumer asks for the other type first
  have htype : typeRelease ≠ typeConfirmation := by decide
  have hhandle : (Consumer.handle json dctx body).next?
      = some (.within (dctx.adopt (ctx.traceID.getD "")) (.service (.release email repo
        (some ⟨(Publisher.releaseToEvent rel).tagName, (Publisher.releaseToEvent rel).name,
          (Publisher.releaseToEvent rel).htmlURL,
          (Publisher.releaseToEvent rel).publishedAt⟩)))) := by
    simp only [Consumer.handle, hread, if_neg htype, Consumer.handleRelease, hunmarshal,
      if_neg hgiven, if_true]
    rfl
  constructor
  · rintro ⟨routingKey, body', c, hcall, hservice⟩
    rw [hpublish] at hcall
    cases hcall
    rw [hhandle] at hservice
    cases hservice
    rfl
  · rintro rfl
    exact ⟨_, body, _, hpublish, hhandle⟩

end Delivery

/-- Both ways make the service send the same, with the same dedup key and the
same message. -/
def SameRequest (E : Notifier.Deps) (proto : Codec SendReleaseNotificationRequest)
    (ctx sctx dctx : Context) (email repo : String) (rel : Option Poller.Release) : Prop :=
  ∃ viaGrpc viaBroker, GrpcDelivers proto ctx sctx email repo rel viaGrpc ∧
    BrokerDelivers E.json ctx dctx email repo rel viaBroker ∧
    viaGrpc = viaBroker ∧ viaGrpc.dedupKey E = viaBroker.dedupKey E ∧
    Smtp.message viaGrpc = Smtp.message viaBroker

/-- For every address, repository and release, over wires that carry the
request: both transports deliver the same request if and only if there is a
release. -/
theorem same_request_iff (E : Notifier.Deps) (proto : Codec SendReleaseNotificationRequest)
    (ctx sctx dctx : Context) (email repo : String) (rel : Option Poller.Release)
    (hemail : email ≠ "") (hrepo : repo ≠ "")
    (hproto : proto.Carries ⟨email, repo, Client.releaseToProto rel⟩)
    (hrelease : E.json.release.Carries ⟨email, repo, Publisher.releaseToEvent rel⟩)
    (henvelope : ∀ payload, E.json.release.marshal ⟨email, repo, Publisher.releaseToEvent rel⟩
      = .ok payload → E.json.envelope.Carries ⟨typeRelease, ctx.traceID.getD "", payload⟩) :
    SameRequest E proto ctx sctx dctx email repo rel ↔ rel ≠ none := by
  have hgrpc := grpcDelivers_iff hemail hrepo hproto ctx sctx
  have hbroker := brokerDelivers_iff hemail hrepo hrelease henvelope dctx
  constructor
  · rintro ⟨viaGrpc, viaBroker, hg, hb, hsame, -, -⟩ rfl
    rw [hgrpc] at hg
    rw [hbroker] at hb
    rw [hg, hb] at hsame
    -- without a release the request has none, and the event an empty one
    cases hsame
  · intro hrel
    obtain ⟨r, rfl⟩ := Option.ne_none_iff_exists'.mp hrel
    exact ⟨_, _, (hgrpc _).mpr rfl, (hbroker _).mpr rfl, rfl, rfl, rfl⟩

/-! ## Requests to run with -/

/-- A field of a protobuf message, for a value shorter than 128 bytes. -/
def protoField (tag : UInt8) (value : Bytes) : Bytes := tag :: UInt8.ofNat value.length :: value

/-- A request for `a@b.c` and `o/n` as protobuf writes it, with its release. -/
def sampleRequest (release : Bytes) : Bytes :=
  protoField 0x0a (utf8 "a@b.c") ++ protoField 0x12 (utf8 "o/n") ++ release

/-- Protobuf on the requests with the sample release and with none. -/
def sampleProto : Codec SendReleaseNotificationRequest :=
  .ofTable [(⟨"a@b.c", "o/n", some ⟨"v1", "First", "https://g/v1", "2026-01-01"⟩⟩,
      sampleRequest (protoField 0x1a (protoField 0x0a (utf8 "v1") ++ protoField 0x12 (utf8 "First")
        ++ protoField 0x1a (utf8 "https://g/v1") ++ protoField 0x22 (utf8 "2026-01-01")))),
    (⟨"a@b.c", "o/n", none⟩, sampleRequest [])]

/-- The command with an empty release, as a payload. -/
def sampleNoRelease : Bytes :=
  utf8 ("\x7b\"email\":\"a@b.c\",\"repo\":\"o/n\",\"release\":\x7b\"tag_name\":\"\",\"name\":\"\","
    ++ "\"html_url\":\"\",\"published_at\":\"\"\x7d\x7d")

/-- A notifier that reads both commands. -/
def sampleBoth : Notifier.Deps where
  json := { sampleJson with
    release := .ofTable
      [(⟨"a@b.c", "o/n", ⟨"v1", "First", "https://g/v1", "2026-01-01"⟩⟩, sampleRelease),
        (⟨"a@b.c", "o/n", ⟨"", "", "", ""⟩⟩, sampleNoRelease)]
    envelope := .ofTable
      [(⟨typeRelease, "", sampleRelease⟩, sampleEnvelope typeRelease sampleRelease),
        (⟨typeRelease, "", sampleNoRelease⟩, sampleEnvelope typeRelease sampleNoRelease)] }
  sha256Hex := Notifier.sampleSum

/-- A table without repeated bodies carries what it lists. -/
theorem Codec.ofTable_carries {α : Type} [DecidableEq α] {l : List (α × Bytes)}
    (h : (l.map Prod.snd).Nodup) {a : α} (ha : a ∈ l.map Prod.fst) :
    (Codec.ofTable l).Carries a := by
  obtain ⟨x, hx, hfst⟩ := List.mem_map.mp ha
  have hfound : (l.find? (fun y => decide (y.1 = a))).isSome = true := by
    rw [List.find?_isSome]
    exact ⟨x, hx, decide_eq_true hfst⟩
  obtain ⟨y, hy⟩ := Option.isSome_iff_exists.mp hfound
  have hmarshal : (Codec.ofTable l).marshal a = .ok y.2 := by
    simp only [Codec.ofTable, hy]
  exact ⟨y.2, hmarshal, Codec.ofTable_roundTrips h _ _ hmarshal⟩

/-- An envelope that is carried whenever its payload is the one the release was
written as. -/
theorem carries_envelope_of {json : Json} {cmd : ReleaseCommand} {payload : Bytes}
    {traceID : String} (hm : json.release.marshal cmd = .ok payload)
    (h : json.envelope.Carries ⟨typeRelease, traceID, payload⟩) :
    ∀ p, json.release.marshal cmd = .ok p → json.envelope.Carries ⟨typeRelease, traceID, p⟩ := by
  intro p hp
  rw [hm] at hp
  cases hp
  exact h

/-- With a release the two ways agree. -/
theorem same_request_present :
    SameRequest sampleBoth sampleProto ⟨none⟩ ⟨none⟩ ⟨none⟩ "a@b.c" "o/n"
      (some ⟨"v1", "First", "https://g/v1", "2026-01-01"⟩) := by
  have hmarshal : sampleBoth.json.release.marshal
      ⟨"a@b.c", "o/n", ⟨"v1", "First", "https://g/v1", "2026-01-01"⟩⟩ = .ok sampleRelease := by
    decide
  exact (same_request_iff sampleBoth sampleProto ⟨none⟩ ⟨none⟩ ⟨none⟩ "a@b.c" "o/n"
    (some ⟨"v1", "First", "https://g/v1", "2026-01-01"⟩) (by decide) (by decide)
    (Codec.ofTable_carries (by decide) (by decide)) (Codec.ofTable_carries (by decide) (by decide))
    (carries_envelope_of hmarshal (Codec.ofTable_carries (by decide) (by decide)))).mpr (by decide)

/-- Without one they differ: the broker's way makes an empty release of it, and
the message is another one, under the same dedup key. -/
theorem same_request_not_absent :
    GrpcDelivers sampleProto ⟨none⟩ ⟨none⟩ "a@b.c" "o/n" none (.release "a@b.c" "o/n" none) ∧
      BrokerDelivers sampleBoth.json ⟨none⟩ ⟨none⟩ "a@b.c" "o/n" none
        (.release "a@b.c" "o/n" (some ⟨"", "", "", ""⟩)) ∧
      ¬ SameRequest sampleBoth sampleProto ⟨none⟩ ⟨none⟩ ⟨none⟩ "a@b.c" "o/n" none ∧
      (Notifier.Mail.release "a@b.c" "o/n" none).dedupKey sampleBoth
        = (Notifier.Mail.release "a@b.c" "o/n" (some ⟨"", "", "", ""⟩)).dedupKey sampleBoth ∧
      (Smtp.message (.release "a@b.c" "o/n" none)).subject = "New release for o/n" ∧
      (Smtp.message (.release "a@b.c" "o/n" (some ⟨"", "", "", ""⟩))).subject
        = "New release for o/n: " := by
  have hemail : "a@b.c" ≠ "" := by decide
  have hrepo : "o/n" ≠ "" := by decide
  have hmarshal : sampleBoth.json.release.marshal ⟨"a@b.c", "o/n", ⟨"", "", "", ""⟩⟩
      = .ok sampleNoRelease := by
    decide
  have hgrpc : ∀ mail, GrpcDelivers sampleProto ⟨none⟩ ⟨none⟩ "a@b.c" "o/n" none mail ↔
      mail = .release "a@b.c" "o/n" none :=
    grpcDelivers_iff hemail hrepo (Codec.ofTable_carries (by decide) (by decide)) ⟨none⟩ ⟨none⟩
  have hbroker : ∀ mail, BrokerDelivers sampleBoth.json ⟨none⟩ ⟨none⟩ "a@b.c" "o/n" none mail ↔
      mail = .release "a@b.c" "o/n" (some ⟨"", "", "", ""⟩) :=
    brokerDelivers_iff hemail hrepo (Codec.ofTable_carries (by decide) (by decide))
      (carries_envelope_of hmarshal (Codec.ofTable_carries (by decide) (by decide))) ⟨none⟩
  refine ⟨(hgrpc _).mpr rfl, (hbroker _).mpr rfl, ?_, rfl, by decide, by decide⟩
  rintro ⟨viaGrpc, viaBroker, hg, hb, hsame, -, -⟩
  rw [hgrpc] at hg
  rw [hbroker] at hb
  rw [hg, hb] at hsame
  cases hsame

end ReleaseNotifier
