/-
The ledger's protocol: reserve, send, confirm.

Every path to the sender goes through `reserveAndSend`, and what the ledger is
worth depends on the order of its three steps. The order is written down once,
as a protocol whose stage says how far a call has come, and every call of the
notifier is shown to obey it (`program_obeys`). What follows for deliveries that
are repeated and for calls that overlap is then a question about the protocol
and about what one operation does to the ledger; the programs are not looked at
again.
-/
import ReleaseNotifier.Conc.Protocol
import ReleaseNotifier.Sent
import ReleaseNotifier.Startup

set_option autoImplicit false

namespace ReleaseNotifier.Notifier

open Conc

/-! ## The protocol -/

/-- How far a call has come. -/
inductive Stage
  /-- nothing has been reserved -/
  | free
  /-- a row was returned for the key, and the sender is next -/
  | held (key : String)
  /-- the sender returned without an error -/
  | sent (key : String)
  /-- the key was already confirmed -/
  | duplicate (key : String)
  /-- the reservation or the send failed -/
  | failed
  deriving DecidableEq

/-- The operations that touch neither the ledger nor the sender. -/
def Op.aside : Op → Bool
  | .queryReserve _ _ => false
  | .execConfirm _ => false
  | .send _ => false
  | _ => true

/-- The stage after an answer. -/
def Stage.next : Stage → (o : Op) → o.Res → Stage
  | .free, .ensurePrepared, .error _ => .failed
  | .free, .queryReserve _ _, .error _ => .failed
  | .free, .queryReserve _ key, .ok none => .duplicate key
  | .free, .queryReserve _ key, .ok (some _) => .held key
  | .free, _, _ => .free
  | .held key, .send _, .ok () => .sent key
  | .held _, _, _ => .failed
  | .sent key, _, _ => .sent key
  | .duplicate key, _, _ => .duplicate key
  | .failed, _, _ => .failed

/-- Reserve, then send, then confirm, each for the key of the mail. `rest` are
the operations a call may still issue once the mail is settled one way or the
other: none of the consumer's, the reply of the participant. -/
def reservation (E : Deps) (rest : Op → Prop) : Protocol Op Op.Res Stage where
  allows
    | .free, .queryReserve _ _ => True
    | .free, o => o.aside = true
    | .held key, .send mail => mail.dedupKey E = key
    | .held _, _ => False
    | .sent key, .execConfirm k => k = key
    | .sent _, .ensurePrepared => True
    | _, o => o.aside = true ∧ rest o
  next := Stage.next

section Stages

variable {E : Deps} {rest : Op → Prop} {q : Stage} {o : Op} {r : o.Res} {key : String}

/-- A key is held by whoever `Reserve` gave a row. -/
theorem Stage.next_held (h : q.next o r = .held key) :
    ∃ kind id, (⟨o, r⟩ : (o : Op) × o.Res) = ⟨.queryReserve kind key, .ok (some id)⟩ := by
  unfold Stage.next at h
  split at h <;> cases h
  exact ⟨_, _, rfl⟩

/-- A key is a duplicate for whoever `Reserve` gave none. -/
theorem Stage.next_duplicate (h : q.next o r = .duplicate key) :
    q = .duplicate key ∨
      ∃ kind, (⟨o, r⟩ : (o : Op) × o.Res) = ⟨.queryReserve kind key, .ok none⟩ := by
  unfold Stage.next at h
  split at h <;> cases h
  · exact .inr ⟨_, rfl⟩
  · exact .inl rfl

/-- A key is sent once the mail for it has left while it was held. -/
theorem Stage.next_sent (h : q.next o r = .sent key) :
    q = .sent key ∨
      (q = .held key ∧ ∃ mail, (⟨o, r⟩ : (o : Op) × o.Res) = ⟨.send mail, .ok ()⟩) := by
  unfold Stage.next at h
  split at h <;> cases h
  · exact .inr ⟨rfl, _, rfl⟩
  · exact .inl rfl

/-- A mail is sent only under its own reserved key. -/
theorem allows_send {mail : Mail} (h : (reservation E rest).allows q (.send mail)) :
    q = .held (mail.dedupKey E) := by
  cases q with
  | held key => rw [show mail.dedupKey E = key from h]
  | free => cases h
  | _ => cases h.1

/-- A delivery reserves at most once. -/
theorem allows_queryReserve {kind : Kind}
    (h : (reservation E rest).allows q (.queryReserve kind key)) : q = .free := by
  cases q with
  | free => rfl
  | held key => cases h
  | _ => cases h.1

/-- A key is confirmed only after its mail has been sent. -/
theorem allows_execConfirm (h : (reservation E rest).allows q (.execConfirm key)) :
    q = .sent key := by
  cases q with
  | sent k => rw [show key = k from h]
  | free => cases h
  | held key => cases h
  | _ => cases h.1

end Stages

section Programs

variable {E : Deps} {rest : Op → Prop} {key : String} {mail : Mail}

/-- The stage a reservation ends in. -/
def Reserved (key : String) : Except Err Bool → Stage → Prop
  | .error _, q => q = .failed
  | .ok true, q => q = .held key
  | .ok false, q => q = .duplicate key

/-- The stage a service call ends in. -/
def Settled (key : String) : Except Err Bool → Stage → Prop
  | .error _, q => q = .failed
  | .ok _, q => q = .sent key ∨ q = .duplicate key

/-- `Reserve` without an error tells the new key from the known one. -/
theorem reserve_obeys (kind : Kind) (key : String) :
    (Store.reserve kind key).Obeys (reservation E rest) (Reserved key) .free := by
  refine ⟨rfl, fun r => ?_⟩
  cases r with
  | error err => exact rfl
  | ok u =>
    refine ⟨trivial, fun r => ?_⟩
    rcases r with err | _ | id
    · exact rfl
    · exact rfl
    · exact rfl

/-- Confirming is the last step, and may fail: the key stays sent. -/
theorem confirm_obeys (key : String) :
    (Store.confirm key).Obeys (reservation E rest) (fun _ q => q = .sent key) (.sent key) := by
  refine ⟨trivial, fun r => ?_⟩
  cases r with
  | error err => exact rfl
  | ok u =>
    refine ⟨rfl, fun r => ?_⟩
    cases r with
    | error err => exact rfl
    | ok u => exact rfl

/-- **`Send` reserves, sends and confirms**, each only after the one before it. -/
theorem send_obeys (mail : Mail) :
    (Service.send E mail).Obeys (reservation E rest) (Settled (mail.dedupKey E)) .free := by
  refine Prog.Obeys.bind (reserve_obeys mail.kind (mail.dedupKey E)) (fun res q hq => ?_)
  rcases res with err | _ | _
  · exact hq
  · exact .inr hq
  · -- reserved: the sender is asked now
    rw [show q = .held (mail.dedupKey E) from hq]
    refine ⟨rfl, fun r => ?_⟩
    cases r with
    | error err => exact rfl
    | ok u =>
      show Prog.Obeys _ _ (Store.confirm (mail.dedupKey E) >>= fun _ =>
        pure (Except.ok true)) _
      exact Prog.Obeys.bind (confirm_obeys (mail.dedupKey E)) (fun _ _ hq => .inl hq)

/-- The stage in which the consumer settles a message, given its mail. -/
def ConsumerSettled (E : Deps) (mail : Option Mail) : Action → Stage → Prop
  | .ack, q => ∃ m, mail = some m ∧ (q = .sent (m.dedupKey E) ∨ q = .duplicate (m.dedupKey E))
  | .requeue, q => q = .failed
  | .drop, q => q = .free

/-- The consumer sends at most the one mail that its body asks for. -/
theorem consumer_obeys (E : Deps) (rest : Op → Prop) (body : Bytes) :
    (Consumer.handle E body).Obeys (reservation E rest)
      (ConsumerSettled E ((Delivery.command body).mail? E)) .free := by
  rw [consumer_handle]
  cases (Delivery.command body).mail? E with
  | none => exact rfl
  | some mail =>
    refine Prog.Obeys.bind (send_obeys mail) (fun res q hq => ?_)
    cases res with
    | error err => exact hq
    | ok b => exact ⟨mail, rfl, hq⟩

/-- The stages in which the sender is not about to be asked. -/
def Stage.atRest : Stage → Prop
  | .held _ => False
  | _ => True

/-- An operation that touches neither ledger nor sender never leads to it. -/
theorem Stage.next_aside {q : Stage} {o : Op} (hq : q.atRest) (ho : o.aside = true) (r : o.Res) :
    (q.next o r).atRest := by
  cases q with
  | free =>
    cases o with
    | queryReserve kind key => cases ho
    | execConfirm key => cases ho
    | send mail => cases ho
    | ensurePrepared => cases r <;> trivial
    | _ => trivial
  | held key => cases hq
  | _ => trivial

/-- Once the mail is settled the protocol does not mind the reply. -/
theorem reservation_aside {q : Stage} {o : Op} (hq : q.atRest) (ho : o.aside = true) :
    (reservation E (fun _ => True)).allows q o := by
  cases o with
  | queryReserve kind key => cases ho
  | execConfirm key => cases ho
  | send mail => cases ho
  | ensurePrepared =>
    cases q with
    | held key => cases hq
    | free => rfl
    | sent key => trivial
    | _ => exact ⟨rfl, trivial⟩
  | _ =>
    cases q with
    | held key => cases hq
    | free => rfl
    | _ => exact ⟨rfl, trivial⟩

/-- Outside of reserve, send and confirm a call may do anything else. -/
theorem aside_obeys {α : Type} {p : P α} {q : Stage} (hp : p.Uses (fun o => o.aside = true))
    (hq : q.atRest) :
    p.Obeys (reservation E (fun _ => True)) (fun _ _ => True) q :=
  (hp.obeys Stage.atRest hq (fun _ _ hq ho =>
    ⟨reservation_aside hq ho, Stage.next_aside hq ho⟩)).mono (fun _ _ _ => trivial)

/-- Publishing a reply touches neither the store nor the mailer. -/
theorem reply_uses (cmd : Command) (replyType reason : String) :
    (Participant.reply E cmd replyType reason).Uses (fun o => o.aside = true) := by
  unfold Participant.reply
  split
  · trivial
  · refine ⟨rfl, fun r => ?_⟩
    cases r with
    | error err => trivial
    | ok u => trivial

/-- The participant sends in the same way and publishes a reply afterwards. -/
theorem participant_obeys (E : Deps) (body : Bytes) :
    (Participant.handle E body).Obeys (reservation E (fun _ => True)) (fun _ _ => True)
      .free := by
  unfold Participant.handle
  split
  · trivial
  · next cmd _ =>
    split
    · trivial
    · split
      · exact aside_obeys (reply_uses _ _ _) trivial
      · split
        · exact aside_obeys (reply_uses _ _ _) trivial
        · refine Prog.Obeys.bind (send_obeys _) (fun res q hq => ?_)
          cases res with
          | error err => 
              rw [show q = .failed from hq]
              exact aside_obeys (reply_uses _ _ _) trivial
          | ok b =>
            rcases hq with rfl | rfl
            · exact aside_obeys (reply_uses _ _ _) trivial
            · exact aside_obeys (reply_uses _ _ _) trivial

/-- Every call of the notifier keeps to the protocol. -/
theorem program_obeys (E : Deps) (c : Call) :
    (program E c).Obeys (reservation E (fun _ => True)) (fun _ _ => True) .free := by
  have hinternal : ∀ {α : Type} {p : P α}, p.Uses (fun o => o.internal = true) →
      p.Obeys (reservation E (fun _ => True)) (fun _ _ => True) .free := by
    intro α p hp
    refine aside_obeys (hp.mono (fun o ho => ?_)) trivial
    cases o <;> first | rfl | cases ho
  cases c with
  | buildDependencies cfg =>
    exact Prog.Obeys.bind (hinternal (buildDependencies_uses cfg)) (fun _ _ _ => trivial)
  | consume body => exact Prog.Obeys.bind (consumer_obeys E _ body) (fun _ _ _ => trivial)
  | participate body => exact Prog.Obeys.bind (participant_obeys E body) (fun _ _ _ => trivial)
  | sendConfirmation confirmation =>
    exact Prog.Obeys.bind (send_obeys (.confirmation confirmation)) (fun _ _ _ => trivial)
  | sendReleaseNotification email repo rel =>
    exact Prog.Obeys.bind (send_obeys (.release email repo rel)) (fun _ _ _ => trivial)
  | close => exact Prog.Obeys.bind (hinternal close_uses) (fun _ _ _ => trivial)

end Programs

end ReleaseNotifier.Notifier
