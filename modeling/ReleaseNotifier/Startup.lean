/-
What the started notifier delivers.

A notifier whose store can use its statements answers every well-formed command
with an ack, replies to every saga command that the confirmation was sent, and
invokes the sender once for each dedup key, however often a command is repeated
(`handleAll_serves`): the ledger and the record of the sender agree before each
command and after it. `buildDependencies` does not start such a notifier. Its
deferred function closes the store because `depsReady` is never set, the handles
stay behind with `prepared` set, and from then on every reservation fails
(`buildDependencies_shut`, `handleAll_shut`). `notifier_delivers_iff` puts the
two halves together.

"No call fails for an external reason" is the choice `ok` at every operation; a
statement that the process itself has closed fails under it all the same.
-/
import ReleaseNotifier.Notifier
import Mathlib.Data.List.Perm.Subperm

set_option autoImplicit false

namespace ReleaseNotifier.Notifier

open Conc

/-- One operation when nothing outside the process fails. -/
def unfailing (s : State) (o : Op) : Option (o.Res × State) := exec s o .ok

/-! ## Commands -/

/-- A message for one of the two handlers: the notification queue's or the saga
command queue's. -/
inductive Delivery
  | command (body : Bytes)
  | sagaCommand (body : Bytes)
  deriving DecidableEq

/-- The handler of a message. -/
def Delivery.handle (E : Deps) : Delivery → P Action
  | .command body => Consumer.handle E body
  | .sagaCommand body => Participant.handle E body

/-- Messages handled one at a time, with their answers. -/
def handleAll (E : Deps) : List Delivery → P (List Action)
  | [] => return []
  | d :: ds => do
    let a ← d.handle E
    let as ← handleAll E ds
    return a :: as

/-- The mail a payload of `TypeConfirmation` asks for, if its fields are there. -/
def confirmationMail? (E : Deps) (payload : Bytes) : Option Mail :=
  match E.json.confirmation.unmarshal payload with
  | .ok cmd =>
    if cmd.email = "" ∨ cmd.confirmURL = "" ∨ cmd.repo = "" then none
    else some (.confirmation ⟨cmd.email, cmd.confirmURL, cmd.repo⟩)
  | .error _ => none

/-- The mail a payload of `TypeRelease` asks for, if its fields are there. -/
def releaseMail? (E : Deps) (payload : Bytes) : Option Mail :=
  match E.json.release.unmarshal payload with
  | .ok cmd =>
    if cmd.email = "" ∨ cmd.repo = "" then none
    else some (.release cmd.email cmd.repo (some ⟨cmd.release.tagName, cmd.release.name,
      cmd.release.htmlURL, cmd.release.publishedAt⟩))
  | .error _ => none

/-- The mail a saga command asks for, if its fields are there. -/
def sagaMail? (E : Deps) (cmd : Command) : Option Mail :=
  if cmd.type ≠ cmdSendConfirmation then none
  else
    match E.json.payload.unmarshal cmd.payload with
    | .ok payload =>
      if payload.email = "" ∨ payload.confirmURL = "" ∨ payload.repo = "" then none
      else some (.confirmation ⟨payload.email, payload.confirmURL, payload.repo⟩)
    | .error _ => none

/-- The mail a message asks for. -/
def Delivery.mail? (E : Deps) : Delivery → Option Mail
  | .command body =>
    match E.json.envelope.unmarshal body with
    | .ok envelope =>
      if envelope.type = typeConfirmation then confirmationMail? E envelope.payload
      else if envelope.type = typeRelease then releaseMail? E envelope.payload
      else none
    | .error _ => none
  | .sagaCommand body =>
    match E.json.command.unmarshal body with
    | .ok cmd => sagaMail? E cmd
    | .error _ => none

/-- The `confirmation_sent` reply to a saga command: routing key and body. -/
def sentReply? (E : Deps) (cmd : Command) : Option (String × Bytes) :=
  match E.json.reply.marshal ⟨cmd.sagaID, replyConfirmationSent, cmd.traceID, []⟩ with
  | .ok body => some (replyConfirmationSent, body)
  | .error _ => none

/-- The reply a message is owed; only saga commands are. -/
def Delivery.sentReply? (E : Deps) : Delivery → Option (String × Bytes)
  | .command _ => none
  | .sagaCommand body =>
    match E.json.command.unmarshal body with
    | .ok cmd => Notifier.sentReply? E cmd
    | .error _ => none

/-- A message that asks for a mail; the reply to a saga command can be encoded. -/
def Delivery.WellFormed (E : Deps) (d : Delivery) : Prop :=
  (d.mail? E).isSome = true ∧ (∀ body, d = .sagaCommand body → (d.sentReply? E).isSome = true)

/-- The property: handling the messages one at a time, with no failure from
outside, acks each of them, gives each saga command a `confirmation_sent` reply
of its own, and leaves each dedup key with exactly one invocation of the sender. -/
def Delivers (E : Deps) (s : State) (ds : List Delivery) : Prop :=
  ∃ acts s' new, (handleAll E ds).run unfailing s = some (acts, s') ∧
    (∀ a ∈ acts, a = .ack) ∧
    s'.replies = new ++ s.replies ∧ (ds.filterMap (Delivery.sentReply? E)).Subperm new ∧
    ∀ d ∈ ds, ∀ mail, d.mail? E = some mail →
      s'.sends.countP (fun x => decide (x.mail.dedupKey E = mail.dedupKey E)) = 1

/-- The ledger and the record of the sender agree: a key is confirmed when it
has been sent, once, and was not sent otherwise. -/
def State.Agrees (E : Deps) (s : State) : Prop :=
  ∀ key, s.sends.countP (fun x => decide (x.mail.dedupKey E = key))
    = if s.ledger.mark key = .confirmed then 1 else 0

/-! ## What a well-formed message runs -/

section Handlers

variable {E : Deps} {mail : Mail} {body : Bytes}

/-- How the consumer settles a message. -/
def settle : Except Err Bool → P Action
  | .error _ => return .requeue
  | .ok _ => return .ack

/-- How the participant answers a command. -/
def respond (E : Deps) (cmd : Command) : Except Err Bool → P Action
  | .error err => Participant.reply E cmd replyConfirmationFailed err.error
  | .ok _ => Participant.reply E cmd replyConfirmationSent ""

/-- What the consumer does with the mail a message asks for, if it asks for one. -/
def deliver (E : Deps) : Option Mail → P Action
  | some mail => Service.send E mail >>= settle
  | none => return .drop

/-- The two handlers differ in the mail that they make of a payload, and in nothing else. -/
theorem handleConfirmation_eq (payload : Bytes) :
    Consumer.handleConfirmation E payload = deliver E (confirmationMail? E payload) := by
  unfold Consumer.handleConfirmation confirmationMail?
  cases E.json.confirmation.unmarshal payload with
  | error err => rfl
  | ok cmd =>
    dsimp only
    by_cases hfields : cmd.email = "" ∨ cmd.confirmURL = "" ∨ cmd.repo = ""
    · rw [if_pos hfields, if_pos hfields]
      rfl
    · rw [if_neg hfields, if_neg hfields]
      refine congrArg (Service.send E _ >>= ·) (funext fun r => ?_)
      cases r <;> rfl

theorem handleRelease_eq (payload : Bytes) :
    Consumer.handleRelease E payload = deliver E (releaseMail? E payload) := by
  unfold Consumer.handleRelease releaseMail?
  cases E.json.release.unmarshal payload with
  | error err => rfl
  | ok cmd =>
    dsimp only
    by_cases hfields : cmd.email = "" ∨ cmd.repo = ""
    · rw [if_pos hfields, if_pos hfields]
      rfl
    · rw [if_neg hfields, if_neg hfields]
      refine congrArg (Service.send E _ >>= ·) (funext fun r => ?_)
      cases r <;> rfl

/-- A command of the notification queue is sent and settled, or dropped. -/
theorem consumer_handle (body : Bytes) :
    Consumer.handle E body = deliver E ((Delivery.command body).mail? E) := by
  simp only [Consumer.handle, Delivery.mail?]
  cases E.json.envelope.unmarshal body with
  | error err => rfl
  | ok envelope =>
    dsimp only
    by_cases hconf : envelope.type = typeConfirmation
    · rw [if_pos hconf, if_pos hconf, handleConfirmation_eq]
    · rw [if_neg hconf, if_neg hconf]
      by_cases hrel : envelope.type = typeRelease
      · rw [if_pos hrel, if_pos hrel, handleRelease_eq]
      · rw [if_neg hrel, if_neg hrel]
        rfl

/-- A well-formed command of the notification queue is sent and settled. -/
theorem handle_command (h : (Delivery.command body).mail? E = some mail) :
    (Delivery.command body).handle E = Service.send E mail >>= settle := by
  rw [Delivery.handle, consumer_handle, h]
  rfl

/-- A well-formed saga command is sent and answered. -/
theorem handle_sagaCommand (h : (Delivery.sagaCommand body).mail? E = some mail) :
    ∃ cmd, E.json.command.unmarshal body = .ok cmd ∧
      (Delivery.sagaCommand body).handle E = Service.send E mail >>= respond E cmd := by
  simp only [Delivery.mail?] at h
  simp only [Delivery.handle, Participant.handle]
  split at h
  · next cmd hcmd =>
    refine ⟨cmd, hcmd, ?_⟩
    rw [hcmd]
    unfold sagaMail? at h
    dsimp only
    split at h
    · cases h
    · next htype =>
      rw [if_neg htype]
      split at h
      · next payload hpay =>
        rw [hpay]
        dsimp only
        split at h
        · cases h
        · next hfields =>
          rw [Option.some.injEq] at h
          subst h
          rw [if_neg hfields]
          refine congrArg (Service.send E _ >>= ·) (funext fun r => ?_)
          cases r <;> rfl
      · cases h
  · cases h

end Handlers

/-! ## A store that can use its statements -/

section Serving

variable {E : Deps} {s s' : State} {mail : Mail} {kind : Kind} {key : String} {stmt : Stmt}

/-- The store is prepared and its statements are open. -/
structure State.Serving (s : State) : Prop where
  prepared : s.store.prepared = true
  isOpen : ∀ stmt, s.isOpen stmt = true

/-- The store's statements are open, or it will prepare them when they are
first used. -/
def State.Serves (s : State) : Prop :=
  s.store.prepared = true → ∀ stmt, s.isOpen stmt = true

theorem State.Serving.serves (h : s.Serving) : s.Serves := fun _ => h.isOpen

theorem State.isOpen_congr (hstore : s'.store = s.store) (hstmts : s'.stmts = s.stmts) :
    s'.isOpen stmt = s.isOpen stmt := by
  simp only [State.isOpen, hstore, hstmts]

/-- Serving is a matter of the store and its statements alone. -/
theorem State.Serving.congr (h : s.Serving) (hstore : s'.store = s.store)
    (hstmts : s'.stmts = s.stmts) : s'.Serving :=
  ⟨by rw [hstore]; exact h.prepared,
    fun stmt => by rw [State.isOpen_congr hstore hstmts]; exact h.isOpen stmt⟩

theorem State.handle_of_isOpen (h : s.isOpen stmt = true) :
    (s.store.handle stmt).isNone = false := by
  unfold State.isOpen at h
  split at h
  · next hh => rw [hh]; rfl
  · cases h

theorem State.handle_of_prepared (h : s.store.prepared = true) :
    (s.store.handle stmt).isNone = false := by
  have hboth := s.store.handles h
  cases stmt with
  | reserve => exact Option.isNone_eq_false_iff.mpr hboth.1
  | confirm => exact Option.isNone_eq_false_iff.mpr hboth.2

/-- An open statement is executed. -/
theorem State.execStmt_open {α : Type} {a : α} {ch : Choice} (h : s.isOpen stmt = true) :
    s.execStmt stmt a s' ch = attempt s (.ok (a, s')) ch := by
  rw [State.execStmt, State.handle_of_isOpen h, h]
  rfl

/-- A closed one reports so, each time. -/
theorem State.execStmt_closed {α : Type} {a : α} {ch : Choice} (hp : s.store.prepared = true)
    (h : s.isOpen stmt = false) :
    s.execStmt stmt a s' ch = attempt s (.error errStmtClosed) ch := by
  rw [State.execStmt, State.handle_of_prepared hp, h]
  rfl

/-- What is prepared is not prepared again. -/
theorem ensurePrepared_prepared (h : s.store.prepared = true) :
    unfailing s .ensurePrepared = some (.ok (), s) := by
  simp [unfailing, exec, State.ensurePrepared, h]

/-- Nothing but the condition of one key in the ledger has changed. -/
structure Moved (key : String) (f : Mark → Mark) (s s' : State) : Prop where
  serving : s'.Serving
  sends : s'.sends = s.sends
  replies : s'.replies = s.replies
  marks : ∀ k, s'.ledger.mark k = if k = key then f (s.ledger.mark k) else s.ledger.mark k

/-- `ensurePrepared` leaves open statements behind. -/
theorem ensurePrepared_serves (h : s.Serves) :
    ∃ s', unfailing s .ensurePrepared = some (.ok (), s') ∧ s'.Serving ∧ s'.sends = s.sends ∧
      s'.replies = s.replies ∧ s'.ledger = s.ledger := by
  cases hp : s.store.prepared with
  | true => exact ⟨s, ensurePrepared_prepared hp, ⟨hp, h hp⟩, rfl, rfl, rfl⟩
  | false =>
    refine ⟨{ s with
      stmts := s.stmts ++ [true, true]
      store := ⟨true, some s.stmts.length, some (s.stmts.length + 1), fun _ => ⟨rfl, rfl⟩⟩ },
      by simp [unfailing, exec, State.ensurePrepared, hp], ⟨rfl, fun stmt => ?_⟩, rfl, rfl, rfl⟩
    cases stmt with
    | reserve => simp [State.isOpen, Store.handle]
    | confirm => simp [State.isOpen, Store.handle]

/-- `Reserve` reserves the key unless it is confirmed. -/
theorem reserve_serves (h : s.Serves) (kind : Kind) (key : String) :
    ∃ s', (Store.reserve kind key).run unfailing s
        = some (.ok (decide (s.ledger.mark key ≠ .confirmed)), s') ∧
      Moved key Mark.reserve s s' := by
  obtain ⟨s₁, hprep, hs₁, hsends, hreplies, hledger⟩ := ensurePrepared_serves h
  have hquery : unfailing s₁ (.queryReserve kind key)
      = some (.ok (s₁.ledger.reserveQuery kind key).1,
        { s₁ with ledger := (s₁.ledger.reserveQuery kind key).2 }) := by
    simp only [unfailing, exec]
    rw [State.execStmt_open (hs₁.isOpen _)]
    rfl
  refine ⟨{ s₁ with ledger := (s₁.ledger.reserveQuery kind key).2 }, ?_,
    hs₁.congr rfl rfl, hsends, hreplies, fun k => ?_⟩
  · have hres : (s₁.ledger.reserveQuery kind key).1.isSome
        = decide (s.ledger.mark key ≠ .confirmed) := by
      rw [← hledger]
      exact Ledger.reserveQuery_returns
    unfold Store.reserve perform
    rw [Prog.perform_bind, Prog.run_op hprep]
    dsimp only
    rw [Prog.perform_bind, Prog.run_op hquery]
    cases hq : (s₁.ledger.reserveQuery kind key).1 with
    | none => rw [← hres, hq]; rfl
    | some id => rw [← hres, hq]; rfl
  · rw [← hledger]
    exact Ledger.mark_reserveQuery

/-- `Confirm` confirms the key. -/
theorem confirm_serves (h : s.Serving) (key : String) :
    ∃ s', (Store.confirm key).run unfailing s = some (none, s') ∧ Moved key Mark.confirm s s' := by
  have hexec : unfailing s (.execConfirm key)
      = some (.ok (), { s with ledger := s.ledger.confirmQuery s.now key }) := by
    simp only [unfailing, exec]
    rw [State.execStmt_open (h.isOpen _)]
    rfl
  refine ⟨{ s with ledger := s.ledger.confirmQuery s.now key }, ?_, h.congr rfl rfl, rfl, rfl,
    fun k => Ledger.mark_confirmQuery⟩
  unfold Store.confirm perform
  rw [Prog.perform_bind, Prog.run_op (ensurePrepared_prepared h.prepared)]
  dsimp only
  rw [Prog.perform_bind, Prog.run_op hexec]
  rfl

/-- The mail has been delivered: its key is confirmed, and the sender was
invoked if it had not been before. -/
structure Delivered (E : Deps) (mail : Mail) (replies : List (String × Bytes)) (s s' : State) :
    Prop where
  serving : s'.Serving
  replies : s'.replies = replies ++ s.replies
  sends : s'.sends = if s.ledger.mark (mail.dedupKey E) = .confirmed then s.sends
    else ⟨mail, true⟩ :: s.sends
  marks : ∀ k, s'.ledger.mark k = if k = mail.dedupKey E then .confirmed else s.ledger.mark k

theorem Mark.confirm_reserve (m : Mark) : m.reserve.confirm = .confirmed := by
  cases m <;> rfl

/-- `reserveAndSend` delivers. -/
theorem send_serves (h : s.Serves) (mail : Mail) :
    ∃ b s', (Service.send E mail).run unfailing s = some (.ok b, s') ∧
      Delivered E mail [] s s' := by
  obtain ⟨s₁, hres, hm⟩ := reserve_serves h mail.kind (mail.dedupKey E)
  unfold Service.send Service.reserveAndSend
  rw [Prog.run_bind, hres]
  by_cases hconf : s.ledger.mark (mail.dedupKey E) = .confirmed
  · -- deduplicated
    refine ⟨false, s₁, by simp [hconf], hm.serving, hm.replies, ?_, fun k => ?_⟩
    · rw [if_pos hconf]
      exact hm.sends
    · rw [hm.marks]
      by_cases hk : k = mail.dedupKey E
      · rw [if_pos hk, if_pos hk, hk, hconf]
        rfl
      · rw [if_neg hk, if_neg hk]
  · let s₂ : State := { s₁ with sends := ⟨mail, true⟩ :: s₁.sends }
    -- reserved or absent: the mail goes out and is confirmed
    have hs₂ : s₂.Serving := hm.serving.congr rfl rfl
    obtain ⟨s₃, hcon, hm'⟩ := confirm_serves hs₂ (mail.dedupKey E)
    refine ⟨true, s₃, ?_, hm'.serving, hm'.replies.trans hm.replies, ?_, fun k => ?_⟩
    · have hsend : unfailing s₁ (.send mail) = some (.ok (), s₂) := rfl
      simp only [hconf, ne_eq, not_false_eq_true, decide_true, Option.bind_some, if_true]
      unfold perform
      rw [Prog.perform_bind, Prog.run_op hsend]
      dsimp only
      rw [Prog.run_bind, hcon]
      rfl
    · rw [if_neg hconf, hm'.sends]
      show ⟨mail, true⟩ :: s₁.sends = _
      rw [hm.sends]
    · rw [hm'.marks]
      show (if k = _ then (s₁.ledger.mark k).confirm else s₁.ledger.mark k) = _
      rw [hm.marks]
      by_cases hk : k = mail.dedupKey E
      · rw [if_pos hk, if_pos hk, if_pos hk, Mark.confirm_reserve]
      · rw [if_neg hk, if_neg hk, if_neg hk]

/-- Delivering keeps ledger and sender in agreement. -/
theorem Delivered.agrees {replies : List (String × Bytes)} (h : Delivered E mail replies s s')
    (ha : s.Agrees E) : s'.Agrees E := by
  intro key
  have hkey := ha key
  rw [h.sends, h.marks]
  by_cases hconf : s.ledger.mark (mail.dedupKey E) = .confirmed
  · rw [if_pos hconf, hkey]
    by_cases hk : key = mail.dedupKey E
    · rw [if_pos hk, hk, if_pos hconf, if_pos rfl]
    · rw [if_neg hk]
  · rw [if_neg hconf, List.countP_cons, hkey]
    by_cases hk : key = mail.dedupKey E
    · subst hk
      rw [if_neg hconf, if_pos rfl]
      simp
    · have hne : mail.dedupKey E ≠ key := fun heq => hk heq.symm
      rw [if_neg hk]
      simp [hne]

/-- A reply that can be encoded is published. -/
theorem reply_sent {cmd : Command} {r : String × Bytes} (h : sentReply? E cmd = some r) :
    (Participant.reply E cmd replyConfirmationSent "").run unfailing s
      = some (.ack, { s with replies := r :: s.replies }) := by
  unfold sentReply? at h
  split at h
  · next body hbody =>
    rw [Option.some.injEq] at h
    subst h
    have hpay : E.json.replyPayload "" = [] := rfl
    unfold Participant.reply
    rw [hpay, hbody]
    rfl
  · cases h

/-- A well-formed message is acked, its mail delivered and its reply published. -/
theorem handle_serves (h : s.Serves) {d : Delivery} (hwf : d.WellFormed E)
    (hmail : d.mail? E = some mail) :
    ∃ s', (d.handle E).run unfailing s = some (.ack, s') ∧
      Delivered E mail (d.sentReply? E).toList s s' := by
  obtain ⟨b, s₁, hsend, hdel⟩ := send_serves (E := E) h mail
  cases d with
  | command body =>
    refine ⟨s₁, ?_, hdel⟩
    rw [handle_command hmail, Prog.run_bind, hsend]
    rfl
  | sagaCommand body =>
    obtain ⟨cmd, hcmd, hhandle⟩ := handle_sagaCommand hmail
    obtain ⟨r, hr⟩ := Option.isSome_iff_exists.mp (hwf.2 body rfl)
    have hsent : sentReply? E cmd = some r := by simpa [Delivery.sentReply?, hcmd] using hr
    refine ⟨{ s₁ with replies := r :: s₁.replies }, ?_, hdel.serving.congr rfl rfl, ?_,
      hdel.sends, hdel.marks⟩
    · rw [hhandle, Prog.run_bind, hsend]
      exact reply_sent hsent
    · rw [hr]
      show r :: s₁.replies = _
      rw [hdel.replies]
      rfl

variable {ds : List Delivery}

/-- Deliveries are handled one after the other. -/
theorem handleAll_cons {d : Delivery} {a : Action} {s₁ : State}
    (h : (d.handle E).run unfailing s = some (a, s₁)) :
    (handleAll E (d :: ds)).run unfailing s
      = ((handleAll E ds).run unfailing s₁).map (fun x => (a :: x.1, x.2)) := by
  simp only [handleAll]
  rw [Prog.run_bind, h, Option.bind_some, Prog.run_bind]
  cases (handleAll E ds).run unfailing s₁ with
  | none => rfl
  | some x => rfl

/-- Any number of well-formed messages. The induction is on the messages, with
the agreement of ledger and sender as its invariant. -/
theorem handleAll_serves (h : s.Serves) (ha : s.Agrees E) (hwf : ∀ d ∈ ds, d.WellFormed E) :
    ∃ acts s', (handleAll E ds).run unfailing s = some (acts, s') ∧ (∀ a ∈ acts, a = .ack) ∧
      s'.replies = (ds.filterMap (Delivery.sentReply? E)).reverse ++ s.replies ∧ s'.Agrees E ∧
      (∀ k, s.ledger.mark k = .confirmed → s'.ledger.mark k = .confirmed) ∧
      ∀ d ∈ ds, ∀ mail, d.mail? E = some mail →
        s'.ledger.mark (mail.dedupKey E) = .confirmed := by
  induction ds generalizing s with
  | nil => exact ⟨[], s, rfl, by simp, rfl, ha, fun _ hk => hk, by simp⟩
  | cons d ds ih =>
    have hd := hwf d List.mem_cons_self
    obtain ⟨mail, hmail⟩ := Option.isSome_iff_exists.mp hd.1
    -- one message at a time; what it confirms stays confirmed
    obtain ⟨s₁, hrun, hdel⟩ := handle_serves h hd hmail
    obtain ⟨acts, s', hall, hack, hrep, hag, hkeep, hconf⟩ :=
      ih hdel.serving.serves (hdel.agrees ha) (fun d' hd' => hwf d' (List.mem_cons_of_mem d hd'))
    refine ⟨.ack :: acts, s', ?_, ?_, ?_, hag, ?_, ?_⟩
    · rw [handleAll_cons hrun, hall]
      rfl
    · intro a hmem
      rcases List.mem_cons.mp hmem with rfl | hmem
      · rfl
      · exact hack a hmem
    · rw [hrep, hdel.replies]
      cases hr : d.sentReply? E with
      | none => rw [List.filterMap_cons_none hr]; rfl
      | some r => rw [List.filterMap_cons_some hr]; simp
    · intro k hk
      refine hkeep k ?_
      rw [hdel.marks]
      by_cases hkey : k = mail.dedupKey E
      · rw [if_pos hkey]
      · rw [if_neg hkey]; exact hk
    · intro d' hd' mail' hmail'
      rcases List.mem_cons.mp hd' with rfl | hd'
      · rw [hmail, Option.some.injEq] at hmail'
        subst hmail'
        exact hkeep _ (by rw [hdel.marks, if_pos rfl])
      · exact hconf d' hd' mail' hmail'

/-- A notifier that can use its statements delivers. -/
theorem delivers_of_serves (h : s.Serves) (ha : s.Agrees E) (hwf : ∀ d ∈ ds, d.WellFormed E) :
    Delivers E s ds := by
  obtain ⟨acts, s', hall, hack, hrep, hag, _, hconf⟩ := handleAll_serves h ha hwf
  refine ⟨acts, s', _, hall, hack, hrep, (List.reverse_perm _).symm.subperm, ?_⟩
  intro d hd mail hmail
  rw [hag, if_pos (hconf d hd mail hmail)]

end Serving

/-! ## A store whose statements were closed under it -/

section Shut

variable {E : Deps} {s s' : State} {mail : Mail}

/-- The store believes to be prepared and cannot reserve. -/
structure State.Shut (s : State) : Prop where
  prepared : s.store.prepared = true
  closed : s.isOpen .reserve = false

/-- Being shut is a matter of the same two. -/
theorem State.Shut.congr (h : s.Shut) (hstore : s'.store = s.store) (hstmts : s'.stmts = s.stmts) :
    s'.Shut :=
  ⟨by rw [hstore]; exact h.prepared, by rw [State.isOpen_congr hstore hstmts]; exact h.closed⟩

/-- Nothing is sent: the reservation fails, and changes nothing. -/
theorem send_shut (h : s.Shut) (mail : Mail) :
    ∃ err, (Service.send E mail).run unfailing s = some (.error err, s) := by
  have hquery : unfailing s (.queryReserve mail.kind (mail.dedupKey E))
      = some (.error errStmtClosed, s) := by
    simp only [unfailing, exec]
    rw [State.execStmt_closed h.prepared h.closed]
    rfl
  have hreserve : (Store.reserve mail.kind (mail.dedupKey E)).run unfailing s
      = some (.error (.wrap ("reserving notification dedup_key=\"" ++ mail.dedupKey E ++ "\"")
        errStmtClosed), s) := by
    unfold Store.reserve perform
    rw [Prog.perform_bind, Prog.run_op (ensurePrepared_prepared h.prepared)]
    dsimp only
    rw [Prog.perform_bind, Prog.run_op hquery]
    rfl
  unfold Service.send Service.reserveAndSend
  rw [Prog.run_bind, hreserve]
  exact ⟨_, rfl⟩

/-- A command of the notification queue goes back to it. -/
theorem handle_command_shut (h : s.Shut) {body : Bytes}
    (hmail : (Delivery.command body).mail? E = some mail) :
    ((Delivery.command body).handle E).run unfailing s = some (.requeue, s) := by
  obtain ⟨err, hsend⟩ := send_shut (E := E) h mail
  rw [handle_command hmail, Prog.run_bind, hsend]
  rfl

/-- A reply of either kind is published under its own routing key, if at all. -/
theorem reply_run (cmd : Command) (replyType reason : String) :
    ∃ a new, (Participant.reply E cmd replyType reason).run unfailing s
        = some (a, { s with replies := new ++ s.replies }) ∧ ∀ r ∈ new, r.1 = replyType := by
  unfold Participant.reply
  split
  · exact ⟨.requeue, [], rfl, by simp⟩
  · next body _ => exact ⟨.ack, [(replyType, body)], rfl, by simp⟩

/-- A saga command is answered with a failure. -/
theorem handle_sagaCommand_shut (h : s.Shut) {body : Bytes}
    (hmail : (Delivery.sagaCommand body).mail? E = some mail) :
    ∃ a new, ((Delivery.sagaCommand body).handle E).run unfailing s
        = some (a, { s with replies := new ++ s.replies }) ∧
      ∀ r ∈ new, r.1 = replyConfirmationFailed := by
  obtain ⟨err, hsend⟩ := send_shut (E := E) h mail
  obtain ⟨cmd, _, hhandle⟩ := handle_sagaCommand hmail
  rw [hhandle, Prog.run_bind, hsend]
  exact reply_run cmd replyConfirmationFailed err.error

/-- However many messages follow, only failures are published. -/
theorem handleAll_shut {ds : List Delivery} (h : s.Shut) (hwf : ∀ d ∈ ds, d.WellFormed E) :
    ∃ acts new, (handleAll E ds).run unfailing s
        = some (acts, { s with replies := new ++ s.replies }) ∧
      ∀ r ∈ new, r.1 = replyConfirmationFailed := by
  induction ds generalizing s with
  | nil => exact ⟨[], [], rfl, by simp⟩
  | cons d ds ih =>
    obtain ⟨mail, hmail⟩ := Option.isSome_iff_exists.mp (hwf d List.mem_cons_self).1
    have hone : ∃ a new, (d.handle E).run unfailing s
        = some (a, { s with replies := new ++ s.replies }) ∧
        ∀ r ∈ new, r.1 = replyConfirmationFailed := by
      cases d with
      | command body => exact ⟨.requeue, [], handle_command_shut h hmail, by simp⟩
      | sagaCommand body => exact handle_sagaCommand_shut h hmail
    obtain ⟨a, new, hrun, hnew⟩ := hone
    have hs₁ : ({ s with replies := new ++ s.replies } : State).Shut := h.congr rfl rfl
    obtain ⟨acts, new', hall, hnew'⟩ :=
      ih hs₁ (fun d' hd' => hwf d' (List.mem_cons_of_mem d hd'))
    refine ⟨a :: acts, new' ++ new, ?_, ?_⟩
    · rw [handleAll_cons hrun, hall]
      simp
    · intro r hr
      rcases List.mem_append.mp hr with hr | hr
      · exact hnew' r hr
      · exact hnew r hr

/-- A notifier that cannot reserve delivers no message at all. -/
theorem not_delivers_of_shut {ds : List Delivery} (h : s.Shut) (hwf : ∀ d ∈ ds, d.WellFormed E)
    (hne : ds ≠ []) : ¬ Delivers E s ds := by
  rintro ⟨acts, s', new, hrun, hack, hrep, hsub, _⟩
  cases ds with
  | nil => exact hne rfl
  | cons d ds =>
    have hd := hwf d List.mem_cons_self
    obtain ⟨mail, hmail⟩ := Option.isSome_iff_exists.mp hd.1
    cases d with
    | command body =>
      -- the first answer is a requeue
      rw [handleAll_cons (handle_command_shut h hmail)] at hrun
      obtain ⟨x, _, hx⟩ := Option.map_eq_some_iff.mp hrun
      cases hx
      exact absurd (hack .requeue List.mem_cons_self) (by decide)
    | sagaCommand body =>
      -- the reply it is owed is not among the failures that were published
      obtain ⟨r, hr⟩ := Option.isSome_iff_exists.mp (hd.2 body rfl)
      have hmem : r ∈ new :=
        hsub.subset (List.mem_filterMap.mpr ⟨_, List.mem_cons_self, hr⟩)
      have hsent : r.1 = replyConfirmationSent := by
        simp only [Delivery.sentReply?] at hr
        split at hr
        · unfold sentReply? at hr
          split at hr
          · rw [Option.some.injEq] at hr
            rw [← hr]
          · cases hr
        · cases hr
      obtain ⟨acts', new', hall, hfailed⟩ := handleAll_shut h hwf
      rw [hall, Option.some.injEq, Prod.mk.injEq] at hrun
      rw [← hrun.2] at hrep
      have heq : new' = new := List.append_cancel_right hrep
      have hfail := hfailed r (by rw [heq]; exact hmem)
      rw [hsent] at hfail
      exact absurd hfail (by decide)

end Shut

/-! ## The wiring -/

section Wiring

variable {s s' : State}

@[simp] theorem State.withClosed_store (s : State) (stmt : Stmt) :
    (s.withClosed stmt).store = s.store := by
  unfold State.withClosed
  split <;> rfl

/-- Closing opens nothing. -/
theorem State.isOpen_withClosed {stmt stmt' : Stmt} (h : s.isOpen stmt' = false) :
    (s.withClosed stmt).isOpen stmt' = false := by
  unfold State.isOpen at h ⊢
  rw [State.withClosed_store]
  split at h
  · simp only [decide_eq_false_iff_not] at h ⊢
    unfold State.withClosed
    split
    · next m _ =>
      intro hopen
      rw [List.getElem?_set] at hopen
      split at hopen
      · split at hopen <;> cases hopen
      · exact h hopen
    · exact h
  · rfl

/-- A closed statement is closed. -/
theorem State.withClosed_isOpen (s : State) (stmt : Stmt) :
    (s.withClosed stmt).isOpen stmt = false := by
  unfold State.isOpen
  rw [State.withClosed_store]
  split
  · next n hn =>
    rw [decide_eq_false_iff_not]
    intro hopen
    simp only [State.withClosed, hn, List.getElem?_set_self'] at hopen
    cases hs : s.stmts[n]? with
    | none => rw [hs] at hopen; cases hopen
    | some b => rw [hs] at hopen; cases hopen
  · rfl

/-- A statement is closed whatever its `Close` reports. -/
theorem returns_closeStmt {stmt : Stmt} {r : Option Err}
    (h : (closeStmt stmt).Returns exec s r s') :
    s' = s.withClosed stmt := by
  unfold closeStmt perform at h
  rw [Prog.perform_bind] at h
  obtain ⟨ch, a, s₁, hx, hk⟩ := Prog.returns_op h
  have hs₁ := exec_closeStmt hx
  cases a with
  | error err => rw [(Prog.returns_ret hk).2, hs₁]
  | ok u => rw [(Prog.returns_ret hk).2, hs₁]

/-- `Close` closes both statements and leaves the store's own fields alone. -/
theorem returns_close {r : Option Err} (h : Store.close.Returns exec s r s') :
    s' = (s.withClosed .reserve).withClosed .confirm := by
  unfold Store.close at h
  obtain ⟨a, s₁, h₁, h⟩ := Prog.returns_bind h
  obtain ⟨b, s₂, h₂, h⟩ := Prog.returns_bind h
  rw [(Prog.returns_ret h).2, returns_closeStmt h₂, returns_closeStmt h₁]

/-- Both statements are closed on the way out. -/
theorem returns_closeLedgerQuietly {u : Unit} (h : closeLedgerQuietly.Returns exec s u s') :
    s' = (s.withClosed .reserve).withClosed .confirm := by
  unfold closeLedgerQuietly at h
  obtain ⟨a, s₁, h₁, h⟩ := Prog.returns_bind h
  rw [(Prog.returns_ret h).2, returns_close h₁]

/-- No error is lost in a join. -/
theorem joinErrors_some (e : Err) (o : Option Err) : joinErrors (some e) o ≠ none := by
  cases o <;> simp [joinErrors]

/-- A store that could be made is prepared. -/
theorem returns_newWithContext (h : Store.newWithContext.Returns exec s none s') :
    s'.store.prepared = true := by
  unfold Store.newWithContext perform at h
  rw [Prog.perform_bind] at h
  obtain ⟨ch, _, s₁, hx, h⟩ := Prog.returns_op h
  have hs₁ : s₁.store = .fresh := by
    cases ch <;> simp only [exec, Option.some.injEq, Prod.mk.injEq, reduceCtorEq] at hx
    rw [← hx.2]
  rw [Prog.perform_bind] at h
  obtain ⟨ch, r, s₂, hx, h⟩ := Prog.returns_op h
  cases r with
  | error err =>
    obtain ⟨e, s₃, _, h⟩ := Prog.returns_bind h
    exact absurd (Prog.returns_ret h).1.symm (joinErrors_some err e)
  | ok u =>
    rw [(Prog.returns_ret h).2]
    have hprep : s₁.store.prepared = false := by rw [hs₁]; rfl
    simp only [exec, State.ensurePrepared, hprep, Bool.false_eq_true, if_false] at hx
    cases ch <;> simp only [Option.some.injEq, Prod.mk.injEq, reduceCtorEq, false_and] at hx
    rw [← hx.2]

/-- Between the `defer` and the return nothing sets `depsReady`, and without an
error nothing is done to the store. -/
theorem returns_wire {cfg : Config} {depsReady ready : Bool} {err : Option Err}
    (h : (wire cfg depsReady).Returns exec s (ready, err) s') :
    ready = depsReady ∧ (err = none → s' = s) := by
  unfold wire at h
  cases hpub : newPublisher cfg.rabbitMQURL sagaExchange with
  | some e =>
    simp only [hpub] at h
    obtain ⟨u, s₁, _, h⟩ := Prog.returns_bind h
    obtain ⟨hres, _⟩ := Prog.returns_ret h
    simp only [Prod.mk.injEq] at hres
    refine ⟨hres.1, fun hnone => ?_⟩
    rw [hres.2] at hnone
    cases hnone
  | none =>
    simp only [hpub] at h
    obtain ⟨hres, hs⟩ := Prog.returns_ret h
    simp only [Prod.mk.injEq] at hres
    exact ⟨hres.1, fun _ => hs⟩

/-- However `buildDependencies` comes to return nil, the store it has wired in
is shut: the deferred function ran with `depsReady` unset. -/
theorem buildDependencies_shut {cfg : Config} (h : (buildDependencies cfg).Returns exec s none s') :
    s'.Shut := by
  unfold buildDependencies at h
  obtain ⟨err, s₁, hnew, h⟩ := Prog.returns_bind h
  cases err with
  | some err =>
    have := (Prog.returns_ret h).1
    cases this
  | none =>
    have hprep := returns_newWithContext hnew
    obtain ⟨⟨depsReady, err⟩, s₂, hwire, h⟩ := Prog.returns_bind h
    obtain ⟨rfl, herr⟩ := returns_wire hwire
    -- `depsReady` is still false: the deferred function closes the ledger
    obtain ⟨u, s₃, hclose, h⟩ := Prog.returns_bind h
    obtain ⟨rfl, rfl⟩ := Prog.returns_ret h
    obtain rfl := herr rfl
    rw [returns_closeLedgerQuietly hclose]
    exact ⟨by simpa using hprep, State.isOpen_withClosed (State.withClosed_isOpen _ _)⟩

end Wiring

/-- A notifier whose statements are usable delivers every sequence of
well-formed commands; one started by `buildDependencies` delivers the empty
sequence only. -/
theorem notifier_delivers_iff (E : Deps) (ds : List Delivery) (hwf : ∀ d ∈ ds, d.WellFormed E) :
    (∀ s : State, s.Serves → s.Agrees E → Delivers E s ds) ∧
      ∀ (cfg : Config) (s₀ s : State), (buildDependencies cfg).Returns exec s₀ none s →
        (Delivers E s ds ↔ ds = []) := by
  refine ⟨fun s hs ha => delivers_of_serves hs ha hwf, fun cfg s₀ s hbuild => ?_⟩
  have hshut := buildDependencies_shut hbuild
  constructor
  · intro hdel
    by_contra hne
    exact not_delivers_of_shut hshut hwf hne hdel
  · rintro rfl
    exact ⟨[], s, [], rfl, by simp, rfl, by simp, by simp⟩

/-- A broker URL that the publisher accepts. -/
def sampleConfig : Config := ⟨"amqp://broker"⟩

/-- A saga command, a release, the saga command again, and the same
confirmation from the notification queue. -/
def sampleDeliveries : List Delivery :=
  [.sagaCommand (sampleCommand "s1" "t1"), .command (sampleEnvelope typeRelease sampleRelease),
    .sagaCommand (sampleCommand "s1" "t1"),
    .command (sampleEnvelope typeConfirmation sampleConfirmation)]

/-- `buildDependencies` returns nil when nothing fails. -/
theorem sample_started :
    ∃ s, (buildDependencies sampleConfig).Returns exec .init none s := by
  have hrun : ((buildDependencies sampleConfig).run (fun s o => exec s o .ok) .init).any
      (fun x => x.1 = none) = true := by decide
  obtain ⟨⟨r, s⟩, hs, hr⟩ := (Option.any_eq_true _ _).mp hrun
  obtain rfl : r = none := of_decide_eq_true hr
  exact ⟨s, .of_run hs⟩

/-- The same messages are delivered by a store that serves, and not after `buildDependencies`. -/
theorem notifier_delivers_iff_sample :
    Delivers sample .init sampleDeliveries ∧
      ∃ s, (buildDependencies sampleConfig).Returns exec .init none s ∧
        ¬ Delivers sample s sampleDeliveries := by
  have hwf : ∀ d ∈ sampleDeliveries, d.WellFormed sample := by
    intro d hd
    simp only [sampleDeliveries, List.mem_cons, List.not_mem_nil, or_false] at hd
    rcases hd with rfl | rfl | rfl | rfl
    · exact ⟨by decide, fun _ _ => by decide⟩
    · exact ⟨by decide +kernel, fun _ h => by cases h⟩
    · exact ⟨by decide, fun _ _ => by decide⟩
    · exact ⟨by decide, fun _ h => by cases h⟩
  have hinit : State.init.Agrees sample := fun _ => rfl
  obtain ⟨s, hs⟩ := sample_started
  refine ⟨(notifier_delivers_iff sample _ hwf).1 _ (fun h => by cases h) hinit, s, hs, ?_⟩
  rw [(notifier_delivers_iff sample _ hwf).2 _ _ _ hs]
  simp [sampleDeliveries]

/-- After a start without any failure, a well-formed confirmation command is
requeued and a well-formed saga command is told that the confirmation failed;
the sender is not invoked. -/
theorem started_notifier_sends_nothing :
    ((buildDependencies sampleConfig).run unfailing .init).any (fun x => x.1 = none ∧
      ((handleAll sample [.command (sampleEnvelope typeConfirmation sampleConfirmation),
          .sagaCommand (sampleCommand "s1" "t1")]).run unfailing x.2).any (fun y =>
        y.1 = [.requeue, .ack] ∧
          y.2.replies = [(replyConfirmationFailed, sampleFailed "s1" sampleClosedText)] ∧
          y.2.sends = [])) = true := by
  decide +kernel

end ReleaseNotifier.Notifier
