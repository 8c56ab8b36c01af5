/-
What the notifier has sent when it says so.

Two things the notifier puts down are claims about the past: a confirmed row of
the ledger, and a `confirmation_sent` reply. In every run, whatever fails and
however calls overlap, both are true. A row is confirmed only after the sender
returned without an error for its key, and a reply is published only if the key
of its command was sent, by this call or by the one that confirmed the row it
was deduplicated against. The record of the sender only grows, so an assertion
about it, once established, needs no protection from the other calls.
-/
import ReleaseNotifier.Conc.RelyGuarantee
import ReleaseNotifier.Notifier

set_option autoImplicit false

namespace ReleaseNotifier.Notifier

open Conc

/-! ## What one operation can do -/

section Steps

variable {s s' : State} {o : Op} {ch : Choice} {r : o.Res}

/-- The ledger, the record of the sender and the replies after an operation. -/
inductive Effect (s s' : State) : Op → Prop
  | stay {o : Op} (ledger : s'.ledger = s.ledger) (sends : s'.sends = s.sends)
      (replies : s'.replies = s.replies) : Effect s s' o
  | reserve {kind : Kind} {key : String} (ledger : s'.ledger = (s.ledger.reserveQuery kind key).2)
      (sends : s'.sends = s.sends) (replies : s'.replies = s.replies) :
      Effect s s' (.queryReserve kind key)
  | confirm {key : String} (ledger : s'.ledger = s.ledger.confirmQuery s.now key)
      (sends : s'.sends = s.sends) (replies : s'.replies = s.replies) :
      Effect s s' (.execConfirm key)
  | send {mail : Mail} {succeeded : Bool} (ledger : s'.ledger = s.ledger)
      (sends : s'.sends = ⟨mail, succeeded⟩ :: s.sends) (replies : s'.replies = s.replies) :
      Effect s s' (.send mail)
  | publish {key : String} {body : Bytes} (ledger : s'.ledger = s.ledger)
      (sends : s'.sends = s.sends) (replies : s'.replies = (key, body) :: s.replies) :
      Effect s s' (.publish key body)

/-- A prepared statement has its effect or none. -/
theorem execStmt_cases {α : Type} {stmt : Stmt} {a : α} {t : State} {r : Except Err α}
    (h : s.execStmt stmt a t ch = some (r, s')) :
    (s' = s ∧ ∃ e, r = .error e) ∨ (s' = t ∧ ∀ b, r = .ok b → b = a) := by
  unfold State.execStmt at h
  split at h
  · cases h
  · split at h
    · rcases attempt_cases h with ⟨e, rfl, rfl, _⟩ | ⟨b, hb, hr⟩
      · exact .inl ⟨rfl, e, rfl⟩
      · simp only [Except.ok.injEq, Prod.mk.injEq] at hb
        refine .inr ⟨hb.2.symm, fun b' hb' => ?_⟩
        rcases hr with hr | ⟨f, hr⟩
        · rw [hr] at hb'
          cases hb'
          exact hb.1.symm
        · rw [hr] at hb'
          cases hb'
    · rcases attempt_cases h with ⟨e, rfl, rfl, _⟩ | ⟨b, hb, _⟩
      · exact .inl ⟨rfl, e, rfl⟩
      · cases hb

/-- All that an operation does to ledger, mails and replies, said once. -/
theorem exec_effect (h : exec s o ch = some (r, s')) : Effect s s' o := by
  cases o with
  | newStore =>
    cases ch <;> simp only [exec, Option.some.injEq, Prod.mk.injEq, reduceCtorEq] at h
    rw [← h.2]
    exact .stay rfl rfl rfl
  | ensurePrepared =>
    simp only [exec, State.ensurePrepared] at h
    split at h
    · cases ch <;> simp only [Option.some.injEq, Prod.mk.injEq, reduceCtorEq] at h
      rw [← h.2]
      exact .stay rfl rfl rfl
    · cases ch <;> simp only [Option.some.injEq, Prod.mk.injEq, reduceCtorEq] at h
      all_goals
        rw [← h.2]
        exact .stay rfl rfl rfl
  | queryReserve kind key =>
    rcases execStmt_cases h with ⟨rfl, _⟩ | ⟨rfl, _⟩
    · exact .stay rfl rfl rfl
    · exact .reserve rfl rfl rfl
  | execConfirm key =>
    rcases execStmt_cases h with ⟨rfl, _⟩ | ⟨rfl, _⟩
    · exact .stay rfl rfl rfl
    · exact .confirm rfl rfl rfl
  | closeStmt stmt =>
    -- closing a statement is invisible to ledger, sender and broker
    have hclosed : (s.withClosed stmt).ledger = s.ledger ∧ (s.withClosed stmt).sends = s.sends ∧
        (s.withClosed stmt).replies = s.replies := by
      unfold State.withClosed
      split <;> exact ⟨rfl, rfl, rfl⟩
    rw [exec_closeStmt h]
    exact .stay hclosed.1 hclosed.2.1 hclosed.2.2
  | send mail =>
    cases ch <;> simp only [exec, Option.some.injEq, Prod.mk.injEq, reduceCtorEq] at h
    all_goals
      rw [← h.2]
      exact .send rfl rfl rfl
  | publish key body =>
    simp only [exec] at h
    rcases attempt_cases h with ⟨e, rfl, rfl, _⟩ | ⟨b, hb, _⟩
    · exact .stay rfl rfl rfl
    · simp only [Except.ok.injEq, Prod.mk.injEq] at hb
      rw [← hb.2]
      exact .publish rfl rfl rfl

/-- Only the sender adds to its record. -/
theorem Effect.sends_eq (h : Effect s s' o) :
    s'.sends = s.sends ∨ ∃ mail b, o = .send mail ∧ s'.sends = ⟨mail, b⟩ :: s.sends := by
  cases h with
  | stay _ sends _ => exact .inl sends
  | reserve _ sends _ => exact .inl sends
  | confirm _ sends _ => exact .inl sends
  | @send mail b _ sends _ => exact .inr ⟨mail, b, rfl, sends⟩
  | publish _ sends _ => exact .inl sends

/-- The record of the sender only grows. -/
theorem Effect.sends_mono (h : Effect s s' o) : ∀ x ∈ s.sends, x ∈ s'.sends := by
  intro x hx
  rcases h.sends_eq with hsame | ⟨mail, b, _, hsends⟩
  · rw [hsame]
    exact hx
  · rw [hsends]
    exact List.mem_cons_of_mem _ hx

/-- Replies are only added, by publishing them. -/
theorem Effect.replied (h : Effect s s' o) :
    s'.replies = s.replies ∨ ∃ key body, o = .publish key body ∧
      s'.replies = (key, body) :: s.replies := by
  cases h with
  | stay _ _ replies => exact .inl replies
  | reserve _ _ replies => exact .inl replies
  | confirm _ _ replies => exact .inl replies
  | send _ _ replies => exact .inl replies
  | @publish key body _ _ replies => exact .inr ⟨key, body, rfl, replies⟩

variable {key : String}

/-- A key gets confirmed by `confirmQuery` and by nothing else. -/
theorem Effect.confirmed (h : Effect s s' o) (hconf : s'.ledger.mark key = .confirmed) :
    s.ledger.mark key = .confirmed ∨ o = .execConfirm key := by
  cases h with
  | stay ledger _ _ => rw [ledger] at hconf; exact .inl hconf
  | reserve ledger _ _ =>
    rw [ledger, Ledger.mark_reserveQuery] at hconf
    split at hconf
    · refine .inl ?_
      cases hm : s.ledger.mark key with
      | absent => rw [hm] at hconf; cases hconf
      | reserved => rw [hm] at hconf; cases hconf
      | confirmed => rfl
    · exact .inl hconf
  | confirm ledger _ _ =>
    rw [ledger, Ledger.mark_confirmQuery] at hconf
    split at hconf
    · next hk => exact .inr (by rw [hk])
    · exact .inl hconf
  | send ledger _ _ => rw [ledger] at hconf; exact .inl hconf
  | publish ledger _ _ => rw [ledger] at hconf; exact .inl hconf

/-- What an operation can make of the condition of a key. -/
theorem Effect.mark_cases (h : Effect s s' o) (key : String) :
    s'.ledger.mark key = s.ledger.mark key ∨
      s'.ledger.mark key = (s.ledger.mark key).reserve ∨
      s'.ledger.mark key = (s.ledger.mark key).confirm := by
  cases h with
  | stay ledger _ _ => exact .inl (by rw [ledger])
  | reserve ledger _ _ =>
    rw [ledger, Ledger.mark_reserveQuery]
    split
    · exact .inr (.inl rfl)
    · exact .inl rfl
  | confirm ledger _ _ =>
    rw [ledger, Ledger.mark_confirmQuery]
    split
    · exact .inr (.inr rfl)
    · exact .inl rfl
  | send ledger _ _ => exact .inl (by rw [ledger])
  | publish ledger _ _ => exact .inl (by rw [ledger])

/-- A row is never deleted. -/
theorem Effect.present (h : Effect s s' o) (hp : s.ledger.mark key ≠ .absent) :
    s'.ledger.mark key ≠ .absent := by
  cases hm : s.ledger.mark key with
  | absent => exact absurd hm hp
  | reserved => rcases h.mark_cases key with he | he | he <;> rw [he, hm] <;> decide
  | confirmed => rcases h.mark_cases key with he | he | he <;> rw [he, hm] <;> decide

/-- A confirmed row stays confirmed. -/
theorem Effect.confirmed_stays (h : Effect s s' o) (hc : s.ledger.mark key = .confirmed) :
    s'.ledger.mark key = .confirmed := by
  rcases h.mark_cases key with he | he | he <;> rw [he, hc] <;> rfl

/-- A row comes back, and is there from then on, unless the key is confirmed. -/
theorem exec_reserve_some {kind : Kind} {id : Nat}
    (h : exec s (.queryReserve kind key) ch = some (.ok (some id), s')) :
    s.ledger.mark key ≠ .confirmed ∧ s'.ledger.mark key ≠ .absent := by
  rcases execStmt_cases h with ⟨_, e, he⟩ | ⟨rfl, hr⟩
  · cases he
  · have hreturns : (s.ledger.reserveQuery kind key).1.isSome
        = decide (s.ledger.mark key ≠ .confirmed) := Ledger.reserveQuery_returns
    rw [← hr (some id) rfl] at hreturns
    refine ⟨by simpa using hreturns.symm, ?_⟩
    show (s.ledger.reserveQuery kind key).2.mark key ≠ .absent
    rw [Ledger.mark_reserveQuery, if_pos rfl]
    cases s.ledger.mark key <;> decide

/-- A confirmation without an error confirms a row that is there. -/
theorem exec_confirm_ok (h : exec s (.execConfirm key) ch = some (.ok (), s'))
    (hp : s.ledger.mark key ≠ .absent) : s'.ledger.mark key = .confirmed := by
  rcases execStmt_cases h with ⟨_, e, he⟩ | ⟨rfl, _⟩
  · cases he
  · show (s.ledger.confirmQuery s.now key).mark key = .confirmed
    rw [Ledger.mark_confirmQuery, if_pos rfl]
    cases hm : s.ledger.mark key with
    | absent => exact absurd hm hp
    | reserved => rfl
    | confirmed => rfl

/-- No row comes back only from a confirmed key. -/
theorem exec_reserve_none {kind : Kind}
    (h : exec s (.queryReserve kind key) ch = some (.ok none, s')) :
    s.ledger.mark key = .confirmed := by
  rcases execStmt_cases h with ⟨_, e, he⟩ | ⟨_, hr⟩
  · cases he
  · have hreturns : (s.ledger.reserveQuery kind key).1.isSome
        = decide (s.ledger.mark key ≠ .confirmed) := Ledger.reserveQuery_returns
    rw [← hr none rfl] at hreturns
    by_contra hne
    simp [hne] at hreturns

/-- The sender's success is on record. -/
theorem exec_send_ok {mail : Mail} (h : exec s (.send mail) ch = some (.ok (), s')) :
    ⟨mail, true⟩ ∈ s'.sends := by
  cases ch <;> simp only [exec, Option.some.injEq, Prod.mk.injEq, reduceCtorEq, false_and] at h
  rw [← h.2]
  exact List.mem_cons_self

end Steps

/-! ## The contract -/

/-- The sender returned without an error for a mail with this key. -/
def Sent (E : Deps) (s : State) (key : String) : Prop :=
  ∃ x ∈ s.sends, x.succeeded = true ∧ x.mail.dedupKey E = key

/-- The dedup key of the confirmation a payload asks for. -/
def payloadKey (E : Deps) (payload : SendConfirmationPayload) : String :=
  Mail.dedupKey E (.confirmation ⟨payload.email, payload.confirmURL, payload.repo⟩)

/-- A reply to the command the call is for, and a true one. -/
def Answers (E : Deps) (c : Call) (s : State) (key : String) (body : Bytes) : Prop :=
  ∃ b cmd reply, c = .participate b ∧ E.json.command.unmarshal b = .ok cmd ∧
    E.json.WritesReply reply ∧ E.json.reply.marshal reply = .ok body ∧
    reply.sagaID = cmd.sagaID ∧ reply.type = key ∧
    (key = replyConfirmationSent → ∃ payload, E.json.payload.unmarshal cmd.payload = .ok payload ∧
      Sent E s (payloadKey E payload))

/-- The assertion in front of an operation. -/
def Ready (E : Deps) (c : Call) (s : State) : Op → Prop
  | .execConfirm key => Sent E s key
  | .publish key body => Answers E c s key body
  | _ => True

/-- Confirmed keys have been sent. -/
def LedgerTrue (E : Deps) (s : State) : Prop :=
  ∀ key, s.ledger.mark key = .confirmed → Sent E s key

/-- An operation and one of its outcomes. -/
def Executed (_ : Call) (o : Op) (r : o.Res) (s s' : State) : Prop :=
  ∃ ch, exec s o ch = some (r, s')

/-- What no step of the notifier undoes. -/
def Grows (s s' : State) : Prop := ∀ x ∈ s.sends, x ∈ s'.sends

/-- Confirmed keys have been sent, every operation is issued under its
assertion, and the record of the sender grows. -/
def sentContract (E : Deps) : Contract Op Op.Res State Call where
  inv := LedgerTrue E
  rely _ _ := Grows
  guar c o _ s _ := Ready E c s o

section Contract

variable {E : Deps} {c : Call} {s s' : State} {α : Type} {post : α → State → Prop} {key : String}

theorem Executed.grows {o : Op} {r : o.Res} (h : Executed c o r s s') : Grows s s' := by
  obtain ⟨ch, hx⟩ := h
  exact (exec_effect hx).sends_mono

/-- A mail that was sent stays sent. -/
theorem Sent.grows (h : Sent E s key) (hg : Grows s s') : Sent E s' key := by
  obtain ⟨x, hx, hok, hkey⟩ := h
  exact ⟨x, hg x hx, hok, hkey⟩

theorem Answers.grows {body : Bytes} (h : Answers E c s key body) (hg : Grows s s') :
    Answers E c s' key body := by
  obtain ⟨b, cmd, reply, hc, hcmd, hwrites, hbody, hid, htype, hsent⟩ := h
  refine ⟨b, cmd, reply, hc, hcmd, hwrites, hbody, hid, htype, fun hkey => ?_⟩
  obtain ⟨payload, hpay, hs⟩ := hsent hkey
  exact ⟨payload, hpay, hs.grows hg⟩

theorem Ready.grows {o : Op} (h : Ready E c s o) (hg : Grows s s') : Ready E c s' o := by
  cases o with
  | execConfirm key => exact Sent.grows h hg
  | publish key body => exact Answers.grows h hg
  | _ => trivial

/-- An operation under its assertion keeps the ledger true. -/
theorem LedgerTrue.step {o : Op} {r : o.Res} (h : LedgerTrue E s) (hr : Ready E c s o)
    (hx : Executed c o r s s') : LedgerTrue E s' := by
  intro key hconf
  have hg := hx.grows
  obtain ⟨ch, hx⟩ := hx
  rcases (exec_effect hx).confirmed hconf with hold | rfl
  · exact (h key hold).grows hg
  · exact Sent.grows hr hg

/-- Assertions speak of what only grows, so neighbours keep them. -/
theorem sentContract_annotates (E : Deps) : Annotates Executed (sentContract E) (Ready E) where
  keeps := fun hinv hr hx => ⟨LedgerTrue.step hinv hr hx, hr⟩
  stable := fun _ _ hr hg => hr.grows hg

/-- The rule for one operation, with what is to be remembered of the sender. -/
theorem sent_op {o : Op} {k : o.Res → P α} (Q : State → Prop)
    (hQ : ∀ a b, Q a → Grows a b → Q b) (hready : Ready E c s o) (hs : Q s)
    (hstep : ∀ a r b, LedgerTrue E a → Executed c o r a b → Q b →
      Safe Executed (sentContract E) c post (k r) b) :
    Safe Executed (sentContract E) c post (.op o k) s := by
  refine (sentContract_annotates E).op Q (fun a b hq hg => hQ a b hq hg) hready hs ?_
  intro a r b hinv hq hx
  exact hstep a r b hinv hx (hQ a b hq hx.grows)

/-- The same with nothing to be remembered. -/
theorem sent_op_any {o : Op} {k : o.Res → P α} (hready : Ready E c s o)
    (hstep : ∀ a r b, LedgerTrue E a → Executed c o r a b →
      Safe Executed (sentContract E) c post (k r) b) :
    Safe Executed (sentContract E) c post (.op o k) s :=
  sent_op (fun _ => True) (fun _ _ _ _ => trivial) hready trivial
    (fun a r b hinv hx _ => hstep a r b hinv hx)

/-! ## The programs -/

/-- A key that could not be reserved, without an error, has been sent. -/
theorem reserve_safe (kind : Kind) (key : String) :
    Safe Executed (sentContract E) c (fun res b => res = .ok false → Sent E b key)
      (Store.reserve kind key) s := by
  refine sent_op_any trivial (fun a r b _ _ => ?_)
  cases r with
  | error err => exact Safe.ret (fun h => by cases h)
  | ok u =>
    refine sent_op_any trivial (fun a r b hinv hx => ?_)
    rcases r with err | _ | id
    · exact Safe.ret (fun h => by cases h)
    · refine Safe.ret (fun _ => ?_)
      have hg := hx.grows
      obtain ⟨ch, hx⟩ := hx
      exact (hinv key (exec_reserve_none hx)).grows hg
    · exact Safe.ret (fun h => by cases h)

/-- A key is confirmed once it has been sent, and stays sent. -/
theorem confirm_safe (h : Sent E s key) :
    Safe Executed (sentContract E) c (fun _ b => Sent E b key) (Store.confirm key) s := by
  refine sent_op (fun s => Sent E s key) (fun _ _ hs hg => hs.grows hg) trivial h ?_
  intro a r b _ _ hb
  cases r with
  | error err => exact Safe.ret hb
  | ok u =>
    refine sent_op (fun s => Sent E s key) (fun _ _ hs hg => hs.grows hg) hb hb ?_
    intro a r b _ _ hb
    cases r with
    | error err => exact Safe.ret hb
    | ok u => exact Safe.ret hb

/-- A service call that returns no error leaves its key sent. -/
theorem send_safe (mail : Mail) :
    Safe Executed (sentContract E) c
      (fun res b => ∀ d, res = .ok d → Sent E b (mail.dedupKey E)) (Service.send E mail) s := by
  refine Safe.bind (reserve_safe mail.kind (mail.dedupKey E)) (fun res b hb => ?_)
  rcases res with err | _ | _
  · exact Safe.ret (fun d h => by cases h)
  · exact Safe.ret (fun _ _ => hb rfl)
  · -- reserved: the sender is asked now
    refine sent_op_any trivial (fun a r b _ hx => ?_)
    cases r with
    | error err => exact Safe.ret (fun d h => by cases h)
    | ok u =>
      obtain ⟨ch, hx⟩ := hx
      have hsent : Sent E b (mail.dedupKey E) := ⟨⟨mail, true⟩, exec_send_ok hx, rfl, rfl⟩
      show Safe _ _ _ _ (Store.confirm (mail.dedupKey E) >>= fun _ =>
        pure (Except.ok true)) _
      exact Safe.bind (confirm_safe hsent) (fun _ _ hs => Safe.ret (fun _ _ => hs))

/-- `reply`, for a reply that is true. -/
theorem reply_safe {b : Bytes} {cmd : Command} {replyType reason : String}
    (hc : c = .participate b) (hcmd : E.json.command.unmarshal b = .ok cmd)
    (h : replyType = replyConfirmationSent → ∃ payload,
      E.json.payload.unmarshal cmd.payload = .ok payload ∧ Sent E s (payloadKey E payload)) :
    Safe Executed (sentContract E) c (fun _ _ => True)
      (Participant.reply E cmd replyType reason) s := by
  unfold Participant.reply
  split
  · exact Safe.ret trivial
  · next body hbody =>
    have hwrites := E.json.writesReply_replyPayload cmd.sagaID replyType cmd.traceID reason
    refine sent_op_any ⟨b, cmd, _, hc, hcmd, hwrites, hbody, rfl, rfl, h⟩ (fun a r b _ _ => ?_)
    cases r with
    | error err => exact Safe.ret trivial
    | ok u => exact Safe.ret trivial

/-- A reply is published for the outcome that it states. -/
theorem participant_safe {body : Bytes} (hc : c = .participate body) :
    Safe Executed (sentContract E) c (fun _ _ => True) (Participant.handle E body) s := by
  have hfailed : replyConfirmationFailed ≠ replyConfirmationSent := by decide
  unfold Participant.handle
  split
  · exact Safe.ret trivial
  · next cmd hcmd =>
    split
    · exact Safe.ret trivial
    · split
      · exact reply_safe hc hcmd (fun h => absurd h hfailed)
      · next payload hpay =>
        split
        · exact reply_safe hc hcmd (fun h => absurd h hfailed)
        · refine Safe.bind (send_safe (.confirmation ⟨payload.email, payload.confirmURL,
            payload.repo⟩)) (fun res b hb => ?_)
          cases res with
          | error err => exact reply_safe hc hcmd (fun h => absurd h hfailed)
          | ok d => exact reply_safe hc hcmd (fun _ => ⟨payload, hpay, hb d rfl⟩)

/-- An ack follows a `Send` without an error. -/
theorem settled_safe (mail : Mail) :
    Safe Executed (sentContract E) c (fun _ _ => True)
      (Service.send E mail >>= fun res => match res with
        | .error _ => (return .requeue : P Action)
        | .ok _ => return .ack) s := by
  refine Safe.bind (send_safe mail) (fun res b _ => ?_)
  cases res with
  | error err => exact Safe.ret trivial
  | ok d => exact Safe.ret trivial

theorem consumer_safe (body : Bytes) :
    Safe Executed (sentContract E) c (fun _ _ => True) (Consumer.handle E body) s := by
  unfold Consumer.handle
  split
  · exact Safe.ret trivial
  · split
    · unfold Consumer.handleConfirmation
      split
      · exact Safe.ret trivial
      · split
        · exact Safe.ret trivial
        · exact settled_safe _
    · split
      · unfold Consumer.handleRelease
        split
        · exact Safe.ret trivial
        · split
          · exact Safe.ret trivial
          · exact settled_safe _
      · exact Safe.ret trivial

/-! ### Start and stop -/

/-- The operations on the store itself. -/
def Op.internal : Op → Bool
  | .newStore => true
  | .ensurePrepared => true
  | .closeStmt _ => true
  | _ => false

theorem closeStmt_uses (stmt : Stmt) : (closeStmt stmt).Uses (fun o => o.internal = true) := by
  refine ⟨rfl, fun r => ?_⟩
  cases r with
  | error err => trivial
  | ok u => trivial

theorem close_uses : Store.close.Uses (fun o => o.internal = true) :=
  Prog.Uses.bind (closeStmt_uses .reserve) (fun _ =>
    Prog.Uses.bind (closeStmt_uses .confirm) (fun _ => trivial))

theorem newWithContext_uses : Store.newWithContext.Uses (fun o => o.internal = true) := by
  refine ⟨rfl, fun _ => ⟨rfl, fun r => ?_⟩⟩
  cases r with
  | error err =>
    show Prog.Uses _ (Store.close >>= fun errClose => pure (joinErrors (some err) errClose))
    exact Prog.Uses.bind close_uses (fun _ => trivial)
  | ok u => trivial

theorem closeLedgerQuietly_uses : closeLedgerQuietly.Uses (fun o => o.internal = true) :=
  Prog.Uses.bind close_uses (fun _ => trivial)

theorem buildDependencies_uses (cfg : Config) :
    (buildDependencies cfg).Uses (fun o => o.internal = true) := by
  refine Prog.Uses.bind newWithContext_uses (fun res => ?_)
  cases res with
  | some err => trivial
  | none =>
    have hwire : (wire cfg false).Uses (fun o => o.internal = true) := by
      unfold wire
      split
      · exact Prog.Uses.bind closeLedgerQuietly_uses (fun _ => trivial)
      · trivial
    refine Prog.Uses.bind hwire (fun x => ?_)
    obtain ⟨depsReady, err⟩ := x
    cases depsReady with
    | true => trivial
    | false => exact Prog.Uses.bind closeLedgerQuietly_uses (fun _ => trivial)

/-- What stays inside needs no assertion. -/
theorem internal_safe {p : P α} (hp : p.Uses (fun o => o.internal = true)) :
    Safe Executed (sentContract E) c (fun _ _ => True) p s := by
  refine (sentContract_annotates E).uses hp (fun {o r a b} ho _ => ?_) (fun _ _ => trivial)
  cases o with
  | execConfirm key => cases ho
  | publish key body => cases ho
  | _ => trivial

/-- Every call of the notifier meets the contract. -/
theorem program_safe (E : Deps) (c : Call) (s : State) :
    Safe Executed (sentContract E) c (fun _ _ => True) (program E c) s := by
  cases c with
  | buildDependencies cfg =>
    exact Safe.bind (internal_safe (buildDependencies_uses cfg)) (fun _ _ _ => Safe.ret trivial)
  | consume body => exact Safe.bind (consumer_safe body) (fun _ _ _ => Safe.ret trivial)
  | participate body => exact Safe.bind (participant_safe rfl) (fun _ _ _ => Safe.ret trivial)
  | sendConfirmation confirmation =>
    exact Safe.bind (send_safe (.confirmation confirmation)) (fun _ _ _ => Safe.ret trivial)
  | sendReleaseNotification email repo rel =>
    exact Safe.bind (send_safe (.release email repo rel)) (fun _ _ _ => Safe.ret trivial)
  | close => exact Safe.bind (internal_safe close_uses) (fun _ _ _ => Safe.ret trivial)

end Contract

/-! ## Every run -/

/-- The notifier's pools in which every call is safe. -/
abbrev NotifierSafe (E : Deps) (q : Pool Op Op.Res State Call Ret) : Prop :=
  PoolSafe Executed (sentContract E) (fun _ _ _ => True) (fun _ _ _ => True) q

/-- The world touches neither the ledger nor what was sent. -/
theorem world_state {e : WorldEvent} {s s' : State} (h : world e s = some s') :
    s'.ledger = s.ledger ∧ s'.sends = s.sends ∧ s'.replies = s.replies := by
  cases e with
  | tick d => cases h; exact ⟨rfl, rfl, rfl⟩
  | restart => cases h; exact ⟨rfl, rfl, rfl⟩

/-- **The calls of the notifier fit together.** -/
theorem machine_respects (E : Deps) :
    Respects (machine E) (fun _ _ => True) Executed (sentContract E) (fun _ _ _ => True)
      (fun _ _ _ => True) := by
  have hstands : ∀ {th : Thread Op Op.Res Call Ret} {s s' : State}, Grows s s' →
      Stands (sentContract E) (fun _ _ _ => True) th s s' :=
    fun hg => ⟨fun _ _ => hg, fun _ _ _ => trivial⟩
  refine ⟨fun _ _ _ _ _ => trivial, ?_, ?_, ?_, ?_⟩
  · intro q c s _ hq hent
    cases hent
    exact ⟨hq.1, program_safe E c _, fun _ _ _ => hstands (fun _ hx => hx)⟩
  · intro q i ch th o k r s _ _ _ _ _ hx
    exact ⟨ch, hx⟩
  · intro q i ch th o k r s _ _ _ _ _ hx _ _ j th' _ _
    exact hstands (exec_effect hx).sends_mono
  · intro q e s _ hq henv
    obtain ⟨hledger, hsends, _⟩ := world_state henv
    have hg : Grows q.state s := fun x hx => by rw [hsends]; exact hx
    refine ⟨fun key hconf => ?_, fun _ _ _ => hstands hg⟩
    rw [hledger] at hconf
    exact (hq.1 key hconf).grows hg

/-- Every run of the notifier is safe, whatever fails. -/
theorem machine_safe {E : Deps} {es : List (Event Choice Call WorldEvent)}
    {q : Pool Op Op.Res State Call Ret} (h : (machine E).Run (fun _ _ => True) init es q) :
    NotifierSafe E q := by
  have hinit : NotifierSafe E init :=
    ⟨fun key hconf => (by cases hconf), fun i th hth => (by simp [init] at hth)⟩
  exact hinit.run (machine_respects E) h

variable {q q' : Pool Op Op.Res State Call Ret} {e : Event Choice Call WorldEvent}

/-- An event is an operation of a call, or it leaves the record alone. -/
theorem step_cases {E : Deps} (h : (machine E).step q e = some q') :
    (∃ i ch th o k r, e = .run i ch ∧ q.threads[i]? = some th ∧ th.ended = none ∧
        th.prog = .op o k ∧ exec q.state o ch = some (r, q'.state)) ∨
      (q'.state.sends = q.state.sends ∧ q'.state.replies = q.state.replies) := by
  rcases (machine E).step_state h with hrun | hsame | ⟨c, hc⟩ | ⟨w, hw⟩
  · exact .inl hrun
  · rw [hsame]
    exact .inr ⟨rfl, rfl⟩
  · have hsame : q'.state = q.state := (Option.some.inj hc).symm
    rw [hsame]
    exact .inr ⟨rfl, rfl⟩
  · exact .inr (world_state hw).2

/-- One event: the record of the sender grows, and a new reply is a true answer
of the call that published it. -/
theorem step_effect {E : Deps} (hq : NotifierSafe E q) (h : (machine E).step q e = some q') :
    Grows q.state q'.state ∧ ∀ x ∈ q'.state.replies, x ∈ q.state.replies ∨
      ∃ c ∈ q.calls, Answers E c q.state x.1 x.2 := by
  rcases step_cases h with ⟨i, ch, th, o, k, r, _, hth, hend, hp, hx⟩ | ⟨hsends, hreplies⟩
  · have heff := exec_effect hx
    refine ⟨heff.sends_mono, fun x hmem => ?_⟩
    rcases heff.replied with hrep | ⟨key, body, rfl, hrep⟩
    · rw [hrep] at hmem
      exact .inl hmem
    · rw [hrep] at hmem
      rcases List.mem_cons.mp hmem with rfl | hmem
      · -- the reply just published: its assertion says what it answers
        obtain ⟨_, hready, _⟩ := hq.exec hth hend hp ⟨ch, hx⟩
        exact .inr ⟨th.call, List.mem_of_getElem? (Pool.calls_of_thread hth), hready⟩
      · exact .inl hmem
  · refine ⟨fun x hx => by rw [hsends]; exact hx, fun x hx => .inl ?_⟩
    rw [hreplies] at hx
    exact hx

/-- Replies are never taken back. -/
theorem step_replies {E : Deps} (h : (machine E).step q e = some q') :
    ∀ body ∈ q.state.replies.map Prod.snd, body ∈ q'.state.replies.map Prod.snd := by
  intro b hb
  rcases step_cases h with ⟨i, ch, th, o, k, r, _, _, _, _, hx⟩ | ⟨_, hreplies⟩
  · rcases (exec_effect hx).replied with hrep | ⟨key, body, _, hrep⟩
    · rw [hrep]
      exact hb
    · rw [hrep, List.map_cons]
      exact List.mem_cons_of_mem _ hb
  · rw [hreplies]
    exact hb

end ReleaseNotifier.Notifier
