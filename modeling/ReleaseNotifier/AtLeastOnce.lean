/-
The two queues of the notifier, with the handlers behind them.

The consumer loop knows nothing of what a handler does, and the handlers nothing of
deliveries. Here the two are put together: the answer of a handler operation is what
some call of the handler with that body returned in a run of the notifier, which goes
on at the same time with everything else it does. What an ack is worth then is a fact
about the handler (`consumed_settled`, `participated_settled`), that every message is
settled that way or still there is a fact about the loop (`Custody`), and together a
message is never lost before its work is done.
-/
import ReleaseNotifier.Broker
import ReleaseNotifier.Reservation
import ReleaseNotifier.Sessions

set_option autoImplicit false

namespace ReleaseNotifier.Consuming

open Conc
open Notifier (Sent reservation NotifierSafe)

/-! ## What the handlers' answers mean -/

section Handlers

variable {E : Notifier.Deps}

/-- The protocol that allows everything and stays where it is. -/
def unbound {Op : Type} {Res : Op → Type} {σ : Type} : Protocol Op Res σ :=
  ⟨fun _ _ => True, fun q _ _ => q⟩

/-- The mail a message of the notification queue asks for. -/
abbrev mail? (E : Notifier.Deps) (body : Bytes) : Option Notifier.Mail :=
  (Notifier.Delivery.command body).mail? E

/-- The consumer's calls keep to the ledger's protocol. -/
def consumption (E : Notifier.Deps) : Notifier.Call → Protocol Notifier.Op Notifier.Op.Res Notifier.Stage
  | .consume _ => reservation E (fun _ => False)
  | _ => unbound

/-- An ack comes after the mail has gone out, a drop only for what asks for none. -/
def Consumed (E : Notifier.Deps) : Notifier.Call → Notifier.Ret → Notifier.Stage → Prop
  | .consume body, .action .ack, q => ∃ mail, mail? E body = some mail ∧
      (q = .sent (mail.dedupKey E) ∨ q = .duplicate (mail.dedupKey E))
  | .consume body, .action .drop, _ => mail? E body = none
  | _, _, _ => True

/-- What the stage says of the sender. -/
def Mailed (E : Notifier.Deps) (_ : Notifier.Call) (q : Notifier.Stage) (s : Notifier.State) : Prop :=
  ∀ key, q = .sent key ∨ q = .duplicate key → Sent E s key

/-- The answer of the consumer says whether its mail is sent. -/
theorem program_consumes (E : Notifier.Deps) (c : Notifier.Call) :
    ((Notifier.machine E).program c).Obeys (consumption E c) (Consumed E c) .free := by
  cases c with
  | consume body =>
    have hhandle : (Notifier.Consumer.handle E body).Obeys (consumption E (.consume body))
        (fun a q => Consumed E (.consume body) (.action a) q) .free := by
      rw [Notifier.consumer_handle]
      cases hmail : (Notifier.Delivery.command body).mail? E with
      | none => exact hmail
      | some mail =>
        refine Prog.Obeys.bind (Notifier.send_obeys mail) (fun res q hq => ?_)
        cases res with
        | error err => trivial
        | ok b => exact ⟨mail, hmail, hq⟩
    exact hhandle.bind (fun a q hq => hq)
  | buildDependencies cfg => exact Prog.obeys_any _ (fun _ _ => trivial) (fun _ _ => trivial)
  | participate body => exact Prog.obeys_any _ (fun _ _ => trivial) (fun _ _ => trivial)
  | sendConfirmation confirmation => exact Prog.obeys_any _ (fun _ _ => trivial) (fun _ _ => trivial)
  | sendReleaseNotification email repo rel =>
    exact Prog.obeys_any _ (fun _ _ => trivial) (fun _ _ => trivial)
  | close => exact Prog.obeys_any _ (fun _ _ => trivial) (fun _ _ => trivial)

/-- One operation: a send that succeeded is on record, and so is that of a duplicate. -/
theorem Mailed.step {c : Notifier.Call} {q : Notifier.Stage} {o : Notifier.Op} {r : o.Res}
    {ch : Choice} {s s' : Notifier.State} (h : Mailed E c q s) (hledger : Notifier.LedgerTrue E s)
    (hallow : (consumption E c).allows q o) (hx : Notifier.exec s o ch = some (r, s')) :
    Mailed E c ((consumption E c).next q o r) s' := by
  have hg : Notifier.Grows s s' := (Notifier.exec_effect hx).sends_mono
  have hsame : Mailed E c q s' := fun key hq => (h key hq).grows hg
  cases c with
  | consume body =>
    rintro key (hq | hq)
    · rcases Notifier.Stage.next_sent hq with hold | ⟨rfl, mail, heq⟩
      · exact hsame key (.inl hold)
      · cases heq
        have hkey := Notifier.allows_send hallow
        rw [Notifier.Stage.held.injEq] at hkey
        exact ⟨⟨mail, true⟩, Notifier.exec_send_ok hx, rfl, hkey.symm⟩
    · rcases Notifier.Stage.next_duplicate hq with hold | ⟨kind, heq⟩
      · exact hsame key (.inr hold)
      · cases heq
        exact (hledger key (Notifier.exec_reserve_none hx)).grows hg
  | _ => exact hsame

/-- The handler of the notification queue, in every run of the notifier: an ack means
that the mail has been sent, a drop that the message asks for none. -/
theorem consumed_settled {es : List (Event Choice Notifier.Call Notifier.WorldEvent)}
    {q : NotifierPool} (h : (Notifier.machine E).Run (fun _ _ => True) Notifier.init es q)
    {th : Thread Notifier.Op Notifier.Op.Res Notifier.Call Notifier.Ret} (hth : th ∈ q.threads)
    {body : Bytes} {a : Action} (hcall : th.call = .consume body)
    (hret : th.prog = .ret (.action a)) :
    (a = .ack → ∃ mail, mail? E body = some mail ∧ Sent E q.state (mail.dedupKey E)) ∧
      (a = .drop → mail? E body = none) := by
  have htracks : NotifierSafe E q ∧ q.Tracks (consumption E) (Consumed E) (Mailed E) := by
    refine h.invariant (J := fun q => NotifierSafe E q ∧ q.Tracks (consumption E) (Consumed E)
      (Mailed E)) ⟨Notifier.machine_safe .nil, fun i th hth => by cases hth⟩ ?_
    rintro p e p' ⟨hsafe, ht⟩ _ hs
    have hsafe' := hsafe.step (Notifier.machine_respects E) trivial hs
    have hg : Notifier.Grows p.state p'.state := (Notifier.step_effect hsafe hs).1
    refine ⟨hsafe', ht.step (program_consumes E) hs ?_ ?_ ?_⟩
    · rintro c s _ _ key (hq | hq) <;> cases hq
    · intro i ch th o k r s stage _ _ _ hx hallow hR
      exact hR.step hsafe.1 hallow hx
    · intro j th stage _ _ _ _ hR key hq
      exact (hR key hq).grows hg
  obtain ⟨i, hi⟩ := List.mem_iff_getElem?.mp hth
  obtain ⟨stage, hobeys, hR⟩ := htracks.2 i th hi (.inr (by rw [hret]; rfl))
  rw [hret, hcall] at hobeys
  refine ⟨?_, ?_⟩
  · rintro rfl
    obtain ⟨mail, hmail, hstage⟩ := hobeys
    exact ⟨mail, hmail, hR _ hstage⟩
  · rintro rfl
    exact hobeys

/-! ### Saga commands -/

/-- The last reply the call has published. -/
def replying : Protocol Notifier.Op Notifier.Op.Res (Option (String × Bytes)) where
  allows _ _ := True
  next
    | _, .publish key body, .ok () => some (key, body)
    | q, _, _ => q

/-- A reply is out once its publish has succeeded. -/
theorem replying_next {q : Option (String × Bytes)} {o : Notifier.Op} {r : o.Res}
    {x : String × Bytes} (h : replying.next q o r = some x) :
    q = some x ∨ (⟨o, r⟩ : (o : Notifier.Op) × o.Res) = ⟨.publish x.1 x.2, .ok ()⟩ := by
  simp only [replying] at h
  split at h
  · cases h
    exact .inr rfl
  · exact .inl h

/-- The command a message of the saga queue carries, if the participant is asked by it. -/
def command? (E : Notifier.Deps) (body : Bytes) : Option Command :=
  match E.json.command.unmarshal body with
  | .ok cmd => if cmd.type = cmdSendConfirmation then some cmd else none
  | .error _ => none

/-- A reply for the saga of this command. -/
def RepliesTo (E : Notifier.Deps) (cmd : Command) (x : String × Bytes) : Prop :=
  ∃ reply : Reply, E.json.reply.marshal reply = .ok x.2 ∧ reply.sagaID = cmd.sagaID ∧
    reply.type = x.1 ∧ x.1 ∈ [replyConfirmationSent, replyConfirmationFailed]

/-- An ack comes after a reply, a drop only for what is no command. -/
def Participated (E : Notifier.Deps) : Notifier.Call → Notifier.Ret → Option (String × Bytes) → Prop
  | .participate body, .action .ack, q =>
    ∃ cmd x, command? E body = some cmd ∧ q = some x ∧ RepliesTo E cmd x
  | .participate body, .action .drop, _ => command? E body = none
  | _, _, _ => True

/-- The reply that is published is one for the command. -/
theorem reply_obeys {body : Bytes} {cmd : Command} {replyType : String} (reason : String)
    (hcmd : command? E body = some cmd)
    (htype : replyType ∈ [replyConfirmationSent, replyConfirmationFailed])
    (q : Option (String × Bytes)) :
    (Notifier.Participant.reply E cmd replyType reason).Obeys replying
      (fun a q => Participated E (.participate body) (.action a) q) q := by
  unfold Notifier.Participant.reply
  split
  · trivial
  · next b hb =>
    refine ⟨trivial, fun r => ?_⟩
    cases r with
    | error err => trivial
    | ok u => exact ⟨cmd, _, hcmd, rfl, _, hb, rfl, rfl, htype⟩

/-- The answer of the participant says whether its reply is out. -/
theorem participant_obeys (E : Notifier.Deps) (body : Bytes) :
    (Notifier.Participant.handle E body).Obeys replying
      (fun a q => Participated E (.participate body) (.action a) q) none := by
  have hsent : replyConfirmationSent ∈ [replyConfirmationSent, replyConfirmationFailed] := by
    decide
  have hfailed : replyConfirmationFailed ∈ [replyConfirmationSent, replyConfirmationFailed] := by
    decide
  unfold Notifier.Participant.handle
  split
  · next f hf =>
    show command? E body = none
    simp [command?, hf]
  · next cmd hcmd =>
    split
    · next hne =>
      show command? E body = none
      simp only [command?, hcmd]
      exact if_neg hne
    · next heq =>
      have hsome : command? E body = some cmd := by
        simp only [command?, hcmd]
        exact if_pos (not_not.mp heq)
      split
      · exact reply_obeys _ hsome hfailed _
      · split
        · exact reply_obeys _ hsome hfailed _
        · -- whatever the service does, the reply comes last
          have hservice : ∀ confirmation, (Notifier.Service.sendConfirmation E confirmation).Obeys
              replying (fun _ _ => True) none :=
            fun _ => Prog.obeys_any _ (fun _ _ => trivial) (fun _ _ => trivial)
          refine (hservice _).bind (fun res q _ => ?_)
          cases res with
          | error err => exact reply_obeys _ hsome hfailed _
          | ok b => exact reply_obeys _ hsome hsent _

theorem program_participates (E : Notifier.Deps) (c : Notifier.Call) :
    ((Notifier.machine E).program c).Obeys replying (Participated E c) none := by
  cases c with
  | participate body =>
    exact (participant_obeys E body).bind (fun a q hq => hq)
  | buildDependencies cfg => exact Prog.obeys_any _ (fun _ _ => trivial) (fun _ _ => trivial)
  | consume body => exact Prog.obeys_any _ (fun _ _ => trivial) (fun _ _ => trivial)
  | sendConfirmation confirmation => exact Prog.obeys_any _ (fun _ _ => trivial) (fun _ _ => trivial)
  | sendReleaseNotification email repo rel =>
    exact Prog.obeys_any _ (fun _ _ => trivial) (fun _ _ => trivial)
  | close => exact Prog.obeys_any _ (fun _ _ => trivial) (fun _ _ => trivial)

/-- A reply that is out stays out. -/
theorem exec_replies {s s' : Notifier.State} {o : Notifier.Op} {r : o.Res} {ch : Choice}
    (hx : Notifier.exec s o ch = some (r, s')) : ∀ x ∈ s.replies, x ∈ s'.replies := by
  intro x hmem
  rcases (Notifier.exec_effect hx).replied with hsame | ⟨key, body, _, hnew⟩
  · rw [hsame]
    exact hmem
  · rw [hnew]
    exact List.mem_cons_of_mem _ hmem

/-- The participant, in every run of the notifier: an ack means that a reply for the
saga has been published, a drop that the message is no command of its own. -/
theorem participated_settled {es : List (Event Choice Notifier.Call Notifier.WorldEvent)}
    {q : NotifierPool} (h : (Notifier.machine E).Run (fun _ _ => True) Notifier.init es q)
    {th : Thread Notifier.Op Notifier.Op.Res Notifier.Call Notifier.Ret} (hth : th ∈ q.threads)
    {body : Bytes} {a : Action} (hcall : th.call = .participate body)
    (hret : th.prog = .ret (.action a)) :
    (a = .ack → ∃ cmd, command? E body = some cmd ∧ ∃ x ∈ q.state.replies, RepliesTo E cmd x) ∧
      (a = .drop → command? E body = none) := by
  have htracks : q.Tracks (fun _ => replying) (Participated E)
      (fun _ published s => ∀ x, published = some x → x ∈ s.replies) := by
    refine h.invariant (fun i th hth => by cases hth) (fun p e p' ht _ hs => ?_)
    have hkept : ∀ x ∈ p.state.replies, x ∈ p'.state.replies := by
      rcases Notifier.step_cases hs with ⟨i, ch, th, o, k, r, _, _, _, _, hx⟩ | ⟨_, hsame⟩
      · exact exec_replies hx
      · intro x hx
        rw [hsame]
        exact hx
    refine ht.step (program_participates E) hs ?_ ?_ ?_
    · intro c s _ _ x hx
      cases hx
    · intro i ch th o k r s published he hth hp hx _ hR x hnext
      rcases replying_next hnext with hold | heq
      · exact exec_replies hx x (hR x hold)
      · cases heq
        have hpublished : attempt p.state (.ok ((), { p.state with
            replies := x :: p.state.replies })) ch = some (.ok (), s) := hx
        cases attempt_ok hpublished
        exact List.mem_cons_self
    · intro j th published _ _ _ _ hR x hx
      exact hkept x (hR x hx)
  obtain ⟨i, hi⟩ := List.mem_iff_getElem?.mp hth
  obtain ⟨published, hobeys, hR⟩ := htracks i th hi (.inr (by rw [hret]; rfl))
  rw [hret, hcall] at hobeys
  refine ⟨?_, ?_⟩
  · rintro rfl
    obtain ⟨cmd, x, hcmd, hx, hreplies⟩ := hobeys
    exact ⟨cmd, hcmd, x, hR x hx, hreplies⟩
  · rintro rfl
    exact hobeys

end Handlers

/-! ## Queue and handler together -/

/-- An event of the consumers of a queue, or of the notifier. -/
abbrev QueueEvent := JointEvent Turn Call WorldEvent Choice Notifier.Call Notifier.WorldEvent

/-- The handler was called with this body and has returned this action. -/
def Answered (handler : Bytes → Notifier.Call) (q : NotifierPool) (body : Bytes) (v : Verdict) :
    Prop :=
  ∃ th ∈ q.threads, ∃ a, v = .known a ∧ th.call = handler body ∧ th.prog = .ret (.action a)

/-- What the loop is told by its handler is what the handler returned. -/
def Handled (handler : Bytes → Notifier.Call) (p : Consumers) (q : NotifierPool) :
    QueueEvent → Prop
  | .left (.run i (.verdict v)) => ∀ c ctx d, p.due? i = some (c, .handle ctx d) →
      Answered handler q d.message.body v
  | _ => True

/-- A queue and the notifier that consumes it. -/
abbrev QueueRun (cfg : ConsumerConfig) (E : Notifier.Deps) (handler : Bytes → Notifier.Call) :=
  JointRun (machine cfg) (Notifier.machine E) (Handled handler) init Notifier.init

section Joint

variable {cfg : ConsumerConfig} {E : Notifier.Deps} {handler : Bytes → Notifier.Call}
variable {es : List QueueEvent} {p : Consumers} {q : NotifierPool}

/-- Every verdict in the record was some handler's. -/
theorem answered (h : QueueRun cfg E handler es p q) :
    ∀ x ∈ p.state.verdicts, Answered handler q x.1.message.body x.2 := by
  refine h.invariant (F := fun _ => True)
    (G := fun q => ∀ (i : Nat) th a, q.threads[i]? = some th → th.prog = .ret a → th.ended ≠ none)
    (J := fun p q => ∀ x ∈ p.state.verdicts, Answered handler q x.1.message.body x.2)
    (fun _ _ _ => trivial) (fun es q hq => hq.ended_of_ret rfl) (fun x hx => by cases hx) ?_ ?_
  · intro p q e p' _ _ hJ hc hs
    rcases Machine.step_state _ hs with ⟨i, turn, th, o, k, r, rfl, hth, hend, hp, hx⟩ | hsame |
      ⟨c, hc⟩ | ⟨w, hw⟩
    · rcases (exec_record hx).2 with hsame | ⟨ctx, d, v, rfl, rfl, hnew⟩
      · rw [hsame]
        exact hJ
      · rw [hnew]
        refine List.forall_mem_cons.mpr ⟨?_, hJ⟩
        exact hc th.call ctx d (Pool.due?_of_op hth hend hp)
    · rw [hsame]
      exact hJ
    · have hent : (machine cfg).enter c p.state = some p'.state := hc
      simp only [machine] at hent
      split at hent
      · cases hent
      · rw [← Option.some.inj hent]
        exact hJ
    · rw [(world_record hw).2]
      exact hJ
  · -- a handler that has returned stays as it is
    intro p q e q' _ hended hJ _ hs x hx
    obtain ⟨th, hth, a, hv, hcall, hret⟩ := hJ x hx
    obtain ⟨i, hi⟩ := List.mem_iff_getElem?.mp hth
    have hi' := Machine.step_ended _ hs hi (hended i th _ hi hret)
    exact ⟨th, List.mem_of_getElem? hi', a, hv, hcall, hret⟩

/-- A message of the queue is waiting, or a handler has settled it. -/
theorem waiting_or_settled (h : QueueRun cfg E handler es p q) {m : Message}
    (hm : m ∈ p.state.published) :
    (m ∈ p.state.ready ∨ ∃ d ∈ p.state.unacked, d.message = m) ∨
      ∃ a : Action, a ≠ .requeue ∧ (a = .drop → m ∈ p.state.dropped) ∧
        Answered handler q m.body (.known a) := by
  obtain ⟨es₁, hleft⟩ := h.left_run
  have hc := (run_orderly hleft).custody
  have hplace := hc.conserved.symm.subset hm
  simp only [State.places, List.mem_append, List.mem_map] at hplace
  rcases hplace with ((hready | hun) | hacked) | hdropped
  · exact .inl (.inl hready)
  · exact .inl (.inr hun)
  · obtain ⟨d, rfl, hd⟩ := hc.accepted m hacked
    exact .inr ⟨.ack, by simp, by simp, answered h _ hd⟩
  · obtain ⟨d, rfl, hd⟩ := hc.rejected m hdropped
    exact .inr ⟨.drop, by simp, fun _ => hdropped, answered h _ hd⟩

end Joint

/-- **No notification is lost.** Whatever happens to consumers, channels, connections and
the notifier itself: a message of the notification queue is still waiting there or on
a channel, or it asks for no mail and was dropped, or its mail has been sent. -/
theorem notifications_not_lost (cfg : ConsumerConfig) (E : Notifier.Deps) (es : List QueueEvent)
    (p : Consumers) (q : NotifierPool) (h : QueueRun cfg E .consume es p q) (m : Message)
    (hm : m ∈ p.state.published) :
    (m ∈ p.state.ready ∨ ∃ d ∈ p.state.unacked, d.message = m) ∨
      (mail? E m.body = none ∧ m ∈ p.state.dropped) ∨
      ∃ mail, mail? E m.body = some mail ∧ Sent E q.state (mail.dedupKey E) := by
  obtain ⟨es₂, hright⟩ := h.right_run
  rcases waiting_or_settled h hm with hwaiting | ⟨a, hne, hdrop, th, hth, b, hb, hcall, hret⟩
  · exact .inl hwaiting
  · cases hb
    obtain ⟨hack, hdropped⟩ := consumed_settled hright hth hcall hret
    cases a with
    | ack => exact .inr (.inr (hack rfl))
    | drop => exact .inr (.inl ⟨hdropped rfl, hdrop rfl⟩)
    | requeue => exact absurd rfl hne

/-- Decide `Handled` where it is about a handler's answer. -/
def handledBy (handler : Bytes → Notifier.Call) (p : Consumers) (q : NotifierPool) :
    QueueEvent → Bool
  | .left (.run i (.verdict v)) =>
    match p.due? i with
    | some (_, .handle _ d) => q.threads.any (fun th =>
      decide (th.call = handler d.message.body) && (match v, th.prog.result? with
        | .known a, some (.action b) => decide (a = b)
        | _, _ => false))
    | _ => true
  | _ => true

/-- The test decides the condition on a run. -/
theorem handled_of_handledBy {handler : Bytes → Notifier.Call} {p : Consumers} {q : NotifierPool}
    {e : QueueEvent} (h : handledBy handler p q e = true) : Handled handler p q e := by
  unfold Handled
  split
  · next i v =>
    intro c ctx d hdue
    simp only [handledBy, hdue, List.any_eq_true, Bool.and_eq_true, decide_eq_true_eq] at h
    obtain ⟨th, hth, hcall, hans⟩ := h
    split at hans
    · next a b hret =>
      rw [decide_eq_true_eq] at hans
      subst hans
      exact ⟨th, hth, a, rfl, hcall, Prog.result?_eq_some.mp hret⟩
    · cases hans
  · trivial

/-- A consumer connects and is handed one message, the handler's five operations run,
and the message is settled. -/
def oneMessage (call : Notifier.Call) (body : Bytes) (handling : Nat) : List QueueEvent :=
  [.left (.call ⟨false, 0, 2, 1⟩), .left (.env (.publish body))] ++
    List.replicate 8 (.left (.run 0 .ok)) ++
    [.left (.env (.deliver 0 ⟨0, body⟩)), .left (.run 0 (.receive 0)), .right (.call call)] ++
    List.replicate handling (.right (.run 0 .ok)) ++
    [.left (.run 0 (.verdict (.known .ack))), .left (.run 0 .ok)]

/-- The run of `oneMessage`, and whether it leaves the message acked and nothing else. -/
def settlesOne (handler : Bytes → Notifier.Call) (body : Bytes) (handling : Nat) : Bool :=
  ((oneMessage (handler body) body handling).foldlM (JointRun.stepWhere
    (machine ⟨"amqp://h", ⟨"x", "q", []⟩, 0⟩) (Notifier.machine Notifier.sample)
    (handledBy handler)) (init, Notifier.init)).any (fun x =>
      decide (x.1.state.published = [⟨0, body⟩] ∧ x.1.state.acked = [⟨0, body⟩] ∧
        x.1.state.ready = [] ∧ x.1.state.unacked = [] ∧ x.1.state.dropped = []))

/-- A run that passes the test is a run of the queue. -/
theorem run_of_settlesOne {handler : Bytes → Notifier.Call} {body : Bytes} {handling : Nat}
    (h : settlesOne handler body handling = true) :
    ∃ p q, QueueRun ⟨"amqp://h", ⟨"x", "q", []⟩, 0⟩ Notifier.sample handler
        ([] ++ oneMessage (handler body) body handling) p q ∧
      p.state.published = [⟨0, body⟩] ∧ p.state.acked = [⟨0, body⟩] ∧
      p.state.ready = [] ∧ p.state.unacked = [] ∧ p.state.dropped = [] := by
  obtain ⟨⟨p, q⟩, hx, hprop⟩ := (Option.any_eq_true _ _).mp h
  rw [decide_eq_true_eq] at hprop
  exact ⟨p, q, JointRun.of_stepWhere (fun _ _ _ hok => handled_of_handledBy hok) .nil hx, hprop⟩

set_option maxRecDepth 4000 in
/-- One release, from the queue to the mail. -/
theorem notifications_not_lost_sample :
    ∃ p q, QueueRun ⟨"amqp://h", ⟨"x", "q", []⟩, 0⟩ Notifier.sample .consume
        ([] ++ oneMessage (.consume (sampleEnvelope typeRelease sampleRelease))
          (sampleEnvelope typeRelease sampleRelease) 5) p q ∧
      p.state.published = [⟨0, sampleEnvelope typeRelease sampleRelease⟩] ∧
      p.state.acked = p.state.published ∧
      ∃ mail, mail? Notifier.sample (sampleEnvelope typeRelease sampleRelease) = some mail ∧
        Sent Notifier.sample q.state (mail.dedupKey Notifier.sample) := by
  let body := sampleEnvelope typeRelease sampleRelease
  have hrun : settlesOne .consume body 5 = true := by decide
  obtain ⟨p, q, h, hpub, hacked, hready, hun, hdropped⟩ := run_of_settlesOne hrun
  refine ⟨p, q, h, hpub, hacked.trans hpub.symm, ?_⟩
  rcases notifications_not_lost _ _ _ p q h ⟨0, body⟩ (by rw [hpub]; exact List.mem_singleton_self _)
    with (hwait | ⟨d, hd, _⟩) | ⟨_, hd⟩ | hsent
  · rw [hready] at hwait
    cases hwait
  · rw [hun] at hd
    cases hd
  · rw [hdropped] at hd
    cases hd
  · exact hsent

/-- **No command is left without an answer.** A message of the saga command queue is
still waiting there or on a channel, or it is no command for the participant and was
dropped, or a reply for its saga has been published. -/
theorem commands_not_lost (cfg : ConsumerConfig) (E : Notifier.Deps) (es : List QueueEvent)
    (p : Consumers) (q : NotifierPool) (h : QueueRun cfg E .participate es p q) (m : Message)
    (hm : m ∈ p.state.published) :
    (m ∈ p.state.ready ∨ ∃ d ∈ p.state.unacked, d.message = m) ∨
      (command? E m.body = none ∧ m ∈ p.state.dropped) ∨
      ∃ cmd, command? E m.body = some cmd ∧ ∃ x ∈ q.state.replies, RepliesTo E cmd x := by
  obtain ⟨es₂, hright⟩ := h.right_run
  rcases waiting_or_settled h hm with hwaiting | ⟨a, hne, hdrop, th, hth, b, hb, hcall, hret⟩
  · exact .inl hwaiting
  · cases hb
    obtain ⟨hack, hdropped⟩ := participated_settled hright hth hcall hret
    cases a with
    | ack => exact .inr (.inr (hack rfl))
    | drop => exact .inr (.inl ⟨hdropped rfl, hdrop rfl⟩)
    | requeue => exact absurd rfl hne

set_option maxRecDepth 4000 in
/-- One command, from the queue to the reply. -/
theorem commands_not_lost_sample :
    ∃ p q, QueueRun ⟨"amqp://h", ⟨"x", "q", []⟩, 0⟩ Notifier.sample .participate
        ([] ++ oneMessage (.participate (sampleCommand "s1" "t1")) (sampleCommand "s1" "t1") 6)
        p q ∧
      p.state.acked = [⟨0, sampleCommand "s1" "t1"⟩] ∧
      ∃ cmd, command? Notifier.sample (sampleCommand "s1" "t1") = some cmd ∧
        ∃ x ∈ q.state.replies, RepliesTo Notifier.sample cmd x := by
  let body := sampleCommand "s1" "t1"
  have hrun : settlesOne .participate body 6 = true := by decide
  obtain ⟨p, q, h, hpub, hacked, hready, hun, hdropped⟩ := run_of_settlesOne hrun
  refine ⟨p, q, h, hacked, ?_⟩
  rcases commands_not_lost _ _ _ p q h ⟨0, body⟩ (by rw [hpub]; exact List.mem_singleton_self _)
    with (hwait | ⟨d, hd, _⟩) | ⟨_, hd⟩ | hreplied
  · rw [hready] at hwait
    cases hwait
  · rw [hun] at hd
    cases hd
  · rw [hdropped] at hd
    cases hd
  · exact hreplied

end ReleaseNotifier.Consuming
