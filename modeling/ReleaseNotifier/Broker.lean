/-
The two services with the broker between them.

The monolith publishes commands, the participant is handed commands and
publishes replies, the reply consumer of the monolith is handed replies. The
broker is no more than that: a message is handed over only if it was published,
and then any number of times, in any order, at any later moment or never. Both
sides run as they did alone, with every failure and every interleaving.

The result is about the whole chain. A nil from `StartAndWait` means that its
saga is completed, a completed saga that some `confirmation_sent` reply for it
was handed over, such a reply that the confirmation its command asks for had
been sent, and the command was made from the saga's own data. Each link is an
invariant of one of the services or of what passed between them (`Exchanged`).
-/
import ReleaseNotifier.Conc.Joint
import ReleaseNotifier.Ready
import ReleaseNotifier.Sent

set_option autoImplicit false

namespace ReleaseNotifier

open Conc

/-- The monolith's side of a joint run. -/
abbrev MonolithPool := Pool Op Op.Res State Call Ret

/-- The notifier's side. -/
abbrev NotifierPool := Pool Notifier.Op Notifier.Op.Res Notifier.State Notifier.Call Notifier.Ret

/-- An event of the monolith or of the notifier. -/
abbrev SystemEvent := JointEvent Choice Call WorldEvent Choice Notifier.Call Notifier.WorldEvent

/-- What the broker hands over has been published: replies by the participant,
commands by the orchestrator. -/
def Published (p : MonolithPool) (q : NotifierPool) : SystemEvent → Prop
  | .left (.call (.handleReply body)) => body ∈ q.state.replies.map Prod.snd
  | .right (.call (.participate body)) => body ∈ p.state.commands
  | _ => True

instance (p : MonolithPool) (q : NotifierPool) : DecidablePred (Published p q) := fun e =>
  match e with
  | .left (.call (.handleReply body)) =>
    inferInstanceAs (Decidable (body ∈ q.state.replies.map Prod.snd))
  | .right (.call (.participate body)) => inferInstanceAs (Decidable (body ∈ p.state.commands))
  | .left (.call (.subscribe _ _ _ _)) => isTrue trivial
  | .left (.call (.confirm _)) => isTrue trivial
  | .left (.call (.unsubscribe _)) => isTrue trivial
  | .left (.call .reap) => isTrue trivial
  | .left (.call (.startAndWait _ _ _)) => isTrue trivial
  | .left (.run _ _) => isTrue trivial
  | .left (.kill _) => isTrue trivial
  | .left (.env _) => isTrue trivial
  | .right (.call (.buildDependencies _)) => isTrue trivial
  | .right (.call (.consume _)) => isTrue trivial
  | .right (.call (.sendConfirmation _)) => isTrue trivial
  | .right (.call (.sendReleaseNotification _ _ _)) => isTrue trivial
  | .right (.call .close) => isTrue trivial
  | .right (.run _ _) => isTrue trivial
  | .right (.kill _) => isTrue trivial
  | .right (.env _) => isTrue trivial

/-- A run of the whole system, from its first start. -/
abbrev SystemRun (D : Deps) (E : Notifier.Deps) :=
  JointRun (monolith D) (Notifier.machine E) Published monolithInit Notifier.init

/-! ## The monolith's part -/

section Monolith

variable {D : Deps} {c : Call} {o : Op} {ch : Choice} {r : o.Res} {s s' : State}

/-- A command made from the data of a saga in the table. -/
def CommandOf (D : Deps) (s : State) (body : Bytes) : Prop :=
  ∃ x inst traceID payload, s.sagas.get x = some inst ∧
    D.json.payload.marshal ⟨inst.data.email, inst.data.repo, inst.data.confirmURL⟩ = .ok payload ∧
    D.json.command.marshal ⟨x, cmdSendConfirmation, traceID, payload⟩ = .ok body

/-- Every published command is one. -/
def Commanded (D : Deps) (s : State) : Prop := ∀ body ∈ s.commands, CommandOf D s body

/-- Sagas keep their data, so a command stays right. -/
theorem CommandOf.evolves {body : Bytes} (h : CommandOf D s body) (he : Evolves s s') :
    CommandOf D s' body := by
  obtain ⟨x, inst, traceID, payload, hx, hpay, hcmd⟩ := h
  obtain ⟨inst', hx', hdata, _⟩ := he.sagas hx
  exact ⟨x, inst', traceID, payload, hx', by rw [hdata]; exact hpay, hcmd⟩

theorem Commanded.evolves (h : Commanded D s) (he : Evolves s s')
    (hcmds : s'.commands = s.commands) : Commanded D s' := by
  intro body hbody
  rw [hcmds] at hbody
  exact (h body hbody).evolves he

/-- A command is published for a saga in the table. -/
theorem Commanded.exec (h : Commanded D s) (hk : Known D c o ch r s s') : Commanded D s' := by
  have he := exec_evolves hk.exec
  rcases exec_commands hk.exec with hsame | ⟨key, body, rfl, hnew⟩
  · exact h.evolves he hsame
  · intro b hb
    rw [hnew, List.mem_cons] at hb
    rcases hb with rfl | hb
    · -- the new command is the one its assertion describes
      obtain ⟨_, x, inst, traceID, payload, _, hx, hpay, hcmd⟩ := hk.ready
      exact CommandOf.evolves ⟨x, inst, traceID, payload, hx, hpay, hcmd⟩ he
    · exact (h b hb).evolves he

/-- In every run of the monolith. -/
theorem run_commanded {es : List (Event Choice Call WorldEvent)} {p : MonolithPool}
    (h : (monolith D).Run (fun _ _ => True) monolithInit es p) : Commanded D p.state := by
  refine (run_safe h).invariant (J := fun p => Commanded D p.state) ?_ ?_
  · intro body hbody
    cases hbody
  · rintro p e p' hp ⟨_, hsafe⟩ hs
    rcases step_cases hs with ⟨i, ch, th, o, k, r, _, hth, hend, hprog, hx⟩ | hidle
    · exact hp.exec (hsafe.known hth hend hprog hx)
    · exact hp.evolves (step_evolves hs) hidle.commands

/-- A saga is completed by the handler of a `confirmation_sent` reply to it. -/
theorem completed_by (hk : Known D c o ch r s s') {x : String} {inst' : Instance}
    (hx : s'.sagas.get x = some inst') (hst : inst'.state = .completed) :
    (∃ inst, s.sagas.get x = some inst ∧ inst.state = .completed) ∨
      ∃ body reply, c = .handleReply body ∧ D.json.reply.unmarshal body = .ok reply ∧
        reply.type = replyConfirmationSent ∧ reply.sagaID = x := by
  rcases (exec_sagas hk.exec).completed hx hst with hold | rfl
  · exact .inl hold
  · obtain ⟨body, reply, hc, hreply, htype, hsaga⟩ := hk.ready
    exact .inr ⟨body, reply, hc, hreply, htype, hsaga⟩

end Monolith

/-! ## What passed between them -/

/-- A reply that was published: it answers a published command, and if it says
that the confirmation was sent, that is true. -/
def Truthful (E : Notifier.Deps) (p : MonolithPool) (q : NotifierPool) (body : Bytes) : Prop :=
  ∃ b cmd reply, b ∈ p.state.commands ∧ E.json.command.unmarshal b = .ok cmd ∧
    E.json.WritesReply reply ∧ E.json.reply.marshal reply = .ok body ∧
    reply.sagaID = cmd.sagaID ∧
    (reply.type = replyConfirmationSent → ∃ payload,
      E.json.payload.unmarshal cmd.payload = .ok payload ∧
      Notifier.Sent E q.state (Notifier.payloadKey E payload))

/-- The invariant of the two services together. -/
structure Exchanged (D : Deps) (E : Notifier.Deps) (p : MonolithPool) (q : NotifierPool) : Prop where
  /-- The participant was handed published commands. -/
  commands : ∀ body, .participate body ∈ q.calls → body ∈ p.state.commands
  /-- The reply consumer was handed published replies. -/
  replies : ∀ body, .handleReply body ∈ p.calls → body ∈ q.state.replies.map Prod.snd
  /-- Published replies are true. -/
  truthful : ∀ body ∈ q.state.replies.map Prod.snd, Truthful E p q body
  /-- A completed saga was told that its confirmation was sent. -/
  completed : ∀ x inst, p.state.sagas.get x = some inst → inst.state = .completed →
    ∃ body ∈ q.state.replies.map Prod.snd, ∃ reply, D.json.reply.unmarshal body = .ok reply ∧
      reply.type = replyConfirmationSent ∧ reply.sagaID = x

section Steps

variable {D : Deps} {E : Notifier.Deps} {p p' : MonolithPool} {q q' : NotifierPool}

/-- A truthful reply stays truthful. -/
theorem Truthful.later {body : Bytes} (h : Truthful E p q body)
    (hp : ∀ b ∈ p.state.commands, b ∈ p'.state.commands) (hq : Notifier.Grows q.state q'.state) :
    Truthful E p' q' body := by
  obtain ⟨b, cmd, reply, hb, hcmd, hwrites, hbody, hid, hsent⟩ := h
  refine ⟨b, cmd, reply, hp b hb, hcmd, hwrites, hbody, hid, fun htype => ?_⟩
  obtain ⟨payload, hpay, hs⟩ := hsent htype
  exact ⟨payload, hpay, hs.grows hq⟩

/-- A call that was not there before is the one the event makes. -/
theorem mem_calls_step {Op : Type} {Res : Op → Type} {S C Call Env Ret : Type}
    {M : Machine Op Res S C Call Env Ret} {p p' : Pool Op Res S Call Ret} {e : Event C Call Env}
    (h : M.step p e = some p') {c : Call} (hc : c ∈ p'.calls) : c ∈ p.calls ∨ e = .call c := by
  rcases M.step_calls h with hsame | ⟨c', rfl, hnew⟩
  · rw [hsame] at hc
    exact .inl hc
  · rw [hnew, List.mem_append, List.mem_singleton] at hc
    rcases hc with hc | rfl
    · exact .inl hc
    · exact .inr rfl

/-- A step of the monolith. -/
theorem Exchanged.left {e : Event Choice Call WorldEvent} (h : Exchanged D E p q)
    (hsafe : MonolithSafe D p) (hc : Published p q (.left e))
    (hs : (monolith D).step p e = some p') : Exchanged D E p' q where
  commands := fun body hbody => (step_evolves hs).commands body (h.commands body hbody)
  replies := by
    intro body hbody
    rcases mem_calls_step hs hbody with hold | rfl
    · exact h.replies body hold
    · exact hc
  truthful := fun body hbody =>
    (h.truthful body hbody).later (step_evolves hs).commands (fun _ hx => hx)
  completed := by
    intro x inst' hx hst
    rcases step_cases hs with ⟨i, ch, th, o, k, r, _, hth, hend, hprog, hx'⟩ | hidle
    · rcases completed_by (hsafe.known hth hend hprog hx') hx hst with
        ⟨inst, hget, hcomp⟩ | ⟨body, reply, hcall, hreply⟩
      · exact h.completed x inst hget hcomp
      · -- completed by this step: its call was handed the reply
        refine ⟨body, h.replies body ?_, reply, hreply⟩
        rw [← hcall]
        exact List.mem_of_getElem? (Pool.calls_of_thread hth)
    · rw [hidle.sagas] at hx
      exact h.completed x inst' hx hst

/-- A step of the notifier. -/
theorem Exchanged.right {e : Event Choice Notifier.Call Notifier.WorldEvent} (h : Exchanged D E p q)
    (hsafe : Notifier.NotifierSafe E q) (hc : Published p q (.right e))
    (hs : (Notifier.machine E).step q e = some q') : Exchanged D E p q' := by
  obtain ⟨hgrows, hnew⟩ := Notifier.step_effect hsafe hs
  have hmono := Notifier.step_replies hs
  refine ⟨?_, fun body hbody => hmono body (h.replies body hbody), ?_, ?_⟩
  · intro body hbody
    rcases mem_calls_step hs hbody with hold | rfl
    · exact h.commands body hold
    · exact hc
  · intro body hbody
    obtain ⟨x, hx, rfl⟩ := List.mem_map.mp hbody
    rcases hnew x hx with
      hold | ⟨c, hcall, b, cmd, reply, rfl, hcmd, hwrites, hreply, hid, htype, hsent⟩
    · exact (h.truthful x.2 (List.mem_map_of_mem hold)).later (fun _ hb => hb) hgrows
    · refine ⟨b, cmd, reply, h.commands b hcall, hcmd, hwrites, hreply, hid, fun ht => ?_⟩
      obtain ⟨payload, hpay, hkey⟩ := hsent (htype ▸ ht)
      exact ⟨payload, hpay, hkey.grows hgrows⟩
  · intro x inst hx hst
    obtain ⟨body, hbody, hreply⟩ := h.completed x inst hx hst
    exact ⟨body, hmono body hbody, hreply⟩

/-- In every run of the system. -/
theorem system_exchanged {es : List SystemEvent} (h : SystemRun D E es p q) :
    Exchanged D E p q := by
  refine h.invariant (F := MonolithSafe D) (G := Notifier.NotifierSafe E)
    (fun _ _ hr => monolith_safe hr) (fun _ _ hr => Notifier.machine_safe hr) ?_ ?_ ?_
  · refine ⟨fun body hb => ?_, fun body hb => ?_, fun body hb => ?_, fun x inst hx => ?_⟩
    · cases hb
    · cases hb
    · cases hb
    · cases hx
  · intro p q e p' hF _ hJ hc hs
    exact hJ.left hF hc hs
  · intro p q e q' _ hG hJ hc hs
    exact hJ.right hG hc hs

end Steps

/-! ## The confirmation went out -/

/-- A `SendConfirmation` of the sender with this link returned success. -/
def Mailed (s : Notifier.State) (url : String) : Prop :=
  ∃ x ∈ s.sends, x.succeeded = true ∧ ∃ c, x.mail = .confirmation c ∧ c.confirmURL = url

/-- A mail with the logical key of a confirmation is one, with the same link. -/
theorem Notifier.Mail.confirmation_of_logicalKey {m : Notifier.Mail} {url : String}
    (h : m.logicalKey = "confirm:" ++ url) : ∃ c, m = .confirmation c ∧ c.confirmURL = url := by
  cases m with
  | confirmation c => exact ⟨c, rfl, (String.append_right_inj "confirm:").mp h⟩
  | release email repo rel =>
    -- the first letters differ already
    have hkey : "release:" ++ repo ++ ":" ++ _ ++ ":" ++ email = "confirm:" ++ url := h
    have hhead := congrArg (fun key : String => key.toList.head?) hkey
    simp only [String.toList_append, List.append_assoc] at hhead
    change some 'r' = some 'c' at hhead
    cases hhead

/-- A key that was sent is the link's own, as far as keys do not collide. -/
theorem Notifier.Sent.mailed {E : Notifier.Deps} {s : Notifier.State}
    {payload : SendConfirmationPayload} (hsha : Function.Injective E.sha256Hex)
    (h : Notifier.Sent E s (Notifier.payloadKey E payload)) : Mailed s payload.confirmURL := by
  obtain ⟨x, hx, hok, hkey⟩ := h
  obtain ⟨c, hc, hurl⟩ := Notifier.Mail.confirmation_of_logicalKey (hsha hkey)
  exact ⟨x, hx, hok, c, hc, hurl⟩

/-- What the code relies on of `encoding/json`, of its two ends and of SHA-256:
the messages written on one side read back on the other, and keys do not collide. -/
structure Compatible (D : Deps) (E : Notifier.Deps) : Prop where
  json : E.json = D.json
  command : D.json.ReadsCommands
  reply : D.json.ReadsReplies
  payload : D.json.payload.RoundTrips
  sha256 : Function.Injective E.sha256Hex

section Mailed

variable {D : Deps} {E : Notifier.Deps} {p : MonolithPool} {q : NotifierPool}
variable {es : List SystemEvent}

/-- The confirmation of a completed saga went out. -/
theorem completed_mailed (hDE : Compatible D E) (h : SystemRun D E es p q) {x : String}
    {inst : Instance} (hx : p.state.sagas.get x = some inst) (hst : inst.state = .completed) :
    Mailed q.state inst.data.confirmURL := by
  have hexchanged := system_exchanged h
  obtain ⟨es₁, hleft⟩ := h.left_run
  -- the reply that completed the saga is one the participant made for a command
  obtain ⟨body, hbody, reply, hreply, htype, hsaga⟩ := hexchanged.completed x inst hx hst
  obtain ⟨b, cmd, reply', hb, hcmd, hwrites, hbody', hid, hsent⟩ := hexchanged.truthful body hbody
  rw [hDE.json] at hwrites hbody' hcmd hsent
  have hsame : reply' = reply := by
    have := hDE.reply reply' body hwrites hbody'
    rw [hreply] at this
    cases this
    rfl
  subst hsame
  -- and the command is this saga's own
  obtain ⟨x', inst', traceID, payload, hx', hpay, hcmd'⟩ := run_commanded hleft b hb
  have hread : cmd = ⟨x', cmdSendConfirmation, traceID, payload⟩ := by
    have := hDE.command _ b ⟨_, hpay⟩ hcmd'
    rw [hcmd] at this
    cases this
    rfl
  have hx'x : x' = x := by rw [← hsaga, hid, hread]
  subst hx'x
  rw [hx, Option.some.injEq] at hx'
  subst hx'
  obtain ⟨payload', hpay', hkey⟩ := hsent htype
  rw [hread, hDE.payload _ payload hpay] at hpay'
  cases hpay'
  exact hkey.mailed hDE.sha256

/-- In every run of monolith, broker and notifier, with any failures, losses,
repetitions and overtakings: when `StartAndWait` has returned nil, a
confirmation with the link it was given has been sent, and when `Subscribe` has,
one with the link of the token it drew. -/
theorem nil_means_mailed (D : Deps) (E : Notifier.Deps) (hDE : Compatible D E)
    (es : List SystemEvent) (p : MonolithPool) (q : NotifierPool) (h : SystemRun D E es p q)
    (i : Nat) (th : Thread Op Op.Res Call Ret) (hth : p.threads[i]? = some th)
    (hret : th.prog = .ret (.error none)) :
    (∀ ctx data sagaID, th.call = .startAndWait ctx data sagaID →
      Mailed q.state data.confirmURL) ∧
    (∀ ctx rawEmail rawRepo draws, th.call = .subscribe ctx rawEmail rawRepo draws →
      ∃ token, draws.token = .ok token ∧ Mailed q.state (confirmURL D token)) := by
  obtain ⟨es₁, hleft⟩ := h.left_run
  have hown : th.call.sagaID?.isSome → OwnSaga D th.call p.state (· = .completed) :=
    fun hid => ((monolith_safe hleft).2 i th hth).2 _ hret hid rfl
  refine ⟨fun ctx data sagaID hcall => ?_, fun ctx rawEmail rawRepo draws hcall => ?_⟩
  · rw [hcall] at hown
    obtain ⟨x, inst, _, hx, hdata, hst⟩ := hown rfl
    have hmailed := completed_mailed hDE h hx hst
    have heq : inst.data = data := hdata
    rw [heq] at hmailed
    exact hmailed
  · rw [hcall] at hown
    obtain ⟨x, inst, _, hx, hdata, hst⟩ := hown rfl
    obtain ⟨htoken, hurl, _⟩ := hdata
    have hmailed := completed_mailed hDE h hx hst
    rw [hurl] at hmailed
    refine ⟨inst.data.token, ?_, hmailed⟩
    obtain ⟨tok, sid⟩ := draws
    cases tok with
    | error f => cases htoken
    | ok token =>
      cases htoken
      rfl

end Mailed

/-- The participant sends the confirmation and cannot publish its reply; the
command is delivered again, deduplicated and answered, and the request returns. -/
def redelivered : List SystemEvent :=
  [.left (.call (.startAndWait ⟨none⟩ sampleData₁ "s1")), .left (.run 0 .ok), .left (.run 0 .ok),
    .left (.run 0 .ok),
    .right (.call (.participate (sampleCommand "s1" "t1"))), .right (.run 0 .ok), .right (.run 0 .ok),
    .right (.run 0 .ok), .right (.run 0 .ok), .right (.run 0 .ok),
    .right (.run 0 (.fail (.io "broker"))),
    .right (.call (.participate (sampleCommand "s1" "t1"))), .right (.run 1 .ok), .right (.run 1 .ok),
    .right (.run 1 .ok),
    .left (.call (.handleReply (sampleSent "s1"))), .left (.run 1 .ok), .left (.run 1 .ok), .left (.run 1 .ok),
    .left (.run 0 .receive), .left (.run 0 .ok)]

theorem sample_compatible : Compatible sample Notifier.sample where
  json := rfl
  command := (Codec.ofTable_roundTrips (by decide)).on _
  reply := (Codec.ofTable_roundTrips (by decide)).on _
  payload := Codec.ofTable_roundTrips (by decide)
  sha256 := Notifier.sampleSum.injective

/-- A command that is delivered twice is mailed, and the request told. -/
theorem nil_means_mailed_redelivered :
    ∃ p q th, SystemRun sample Notifier.sample redelivered p q ∧ p.threads[0]? = some th ∧
      th.call = .startAndWait ⟨none⟩ sampleData₁ "s1" ∧ th.prog = .ret (.error none) ∧
      Mailed q.state sampleData₁.confirmURL := by
  have hrun : (redelivered.foldlM (JointRun.stepWhere (monolith sample)
      (Notifier.machine Notifier.sample) (fun p q e => decide (Published p q e)))
      (monolithInit, Notifier.init)).any (fun x => (x.1.threads[0]?).any (fun th =>
        th.call = .startAndWait ⟨none⟩ sampleData₁ "s1" ∧
          th.prog.result? = some (.error none))) = true := by decide
  obtain ⟨⟨p, q⟩, hx, hany⟩ := (Option.any_eq_true _ _).mp hrun
  obtain ⟨th, hth, hprop⟩ := (Option.any_eq_true _ _).mp hany
  obtain ⟨hcall, hret⟩ := of_decide_eq_true hprop
  rw [Prog.result?_eq_some] at hret
  have hsys : SystemRun sample Notifier.sample ([] ++ redelivered) p q :=
    JointRun.of_stepWhere (fun _ _ _ hok => of_decide_eq_true hok) .nil hx
  exact ⟨p, q, th, hsys, hth, hcall, hret,
    (nil_means_mailed sample Notifier.sample sample_compatible _ p q hsys 0 th hth hret).1 _ _ _
      hcall⟩

end ReleaseNotifier
