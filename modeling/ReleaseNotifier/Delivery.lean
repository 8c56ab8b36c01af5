/-
`SMTPMailer.deliver` and whether what it reports is what happened.

The server may answer anything and the connection may fail anywhere: it is an
arbitrary `Peer`. What happened is in the log of the conversation. The mail is the
server's from the moment it answers the end of the text with 250, and `deliver`
reports no error only then. The converse fails: one more command is sent after that
moment, and when it fails, so does `deliver`.
-/
import ReleaseNotifier.SmtpClient
import ReleaseNotifier.MailText

set_option autoImplicit false

namespace ReleaseNotifier.Delivery

open Conc Text NetSmtp
open MailText (Message envelope sanitizeHeader)

/-! ## `deliver` -/

/-- `SMTPMailer`, with the encoders it calls; the templates are `MailText`. -/
structure SMTPMailer where
  host : Bytes
  port : Int
  user : Bytes
  password : Bytes
  sender : Bytes
  base64 : Base64
  qEncode : Bytes → Bytes

/-- A program that can fail. -/
abbrev F (α : Type) := ExceptT SmtpErr (Prog ConnOp ConnOp.Res) α

/-- `if err != nil { return fmt.Errorf("...: %w", err) }`. -/
def step {α : Type} (text : String) (p : Talk (Except SmtpErr α)) : F α :=
  ExceptT.mk do return (← p).mapError (SmtpErr.wrap text)

/-- STARTTLS where the server has it. Credentials are not sent without it. -/
def secure (m : SMTPMailer) (c : Client) : F Client := do
  let (ok, c) ← ExceptT.lift (c.extension (utf8 "STARTTLS"))
  if ok then step "SMTP STARTTLS" c.startTLS
  else if m.user ≠ [] then
    throw (.text
      "SMTP: server does not support STARTTLS; refusing to send credentials over plaintext")
  else
    -- only a line in the log of the service
    return c

def login (m : SMTPMailer) (c : Client) : F Client :=
  if m.user ≠ [] then step "SMTP auth" (c.authPlain m.base64 m.user m.password m.host)
  else pure c

/-- `deliver` until the server waits for the text. -/
def prepare (m : SMTPMailer) (msg : Message) : F Client := do
  step "connecting to SMTP server" (dial (m.host ++ utf8 ":" ++ utf8 (toString m.port)))
  let c ← step "creating SMTP client" (newClient m.host)
  let c ← secure m c
  let c ← login m c
  let c ← step "SMTP MAIL FROM" (c.mail (sanitizeHeader m.sender))
  step "SMTP RCPT TO" (rcpt (sanitizeHeader msg.recipient))
  step "SMTP DATA" data
  return c

/-- The rest of `deliver`. -/
def transmit (text : Bytes) (c : Client) : F Unit := do
  step "writing email body" (write text)
  step "closing email body" closeData
  -- the mail is the server's now, and the result is still open
  step "SMTP QUIT" c.quit

/-- `deliver`; the deferred closes come after its result is fixed. -/
def deliver (m : SMTPMailer) (msg : Message) : F Unit := do
  let c ← prepare m msg
  transmit (envelope m.qEncode m.sender msg) c

/-! ## What happened -/

abbrev Log := List (Exchange ConnOp ConnOp.Res)

/-- The end of the text was answered with 250. -/
def acknowledged (log : Log) : Bool :=
  match log.dropWhile (fun e => decide (e.op ≠ .finish)) with
  | _ :: ⟨.receive, r⟩ :: _ => answered 250 r
  | _ => false

/-- The conversation ended with a 221 and with the connection closed. -/
def quitSucceeded (log : Log) : Bool :=
  match log.reverse with
  | ⟨.hangUp, .ok ()⟩ :: ⟨.receive, r⟩ :: _ => answered 221 r
  | _ => false

/-! ## Step by step -/

section Steps

variable {α : Type} (text : String) (peer : Peer ConnOp ConnOp.Res)

/-- A step says what its program says, in other words. -/
theorem converse_step (p : Talk (Except SmtpErr α)) (log : Log) :
    (step text p).run.converse peer log =
      ((p.converse peer log).1.mapError (SmtpErr.wrap text), (p.converse peer log).2) := by
  have hrun : (step text p).run = p >>= fun r => pure (r.mapError (SmtpErr.wrap text)) := rfl
  rw [hrun, Prog.converse_bind]
  rfl

variable {p : Talk (Except SmtpErr α)}

/-- A step that succeeds hands its value on. -/
theorem converse_step_ok {β : Type} {f : α → F β} {log : Log} {a : α}
    (h : (p.converse peer log).1 = .ok a) :
    (step text p >>= f).run.converse peer log =
      (f a).run.converse peer (p.converse peer log).2 := by
  refine Prog.converse_bind_ok ?_
  rw [converse_step, h]
  rfl

/-- A step that fails is the last one, and its error is wrapped. -/
theorem converse_step_error {β : Type} {f : α → F β} {log : Log} {err : SmtpErr}
    (h : (p.converse peer log).1 = .error err) :
    (step text p >>= f).run.converse peer log =
      (.error (.wrap text err), (p.converse peer log).2) := by
  refine Prog.converse_bind_error ?_
  rw [converse_step, h]
  rfl

theorem keepsText_step (h : KeepsText p) :
    KeepsText (step text p).run := h.bind (fun _ => trivial)

end Steps

theorem keepsText_secure (m : SMTPMailer) (c : Client) : KeepsText (secure m c).run := by
  refine Prog.Uses.bind_run ((c.keepsText_extension _).bind (fun _ => trivial)) (fun r => ?_)
  obtain ⟨ok, c⟩ := r
  dsimp only
  split
  · exact keepsText_step _ c.keepsText_startTLS
  · split <;> trivial

theorem keepsText_login (m : SMTPMailer) (c : Client) : KeepsText (login m c).run := by
  unfold login
  split
  · exact keepsText_step _ (c.keepsText_authPlain _ _ _ _)
  · trivial

/-- Before `DATA` no text is ended. -/
theorem keepsText_prepare (m : SMTPMailer) (msg : Message) :
    KeepsText (prepare m msg).run := by
  refine Prog.Uses.bind_run (keepsText_step _ (keepsText_perform (by simp))) (fun _ => ?_)
  refine Prog.Uses.bind_run (keepsText_step _ (keepsText_newClient _)) (fun c => ?_)
  refine Prog.Uses.bind_run (keepsText_secure m c) (fun c => ?_)
  refine Prog.Uses.bind_run (keepsText_login m c) (fun c => ?_)
  refine Prog.Uses.bind_run (keepsText_step _ (c.keepsText_mail _)) (fun c => ?_)
  refine Prog.Uses.bind_run (keepsText_step _ (keepsText_rcpt _)) (fun _ => ?_)
  exact Prog.Uses.bind_run (keepsText_step _ keepsText_data) (fun _ => trivial)

/-! ## Acknowledgement

A conversation in which the text has not ended, and one that goes on after its end. -/

/-- No text has ended. -/
def Unfinished (log : Log) : Prop := ∀ e ∈ log, e.op ≠ .finish

theorem Unfinished.append {log more : Log} (h : Unfinished log) (hmore : Unfinished more) :
    Unfinished (log ++ more) := fun e he => (List.mem_append.mp he).elim (h e) (hmore e)

variable {log : Log}

/-- A conversation without `finish` adds none to the log. -/
theorem Unfinished.converse {α : Type} (h : Unfinished log) {p : Talk α} (hp : KeepsText p)
    (peer : Peer ConnOp ConnOp.Res) : Unfinished (p.converse peer log).2 := by
  obtain ⟨more, hmore, hall⟩ := hp.converse peer log
  rw [hmore]
  exact h.append hall

/-- What comes before the end of the text does not matter to what is asked of the log. -/
theorem Unfinished.dropWhile (h : Unfinished log) (rest : Log) :
    (log ++ rest).dropWhile (fun e => decide (e.op ≠ .finish)) =
      rest.dropWhile (fun e => decide (e.op ≠ .finish)) :=
  List.dropWhile_append_of_pos (fun e he => decide_eq_true (h e he))

/-- Without an end of the text the server has taken no responsibility. -/
theorem Unfinished.not_acknowledged (h : Unfinished log) : acknowledged log = false := by
  have hdrop := h.dropWhile []
  rw [List.append_nil, List.dropWhile_nil] at hdrop
  rw [acknowledged, hdrop]

/-- The answer to the end of the text decides. -/
theorem Unfinished.acknowledged_append (h : Unfinished log) (r : Except SmtpErr SmtpReply)
    (rest : Log) :
    acknowledged (log ++ ⟨.finish, ()⟩ :: ⟨.receive, r⟩ :: rest) = answered 250 r := by
  have hstop : ((⟨.finish, ()⟩ :: ⟨.receive, r⟩ :: rest : Log).dropWhile
      (fun e => decide (e.op ≠ .finish))) = ⟨.finish, ()⟩ :: ⟨.receive, r⟩ :: rest :=
    List.dropWhile_cons_of_neg (by simp)
  rw [acknowledged, h.dropWhile, hstop]

/-! ## The end of a delivery -/

section End

variable (peer : Peer ConnOp ConnOp.Res)

/-- `Close` reports the answer to the end of the text. -/
theorem converse_closeData (log : Log) :
    ∃ r, (closeData.converse peer log).2 = log ++ [⟨.finish, ()⟩, ⟨.receive, r⟩] ∧
      (closeData.converse peer log).1.isOk = answered 250 r := by
  have hfinish : finish.converse peer log = ((), log ++ [⟨.finish, ()⟩]) :=
    Prog.converse_perform peer .finish log
  have hok := isOk_readResponse (by decide : 100 ≤ 250) (by decide) peer
    (log ++ [⟨.finish, ()⟩])
  refine ⟨peer (log ++ [⟨.finish, ()⟩]) .receive, ?_⟩
  rw [closeData, Prog.converse_bind, hfinish, Prog.converse_bind, converse_readResponse_log, ← hok]
  cases ((readResponse 250).converse peer (log ++ [⟨.finish, ()⟩])).1 with
  | error err => exact ⟨List.append_assoc _ _ _, rfl⟩
  | ok reply => exact ⟨List.append_assoc _ _ _, rfl⟩

theorem quitSucceeded_send (log : Log) (line : Bytes) (r : Except SmtpErr Unit) :
    quitSucceeded (log ++ [⟨.send line, r⟩]) = false := by
  rw [quitSucceeded, List.reverse_append]
  rfl

theorem quitSucceeded_receive (log : Log) (r : Except SmtpErr SmtpReply) :
    quitSucceeded (log ++ [⟨.receive, r⟩]) = false := by
  rw [quitSucceeded, List.reverse_append]
  rfl

/-- `QUIT` succeeds if the server says goodbye and the connection closes. -/
theorem quitSucceeded_hangUp (log : Log) (r : Except SmtpErr SmtpReply)
    (r' : Except SmtpErr Unit) :
    quitSucceeded (log ++ [⟨.receive, r⟩] ++ [⟨.hangUp, r'⟩]) = (r'.isOk && answered 221 r) := by
  rw [quitSucceeded, List.reverse_append, List.reverse_append]
  cases r' with
  | error err => rfl
  | ok _ => exact (Bool.true_and _).symm

/-- `Quit` reports the end of the conversation. -/
theorem isOk_quit (c : Client) (log : Log) :
    (c.quit.converse peer log).1.isOk = quitSucceeded (c.quit.converse peer log).2 := by
  -- nothing before the command itself matters, so the log up to it is forgotten
  rw [Client.quit, Prog.converse_bind]
  generalize (c.hello.converse peer log).2 = log
  rw [Prog.converse_bind, cmd, Prog.converse_bind, send, Prog.converse_perform]
  cases peer log (.send (utf8 "QUIT")) with
  | error err => exact (quitSucceeded_send log _ _).symm
  | ok _ =>
    dsimp only
    generalize log ++ [⟨.send (utf8 "QUIT"), Except.ok _⟩] = log
    have hok := isOk_readResponse (by decide : 100 ≤ 221) (by decide) peer log
    rw [converse_readResponse_log]
    cases hreply : ((readResponse 221).converse peer log).1 with
    | error err => exact (quitSucceeded_receive log _).symm
    | ok reply =>
      rw [hreply] at hok
      dsimp only
      rw [hangUp, Prog.converse_perform, quitSucceeded_hangUp, ← hok]
      exact (Bool.and_true _).symm

end End

theorem isOk_iff {r : Except SmtpErr Unit} : r.isOk = true ↔ r = .ok () := by
  cases r with
  | error err => exact iff_of_false Bool.false_ne_true (by simp)
  | ok _ => exact iff_of_true rfl rfl

theorem isOk_mapError (r : Except SmtpErr Unit) (f : SmtpErr → SmtpErr) :
    (r.mapError f).isOk = r.isOk := by
  cases r <;> rfl

/-- Once the server waits for the text, a delivery succeeds if the text is acknowledged
and the goodbye works, and not otherwise. -/
theorem isOk_transmit (peer : Peer ConnOp ConnOp.Res) (h : Unfinished log) (text : Bytes)
    (c : Client) :
    ((transmit text c).run.converse peer log).1.isOk =
      (acknowledged ((transmit text c).run.converse peer log).2 &&
        quitSucceeded ((transmit text c).run.converse peer log).2) := by
  have hwrite : KeepsText (write text) := keepsText_perform (by simp)
  have hlog := h.converse hwrite peer
  rw [transmit]
  cases hw : ((write text).converse peer log).1 with
  | error err =>
    rw [converse_step_error _ _ hw, hlog.not_acknowledged]
    rfl
  | ok _ =>
    rw [converse_step_ok _ _ hw]
    obtain ⟨r, hclosed, hok⟩ := converse_closeData peer ((write text).converse peer log).2
    cases hc : (closeData.converse peer ((write text).converse peer log).2).1 with
    | error err =>
      rw [hc] at hok
      rw [converse_step_error _ _ hc, hclosed, hlog.acknowledged_append, ← hok]
      rfl
    | ok _ =>
      -- what `Quit` says comes after the acknowledgement and does not take it back
      rw [hc] at hok
      rw [converse_step_ok _ _ hc, converse_step, isOk_mapError, isOk_quit, hclosed]
      obtain ⟨more, hmore, -⟩ := c.keepsText_quit.converse peer
        (((write text).converse peer log).2 ++ [⟨.finish, ()⟩, ⟨.receive, r⟩])
      have hack : acknowledged (c.quit.converse peer (((write text).converse peer log).2 ++
          [⟨.finish, ()⟩, ⟨.receive, r⟩])).2 = true := by
        rw [hmore, List.append_assoc]
        exact (hlog.acknowledged_append r more).trans hok.symm
      rw [hack, Bool.true_and]

/-- A delivery succeeds if the text is acknowledged and the goodbye works, and not
otherwise. -/
theorem isOk_deliver (peer : Peer ConnOp ConnOp.Res) (m : SMTPMailer) (msg : Message) :
    ((deliver m msg).run.converse peer []).1.isOk =
      (acknowledged ((deliver m msg).run.converse peer []).2 &&
        quitSucceeded ((deliver m msg).run.converse peer []).2) := by
  have hlog : Unfinished ((prepare m msg).run.converse peer []).2 :=
    Unfinished.converse (fun e he => absurd he List.not_mem_nil) (keepsText_prepare m msg) peer
  cases hp : (prepare m msg).run.converse peer [] with
  | mk r log =>
    rw [hp] at hlog
    cases r with
    | error err =>
      rw [deliver, Prog.converse_bind_error hp, hlog.not_acknowledged]
      rfl
    | ok c =>
      rw [deliver, Prog.converse_bind_ok hp]
      exact isOk_transmit peer hlog _ c

/-! ## Truthfulness -/

/-- Whatever the server says and wherever the connection fails, with or without
credentials: a delivery without error was acknowledged, so nothing is reported as sent
that was not accepted. The report is the truth, in both directions, exactly if the
goodbye works whenever the text was acknowledged. -/
theorem deliver_truthful_iff (peer : Peer ConnOp ConnOp.Res) (m : SMTPMailer) (msg : Message) :
    let out := (deliver m msg).run.converse peer []
    (out.1 = .ok () → acknowledged out.2) ∧
      ((out.1 = .ok () ↔ acknowledged out.2) ↔ (acknowledged out.2 → quitSucceeded out.2)) := by
  intro out
  have hok : out.1 = .ok () ↔ acknowledged out.2 ∧ quitSucceeded out.2 := by
    rw [← isOk_iff, isOk_deliver peer m msg, Bool.and_eq_true]
  rw [hok]
  exact ⟨And.left, ⟨fun h hack => (h.mpr hack).2, fun h => ⟨And.left, fun hack => ⟨hack, h hack⟩⟩⟩⟩

/-- A server that gives these replies, one each time it is heard, and is then gone. -/
def scripted (replies : List SmtpReply) : Peer ConnOp ConnOp.Res := fun log o =>
  match o with
  | .dial _ => .ok ()
  | .send _ => .ok ()
  | .receive =>
    match replies[log.countP (fun e => decide (e.op = .receive))]? with
    | some reply => .ok reply
    | none => .error (.io (utf8 "EOF"))
  | .write _ => .ok ()
  | .finish => ()
  | .hangUp => .ok ()

def mailer (user : String) : SMTPMailer :=
  ⟨utf8 "mail.test", 587, utf8 user, utf8 "secret", utf8 "bot@x.io", ⟨id, Except.ok⟩, id⟩

def message : Message := ⟨utf8 "a@x.io", utf8 "Confirm", utf8 "hello"⟩

/-- The greeting, `EHLO`, `MAIL FROM`, `RCPT TO`, `DATA` and the end of the text. -/
def accepting : List SmtpReply :=
  [⟨220, []⟩, ⟨250, utf8 "mail.test"⟩, ⟨250, []⟩, ⟨250, []⟩, ⟨354, []⟩, ⟨250, utf8 "queued"⟩]

/-- The same with `STARTTLS`, a second `EHLO` and `AUTH` before the mail. -/
def acceptingTLS : List SmtpReply :=
  [⟨220, []⟩, ⟨250, utf8 "mail.test\nSTARTTLS"⟩, ⟨220, []⟩, ⟨250, utf8 "mail.test\nAUTH PLAIN"⟩,
    ⟨235, []⟩, ⟨250, []⟩, ⟨250, []⟩, ⟨354, []⟩, ⟨250, utf8 "queued"⟩]

/-- The mail is queued, and the delivery fails: the server hangs up before it has
answered `QUIT`, or, after a login under TLS, answers it with 421. -/
theorem deliver_queued_fails :
    (let out := (deliver (mailer "") message).run.converse (scripted accepting) [];
      acknowledged out.2 = true ∧
        out.1 = .error (.wrap "SMTP QUIT" (.io (utf8 "EOF")))) ∧
    (let out := (deliver (mailer "bot") message).run.converse
        (scripted (acceptingTLS ++ [⟨421, utf8 "closing"⟩])) [];
      acknowledged out.2 = true ∧
        out.1 = .error (.wrap "SMTP QUIT" (.reply 421 (utf8 "closing")))) := by
  decide

example : ((deliver (mailer "bot") message).run.converse
    (scripted (acceptingTLS ++ [⟨221, []⟩])) []).1 = .ok () := by
  decide

end ReleaseNotifier.Delivery
