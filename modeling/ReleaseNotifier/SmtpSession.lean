/-
What `SMTPMailer.deliver` says to a server, and when.

`Delivery` is about whether the report is the truth. Here it is what goes over the wire
on the way there: which command may be sent at which point of the conversation, as a
protocol the sender keeps to whatever the server answers and wherever the connection
fails. Three things are built into it. The credentials are sent only after the server
has agreed to STARTTLS, and with credentials no mail is sent before they were accepted.
Every command is one line, so nothing in an address can be read as a command of its own.
And the server hears of the one sender, the one recipient and the one text of the
message, each once, in this order and after it has agreed to what comes before: a command
that was refused is not sent again.
-/
import ReleaseNotifier.Delivery

set_option autoImplicit false
set_option maxRecDepth 4000

namespace ReleaseNotifier.Delivery

open Conc Text NetSmtp
open Text.Header (NoBreak)
open MailText (Message envelope sanitizeHeader noBreak_sanitizeHeader)

/-! ## The protocol -/

/-- What a reply is awaited to. -/
inductive Awaited
  /-- The greeting of the server, to which nothing was sent. -/
  | greeting
  | hello
  | startTLS
  | auth
  | abort
  | mail
  | rcpt
  | data
  /-- The end of the text. -/
  | text
  | quit
  deriving DecidableEq

/-- The command in a line, by its first four bytes. -/
def command? (line : Bytes) : Option Awaited :=
  if line = utf8 "*" then some .abort
  else
    [(utf8 "EHLO", Awaited.hello), (utf8 "HELO", .hello), (utf8 "STAR", .startTLS),
      (utf8 "AUTH", .auth), (utf8 "MAIL", .mail), (utf8 "RCPT", .rcpt), (utf8 "DATA", .data),
      (utf8 "QUIT", .quit)].lookup (line.take 4)

/-- The server agrees. -/
def Awaited.accepts : Awaited → Nat → Bool
  | .greeting, code => decide (code = 220)
  | .hello, code => decide (code = 250)
  | .startTLS, code => decide (code = 220)
  | .auth, code => decide (code = 235)
  | .abort, code => decide (code = 501)
  | .mail, code => decide (code = 250)
  | .rcpt, code => decide (code / 10 = 25)
  | .data, code => decide (code = 354)
  | .text, code => decide (code = 250)
  | .quit, code => decide (code = 221)

/-- How far the server has agreed. -/
inductive Phase
  | offline
  | connected
  /-- A hello is due: after the greeting, and again under TLS. -/
  | ready
  | greeted
  | sender
  | recipient
  /-- The server waits for the text. -/
  | text
  | handed
  | accepted
  | closed
  deriving DecidableEq

/-- The parts of a mail transaction. -/
inductive Part
  | sender
  | recipient
  | data
  | text
  /-- The dot behind the text. -/
  | dot
  deriving DecidableEq

/-- The parts in the order in which they go out. -/
def parts : List Part := [.sender, .recipient, .data, .text, .dot]

/-- The part a command sends, if it sends one. -/
def Awaited.part? : Awaited → Option Part
  | .mail => some .sender
  | .rcpt => some .recipient
  | .data => some .data
  | _ => none

/-- The part an operation sends. -/
def part? : ConnOp → Option Part
  | .send line => (command? line).bind Awaited.part?
  | .write _ => some .text
  | .finish => some .dot
  | _ => none

/-- How far the conversation is, and the parts that were sent so far, whatever came of
them. -/
structure Stage where
  phase : Phase
  tls : Bool
  loggedIn : Bool
  awaited : Option Awaited
  said : List Part
  deriving DecidableEq

def Stage.start : Stage := ⟨.offline, false, false, none, []⟩

/-- The stage once a part was sent. -/
def Stage.say (q : Stage) : Option Part → Stage
  | some part => { q with said := q.said ++ [part] }
  | none => q

/-- What the server has agreed to. -/
def Stage.agree (q : Stage) : Awaited → Stage
  | .greeting => { q with phase := .ready }
  | .hello => { q with phase := .greeted }
  | .startTLS => { q with phase := .ready, tls := true }
  | .auth => { q with loggedIn := true }
  | .abort => q
  | .mail => { q with phase := .sender }
  | .rcpt => { q with phase := .recipient }
  | .data => { q with phase := .text }
  | .text => { q with phase := .accepted }
  | .quit => { q with phase := .closed }

/-- A reply to what was awaited. -/
def Stage.hear (q : Stage) (a : Awaited) (code : Nat) : Stage :=
  if a.accepts code then q.agree a else q

variable (m : SMTPMailer) (msg : Message)

/-- A line with this command is in its place, and says what it has to. -/
def Due (q : Stage) (line : Bytes) : Awaited → Prop
  | .hello => q.phase = .ready
  | .startTLS => q.phase = .greeted ∧ q.tls = false
  | .auth => q.phase = .greeted ∧ q.tls = true ∧ m.user ≠ []
  | .abort => q.phase = .greeted ∧ q.tls = true
  | .mail => q.phase = .greeted ∧ (m.user ≠ [] → q.tls = true ∧ q.loggedIn = true) ∧
      utf8 "MAIL FROM:<" ++ sanitizeHeader m.sender ++ utf8 ">" <+: line
  | .rcpt => q.phase = .sender ∧
      line = utf8 "RCPT TO:<" ++ sanitizeHeader msg.recipient ++ utf8 ">"
  | .data => q.phase = .recipient ∧ line = utf8 "DATA"
  | .quit => q.phase ≠ .offline ∧ q.phase ≠ .connected ∧ q.phase ≠ .closed
  -- no line is sent for these
  | .greeting | .text => False

/-- What a sender of this message may do. -/
def Speaks (q : Stage) : ConnOp → Prop
  | .dial addr => q = .start ∧ addr = m.host ++ utf8 ":" ++ utf8 (toString m.port)
  | .send line => q.awaited = none ∧ NoBreak line ∧ ∃ a, command? line = some a ∧ Due m msg q line a
  | .receive => q.awaited ≠ none
  | .write text => q.phase = .text ∧ q.awaited = none ∧
      text = envelope m.qEncode m.sender msg
  | .finish => q.phase = .text ∧ q.awaited = none
  | .hangUp => q.awaited = none

def Stage.next (q : Stage) : (o : ConnOp) → ConnOp.Res o → Stage
  | .dial _, .ok _ => { q with phase := .connected, awaited := some .greeting }
  | .dial _, .error _ => q
  | .send line, .ok _ => { q with awaited := command? line }
  | .send _, .error _ => q
  | .receive, .ok reply =>
    match q.awaited with
    | some a => { q with awaited := none }.hear a reply.code
    | none => q
  | .receive, .error _ => { q with awaited := none }
  | .write _, _ => q
  | .finish, _ => { q with phase := .handed, awaited := some .text }
  | .hangUp, _ => { q with phase := .closed }

/-- The part is the next one: every part goes out once, and after those before it. -/
def InTurn (q : Stage) (sent : Option Part) : Prop :=
  ∀ part, sent = some part → q.said ++ [part] <+: parts

variable {q : Stage}

/-- What is no part of the mail may go out at any time. -/
theorem inTurn_none : InTurn q none := by
  intro part h
  cases h

/-- SMTP, as the sender of one message speaks it. -/
def smtp : Protocol ConnOp ConnOp.Res Stage where
  allows q o := InTurn q (part? o) ∧ Speaks m msg q o
  next q o r := (q.next o r).say (part? o)

/-! ## Commands -/

section Commands

variable {m msg} {q : Stage} {a : Awaited} {expectCode : Nat}

/-- A reply is read: the stage goes by its code, and where that is not the expected one,
nothing was agreed. -/
theorem readResponse_obeys {awaiting : Stage} (ha : awaiting = { q with awaited := some a })
    (hq : q.awaited = none)
    (hexp : ∀ code, a.accepts code = true → expects expectCode code = true) :
    (readResponse expectCode).Obeys (smtp m msg)
      (Prog.OnResult
        (fun reply q' => expects expectCode reply.code = true ∧ q' = q.hear a reply.code)
        (fun _ q' => q' = q)) awaiting := by
  have hnone : { awaiting with awaited := none } = q := by
    obtain ⟨phase, tls, loggedIn, awaited⟩ := q
    cases hq
    rw [ha]
  refine ⟨⟨inTurn_none, by rw [ha]; exact Option.some_ne_none a⟩, fun r => ?_⟩
  cases r with
  | error err => exact hnone
  | ok reply =>
    have hnext : (smtp m msg).next awaiting .receive (.ok reply) = q.hear a reply.code := by
      rw [← hnone, ha]
      rfl
    rw [hnext]
    change Prog.Obeys _ _ (ite _ _ _) _
    split
    · next hcode => exact ⟨hcode, rfl⟩
    · next hcode =>
      have hno : ¬ a.accepts reply.code = true := fun h => hcode (hexp _ h)
      exact if_neg hno

theorem say_awaited (q : Stage) (sent : Option Part) : (q.say sent).awaited = q.awaited := by
  cases sent <;> rfl

/-- A part is in its turn behind those that were said. -/
theorem inTurn_of {said : List Part} {part : Part} (hsaid : q.said = said)
    (h : said ++ [part] <+: parts) : InTurn q (some part) := by
  rintro _ ⟨⟩
  rw [hsaid]
  exact h

/-- A command that is due and in its turn. It counts as said whatever comes of it, and
where it fails, nothing else has changed. -/
theorem cmd_obeys {line : Bytes} (hq : q.awaited = none) (hbreak : NoBreak line)
    (ha : command? line = some a) (hdue : Due m msg q line a) (hturn : InTurn q a.part?)
    (hexp : ∀ code, a.accepts code = true → expects expectCode code = true) :
    (cmd expectCode line).Obeys (smtp m msg)
      (Prog.OnResult
        (fun reply q' => expects expectCode reply.code = true ∧
          q' = (q.say a.part?).hear a reply.code)
        (fun _ q' => q' = q.say a.part?)) q := by
  have hpart : part? (.send line) = a.part? := congrArg (Option.bind · Awaited.part?) ha
  refine ⟨⟨by rw [hpart]; exact hturn, hq, hbreak, a, ha, hdue⟩, fun r => ?_⟩
  cases r with
  | error err => exact congrArg q.say hpart
  | ok _ =>
    refine readResponse_obeys ?_ ((say_awaited q _).trans hq) hexp
    show { q with awaited := command? line }.say (part? (.send line)) = _
    rw [hpart, ha]
    cases a.part? <;> rfl

/-- A command whose code is the one that agrees to it. -/
theorem cmd_agreed {line : Bytes} (hq : q.awaited = none) (hbreak : NoBreak line)
    (ha : command? line = some a) (hdue : Due m msg q line a) (hturn : InTurn q a.part?)
    (hexp : ∀ code, a.accepts code = expects expectCode code) :
    (cmd expectCode line).Obeys (smtp m msg)
      (Prog.OnResult (fun _ q' => q' = (q.say a.part?).agree a) (fun _ q' => q' = q.say a.part?))
      q := by
  refine (cmd_obeys hq hbreak ha hdue hturn (fun code h => (hexp code).symm.trans h)).mono
    (fun r q' h => ?_)
  cases r with
  | error err => exact h
  | ok reply =>
    obtain ⟨hcode, rfl⟩ := h
    rw [← hexp] at hcode
    exact if_pos hcode

/-- What follows the first bytes of a command does not change which it is. -/
theorem command?_append {verb : Bytes} (hlen : 4 ≤ verb.length) (rest : Bytes) :
    command? (verb ++ rest) = command? verb := by
  have hstar : ∀ line : Bytes, 4 ≤ line.length → line ≠ utf8 "*" := by
    intro line h heq
    rw [heq] at h
    exact absurd h (by decide)
  have hlong : 4 ≤ (verb ++ rest).length := by
    rw [List.length_append]
    omega
  rw [command?, command?, if_neg (hstar _ hlong), if_neg (hstar _ hlen),
    List.take_append_of_le_length hlen]

end Commands

/-! ## The client -/

section Greeting

variable {m msg} {q : Stage} {c : Client}

/-- A client that has said hello, and the stage that leaves it in. -/
def Settled (c : Client) (loggedIn : Bool) (q : Stage) : Prop :=
  c.didHello = true ∧
    q = ⟨if c.helloError.isNone then .greeted else .ready, c.tls, loggedIn, none, []⟩

/-- A client as `NewClient` returns it. -/
def Fresh (c : Client) (q : Stage) : Prop :=
  c.tls = false ∧ c.didHello = false ∧ c.helloError = none ∧ q = ⟨.ready, false, false, none, []⟩

/-- A reply code that is compared as it is. -/
theorem expects_whole {expectCode : Nat} (hlow : 100 ≤ expectCode) (hhigh : expectCode < 1000)
    (code : Nat) : expects expectCode code = decide (code = expectCode) := by
  rw [expects, if_neg (by omega), if_neg (by omega), if_pos ⟨hlow, hhigh⟩]

/-- The client waits for the greeting before it speaks. -/
theorem newClient_obeys (host : Bytes) :
    (newClient host).Obeys (smtp m msg) (Prog.OnResult Fresh (fun _ _ => True))
      ⟨.connected, false, false, some .greeting, []⟩ := by
  have hexp : ∀ code, Awaited.greeting.accepts code = true → expects 220 code = true := by
    intro code h
    rw [expects_whole (by decide) (by decide)]
    exact h
  refine (readResponse_obeys (q := ⟨.connected, false, false, none, []⟩) rfl rfl hexp).bind_except
    (fun err q hq => ?_) (fun reply q hq => ?_)
  · rw [hq]
    exact ⟨⟨inTurn_none, rfl⟩, fun _ => trivial⟩
  · obtain ⟨hcode, rfl⟩ := hq
    rw [expects_whole (by decide) (by decide)] at hcode
    exact ⟨rfl, rfl, rfl, if_pos hcode⟩

/-- A hello that is due; an error means that it was not agreed to. -/
theorem cmd_hello_obeys {line : Bytes} (ha : command? line = some .hello) (hbreak : NoBreak line)
    (hq : q.awaited = none) (hphase : q.phase = .ready) :
    (cmd 250 line).Obeys (smtp m msg)
      (Prog.OnResult (fun _ q' => q' = q.agree .hello) (fun _ q' => q' = q)) q :=
  cmd_agreed hq hbreak ha hphase inTurn_none
    (fun code => (expects_whole (by decide) (by decide) _).symm)

theorem helo_obeys (hq : q.awaited = none) (hphase : q.phase = .ready) :
    c.helo.Obeys (smtp m msg)
      (fun r q' => r.2 = { c with ext := none } ∧
        q' = if r.1.isNone then q.agree .hello else q) q := by
  refine (cmd_hello_obeys (by decide) (by decide) hq hphase).bind_except
    (fun err q' h => ?_) (fun reply q' h => ?_)
  · exact ⟨rfl, h⟩
  · exact ⟨rfl, h⟩

/-- A reply to `EHLO` tells the extensions. -/
theorem ehlo_obeys (hq : q.awaited = none) (hphase : q.phase = .ready) :
    c.ehlo.Obeys (smtp m msg)
      (fun r q' => r.2.tls = c.tls ∧ r.2.didHello = c.didHello ∧ r.2.helloError = c.helloError ∧
        q' = if r.1.isNone then q.agree .hello else q) q := by
  refine (cmd_hello_obeys (by decide) (by decide) hq hphase).bind_except
    (fun err q' h => ?_) (fun reply q' h => ?_)
  · exact ⟨rfl, rfl, rfl, h⟩
  · exact ⟨rfl, rfl, rfl, h⟩

/-- The greeting is made once. -/
theorem hello_of_didHello (h : c.didHello = true) : c.hello = pure (c.helloError, c) := by
  rw [Client.hello, if_pos h]

/-- The first hello: `EHLO`, and `HELO` where that fails. -/
theorem hello_obeys (h : Fresh c q) :
    c.hello.Obeys (smtp m msg)
      (fun r q' => r.1 = r.2.helloError ∧ r.2.tls = false ∧ Settled r.2 false q') q := by
  obtain ⟨htls, hdid, hnoerr, rfl⟩ := h
  rw [Client.hello, if_neg (by rw [hdid]; exact Bool.false_ne_true)]
  refine (ehlo_obeys rfl rfl).bind (fun r q' hr => ?_)
  obtain ⟨err, c'⟩ := r
  obtain ⟨htls', hdid', herr', rfl⟩ := hr
  rw [htls] at htls'
  rw [hnoerr] at herr'
  cases err with
  | none =>
    refine ⟨rfl, htls', hdid', ?_⟩
    rw [herr', htls']
    rfl
  | some err =>
    refine (helo_obeys rfl rfl).bind (fun r q' hr => ?_)
    obtain ⟨err, c''⟩ := r
    obtain ⟨hc, rfl⟩ := hr
    cases hc
    refine ⟨rfl, htls', hdid', ?_⟩
    change _ = Stage.mk _ c'.tls false none []
    rw [htls']
    cases err <;> rfl

/-- An extension is there only if the server has agreed to the hello. -/
theorem extension_obeys (h : Fresh c q) (name : Bytes) :
    (c.extension name).Obeys (smtp m msg)
      (fun r q' => r.2.tls = false ∧ Settled r.2 false q' ∧
        (r.1 = true → r.2.helloError = none)) q := by
  refine (hello_obeys h).bind (fun r q' hr => ?_)
  obtain ⟨err, c'⟩ := r
  obtain ⟨herr, htls, hset⟩ := hr
  dsimp only at herr ⊢
  split
  · exact ⟨htls, hset, fun _ => herr.symm⟩
  · exact ⟨htls, hset, fun h => absurd h Bool.false_ne_true⟩

end Greeting

section Sending

variable {m msg} {q : Stage} {c : Client} {loggedIn : Bool}

/-- STARTTLS, and the hello under it. -/
theorem startTLS_obeys (h : Settled c false q) (htls : c.tls = false) (herr : c.helloError = none) :
    c.startTLS.Obeys (smtp m msg)
      (Prog.OnResult
        (fun c' q' => c'.tls = true ∧ c'.helloError = none ∧ Settled c' false q')
        (fun _ _ => True)) q := by
  obtain ⟨hdid, rfl⟩ := h
  rw [Client.startTLS, hello_of_didHello hdid, herr, htls]
  refine (cmd_agreed (a := .startTLS) rfl (by decide) (by decide) ⟨rfl, rfl⟩ inTurn_none
    (fun code => (expects_whole (by decide) (by decide) _).symm)).bind_except
    (fun err q' hq => trivial) (fun reply q' hq => ?_)
  subst hq
  refine (ehlo_obeys rfl rfl).bind (fun r q' hr => ?_)
  obtain ⟨err, c'⟩ := r
  obtain ⟨htls', hdid', herr', rfl⟩ := hr
  cases err with
  | some err => trivial
  | none =>
    have hnone : c'.helloError = none := herr'.trans herr
    refine ⟨htls', hnone, hdid'.trans hdid, ?_⟩
    rw [hnone, show c'.tls = true from htls']
    rfl

/-- QUIT may be sent at any time after the hello, and says nothing of the mail. -/
theorem quit_obeys (hdid : c.didHello = true) (hq : q.awaited = none)
    (hphase : q.phase ≠ .offline ∧ q.phase ≠ .connected ∧ q.phase ≠ .closed) :
    c.quit.Obeys (smtp m msg) (fun _ q' => q'.said = q.said) q := by
  rw [Client.quit, hello_of_didHello hdid]
  refine (cmd_agreed (a := .quit) hq (by decide) (by decide) hphase inTurn_none
    (fun code => (expects_whole (by decide) (by decide) _).symm)).bind_except
    (fun err q' hq' => congrArg Stage.said hq') (fun reply q' hq' => ?_)
  subst hq'
  exact ⟨⟨inTurn_none, hq⟩, fun _ => rfl⟩

/-- The line with the credentials. -/
theorem authLine {encoded : Bytes} (h : NoBreak encoded) :
    command? (Strings.trimSpace (utf8 "AUTH PLAIN " ++ encoded)) = some .auth ∧
      NoBreak (Strings.trimSpace (utf8 "AUTH PLAIN " ++ encoded)) := by
  have hline : utf8 "AUTH PLAIN " ++ encoded = utf8 "AUTH" ++ (utf8 " PLAIN " ++ encoded) := by
    rw [← List.append_assoc]
    rfl
  have hverb : NoBreak (utf8 "AUTH") := by decide
  have hrest : NoBreak (utf8 " PLAIN " ++ encoded) := NoBreak.append (by decide) h
  obtain ⟨t, ht, htrim⟩ := Strings.trimSpace_append (a := utf8 "AUTH") (by decide) (by decide)
    (utf8 " PLAIN " ++ encoded)
  rw [hline, htrim, command?_append (by decide)]
  exact ⟨by decide, hverb.append (fun b hb => hrest b (ht.subset hb))⟩

/-- The credentials go out under TLS only. -/
theorem authPlain_obeys (hb64 : ∀ s, NoBreak (m.base64.encode s)) (huser : m.user ≠ [])
    (h : Settled c false q) (htls : c.tls = true) (herr : c.helloError = none)
    (username password host : Bytes) :
    (c.authPlain m.base64 username password host).Obeys (smtp m msg)
      (Prog.OnResult
        (fun c' q' => c'.tls = true ∧ c'.helloError = none ∧ Settled c' true q')
        (fun _ _ => True)) q := by
  obtain ⟨hdid, rfl⟩ := h
  rw [Client.authPlain, hello_of_didHello hdid, herr, htls]
  have hquit : ∀ b, c.quit.Obeys (smtp m msg) (fun _ q' => q'.said = [])
      ⟨.greeted, true, b, none, []⟩ :=
    fun b => quit_obeys (q := ⟨.greeted, true, b, none, []⟩) hdid rfl (by simp)
  rw [Prog.pure_eq, Prog.ret_bind]
  dsimp only
  cases Client.plainStart c username password host with
  | error err => exact (hquit false).bind (fun _ _ _ => trivial)
  | ok resp =>
    obtain ⟨hverb, hbreak⟩ := authLine (hb64 resp)
    refine (cmd_obeys (a := .auth) rfl hbreak hverb ⟨rfl, rfl, huser⟩ inTurn_none
      (fun _ _ => rfl)).bind_except
      (fun err q' hq => trivial) (fun reply q' hq => ?_)
    obtain ⟨-, rfl⟩ := hq
    dsimp only
    cases hnext : Client.plainNext m.base64 reply with
    | ok _ =>
      have hcode : Awaited.auth.accepts reply.code = true := by
        rw [Client.plainNext] at hnext
        split at hnext
        · split at hnext <;> cases hnext
        · split at hnext
          · next hcode => exact decide_eq_true hcode
          · cases hnext
      refine ⟨htls, herr, hdid, ?_⟩
      rw [herr, htls]
      exact if_pos hcode
    | error err =>
      -- the server did not say 235, so nothing was agreed and the abort is due
      have hcode : ¬ Awaited.auth.accepts reply.code = true := by
        intro h
        rw [Client.plainNext, of_decide_eq_true h] at hnext
        cases hnext
      rw [Stage.hear, if_neg hcode]
      refine (cmd_agreed (a := .abort) rfl (by decide) (by decide) ⟨rfl, rfl⟩ inTurn_none
        (fun code => (expects_whole (by decide) (by decide) _).symm)).bind (fun r q' hq => ?_)
      have hq' : q' = ⟨.greeted, true, false, none, []⟩ := by
        cases r with
        | error err => exact hq
        | ok reply => exact hq
      rw [hq']
      exact (hquit false).bind (fun _ _ _ => trivial)

/-- A sanitised value is accepted as a line. -/
theorem validateLine_sanitizeHeader (value : Bytes) :
    Client.validateLine (sanitizeHeader value) = .ok () := by
  have hclean := noBreak_sanitizeHeader value
  rw [Client.validateLine, if_neg]
  rintro (hlf | hcr)
  · exact (hclean _ hlf).2 rfl
  · exact (hclean _ hcr).1 rfl

theorem noBreak_mailParams (c : Client) : NoBreak c.mailParams := by
  rw [Client.mailParams]
  cases c.ext with
  | none => exact fun b hb => absurd hb List.not_mem_nil
  | some ext =>
    refine NoBreak.append ?_ ?_
    · split <;> decide
    · split <;> decide

/-- MAIL goes out under the conditions of the protocol, and only after the hello. -/
theorem mail_obeys (h : Settled c loggedIn q)
    (huser : m.user ≠ [] → q.tls = true ∧ q.loggedIn = true) :
    (c.mail (sanitizeHeader m.sender)).Obeys (smtp m msg)
      (Prog.OnResult
        (fun c' q' => c'.didHello = true ∧ q'.phase = .sender ∧ q'.awaited = none ∧
          q'.said = [.sender])
        (fun _ _ => True)) q := by
  obtain ⟨hdid, rfl⟩ := h
  rw [Client.mail, validateLine_sanitizeHeader, hello_of_didHello hdid]
  cases herr : c.helloError with
  | some err => trivial
  | none =>
    have hverb : command? (utf8 "MAIL FROM:<" ++ sanitizeHeader m.sender ++ utf8 ">" ++
        c.mailParams) = some .mail := by
      rw [List.append_assoc, List.append_assoc, command?_append (by decide)]
      decide
    have hbreak : NoBreak (utf8 "MAIL FROM:<" ++ sanitizeHeader m.sender ++ utf8 ">" ++
        c.mailParams) :=
      (((by decide : NoBreak (utf8 "MAIL FROM:<")).append (noBreak_sanitizeHeader _)).append
        (by decide)).append (noBreak_mailParams c)
    rw [herr] at huser
    refine (cmd_agreed (a := .mail) rfl hbreak hverb ⟨rfl, huser, List.prefix_append _ _⟩
      (inTurn_of (rfl : _ = []) (by decide))
      (fun code => (expects_whole (by decide) (by decide) _).symm)).bind_except
      (fun err q' hq => trivial) (fun reply q' hq => ?_)
    rw [hq]
    exact ⟨hdid, rfl, rfl, rfl⟩

/-- RCPT goes out once the sender is agreed to. -/
theorem rcpt_obeys (hphase : q.phase = .sender) (hq : q.awaited = none)
    (hsaid : q.said = [.sender]) :
    (rcpt (sanitizeHeader msg.recipient)).Obeys (smtp m msg)
      (Prog.OnResult (fun _ q' => q'.phase = .recipient ∧ q'.awaited = none ∧
        q'.said = [.sender, .recipient]) (fun _ _ => True)) q := by
  have hverb : command? (utf8 "RCPT TO:<" ++ sanitizeHeader msg.recipient ++ utf8 ">") =
      some .rcpt := by
    rw [List.append_assoc, command?_append (by decide)]
    decide
  have hbreak : NoBreak (utf8 "RCPT TO:<" ++ sanitizeHeader msg.recipient ++ utf8 ">") :=
    ((by decide : NoBreak (utf8 "RCPT TO:<")).append (noBreak_sanitizeHeader _)).append (by decide)
  rw [rcpt, validateLine_sanitizeHeader]
  refine (cmd_agreed (a := .rcpt) hq hbreak hverb ⟨hphase, rfl⟩ (inTurn_of hsaid (by decide))
    (fun code => ?_)).bind_except (fun err q' hq' => trivial) (fun reply q' hq' => ?_)
  · rfl
  · rw [hq']
    exact ⟨rfl, hq, congrArg (· ++ [Part.recipient]) hsaid⟩

/-- DATA goes out once the recipient is agreed to. -/
theorem data_obeys (hphase : q.phase = .recipient) (hq : q.awaited = none)
    (hsaid : q.said = [.sender, .recipient]) :
    data.Obeys (smtp m msg)
      (Prog.OnResult (fun _ q' => q'.phase = .text ∧ q'.awaited = none ∧
        q'.said = [.sender, .recipient, .data]) (fun _ _ => True)) q := by
  refine (cmd_agreed (a := .data) hq (by decide) (by decide) ⟨hphase, rfl⟩
    (inTurn_of hsaid (by decide))
    (fun code => (expects_whole (by decide) (by decide) _).symm)).bind_except
    (fun err q' hq' => trivial) (fun reply q' hq' => ?_)
  rw [hq']
  exact ⟨rfl, hq, congrArg (· ++ [Part.data]) hsaid⟩

/-- The end of the text, and the server's word on the mail. -/
theorem closeData_obeys (hphase : q.phase = .text) (hq : q.awaited = none)
    (hsaid : q.said = [.sender, .recipient, .data, .text]) :
    closeData.Obeys (smtp m msg)
      (Prog.OnResult (fun _ q' => q'.phase = .accepted ∧ q'.awaited = none ∧ q'.said = parts)
        (fun _ _ => True)) q := by
  refine ⟨⟨inTurn_of hsaid (by decide), hphase, hq⟩, fun _ => ?_⟩
  have hexp : ∀ code, Awaited.text.accepts code = true → expects 250 code = true := by
    intro code h
    rw [expects_whole (by decide) (by decide)]
    exact h
  refine (readResponse_obeys (q := { q with phase := .handed, said := q.said ++ [.dot] }) rfl hq
    hexp).bind_except
    (fun err q' hq' => trivial) (fun reply q' hq' => ?_)
  obtain ⟨hcode, rfl⟩ := hq'
  rw [expects_whole (by decide) (by decide)] at hcode
  have hagree : Awaited.text.accepts reply.code = true := hcode
  rw [Stage.hear, if_pos hagree]
  exact ⟨rfl, hq, congrArg (· ++ [Part.dot]) hsaid⟩

end Sending

/-! ## `deliver` -/

section Deliver

variable {m msg} {q : Stage}

/-- The words around an error do not matter. -/
theorem step_obeys {α : Type} {P : α → Stage → Prop} {p : Talk (Except SmtpErr α)} (text : String)
    (h : p.Obeys (smtp m msg) (Prog.OnResult P (fun _ _ => True)) q) :
    (step text p).run.Obeys (smtp m msg) (Prog.OnResult P (fun _ _ => True)) q :=
  h.bind_except (fun _ _ _ => trivial) (fun _ _ ha => ha)

/-- With credentials, the connection is under TLS or the delivery is over. -/
theorem secure_obeys {c : Client} (h : Fresh c q) :
    (secure m c).run.Obeys (smtp m msg)
      (Prog.OnResult
        (fun c' q' => Settled c' false q' ∧
          (m.user ≠ [] → c'.tls = true ∧ c'.helloError = none))
        (fun _ _ => True)) q := by
  have hext : (ExceptT.lift (c.extension (utf8 "STARTTLS")) : F (Bool × Client)).run.Obeys
      (smtp m msg)
      (Prog.OnResult
        (fun r q' => r.2.tls = false ∧ Settled r.2 false q' ∧ (r.1 = true → r.2.helloError = none))
        (fun _ _ => True)) q := (extension_obeys h _).bind (fun _ _ hr => hr)
  refine hext.bind_run (fun r q' hr => ?_)
  obtain ⟨ok, c'⟩ := r
  obtain ⟨htls, hset, hext⟩ := hr
  dsimp only
  split
  · next hok =>
    refine (step_obeys _ (startTLS_obeys hset htls (hext hok))).mono (fun r q' hr => ?_)
    cases r with
    | error err => trivial
    | ok c'' => exact ⟨hr.2.2, fun _ => ⟨hr.1, hr.2.1⟩⟩
  · split
    · trivial
    · next hno => exact ⟨hset, fun huser => absurd huser hno⟩

/-- Where there are credentials, the server has accepted them. -/
theorem login_obeys (hb64 : ∀ s, NoBreak (m.base64.encode s)) {c : Client} (h : Settled c false q)
    (hsecure : m.user ≠ [] → c.tls = true ∧ c.helloError = none) :
    (login m c).run.Obeys (smtp m msg)
      (Prog.OnResult
        (fun c' q' => (∃ b, Settled c' b q') ∧ (m.user ≠ [] → q'.tls = true ∧ q'.loggedIn = true))
        (fun _ _ => True)) q := by
  unfold login
  split
  · next huser =>
    obtain ⟨htls, herr⟩ := hsecure huser
    refine (step_obeys _ (authPlain_obeys hb64 huser h htls herr _ _ _)).mono (fun r q' hr => ?_)
    cases r with
    | error err => trivial
    | ok c' =>
      obtain ⟨htls', -, hset⟩ := hr
      refine ⟨⟨true, hset⟩, fun _ => ?_⟩
      rw [hset.2]
      exact ⟨htls', rfl⟩
  · next hno => exact ⟨⟨false, h⟩, fun huser => absurd huser hno⟩

/-- **Up to the text every command waits for its reply.** -/
theorem prepare_obeys (hb64 : ∀ s, NoBreak (m.base64.encode s)) :
    (prepare m msg).run.Obeys (smtp m msg)
      (Prog.OnResult (fun c q' => c.didHello = true ∧ q'.phase = .text ∧ q'.awaited = none ∧
        q'.said = [.sender, .recipient, .data]) (fun _ _ => True)) .start := by
  have hdial : (dial (m.host ++ utf8 ":" ++ utf8 (toString m.port))).Obeys (smtp m msg)
      (Prog.OnResult (fun _ q' => q' = ⟨.connected, false, false, some .greeting, []⟩)
        (fun _ _ => True)) .start := by
    refine ⟨⟨inTurn_none, rfl, rfl⟩, fun r => ?_⟩
    cases r with
    | error err => trivial
    | ok _ => rfl
  refine (step_obeys _ hdial).bind_run (fun _ q hq => ?_)
  subst hq
  refine (step_obeys _ (newClient_obeys m.host)).bind_run (fun c q hc => ?_)
  refine (secure_obeys hc).bind_run (fun c q hc => ?_)
  refine (login_obeys hb64 hc.1 hc.2).bind_run (fun c q hc => ?_)
  obtain ⟨⟨b, hset⟩, huser⟩ := hc
  refine (step_obeys _ (mail_obeys hset huser)).bind_run (fun c q hc => ?_)
  refine (step_obeys _ (rcpt_obeys hc.2.1 hc.2.2.1 hc.2.2.2)).bind_run (fun _ q hq => ?_)
  refine (step_obeys _ (data_obeys hq.1 hq.2.1 hq.2.2)).bind_run (fun _ q hq => ?_)
  exact ⟨hc.1, hq⟩

/-- The text, its end, and QUIT: after that every part has gone out. -/
theorem transmit_obeys {c : Client} (hc : c.didHello = true) (hphase : q.phase = .text)
    (hq : q.awaited = none) (hsaid : q.said = [.sender, .recipient, .data]) :
    (transmit (envelope m.qEncode m.sender msg) c).run.Obeys (smtp m msg)
      (Prog.OnResult (fun _ q' => q'.said = parts) (fun _ _ => True)) q := by
  have hwrite : (write (envelope m.qEncode m.sender msg)).Obeys (smtp m msg)
      (Prog.OnResult (fun _ q' => q' = q.say (some .text)) (fun _ _ => True)) q := by
    refine ⟨⟨inTurn_of hsaid (by decide), hphase, hq, rfl⟩, fun r => ?_⟩
    cases r with
    | error err => trivial
    | ok _ => rfl
  refine (step_obeys _ hwrite).bind_run (fun _ q' hq' => ?_)
  subst hq'
  have hclose : closeData.Obeys (smtp m msg) _ (q.say (some .text)) :=
    closeData_obeys hphase hq (congrArg (· ++ [Part.text]) hsaid)
  refine (step_obeys _ hclose).bind_run (fun _ q' hq' => ?_)
  refine step_obeys _ ((quit_obeys hc hq'.2.1 ?_).mono (fun r _ hr => ?_))
  · rw [hq'.1]
    simp
  · cases r with
    | error err => trivial
    | ok _ => exact hr.trans hq'.2.2

/-- Whatever the server answers, `deliver` keeps to the protocol, and when it returns no
error every part has gone out. -/
theorem deliver_obeys (hb64 : ∀ s, NoBreak (m.base64.encode s)) :
    (deliver m msg).run.Obeys (smtp m msg)
      (Prog.OnResult (fun _ q' => q'.said = parts) (fun _ _ => True)) .start :=
  (prepare_obeys hb64).bind_run
    (fun _ _ hc => transmit_obeys hc.1 hc.2.1 hc.2.2.1 hc.2.2.2)

end Deliver

/-! ## The conversation -/

/-- STARTTLS was sent and answered with 220. -/
def Upgraded (log : Log) : Prop :=
  ∃ before line reply after, command? line = some .startTLS ∧ reply.code = 220 ∧
    log = before ++ ⟨.send line, .ok ()⟩ :: ⟨.receive, .ok reply⟩ :: after

theorem Upgraded.append {log : Log} (h : Upgraded log) (more : Log) : Upgraded (log ++ more) := by
  obtain ⟨before, line, reply, after, hline, hcode, rfl⟩ := h
  exact ⟨before, line, reply, after ++ more, hline, hcode, by simp⟩

/-- What the stage says about TLS is what happened: it was agreed to, and a STARTTLS
whose reply is awaited was the last thing sent. -/
def Recalls (log : Log) (q : Stage) : Prop :=
  (q.tls = true → Upgraded log) ∧
    (q.awaited = some .startTLS → ∃ before line, command? line = some .startTLS ∧
      log = before ++ [⟨.send line, .ok ()⟩])

theorem hear_awaited (q : Stage) (a : Awaited) (code : Nat) :
    ({ q with awaited := none }.hear a code).awaited = none := by
  rw [Stage.hear]
  split
  · cases a <;> rfl
  · rfl

/-- Only a 220 to STARTTLS leads to TLS. -/
theorem hear_tls {a : Awaited} {code : Nat}
    (h : ({ q with awaited := none }.hear a code).tls = true) :
    q.tls = true ∨ a = .startTLS ∧ code = 220 := by
  rw [Stage.hear] at h
  split at h
  · next haccept =>
    cases a with
    | startTLS => exact .inr ⟨rfl, of_decide_eq_true haccept⟩
    | _ => exact .inl h
  · exact .inl h

variable {m msg}

/-- The stage says what the log has. -/
theorem Recalls.next {log : Log} (h : Recalls log q) {e : Exchange ConnOp ConnOp.Res}
    (hallow : Speaks m msg q e.op) : Recalls (log ++ [e]) (q.next e.op e.answer) := by
  obtain ⟨htls, hawait⟩ := h
  have hkeep : q.tls = true → Upgraded (log ++ [e]) := fun h => (htls h).append _
  obtain ⟨op, r⟩ := e
  cases op with
  | dial addr =>
    obtain ⟨rfl, -⟩ := hallow
    cases r with
    | error err => exact ⟨hkeep, fun h => by cases h⟩
    | ok _ => exact ⟨hkeep, fun h => by cases h⟩
  | send line =>
    cases r with
    | error err => exact ⟨hkeep, fun h => by rw [Stage.next, hallow.1] at h; cases h⟩
    | ok _ => exact ⟨hkeep, fun h => ⟨log, line, h, rfl⟩⟩
  | receive =>
    cases r with
    | error err => exact ⟨hkeep, fun h => by cases h⟩
    | ok reply =>
      cases ha : q.awaited with
      | none => exact absurd ha hallow
      | some a =>
        have hnext : q.next .receive (.ok reply) = { q with awaited := none }.hear a reply.code := by
          simp only [Stage.next, ha]
        dsimp only
        rw [hnext]
        refine ⟨fun h => ?_, fun h => by rw [hear_awaited] at h; cases h⟩
        rcases hear_tls h with hq | ⟨rfl, hcode⟩
        · exact hkeep hq
        · -- the reply that counts is the one to the STARTTLS just sent
          obtain ⟨before, line, hline, rfl⟩ := hawait ha
          exact ⟨before, line, reply, [], hline, hcode, by simp⟩
  | write text => exact ⟨hkeep, fun h => by rw [Stage.next, hallow.2.1] at h; cases h⟩
  | finish => exact ⟨hkeep, fun h => by cases h⟩
  | hangUp => exact ⟨hkeep, fun h => by rw [Stage.next, hallow] at h; cases h⟩

/-- Saying a part changes nothing else. -/
theorem Recalls.say {log : Log} (h : Recalls log q) (sent : Option Part) :
    Recalls log (q.say sent) := by
  cases sent <;> exact h

/-- What the stage has on record is what was sent, in the order of `parts`. -/
def Records (log : Log) (q : Stage) : Prop :=
  q.said = log.filterMap (fun e => part? e.op) ∧ q.said <+: parts

theorem hear_said (q : Stage) (a : Awaited) (code : Nat) : (q.hear a code).said = q.said := by
  rw [Stage.hear]
  split
  · cases a <;> rfl
  · rfl

/-- What was said is not taken back. -/
theorem next_said (q : Stage) (o : ConnOp) (r : ConnOp.Res o) : (q.next o r).said = q.said := by
  cases o with
  | dial addr => cases r <;> rfl
  | send line => cases r <;> rfl
  | receive =>
    cases r with
    | error err => rfl
    | ok reply =>
      simp only [Stage.next]
      split
      · exact hear_said _ _ _
      · rfl
  | write text => rfl
  | finish => rfl
  | hangUp => rfl

/-- Every exchange that is allowed adds its part to the record. -/
theorem Records.next {log : Log} (h : Records log q) {e : Exchange ConnOp ConnOp.Res}
    (hturn : InTurn q (part? e.op)) :
    Records (log ++ [e]) ((q.next e.op e.answer).say (part? e.op)) := by
  have hsaid := next_said q e.op e.answer
  have hlog : (log ++ [e]).filterMap (fun e => part? e.op) = q.said ++ (part? e.op).toList := by
    rw [List.filterMap_append, ← h.1]
    cases hpart : part? e.op <;> simp [hpart]
  rw [Records, hlog]
  cases hpart : part? e.op with
  | none =>
    rw [Option.toList_none, List.append_nil]
    exact ⟨hsaid, by rw [Stage.say, hsaid]; exact h.2⟩
  | some part =>
    have hsay : ((q.next e.op e.answer).say (some part)).said = q.said ++ [part] :=
      congrArg (· ++ [part]) hsaid
    exact ⟨hsay, by rw [hsay]; exact hturn part hpart⟩

/-- Whatever the server answers and wherever the connection fails, `deliver` says nothing
out of place: in single lines, from the one sender to the one recipient and with the one
text, each after the server agreed to what comes before it. Each part goes out at most
once and in order, and all of them have when it returns no error. The credentials are sent
only after the server has answered STARTTLS with 220. -/
theorem deliver_conforms (peer : Peer ConnOp ConnOp.Res)
    (hb64 : ∀ s, NoBreak (m.base64.encode s)) :
    let log := ((deliver m msg).run.converse peer []).2
    (smtp m msg).Conforms .start log ∧
      log.filterMap (fun e => part? e.op) <+: parts ∧
      (((deliver m msg).run.converse peer []).1 = .ok () →
        log.filterMap (fun e => part? e.op) = parts) ∧
      ∀ before line r after, log = before ++ ⟨.send line, r⟩ :: after →
        command? line = some .auth → Upgraded before := by
  intro log
  obtain ⟨more, hmore, hconf, hpost⟩ := (deliver_obeys hb64).converse peer []
  rw [← show log = more from hmore] at hconf hpost
  have hrecords := hconf.invariant Records ⟨rfl, List.nil_prefix⟩
    (fun _ _ _ h hallow => h.next hallow.1)
  refine ⟨hconf, hrecords.1 ▸ hrecords.2, fun hok => ?_, ?_⟩
  · rw [hok] at hpost
    exact hrecords.1.symm.trans hpost
  · intro before line r after hsplit hauth
    rw [hsplit] at hconf
    obtain ⟨hbefore, ⟨-, hsend⟩, -⟩ := Protocol.conforms_append.mp hconf
    have hrecalls := hbefore.invariant Recalls
      ⟨fun h => absurd h Bool.false_ne_true, fun h => by cases h⟩
      (fun _ _ _ h hallow => (h.next hallow.2).say _)
    obtain ⟨-, -, a, ha, hdue⟩ := hsend
    cases hauth.symm.trans ha
    exact hrecalls.1 hdue.2.1

/-- A digit of `base64.StdEncoding`. -/
def digit (n : Nat) : UInt8 :=
  (utf8 "ABCDEFGHIJKLMNOPQRSTUVWXYZabcdefghijklmnopqrstuvwxyz0123456789+/").getD (n % 64) 0x3d

/-- `EncodeToString` of `base64.StdEncoding`: four digits for three bytes, padded at the end. -/
def encodeToString : Bytes → Bytes
  | a :: b :: c :: rest =>
    digit (a.toNat / 4) :: digit (a.toNat % 4 * 16 + b.toNat / 16) ::
      digit (b.toNat % 16 * 4 + c.toNat / 64) :: digit c.toNat :: encodeToString rest
  | [a, b] =>
    [digit (a.toNat / 4), digit (a.toNat % 4 * 16 + b.toNat / 16), digit (b.toNat % 16 * 4), 0x3d]
  | [a] => [digit (a.toNat / 4), digit (a.toNat % 4 * 16), 0x3d, 0x3d]
  | [] => []

theorem noBreak_encodeToString (s : Bytes) : NoBreak (encodeToString s) := by
  have hdigits : ∀ i < 64, digit i ≠ Header.cr ∧ digit i ≠ Header.lf := by decide
  have hdigit : ∀ n, digit n ≠ Header.cr ∧ digit n ≠ Header.lf := by
    intro n
    have hmod : digit n = digit (n % 64) := by rw [digit, digit, Nat.mod_mod]
    rw [hmod]
    exact hdigits _ (Nat.mod_lt _ (by decide))
  have hpad : (0x3d : UInt8) ≠ Header.cr ∧ (0x3d : UInt8) ≠ Header.lf := by decide
  fun_induction encodeToString s with
  | case1 a b c rest ih =>
    simp only [NoBreak, List.forall_mem_cons]
    exact ⟨hdigit _, hdigit _, hdigit _, hdigit _, ih⟩
  | case2 a b => simp [NoBreak, hdigit, hpad]
  | case3 a => simp [NoBreak, hdigit, hpad]
  | case4 => exact fun b hb => absurd hb List.not_mem_nil

/-- A mailer with credentials and a server that agrees to everything: all commands are
sent, each once but for the hello under TLS. -/
theorem deliver_conforms_sample :
    let m : SMTPMailer := { mailer "bot" with base64 := ⟨encodeToString, Except.ok⟩ }
    let log := ((deliver m message).run.converse (scripted (acceptingTLS ++ [⟨221, []⟩])) []).2
    (log.filterMap (fun e => match e.op with
        | .send line => command? line
        | _ => none) =
      [.hello, .startTLS, .hello, .auth, .mail, .rcpt, .data, .quit]) ∧
      (smtp m message).Conforms .start log ∧
      log.filterMap (fun e => part? e.op) = parts := by
  refine ⟨by decide, (deliver_conforms _ noBreak_encodeToString).1,
    (deliver_conforms _ noBreak_encodeToString).2.2.1 ?_⟩
  decide

end ReleaseNotifier.Delivery
