/-
The client of package `net/smtp`, as far as `SMTPMailer.deliver` uses it.

The server is heard one whole reply at a time: a code and a text, or the failure of
the connection, which may come at any moment and stands for malformed replies and
for the deadline as well. Commands are sent as lines. The state of a `Client` is
passed along; what is on the wire under TLS, and how the text of a mail is stuffed
with dots, is not seen here.
-/
import ReleaseNotifier.Conc.Dialogue
import ReleaseNotifier.Wire

set_option autoImplicit false

namespace ReleaseNotifier.NetSmtp

open Conc Text

/-! ## Operations -/

/-- The errors of this package and of its callers. -/
inductive SmtpErr
  /-- A failure of the connection. -/
  | io (text : Bytes)
  /-- `textproto.Error`. -/
  | reply (code : Nat) (msg : Bytes)
  /-- `errors.New`. -/
  | text (text : String)
  /-- `fmt.Errorf("...: %w", err)`. -/
  | wrap (text : String) (err : SmtpErr)
  deriving DecidableEq

/-- A reply; the lines of its text are joined by `\n`. -/
structure SmtpReply where
  code : Nat
  msg : Bytes
  deriving DecidableEq

inductive ConnOp
  | dial (addr : Bytes)
  | send (line : Bytes)
  | receive
  | write (text : Bytes)
  /-- The end of the text: `Close` of the dot writer, whose error nobody sees. -/
  | finish
  /-- `Text.Close`. -/
  | hangUp
  deriving DecidableEq

abbrev ConnOp.Res : ConnOp → Type
  | .dial _ => Except SmtpErr Unit
  | .send _ => Except SmtpErr Unit
  | .receive => Except SmtpErr SmtpReply
  | .write _ => Except SmtpErr Unit
  | .finish => Unit
  | .hangUp => Except SmtpErr Unit

abbrev Talk (α : Type) := Prog ConnOp ConnOp.Res α

def receive : Talk (Except SmtpErr SmtpReply) := Prog.perform ConnOp.receive

def send (line : Bytes) : Talk (Except SmtpErr Unit) := Prog.perform (ConnOp.send line)

def write (text : Bytes) : Talk (Except SmtpErr Unit) := Prog.perform (ConnOp.write text)

def finish : Talk Unit := Prog.perform ConnOp.finish

def hangUp : Talk (Except SmtpErr Unit) := Prog.perform ConnOp.hangUp

def dial (addr : Bytes) : Talk (Except SmtpErr Unit) := Prog.perform (ConnOp.dial addr)

/-! ## Package `textproto` -/

/-- `expectCode` of `ReadResponse`: a code, its first two digits, its first digit, or
anything. -/
def expects (expectCode code : Nat) : Bool :=
  if 1 ≤ expectCode ∧ expectCode < 10 then decide (code / 100 = expectCode)
  else if 10 ≤ expectCode ∧ expectCode < 100 then decide (code / 10 = expectCode)
  else if 100 ≤ expectCode ∧ expectCode < 1000 then decide (code = expectCode)
  else true

/-- `ReadResponse`. -/
def readResponse (expectCode : Nat) : Talk (Except SmtpErr SmtpReply) := do
  match ← receive with
  | .error err => return .error err
  | .ok reply =>
    if expects expectCode reply.code then return .ok reply
    else return .error (.reply reply.code reply.msg)

/-- The answer has this code. -/
def answered (code : Nat) : Except SmtpErr SmtpReply → Bool
  | .ok reply => decide (reply.code = code)
  | .error _ => false

@[simp] theorem converse_readResponse_log (expectCode : Nat)
    (peer : Peer ConnOp ConnOp.Res) (log : List (Exchange ConnOp ConnOp.Res)) :
    ((readResponse expectCode).converse peer log).2 = log ++ [⟨.receive, peer log .receive⟩] := by
  rw [readResponse, receive, Prog.converse_bind, Prog.converse_perform]
  cases hr : peer log .receive with
  | error err => rfl
  | ok reply =>
    dsimp only
    split <;> rfl

/-- A whole code is compared as it is. -/
theorem isOk_readResponse {expectCode : Nat} (hlow : 100 ≤ expectCode) (hhigh : expectCode < 1000)
    (peer : Peer ConnOp ConnOp.Res) (log : List (Exchange ConnOp ConnOp.Res)) :
    ((readResponse expectCode).converse peer log).1.isOk =
      answered expectCode (peer log .receive) := by
  have hexpects : ∀ code, expects expectCode code = decide (code = expectCode) := by
    intro code
    rw [expects, if_neg (by omega), if_neg (by omega), if_pos ⟨hlow, hhigh⟩]
  rw [readResponse, receive, Prog.converse_bind, Prog.converse_perform]
  cases hr : peer log .receive with
  | error err => rfl
  | ok reply =>
    dsimp only [answered]
    rw [hexpects]
    by_cases hcode : reply.code = expectCode
    · rw [if_pos (decide_eq_true hcode), decide_eq_true hcode]
      rfl
    · rw [if_neg (by simp [hcode]), decide_eq_false hcode]
      rfl

/-! ## `Client` -/

/-- `base64.StdEncoding`. -/
structure Base64 where
  encode : Bytes → Bytes
  decode : Bytes → Except SmtpErr Bytes

/-- `smtp.Client`; `localName` is always `localhost`. -/
structure Client where
  tls : Bool
  serverName : Bytes
  ext : Option (List (Bytes × Bytes))
  auth : List Bytes
  didHello : Bool
  helloError : Option SmtpErr

/-- The value of a map that was filled from a list. -/
def lookup (ext : List (Bytes × Bytes)) (key : Bytes) : Option Bytes :=
  ((ext.reverse.find? (fun x => decide (x.1 = key))).map Prod.snd)

/-- The extensions in the answer to `EHLO`, a line each after the first. -/
def extensions (msg : Bytes) : List (Bytes × Bytes) :=
  (Strings.split msg 0x0a).tail.map (fun line => (Strings.cut line 0x20).getD (line, []))

/-- `NewClient`. -/
def newClient (host : Bytes) : Talk (Except SmtpErr Client) := do
  match ← readResponse 220 with
  | .error err =>
    let _ ← hangUp
    return .error err
  | .ok _ => return .ok ⟨false, host, none, [], false, none⟩

/-- `cmd`. -/
def cmd (expectCode : Nat) (line : Bytes) : Talk (Except SmtpErr SmtpReply) := do
  match ← send line with
  | .error err => return .error err
  | .ok () => readResponse expectCode

namespace Client

/-- `helo`. -/
def helo (c : Client) : Talk (Option SmtpErr × Client) := do
  let c := { c with ext := none }
  match ← cmd 250 (utf8 "HELO localhost") with
  | .error err => return (some err, c)
  | .ok _ => return (none, c)

/-- `ehlo`. -/
def ehlo (c : Client) : Talk (Option SmtpErr × Client) := do
  match ← cmd 250 (utf8 "EHLO localhost") with
  | .error err => return (some err, c)
  | .ok reply =>
    let ext := extensions reply.msg
    let auth := match lookup ext (utf8 "AUTH") with
      | some mechs => Strings.split mechs 0x20
      | none => c.auth
    return (none, { c with ext := some ext, auth := auth })

/-- `hello`. -/
def hello (c : Client) : Talk (Option SmtpErr × Client) := do
  if c.didHello then return (c.helloError, c)
  else
    let (err, c) ← ehlo { c with didHello := true }
    match err with
    | none => return (c.helloError, c)
    | some _ =>
      let (err, c) ← helo c
      return (err, { c with helloError := err })

/-- `Extension`: whether it is there. -/
def extension (c : Client) (name : Bytes) : Talk (Bool × Client) := do
  let (err, c) ← hello c
  match err, c.ext with
  | none, some ext => return ((lookup ext name).isSome, c)
  | _, _ => return (false, c)

/-- `StartTLS`; the handshake is part of what follows on the connection. -/
def startTLS (c : Client) : Talk (Except SmtpErr Client) := do
  let (err, c) ← hello c
  match err with
  | some err => return .error err
  | none =>
    match ← cmd 220 (utf8 "STARTTLS") with
    | .error err => return .error err
    | .ok _ =>
      let (err, c) ← ehlo { c with tls := true }
      match err with
      | some err => return .error err
      | none => return .ok c

/-- `Quit`. -/
def quit (c : Client) : Talk (Except SmtpErr Unit) := do
  let (_, _) ← hello c
  match ← cmd 221 (utf8 "QUIT") with
  | .error err => return .error err
  | .ok _ => hangUp

/-- `isLocalhost`. -/
def isLocalhost (name : Bytes) : Bool :=
  decide (name ∈ [utf8 "localhost", utf8 "127.0.0.1", utf8 "::1"])

/-- `plainAuth.Start`: the initial response. -/
def plainStart (c : Client) (username password host : Bytes) : Except SmtpErr Bytes :=
  if !c.tls && !isLocalhost c.serverName then .error (.text "unencrypted connection")
  else if c.serverName ≠ host then .error (.text "wrong host name")
  else .ok (0 :: username ++ 0 :: password)

/-- What the loop of `Auth` makes of the answer to `AUTH PLAIN`. `plainAuth.Next` has an
answer to no challenge, so there is no second round. -/
def plainNext (b64 : Base64) (reply : SmtpReply) : Except SmtpErr Unit :=
  if reply.code = 334 then
    match b64.decode reply.msg with
    | .error err => .error err
    | .ok _ => .error (.text "unexpected server challenge")
  else if reply.code = 235 then .ok ()
  else .error (.reply reply.code reply.msg)

/-- `Auth` with `smtp.PlainAuth("", username, password, host)`. -/
def authPlain (b64 : Base64) (c : Client) (username password host : Bytes) :
    Talk (Except SmtpErr Client) := do
  let (err, c) ← hello c
  match err with
  | some err => return .error err
  | none =>
    match plainStart c username password host with
    | .error err =>
      let _ ← quit c
      return .error err
    | .ok resp =>
      match ← cmd 0 (Strings.trimSpace (utf8 "AUTH PLAIN " ++ b64.encode resp)) with
      | .error err => return .error err
      | .ok reply =>
        match plainNext b64 reply with
        | .ok () => return .ok c
        | .error err =>
          -- abort the AUTH
          let _ ← cmd 501 (utf8 "*")
          let _ ← quit c
          return .error err

/-- `validateLine`. -/
def validateLine (line : Bytes) : Except SmtpErr Unit :=
  if 0x0a ∈ line ∨ 0x0d ∈ line then .error (.text "smtp: A line must not contain CR or LF")
  else .ok ()

/-- What `Mail` appends to its command. -/
def mailParams (c : Client) : Bytes :=
  match c.ext with
  | none => []
  | some ext =>
    (if (lookup ext (utf8 "8BITMIME")).isSome then utf8 " BODY=8BITMIME" else []) ++
      (if (lookup ext (utf8 "SMTPUTF8")).isSome then utf8 " SMTPUTF8" else [])

/-- `Mail`. -/
def mail (c : Client) (sender : Bytes) : Talk (Except SmtpErr Client) := do
  match validateLine sender with
  | .error err => return .error err
  | .ok () =>
    let (err, c) ← hello c
    match err with
    | some err => return .error err
    | none =>
      match ← cmd 250 (utf8 "MAIL FROM:<" ++ sender ++ utf8 ">" ++ mailParams c) with
      | .error err => return .error err
      | .ok _ => return .ok c

end Client

/-- `Rcpt`. -/
def rcpt (recipient : Bytes) : Talk (Except SmtpErr Unit) := do
  match Client.validateLine recipient with
  | .error err => return .error err
  | .ok () =>
    match ← cmd 25 (utf8 "RCPT TO:<" ++ recipient ++ utf8 ">") with
    | .error err => return .error err
    | .ok _ => return .ok ()

/-- `Data`. -/
def data : Talk (Except SmtpErr Unit) := do
  match ← cmd 354 (utf8 "DATA") with
  | .error err => return .error err
  | .ok _ => return .ok ()

/-- `dataCloser.Close`. -/
def closeData : Talk (Except SmtpErr Unit) := do
  finish
  match ← readResponse 250 with
  | .error err => return .error err
  | .ok _ => return .ok ()

/-! ## What a command leaves alone

Only `closeData` ends a text. -/

/-- The program never ends a text. -/
abbrev KeepsText {α : Type} (p : Talk α) : Prop := p.Uses (· ≠ .finish)

/-- Only `finish` ends the text. -/
theorem keepsText_perform {o : ConnOp} (h : o ≠ .finish) :
    KeepsText (Prog.perform o : Talk (ConnOp.Res o)) := ⟨h, fun _ => trivial⟩

theorem keepsText_hangUp : KeepsText hangUp := keepsText_perform (by simp)

theorem keepsText_readResponse (expectCode : Nat) : KeepsText (readResponse expectCode) := by
  refine Prog.Uses.bind_except (keepsText_perform (by simp)) (fun _ => trivial) (fun reply => ?_)
  dsimp only
  split <;> trivial

/-- A command is one line out and one reply in. -/
theorem keepsText_cmd (expectCode : Nat) (line : Bytes) : KeepsText (cmd expectCode line) :=
  Prog.Uses.bind_except (keepsText_perform (by simp)) (fun _ => trivial)
    (fun _ => keepsText_readResponse expectCode)

theorem keepsText_newClient (host : Bytes) : KeepsText (newClient host) :=
  (keepsText_readResponse 220).bind_except (fun _ => keepsText_hangUp.bind (fun _ => trivial))
    (fun _ => trivial)

namespace Client

variable (c : Client)

theorem keepsText_helo : KeepsText c.helo :=
  (keepsText_cmd _ _).bind_except (fun _ => trivial) (fun _ => trivial)

theorem keepsText_ehlo : KeepsText c.ehlo :=
  (keepsText_cmd _ _).bind_except (fun _ => trivial) (fun _ => trivial)

/-- The greeting falls back from `EHLO` to `HELO`; neither ends a text. -/
theorem keepsText_hello : KeepsText c.hello := by
  unfold hello
  split
  · trivial
  · refine Prog.Uses.bind (keepsText_ehlo _) (fun r => ?_)
    obtain ⟨err, c⟩ := r
    cases err with
    | none => trivial
    | some err => exact (keepsText_helo c).bind (fun _ => trivial)

/-- Every command greets first, and most of them only go on after that. -/
theorem keepsText_greeted {α : Type} {f : Option SmtpErr × Client → Talk α}
    (herr : ∀ err c, KeepsText (f (some err, c))) (h : ∀ c, KeepsText (f (none, c))) :
    KeepsText (c.hello >>= f) := by
  refine (keepsText_hello c).bind (fun r => ?_)
  obtain ⟨err, c⟩ := r
  cases err with
  | some err => exact herr err c
  | none => exact h c

theorem keepsText_extension (name : Bytes) : KeepsText (c.extension name) := by
  refine keepsText_greeted c (fun _ _ => trivial) (fun c => ?_)
  dsimp only
  split <;> trivial

theorem keepsText_startTLS : KeepsText c.startTLS := by
  refine keepsText_greeted c (fun _ _ => trivial) (fun c => ?_)
  refine (keepsText_cmd _ _).bind_except (fun _ => trivial) (fun _ => ?_)
  refine (keepsText_ehlo _).bind (fun r => ?_)
  obtain ⟨err, c⟩ := r
  cases err <;> trivial

theorem keepsText_quit : KeepsText c.quit :=
  (keepsText_hello c).bind
    (fun _ => (keepsText_cmd _ _).bind_except (fun _ => trivial) (fun _ => keepsText_hangUp))

/-- Logging in ends no text either. -/
theorem keepsText_authPlain (b64 : Base64) (username password host : Bytes) :
    KeepsText (c.authPlain b64 username password host) := by
  refine keepsText_greeted c (fun _ _ => trivial) (fun c => ?_)
  dsimp only
  cases plainStart c username password host with
  | error err => exact (keepsText_quit c).bind (fun _ => trivial)
  | ok resp =>
    refine (keepsText_cmd _ _).bind_except (fun _ => trivial) (fun reply => ?_)
    dsimp only
    cases plainNext b64 reply with
    | ok _ => trivial
    | error err =>
      exact (keepsText_cmd _ _).bind (fun _ => (keepsText_quit c).bind (fun _ => trivial))

theorem keepsText_mail (sender : Bytes) : KeepsText (c.mail sender) := by
  unfold mail
  cases validateLine sender with
  | error err => trivial
  | ok _ =>
    refine keepsText_greeted c (fun _ _ => trivial) (fun c => ?_)
    exact (keepsText_cmd _ _).bind_except (fun _ => trivial) (fun _ => trivial)

end Client

theorem keepsText_rcpt (recipient : Bytes) : KeepsText (rcpt recipient) := by
  unfold rcpt
  cases Client.validateLine recipient with
  | error err => trivial
  | ok _ => exact (keepsText_cmd _ _).bind_except (fun _ => trivial) (fun _ => trivial)

/-- `DATA` only asks; the text comes after its reply. -/
theorem keepsText_data : KeepsText data :=
  (keepsText_cmd _ _).bind_except (fun _ => trivial) (fun _ => trivial)

end ReleaseNotifier.NetSmtp
