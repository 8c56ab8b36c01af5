/-
The text of a mail: `services/notification/smtp/templates.go` and the first lines
of `SMTPMailer.deliver`.

All strings are byte strings here. Everything a stranger can choose, from the
address to the fields of a release, goes through `sanitizeHeader` before it gets
near the header, or it goes into the body. So the header has the five lines the
format string shows, and the body begins where the format string says
(`envelope_parses`). `mime.QEncoding` is a parameter of which nothing is used but
that it makes no line break out of a text without one.
-/
import ReleaseNotifier.Text.Header
import ReleaseNotifier.Transports

set_option autoImplicit false

namespace ReleaseNotifier.MailText

open Text Text.Header

/-! ## `templates.go` -/

/-- `smtp.Message`; `recipient` is its field `To`. -/
structure Message where
  recipient : Bytes
  subject : Bytes
  body : Bytes
  deriving DecidableEq

/-- What a template reads of `notification.ReleaseInfo`. -/
structure ReleaseInfo where
  tagName : Bytes
  name : Bytes
  htmlURL : Bytes
  deriving DecidableEq

/-- `sanitizeHeader`. -/
def sanitizeHeader (value : Bytes) : Bytes := value.filter (fun b => b ≠ cr ∧ b ≠ lf)

/-- `TemplateBuilder.Confirmation`. -/
def confirmation (email confirmURL repo : Bytes) : Message :=
  let safeEmail := sanitizeHeader email
  let safeRepo := sanitizeHeader repo
  { recipient := safeEmail
    subject := utf8 "Confirm your subscription to " ++ safeRepo ++ utf8 " releases"
    body := utf8 "You have subscribed to release notifications for " ++ safeRepo ++ utf8 ".\n\n" ++
      utf8 "Please confirm your subscription by clicking the link below:\n" ++ confirmURL ++
      utf8 "\n\n" ++ utf8 "If you did not request this, you can ignore this email." }

/-- `TemplateBuilder.ReleaseNotification`. -/
def releaseNotification (email repo : Bytes) (rel : Option ReleaseInfo) : Message :=
  let safeEmail := sanitizeHeader email
  let safeRepo := sanitizeHeader repo
  match rel with
  | none =>
    { recipient := safeEmail
      subject := utf8 "New release for " ++ safeRepo
      body := utf8 "A new release has been published for " ++ safeRepo ++ utf8 ".\n" }
  | some rel =>
    let safeTag := sanitizeHeader rel.tagName
    { recipient := safeEmail
      subject := utf8 "New release for " ++ safeRepo ++ utf8 ": " ++ safeTag
      body := utf8 "A new release has been published for " ++ safeRepo ++ utf8 "!\n\n" ++
        utf8 "Version: " ++ rel.tagName ++ utf8 "\nName: " ++ rel.name ++ utf8 "\nURL: " ++
        rel.htmlURL ++ utf8 "\n" }

/-- What the mailer is asked to send. -/
inductive Mail
  | confirmation (email confirmURL repo : Bytes)
  | release (email repo : Bytes) (rel : Option ReleaseInfo)

/-- The message for a mail. -/
def Mail.message : Mail → Message
  | .confirmation email confirmURL repo => MailText.confirmation email confirmURL repo
  | .release email repo rel => releaseNotification email repo rel

/-! ## The text -/

/-- `envelope` in `SMTPMailer.deliver`, for the sender `m.from`. -/
def envelope (qEncode : Bytes → Bytes) (sender : Bytes) (msg : Message) : Bytes :=
  let sanitizedTo := sanitizeHeader msg.recipient
  let sanitizedFrom := sanitizeHeader sender
  let encodedSubject := qEncode (sanitizeHeader msg.subject)
  utf8 "From: " ++ sanitizedFrom ++ utf8 "\r\nTo: " ++ sanitizedTo ++ utf8 "\r\nSubject: " ++
    encodedSubject ++
    utf8 "\r\nMIME-Version: 1.0\r\nContent-Type: text/plain; charset=\"utf-8\"\r\n\r\n" ++ msg.body

/-- The lines of the header. -/
def headerLines (qEncode : Bytes → Bytes) (sender : Bytes) (msg : Message) : List Bytes :=
  [utf8 "From: " ++ sanitizeHeader sender, utf8 "To: " ++ sanitizeHeader msg.recipient,
    utf8 "Subject: " ++ qEncode (sanitizeHeader msg.subject), utf8 "MIME-Version: 1.0",
    utf8 "Content-Type: text/plain; charset=\"utf-8\""]

/-- A sanitised value stays on its line. -/
theorem noBreak_sanitizeHeader (value : Bytes) : NoBreak (sanitizeHeader value) := by
  intro b hb
  simpa using (List.mem_filter.mp hb).2

/-- The format string, cut where its lines end. -/
theorem envelope_eq (qEncode : Bytes → Bytes) (sender : Bytes) (msg : Message) :
    envelope qEncode sender msg =
      crlf.intercalate (headerLines qEncode sender msg) ++ (crlf ++ crlf ++ msg.body) := by
  have hTo : utf8 "\r\nTo: " = crlf ++ utf8 "To: " := by decide
  have hSubject : utf8 "\r\nSubject: " = crlf ++ utf8 "Subject: " := by decide
  have hMime : utf8 "\r\nMIME-Version: 1.0\r\nContent-Type: text/plain; charset=\"utf-8\"\r\n\r\n" =
      crlf ++ utf8 "MIME-Version: 1.0" ++ crlf ++
        utf8 "Content-Type: text/plain; charset=\"utf-8\"" ++ crlf ++ crlf := by
    decide
  rw [envelope, hTo, hSubject, hMime, headerLines]
  simp only [List.intercalate_cons_cons, List.intercalate_singleton, List.append_assoc]

/-- No header line is empty, so none ends the header. -/
theorem headerLines_ne_nil (qEncode : Bytes → Bytes) (sender : Bytes) (msg : Message) :
    ∀ l ∈ headerLines qEncode sender msg, l ≠ [] := by
  have hnames : ∀ name ∈ [utf8 "From: ", utf8 "To: ", utf8 "Subject: ", utf8 "MIME-Version: 1.0",
      utf8 "Content-Type: text/plain; charset=\"utf-8\""], name ≠ [] := by
    decide
  simp only [List.forall_mem_cons] at hnames
  simp only [headerLines, List.forall_mem_cons]
  exact ⟨List.append_ne_nil_of_left_ne_nil hnames.1 _,
    List.append_ne_nil_of_left_ne_nil hnames.2.1 _,
    List.append_ne_nil_of_left_ne_nil hnames.2.2.1 _, hnames.2.2.2⟩

section Lines

variable {qEncode : Bytes → Bytes} (hq : ∀ s, NoBreak s → NoBreak (qEncode s))

include hq

/-- No header line breaks, whatever the subject is. -/
theorem noBreak_headerLines (sender : Bytes) (msg : Message) :
    ∀ l ∈ headerLines qEncode sender msg, NoBreak l := by
  have hnames : ∀ name ∈ [utf8 "From: ", utf8 "To: ", utf8 "Subject: ", utf8 "MIME-Version: 1.0",
      utf8 "Content-Type: text/plain; charset=\"utf-8\""], NoBreak name := by
    decide +kernel
  simp only [List.forall_mem_cons] at hnames
  simp only [headerLines, List.forall_mem_cons]
  exact ⟨hnames.1.append (noBreak_sanitizeHeader _), hnames.2.1.append (noBreak_sanitizeHeader _),
    hnames.2.2.1.append (hq _ (noBreak_sanitizeHeader _)), hnames.2.2.2⟩

end Lines

/-- A message is read as it was meant, whoever it is about: the first empty line ends a
header of five lines, each of them free of line breaks, and the rest is the body. -/
theorem envelope_parses (qEncode : Bytes → Bytes) (hq : ∀ s, NoBreak s → NoBreak (qEncode s))
    (sender : Bytes) (mail : Mail) :
    ∃ header, cutAt (crlf ++ crlf) (envelope qEncode sender mail.message) =
        some (header, mail.message.body) ∧
      linesOf header =
        [utf8 "From: " ++ sanitizeHeader sender,
          utf8 "To: " ++ sanitizeHeader mail.message.recipient,
          utf8 "Subject: " ++ qEncode (sanitizeHeader mail.message.subject),
          utf8 "MIME-Version: 1.0", utf8 "Content-Type: text/plain; charset=\"utf-8\""] ∧
      ∀ l ∈ linesOf header, NoBreak l := by
  have hbreaks := noBreak_headerLines hq sender mail.message
  have hcr : ∀ l ∈ headerLines qEncode sender mail.message, cr ∉ l :=
    fun l hl => (hbreaks l hl).cr_not_mem
  have hlines : linesOf (crlf.intercalate (headerLines qEncode sender mail.message)) =
      headerLines qEncode sender mail.message := linesOf_intercalate hcr
  refine ⟨crlf.intercalate (headerLines qEncode sender mail.message), ?_, hlines, ?_⟩
  · rw [envelope_eq]
    exact cutAt_message
      (fun l hl => ⟨headerLines_ne_nil qEncode sender mail.message l hl, hcr l hl⟩) _
  · rw [hlines]
    exact hbreaks

/-- Line breaks in every field add no header. -/
theorem envelope_parses_injected :
    ∃ header, cutAt (crlf ++ crlf) (envelope id (utf8 "s@h")
        (Mail.release (utf8 "a@b.c\r\nBcc: e@d") (utf8 "o/n\r\n\r\nX")
          (some ⟨utf8 "v1\r\nX: 1", [], []⟩)).message) =
      some (header, (Mail.release (utf8 "a@b.c\r\nBcc: e@d") (utf8 "o/n\r\n\r\nX")
        (some ⟨utf8 "v1\r\nX: 1", [], []⟩)).message.body) ∧
      (linesOf header).length = 5 := by
  obtain ⟨header, hcut, hlines, -⟩ := envelope_parses id (fun _ h => h) (utf8 "s@h")
    (.release (utf8 "a@b.c\r\nBcc: e@d") (utf8 "o/n\r\n\r\nX") (some ⟨utf8 "v1\r\nX: 1", [], []⟩))
  refine ⟨header, hcut, ?_⟩
  rw [hlines]
  rfl

/-! ## Strings of characters -/

/-- A message, by the bytes of its parts. -/
def ofMessage (msg : Smtp.Message) : Message :=
  ⟨utf8 msg.recipient, utf8 msg.subject, utf8 msg.body⟩

def ofReleaseInfo (rel : Notifier.ReleaseInfo) : ReleaseInfo :=
  ⟨utf8 rel.tagName, utf8 rel.name, utf8 rel.htmlURL⟩

/-- A mail, by the bytes of its parts. -/
def ofMail : Notifier.Mail → Mail
  | .confirmation c => .confirmation (utf8 c.email) (utf8 c.confirmURL) (utf8 c.repo)
  | .release email repo rel => .release (utf8 email) (utf8 repo) (rel.map ofReleaseInfo)

/-- A character that is no line break has no byte that is one. -/
theorem filter_utf8EncodeChar (c : Char) :
    (String.utf8EncodeChar c).filter (fun b => decide (b ≠ cr ∧ b ≠ lf)) =
      if decide (c ≠ '\r' ∧ c ≠ '\n') then String.utf8EncodeChar c else [] := by
  by_cases hcr : c = '\r'
  · rw [hcr]
    decide
  by_cases hlf : c = '\n'
  · rw [hlf]
    decide
  have hmem : ∀ b : UInt8, b.toNat < 0x80 → b ∈ String.utf8EncodeChar c →
      Char.ofNat b.toNat = c := by
    intro b hb hmem
    have hone : encode [c] = String.utf8EncodeChar c := List.flatMap_singleton _ _
    rw [← hone, mem_encode_ascii hb] at hmem
    exact List.mem_singleton.mp hmem
  rw [if_pos (by simp [hcr, hlf]), List.filter_eq_self]
  intro b hb
  refine decide_eq_true ⟨?_, ?_⟩
  · rintro rfl
    exact hcr (hmem cr (by decide) hb).symm
  · rintro rfl
    exact hlf (hmem lf (by decide) hb).symm

/-- The two models of the function agree. -/
theorem sanitizeHeader_utf8 (value : String) :
    sanitizeHeader (utf8 value) = utf8 (Smtp.sanitizeHeader value) := by
  rw [Smtp.sanitizeHeader, utf8_ofList, utf8_eq_encode, sanitizeHeader, encode, encode,
    List.filter_flatMap]
  simp only [filter_utf8EncodeChar]
  induction value.toList with
  | nil => rfl
  | cons c cs ih =>
    rw [List.flatMap_cons, ih, List.filter_cons]
    split
    · rw [List.flatMap_cons]
    · rw [List.nil_append]

/-- The templates of `Transports` write the same messages. -/
theorem message_ofMail (m : Notifier.Mail) : (ofMail m).message = ofMessage (Smtp.message m) := by
  have hstring : ∀ s : String, toString s = s := fun _ => rfl
  cases m with
  | confirmation c =>
    simp [ofMail, Mail.message, Smtp.message, confirmation, Smtp.confirmation, ofMessage,
      sanitizeHeader_utf8, hstring]
  | release email repo rel =>
    cases rel with
    | none =>
      simp [ofMail, Mail.message, Smtp.message, releaseNotification, Smtp.releaseNotification,
        ofMessage, sanitizeHeader_utf8, hstring]
    | some rel =>
      simp [ofMail, Mail.message, Smtp.message, releaseNotification, Smtp.releaseNotification,
        ofMessage, ofReleaseInfo, sanitizeHeader_utf8, hstring]

end ReleaseNotifier.MailText
