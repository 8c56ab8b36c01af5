/-
Email addresses: `internal/email/address.go`, and `GetSubscriptions`.

`NewAddress` keeps what `mail.ParseAddress` says is the address, in lower case. For
a quoted local part that is no address: `"a b"@x.io` is kept as `a b@x.io`, and
nobody reads that again. `normalised_iff` says for which addresses the kept form is
accepted and kept as it is, and with that, in every run of the monolith, which
subscriptions can be asked for by the email they are stored under.
-/
import ReleaseNotifier.Ready
import ReleaseNotifier.Text.Mailbox

set_option autoImplicit false

namespace ReleaseNotifier.Email

open Conc Text Text.Mailbox

/-! ## `address.go` -/

/-- The characters of a string, if it is UTF-8. A byte that is not makes any of the
consumers of `net/mail` fail. -/
def decode (raw : Bytes) : Option (List Char) :=
  if encode (runes raw) = raw then some (runes raw) else none

/-- `NewAddress`; every error wraps `ErrInvalid`, and nobody looks further. -/
def newAddress (ip : IPSyntax) (raw : Bytes) : Option Bytes := do
  let s ← decode raw
  let addr ← parseAddress ip s
  return Strings.toLower (encode addr)

/-- `Service.GetSubscriptions`, on a repository. -/
def getSubscriptions (ip : IPSyntax)
    (getActiveByEmail : Bytes → Except Err (List Subscription)) (rawEmail : Bytes) :
    Except Err (List Subscription) :=
  match newAddress ip rawEmail with
  | none => .error (.sentinel .errInvalidEmail)
  | some addr => getActiveByEmail addr

/-! ## Reading an address again -/

variable {ip : IPSyntax}

theorem decode_encode (cs : List Char) : decode (encode cs) = some cs := by
  rw [decode, runes_encode, if_pos rfl]

theorem newAddress_encode (cs : List Char) :
    newAddress ip (encode cs) =
      (parseAddress ip cs).map (fun addr => encode (addr.map Unicode.toLower)) := by
  simp only [newAddress, decode_encode, Option.bind_eq_bind, Option.bind_some]
  cases parseAddress ip cs with
  | none => rfl
  | some addr =>
    show some (Strings.toLower (encode addr)) = some (encode (addr.map Unicode.toLower))
    rw [Strings.toLower, runes_encode]

theorem encode_injective : Function.Injective encode := by
  intro cs cs' h
  rw [← runes_encode cs, h, runes_encode]

/-- An address that was kept: the lower case of a domain, and of the local part that is written
before an `@` of the string. -/
theorem newAddress_cases {raw a : Bytes} (h : newAddress ip raw = some a) :
    ∃ l d, a = encode (l.map Unicode.toLower ++ '@' :: d) ∧ IsDomain ip d ∧
      d.map Unicode.toLower = d ∧
      ∃ before word after, decode raw = some (before ++ word ++ '@' :: after) ∧ Written word l := by
  simp only [newAddress, Option.bind_eq_bind, Option.bind_eq_some_iff] at h
  obtain ⟨s, hs, addr, hparse, heq⟩ := h
  cases heq
  obtain ⟨l, d, rfl, hd, before, word, after, rfl, hwritten⟩ := parseAddress_shape hparse
  have hat : Unicode.toLower '@' = '@' := by decide
  refine ⟨l, d.map Unicode.toLower, ?_, hd.lower, ?_, before, word, after, hs, hwritten⟩
  · rw [Strings.toLower, runes_encode, List.map_append, List.map_cons, hat]
  · rw [List.map_map]
    exact List.map_congr_left (fun c _ => Unicode.toLower_toLower c)

/-- An address that was kept is kept as it is exactly if its local part is a dot-atom. -/
theorem newAddress_self_iff {raw a : Bytes} (h : newAddress ip raw = some a) :
    newAddress ip a = some a ↔ DotAtom (localPart (runes a)) := by
  obtain ⟨l, d, rfl, hd, hdlower, -⟩ := newAddress_cases h
  have hlower : (l.map Unicode.toLower ++ '@' :: d).map Unicode.toLower =
      l.map Unicode.toLower ++ '@' :: d := by
    rw [List.map_append, List.map_cons, hdlower, List.map_map]
    exact congrArg (· ++ _) (List.map_congr_left (fun c _ => Unicode.toLower_toLower c))
  rw [runes_encode, localPart_append hd.at_not_mem, newAddress_encode,
    ← parseAddress_self_iff hd, Option.map_eq_some_iff]
  constructor
  · rintro ⟨b, hb, heq⟩
    -- what is read is in lower case already, so it is all there is
    have hall : ∀ c ∈ l.map Unicode.toLower ++ '@' :: d, Unicode.toLower c = id c :=
      List.map_inj_left.mp (hlower.trans (List.map_id _).symm)
    have hfixed : b.map Unicode.toLower = b.map id :=
      List.map_congr_left (fun c hc => hall c (mem_of_parseAddress hd hb hc))
    rw [hfixed, List.map_id] at heq
    rw [hb, encode_injective heq]
  · intro hparse
    exact ⟨_, hparse, by rw [hlower]⟩

/-- The same on the string that was read: its local part is a dot-atom, or a quoted string
whose content in lower case is one. -/
theorem newAddress_self_written {raw a : Bytes} (h : newAddress ip raw = some a) :
    ∃ before word content after, decode raw = some (before ++ word ++ '@' :: after) ∧
      Written word content ∧ localPart (runes a) = content.map Unicode.toLower ∧
      (newAddress ip a = some a ↔ DotAtom word ∨ DotAtom (content.map Unicode.toLower)) := by
  have hself := newAddress_self_iff h
  obtain ⟨content, d, rfl, hd, -, before, word, after, hraw, hwritten⟩ := newAddress_cases h
  have hlocal : localPart (runes (encode (content.map Unicode.toLower ++ '@' :: d))) =
      content.map Unicode.toLower := by
    rw [runes_encode, localPart_append hd.at_not_mem]
  rw [hlocal] at hself
  refine ⟨before, word, content, after, hraw, hwritten, hlocal, hself.trans ⟨.inr, ?_⟩⟩
  rintro (hword | hcontent)
  · cases hwritten with
    | atom hatom => exact hatom.lower
    | quoted _ => exact absurd rfl (atext_ne (hword.atext '"' List.mem_cons_self) (by decide))
  · exact hcontent

/-- `GetSubscriptions` asks for the email it was given exactly if that is kept as it is. -/
theorem getSubscriptions_self_iff {a : Bytes} :
    (∀ getActiveByEmail, getSubscriptions ip getActiveByEmail a = getActiveByEmail a) ↔
      newAddress ip a = some a := by
  constructor
  · intro h
    -- a repository that knows this email only
    have hprobe := h (fun x => if x = a then .ok [] else .error (.text ""))
    rw [getSubscriptions, if_pos rfl] at hprobe
    cases hread : newAddress ip a with
    | none =>
      rw [hread] at hprobe
      cases hprobe
    | some b =>
      rw [hread] at hprobe
      dsimp only at hprobe
      split at hprobe
      · next heq => rw [heq]
      · cases hprobe
  · intro h f
    rw [getSubscriptions, h]

/-! ## The monolith -/

/-- A deployment with this reading of addresses. -/
def withMail (ip : IPSyntax) (D : Deps) : Deps :=
  { D with
    parseAddress := fun raw => (parseAddress ip raw.toList).map String.ofList
    toLower := fun addr => String.ofList (addr.toList.map Unicode.toLower) }

/-- The monolith reads addresses as above. -/
theorem newAddress_utf8 {D : Deps} {raw a : String}
    (h : ReleaseNotifier.newAddress (withMail ip D) raw = .ok a) :
    newAddress ip (utf8 raw) = some (utf8 a) := by
  rw [utf8_eq_encode, newAddress_encode]
  simp only [ReleaseNotifier.newAddress, withMail] at h
  cases hparse : parseAddress ip raw.toList with
  | none =>
    rw [hparse] at h
    cases h
  | some addr =>
    rw [hparse] at h
    cases h
    rw [utf8_ofList, String.toList_ofList]
    rfl

/-- Every stored email was made by `NewAddress`. -/
def Kept (D : Deps) (s : State) : Prop :=
  ∀ sub ∈ s.tables.subscriptions, ∃ raw, ReleaseNotifier.newAddress D raw = .ok sub.email

theorem email_of_key? {D : Deps} {c : Call} {k : Key} (h : c.key? D = some k) :
    ∃ raw, ReleaseNotifier.newAddress D raw = .ok k.email := by
  cases c with
  | subscribe ctx rawEmail rawRepo draws =>
    simp only [Call.key?, parseSubscribeInput] at h
    cases haddr : ReleaseNotifier.newAddress D rawEmail with
    | error e =>
      rw [haddr] at h
      cases h
    | ok addr =>
      rw [haddr] at h
      cases href : parseRef rawRepo with
      | error e =>
        rw [href] at h
        cases h
      | ok ref =>
        rw [href] at h
        cases h
        exact ⟨rawEmail, haddr⟩
  | _ => cases h

/-- An operation of a run keeps the emails, or inserts one that its call has read. -/
theorem Kept.exec {D : Deps} {c : Call} {o : Op} {ch : Choice} {r : o.Res} {s s' : State}
    (h : Kept D s) (hk : Known D c o ch r s s') : Kept D s' := by
  intro sub hsub
  have hrow := Tables.byID_of_mem hsub
  cases hold : s.tables.byID sub.id with
  | none =>
    obtain ⟨k, token, status, rfl, -, hnew⟩ := (exec_rows hk.exec).created hold hrow
    rw [hnew]
    exact email_of_key? hk.ready.2.2
  | some row =>
    obtain ⟨row', hrow', hchange⟩ := (exec_rows hk.exec).row hold
    rw [hrow] at hrow'
    cases hrow'
    have hemail : sub.email = row.email := congrArg Key.email hchange.key
    rw [hemail]
    exact h row (Tables.byID_mem hold)

theorem Kept.run {D : Deps} {es : List (Event Choice Call WorldEvent)}
    {p : Pool Op Op.Res State Call Ret} (h : (monolith D).Run Always monolithInit es p) :
    Kept D p.state := by
  refine (run_safe h).invariant (J := fun p => Kept D p.state) ?_ ?_
  · intro sub hsub
    cases hsub
  · intro p e p' hp hcond hstep
    cases e with
    | call c =>
      obtain ⟨s, hent, rfl⟩ := (monolith D).step_call hstep
      rw [(enter_eq hent).2]
      exact hp
    | run i ch =>
      obtain ⟨th, o, k, r, s, hth, hend, hprog, hx, rfl⟩ := (monolith D).step_run hstep
      exact hp.exec (hcond.2.known hth hend hprog hx)
    | kill i =>
      obtain ⟨th, hth, hend, rfl⟩ := (monolith D).step_kill hstep
      exact hp
    | env w =>
      obtain ⟨s, henv, rfl⟩ := (monolith D).step_env hstep
      rcases world_eq henv with ⟨d, rfl⟩ | rfl
      · exact hp
      · exact hp

/-- No domain literals. -/
def noLiterals : IPSyntax where
  accepts _ := false
  chars h := by cases h
  lower h := by cases h

/-- Reading an address again, and asking for a subscription by its email, work exactly
for the addresses whose local part, without its quotes, is a dot-atom: for whatever
`NewAddress` accepts, and for every row of every run. In the string that was read this part
is a dot-atom, or a quoted string whose content in lower case is one. -/
theorem normalised_iff (ip : IPSyntax) :
    (∀ raw a, newAddress ip raw = some a →
        (newAddress ip a = some a ↔ DotAtom (localPart (runes a))) ∧
        ∃ before word content after, decode raw = some (before ++ word ++ '@' :: after) ∧
          Written word content ∧ localPart (runes a) = content.map Unicode.toLower ∧
          (newAddress ip a = some a ↔ DotAtom word ∨ DotAtom (content.map Unicode.toLower))) ∧
      ∀ (D : Deps) (es : List (Event Choice Call WorldEvent)) (p : Pool Op Op.Res State Call Ret),
        (monolith (withMail ip D)).steps monolithInit es = some p →
        ∀ sub ∈ p.state.tables.subscriptions,
          ((∀ getActiveByEmail, getSubscriptions ip getActiveByEmail (utf8 sub.email) =
              getActiveByEmail (utf8 sub.email)) ↔
            DotAtom (localPart sub.email.toList)) := by
  refine ⟨fun raw a h => ⟨newAddress_self_iff h, newAddress_self_written h⟩,
    fun D es p h sub hsub => ?_⟩
  obtain ⟨raw, hraw⟩ := Kept.run (Machine.Run.of_steps_any (fun _ _ => trivial) h) sub hsub
  rw [getSubscriptions_self_iff, newAddress_self_iff (newAddress_utf8 hraw), utf8_eq_encode,
    runes_encode]

/-- A plain local part survives a second reading. -/
theorem normalised_plain : DotAtom (localPart (runes (utf8 "a.b@x.io"))) :=
  ((normalised_iff noLiterals).1 (utf8 "A.B@X.io") _ (by decide)).1.mp (by decide)

/-- A request with a blank in a quoted local part stores its row. -/
def sampleQuoted : List (Event Choice Call WorldEvent) :=
  [.call (.subscribe ⟨none⟩ "\"a b\"@x.io" "o/n" ⟨.ok "t1", "s1"⟩), .run 0 (.answer true), .run 0 .ok,
    .run 0 .ok, .run 0 .ok]

/-- `"a b"@x.io` is accepted and stored as `a b@x.io`, which is not accepted, so the
subscription cannot be asked for; `"\"x\""@x.io` is kept as `"x"@x.io`, which is read as
the address of another mailbox, `x@x.io`. -/
theorem quoted_lost :
    newAddress noLiterals (utf8 "\"a b\"@x.io") = some (utf8 "a b@x.io") ∧
      newAddress noLiterals (utf8 "a b@x.io") = none ∧
      newAddress noLiterals (utf8 "\"\\\"x\\\"\"@x.io") = some (utf8 "\"x\"@x.io") ∧
      newAddress noLiterals (utf8 "\"x\"@x.io") = some (utf8 "x@x.io") ∧
      ((monolith (withMail noLiterals sample)).steps monolithInit sampleQuoted).any (fun p =>
        decide (p.state.tables.subscriptions.map Subscription.email = ["a b@x.io"])) = true := by
  refine ⟨?_, ?_, ?_, ?_, ?_⟩
  · decide
  · decide
  · decide
  · decide
  · decide

end ReleaseNotifier.Email
