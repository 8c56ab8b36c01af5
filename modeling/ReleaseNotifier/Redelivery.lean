/-
Deliveries handled one at a time, with any failures and crashes.

An ack means that the mail went out, a failed reservation or send means a
requeue, and a key that has been sent and confirmed does not reach the sender
again. The three facts are about whole histories: what one delivery may conclude
from the ledger is what earlier ones have left there.
-/
import ReleaseNotifier.Reservation

set_option autoImplicit false

namespace ReleaseNotifier.Notifier

open Conc

/-! ## What a delivery did -/

instance : (o : Op) → DecidableEq o.Res
  | .newStore => inferInstanceAs (DecidableEq Unit)
  | .ensurePrepared => inferInstanceAs (DecidableEq (Except Err Unit))
  | .queryReserve _ _ => inferInstanceAs (DecidableEq (Except Err (Option Nat)))
  | .execConfirm _ => inferInstanceAs (DecidableEq (Except Err Unit))
  | .closeStmt _ => inferInstanceAs (DecidableEq (Except Err Unit))
  | .send _ => inferInstanceAs (DecidableEq (Except Err Unit))
  | .publish _ _ => inferInstanceAs (DecidableEq (Except Err Unit))

/-- Operations in the order in which they were issued, with their answers. -/
abbrev Trace := List ((o : Op) × o.Res)

/-- `Reserve` failed: its query did, or preparing the statements for it did,
before the sender was asked. -/
def ReserveFailed (tr : Trace) : Prop :=
  (∃ kind key err, ⟨.queryReserve kind key, .error err⟩ ∈ tr) ∨
    ∃ before err after, tr = before ++ ⟨.ensurePrepared, .error err⟩ :: after ∧
      ∀ mail r, ⟨.send mail, r⟩ ∉ before

/-- The sender returned an error. -/
def SendFailed (tr : Trace) : Prop := ∃ mail err, ⟨.send mail, .error err⟩ ∈ tr

/-- The sender was asked for a mail with this key. -/
def ReachesSender (E : Deps) (key : String) (tr : Trace) : Prop :=
  ∃ mail r, ⟨.send mail, r⟩ ∈ tr ∧ mail.dedupKey E = key

/-- A send for this key and its confirmation both succeeded. -/
def SentAndConfirmed (E : Deps) (key : String) (tr : Trace) : Prop :=
  (∃ mail, ⟨.send mail, .ok ()⟩ ∈ tr ∧ mail.dedupKey E = key) ∧ ⟨.execConfirm key, .ok ()⟩ ∈ tr

/-- Deliveries handled one after the other from `s₀`, each to its end or to a
crash somewhere on the way; in between time passes and the process restarts. -/
inductive Deliveries (E : Deps) (s₀ : State) : List Trace → State → Prop
  | nil : Deliveries E s₀ [] s₀
  | handle {hist : List Trace} {s s' : State} {body : Bytes} {tr : Trace} {p : P Action} :
      Deliveries E s₀ hist s → (Consumer.handle E body).Steps exec s tr p s' →
      Deliveries E s₀ (hist ++ [tr]) s'
  | world {hist : List Trace} {s s' : State} {e : WorldEvent} :
      Deliveries E s₀ hist s → world e s = some s' → Deliveries E s₀ hist s'

section Deliveries

variable {E : Deps} {s s' : State} {body : Bytes} {tr : Trace} {p : P Action} {key : String}

/-- The protocol of the consumer, which does nothing else. -/
abbrev consumption (E : Deps) : Protocol Op Op.Res Stage := reservation E (fun _ => False)

/-- What one more operation can add to a failed reservation. -/
theorem ReserveFailed.snoc {e : (o : Op) × o.Res} (h : ReserveFailed (tr ++ [e])) :
    ReserveFailed tr ∨ (∃ kind key err, e = ⟨.queryReserve kind key, .error err⟩) ∨
      ((∃ err, e = ⟨.ensurePrepared, .error err⟩) ∧ ∀ mail r, ⟨.send mail, r⟩ ∉ tr) := by
  rcases h with ⟨kind, key, err, hmem⟩ | ⟨before, err, after, heq, hno⟩
  · rcases List.mem_append.mp hmem with hmem | hmem
    · exact .inl (.inl ⟨kind, key, err, hmem⟩)
    · exact .inr (.inl ⟨kind, key, err, (List.mem_singleton.mp hmem).symm⟩)
  · rcases List.eq_nil_or_concat after with rfl | ⟨after, e', rfl⟩
    · obtain ⟨rfl, hlast⟩ := List.append_inj' heq rfl
      rw [List.cons.injEq] at hlast
      exact .inr (.inr ⟨⟨err, hlast.1⟩, hno⟩)
    · have hsnoc : tr ++ [e] = (before ++ ⟨.ensurePrepared, .error err⟩ :: after) ++ [e'] := by
        rw [heq, List.concat_eq_append, List.append_assoc, List.cons_append]
      exact .inl (.inr ⟨before, err, after, (List.append_inj' hsnoc rfl).1, hno⟩)

/-- What the stage says of the operations before it: nothing has failed unless
the stage says so, and the stage `sent` comes after a send. -/
structure Told (q : Stage) (tr : Trace) : Prop where
  failed : q ≠ .failed → ¬ SendFailed tr ∧ ¬ ReserveFailed tr
  sent : ∀ key, q = .sent key → ∃ mail r, ⟨.send mail, r⟩ ∈ tr

theorem Told.step {q : Stage} {o : Op} {r : o.Res} (h : Told q tr)
    (hallow : (consumption E).allows q o) : Told (q.next o r) (tr ++ [⟨o, r⟩]) := by
  have hq : q ≠ .failed := by
    rintro rfl
    exact hallow.2
  obtain ⟨hsend, hreserve⟩ := h.failed hq
  refine ⟨fun hne => ⟨?_, ?_⟩, fun key hkey => ?_⟩
  · rintro ⟨mail, err, hmem⟩
    rcases List.mem_append.mp hmem with hmem | hmem
    · exact hsend ⟨mail, err, hmem⟩
    · cases List.mem_singleton.mp hmem
      rw [allows_send hallow] at hne
      exact hne rfl
  · intro hfail
    rcases hfail.snoc with hold | ⟨kind, key, err, heq⟩ | ⟨⟨err, heq⟩, hno⟩
    · exact hreserve hold
    · cases heq
      rw [allows_queryReserve hallow] at hne
      exact hne rfl
    · cases heq
      -- the statements are prepared for `Reserve` or for `Confirm`; the latter follows a send
      cases q with
      | free => exact hne rfl
      | sent key =>
        obtain ⟨mail, r, hmem⟩ := h.sent key rfl
        exact hno mail r hmem
      | held key => exact hallow
      | duplicate key => exact hallow.2
      | failed => exact hallow.2
  · rcases Stage.next_sent hkey with hold | ⟨_, mail, heq⟩
    · obtain ⟨mail, r', hmem⟩ := h.sent key hold
      exact ⟨mail, r', List.mem_append_left _ hmem⟩
    · cases heq
      exact ⟨mail, .ok (), List.mem_append_right _ (List.mem_singleton.mpr rfl)⟩

/-- A failed reservation or send ends in a requeue, at once. -/
theorem handle_failed (h : (Consumer.handle E body).Steps exec s tr p s')
    (hfail : ReserveFailed tr ∨ SendFailed tr) : p = .ret .requeue := by
  have hnil : Told .free [] := by
    refine ⟨fun _ => ⟨?_, ?_⟩, fun key hkey => by cases hkey⟩
    · rintro ⟨mail, err, hmem⟩
      cases hmem
    · rintro (⟨kind, key, err, hmem⟩ | ⟨before, err, after, heq, _⟩)
      · cases hmem
      · simp at heq
  obtain ⟨q, hobeys, htold⟩ := (consumer_obeys E (fun _ => False) body).steps
    (fun q tr _ => Told q tr) h hnil (fun q tr s o r ch s' ht hallow _ => ht.step hallow)
  have hq : q = .failed := by
    by_contra hne
    rcases hfail with hfail | hfail
    · exact (htold.failed hne).2 hfail
    · exact (htold.failed hne).1 hfail
  subst hq
  cases p with
  | op o k => exact absurd hobeys.1.2 id
  | ret a =>
    cases a with
    | requeue => rfl
    | drop => cases hobeys
    | ack =>
      obtain ⟨_, _, hq | hq⟩ := hobeys
      · cases hq
      · cases hq

/-- What the stage says of the state: a key that counts as sent has been sent,
and the row of a key that was granted is there. -/
structure Backed (E : Deps) (q : Stage) (s : State) : Prop where
  ledger : LedgerTrue E s
  sent : ∀ key, q = .sent key ∨ q = .duplicate key → Sent E s key
  present : ∀ key, q = .held key ∨ q = .sent key → s.ledger.mark key ≠ .absent

theorem Backed.free (h : LedgerTrue E s) : Backed E .free s := by
  refine ⟨h, ?_, ?_⟩
  · rintro key (hq | hq) <;> cases hq
  · rintro key (hq | hq) <;> cases hq

theorem Backed.step {rest : Op → Prop} {q : Stage} {o : Op} {r : o.Res} {ch : Choice}
    (h : Backed E q s) (hallow : (reservation E rest).allows q o)
    (hx : exec s o ch = some (r, s')) : Backed E (q.next o r) s' := by
  have heff := exec_effect hx
  have hg : Grows s s' := heff.sends_mono
  refine ⟨fun key hconf => ?_, ?_, ?_⟩
  · rcases heff.confirmed hconf with hold | rfl
    · exact (h.ledger key hold).grows hg
    · exact (h.sent key (.inl (allows_execConfirm hallow))).grows hg
  · rintro key (hq | hq)
    · rcases Stage.next_sent hq with hold | ⟨rfl, mail, heq⟩
      · exact (h.sent key (.inl hold)).grows hg
      · cases heq
        have hkey := allows_send hallow
        rw [Stage.held.injEq] at hkey
        exact ⟨⟨mail, true⟩, exec_send_ok hx, rfl, hkey.symm⟩
    · rcases Stage.next_duplicate hq with hold | ⟨kind, heq⟩
      · exact (h.sent key (.inr hold)).grows hg
      · cases heq
        exact (h.ledger key (exec_reserve_none hx)).grows hg
  · rintro key (hq | hq)
    · obtain ⟨kind, id, heq⟩ := Stage.next_held hq
      cases heq
      exact (exec_reserve_some hx).2
    · rcases Stage.next_sent hq with hold | ⟨hold, _⟩
      · exact heff.present (h.present key (.inr hold))
      · exact heff.present (h.present key (.inl hold))

/-- One delivery keeps the ledger true, an ack means that the key has been
sent, and a confirmation that succeeded leaves its key confirmed. -/
theorem handle_backed (h : (Consumer.handle E body).Steps exec s tr p s') (hs : LedgerTrue E s) :
    LedgerTrue E s' ∧
      (∀ mail, (Delivery.command body).mail? E = some mail → p = .ret .ack →
        Sent E s' (mail.dedupKey E)) ∧
      ∀ key, ⟨.execConfirm key, .ok ()⟩ ∈ tr → s'.ledger.mark key = .confirmed := by
  let R : Stage → Trace → State → Prop := fun q tr s => Backed E q s ∧
    ∀ key, ⟨.execConfirm key, .ok ()⟩ ∈ tr → s.ledger.mark key = .confirmed
  have hstep : ∀ q tr s o r ch s', R q tr s → (consumption E).allows q o →
      exec s o ch = some (r, s') → R (q.next o r) (tr ++ [⟨o, r⟩]) s' := by
    rintro q tr s o r ch s' ⟨hback, hconf⟩ hallow hx
    refine ⟨hback.step hallow hx, fun key hmem => ?_⟩
    rcases List.mem_append.mp hmem with hmem | hmem
    · exact (exec_effect hx).confirmed_stays (hconf key hmem)
    · cases List.mem_singleton.mp hmem
      exact exec_confirm_ok hx (hback.present key (.inr (allows_execConfirm hallow)))
  obtain ⟨q, hobeys, hback, hconf⟩ := (consumer_obeys E (fun _ => False) body).steps R h
    ⟨.free hs, fun key hmem => by cases hmem⟩ hstep
  refine ⟨hback.ledger, fun mail hmail hp => ?_, hconf⟩
  subst hp
  obtain ⟨m, hm, hq⟩ := hobeys
  rw [hmail, Option.some.injEq] at hm
  rw [hm]
  exact hback.sent _ hq

/-- A confirmed key stays confirmed and does not reach the sender. -/
theorem handle_confirmed (h : (Consumer.handle E body).Steps exec s tr p s')
    (hs : s.ledger.mark key = .confirmed) :
    s'.ledger.mark key = .confirmed ∧ ¬ ReachesSender E key tr := by
  let R : Stage → Trace → State → Prop := fun q tr s =>
    s.ledger.mark key = .confirmed ∧ q ≠ .held key ∧ ¬ ReachesSender E key tr
  have hstep : ∀ q tr s o r ch s', R q tr s → (consumption E).allows q o →
      exec s o ch = some (r, s') → R (q.next o r) (tr ++ [⟨o, r⟩]) s' := by
    rintro q tr s o r ch s' ⟨hmark, hne, hno⟩ hallow hx
    refine ⟨(exec_effect hx).confirmed_stays hmark, fun hq => ?_, ?_⟩
    · obtain ⟨kind, id, heq⟩ := Stage.next_held hq
      cases heq
      exact (exec_reserve_some hx).1 hmark
    · rintro ⟨mail, r', hmem, hkey⟩
      rcases List.mem_append.mp hmem with hmem | hmem
      · exact hno ⟨mail, r', hmem, hkey⟩
      · cases List.mem_singleton.mp hmem
        exact hne (by rw [allows_send hallow, hkey])
  obtain ⟨q, _, hmark, _, hno⟩ := (consumer_obeys E (fun _ => False) body).steps R h
    ⟨hs, fun hq => (by cases hq), fun ⟨_, _, hmem, _⟩ => (by cases hmem)⟩ hstep
  exact ⟨hmark, hno⟩

/-- Whatever was handled before: the ledger is true, and what was sent and
confirmed is on it. -/
theorem Deliveries.ledger {s₀ : State} {hist : List Trace} (h : Deliveries E s₀ hist s)
    (h₀ : LedgerTrue E s₀) :
    LedgerTrue E s ∧ ∀ d ∈ hist, ∀ key, SentAndConfirmed E key d →
      s.ledger.mark key = .confirmed := by
  induction h with
  | nil => exact ⟨h₀, fun d hd => by cases hd⟩
  | handle _ hd ih =>
    obtain ⟨htrue, hconf⟩ := ih
    obtain ⟨htrue', _, hconf'⟩ := handle_backed hd htrue
    refine ⟨htrue', fun d hmem key hkey => ?_⟩
    rcases List.mem_append.mp hmem with hmem | hmem
    · exact (handle_confirmed hd (hconf d hmem key hkey)).1
    · rw [List.mem_singleton.mp hmem] at hkey
      exact hconf' key hkey.2
  | world _ hw ih =>
    obtain ⟨hledger, hsends, _⟩ := world_state hw
    obtain ⟨htrue, hconf⟩ := ih
    refine ⟨fun key hkey => ?_, fun d hd key hkey => ?_⟩
    · rw [hledger] at hkey
      exact (htrue key hkey).grows (fun x hx => by rw [hsends]; exact hx)
    · rw [hledger]
      exact hconf d hd key hkey

end Deliveries

/-- Redelivery neither loses nor repeats a mail. After any deliveries, and at
any point of the next one: a well-formed command has been acked only if a send
with its key has succeeded; where the reservation or the send failed, what is
left of the handler is to return a requeue; and a key that an earlier delivery
sent and confirmed has not been passed to the sender. -/
theorem redelivery_exact (E : Deps) (s₀ : State) (h₀ : LedgerTrue E s₀) (hist : List Trace)
    (s : State) (h : Deliveries E s₀ hist s) (body : Bytes) (tr : Trace) (p : P Action)
    (s' : State) (hd : (Consumer.handle E body).Steps exec s tr p s') :
    (∀ mail, (Delivery.command body).mail? E = some mail → p = .ret .ack →
        Sent E s' (mail.dedupKey E)) ∧
      (ReserveFailed tr ∨ SendFailed tr → p = .ret .requeue) ∧
      ∀ key, (∃ d ∈ hist, SentAndConfirmed E key d) → ¬ ReachesSender E key tr := by
  obtain ⟨htrue, hconf⟩ := h.ledger h₀
  refine ⟨(handle_backed hd htrue).2.1, handle_failed hd, ?_⟩
  rintro key ⟨d, hmem, hkey⟩
  exact (handle_confirmed hd (hconf d hmem key hkey)).2

/-- The mail of the sample release. -/
def sampleReleaseMail : Mail :=
  .release "a@b.c" "o/n" (some ⟨"v1", "First", "https://g/v1", "2026-01-01"⟩)

/-- The same command three times: the send fails, succeeds, is not repeated. -/
theorem redelivery_exact_sample :
    ∃ d₁ d₂ d₃ s₁ s₂ s₃, Deliveries sample .init [d₁, d₂, d₃] s₃ ∧
      SendFailed d₁ ∧ SentAndConfirmed sample (sampleReleaseMail.dedupKey sample) d₂ ∧
      (Consumer.handle sample (sampleEnvelope typeRelease sampleRelease)).Steps exec .init d₁
        (.ret .requeue) s₁ ∧
      Sent sample s₂ (sampleReleaseMail.dedupKey sample) ∧
      (Consumer.handle sample (sampleEnvelope typeRelease sampleRelease)).Steps exec s₂ d₃
        (.ret .ack) s₃ ∧
      ¬ ReachesSender sample (sampleReleaseMail.dedupKey sample) d₃ := by
  let key := sampleReleaseMail.dedupKey sample
  let handler := Consumer.handle sample (sampleEnvelope typeRelease sampleRelease)
  have hrun : (handler.follow exec [.ok, .ok, .fail (.io "smtp")] .init).any (fun x₁ =>
      decide (⟨.send sampleReleaseMail, .error (Fault.io "smtp").err⟩ ∈ x₁.1) &&
      (handler.follow exec [.ok, .ok, .ok, .ok, .ok] x₁.2.2).any (fun x₂ =>
        decide (⟨.send sampleReleaseMail, .ok ()⟩ ∈ x₂.1) &&
        decide (⟨.execConfirm key, .ok ()⟩ ∈ x₂.1) && decide (x₂.2.1.result? = some .ack) &&
        (handler.follow exec [.ok, .ok] x₂.2.2).any (fun x₃ =>
          decide (x₃.2.1.result? = some .ack)))) = true := by
    decide +kernel
  have hmail : (Delivery.command (sampleEnvelope typeRelease sampleRelease)).mail? sample
      = some sampleReleaseMail := by decide +kernel
  have htrue : LedgerTrue sample .init := fun key hkey => by cases hkey
  obtain ⟨⟨d₁, p₁, s₁⟩, h₁, hrest₁⟩ := (Option.any_eq_true _ _).mp hrun
  rw [Bool.and_eq_true] at hrest₁
  obtain ⟨⟨d₂, p₂, s₂⟩, h₂, hrest₂⟩ := (Option.any_eq_true _ _).mp hrest₁.2
  simp only [Bool.and_eq_true, decide_eq_true_eq] at hrest₂
  obtain ⟨⟨⟨hsend, hconf⟩, hack₂⟩, hrest₃⟩ := hrest₂
  obtain ⟨⟨d₃, p₃, s₃⟩, h₃, hack₃⟩ := (Option.any_eq_true _ _).mp hrest₃
  have hd₁ := Prog.Steps.of_follow h₁
  have hd₂ := Prog.Steps.of_follow h₂
  have hd₃ := Prog.Steps.of_follow h₃
  have hist₁ : Deliveries sample .init [d₁] s₁ := .handle .nil hd₁
  have hist₂ : Deliveries sample .init [d₁, d₂] s₂ := .handle hist₁ hd₂
  have hfail : SendFailed d₁ := ⟨_, _, of_decide_eq_true hrest₁.1⟩
  have hdone : SentAndConfirmed sample key d₂ := ⟨⟨_, hsend, rfl⟩, hconf⟩
  have hp₁ := (redelivery_exact sample .init htrue [] _ .nil _ _ _ _ hd₁).2.1 (.inr hfail)
  have hsent := (redelivery_exact sample .init htrue _ _ hist₁ _ _ _ _ hd₂).1 _ hmail
    (Prog.result?_eq_some.mp hack₂)
  have hno := (redelivery_exact sample .init htrue _ _ hist₂ _ _ _ _ hd₃).2.2 key
    ⟨d₂, by simp, hdone⟩
  have hp₃ := Prog.result?_eq_some.mp (of_decide_eq_true hack₃)
  subst hp₁ hp₃
  exact ⟨d₁, d₂, d₃, s₁, s₂, s₃, .handle hist₂ hd₃, hfail, hdone, hd₁, hsent, hd₃, hno⟩

end ReleaseNotifier.Notifier
