/-
Calls of the notifier that overlap.

An unconfirmed reservation is granted again, because the retry after a failed
send relies on it. So two calls with one key that overlap between reservation
and confirmation are both granted the key and both send, although nothing
failed. Where no reservation meets an unconfirmed row, the sender is invoked at
most once for each key, whatever fails.

The argument counts: a key's invocations so far, together with the calls that
are about to make one, are none before the key has a row and at most one after.
Only a reservation that is granted adds to the sum, and it gives the key a row.
-/
import ReleaseNotifier.Reservation
import Mathlib.Data.List.Count

set_option autoImplicit false

namespace ReleaseNotifier.Notifier

open Conc

/-- The call is about to ask the sender for a mail with this key. -/
def aboutToSend (E : Deps) (key : String) (th : Thread Op Op.Res Call Ret) : Bool :=
  match th.pending? with
  | some (.send mail) => decide (mail.dedupKey E = key)
  | _ => false

/-- How often the sender has been asked for a mail with this key. -/
def State.invocations (E : Deps) (s : State) (key : String) : Nat :=
  s.sends.countP (fun x => decide (x.mail.dedupKey E = key))

/-- The event is a reservation of a key whose row is there and unconfirmed. -/
def reservesUnconfirmed (p : Pool Op Op.Res State Call Ret) : Event Choice Call WorldEvent → Bool
  | .run i _ =>
    match p.due? i with
    | some (_, .queryReserve _ key) => decide (p.state.ledger.mark key = .reserved)
    | _ => false
  | _ => false

/-- A key without a row has not been sent and will not be, for now; any other
has been sent, or is about to be, at most once. -/
structure OneEach (E : Deps) (p : Pool Op Op.Res State Call Ret) : Prop where
  obeys : p.Obeys (reservation E (fun _ => True))
  bound : ∀ key, p.state.invocations E key + p.threads.countP (aboutToSend E key)
    ≤ if p.state.ledger.mark key = .absent then 0 else 1

section OneEach

variable {E : Deps} {key : String} {th : Thread Op Op.Res Call Ret}
variable {p p' : Pool Op Op.Res State Call Ret}

theorem aboutToSend_eq_true : aboutToSend E key th = true ↔
    ∃ mail, th.pending? = some (.send mail) ∧ mail.dedupKey E = key := by
  unfold aboutToSend
  split
  · next mail h => simp [h]
  · next h =>
    constructor
    · intro hfalse
      cases hfalse
    · rintro ⟨mail, hmail, _⟩
      exact absurd hmail (h mail)

/-- Whoever is about to send has just been granted the key. -/
theorem aboutToSend_resume {q : Stage} {o : Op} {r : o.Res} {n : Nat} {next : P Ret}
    (hobeys : next.Obeys (reservation E (fun _ => True)) (fun _ _ => True) (q.next o r))
    (h : aboutToSend E key (th.resume n next) = true) :
    ∃ kind id, (⟨o, r⟩ : (o : Op) × o.Res) = ⟨.queryReserve kind key, .ok (some id)⟩ := by
  obtain ⟨mail, hpend, rfl⟩ := aboutToSend_eq_true.mp h
  obtain ⟨_, k, hk⟩ := Thread.pending?_eq_some hpend
  rw [Thread.resume_prog] at hk
  rw [hk] at hobeys
  exact Stage.next_held (allows_send hobeys.1)

/-- One operation of a call, given what its answer does to those about to send. -/
theorem OneEach.run {q : Stage} {o : Op} {k : o.Res → P Ret} {r : o.Res} {s : State} {i : Nat}
    {ch : Choice} (hbound : p.state.invocations E key + p.threads.countP (aboutToSend E key)
      ≤ if p.state.ledger.mark key = .absent then 0 else 1)
    (hcond : reservesUnconfirmed p (.run i ch) = false) (hth : p.threads[i]? = some th)
    (hend : th.ended = none) (hp : th.prog = .op o k)
    (hobeys : th.prog.Obeys (reservation E (fun _ => True)) (fun _ _ => True) q)
    (hx : exec p.state o ch = some (r, s)) :
    s.invocations E key
        + (p.threads.set i (th.resume p.threads.length (k r))).countP (aboutToSend E key)
      ≤ if s.ledger.mark key = .absent then 0 else 1 := by
  have heff := exec_effect hx
  have hcount := countP_set_add (f := aboutToSend E key)
    (y := th.resume p.threads.length (k r)) hth
  have hpend := Thread.pending?_of_op hend hp
  rw [hp] at hobeys
  by_cases hnew : aboutToSend E key (th.resume p.threads.length (k r)) = true
  · -- just granted: the key had no row, so nobody has sent it or is about to
    obtain ⟨kind, id, heq⟩ := aboutToSend_resume (hobeys.2 r) hnew
    cases heq
    obtain ⟨hconf, hpresent⟩ := exec_reserve_some hx
    have hres : p.state.ledger.mark key ≠ .reserved := by
      simpa [reservesUnconfirmed, Pool.due?_of_op hth hend hp] using hcond
    have habsent : p.state.ledger.mark key = .absent := by
      cases hm : p.state.ledger.mark key with
      | absent => rfl
      | reserved => exact absurd hm hres
      | confirmed => exact absurd hm hconf
    have hsends : s.sends = p.state.sends := by
      rcases heff.sends_eq with hsame | ⟨mail, b, ho, _⟩
      · exact hsame
      · cases ho
    rw [if_pos habsent] at hbound
    rw [if_neg hpresent, State.invocations, hsends]
    rw [if_pos hnew] at hcount
    rw [State.invocations] at hbound
    omega
  · -- otherwise the sum does not grow: a send moves from the one count to the other
    refine Nat.le_trans ?_ (Nat.le_trans hbound ?_)
    · rw [if_neg hnew] at hcount
      rcases heff.sends_eq with hsame | ⟨mail, b, rfl, hsends⟩
      · rw [State.invocations, State.invocations, hsame]
        omega
      · have hth' : aboutToSend E key th = decide (mail.dedupKey E = key) := by
          simp only [aboutToSend, hpend]
        rw [hth'] at hcount
        rw [State.invocations, State.invocations, hsends, List.countP_cons]
        dsimp only
        omega
    · by_cases habsent : p.state.ledger.mark key = .absent
      · rw [if_pos habsent]
        exact Nat.zero_le _
      · rw [if_neg habsent, if_neg (heff.present habsent)]

theorem OneEach.step {e : Event Choice Call WorldEvent} (h : OneEach E p)
    (hcond : reservesUnconfirmed p e = false) (hs : (machine E).step p e = some p') :
    OneEach E p' := by
  refine ⟨h.obeys.step (program_obeys E) hs, fun key => ?_⟩
  have hbound := h.bound key
  cases e with
  | call c =>
    obtain ⟨s, hent, rfl⟩ := (machine E).step_call hs
    cases hent
    have hnew : aboutToSend E key ((machine E).start (p.threads.length + 1) c) = false := by
      -- nothing has been granted to a call that has just been made
      by_contra htrue
      rw [Bool.not_eq_false] at htrue
      obtain ⟨mail, hpend, _⟩ := aboutToSend_eq_true.mp htrue
      obtain ⟨_, k, hk⟩ := Thread.pending?_eq_some hpend
      have hobeys := program_obeys E c
      rw [show program E c = .op (.send mail) k from hk] at hobeys
      cases allows_send hobeys.1
    rw [List.countP_append, List.countP_singleton, hnew]
    exact hbound
  | run i ch =>
    obtain ⟨th, o, k, r, s, hth, hend, hp, hx, rfl⟩ := (machine E).step_run hs
    obtain ⟨q, hq⟩ := h.obeys i th hth
    exact OneEach.run hbound hcond hth hend hp hq hx
  | kill i =>
    obtain ⟨th, hth, _, rfl⟩ := (machine E).step_kill hs
    have hcount := countP_set_add (f := aboutToSend E key)
      (y := { th with ended := some p.threads.length }) hth
    have hdead : aboutToSend E key { th with ended := some p.threads.length } = false := rfl
    rw [hdead] at hcount
    refine Nat.le_trans ?_ hbound
    simp only [Bool.false_eq_true, if_false] at hcount
    show p.state.invocations E key + List.countP (aboutToSend E key) (p.threads.set i _) ≤ _
    omega
  | env w =>
    obtain ⟨s, henv, rfl⟩ := (machine E).step_env hs
    obtain ⟨hledger, hsends, _⟩ := world_state henv
    simp only [State.invocations, hledger, hsends]
    exact hbound

end OneEach

/-- The sender is invoked at most once for each key, from any ledger and with
any failures, in a run in which no reservation meets an unconfirmed row: as long
as everything succeeds, where no two calls with one key overlap between their
reservation and their confirmation. -/
theorem one_send_per_key (E : Deps) (p₀ : Pool Op Op.Res State Call Ret) (hcalls : p₀.threads = [])
    (hsends : p₀.state.sends = []) (es : List (Event Choice Call WorldEvent))
    (p : Pool Op Op.Res State Call Ret)
    (h : (machine E).Run (fun p e => reservesUnconfirmed p e = false) p₀ es p) (key : String) :
    p.state.sends.countP (fun x => decide (x.mail.dedupKey E = key)) ≤ 1 := by
  have hinit : OneEach E p₀ := by
    refine ⟨fun i th hth => ?_, fun key => ?_⟩
    · rw [hcalls] at hth
      cases hth
    · rw [State.invocations, hsends, hcalls]
      exact Nat.zero_le _
  have hend := (h.invariant hinit (fun _ _ _ hp hc hs => hp.step hc hs)).bound key
  refine Nat.le_trans (Nat.le_add_right _ _) (Nat.le_trans hend ?_)
  split
  · exact Nat.zero_le 1
  · exact Nat.le_refl 1

/-- A confirmation asked for over gRPC. -/
def sampleRequest : Call := .sendConfirmation ⟨"a@b.c", "https://h/api/confirm/t1", "o/n"⟩

/-- Two requests for one confirmation and one for a release. The second request
comes before the first one is done and reserves after it has been confirmed; the
release overlaps with both. -/
def takingTurns : List (Event Choice Call WorldEvent) :=
  [.call sampleRequest, .call sampleRequest, .call (.consume (sampleEnvelope typeRelease sampleRelease)),
    .run 0 .ok, .run 1 .ok, .run 0 .ok, .run 2 .ok, .run 2 .ok, .run 0 .ok, .run 2 .ok,
    .run 0 .ok, .run 0 .ok, .run 1 .ok, .run 2 .ok, .run 2 .ok]

/-- Two deliveries of one command that take turns send one mail. -/
theorem one_send_per_key_turns :
    ∃ p, (machine sample).Run (fun p e => reservesUnconfirmed p e = false) init takingTurns p ∧
      (∀ th ∈ p.threads, th.ended ≠ none) ∧ p.state.sends.length = 2 ∧
      ∀ key, p.state.sends.countP (fun x => decide (x.mail.dedupKey sample = key)) ≤ 1 := by
  have hrun : ((machine sample).stepsWhere (fun p e => !reservesUnconfirmed p e) init
      takingTurns).any (fun p => decide (∀ th ∈ p.threads, th.ended ≠ none) &&
        decide (p.state.sends.length = 2)) = true := by
    decide +kernel
  obtain ⟨p, hp, hall⟩ := (Option.any_eq_true _ _).mp hrun
  simp only [Bool.and_eq_true, decide_eq_true_eq] at hall
  have h : (machine sample).Run (fun p e => reservesUnconfirmed p e = false) init takingTurns p :=
    Machine.Run.of_stepsWhere (fun _ _ h => by simpa using h) hp
  exact ⟨p, h, hall.1, hall.2, one_send_per_key sample init rfl rfl _ p h⟩

/-- Two overlapping requests for one confirmation, with no failure anywhere. -/
def overlapping : List (Event Choice Call WorldEvent) :=
  [.call sampleRequest, .call sampleRequest, .run 0 .ok, .run 0 .ok, .run 1 .ok, .run 1 .ok,
    .run 0 .ok, .run 1 .ok, .run 0 .ok, .run 0 .ok, .run 1 .ok, .run 1 .ok]

/-- Both requests are granted the key, both report a delivery, and the mail goes
out twice. -/
theorem overlapping_requests_send_twice :
    ((machine sample).steps init overlapping).any (fun p =>
      p.threads.all (fun th => match th.prog.result? with
        | some (.delivered (.ok delivered)) => delivered
        | _ => false) &&
      decide (p.state.sends.countP (fun x => decide (x.mail.dedupKey sample
        = Mail.dedupKey sample (.confirmation ⟨"a@b.c", "https://h/api/confirm/t1", "o/n"⟩))) = 2))
      = true := by
  decide

end ReleaseNotifier.Notifier
