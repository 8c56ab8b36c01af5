/-
Which replies does `HandleReply` put back into the queue?

`messaging.Action` reserves `Requeue` for transient failures: what is put back
is delivered again, and a message that can never be handled must be dropped or
acked, or it circulates for ever. `HandleReply` also answers `Requeue` to
conditions that no retry removes. A `confirmation_failed` reply whose saga does
not exist ends in `ErrNotFound` of `Store.Get`, although the canceller one line
further on takes a missing row for success. A saga id with a NUL in it is text
that JSON can carry and that Postgres refuses as a parameter, and a `data`
column that does not decode stays as it is.

`handleReply_settles_iff` is exact: with no I/O error, a body is requeued if and
only if it is one of these. "No I/O error" leaves the refusals in place; they
are answers of a server that is well.
-/
import ReleaseNotifier.Reaper

set_option autoImplicit false

namespace ReleaseNotifier

open Conc

/-- The code Postgres gives to a text parameter with a NUL in it. -/
def pgCharacterNotInRepertoire : String := "22021"

/-- A text that cannot be a parameter of a statement. -/
def hasNUL (text : String) : Bool := text.toList.contains (Char.ofNat 0)

/-- The outcome of an operation when no call fails for a reason of I/O. The
rows of `undecodable` hold a `data` column that is no `SubscriptionData`. -/
def Op.served (undecodable : String → Bool) (s : State) : Op → Choice
  | .sagaCompleteIfAwaiting id => if hasNUL id then .fail (.server pgCharacterNotInRepertoire) else .ok
  | .sagaMarkCompensated id => if hasNUL id then .fail (.server pgCharacterNotInRepertoire) else .ok
  | .sagaClaimCompensation id =>
    if hasNUL id then .fail (.server pgCharacterNotInRepertoire)
    else if undecodable id ∧ (s.claimed id).isSome then .badData (.io "json: cannot unmarshal")
    else .ok
  | .sagaGet id =>
    if hasNUL id then .fail (.server pgCharacterNotInRepertoire)
    else if undecodable id ∧ (s.sagas.get id).isSome then .badData (.io "json: cannot unmarshal")
    else .ok
  | o => o.calmly

/-- What an operation does then. -/
def served (undecodable : String → Bool) (s : State) (o : Op) : Option (o.Res × State) :=
  exec s o (o.served undecodable s)

/-- The body is no reply that is bound to fail: the id of its saga can be looked
for, and the saga of a `confirmation_failed` is there and can be read. -/
def Settleable (D : Deps) (undecodable : String → Bool) (s : State) (body : Bytes) : Prop :=
  ∀ reply, D.json.reply.unmarshal body = .ok reply →
    (reply.type = replyConfirmationSent → hasNUL reply.sagaID = false) ∧
    (reply.type = replyConfirmationFailed → hasNUL reply.sagaID = false ∧
      (s.sagas.get reply.sagaID).isSome = true ∧ undecodable reply.sagaID = false)

section Runs

variable {undecodable : String → Bool} {s : State} {x : String}

/-- The operations that nothing but I/O can keep from succeeding. -/
def Op.smooth (undecodable : String → Bool) : Op → Bool
  | .sagaCompleteIfAwaiting id => !hasNUL id
  | .sagaMarkCompensated id => !hasNUL id
  | .sagaClaimCompensation id => !hasNUL id && !undecodable id
  | .sagaGet id => !hasNUL id && !undecodable id
  | _ => true

theorem served_eq (s : State) (o : Op) (h : o.smooth undecodable = true) :
    served undecodable s o = unfailing s o := by
  unfold served unfailing
  cases o with
  | sagaCompleteIfAwaiting id => simp_all [Op.smooth, Op.served, Op.calmly]
  | sagaMarkCompensated id => simp_all [Op.smooth, Op.served, Op.calmly]
  | sagaClaimCompensation id => simp_all [Op.smooth, Op.served, Op.calmly]
  | sagaGet id => simp_all [Op.smooth, Op.served, Op.calmly]
  | _ => rfl

theorem compensate_smooth (hnul : hasNUL x = false) (hdata : undecodable x = false) :
    (compensate x).Uses (fun o => o.smooth undecodable = true) :=
  compensate_uses (by simp [Op.smooth, hnul, hdata]) (by simp [Op.smooth, hnul, hdata])
    (fun _ _ => rfl) (by simp [Op.smooth, hnul])

theorem signalWaiter_run (s : State) (x : String) (state : SagaState) :
    ∃ s', (signalWaiter x state).run unfailing s = some ((), s') := by
  have hlook : unfailing s (.lookupWaiter x) = some (s.waiters x, s) := rfl
  unfold signalWaiter perform
  rw [Prog.perform_bind, Prog.run_op hlook]
  cases s.waiters x with
  | none => exact ⟨s, rfl⟩
  | some n => exact ⟨s.offer n state, rfl⟩

theorem signalWaiter_smooth (x : String) (state : SagaState) :
    (signalWaiter x state).Uses (fun o => o.smooth undecodable = true) :=
  signalWaiter_uses rfl (fun _ => rfl)

/-- The two obstacles that no retry removes. -/
theorem compensate_obstructed (s : State) (h : hasNUL x = true ∨ undecodable x = true) :
    ∃ err s', (compensate x).run (served undecodable) s = some (some err, s') := by
  rw [compensate, SagaStore.claimCompensation, statement, Prog.op_bind]
  by_cases hnul : hasNUL x = true
  · have hclaim : served undecodable s (.sagaClaimCompensation x)
        = some (.error (.pq pgCharacterNotInRepertoire ""), s) := by
      simp [served, Op.served, hnul, exec, attemptData, attempt, Fault.err]
    rw [Prog.run_op hclaim]
    exact ⟨_, _, rfl⟩
  · have hbad : undecodable x = true := h.resolve_left hnul
    cases hc : s.claimed x with
    | some data =>
      -- the claim takes effect before its row turns out to be unreadable
      have hclaim : served undecodable s (.sagaClaimCompensation x)
          = some (.ok (some (.error (.text "json: cannot unmarshal"))),
            s.moveSaga .compensating x .awaitingConfirmation) := by
        simp [served, Op.served, hnul, hbad, hc, exec, attemptData, Fault.err]
      rw [Prog.run_op hclaim]
      exact ⟨_, _, rfl⟩
    | none =>
      let s₁ := s.moveSaga .compensating x .awaitingConfirmation
      have hclaim : served undecodable s (.sagaClaimCompensation x) = some (.ok none, s₁) := by
        simp [served, Op.served, hnul, hbad, hc, exec, attemptData, attempt, s₁]
      rw [Prog.run_op hclaim]
      show ∃ err s', (SagaStore.get x >>= _).run (served undecodable) s₁ = some (some err, s')
      rw [SagaStore.get, statement, Prog.op_bind]
      cases hx : s₁.sagas.get x with
      | none =>
        have hget : served undecodable s₁ (.sagaGet x) = some (.ok none, s₁) := by
          simp [served, Op.served, hnul, hbad, hx, exec, attemptData, attempt]
        rw [Prog.run_op hget]
        exact ⟨_, _, rfl⟩
      | some inst =>
        have hget : served undecodable s₁ (.sagaGet x)
            = some (.ok (some (.error (.text "json: cannot unmarshal"))), s₁) := by
          simp [served, Op.served, hnul, hbad, hx, exec, attemptData, Fault.err]
        rw [Prog.run_op hget]
        exact ⟨_, _, rfl⟩

/-- With no I/O error `compensate` succeeds exactly for a saga that is there and
can be read. -/
theorem compensate_served (undecodable : String → Bool) (s : State) (x : String) :
    ∃ res s', (compensate x).run (served undecodable) s = some (res, s') ∧
      (res = none ↔ hasNUL x = false ∧ (s.sagas.get x).isSome = true ∧ undecodable x = false) := by
  by_cases h : hasNUL x = true ∨ undecodable x = true
  · obtain ⟨err, s', hrun⟩ := compensate_obstructed s h
    refine ⟨some err, s', hrun, by simp, fun ⟨hnul, _, hdata⟩ => ?_⟩
    rcases h with h | h
    · rw [hnul] at h; cases h
    · rw [hdata] at h; cases h
  · have hnul : hasNUL x = false := by simpa using fun hn => h (.inl hn)
    have hdata : undecodable x = false := by simpa using fun hn => h (.inr hn)
    have hrun := compensate_run_eq s x
    rw [← (compensate_smooth hnul hdata).run_eq served_eq s] at hrun
    refine ⟨_, s.compensated x, hrun, ?_⟩
    cases s.sagas.get x with
    | none => simp
    | some inst => simp [hnul, hdata]

/-- A completion is refused for an id with a NUL only; a saga that is missing or
past waiting is a duplicate. -/
theorem onConfirmationSent_served (undecodable : String → Bool) (s : State) (x : String) :
    ∃ a s', (onConfirmationSent x).run (served undecodable) s = some (a, s') ∧
      (a ≠ .requeue ↔ hasNUL x = false) := by
  rw [onConfirmationSent, SagaStore.completeIfAwaiting, statement, Prog.op_bind]
  by_cases hnul : hasNUL x = true
  · have hx : served undecodable s (.sagaCompleteIfAwaiting x)
        = some (.error (.pq pgCharacterNotInRepertoire ""), s) := by
      simp [served, Op.served, hnul, exec, attemptUpdate, attempt, Fault.err]
    rw [Prog.run_op hx]
    exact ⟨.requeue, s, rfl, by simp [hnul]⟩
  · let s₁ := s.moveSaga .completed x .awaitingConfirmation
    let n := s.sagas.hits x .awaitingConfirmation
    have hx : served undecodable s (.sagaCompleteIfAwaiting x) = some (.ok (.ok n), s₁) := by
      simp [served, Op.served, hnul, exec, attemptUpdate, attempt, Except.map, s₁, n]
    rw [Prog.run_op hx]
    obtain ⟨s', hsignal⟩ := signalWaiter_run s₁ x .completed
    rw [← (@signalWaiter_smooth undecodable x .completed).run_eq served_eq s₁]
      at hsignal
    by_cases hn : n = 1
    · refine ⟨.ack, s', ?_, by simp [hnul]⟩
      show (if decide (n = 1) = true then _ else _ : P Action).run (served undecodable) s₁ = _
      rw [if_pos (by simp [hn]), Prog.run_bind, hsignal]
      rfl
    · refine ⟨.ack, s₁, ?_, by simp [hnul]⟩
      show (if decide (n = 1) = true then _ else _ : P Action).run (served undecodable) s₁ = _
      rw [if_neg (by simp [hn])]
      rfl

theorem onConfirmationFailed_served (undecodable : String → Bool) (s : State) (x : String) :
    ∃ a s', (onConfirmationFailed x).run (served undecodable) s = some (a, s') ∧
      (a ≠ .requeue ↔
        hasNUL x = false ∧ (s.sagas.get x).isSome = true ∧ undecodable x = false) := by
  obtain ⟨res, s₁, hrun, hiff⟩ := compensate_served undecodable s x
  rw [onConfirmationFailed, Prog.run_bind, hrun, Option.bind_some, ← hiff]
  cases res with
  | some err => exact ⟨.requeue, s₁, rfl, by simp⟩
  | none =>
    obtain ⟨s', hsignal⟩ := signalWaiter_run s₁ x .failed
    rw [← (@signalWaiter_smooth undecodable x .failed).run_eq served_eq s₁]
      at hsignal
    refine ⟨.ack, s', ?_, by simp⟩
    show (signalWaiter x .failed >>= fun _ => (return .ack : P Action)).run _ s₁ = _
    rw [Prog.run_bind, hsignal]
    rfl

end Runs

/-- For every body and every state of the tables: when no call fails with an
I/O error, `HandleReply` returns, and it does not ask for a redelivery if and
only if the body is settleable. -/
theorem handleReply_settles_iff (D : Deps) (undecodable : String → Bool) (s : State)
    (body : Bytes) :
    ∃ a s', (handleReply D body).run (served undecodable) s = some (a, s') ∧
      (a ≠ .requeue ↔ Settleable D undecodable s body) := by
  have hkinds : replyConfirmationFailed ≠ replyConfirmationSent := by decide
  unfold handleReply
  cases hbody : D.json.reply.unmarshal body with
  | error f =>
    refine ⟨.drop, s, rfl, fun _ reply hreply => ?_, fun _ => by simp⟩
    rw [hbody] at hreply
    cases hreply
  | ok reply =>
    -- a body is read in one way only, so the condition is about this reply
    have hone : ∀ {p q : Reply → Prop}, (∀ r, D.json.reply.unmarshal body = .ok r → p r ∧ q r) ↔
        p reply ∧ q reply := by
      intro p q
      rw [hbody]
      simp
    dsimp only
    by_cases hsent : reply.type = replyConfirmationSent
    · rw [if_pos hsent]
      obtain ⟨a, s', hrun, hiff⟩ := onConfirmationSent_served undecodable s reply.sagaID
      refine ⟨a, s', hrun, ?_⟩
      rw [hiff, Settleable, hone]
      simp [hsent, hkinds.symm]
    · rw [if_neg hsent]
      by_cases hfailed : reply.type = replyConfirmationFailed
      · rw [if_pos hfailed]
        obtain ⟨a, s', hrun, hiff⟩ := onConfirmationFailed_served undecodable s reply.sagaID
        refine ⟨a, s', hrun, ?_⟩
        rw [hiff, Settleable, hone]
        simp [hfailed, hkinds]
      · rw [if_neg hfailed]
        refine ⟨.drop, s, rfl, ?_⟩
        rw [Settleable, hone]
        simp [hsent, hfailed]

/-- The reply to a saga that does not exist goes back to the queue and leaves
everything as it was, so it does so again with every delivery. -/
theorem unknown_saga_is_requeued :
    ((handleReply sample (sampleFailed "s1" "smtp")).run (served (fun _ => false)) .init).any
      (fun x => decide (x.1 = .requeue ∧ x.2.sagas.rows = [] ∧ x.2.tables.subscriptions = [] ∧
        x.2.chans = [])) = true := by
  decide

end ReleaseNotifier
