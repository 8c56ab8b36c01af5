/-
The first event decides a saga.

A saga that waits can be brought to its end by a `confirmation_sent` reply, by a
`confirmation_failed` reply or by a `Reap`, and each of these may come again, in
any order and any number of times. The three have code of their own: one
conditional update, a claim that can be resumed, and a loop over ids that were
listed earlier. Handled one after the other without failures they agree on one
rule: the first settles the saga, and to those that follow it might as well not
exist.

A `Reap` is an event on a saga if it lists it, and it may list others, which it
goes on to compensate. "Might as well not exist" is meant in this sense too: a
later `Reap` does what it does without the saga in its list.
-/
import ReleaseNotifier.Backlog

set_option autoImplicit false

namespace ReleaseNotifier

open Conc

/-! ## Events -/

/-- What can happen to a saga. -/
inductive SagaEvent
  /-- a `confirmation_sent` reply is handled -/
  | sent (body : Bytes)
  /-- a `confirmation_failed` reply is handled -/
  | failed (body : Bytes)
  /-- a `Reap` goes on with the `ids` that its `ListTimedOut` has answered, now or before
  other events -/
  | reap (ids : List String)

/-- The event is one on saga `x`. -/
def SagaEvent.On (D : Deps) (x : String) : SagaEvent → Prop
  | .sent body => ∃ reply, D.json.reply.unmarshal body = .ok reply ∧
      reply.type = replyConfirmationSent ∧ reply.sagaID = x
  | .failed body => ∃ reply, D.json.reply.unmarshal body = .ok reply ∧
      reply.type = replyConfirmationFailed ∧ reply.sagaID = x
  -- a `Reap` is about all sagas that it lists
  | .reap ids => x ∈ ids

/-- The event is handled, and nothing fails. -/
def SagaEvent.handle (D : Deps) (s : State) : SagaEvent → Option State
  | .sent body => ((handleReply D body).run unfailing s).map Prod.snd
  | .failed body => ((handleReply D body).run unfailing s).map Prod.snd
  | .reap ids => ((reapLoop ids).run unfailing s).map Prod.snd

/-- Events handled one after the other. -/
def handleAll (D : Deps) (s : State) : List SagaEvent → Option State
  | [] => some s
  | e :: es => (e.handle D s).bind (fun s' => handleAll D s' es)

/-- The other sagas an event is about. -/
def SagaEvent.others (x : String) : SagaEvent → List String
  | .reap ids => ids.filter (fun y => decide (y ≠ x))
  | _ => []

/-- How many `Cancel` calls have been made for a saga. -/
def State.cancels (s : State) (x : String) : Nat :=
  s.statusLog.countP (fun w => match w.origin with
    | .compensation y _ => decide (y = x)
    | _ => false)

/-- An event on `x` that leaves both tables as they are; if it is about other
sagas too, it does to them what it would do without `x`. -/
structure LeavesAlone (x : String) (e : SagaEvent) (s s' : State) : Prop where
  unchanged : e.others x = [] → s'.sagas = s.sagas ∧ s'.tables = s.tables
  without : ∃ u, (reapLoop (e.others x)).run unfailing s = some ((), u) ∧
    s'.sagas = u.sagas ∧ s'.tables = u.tables

/-! ## One compensation, seen from a saga -/

section One

variable {s : State} {x y : String} {inst : Instance}

/-- A compensation is about its own saga. -/
theorem get_compensated_of_ne (hne : x ≠ y) : (s.compensated y).sagas.get x = s.sagas.get x := by
  rw [get_compensated]
  simp only [hne, false_and, if_false, Option.map_id']

theorem cancels_compensated_of_ne (hne : x ≠ y) : (s.compensated y).cancels x = s.cancels x := by
  cases hy : s.sagas.get y with
  | none => rw [compensated_of_none hy]
  | some inst =>
    cases hst : inst.state.settled with
    | true => rw [compensated_of_settled hy hst]
    | false =>
      rw [State.cancels, statusLog_compensated hy hst, List.countP_cons]
      simp only [hne.symm, decide_false, Bool.false_eq_true, if_false, Nat.add_zero]
      rfl

/-- It cancels once. -/
theorem cancels_compensated (hx : s.sagas.get x = some inst) (hst : inst.state.settled = false) :
    (s.compensated x).cancels x = s.cancels x + 1 := by
  rw [State.cancels, statusLog_compensated hx hst, List.countP_cons]
  simp only [decide_true, if_true]
  rfl

end One

/-! ## A whole list -/

section Fold

variable {s : State} {x : String} {inst : Instance}

variable {ids : List String}

/-- A saga that is not listed stays as it is. -/
theorem get_foldl_of_not_mem (h : x ∉ ids) (s : State) :
    (ids.foldl State.compensated s).sagas.get x = s.sagas.get x := by
  induction ids generalizing s with
  | nil => rfl
  | cons y ids ih =>
    rw [List.mem_cons, not_or] at h
    rw [List.foldl_cons, ih h.2, get_compensated_of_ne h.1]

theorem cancels_foldl_of_not_mem (h : x ∉ ids) (s : State) :
    (ids.foldl State.compensated s).cancels x = s.cancels x := by
  induction ids generalizing s with
  | nil => rfl
  | cons y ids ih =>
    rw [List.mem_cons, not_or] at h
    rw [List.foldl_cons, ih h.2, cancels_compensated_of_ne h.1]

/-- The loop does nothing to a row but withdraw it. -/
theorem map_withdrawn_foldl (ids : List String) (s : State) (id : Nat) :
    ((ids.foldl State.compensated s).tables.byID id).map Subscription.withdrawn
      = (s.tables.byID id).map Subscription.withdrawn := by
  induction ids generalizing s with
  | nil => rfl
  | cons y ids ih => rw [List.foldl_cons, ih, (keptOrWithdrawn_compensated s y id).map_eq]

/-- A row that is withdrawn stays so. -/
theorem byID_foldl_of_withdrawn {row : Option Subscription} {id : Nat}
    (h : s.tables.byID id = row.map Subscription.withdrawn) (ids : List String) :
    (ids.foldl State.compensated s).tables.byID id = row.map Subscription.withdrawn := by
  induction ids generalizing s with
  | nil => exact h
  | cons y ids ih =>
    exact ih ((keptOrWithdrawn_compensated s y id).stays h)

/-- A settled saga might as well not be in the list. -/
theorem foldl_of_settled (hx : s.sagas.get x = some inst) (hst : inst.state.settled = true)
    (ids : List String) :
    ids.foldl State.compensated s
      = (ids.filter (fun y => decide (y ≠ x))).foldl State.compensated s := by
  induction ids generalizing s with
  | nil => rfl
  | cons y ids ih =>
    by_cases hy : y = x
    · -- `compensate` reads a settled saga and leaves it
      rw [List.filter_cons_of_neg (by simp [hy]), List.foldl_cons, hy,
        compensated_of_settled hx hst, ih hx]
    · rw [List.filter_cons_of_pos (by simp [hy]), List.foldl_cons, List.foldl_cons]
      refine ih ?_
      rw [get_compensated_of_ne (Ne.symm hy)]
      exact hx

/-- A saga that waits is compensated once. -/
theorem foldl_of_mem (hx : s.sagas.get x = some inst) (hst : inst.state = .awaitingConfirmation)
    (hmem : x ∈ ids) :
    (ids.foldl State.compensated s).sagas.get x = some { inst with state := .failed } ∧
      (ids.foldl State.compensated s).cancels x = s.cancels x + 1 ∧
      (ids.foldl State.compensated s).tables.byID inst.data.subscriptionID
        = (s.tables.byID inst.data.subscriptionID).map Subscription.withdrawn := by
  have hopen : inst.state.settled = false := by rw [hst]; rfl
  -- up to its first occurrence nothing happens to it
  obtain ⟨front, back, rfl, hfront⟩ := List.eq_append_cons_of_mem hmem
  rw [List.foldl_append, List.foldl_cons]
  have hx₁ : (front.foldl State.compensated s).sagas.get x = some inst := by
    rw [get_foldl_of_not_mem hfront, hx]
  have hx₂ : ((front.foldl State.compensated s).compensated x).sagas.get x
      = some { inst with state := .failed } := by
    rw [get_compensated, hx₁]
    simp [hopen]
  -- behind it the saga is settled
  rw [foldl_of_settled hx₂ rfl]
  have hback : x ∉ back.filter (fun y => decide (y ≠ x)) := by simp
  refine ⟨?_, ?_, ?_⟩
  · rw [get_foldl_of_not_mem hback, hx₂]
  · rw [cancels_foldl_of_not_mem hback, cancels_compensated hx₁ hopen,
      cancels_foldl_of_not_mem hfront]
  · refine byID_foldl_of_withdrawn ?_ _
    rw [byID_compensated hx₁ hopen, if_pos rfl, map_withdrawn_foldl]

end Fold

/-! ## One event -/

/-- What the tables and the record of `Cancel` calls are; a waiter may have been
told. -/
def SameStores (s s' : State) : Prop :=
  s'.sagas = s.sagas ∧ s'.tables = s.tables ∧ s'.statusLog = s.statusLog

section Handle

variable {D : Deps} {s : State} {x : String} {inst : Instance} {body : Bytes}

/-- Telling the waiter changes no table. -/
theorem signalWaiter_sameStores (s : State) (x : String) (state : SagaState) :
    ∃ s', (signalWaiter x state).run unfailing s = some ((), s') ∧ SameStores s s' := by
  have hlook : unfailing s (.lookupWaiter x) = some (s.waiters x, s) := rfl
  unfold signalWaiter perform
  rw [Prog.perform_bind, Prog.run_op hlook]
  cases s.waiters x with
  | none => exact ⟨s, rfl, rfl, rfl, rfl⟩
  | some n =>
    refine ⟨s.offer n state, rfl, ?_⟩
    unfold State.offer
    split
    · split
      · exact ⟨rfl, rfl, rfl⟩
      · exact ⟨rfl, rfl, rfl⟩
    · exact ⟨rfl, rfl, rfl⟩

/-- A `confirmation_sent` reply completes the saga if it waits. -/
theorem handle_sent (hon : (SagaEvent.sent body).On D x) (s : State) :
    ∃ s', (SagaEvent.sent body).handle D s = some s' ∧
      SameStores (s.moveSaga .completed x .awaitingConfirmation) s' := by
  obtain ⟨reply, hbody, htype, hid⟩ := hon
  let s₁ := s.moveSaga .completed x .awaitingConfirmation
  let n := s.sagas.hits x .awaitingConfirmation
  have hx : unfailing s (.sagaCompleteIfAwaiting x) = some (.ok (.ok n), s₁) := rfl
  have hprog : handleReply D body = onConfirmationSent x := by
    rw [handleReply, hbody]
    simp only [htype, if_true, hid]
  obtain ⟨s', hsignal, hsame⟩ := signalWaiter_sameStores s₁ x .completed
  rw [SagaEvent.handle, hprog, onConfirmationSent, SagaStore.completeIfAwaiting, statement,
    Prog.op_bind, Prog.run_op hx]
  -- the waiter is told only if the update has hit the saga
  by_cases hn : n = 1
  · refine ⟨s', ?_, hsame⟩
    show ((if decide (n = 1) = true then _ else _ : P Action).run unfailing s₁).map Prod.snd = _
    rw [if_pos (by simp [hn]), Prog.run_bind, hsignal]
    rfl
  · refine ⟨s₁, ?_, rfl, rfl, rfl⟩
    show ((if decide (n = 1) = true then _ else _ : P Action).run unfailing s₁).map Prod.snd = _
    rw [if_neg (by simp [hn])]
    rfl

/-- A `confirmation_failed` reply compensates it. -/
theorem handle_failed (hon : (SagaEvent.failed body).On D x) (hx : s.sagas.get x = some inst) :
    ∃ s', (SagaEvent.failed body).handle D s = some s' ∧ SameStores (s.compensated x) s' := by
  obtain ⟨reply, hbody, htype, hid⟩ := hon
  have hkinds : replyConfirmationFailed ≠ replyConfirmationSent := by decide
  have hprog : handleReply D body = onConfirmationFailed x := by
    rw [handleReply, hbody]
    simp only [htype, if_neg hkinds, if_true, hid]
  obtain ⟨s', hsignal, hsame⟩ := signalWaiter_sameStores (s.compensated x) x .failed
  refine ⟨s', ?_, hsame⟩
  rw [SagaEvent.handle, hprog, onConfirmationFailed, Prog.run_bind, compensate_run_eq,
    Option.bind_some, hx]
  show ((signalWaiter x .failed >>= fun _ => (return .ack : P Action)).run unfailing _).map
    Prod.snd = _
  rw [Prog.run_bind, hsignal]
  rfl

/-- A `Reap` compensates what it lists. -/
theorem handle_reap (ids : List String) (s : State) :
    (SagaEvent.reap ids).handle D s = some (ids.foldl State.compensated s) := by
  rw [SagaEvent.handle, reapLoop_run_eq]
  rfl

/-- A whole `Reap` is such an event, with a batch that its query lists. -/
theorem handle_of_returns {s s' : State} (h : ReleaseNotifier.reap.Returns batching s () s') :
    ∃ ids, IsBatch s.sagas s.now reaperBatch ids ∧ (SagaEvent.reap ids).handle D s = some s' := by
  obtain ⟨ids, hbatch, rfl⟩ := reap_returns_iff.mp h
  exact ⟨ids, hbatch, handle_reap ids s⟩

/-! ## The first event, and those that follow -/

/-- How the first event settles the saga. -/
structure Verdict (x : String) (inst : Instance) (s s' : State) (outcome : SagaState) : Prop where
  saga : s'.sagas.get x = some { inst with state := outcome }
  completed : outcome = .completed → s'.cancels x = s.cancels x
  failed : outcome = .failed → s'.cancels x = s.cancels x + 1 ∧
    s'.tables.byID inst.data.subscriptionID
      = (s.tables.byID inst.data.subscriptionID).map Subscription.withdrawn

/-- What the event makes of a saga that waits. -/
def SagaEvent.outcome : SagaEvent → SagaState
  | .sent _ => .completed
  | _ => .failed

theorem SagaEvent.outcome_settled (e : SagaEvent) : e.outcome.settled = true := by
  cases e with
  | sent body => rfl
  | failed body => rfl
  | reap ids => rfl

variable {e : SagaEvent}

/-- **The first event decides** how the saga ends. -/
theorem handle_first (hon : e.On D x) (hx : s.sagas.get x = some inst)
    (hst : inst.state = .awaitingConfirmation) :
    ∃ s', e.handle D s = some s' ∧ Verdict x inst s s' e.outcome := by
  cases e with
  | sent body =>
    obtain ⟨s', hs', hsagas, htables, hlog⟩ := handle_sent hon s
    refine ⟨s', hs', ?_, fun _ => ?_, fun h => by cases h⟩
    · rw [hsagas, State.moveSaga, SagaTable.get_transition, hx]
      simp [hst, SagaEvent.outcome]
    · rw [State.cancels, hlog]
      rfl
  | failed body =>
    obtain ⟨s', hs', hsagas, htables, hlog⟩ := handle_failed hon hx
    have hopen : inst.state.settled = false := by rw [hst]; rfl
    refine ⟨s', hs', ?_, (fun h => by cases h), fun _ => ⟨?_, ?_⟩⟩
    · rw [hsagas, get_compensated, hx]
      simp [hopen, SagaEvent.outcome]
    · rw [← cancels_compensated hx hopen, State.cancels, hlog]
      rfl
    · rw [htables, byID_compensated hx hopen, if_pos rfl]
  | reap ids =>
    obtain ⟨hsaga, hcancels, hrow⟩ := foldl_of_mem hx hst hon
    exact ⟨_, handle_reap ids s, hsaga, (fun h => by cases h), fun _ => ⟨hcancels, hrow⟩⟩

/-- To a later event the saga might as well not exist. -/
theorem handle_later (hon : e.On D x) (hx : s.sagas.get x = some inst)
    (hst : inst.state.settled = true) :
    ∃ s', e.handle D s = some s' ∧ SameStores ((e.others x).foldl State.compensated s) s' := by
  cases e with
  | sent body =>
    obtain ⟨s', hs', hsame⟩ := handle_sent hon s
    have hstill : s.moveSaga .completed x .awaitingConfirmation = s := by
      refine State.moveSaga_of_ne (fun i h => ?_) _
      rw [hx] at h
      cases h
      intro hawait
      rw [hawait] at hst
      cases hst
    rw [hstill] at hsame
    exact ⟨s', hs', hsame⟩
  | failed body =>
    obtain ⟨s', hs', hsame⟩ := handle_failed hon hx
    rw [compensated_of_settled hx hst] at hsame
    exact ⟨s', hs', hsame⟩
  | reap ids =>
    have hfold : ids.foldl State.compensated s
        = ((SagaEvent.reap ids).others x).foldl State.compensated s :=
      foldl_of_settled hx hst ids
    refine ⟨_, handle_reap ids s, ?_⟩
    rw [hfold]
    exact ⟨rfl, rfl, rfl⟩

theorem not_mem_others (x : String) (e : SagaEvent) : x ∉ e.others x := by
  cases e with
  | sent body => exact List.not_mem_nil
  | failed body => exact List.not_mem_nil
  | reap ids => simp [SagaEvent.others]

/-- A later event finds the saga settled. -/
theorem SameStores.leavesAlone {s' : State}
    (h : SameStores ((e.others x).foldl State.compensated s) s') : LeavesAlone x e s s' := by
  obtain ⟨hsagas, htables, -⟩ := h
  refine ⟨fun hnone => ?_, _, reapLoop_run_eq _ s, hsagas, htables⟩
  rw [hnone] at hsagas htables
  exact ⟨hsagas, htables⟩

/-- A decision stands, whatever follows. -/
theorem Verdict.later {s₁ s₂ : State} {outcome : SagaState} (h : Verdict x inst s s₁ outcome)
    (hsame : SameStores ((e.others x).foldl State.compensated s₁) s₂) :
    Verdict x inst s s₂ outcome := by
  obtain ⟨hsagas, htables, hlog⟩ := hsame
  have hcancels : s₂.cancels x = s₁.cancels x := by
    rw [← cancels_foldl_of_not_mem (not_mem_others x e) s₁, State.cancels, hlog]
    rfl
  refine ⟨?_, fun ho => ?_, fun ho => ⟨?_, ?_⟩⟩
  · rw [hsagas, get_foldl_of_not_mem (not_mem_others x e), h.saga]
  · rw [hcancels, h.completed ho]
  · rw [hcancels, (h.failed ho).1]
  · rw [htables]
    exact byID_foldl_of_withdrawn (h.failed ho).2 _

end Handle

/-- The events that follow leave the saga alone, each of them. -/
theorem handleAll_later {D : Deps} {x : String} {inst : Instance} {s s₁ : State}
    {outcome : SagaState} (hsettled : outcome.settled = true) (hd : Verdict x inst s s₁ outcome)
    {es : List SagaEvent} (hon : ∀ e ∈ es, e.On D x) :
    ∃ s', handleAll D s₁ es = some s' ∧ Verdict x inst s s' outcome ∧
      ∀ before e after, es = before ++ e :: after →
        ∃ t t', handleAll D s₁ before = some t ∧ e.handle D t = some t' ∧ LeavesAlone x e t t' := by
  induction es generalizing s₁ with
  | nil =>
    refine ⟨s₁, rfl, hd, fun before e after hsplit => ?_⟩
    exact absurd hsplit.symm (by simp)
  | cons e es ih =>
    obtain ⟨s₂, hs₂, hsame⟩ := handle_later (hon e List.mem_cons_self) hd.saga hsettled
    obtain ⟨s', hs', hd', halone⟩ := ih (hd.later hsame)
      (fun e' he' => hon e' (List.mem_cons_of_mem _ he'))
    refine ⟨s', ?_, hd', fun before e' after hsplit => ?_⟩
    · rw [handleAll, hs₂]
      exact hs'
    · cases before with
      | nil =>
        obtain ⟨rfl, rfl⟩ := List.cons.inj hsplit
        exact ⟨s₁, s₂, rfl, hs₂, hsame.leavesAlone⟩
      | cons e₀ before =>
        obtain ⟨rfl, hrest⟩ := List.cons.inj hsplit
        obtain ⟨t, t', ht, ht', hleft⟩ := halone before e' after hrest
        refine ⟨t, t', ?_, ht', hleft⟩
        rw [handleAll, hs₂]
        exact ht

/-- **The first event decides.** For every state with a saga that waits and every
sequence of events on it: after a `confirmation_sent` first the saga ends
completed without a `Cancel`, otherwise it ends failed with its row withdrawn and
one `Cancel`; and every event after the first leaves the tables alone. -/
theorem first_event_decides (D : Deps) (s : State) (x : String) (inst : Instance)
    (hx : s.sagas.get x = some inst) (hst : inst.state = .awaitingConfirmation)
    (e : SagaEvent) (es : List SagaEvent) (hon : ∀ e' ∈ e :: es, e'.On D x) :
    ∃ s₁ s', e.handle D s = some s₁ ∧ handleAll D s₁ es = some s' ∧
      ((∃ body, e = .sent body) →
        s'.sagas.get x = some { inst with state := .completed } ∧ s'.cancels x = s.cancels x) ∧
      ((∀ body, e ≠ .sent body) →
        s'.sagas.get x = some { inst with state := .failed } ∧
          s'.tables.byID inst.data.subscriptionID
            = (s.tables.byID inst.data.subscriptionID).map Subscription.withdrawn ∧
          s'.cancels x = s.cancels x + 1) ∧
      ∀ before e' after, es = before ++ e' :: after →
        ∃ t t', handleAll D s₁ before = some t ∧ e'.handle D t = some t' ∧
          LeavesAlone x e' t t' := by
  obtain ⟨s₁, hs₁, hd⟩ := handle_first (hon e List.mem_cons_self) hx hst
  obtain ⟨s', hs', hd', halone⟩ := handleAll_later e.outcome_settled hd
    (fun e' he' => hon e' (List.mem_cons_of_mem _ he'))
  refine ⟨s₁, s', hs₁, hs', ?_, fun hnot => ?_, halone⟩
  · rintro ⟨body, rfl⟩
    exact ⟨hd'.saga, hd'.completed rfl⟩
  · have hfailed : e.outcome = .failed := by
      cases e with
      | sent body => exact absurd rfl (hnot body)
      | failed body => rfl
      | reap ids => rfl
    obtain ⟨hcancels, hrow⟩ := hd'.failed hfailed
    refine ⟨?_, hrow, hcancels⟩
    rw [hd'.saga, hfailed]

/-- A deadline passes, the reaper is first, and both replies follow: the saga is
failed and one `Cancel` has been made. -/
theorem first_event_decides_reaped :
    ∃ p s₁ s' inst, (monolith sample).steps monolithInit replyMissing = some p ∧
      (SagaEvent.reap (p.state.sagas.listTimedOut p.state.now reaperBatch)).handle sample p.state
        = some s₁ ∧
      handleAll sample s₁ [.sent (sampleSent "s1"), .failed (sampleFailed "s1" "smtp")] = some s' ∧
      s'.sagas.get "s1" = some inst ∧ inst.state = .failed ∧
      s'.cancels "s1" = p.state.cancels "s1" + 1 := by
  have hrun : ((monolith sample).steps monolithInit replyMissing).any (fun p =>
      (p.state.sagas.get "s1").any (fun i => decide (i.state = .awaitingConfirmation)) &&
      decide ("s1" ∈ p.state.sagas.listTimedOut p.state.now reaperBatch)) = true := by
    decide
  obtain ⟨p, hp, hall⟩ := (Option.any_eq_true _ _).mp hrun
  rw [Bool.and_eq_true] at hall
  obtain ⟨inst, hx, hst⟩ := (Option.any_eq_true _ _).mp hall.1
  have hlisted : "s1" ∈ p.state.sagas.listTimedOut p.state.now reaperBatch :=
    of_decide_eq_true hall.2
  have hon : ∀ e ∈ [SagaEvent.reap (p.state.sagas.listTimedOut p.state.now reaperBatch),
      .sent (sampleSent "s1"), .failed (sampleFailed "s1" "smtp")], e.On sample "s1" := by
    intro e he
    simp only [List.mem_cons, List.not_mem_nil, or_false] at he
    rcases he with rfl | rfl | rfl
    · exact hlisted
    · exact ⟨⟨"s1", replyConfirmationSent, "", []⟩, by decide, rfl, rfl⟩
    · exact ⟨⟨"s1", replyConfirmationFailed, "", sampleReason "smtp"⟩, by decide, rfl, rfl⟩
  obtain ⟨s₁, s', hs₁, hs', -, hfailed, -⟩ :=
    first_event_decides sample p.state "s1" inst hx (of_decide_eq_true hst) _ _ hon
  obtain ⟨hsaga, -, hcancels⟩ := hfailed (fun body h => by cases h)
  exact ⟨p, s₁, s', _, hp, hs₁, hs', hsaga, rfl, hcancels⟩

end ReleaseNotifier
