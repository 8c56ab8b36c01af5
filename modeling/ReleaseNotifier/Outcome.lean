/-
The outcome of a saga has a single winner.

The reply consumer, the reaper and the request that started a saga all write its
row, each with a conditional update, and may each fail or be restarted between
any two statements. Whatever they do, the row takes only edges of the life
cycle, a completed saga is never compensated, and a saga is failed only after a
cancellation of its subscription succeeded.
-/
import ReleaseNotifier.Ready

set_option autoImplicit false

namespace ReleaseNotifier

open Conc

variable {D : Deps} {p p' : Pool Op Op.Res State Call Ret}
variable {e : Event Choice Call WorldEvent} {es : List (Event Choice Call WorldEvent)}

/-- One event moves every saga along one edge at most, and creates it awaiting
its confirmation. -/
theorem step_saga_edge (h : (monolith D).step p e = some p') (x : String) :
    (∀ inst, p.state.sagas.get x = some inst → ∃ inst', p'.state.sagas.get x = some inst' ∧
      inst'.data = inst.data ∧ SagaState.Edge inst.state inst'.state) ∧
    (p.state.sagas.get x = none → ∀ inst', p'.state.sagas.get x = some inst' →
      inst'.state = .awaitingConfirmation) := by
  rcases step_cases h with ⟨i, ch, th, o, k, r, _, _, _, _, hx⟩ | hidle
  · refine ⟨fun inst hi => ?_, fun hnone inst' hi => ?_⟩
    · obtain ⟨inst', h₁, h₂, _, h₃⟩ := (exec_sagas hx).follows hi
      exact ⟨inst', h₁, h₂, h₃⟩
    · obtain ⟨_, _, haw, _⟩ := (exec_sagas hx).created hnone hi
      exact haw
  · -- no operation was executed, so the saga is as it was
    rw [hidle.sagas]
    refine ⟨fun inst hi => ⟨inst, hi, rfl, .stay _⟩, fun hnone inst' hi => ?_⟩
    rw [hnone] at hi
    cases hi

/-- No cancellation was ever issued for a completed saga. -/
theorem completed_not_cancelled {Cond : Pool Op Op.Res State Call Ret →
      Event Choice Call WorldEvent → Prop} (h : (monolith D).Run Cond monolithInit es p)
    {x : String} {inst : Instance} (hx : p.state.sagas.get x = some inst)
    (hst : inst.state = .completed) :
    ∀ w ∈ p.state.statusLog, ∀ token, w.origin ≠ .compensation x token := by
  rintro ⟨origin, id, status, ok⟩ hw token rfl
  obtain ⟨inst', hx', hu⟩ := (monolith_safe h).1.issued hw
  rw [hx, Option.some.injEq] at hx'
  subst hx'
  rw [hst] at hu
  rcases hu with hu | hu <;> cases hu

/-- In every run, whatever fails: sagas follow their life cycle, a completed
saga never had and never will have a cancellation issued on its behalf, and a
failed one had a cancellation that succeeded. -/
theorem saga_outcome_single_winner (D : Deps) (es : List (Event Choice Call WorldEvent))
    (p : Pool Op Op.Res State Call Ret) (h : (monolith D).steps monolithInit es = some p) :
    (∀ e p', (monolith D).step p e = some p' → ∀ x,
      (∀ inst, p.state.sagas.get x = some inst → ∃ inst', p'.state.sagas.get x = some inst' ∧
        inst'.data = inst.data ∧ SagaState.Edge inst.state inst'.state) ∧
      (p.state.sagas.get x = none → ∀ inst', p'.state.sagas.get x = some inst' →
        inst'.state = .awaitingConfirmation)) ∧
    (∀ x inst, p.state.sagas.get x = some inst → inst.state = .completed →
      ∀ es' p', (monolith D).steps p es' = some p' →
      ∀ w ∈ p'.state.statusLog, ∀ token, w.origin ≠ .compensation x token) ∧
    (∀ x inst, p.state.sagas.get x = some inst → inst.state = .failed →
      ∃ w ∈ p.state.statusLog, w.origin = .compensation x inst.data.token ∧
        w.id = inst.data.subscriptionID ∧ w.status = .unsubscribed ∧ w.succeeded = true) := by
  have hrun : (monolith D).Run Always monolithInit es p := .of_steps_any (fun _ _ => trivial) h
  refine ⟨fun e p' hs x => step_saga_edge hs x, ?_, ?_⟩
  · intro x inst hx hst es' p' h'
    have hrun' : (monolith D).Run Always p es' p' := .of_steps_any (fun _ _ => trivial) h'
    obtain ⟨inst', hx', _, _, hfol⟩ := (run_evolves hrun').sagas hx
    exact completed_not_cancelled (hrun.append hrun') hx' (hfol.completed hst)
  · intro x inst hx hst
    exact ⟨_, (monolith_safe hrun).1.undone hx hst, rfl, rfl, rfl, rfl⟩

/-- A publish fails, the claim reports an error although it took effect, and a
failure reply resumes the compensation. -/
def resumedCompensation : List (Event Choice Call WorldEvent) :=
  [.call (.startAndWait ⟨none⟩ sampleData₁ "s1"), .run 0 .ok, .run 0 .ok,
    .run 0 (.fail (.io "broker")), .run 0 (.failApplied (.io "conn")), .run 0 .ok,
    .call (.handleReply (sampleFailed "s1" "smtp")), .run 1 .ok, .run 1 .ok, .run 1 .ok, .run 1 .ok]

/-- A compensation that was cut off is finished by a reply. -/
theorem saga_outcome_single_winner_resumed :
    ∃ p inst, (monolith sample).steps monolithInit resumedCompensation = some p ∧
      p.state.sagas.get "s1" = some inst ∧ inst.state = .failed ∧
      ∃ w ∈ p.state.statusLog, w.origin = .compensation "s1" inst.data.token ∧
        w.id = inst.data.subscriptionID ∧ w.status = .unsubscribed ∧ w.succeeded = true := by
  have hrun : ((monolith sample).steps monolithInit resumedCompensation).any (fun p =>
      (p.state.sagas.get "s1").any (fun inst => inst.state = .failed)) = true := by decide
  obtain ⟨p, hp, hany⟩ := (Option.any_eq_true _ _).mp hrun
  obtain ⟨inst, hx, hst⟩ := (Option.any_eq_true _ _).mp hany
  have hst : inst.state = .failed := of_decide_eq_true hst
  exact ⟨p, inst, hp, hx, hst, (saga_outcome_single_winner sample _ p hp).2.2 "s1" inst hx hst⟩

end ReleaseNotifier
