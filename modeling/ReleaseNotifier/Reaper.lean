/-
Which sagas does the reaper recover?

`compensate` can resume a saga that is stuck in `compensating`, but `Reap` never
gets to ask it: `ListTimedOut` selects `awaiting_confirmation` only. A failure
after the claim has been committed and before `MarkCompensated` therefore
strands the saga and, if `Cancel` had not happened yet, leaves its subscription
pending in the partial index for ever.

The result is exact: one `Reap` without failures finishes all overdue sagas if
and only if none of them is `compensating`. It is proved of every state, so in
particular of those that any history of failures can reach.
-/
import ReleaseNotifier.Compensation

set_option autoImplicit false

namespace ReleaseNotifier

open Conc

/-- A saga whose deadline has passed before it came to an end. -/
def Overdue (now : Nat) (inst : Instance) : Prop :=
  (inst.state = .awaitingConfirmation ∨ inst.state = .compensating) ∧ inst.timeoutAt < now

instance (now : Nat) (inst : Instance) : Decidable (Overdue now inst) :=
  inferInstanceAs (Decidable (_ ∧ _))

/-- Subscription `id` is unsubscribed or absent. -/
def Withdrawn (s : State) (id : Nat) : Prop :=
  ∀ row, s.tables.byID id = some row → row.status = .unsubscribed

/-! ## One `Reap` -/

/-- The ids that are listed are distinct. -/
theorem SagaTable.listTimedOut_nodup (t : SagaTable) (now limit : Nat) :
    (t.listTimedOut now limit).Nodup := by
  have hrows : t.rows.Pairwise (fun a b => a.id ≠ b.id) := by
    have := t.idsUnique
    rwa [List.Nodup, List.pairwise_map] at this
  rw [SagaTable.listTimedOut, List.Nodup, List.pairwise_map]
  refine List.Pairwise.sublist (List.take_sublist _ _) ?_
  refine (List.Perm.pairwise_iff (fun h => h.symm) (List.perm_insertionSort _ _)).mpr ?_
  exact hrows.sublist List.filter_sublist

/-- A subscription whose saga has been compensated is unsubscribed or absent. -/
theorem Reaped.isWithdrawn {s s' : State} {ids : List String} (h : Reaped s s' ids) {x : String}
    (hx : x ∈ ids) {inst : Instance} (hget : s.sagas.get x = some inst) :
    Withdrawn s' inst.data.subscriptionID := by
  intro row hrow
  rw [h.withdrawn x hx inst hget] at hrow
  obtain ⟨r, -, rfl⟩ := Option.map_eq_some_iff.mp hrow
  rfl

/-- `Reap` without failures: it compensates what it lists. -/
theorem reap_run (s : State) :
    ∃ s', reap.run unfailing s = some ((), s') ∧
      Reaped s s' (s.sagas.listTimedOut s.now reaperBatch) := by
  have hlist : unfailing s (.sagaListTimedOut reaperBatch)
      = some (.ok (s.sagas.listTimedOut s.now reaperBatch), s) := rfl
  have hawait : ∀ x ∈ s.sagas.listTimedOut s.now reaperBatch,
      ∃ inst, s.sagas.get x = some inst ∧ inst.state = .awaitingConfirmation := by
    intro x hx
    obtain ⟨inst, hget, hst, _⟩ := SagaTable.mem_listTimedOut hx
    exact ⟨inst, hget, hst⟩
  refine ⟨_, ?_, reaped_foldl (s.sagas.listTimedOut_nodup s.now reaperBatch) hawait⟩
  rw [reap, SagaStore.listTimedOut, statement, Prog.op_bind, Prog.run_op hlist]
  exact reapLoop_run_eq _ s

/-! ## Which sagas are recovered -/

/-- With at most a batch of overdue sagas, one `Reap` without failures leaves
every one of them failed with its subscription unsubscribed or absent, if and
only if none of them is compensating. -/
theorem reap_strands_none_iff (s : State)
    (hle : s.sagas.rows.countP (fun x => decide (Overdue s.now x)) ≤ reaperBatch) :
    ∃ s', reap.run unfailing s = some ((), s') ∧
      ((∀ x inst, s.sagas.get x = some inst → Overdue s.now inst →
          ∃ inst', s'.sagas.get x = some inst' ∧ inst'.state = .failed ∧
            Withdrawn s' inst.data.subscriptionID) ↔
        ∀ x inst, s.sagas.get x = some inst → Overdue s.now inst →
          inst.state ≠ .compensating) := by
  obtain ⟨s', hrun, hreaped⟩ := reap_run s
  refine ⟨s', hrun, fun hdone x inst hx hover hst => ?_, fun hnone x inst hx hover => ?_⟩
  · -- a compensating saga is not listed and stays compensating
    have hnot : x ∉ s.sagas.listTimedOut s.now reaperBatch := by
      intro hmem
      obtain ⟨i, hi, hist, _⟩ := SagaTable.mem_listTimedOut hmem
      rw [hx, Option.some.injEq] at hi
      rw [← hi, hst] at hist
      cases hist
    obtain ⟨inst', hx', hfailed, _⟩ := hdone x inst hx hover
    rw [hreaped.sagas.get_of_not_mem hnot, hx, Option.some.injEq] at hx'
    rw [← hx', hst] at hfailed
    cases hfailed
  · have hst : inst.state = .awaitingConfirmation := by
      rcases hover.1 with h | h
      · exact h
      · exact absurd h (hnone x inst hx hover)
    -- the listed ones are among the overdue ones, so the batch holds them all
    have hfew : s.sagas.rows.countP (fun x => decide (x.state = .awaitingConfirmation) &&
        decide (x.timeoutAt < s.now)) ≤ reaperBatch := by
      refine Nat.le_trans (List.countP_mono_left (fun i _ hi => ?_)) hle
      simp only [Bool.and_eq_true, decide_eq_true_eq] at hi
      exact decide_eq_true ⟨.inl hi.1, hi.2⟩
    have hmem := SagaTable.listTimedOut_of_le hfew hx hst hover.2
    refine ⟨{ inst with state := .failed }, ?_, rfl, hreaped.isWithdrawn hmem hx⟩
    rw [hreaped.sagas x, hx, Option.map_some, if_pos hmem]

/-- The first request's reply does not arrive; its deadline passes and it gives
up. -/
def replyMissing : List (Event Choice Call WorldEvent) :=
  sampleMailed ++ [.env (.tick 31), .run 0 .timeout, .run 0 .ok]

/-- A saga whose reply went missing is recovered. -/
theorem reap_strands_none_iff_awaiting :
    ∃ p s' inst, (monolith sample).steps monolithInit replyMissing = some p ∧
      reap.run unfailing p.state = some ((), s') ∧
      s'.sagas.get "s1" = some inst ∧ inst.state = .failed ∧ Withdrawn s' 1 := by
  have hrun : ((monolith sample).steps monolithInit replyMissing).any (fun p =>
      decide (p.state.sagas.rows.countP (fun x => decide (Overdue p.state.now x)) ≤ reaperBatch) &&
      p.state.sagas.rows.all (fun i => decide (i.state ≠ .compensating)) &&
      (p.state.sagas.get "s1").any (fun i => decide (Overdue p.state.now i) &&
        decide (i.data.subscriptionID = 1))) = true := by
    decide
  obtain ⟨p, hp, hall⟩ := (Option.any_eq_true _ _).mp hrun
  simp only [Bool.and_eq_true, decide_eq_true_eq] at hall
  obtain ⟨⟨hle, hnone⟩, hone⟩ := hall
  obtain ⟨inst, hx, hover⟩ := (Option.any_eq_true _ _).mp hone
  simp only [Bool.and_eq_true, decide_eq_true_eq] at hover
  obtain ⟨s', hreap, hiff⟩ := reap_strands_none_iff p.state hle
  obtain ⟨inst', hx', hst, hw⟩ := hiff.mpr (fun x i hi _ =>
    of_decide_eq_true (List.all_eq_true.mp hnone i (SagaTable.get_mem hi))) "s1" inst hx hover.1
  rw [hover.2] at hw
  exact ⟨p, s', inst', hp, hreap, hx', hst, hw⟩

/-- The reaper claims the saga, and the process dies before it cancels. -/
def diedAfterClaim : List (Event Choice Call WorldEvent) :=
  replyMissing ++ [.call .reap, .run 1 .ok, .run 1 (.answer false), .run 1 .ok, .kill 1,
    .env .restart]

/-- Nothing is in progress any more and one saga is overdue, but a `Reap`
without failures leaves it compensating and its subscription pending. -/
theorem reap_strands_compensating :
    ∃ p s' inst row, (monolith sample).steps monolithInit diedAfterClaim = some p ∧
      (∀ th ∈ p.threads, th.ended ≠ none) ∧
      p.state.sagas.rows.countP (fun x => decide (Overdue p.state.now x)) = 1 ∧
      reap.run unfailing p.state = some ((), s') ∧
      s'.sagas.get "s1" = some inst ∧ Overdue s'.now inst ∧ inst.state = .compensating ∧
      s'.tables.byID inst.data.subscriptionID = some row ∧ row.status = .pending := by
  have hrun : ((monolith sample).steps monolithInit diedAfterClaim).any (fun p =>
      decide (∀ th ∈ p.threads, th.ended ≠ none) &&
      decide (p.state.sagas.rows.countP (fun x => decide (Overdue p.state.now x)) = 1) &&
      (reap.run unfailing p.state).any (fun x =>
        decide (x.2.now = 31) &&
        decide (x.2.sagas.get "s1" = some ⟨"s1", .compensating, sampleData₁, 30⟩) &&
        decide (x.2.tables.byID 1 = some ⟨1, "a@b.c", "o", "n", "t1", .pending⟩))) = true := by
    decide
  obtain ⟨p, hp, hall⟩ := (Option.any_eq_true _ _).mp hrun
  simp only [Bool.and_eq_true, decide_eq_true_eq] at hall
  obtain ⟨⟨hended, hone⟩, hreap⟩ := hall
  obtain ⟨⟨u, s'⟩, hs', hlast⟩ := (Option.any_eq_true _ _).mp hreap
  simp only [Bool.and_eq_true, decide_eq_true_eq] at hlast
  obtain ⟨⟨hnow, hx⟩, hrow⟩ := hlast
  have hover : Overdue s'.now ⟨"s1", .compensating, sampleData₁, 30⟩ := by
    rw [hnow]
    decide
  exact ⟨p, s', _, _, hp, hended, hone, hs', hx, hover, rfl, hrow, rfl⟩

end ReleaseNotifier
