/-
Is `unsubscribed` a terminal status?

`Confirm` reads a row in one statement and writes `active` into it in another,
without asking for the status again. If the row is withdrawn in between, by
`Unsubscribe` or by a cancellation of the saga, the write brings it back. The
other writers are harmless: they write `unsubscribed` or leave the status alone.
So the one thing to exclude is a withdrawal that meets a `Confirm` between its
two statements, and then no row ever comes back.
-/
import ReleaseNotifier.Ready

set_option autoImplicit false

namespace ReleaseNotifier

open Conc

/-! ## The condition -/

/-- The row an operation withdraws. -/
def Op.withdraws? : Op → Option Nat
  | .stmtUpdateStatus _ .unsubscribed id => some id
  | _ => none

/-- The operation makes row `id` active. -/
def Activates (id : Nat) (_c : Call) : Op → Bool
  | .stmtUpdateStatus _ .active id' => decide (id' = id)
  | _ => false

/-- No row is withdrawn while a `Confirm` is about to make it active. -/
def WithdrawalsUndisturbed (p : Pool Op Op.Res State Call Ret) :
    Event Choice Call WorldEvent → Prop
  | .run i _ => ∀ x ∈ p.due? i, ∀ id ∈ x.2.withdraws?, p.NoneDue (Activates id)
  | _ => True

instance (p : Pool Op Op.Res State Call Ret) : DecidablePred (WithdrawalsUndisturbed p)
  | .run i _ => inferInstanceAs
      (Decidable (∀ x ∈ p.due? i, ∀ id ∈ x.2.withdraws?, p.NoneDue (Activates id)))
  | .call _ => isTrue trivial
  | .kill _ => isTrue trivial
  | .env _ => isTrue trivial

/-! ## The contract -/

/-- Row `id` is there and not unsubscribed. -/
def Live (id : Nat) (s : State) : Prop :=
  ∃ row, s.tables.byID id = some row ∧ row.status ≠ .unsubscribed

/-- The assertion in front of `Confirm`'s write. -/
def ActivatesLive (_c : Call) (s : State) (o : Op) : Prop :=
  ∀ origin id, o = .stmtUpdateStatus origin .active id → Live id s

/-- The contract of this file. -/
def terminalContract : Contract Op Op.Res State Call :=
  .ofAssertions (fun _ => True) ActivatesLive

theorem terminal_annotates (D : Deps) :
    Annotates (Recorded D) terminalContract ActivatesLive :=
  .ofAssertions (fun _ _ _ => trivial)

section Steps

variable {D : Deps} {c : Call} {s s' : State} {o : Op} {ch : Choice} {r : o.Res} {id : Nat}

/-- A live row stays live unless the operation withdraws it. -/
theorem Live.step (h : Live id s) (hk : Known D c o ch r s s') (hne : o.withdraws? ≠ some id) :
    Live id s' := by
  obtain ⟨row, hrow, hst⟩ := h
  obtain ⟨row', hrow', hchange⟩ := (exec_rows hk.exec).row hrow
  have hready := hk.ready
  refine ⟨row', hrow', ?_⟩
  cases hchange with
  | same eq => rw [eq]; exact hst
  | @status origin status eq =>
    rcases hready.status_written with hw | ⟨hw, _⟩
    · rw [hw] at hne
      exact absurd rfl hne
    · rw [eq, hw]
      simp
  | token _ eq => rw [eq]; exact hst

/-- An operation issued under its assertion leaves a withdrawn row withdrawn. -/
theorem unsubscribed_step (hk : Known D c o ch r s s') (ha : ActivatesLive c s o)
    {row : Subscription} (hrow : s.tables.byID id = some row) (hst : row.status = .unsubscribed) :
    ∃ row', s'.tables.byID id = some row' ∧ row'.status = .unsubscribed := by
  obtain ⟨row', hrow', hchange⟩ := (exec_rows hk.exec).row hrow
  have hready := hk.ready
  refine ⟨row', hrow', ?_⟩
  cases hchange with
  | same eq => rw [eq]; exact hst
  | @status origin status eq =>
    rcases hready.status_written with hw | ⟨hw, _⟩
    · rw [eq, hw]
    · -- `Confirm` writes into rows that are live
      subst hw
      obtain ⟨row₀, hrow₀, hlive⟩ := ha origin id rfl
      rw [hrow, Option.some.injEq] at hrow₀
      subst hrow₀
      exact absurd hst hlive
  | token _ eq => rw [eq]; exact hst

end Steps

/-! ## The programs -/

section Programs

variable {D : Deps} {c : Call} {s : State}

/-- `Confirm` writes only into a row it has just seen pending. -/
theorem confirm_terminal (token : String) :
    Safe (Recorded D) terminalContract c (fun _ _ => True) (confirm token) s := by
  -- the row that was read is still the row when the write is prepared
  have hget : Safe (Recorded D) terminalContract c
      (fun res b => ∀ sub, res = .ok sub → b.tables.byID sub.id = some sub)
      (Repo.getByToken token) s := by
    refine (terminal_annotates D).op (fun _ => True) (fun _ _ _ _ => trivial)
      (fun origin id h => by cases h) trivial ?_
    rintro a r b _ _ ⟨ch, hk⟩
    refine Safe.ret (fun sub hsub => ?_)
    obtain ⟨rfl, hfound⟩ := exec_getByToken hk.exec
    rcases r with e | _ | sub'
    · cases hsub
    · cases hsub
    · cases hsub
      exact (Tables.getByTokenQuery_some (hfound _ rfl).symm).1
  refine Safe.bind hget (fun res b hsub => ?_)
  cases res with
  | error err =>
    dsimp only
    split
    · exact Safe.ret trivial
    · exact Safe.ret trivial
  | ok sub =>
    have hrow := hsub sub rfl
    dsimp only
    split
    · exact Safe.ret trivial
    · split
      · exact Safe.ret trivial
      · next hpending =>
        refine (terminal_annotates D).op (fun _ => True) (fun _ _ _ _ => trivial) ?_ trivial
          (fun _ _ _ _ _ _ => Safe.ret trivial)
        intro origin id h
        cases h
        refine ⟨sub, hrow, ?_⟩
        have hst : sub.status = .pending := not_not.mp hpending
        rw [hst]
        simp

/-- Only `Confirm` makes a row active. -/
theorem program_terminal (D : Deps) (c : Call) (s : State) :
    Safe (Recorded D) terminalContract c (fun _ _ => True) (program D c) s := by
  -- no other call makes a row active
  have hother : (∀ token, c ≠ .confirm token) →
      Safe (Recorded D) terminalContract c (fun _ _ => True) (program D c) s := by
    intro hne
    refine (terminal_annotates D).any ?_ (fun _ _ => trivial)
    rintro o r a b ⟨ch, hk⟩ origin id rfl
    have hready := hk.ready
    rcases hready.status_written with h | ⟨_, token, _, hc⟩
    · cases h
    · exact absurd hc (hne token)
  cases c with
  | confirm token => exact Safe.bind (confirm_terminal token) (fun _ _ _ => Safe.ret trivial)
  | _ => exact hother (by simp)

end Programs

/-! ## Every run -/

/-- A step that changes no row disturbs nobody. -/
theorem terminal_stands {th : Thread Op Op.Res Call Ret} {s s' : State}
    (h : s'.tables = s.tables) : Stands terminalContract Anything th s s' := by
  refine ⟨fun o _ ha origin id ho => ?_, fun _ _ _ => trivial⟩
  obtain ⟨row, hrow, hst⟩ := ha origin id ho
  exact ⟨row, by rw [h]; exact hrow, hst⟩

/-- A withdrawal under a `Confirm` is excluded by the condition. -/
theorem terminal_respects (D : Deps) :
    Respects (monolith D) (fun p e => WithdrawalsUndisturbed p e ∧ MonolithSafe D p)
      (Recorded D) terminalContract Anything Anything := by
  refine ⟨fun _ _ _ _ _ => trivial, ?_, ?_, ?_, ?_⟩
  · intro p c s _ hp hent
    refine ⟨trivial, program_terminal D c s, fun _ _ _ => terminal_stands ?_⟩
    rw [(enter_eq hent).2]
  · rintro p i ch th o k r s ⟨_, hsafe⟩ _ hth hend hp hx
    exact ⟨ch, hsafe.known hth hend hp hx⟩
  · rintro p i ch th o k r s ⟨hcond, hsafe⟩ _ hth hend hp hx _ _ j th' _ hth'
    refine ⟨fun o' ho' ha origin id h => ?_, fun _ _ _ => trivial⟩
    subst h
    refine (ha origin id rfl).step (hsafe.known hth hend hp hx) (fun hw => ?_)
    -- the row is being withdrawn under a `Confirm`
    have hnone := hcond _ (Pool.due?_of_op hth hend hp) id hw
    have := hnone.pending hth' ho'
    simp [Activates] at this
  · intro p e s _ hp henv
    refine ⟨trivial, fun _ _ _ => terminal_stands ?_⟩
    rcases world_eq henv with ⟨d, rfl⟩ | rfl
    · rfl
    · rfl

theorem terminal_safe {D : Deps} {es : List (Event Choice Call WorldEvent)}
    {p : Pool Op Op.Res State Call Ret}
    (h : (monolith D).Run WithdrawalsUndisturbed monolithInit es p) :
    PoolSafe (Recorded D) terminalContract Anything Anything p := by
  have hinit : PoolSafe (Recorded D) terminalContract Anything Anything monolithInit :=
    ⟨trivial, fun i th hth => by simp [monolithInit] at hth⟩
  exact hinit.run (terminal_respects D) (run_safe h)

/-- One event of such a run leaves a withdrawn row withdrawn. -/
theorem unsubscribed_event {D : Deps} {p p' : Pool Op Op.Res State Call Ret}
    {e : Event Choice Call WorldEvent}
    (ht : PoolSafe (Recorded D) terminalContract Anything Anything p) (hsafe : MonolithSafe D p)
    (hs : (monolith D).step p e = some p') {id : Nat} {row : Subscription}
    (hrow : p.state.tables.byID id = some row) (hst : row.status = .unsubscribed) :
    ∃ row', p'.state.tables.byID id = some row' ∧ row'.status = .unsubscribed := by
  rcases step_cases hs with ⟨i, ch, th, o, k, r, _, hth, hend, hp, hx⟩ | hidle
  · have hk := hsafe.known hth hend hp hx
    obtain ⟨_, hann, _⟩ := ht.exec hth hend hp ⟨ch, hk⟩
    exact unsubscribed_step hk hann hrow hst
  · rw [hidle.tables]
    exact ⟨row, hrow, hst⟩

/-- In every run in which no row is withdrawn under a `Confirm`, a row that is
unsubscribed stays unsubscribed. -/
theorem unsubscribed_is_terminal (D : Deps) (es es' : List (Event Choice Call WorldEvent))
    (p p' : Pool Op Op.Res State Call Ret)
    (h : (monolith D).Run WithdrawalsUndisturbed monolithInit es p)
    (h' : (monolith D).Run WithdrawalsUndisturbed p es' p') (id : Nat) (row : Subscription)
    (hrow : p.state.tables.byID id = some row) (hst : row.status = .unsubscribed) :
    ∃ row', p'.state.tables.byID id = some row' ∧ row'.status = .unsubscribed := by
  induction h' with
  | nil => exact ⟨row, hrow, hst⟩
  | snoc hrun _ hs ih =>
    obtain ⟨row₁, hrow₁, hst₁⟩ := ih
    have hall := h.append hrun
    exact unsubscribed_event (terminal_safe hall) (monolith_safe hall) hs hrow₁ hst₁

/-- A row is confirmed and then unsubscribed; a late `Confirm` finds it so. -/
def confirmedThenLeft : List (Event Choice Call WorldEvent) :=
  sampleMailed ++ [.call (.confirm "t1"), .run 1 .ok, .run 1 .ok, .call (.unsubscribe "t1"),
    .run 2 .ok, .run 2 .ok]

/-- A late `Confirm` does not bring the row back. -/
theorem unsubscribed_is_terminal_sample :
    ∃ p p' row', (monolith sample).Run WithdrawalsUndisturbed monolithInit confirmedThenLeft p ∧
      (monolith sample).Run WithdrawalsUndisturbed p
        [.call (.confirm "t1"), .run 3 .ok, .call .reap, .run 4 .ok] p' ∧
      p'.state.tables.byID 1 = some row' ∧ row'.status = .unsubscribed := by
  have hrun : ((monolith sample).stepsWhere (fun p e => decide (WithdrawalsUndisturbed p e))
      monolithInit confirmedThenLeft).any (fun p =>
        (p.state.tables.byID 1).any (fun row => decide (row.status = .unsubscribed)) &&
        ((monolith sample).stepsWhere (fun p e => decide (WithdrawalsUndisturbed p e)) p
          [.call (.confirm "t1"), .run 3 .ok, .call .reap, .run 4 .ok]).isSome) = true := by
    decide
  obtain ⟨p, hp, hall⟩ := (Option.any_eq_true _ _).mp hrun
  rw [Bool.and_eq_true] at hall
  obtain ⟨row, hrow, hst⟩ := (Option.any_eq_true _ _).mp hall.1
  obtain ⟨p', hp'⟩ := Option.isSome_iff_exists.mp hall.2
  have h₁ := Machine.Run.of_stepsWhere (fun _ _ h => of_decide_eq_true h) hp
  have h₂ := Machine.Run.of_stepsWhere (fun _ _ h => of_decide_eq_true h) hp'
  obtain ⟨row', hrow', hst'⟩ := unsubscribed_is_terminal sample _ _ p p' h₁ h₂ 1 row hrow
    (of_decide_eq_true hst)
  exact ⟨p, p', row', h₁, h₂, hrow', hst'⟩

/-- `Confirm` has read the row; `Unsubscribe` runs from beginning to end. -/
def leftBeforeConfirmed : List (Event Choice Call WorldEvent) :=
  sampleMailed ++ [.call (.confirm "t1"), .run 1 .ok, .call (.unsubscribe "t1"), .run 2 .ok,
    .run 2 .ok]

/-- Then `Confirm`'s write brings the row back to active. -/
theorem unsubscribed_then_active :
    ∃ p p' row row', (monolith sample).steps monolithInit leftBeforeConfirmed = some p ∧
      p.state.tables.byID 1 = some row ∧ row.status = .unsubscribed ∧
      p.threads[2]?.map (fun th => th.prog.result?) = some (some (.error none)) ∧
      (monolith sample).steps p [.run 1 .ok] = some p' ∧
      p'.state.tables.byID 1 = some row' ∧ row'.status = .active := by
  have hrun : ((monolith sample).steps monolithInit leftBeforeConfirmed).any (fun p =>
      (p.state.tables.byID 1).any (fun row => decide (row.status = .unsubscribed)) &&
      decide (p.threads[2]?.map (fun th => th.prog.result?) = some (some (.error none))) &&
      ((monolith sample).steps p [.run 1 .ok]).any (fun p' =>
        (p'.state.tables.byID 1).any (fun row => decide (row.status = .active)))) = true := by
    decide
  obtain ⟨p, hp, hall⟩ := (Option.any_eq_true _ _).mp hrun
  simp only [Bool.and_eq_true, decide_eq_true_eq] at hall
  obtain ⟨⟨hrow, hret⟩, hrest⟩ := hall
  obtain ⟨row, hrow, hst⟩ := (Option.any_eq_true _ _).mp hrow
  obtain ⟨p', hp', hrow'⟩ := (Option.any_eq_true _ _).mp hrest
  obtain ⟨row', hrow', hst'⟩ := (Option.any_eq_true _ _).mp hrow'
  exact ⟨p, p', row, row', hp, hrow, of_decide_eq_true hst, hret, hp', hrow',
    of_decide_eq_true hst'⟩

end ReleaseNotifier
