/-
Does a token refresh only touch pending rows?

`reserveSubscription` looks at the status in one statement and writes the token
in another, and the compare-and-swap of `UpdateToken` guards the token only. A
`Confirm`, an `Unsubscribe` or a cancellation changes the status and leaves the
token alone, so it can come in between: the token of an active row is reissued,
or a saga is started for a row that is gone. A `Subscribe` *holds* a row from
its lookup to the creation of its saga; if no status is written to a row while
it is held, refreshes hit pending rows only and sagas start on pending rows
only.
-/
import ReleaseNotifier.Ready

set_option autoImplicit false

namespace ReleaseNotifier

open Conc

/-! ## The condition -/

/-- The call is a `Subscribe`. -/
def Call.subscribes : Call → Bool
  | .subscribe _ _ _ _ => true
  | _ => false

/-- A `Subscribe` that is about to issue this operation holds row `id`. -/
def HoldsRow (id : Nat) (c : Call) : Op → Bool
  | .stmtUpdateToken _ id' _ => decide (id' = id)
  | .sagaCreate _ data _ => c.subscribes && decide (data.subscriptionID = id)
  | _ => false

/-- The row whose status an operation writes. -/
def Op.statusWritten? : Op → Option Nat
  | .stmtUpdateStatus _ _ id => some id
  | _ => none

/-- No status is written to a row that a `Subscribe` holds. -/
def HeldRowsUndisturbed (p : Pool Op Op.Res State Call Ret) :
    Event Choice Call WorldEvent → Prop
  | .run i _ => ∀ x ∈ p.due? i, ∀ id ∈ x.2.statusWritten?, p.NoneDue (HoldsRow id)
  | _ => True

instance (p : Pool Op Op.Res State Call Ret) : DecidablePred (HeldRowsUndisturbed p)
  | .run i _ => inferInstanceAs
      (Decidable (∀ x ∈ p.due? i, ∀ id ∈ x.2.statusWritten?, p.NoneDue (HoldsRow id)))
  | .call _ => isTrue trivial
  | .kill _ => isTrue trivial
  | .env _ => isTrue trivial

/-! ## The contract -/

/-- Row `id` is there and pending. -/
def Pending (id : Nat) (s : State) : Prop :=
  ∃ row, s.tables.byID id = some row ∧ row.status = .pending

/-- The assertion in front of a refresh and in front of a saga. -/
def HoldsPending (c : Call) (s : State) : Op → Prop
  | .stmtUpdateToken _ id _ => Pending id s
  | .sagaCreate _ data _ => c.subscribes = true → Pending data.subscriptionID s
  | _ => True

/-- The contract of this file. -/
def refreshContract : Contract Op Op.Res State Call :=
  .ofAssertions (fun _ => True) HoldsPending

theorem refresh_annotates (D : Deps) : Annotates (Recorded D) refreshContract HoldsPending :=
  .ofAssertions (fun _ _ _ => trivial)

/-- A pending row stays pending unless the operation writes its status. -/
theorem Pending.step {D : Deps} {c : Call} {s s' : State} {o : Op} {ch : Choice} {r : o.Res}
    {id : Nat} (h : Pending id s) (hk : Known D c o ch r s s')
    (hne : o.statusWritten? ≠ some id) : Pending id s' := by
  obtain ⟨row, hrow, hst⟩ := h
  obtain ⟨row', hrow', hchange⟩ := (exec_rows hk.exec).row hrow
  refine ⟨row', hrow', ?_⟩
  cases hchange with
  | same eq => rw [eq]; exact hst
  | status eq => exact absurd rfl hne
  | token _ eq => rw [eq]; exact hst

theorem Pending.of_tables {id : Nat} {s s' : State} (h : Pending id s)
    (ht : s'.tables = s.tables) : Pending id s' := by
  obtain ⟨row, hrow, hst⟩ := h
  exact ⟨row, by rw [ht]; exact hrow, hst⟩

/-- An assertion stays true as long as the row it is about stays pending. -/
theorem HoldsPending.imp {c : Call} {s s' : State} {o : Op} (h : HoldsPending c s o)
    (hpend : ∀ id, HoldsRow id c o = true → Pending id s → Pending id s') :
    HoldsPending c s' o := by
  cases o with
  | stmtUpdateToken newToken id oldToken => exact hpend id (by simp [HoldsRow]) h
  | sagaCreate x data timeout =>
    intro hc
    exact hpend data.subscriptionID (by simp [HoldsRow, hc]) (h hc)
  | _ => trivial

/-! ## The programs -/

section Programs

variable {D : Deps} {c : Call} {s : State} {α : Type} {post : α → State → Prop}

/-- A `Subscribe` holds pending rows. -/
theorem refresh_reserving {k : Key} {draw : Except Fault String} :
    Reserving (Recorded D) refreshContract HoldsPending c k draw Pending Pending where
  annotates := refresh_annotates D
  executes := fun ⟨ch, hk⟩ => ⟨ch, hk.exec⟩
  lookup := fun _ => trivial
  upsert := fun _ => trivial
  create := fun _ _ _ => trivial
  refresh := fun _ hpend => hpend
  found := fun hrow _ hst => ⟨_, hrow, hst⟩
  held := fun hpend hrely => hrely hpend
  refreshed := fun _ hpend ⟨_, hk⟩ => hpend.step hk (by simp [Op.statusWritten?])
  created := by
    rintro token n a b _ ⟨ch, hk⟩
    rcases exec_create hk.exec with ⟨_, e, he⟩ | ⟨t, ht, rfl, hr | ⟨f, hr⟩⟩
    · cases he
    · cases hr
      exact ⟨a.tables.newRow k token .pending, by simp [(Tables.createQuery_ok ht).1], rfl⟩
    · cases hr

/-- Nothing is asked of an operation that neither refreshes a row nor starts a
saga. -/
theorem uses_refresh {F : Op → Prop} {p : P α} (hp : p.Uses F)
    (hF : ∀ o, F o → o.refreshes? = none ∧ ∀ x data timeout, o ≠ .sagaCreate x data timeout) :
    Safe (Recorded D) refreshContract c (fun _ _ => True) p s := by
  refine (refresh_annotates D).uses hp ?_ (fun _ _ => trivial)
  intro o r a b ho _
  cases o with
  | stmtUpdateToken => cases (hF _ ho).1
  | sagaCreate x data timeout => exact absurd rfl ((hF _ ho).2 x data timeout)
  | _ => trivial

/-- Once its saga is created a request refreshes nothing. -/
theorem follows_refresh {p : P α} (hp : p.Uses (fun o => o.follows = true)) :
    Safe (Recorded D) refreshContract c (fun _ _ => True) p s := by
  refine uses_refresh hp (fun o ho => ?_)
  cases o with
  | stmtUpdateToken => cases ho
  | sagaCreate => cases ho
  | _ => exact ⟨rfl, fun _ _ _ h => by cases h⟩

/-- The row of a saga is pending when the saga starts. -/
theorem startAndWait_refresh {ctx : Context} {data : SubscriptionData} {x : String}
    (hpend : c.subscribes = true → Pending data.subscriptionID s) :
    Safe (Recorded D) refreshContract c (fun _ _ => True) (startAndWait D ctx data x) s := by
  have hcreate : Safe (Recorded D) refreshContract c (fun _ _ => True)
      (SagaStore.create x data D.timeout) s :=
    (refresh_annotates D).op (fun _ => True) (fun _ _ _ _ => trivial) hpend trivial
      (fun _ _ _ _ _ _ => Safe.ret trivial)
  refine Safe.bind hcreate (fun res b _ => ?_)
  cases res with
  | some err =>
    refine uses_refresh (F := (· = .stmtUpdateStatus (.rollback data.token) .unsubscribed
      data.subscriptionID)) (Prog.Uses.bind (cancel_uses rfl) (fun _ => trivial)) ?_
    rintro o rfl
    exact ⟨rfl, fun _ _ _ h => by cases h⟩
  | none => exact follows_refresh registered_uses

theorem program_refresh (D : Deps) (c : Call) (s : State) :
    Safe (Recorded D) refreshContract c (fun _ _ => True) (program D c) s := by
  -- only `Subscribe` refreshes, and only its sagas are asked about
  have hother : c.subscribes = false →
      Safe (Recorded D) refreshContract c (fun _ _ => True) (program D c) s := by
    intro hne
    refine (refresh_annotates D).any ?_ (fun _ _ => trivial)
    rintro o r a b ⟨ch, hk⟩
    have hready := hk.ready
    cases o with
    | stmtUpdateToken newToken id oldToken =>
      cases c with
      | subscribe => cases hne
      | _ => cases hready.1
    | sagaCreate x data timeout =>
      intro hc
      rw [hne] at hc
      cases hc
    | _ => trivial
  cases c with
  | subscribe ctx rawEmail rawRepo draws =>
    refine Safe.bind (subscribe_rule (Q := fun _ => True) (refresh_annotates D)
      (fun _ _ _ => trivial) (fun _ _ _ => refresh_reserving) ?_) (fun _ _ _ => Safe.ret trivial)
    intro sub ref s hpend _
    exact (startAndWait_refresh (fun _ => hpend)).mono (fun _ _ _ _ => trivial)
  | _ => exact hother rfl

end Programs

/-! ## Every run -/

/-- A neighbour that would write to a held row is excluded by the condition. -/
theorem refresh_respects (D : Deps) :
    Respects (monolith D) (fun p e => HeldRowsUndisturbed p e ∧ MonolithSafe D p)
      (Recorded D) refreshContract Anything Anything := by
  have hquiet : ∀ {th : Thread Op Op.Res Call Ret} {s s' : State}, s'.tables = s.tables →
      Stands refreshContract Anything th s s' :=
    fun ht => ⟨fun _ _ ha => HoldsPending.imp ha (fun _ _ h => h.of_tables ht),
      fun _ _ _ => trivial⟩
  refine ⟨fun _ _ _ _ _ => trivial, ?_, ?_, ?_, ?_⟩
  · intro p c s _ hp hent
    refine ⟨trivial, program_refresh D c s, fun _ _ _ => hquiet ?_⟩
    rw [(enter_eq hent).2]
  · rintro p i ch th o k r s ⟨_, hsafe⟩ _ hth hend hp hx
    exact ⟨ch, hsafe.known hth hend hp hx⟩
  · rintro p i ch th o k r s ⟨hcond, hsafe⟩ _ hth hend hp hx _ _ j th' _ hth'
    refine ⟨fun o' ho' ha => HoldsPending.imp ha (fun id hholds hpend => ?_), fun _ _ _ => trivial⟩
    refine hpend.step (hsafe.known hth hend hp hx) (fun hw => ?_)
    -- a status is being written to a row that is held
    have hnone := hcond _ (Pool.due?_of_op hth hend hp) id hw
    rw [hnone.pending hth' ho'] at hholds
    cases hholds
  · intro p e s _ hp henv
    refine ⟨trivial, fun _ _ _ => hquiet ?_⟩
    rcases world_eq henv with ⟨d, rfl⟩ | rfl
    · rfl
    · rfl

/-- In every run in which no status is written to a row that a `Subscribe`
holds: wherever a token is refreshed the row is pending, and wherever a
`Subscribe` starts a saga the row of that saga is pending. -/
theorem refresh_touches_pending (D : Deps) (es : List (Event Choice Call WorldEvent))
    (p p' : Pool Op Op.Res State Call Ret)
    (h : (monolith D).Run HeldRowsUndisturbed monolithInit es p) (i : Nat) (ch : Choice)
    (hs : (monolith D).step p (.run i ch) = some p') (c : Call) (o : Op)
    (hdue : p.due? i = some (c, o)) :
    (∀ newToken id oldToken, o = .stmtUpdateToken newToken id oldToken →
      ∃ row, p.state.tables.byID id = some row ∧ row.status = .pending) ∧
    (∀ x data timeout, o = .sagaCreate x data timeout → c.subscribes = true →
      ∃ row, p.state.tables.byID data.subscriptionID = some row ∧ row.status = .pending) := by
  have hinit : PoolSafe (Recorded D) refreshContract Anything Anything monolithInit :=
    ⟨trivial, fun i th hth => by simp [monolithInit] at hth⟩
  have hrefresh := hinit.run (refresh_respects D) (run_safe h)
  obtain ⟨th, o', k, r, s, hth, hend, hp, hx, rfl⟩ := Machine.step_run _ hs
  rw [Pool.due?_of_op hth hend hp, Option.some.injEq, Prod.mk.injEq] at hdue
  obtain ⟨rfl, rfl⟩ := hdue
  obtain ⟨_, hann, _⟩ := hrefresh.exec hth hend hp ⟨ch, (monolith_safe h).known hth hend hp hx⟩
  refine ⟨?_, ?_⟩
  · rintro newToken id oldToken rfl
    exact hann
  · rintro x data timeout rfl hc
    exact hann hc

/-- The first request gives up and the second one has looked its row up. -/
def refreshDue : List (Event Choice Call WorldEvent) :=
  sampleMailed ++ [.run 0 .timeout, .run 0 .ok, .call sampleSubscribe₂, .run 1 (.answer true),
    .run 1 .ok]

/-- The second request is about to refresh the row of the first. -/
theorem refresh_touches_pending_sample :
    ∃ p row, (monolith sample).Run HeldRowsUndisturbed monolithInit refreshDue p ∧
      p.due? 1 = some (sampleSubscribe₂, .stmtUpdateToken "t2" 1 "t1") ∧
      p.state.tables.byID 1 = some row ∧ row.status = .pending := by
  have hrun : ((monolith sample).stepsWhere (fun p e => decide (HeldRowsUndisturbed p e))
      monolithInit refreshDue).any (fun p =>
        decide (p.due? 1 = some (sampleSubscribe₂, .stmtUpdateToken "t2" 1 "t1")) &&
        ((monolith sample).step p (.run 1 .ok)).isSome) = true := by
    decide
  obtain ⟨p, hp, hall⟩ := (Option.any_eq_true _ _).mp hrun
  simp only [Bool.and_eq_true, decide_eq_true_eq] at hall
  obtain ⟨p', hp'⟩ := Option.isSome_iff_exists.mp hall.2
  have h := Machine.Run.of_stepsWhere (fun _ _ h => of_decide_eq_true h) hp
  obtain ⟨row, hrow, hst⟩ :=
    (refresh_touches_pending sample refreshDue p p' h 1 .ok hp' _ _ hall.1).1 _ _ _ rfl
  exact ⟨p, row, h, hall.1, hrow, hst⟩

/-- The second request has looked the row up as pending; then the first one's
link is confirmed. -/
def confirmedUnderRefresh : List (Event Choice Call WorldEvent) :=
  sampleMailed ++ [.call sampleSubscribe₂, .run 1 (.answer true), .run 1 .ok,
    .call (.confirm "t1"), .run 2 .ok, .run 2 .ok]

/-- The refresh hits an active row and takes its token away, and the second
request goes on to start a saga. -/
theorem refresh_touches_active :
    ∃ p p' row row' data, (monolith sample).steps monolithInit confirmedUnderRefresh = some p ∧
      p.due? 1 = some (sampleSubscribe₂, .stmtUpdateToken "t2" 1 "t1") ∧
      p.state.tables.byID 1 = some row ∧ row.status = .active ∧ row.token = "t1" ∧
      (monolith sample).step p (.run 1 .ok) = some p' ∧
      p'.state.tables.byID 1 = some row' ∧ row'.status = .active ∧ row'.token = "t2" ∧
      p'.due? 1 = some (sampleSubscribe₂, .sagaCreate "s2" data 30) ∧ data.token = "t2" := by
  have hrun : ((monolith sample).steps monolithInit confirmedUnderRefresh).any (fun p =>
      decide (p.due? 1 = some (sampleSubscribe₂, .stmtUpdateToken "t2" 1 "t1")) &&
      decide (p.state.tables.byID 1 = some ⟨1, "a@b.c", "o", "n", "t1", .active⟩) &&
      ((monolith sample).step p (.run 1 .ok)).any (fun p' =>
        decide (p'.state.tables.byID 1 = some ⟨1, "a@b.c", "o", "n", "t2", .active⟩) &&
        decide (p'.due? 1 = some (sampleSubscribe₂, .sagaCreate "s2"
          ⟨"a@b.c", "o/n", "o", "n", "t2", "https://h/api/confirm/t2", 1⟩ 30)))) = true := by
    decide
  obtain ⟨p, hp, hall⟩ := (Option.any_eq_true _ _).mp hrun
  simp only [Bool.and_eq_true, decide_eq_true_eq] at hall
  obtain ⟨⟨hdue, hrow⟩, hrest⟩ := hall
  obtain ⟨p', hp', hall'⟩ := (Option.any_eq_true _ _).mp hrest
  simp only [Bool.and_eq_true, decide_eq_true_eq] at hall'
  exact ⟨p, p', _, _, _, hp, hdue, hrow, rfl, rfl, hp', hall'.1, rfl, rfl, hall'.2, rfl⟩

end ReleaseNotifier
