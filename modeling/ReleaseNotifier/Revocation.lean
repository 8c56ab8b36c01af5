/-
Does compensation ever revoke a confirmed subscription?

`Cancel` is documented as undoing the pending row, but its statement is
`UPDATE ... WHERE id = $2` and asks for no status. The user's click and the
participant's reply come on different ways, so a row can be active while its
saga is still awaiting, and the reaper then cancels an active row. The same
happens when the row becomes active between the claim and the cancellation, or
while a `Subscribe` on its way to a saga holds the row.

`ConfirmationsSettled` excludes these three, and a token refresh under a running
`Unsubscribe`. What is left is the documented life cycle: an active row is
withdrawn by `Unsubscribe` with that row's token and by nothing else. The
invariant that carries this says that an active row has no saga in flight.
-/
import ReleaseNotifier.Ready

set_option autoImplicit false

namespace ReleaseNotifier

open Conc

/-! ## The condition -/

/-- The row an operation makes active. -/
def Op.activates? : Op → Option Nat
  | .stmtUpdateStatus _ .active id => some id
  | _ => none

/-- A call about to issue this operation counts on row `id` not being active:
it is about to cancel the row, to refresh it or to start a saga for it. -/
def CountsOnInactive (id : Nat) (_c : Call) : Op → Bool
  | .stmtUpdateStatus (.compensation _ _) _ id' => decide (id' = id)
  | .stmtUpdateStatus (.rollback _) _ id' => decide (id' = id)
  | .stmtUpdateToken _ id' _ => decide (id' = id)
  | .sagaCreate _ data _ => decide (data.subscriptionID = id)
  | _ => false

/-- An `Unsubscribe` is about to withdraw row `id`. -/
def Unsubscribes (id : Nat) (_c : Call) : Op → Bool
  | .stmtUpdateStatus (.unsubscribe _) _ id' => decide (id' = id)
  | _ => false

/-- Every saga of row `id` has ended. -/
def SagasEnded (id : Nat) (s : State) : Prop :=
  ∀ inst ∈ s.sagas.rows, inst.data.subscriptionID = id →
    inst.state = .completed ∨ inst.state = .failed

instance (id : Nat) (s : State) : Decidable (SagasEnded id s) :=
  inferInstanceAs (Decidable (∀ inst ∈ s.sagas.rows, _ → _))

/-- A row becomes active only when its sagas have ended and no call counts on
its being inactive, and no token is refreshed under an `Unsubscribe`. Sagas are
started by `Subscribe` only. -/
def ConfirmationsSettled (p : Pool Op Op.Res State Call Ret) :
    Event Choice Call WorldEvent → Prop
  | .run i _ => ∀ x ∈ p.due? i,
      (∀ id ∈ x.2.activates?, SagasEnded id p.state ∧ p.NoneDue (CountsOnInactive id)) ∧
      (∀ id ∈ x.2.refreshes?, p.NoneDue (Unsubscribes id))
  | .call (.startAndWait _ _ _) => False
  | _ => True

instance (p : Pool Op Op.Res State Call Ret) : DecidablePred (ConfirmationsSettled p)
  | .run i _ => inferInstanceAs (Decidable (∀ x ∈ p.due? i,
      (∀ id ∈ x.2.activates?, SagasEnded id p.state ∧ p.NoneDue (CountsOnInactive id)) ∧
      (∀ id ∈ x.2.refreshes?, p.NoneDue (Unsubscribes id))))
  | .call (.startAndWait _ _ _) => isFalse id
  | .call (.subscribe _ _ _ _) => isTrue trivial
  | .call (.confirm _) => isTrue trivial
  | .call (.unsubscribe _) => isTrue trivial
  | .call (.handleReply _) => isTrue trivial
  | .call .reap => isTrue trivial
  | .kill _ => isTrue trivial
  | .env _ => isTrue trivial

/-! ## The contract -/

/-- Row `id` is not active. -/
def Inactive (id : Nat) (s : State) : Prop :=
  ∀ row, s.tables.byID id = some row → row.status ≠ .active

/-- The assertion in front of an operation. -/
def SparesActive (_c : Call) (s : State) : Op → Prop
  | .stmtUpdateStatus (.compensation _ _) _ id => Inactive id s
  | .stmtUpdateStatus (.rollback _) _ id => Inactive id s
  | .stmtUpdateStatus (.unsubscribe token) _ id => Carries id token s
  | .stmtUpdateToken _ id _ => Inactive id s
  | .sagaCreate _ data _ => Inactive data.subscriptionID s
  | _ => True

/-- An active row has no saga in flight. -/
def ActiveSettled (s : State) : Prop :=
  ∀ id row, s.tables.byID id = some row → row.status = .active → SagasEnded id s

/-- What is known of an operation under the condition. -/
def Settling (D : Deps) (c : Call) (o : Op) (r : o.Res) (s s' : State) : Prop :=
  ∃ ch, Known D c o ch r s s' ∧ ∀ id ∈ o.activates?, SagasEnded id s

/-- The contract of this file. -/
def revocationContract : Contract Op Op.Res State Call :=
  .ofAssertions ActiveSettled SparesActive

section Steps

variable {D : Deps} {c : Call} {s s' : State} {o : Op} {ch : Choice} {r : o.Res} {id : Nat}

/-- Ended sagas stay ended, and an operation starts none on a row on which it
counts to be inactive. -/
theorem SagasEnded.step (h : SagasEnded id s) (hk : Known D c o ch r s s')
    (hne : ∀ x data timeout, o = .sagaCreate x data timeout → data.subscriptionID ≠ id) :
    SagasEnded id s' := by
  intro inst' hmem hid
  have hget' := SagaTable.get_of_mem hmem
  have hstep := exec_sagas hk.exec
  cases hget : s.sagas.get inst'.id with
  | none =>
    obtain ⟨timeout, ho, _⟩ := hstep.created hget hget'
    exact absurd hid (hne _ _ _ ho)
  | some inst =>
    obtain ⟨i, hi, hdata, _, hedge⟩ := hstep.follows hget
    rw [hget', Option.some.injEq] at hi
    subst hi
    rw [hdata] at hid
    rcases h inst (SagaTable.get_mem hget) hid with hst | hst
    · exact .inl (hedge.follows.completed hst)
    · rw [hst] at hedge
      right
      generalize inst'.state = st at hedge
      cases hedge
      rfl

/-- A row that is not active does not become active, unless the operation makes
it so. -/
theorem Inactive.step (h : Inactive id s) (hk : Known D c o ch r s s')
    (hne : o.activates? ≠ some id) : Inactive id s' := by
  intro row' hrow' hact
  have hready := hk.ready
  cases hrow : s.tables.byID id with
  | none =>
    obtain ⟨k, token, status, rfl, _, rfl⟩ := (exec_rows hk.exec).created hrow hrow'
    have hst : status = .pending := hready.1
    rw [hst] at hact
    cases hact
  | some row =>
    obtain ⟨row₁, hrow₁, hchange⟩ := (exec_rows hk.exec).row hrow
    rw [hrow', Option.some.injEq] at hrow₁
    subst hrow₁
    cases hchange with
    | same eq => rw [eq] at hact; exact h row hrow hact
    | @status origin status eq =>
      rw [eq] at hact
      dsimp only at hact
      rw [hact] at hne
      exact hne rfl
    | token _ eq => rw [eq] at hact; exact h row hrow hact

/-- An operation issued under its assertion keeps the invariant. -/
theorem ActiveSettled.step (h : ActiveSettled s) (ha : SparesActive c s o)
    (hk : Known D c o ch r s s') (hset : ∀ id ∈ o.activates?, SagasEnded id s) :
    ActiveSettled s' := by
  intro id row' hrow' hact
  -- the row was active before, or is made active by this operation
  have hended : SagasEnded id s ∧
      ∀ x data timeout, o = .sagaCreate x data timeout → data.subscriptionID ≠ id := by
    by_cases hnew : o.activates? = some id
    · refine ⟨hset id hnew, ?_⟩
      rintro x data timeout rfl
      cases hnew
    · have hactive : ∃ row, s.tables.byID id = some row ∧ row.status = .active := by
        cases hrow : s.tables.byID id with
        | none =>
          have hin : Inactive id s := fun row hr => by rw [hrow] at hr; cases hr
          exact absurd hact (hin.step hk hnew row' hrow')
        | some row =>
          refine ⟨row, rfl, Classical.byContradiction (fun hne => ?_)⟩
          have hin : Inactive id s := by
            intro row₀ hr
            rw [hrow, Option.some.injEq] at hr
            subst hr
            exact hne
          exact hin.step hk hnew row' hrow' hact
      obtain ⟨row, hrow, hst⟩ := hactive
      refine ⟨h id row hrow hst, ?_⟩
      rintro x data timeout rfl rfl
      exact ha row hrow hst
  exact hended.1.step hk hended.2

/-- A saga in flight keeps its row from being active. -/
theorem ActiveSettled.inactive (h : ActiveSettled s) {x : String} {inst : Instance}
    (hx : s.sagas.get x = some inst) (hst : inst.state = .compensating) :
    Inactive inst.data.subscriptionID s := by
  intro row hrow hact
  rcases h _ row hrow hact inst (SagaTable.get_mem hx) rfl with h' | h'
  · rw [hst] at h'; cases h'
  · rw [hst] at h'; cases h'

end Steps

theorem revocation_annotates (D : Deps) :
    Annotates (Settling D) revocationContract SparesActive :=
  .ofAssertions (fun hi ha ⟨_, hk, hset⟩ => ActiveSettled.step hi ha hk hset)

/-! ## The programs -/

section Programs

variable {D : Deps} {c : Call} {s : State} {α : Type} {post : α → State → Prop}

/-- An operation that needs no assertion. -/
theorem revocation_op {o : Op} {k : o.Res → P α} (ho : ∀ c s, SparesActive c s o)
    (hstep : ∀ a r b ch, ActiveSettled b → Known D c o ch r a b →
      Safe (Settling D) revocationContract c post (k r) b) :
    Safe (Settling D) revocationContract c post (.op o k) s := by
  refine (revocation_annotates D).op (fun _ => True) (fun _ _ _ _ => trivial) (ho c s) trivial ?_
  rintro a r b hinv _ ⟨ch, hk, hset⟩
  exact hstep a r b ch (ActiveSettled.step hinv (ho c a) hk hset) hk

/-- A cancellation of a row that is not active. -/
theorem cancel_revocation {origin : Origin} {id : Nat}
    (ha : SparesActive c s (.stmtUpdateStatus origin .unsubscribed id)) :
    Safe (Settling D) revocationContract c (fun _ _ => True) (cancel origin id) s := by
  have hstmt : Safe (Settling D) revocationContract c (fun _ _ => True)
      (Repo.updateStatus origin id .unsubscribed) s :=
    (revocation_annotates D).op (fun _ => True) (fun _ _ _ _ => trivial) ha trivial
      (fun _ _ _ _ _ _ => Safe.ret trivial)
  refine Safe.bind hstmt (fun res b _ => ?_)
  cases res with
  | none => exact Safe.ret trivial
  | some err =>
    dsimp only
    split
    · exact Safe.ret trivial
    · exact Safe.ret trivial

theorem cancelAndMark_revocation {x : String} {data : SubscriptionData}
    (hin : Inactive data.subscriptionID s) :
    Safe (Settling D) revocationContract c (fun _ _ => True) (cancelAndMark x data) s := by
  have ha : SparesActive c s
      (.stmtUpdateStatus (.compensation x data.token) .unsubscribed data.subscriptionID) := hin
  refine Safe.bind (cancel_revocation ha) (fun res b _ => ?_)
  cases res with
  | some err => exact Safe.ret trivial
  | none => exact revocation_op (fun _ _ => trivial) (fun _ _ _ _ _ _ => Safe.ret trivial)

/-- `compensate` cancels for a saga that it has seen compensating, and then the
row is not active. -/
theorem compensate_revocation (x : String) :
    Safe (Settling D) revocationContract c (fun _ _ => True) (compensate x) s := by
  -- the claim and the later read each give the data of a compensating saga
  have hclaim : Safe (Settling D) revocationContract c
      (fun res b => ∀ data, res = .ok (some data) → Inactive data.subscriptionID b)
      (SagaStore.claimCompensation x) s := by
    refine revocation_op (fun _ _ => trivial) (fun a r b ch hinv hk => Safe.ret ?_)
    intro data hres
    rcases exec_claim hk.exec with ⟨_, e, rfl⟩ | ⟨rfl, _, hdata⟩
    · cases hres
    · rcases r with e | _ | e | d
      · cases hres
      · cases hres
      · cases hres
      · cases hres
        obtain ⟨inst, hx, rfl, hst⟩ := claimed_saga (hdata data rfl)
        exact hinv.inactive hx hst
  refine Safe.bind hclaim (fun res b hin => ?_)
  cases res with
  | error e => exact Safe.ret trivial
  | ok claimed =>
    cases claimed with
    | some data => exact cancelAndMark_revocation (hin data rfl)
    | none =>
      have hget : Safe (Settling D) revocationContract c
          (fun res b => ∀ inst, res = .ok inst → inst.state = .compensating →
            Inactive inst.data.subscriptionID b)
          (SagaStore.get x) b := by
        refine revocation_op (fun _ _ => trivial) (fun a r b ch hinv hk => Safe.ret ?_)
        intro inst hres hst
        obtain ⟨rfl, hfound⟩ := exec_sagaGet hk.exec
        rcases r with e | _ | e | i
        · cases hres
        · cases hres
        · cases hres
        · cases hres
          exact hinv.inactive (hfound _ rfl) hst
      refine Safe.bind hget (fun res b hin => ?_)
      cases res with
      | error e => exact Safe.ret trivial
      | ok inst =>
        dsimp only
        -- a lost claim is resumed only if somebody left the saga compensating
        by_cases hst : inst.state = .compensating
        · rw [if_neg (fun h => h hst)]
          exact cancelAndMark_revocation (hin inst rfl hst)
        · rw [if_pos hst]
          exact Safe.ret trivial

theorem signalWaiter_revocation (x : String) (state : SagaState) :
    Safe (Settling D) revocationContract c (fun _ _ => True) (signalWaiter x state) s :=
  (revocation_annotates D).free (signalWaiter_uses (fun _ => trivial) (fun _ _ => trivial))

/-- A reply cancels only through `compensate`. -/
theorem handleReply_revocation (body : Bytes) :
    Safe (Settling D) revocationContract c (fun _ _ => True) (handleReply D body) s := by
  unfold handleReply
  split
  · exact Safe.ret trivial
  · next reply _ =>
    split
    · have hstmt : Safe (Settling D) revocationContract c (fun _ _ => True)
          (SagaStore.completeIfAwaiting reply.sagaID) s :=
        (revocation_annotates D).free (statement_uses (fun _ => trivial))
      refine Safe.bind hstmt (fun res b _ => ?_)
      cases res with
      | error e => exact Safe.ret trivial
      | ok transitioned =>
        cases transitioned with
        | false => exact Safe.ret trivial
        | true =>
          exact Safe.bind (signalWaiter_revocation _ _) (fun _ _ _ => Safe.ret trivial)
    · split
      · refine Safe.bind (compensate_revocation _) (fun res b _ => ?_)
        cases res with
        | some err => exact Safe.ret trivial
        | none => exact Safe.bind (signalWaiter_revocation _ _) (fun _ _ _ => Safe.ret trivial)
      · exact Safe.ret trivial

theorem reap_revocation : Safe (Settling D) revocationContract c (fun _ _ => True) reap s := by
  have hloop : ∀ ids s, Safe (Settling D) revocationContract c (fun _ _ => True)
      (reapLoop ids) s := by
    intro ids
    induction ids with
    | nil => exact fun _ => Safe.ret trivial
    | cons id ids ih =>
      intro s
      refine revocation_op (fun _ _ => trivial) (fun a done b _ _ _ => ?_)
      cases done with
      | true => exact Safe.ret trivial
      | false =>
        show Safe _ _ _ _ (compensate id >>= fun _ => reapLoop ids) _
        exact Safe.bind (compensate_revocation id) (fun _ b _ => ih b)
  refine revocation_op (fun _ _ => trivial) (fun a r b _ _ _ => ?_)
  cases r with
  | error e => exact Safe.ret trivial
  | ok ids => exact hloop ids b

/-! ### `Subscribe` -/

/-- A failed start withdraws a row that was never active. -/
theorem startAndWait_revocation {ctx : Context} {data : SubscriptionData} {x : String}
    (hin : Inactive data.subscriptionID s) :
    Safe (Settling D) revocationContract c (fun _ _ => True) (startAndWait D ctx data x) s := by
  have hcreate : Safe (Settling D) revocationContract c
      (fun _ b => Inactive data.subscriptionID b) (SagaStore.create x data D.timeout) s := by
    refine (revocation_annotates D).op (Inactive data.subscriptionID)
      (fun a b hq hrely => hrely hq) hin hin ?_
    rintro a r b _ hq ⟨ch, hk, _⟩
    exact Safe.ret (hq.step hk (by simp [Op.activates?]))
  refine Safe.bind hcreate (fun res b hin => ?_)
  cases res with
  | some err =>
    -- `cancelQuietly` hits the row that was reserved, which is not active
    have ha : SparesActive c b
        (.stmtUpdateStatus (.rollback data.token) .unsubscribed data.subscriptionID) := hin
    exact Safe.bind (cancel_revocation ha) (fun _ _ _ => Safe.ret trivial)
  | none =>
    refine revocation_op (fun _ _ => trivial) (fun a n b _ _ _ => ?_)
    have hpub : Safe (Settling D) revocationContract c (fun _ _ => True)
        (publishConfirmation D ctx x data) b :=
      (revocation_annotates D).free (publishConfirmation_uses (fun _ _ => trivial))
    have hwait : Safe (Settling D) revocationContract c (fun _ _ => True)
        (dispatchAndWait D ctx data x n) b := by
      refine Safe.bind hpub (fun res b _ => ?_)
      cases res with
      | some err => exact Safe.bind (compensate_revocation x) (fun _ _ _ => Safe.ret trivial)
      | none =>
        refine revocation_op (fun _ _ => trivial) (fun a r b _ _ _ => ?_)
        cases r with
        | received final =>
          show Safe _ _ _ _ (if final = .completed then _ else _) _
          split
          · exact Safe.ret trivial
          · exact Safe.ret trivial
        | timeout => exact Safe.ret trivial
        | done e => exact Safe.ret trivial
    show Safe _ _ _ _ (dispatchAndWait D ctx data x n >>= fun res =>
      unregisterWaiter x >>= fun _ => pure res) _
    refine Safe.bind hwait (fun res b _ => ?_)
    exact revocation_op (fun _ _ => trivial) (fun _ _ _ _ _ _ => Safe.ret trivial)

/-- A `Subscribe` holds rows that are not active. -/
theorem revocation_reserving {k : Key} {draw : Except Fault String} :
    Reserving (Settling D) revocationContract SparesActive c k draw Inactive Inactive where
  annotates := revocation_annotates D
  executes := fun ⟨ch, hk, _⟩ => ⟨ch, hk.exec⟩
  lookup := fun _ => trivial
  upsert := fun _ => trivial
  create := fun _ _ _ => trivial
  refresh := fun _ hin => hin
  found := by
    intro s sub hsub _ hst row hrow
    rw [hsub, Option.some.injEq] at hrow
    rw [← hrow, hst]
    simp
  held := fun hin hrely => hrely hin
  refreshed := fun _ hin ⟨_, hk, _⟩ => hin.step hk (by simp [Op.activates?])
  created := by
    rintro token n a b _ ⟨ch, hk, _⟩ row hrow
    rcases exec_create hk.exec with ⟨_, e, he⟩ | ⟨t, ht, rfl, hr | ⟨f, hr⟩⟩
    · cases he
    · cases hr
      rw [(Tables.createQuery_ok ht).1, if_pos rfl, Option.some.injEq] at hrow
      rw [← hrow]
      simp [Tables.newRow]
    · cases hr

theorem subscribe_revocation {ctx : Context} {rawEmail rawRepo : String} {draws : Draws} :
    Safe (Settling D) revocationContract c (fun res _ => res = none → True)
      (subscribe D ctx rawEmail rawRepo draws) s := by
  refine subscribe_rule (revocation_annotates D) (fun _ _ _ => trivial)
    (fun _ _ _ => revocation_reserving) ?_
  intro sub ref s hin _
  exact (startAndWait_revocation hin).mono (fun _ _ _ _ => trivial)

/-! ### `Confirm` and `Unsubscribe` -/

theorem confirm_revocation (token : String) :
    Safe (Settling D) revocationContract c (fun _ _ => True) (confirm token) s :=
  (revocation_annotates D).free (confirm_uses (fun _ => trivial) (fun _ _ => trivial))

/-- `Unsubscribe` writes into the row that carries its token. -/
theorem unsubscribe_revocation (token : String) :
    Safe (Settling D) revocationContract c (fun _ _ => True) (unsubscribe token) s := by
  have hget : Safe (Settling D) revocationContract c
      (fun res b => ∀ sub, res = .ok sub → Carries sub.id token b)
      (Repo.getByToken token) s := by
    refine revocation_op (fun _ _ => trivial) (fun a r b ch _ hk => Safe.ret ?_)
    intro sub hsub
    obtain ⟨rfl, hfound⟩ := exec_getByToken hk.exec
    rcases r with e | _ | sub'
    · cases hsub
    · cases hsub
    · cases hsub
      obtain ⟨hrow, htok⟩ := Tables.getByTokenQuery_some (hfound _ rfl).symm
      exact ⟨_, hrow, htok⟩
  refine Safe.bind hget (fun res b hsub => ?_)
  cases res with
  | error err => dsimp only; split <;> exact Safe.ret trivial
  | ok sub =>
    dsimp only
    split
    · exact Safe.ret trivial
    · refine (revocation_annotates D).op (fun _ => True) (fun _ _ _ _ => trivial) ?_ trivial
        (fun _ _ _ _ _ _ => Safe.ret trivial)
      exact hsub sub rfl

/-- Every call but a bare `StartAndWait` meets the contract. -/
theorem program_revocation (D : Deps) (c : Call) (s : State)
    (hc : ∀ ctx data x, c ≠ .startAndWait ctx data x) :
    Safe (Settling D) revocationContract c (fun _ _ => True) (program D c) s := by
  cases c with
  | subscribe => exact Safe.bind subscribe_revocation (fun _ _ _ => Safe.ret trivial)
  | confirm token => exact Safe.bind (confirm_revocation token) (fun _ _ _ => Safe.ret trivial)
  | unsubscribe token =>
    exact Safe.bind (unsubscribe_revocation token) (fun _ _ _ => Safe.ret trivial)
  | handleReply body =>
    exact Safe.bind (handleReply_revocation body) (fun _ _ _ => Safe.ret trivial)
  | reap => exact Safe.bind reap_revocation (fun _ _ _ => Safe.ret trivial)
  | startAndWait ctx data x => exact absurd rfl (hc ctx data x)

end Programs

/-! ## Every run -/

/-- An assertion stays true as long as its row stays inactive or keeps its
token. -/
theorem SparesActive.imp {c : Call} {s s' : State} {o : Op} (h : SparesActive c s o)
    (hin : ∀ id, CountsOnInactive id c o = true → Inactive id s → Inactive id s')
    (htok : ∀ id token, Unsubscribes id c o = true → Carries id token s → Carries id token s') :
    SparesActive c s' o := by
  cases o with
  | stmtUpdateStatus origin status id =>
    cases origin with
    | confirm token => trivial
    | unsubscribe token => exact htok id token (by simp [Unsubscribes]) h
    | compensation x token => exact hin id (by simp [CountsOnInactive]) h
    | rollback token => exact hin id (by simp [CountsOnInactive]) h
  | stmtUpdateToken newToken id oldToken => exact hin id (by simp [CountsOnInactive]) h
  | sagaCreate x data timeout => exact hin data.subscriptionID (by simp [CountsOnInactive]) h
  | _ => trivial

/-- A `Confirm` on a row that somebody counts on is excluded by the condition. -/
theorem revocation_respects (D : Deps) :
    Respects (monolith D) (fun p e => ConfirmationsSettled p e ∧ MonolithSafe D p)
      (Settling D) revocationContract Anything Anything := by
  -- what leaves the tables alone disturbs nobody
  have hquiet : ∀ {th : Thread Op Op.Res Call Ret} {s s' : State}, s'.tables = s.tables →
      Stands revocationContract Anything th s s' := by
    intro th s s' ht
    refine ⟨fun _ _ ha => SparesActive.imp ha (fun id _ h row hr => ?_) (fun id token _ h => ?_),
      fun _ _ _ => trivial⟩
    · exact h row (by rw [← ht]; exact hr)
    · obtain ⟨row, hrow, htok⟩ := h
      exact ⟨row, by rw [ht]; exact hrow, htok⟩
  refine ⟨fun _ _ _ _ _ => trivial, ?_, ?_, ?_, ?_⟩
  · rintro p c s ⟨hcond, _⟩ hp hent
    have hc : ∀ ctx data x, c ≠ .startAndWait ctx data x := by
      rintro ctx data x rfl
      exact hcond
    have hs := (enter_eq hent).2
    subst hs
    exact ⟨hp.1, program_revocation D c _ hc, fun _ _ _ => hquiet rfl⟩
  · rintro p i ch th o k r s ⟨hcond, hsafe⟩ _ hth hend hp hx
    refine ⟨ch, hsafe.known hth hend hp hx, fun id hid => ?_⟩
    exact ((hcond _ (Pool.due?_of_op hth hend hp)).1 id hid).1
  · rintro p i ch th o k r s ⟨hcond, hsafe⟩ _ hth hend hp hx _ _ j th' _ hth'
    have hk := hsafe.known hth hend hp hx
    obtain ⟨hact, hrefresh⟩ := hcond _ (Pool.due?_of_op hth hend hp)
    refine ⟨fun o' ho' ha => SparesActive.imp ha (fun id hcounts hin => ?_)
      (fun id token huns hcar => ?_), fun _ _ _ => trivial⟩
    · refine hin.step hk (fun hw => ?_)
      rw [(hact id hw).2.pending hth' ho'] at hcounts
      cases hcounts
    · refine hcar.step hk.exec (fun hw => ?_)
      rw [(hrefresh id hw).pending hth' ho'] at huns
      cases huns
  · intro p e s _ hp henv
    rcases world_eq henv with ⟨d, rfl⟩ | rfl
    · exact ⟨hp.1, fun _ _ _ => hquiet rfl⟩
    · exact ⟨hp.1, fun _ _ _ => hquiet rfl⟩

/-- An active row that an operation issued under its assertion does not leave
active is withdrawn by an `Unsubscribe` with its token. -/
theorem active_withdrawn {D : Deps} {c : Call} {s s' : State} {o : Op} {ch : Choice} {r : o.Res}
    (hk : Known D c o ch r s s') (ha : SparesActive c s o) {id : Nat} {row row' : Subscription}
    (hrow : s.tables.byID id = some row) (hst : row.status = .active)
    (hrow' : s'.tables.byID id = some row') (hne : row'.status ≠ .active) :
    c = .unsubscribe row.token ∧
      o = .stmtUpdateStatus (.unsubscribe row.token) .unsubscribed id := by
  obtain ⟨row₁, hrow₁, hchange⟩ := (exec_rows hk.exec).row hrow
  rw [hrow', Option.some.injEq] at hrow₁
  subst hrow₁
  have hready := hk.ready
  cases hchange with
  | same eq => rw [eq] at hne; exact absurd hst hne
  | @status origin status eq =>
    cases origin with
    | confirm token =>
      have hact : status = .active := hready.1
      rw [eq, hact] at hne
      exact absurd rfl hne
    | unsubscribe token =>
      obtain ⟨hw, hc⟩ := hready
      obtain ⟨row₀, hrow₀, htok⟩ := ha
      rw [hrow, Option.some.injEq] at hrow₀
      rw [hrow₀, htok, hw]
      exact ⟨hc, rfl⟩
    | compensation x token => exact absurd hst (ha row hrow)
    | rollback token => exact absurd hst (ha row hrow)
  | token _ eq => rw [eq] at hne; exact absurd hst hne

/-- In every run in which rows become active only when their sagas are settled,
an active row is withdrawn by `Unsubscribe` with that row's token and by
nothing else. -/
theorem active_revoked_by_unsubscribe_only (D : Deps)
    (es : List (Event Choice Call WorldEvent)) (p p' : Pool Op Op.Res State Call Ret)
    (h : (monolith D).Run ConfirmationsSettled monolithInit es p)
    (e : Event Choice Call WorldEvent) (hs : (monolith D).step p e = some p') (id : Nat)
    (row row' : Subscription) (hrow : p.state.tables.byID id = some row)
    (hst : row.status = .active) (hrow' : p'.state.tables.byID id = some row')
    (hne : row'.status ≠ .active) :
    ∃ i ch, e = .run i ch ∧ p.due? i = some (.unsubscribe row.token,
      .stmtUpdateStatus (.unsubscribe row.token) .unsubscribed id) := by
  have hinit : PoolSafe (Settling D) revocationContract Anything Anything monolithInit := by
    refine ⟨?_, fun i th hth => by simp [monolithInit] at hth⟩
    intro id row hrow
    simp [monolithInit, State.init, Tables.empty, Tables.byID, Table.lookup] at hrow
  have hrev := hinit.run (revocation_respects D) (run_safe h)
  rcases step_cases hs with ⟨i, ch, th, o, k, r, rfl, hth, hend, hp, hx⟩ | hidle
  · have hk := (monolith_safe h).known hth hend hp hx
    have hspared : SparesActive th.call p.state o := by
      by_cases hact : o.activates? = none
      · exact (hrev.exec hth hend hp ⟨ch, hk, by simp [hact]⟩).2.1
      · -- a write of `active` has no assertion
        have hready := hk.ready
        cases o with
        | stmtUpdateStatus origin status id' =>
          rcases hready.status_written with hw | ⟨_, token, rfl, _⟩
          · rw [hw] at hact
            exact absurd rfl hact
          · trivial
        | _ => exact absurd rfl hact
    obtain ⟨hc, ho⟩ := active_withdrawn hk hspared hrow hst hrow' hne
    exact ⟨i, ch, rfl, by rw [Pool.due?_of_op hth hend hp, hc, ho]⟩
  · -- no statement was executed, so the row is the same one
    rw [hidle.tables, hrow, Option.some.injEq] at hrow'
    rw [← hrow'] at hne
    exact absurd hst hne

/-- The mail is confirmed after its reply has been handled, and the subscriber
is about to leave. -/
def confirmedAfterReply : List (Event Choice Call WorldEvent) :=
  sampleMailed ++ [.call (.handleReply (sampleSent "s1")), .run 1 .ok, .run 1 .ok, .run 1 .ok,
    .run 0 .receive, .run 0 .ok, .call (.confirm "t1"), .run 2 .ok, .run 2 .ok,
    .env (.tick 31), .call .reap, .run 3 .ok, .call (.unsubscribe "t1"), .run 4 .ok]

/-- A confirmed subscriber leaves while the reaper runs. -/
theorem active_revoked_by_unsubscribe_only_sample :
    ∃ p p' row, (monolith sample).Run ConfirmationsSettled monolithInit confirmedAfterReply p ∧
      (monolith sample).step p (.run 4 .ok) = some p' ∧
      p.state.tables.byID 1 = some row ∧ row.status = .active ∧
      ∃ i, p.due? i = some (.unsubscribe row.token,
        .stmtUpdateStatus (.unsubscribe row.token) .unsubscribed 1) := by
  have hrun : ((monolith sample).stepsWhere (fun p e => decide (ConfirmationsSettled p e))
      monolithInit confirmedAfterReply).any (fun p =>
        (p.state.tables.byID 1).any (fun row => decide (row.status = .active)) &&
        ((monolith sample).step p (.run 4 .ok)).any (fun p' =>
          (p'.state.tables.byID 1).any (fun row => decide (row.status ≠ .active)))) = true := by
    decide
  obtain ⟨p, hp, hall⟩ := (Option.any_eq_true _ _).mp hrun
  rw [Bool.and_eq_true] at hall
  obtain ⟨row, hrow, hst⟩ := (Option.any_eq_true _ _).mp hall.1
  obtain ⟨p', hp', hany⟩ := (Option.any_eq_true _ _).mp hall.2
  obtain ⟨row', hrow', hne⟩ := (Option.any_eq_true _ _).mp hany
  have h := Machine.Run.of_stepsWhere (fun _ _ h => of_decide_eq_true h) hp
  obtain ⟨i, _, _, hdue⟩ := active_revoked_by_unsubscribe_only sample _ p p' h _ hp' 1 row row'
    hrow (of_decide_eq_true hst) hrow' (of_decide_eq_true hne)
  exact ⟨p, p', row, h, hp', hrow, of_decide_eq_true hst, i, hdue⟩

/-- The mail is confirmed while its reply is still on the way; the deadline
passes and the reaper claims the saga. -/
def confirmedBeforeReply : List (Event Choice Call WorldEvent) :=
  sampleMailed ++ [.call (.confirm "t1"), .run 1 .ok, .run 1 .ok, .env (.tick 31),
    .run 0 .timeout, .run 0 .ok, .call .reap, .run 2 .ok, .run 2 (.answer false), .run 2 .ok]

/-- Then the saga's `Cancel` turns the active row into an unsubscribed one, with
no `Unsubscribe` ever called. -/
theorem compensation_revokes_active :
    ∃ p p' row row', (monolith sample).steps monolithInit confirmedBeforeReply = some p ∧
      p.due? 2 = some (.reap, .stmtUpdateStatus (.compensation "s1" "t1") .unsubscribed 1) ∧
      p.state.tables.byID 1 = some row ∧ row.status = .active ∧
      (monolith sample).step p (.run 2 .ok) = some p' ∧
      p'.state.tables.byID 1 = some row' ∧ row'.status = .unsubscribed ∧
      p'.state.calls = [.reap, .confirm "t1", sampleSubscribe₁] := by
  have hrun : ((monolith sample).steps monolithInit confirmedBeforeReply).any (fun p =>
      decide (p.due? 2 = some (.reap,
        .stmtUpdateStatus (.compensation "s1" "t1") .unsubscribed 1)) &&
      (p.state.tables.byID 1).any (fun row => decide (row.status = .active)) &&
      ((monolith sample).step p (.run 2 .ok)).any (fun p' =>
        (p'.state.tables.byID 1).any (fun row => decide (row.status = .unsubscribed)) &&
        decide (p'.state.calls = [.reap, .confirm "t1", sampleSubscribe₁]))) = true := by
    decide
  obtain ⟨p, hp, hall⟩ := (Option.any_eq_true _ _).mp hrun
  simp only [Bool.and_eq_true, decide_eq_true_eq] at hall
  obtain ⟨⟨hdue, hrow⟩, hrest⟩ := hall
  obtain ⟨row, hrow, hst⟩ := (Option.any_eq_true _ _).mp hrow
  obtain ⟨p', hp', hall'⟩ := (Option.any_eq_true _ _).mp hrest
  simp only [Bool.and_eq_true, decide_eq_true_eq] at hall'
  obtain ⟨row', hrow', hst'⟩ := (Option.any_eq_true _ _).mp hall'.1
  exact ⟨p, p', row, row', hp, hdue, hrow, of_decide_eq_true hst, hp', hrow',
    of_decide_eq_true hst', hall'.2⟩

end ReleaseNotifier
