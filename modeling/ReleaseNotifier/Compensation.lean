/-
Compensation when nothing fails, as a function of the state.

If every call to the stores succeeds, what `compensate` leaves behind depends on
the one row its saga has. A saga that waits or is compensating is failed, its
subscription is withdrawn and one `Cancel` has been made for it; a saga that is
completed or failed, or that does not exist, is left alone. `compensated` is this
function, and the loop of `Reap` is a fold of it, whatever ids were listed and
however long ago: `ListTimedOut` is a query of its own, so the table may have
changed under the list.

Everything about sequences of replies and reaps then is about folds.
-/
import ReleaseNotifier.Steps

set_option autoImplicit false

namespace ReleaseNotifier

open Conc

/-! ## A run without failures -/

/-- The choice of an environment in which nothing fails and no context is done. -/
def Op.calmly : Op → Choice
  | .ctxErr => .answer false
  | _ => .ok

/-- What an operation does when nothing fails. -/
def unfailing (s : State) (o : Op) : Option (o.Res × State) := exec s o o.calmly

/-- A saga that has come to an end. -/
def SagaState.settled : SagaState → Bool
  | .completed => true
  | .failed => true
  | _ => false

/-- A row that has been withdrawn. -/
def Subscription.withdrawn (r : Subscription) : Subscription := { r with status := .unsubscribed }

/-- The state after `Cancel`. -/
def State.cancelled (s : State) (origin : Origin) (id : Nat) : State :=
  match s.tables.updateStatusQuery .unsubscribed id with
  | .ok (t, n) => ({ s with tables := t } : State).logStatus origin .unsubscribed id (.ok (.ok n))
  | .error _ => s

/-- The state after `cancelAndMark`, for a saga that has been claimed. -/
def State.undone (s : State) (x : String) (data : SubscriptionData) : State :=
  (s.cancelled (.compensation x data.token) data.subscriptionID).moveSaga .failed x .compensating

/-- The state after `compensate`. -/
def State.compensated (s : State) (x : String) : State :=
  match s.sagas.get x with
  | none => s
  | some inst =>
    if inst.state.settled then s
    else (s.moveSaga .compensating x .awaitingConfirmation).undone x inst.data

/-! ## The run -/

section Run

variable {s : State} {x : String} {inst : Instance}

/-- `UPDATE … SET status = 'unsubscribed'` violates no constraint, so `Cancel` takes effect. -/
theorem State.cancelled_eq (s : State) (origin : Origin) (id : Nat) :
    ∃ t n, s.tables.updateStatusQuery .unsubscribed id = .ok (t, n) ∧
      s.cancelled origin id
        = ({ s with tables := t } : State).logStatus origin .unsubscribed id (.ok (.ok n)) := by
  obtain ⟨t, ht⟩ := Tables.updateStatusQuery_unsubscribed s.tables id
  exact ⟨t, _, ht, by rw [State.cancelled, ht]⟩

/-- No row is "not found", which `Cancel` takes for success. -/
theorem cancel_run_eq (s : State) (origin : Origin) (id : Nat) :
    (cancel origin id).run unfailing s = some (none, s.cancelled origin id) := by
  obtain ⟨t, n, ht, hx⟩ := exec_cancel_ok s origin id
  have hstmt : unfailing s (.stmtUpdateStatus origin .unsubscribed id)
      = some (.ok (.ok n), s.cancelled origin id) := by
    rw [State.cancelled, ht]
    exact hx
  rw [cancel, Repo.updateStatus, statement, Prog.op_bind, Prog.run_op hstmt]
  cases n with
  | zero => rfl
  | succ m => rfl

theorem cancelAndMark_run_eq (s : State) (x : String) (data : SubscriptionData) :
    (cancelAndMark x data).run unfailing s = some (none, s.undone x data) := by
  let s₁ := s.cancelled (.compensation x data.token) data.subscriptionID
  have hmark : unfailing s₁ (.sagaMarkCompensated x)
      = some (.ok (), s₁.moveSaga .failed x .compensating) := exec_mark_ok s₁ x
  rw [cancelAndMark, Prog.run_bind, cancel_run_eq, Option.bind_some]
  show (SagaStore.markCompensated x).run unfailing s₁ = _
  rw [SagaStore.markCompensated, statement, Prog.run_op hmark]
  rfl

/-- A statement that asks for another state than the saga's hits nothing. -/
theorem SagaTable.transition_of_ne {t : SagaTable} {src : SagaState}
    (h : ∀ inst, t.get x = some inst → inst.state ≠ src) (dst : SagaState) :
    t.transition dst x src = t := by
  have hrows : Table.update (isAt x src) (fun i => { i with state := dst }) t.rows = t.rows := by
    refine (List.map_congr_left (fun i hi => ?_)).trans (List.map_id t.rows)
    have hmiss : ¬ isAt x src i = true := by
      intro hat
      simp only [isAt, Bool.and_eq_true, decide_eq_true_eq] at hat
      exact h i (hat.1 ▸ get_of_mem hi) hat.2
    rw [if_neg hmiss]
    rfl
  cases t with
  | mk rows hunique => simp only [SagaTable.transition, SagaTable.mk.injEq]; exact hrows

/-- The same of the whole state. -/
theorem State.moveSaga_of_ne {src : SagaState}
    (h : ∀ inst, s.sagas.get x = some inst → inst.state ≠ src) (dst : SagaState) :
    s.moveSaga dst x src = s := by
  rw [State.moveSaga, SagaTable.transition_of_ne h]

/-- Without failures `compensate` returns and leaves `compensated` behind. It
reports an error exactly if there is no saga. -/
theorem compensate_run_eq (s : State) (x : String) :
    (compensate x).run unfailing s
      = some (if (s.sagas.get x).isSome then none else some (.sentinel .errInstanceNotFound),
          s.compensated x) := by
  have hclaim : unfailing s (.sagaClaimCompensation x) = some (.ok ((s.claimed x).map .ok),
      s.moveSaga .compensating x .awaitingConfirmation) := exec_claim_ok s x
  have hget : unfailing s (.sagaGet x) = some (.ok ((s.sagas.get x).map .ok), s) :=
    exec_sagaGet_ok s x
  rw [compensate, SagaStore.claimCompensation, statement, Prog.op_bind, Prog.run_op hclaim,
    State.claimed, State.compensated]
  cases hx : s.sagas.get x with
  | none =>
    -- no row to claim, and none to read
    have hstill : s.moveSaga .compensating x .awaitingConfirmation = s :=
      State.moveSaga_of_ne (fun inst h => by rw [hx] at h; cases h) _
    rw [hx] at hget
    rw [hstill]
    show (SagaStore.get x >>= _).run unfailing s = _
    rw [SagaStore.get, statement, Prog.op_bind, Prog.run_op hget]
    rfl
  | some inst =>
    by_cases hawait : inst.state = .awaitingConfirmation
    · have hopen : ¬ inst.state.settled = true := by
        rw [hawait]
        exact Bool.false_ne_true
      simp only [if_pos hawait, if_neg hopen]
      exact cancelAndMark_run_eq _ x inst.data
    · -- the claim is lost, and the row says whether it is resumed
      have hstill : s.moveSaga .compensating x .awaitingConfirmation = s := by
        refine State.moveSaga_of_ne (fun i h => ?_) _
        rw [hx] at h
        cases h
        exact hawait
      rw [hx] at hget
      simp only [if_neg hawait, hstill]
      show (SagaStore.get x >>= _).run unfailing s = _
      rw [SagaStore.get, statement, Prog.op_bind, Prog.run_op hget]
      show (if inst.state ≠ .compensating then _ else _ : P (Option Err)).run unfailing s = _
      by_cases hcomp : inst.state = .compensating
      · have hopen : ¬ inst.state.settled = true := by
          rw [hcomp]
          exact Bool.false_ne_true
        rw [if_neg (fun h => h hcomp), if_neg hopen]
        exact cancelAndMark_run_eq s x inst.data
      · have hend : inst.state.settled = true := by
          cases hst : inst.state with
          | awaitingConfirmation => exact absurd hst hawait
          | completed => rfl
          | compensating => exact absurd hst hcomp
          | failed => rfl
        rw [if_pos hcomp, if_pos hend]
        rfl

end Run

/-! ## The loop of `Reap` over the ids it has listed -/

/-- **The loop of `Reap` is a fold** over the ids. -/
theorem reapLoop_run_eq (ids : List String) (s : State) :
    (reapLoop ids).run unfailing s = some ((), ids.foldl State.compensated s) := by
  induction ids generalizing s with
  | nil => rfl
  | cons x ids ih =>
    have hctx : unfailing s .ctxErr = some (false, s) := rfl
    rw [reapLoop, perform, Prog.perform_bind, Prog.run_op hctx]
    show (compensate x >>= fun _ => reapLoop ids).run unfailing s = _
    rw [Prog.run_bind, compensate_run_eq, Option.bind_some, List.foldl_cons]
    exact ih (s.compensated x)

/-- The query of `ListTimedOut`. -/
def Op.lists : Op → Bool
  | .sagaListTimedOut _ => true
  | _ => false

/-- After `ListTimedOut` the loop does not look at the list again. -/
theorem reapLoop_lists (ids : List String) : (reapLoop ids).Uses (fun o => o.lists = false) :=
  reapLoop_uses (F := fun o => o.lists = false) rfl
    (fun _ => compensate_uses rfl rfl (fun _ _ => rfl) rfl) ids

/-! ## What it leaves behind -/

section Left

variable {s : State} {x : String} {inst : Instance}

@[simp] theorem State.cancelled_sagas (s : State) (origin : Origin) (id : Nat) :
    (s.cancelled origin id).sagas = s.sagas := by
  obtain ⟨t, n, -, h⟩ := s.cancelled_eq origin id
  rw [h]
  rfl

/-- `Cancel` touches the row that it names. -/
theorem State.cancelled_byID (s : State) (origin : Origin) (id i : Nat) :
    (s.cancelled origin id).tables.byID i
      = if i = id then (s.tables.byID i).map Subscription.withdrawn else s.tables.byID i := by
  obtain ⟨t, n, ht, h⟩ := s.cancelled_eq origin id
  have hrows := (Tables.updateStatusQuery_ok ht).1 i
  have hsame : (s.cancelled origin id).tables.byID i = t.byID i := by rw [h]; rfl
  rw [hsame, hrows]
  split
  · rfl
  · rw [Option.map_id']

/-- Every `Cancel` is on record, a repeated one too. -/
theorem State.cancelled_statusLog (s : State) (origin : Origin) (id : Nat) :
    (s.cancelled origin id).statusLog = ⟨origin, id, .unsubscribed, true⟩ :: s.statusLog := by
  obtain ⟨t, n, -, h⟩ := s.cancelled_eq origin id
  rw [h]
  rfl

theorem compensated_of_none (hx : s.sagas.get x = none) : s.compensated x = s := by
  rw [State.compensated, hx]

/-- A saga that has come to an end is left alone. -/
theorem compensated_of_settled (hx : s.sagas.get x = some inst) (h : inst.state.settled = true) :
    s.compensated x = s := by
  rw [State.compensated, hx]
  exact if_pos h

/-- A saga that waits is claimed first; of one that is compensating the claim hits nothing. -/
theorem compensated_of_open (hx : s.sagas.get x = some inst) (h : inst.state.settled = false) :
    s.compensated x = (s.moveSaga .compensating x .awaitingConfirmation).undone x inst.data := by
  rw [State.compensated, hx]
  exact if_neg (by rw [h]; exact Bool.false_ne_true)

/-- The sagas afterwards. -/
theorem get_compensated (s : State) (x y : String) :
    (s.compensated x).sagas.get y = (s.sagas.get y).map (fun i =>
      if y = x ∧ i.state.settled = false then { i with state := .failed } else i) := by
  cases hx : s.sagas.get x with
  | none =>
    rw [compensated_of_none hx]
    by_cases hy : y = x
    · rw [hy, hx]
      rfl
    · simp [hy]
  | some inst =>
    cases hst : inst.state.settled with
    | true =>
      rw [compensated_of_settled hx hst]
      by_cases hy : y = x
      · rw [hy, hx]
        simp [hst]
      · simp [hy]
    | false =>
      -- awaiting, compensating, failed: the two transitions compose
      rw [compensated_of_open hx hst, State.undone]
      simp only [State.moveSaga, State.cancelled_sagas, SagaTable.get_transition]
      by_cases hy : y = x
      · rw [hy, hx]
        cases hstate : inst.state <;> simp_all [SagaState.settled]
      · cases s.sagas.get y with
        | none => rfl
        | some i => simp [hy]

/-- The row of the saga is withdrawn and no other one is touched. -/
theorem byID_compensated (hx : s.sagas.get x = some inst) (h : inst.state.settled = false)
    (i : Nat) :
    (s.compensated x).tables.byID i
      = if i = inst.data.subscriptionID then (s.tables.byID i).map Subscription.withdrawn
        else s.tables.byID i := by
  rw [compensated_of_open hx h, State.undone]
  exact State.cancelled_byID _ _ _ i

/-- One `Cancel` goes on record, under the saga's id. -/
theorem statusLog_compensated (hx : s.sagas.get x = some inst) (h : inst.state.settled = false) :
    (s.compensated x).statusLog
      = ⟨.compensation x inst.data.token, inst.data.subscriptionID, .unsubscribed, true⟩
          :: s.statusLog := by
  rw [compensated_of_open hx h, State.undone]
  exact State.cancelled_statusLog _ _ _

/-- A row is kept or withdrawn. -/
def KeptOrWithdrawn (s s' : State) (id : Nat) : Prop :=
  s'.tables.byID id = s.tables.byID id ∨
    s'.tables.byID id = (s.tables.byID id).map Subscription.withdrawn

/-- Withdrawing a row afterwards makes the two cases one. -/
theorem KeptOrWithdrawn.map_eq {s' : State} {id : Nat} (h : KeptOrWithdrawn s s' id) :
    (s'.tables.byID id).map Subscription.withdrawn
      = (s.tables.byID id).map Subscription.withdrawn := by
  rcases h with h | h
  · rw [h]
  · rw [h, Option.map_map]
    rfl

/-- Withdrawing twice is withdrawing once. -/
theorem KeptOrWithdrawn.stays {s' : State} {id : Nat} {row : Option Subscription}
    (h : KeptOrWithdrawn s s' id) (hrow : s.tables.byID id = row.map Subscription.withdrawn) :
    s'.tables.byID id = row.map Subscription.withdrawn := by
  rcases h with h | h
  · rw [h, hrow]
  · rw [h, hrow, Option.map_map]
    rfl

/-- All that a compensation can do to a row. -/
theorem keptOrWithdrawn_compensated (s : State) (y : String) (id : Nat) :
    KeptOrWithdrawn s (s.compensated y) id := by
  cases hy : s.sagas.get y with
  | none => exact .inl (by rw [compensated_of_none hy])
  | some inst =>
    cases hst : inst.state.settled with
    | true => exact .inl (by rw [compensated_of_settled hy hst])
    | false =>
      by_cases hid : id = inst.data.subscriptionID
      · exact .inr (by rw [byID_compensated hy hst, if_pos hid])
      · exact .inl (by rw [byID_compensated hy hst, if_neg hid])

end Left

/-! ## What the loop leaves behind -/

/-- The sagas that were listed have failed, and nothing else has changed. -/
def FailedOnly (t t₁ : SagaTable) (ids : List String) : Prop :=
  ∀ x, t₁.get x = (t.get x).map (fun i => if x ∈ ids then { i with state := .failed } else i)

/-- The record of the `Cancel` of a saga. -/
def cancelRecord (x : String) (inst : Instance) : StatusWrite :=
  ⟨.compensation x inst.data.token, inst.data.subscriptionID, .unsubscribed, true⟩

/-- From `s` to `s'` the sagas `ids` have been compensated, in this order, and
nothing else has been done. -/
structure Reaped (s s' : State) (ids : List String) : Prop where
  sagas : FailedOnly s.sagas s'.sagas ids
  withdrawn : ∀ x ∈ ids, ∀ inst, s.sagas.get x = some inst →
    s'.tables.byID inst.data.subscriptionID
      = (s.tables.byID inst.data.subscriptionID).map Subscription.withdrawn
  kept : ∀ id, (∀ x ∈ ids, ∀ inst, s.sagas.get x = some inst → inst.data.subscriptionID ≠ id) →
    s'.tables.byID id = s.tables.byID id
  log : s'.statusLog
    = (ids.filterMap (fun x => (s.sagas.get x).map (cancelRecord x))).reverse ++ s.statusLog

section Reaped

variable {t t₁ : SagaTable} {s s₁ s₂ : State} {x : String} {ids ids' : List String}

theorem FailedOnly.get_of_not_mem (h : FailedOnly t t₁ ids) (hx : x ∉ ids) :
    t₁.get x = t.get x := by
  rw [h x]
  simp only [if_neg hx, Option.map_id']

theorem Reaped.refl (s : State) : Reaped s s [] := by
  refine ⟨fun x => ?_, fun x hx => absurd hx List.not_mem_nil, fun _ _ => rfl, rfl⟩
  simp only [List.not_mem_nil, if_false, Option.map_id']

/-- Only the state column changes. -/
theorem FailedOnly.map_data (h : FailedOnly t t₁ ids) {β : Type}
    (f : Instance → β) (hf : ∀ i state, f { i with state := state } = f i) (x : String) :
    (t₁.get x).map f = (t.get x).map f := by
  rw [h x, Option.map_map]
  refine Option.map_congr (fun i _ => ?_)
  simp only [Function.comp_apply]
  split
  · exact hf i .failed
  · rfl

/-- The data of a saga outlives its failure, so later ones can be followed back to it. -/
theorem FailedOnly.data (h : FailedOnly t t₁ ids) {inst : Instance}
    (hx : t.get x = some inst) : ∃ inst₁, t₁.get x = some inst₁ ∧ inst₁.data = inst.data := by
  have hdata := h.map_data Instance.data (fun _ _ => rfl) x
  rw [hx] at hdata
  exact Option.map_eq_some_iff.mp hdata

/-- All that a loop can do to a row, whichever sagas refer to it. -/
theorem Reaped.row (h : Reaped s s₁ ids) (id : Nat) : KeptOrWithdrawn s s₁ id := by
  by_cases href : ∃ x ∈ ids, ∃ inst, s.sagas.get x = some inst ∧ inst.data.subscriptionID = id
  · obtain ⟨x, hx, inst, hget, rfl⟩ := href
    exact .inr (h.withdrawn x hx inst hget)
  · refine .inl (h.kept id (fun x hx inst hget hid => ?_))
    exact href ⟨x, hx, inst, hget, hid⟩

/-- One list and then another. -/
theorem Reaped.trans (h : Reaped s s₁ ids) (h' : Reaped s₁ s₂ ids') :
    Reaped s s₂ (ids ++ ids') := by
  refine ⟨fun x => ?_, fun x hx inst hget => ?_, fun id href => ?_, ?_⟩
  · rw [h'.sagas x, h.sagas x, Option.map_map]
    refine Option.map_congr (fun i _ => ?_)
    by_cases hx : x ∈ ids <;> by_cases hx' : x ∈ ids' <;> simp [hx, hx']
  · rcases List.mem_append.mp hx with hx | hx
    · exact (h'.row inst.data.subscriptionID).stays (h.withdrawn x hx inst hget)
    · -- sagas may share a row, so the first list may have withdrawn it already
      obtain ⟨inst₁, hget₁, hdata⟩ := h.sagas.data hget
      have hrow := h'.withdrawn x hx inst₁ hget₁
      rw [hdata] at hrow
      rw [hrow, (h.row inst.data.subscriptionID).map_eq]
  · rw [h'.kept id, h.kept id]
    · exact fun x hx inst hget => href x (List.mem_append_left _ hx) inst hget
    · intro x hx inst₁ hget₁
      have hdata := h.sagas.map_data Instance.data (fun _ _ => rfl) x
      rw [hget₁, Option.map_some] at hdata
      obtain ⟨inst, hget, hsame⟩ := Option.map_eq_some_iff.mp hdata.symm
      rw [← hsame]
      exact href x (List.mem_append_right _ hx) inst hget
  · have hsame : ids'.filterMap (fun x => (s₁.sagas.get x).map (cancelRecord x))
        = ids'.filterMap (fun x => (s.sagas.get x).map (cancelRecord x)) := by
      refine List.filterMap_congr (fun x _ => ?_)
      exact h.sagas.map_data (cancelRecord x) (fun _ _ => rfl) x
    rw [h'.log, h.log, hsame, List.filterMap_append, List.reverse_append, List.append_assoc]

/-- One round of the loop. -/
theorem reaped_compensated {inst : Instance} (hx : s.sagas.get x = some inst)
    (hst : inst.state = .awaitingConfirmation) : Reaped s (s.compensated x) [x] := by
  have hopen : inst.state.settled = false := by rw [hst]; rfl
  refine ⟨fun y => ?_, fun y hy i hget => ?_, fun id href => ?_, ?_⟩
  · rw [get_compensated]
    by_cases hy : y = x
    · rw [hy, hx]
      simp [hopen]
    · simp [hy]
  · rw [List.mem_singleton.mp hy, hx] at hget
    cases hget
    rw [byID_compensated hx hopen, if_pos rfl]
  · rw [byID_compensated hx hopen, if_neg]
    exact fun hid => href x List.mem_cons_self inst hx hid.symm
  · rw [statusLog_compensated hx hopen]
    simp [hx, cancelRecord]

/-- The loop over a list of sagas that wait. -/
theorem reaped_foldl (hnodup : ids.Nodup)
    (hwait : ∀ x ∈ ids, ∃ inst, s.sagas.get x = some inst ∧ inst.state = .awaitingConfirmation) :
    Reaped s (ids.foldl State.compensated s) ids := by
  induction ids generalizing s with
  | nil => exact Reaped.refl s
  | cons x ids ih =>
    obtain ⟨hnew, hnodup⟩ := List.nodup_cons.mp hnodup
    obtain ⟨inst, hx, hst⟩ := hwait x List.mem_cons_self
    have hone := reaped_compensated hx hst
    -- compensating `x` does not touch the sagas behind it, which are others
    have hrest : Reaped (s.compensated x)
        (ids.foldl State.compensated (s.compensated x)) ids := by
      refine ih hnodup (fun y hy => ?_)
      have hne : y ∉ [x] := by
        rw [List.mem_singleton]
        rintro rfl
        exact hnew hy
      rw [hone.sagas.get_of_not_mem hne]
      exact hwait y (List.mem_cons_of_mem _ hy)
    exact hone.trans hrest

end Reaped

end ReleaseNotifier
