/-
What a call has established when it issues an operation, in every run.

`Ready D c s o` is the assertion in front of operation `o` of call `c`: a
compensation only cancels the subscription of a saga that has been claimed,
`MarkCompensated` comes after a cancellation that succeeded, a waiter is only
told "completed" when its saga is, a command is only published for a saga whose
row is there. Each of these is kept by everything the other calls may do in the
meantime (`Ready.evolves`), so one invariant of the state (`SagaInv`) carries
the whole argument, whatever fails and whoever else runs. It is used for every
result about the saga.
-/
import ReleaseNotifier.Subscribe

set_option autoImplicit false

namespace ReleaseNotifier

open Conc

/-! ## Assertions -/

/-- The normalized triple a `Subscribe` call is for. -/
def Call.key? (D : Deps) : Call → Option Key
  | .subscribe _ rawEmail rawRepo _ =>
    match parseSubscribeInput D rawEmail rawRepo with
    | .ok (addr, ref) => some ⟨addr, ref.owner, ref.name⟩
    | .error _ => none
  | _ => none

/-- The saga data a call may put into a saga: what `StartAndWait` was called
with, or what `Subscribe` makes of the row it has reserved. -/
def OwnData (D : Deps) (c : Call) (s : State) (data : SubscriptionData) : Prop :=
  match c with
  | .startAndWait _ own _ => data = own
  | .subscribe _ _ _ _ => c.token? = some data.token ∧ data.confirmURL = confirmURL D data.token ∧
      ∃ row, s.tables.byID data.subscriptionID = some row ∧ c.key? D = some row.key
  | _ => False

/-- The call's own saga, in a state that satisfies `p`. -/
def OwnSaga (D : Deps) (c : Call) (s : State) (p : SagaState → Prop) : Prop :=
  ∃ x inst, c.sagaID? = some x ∧ s.sagas.get x = some inst ∧ OwnData D c s inst.data ∧ p inst.state

/-- A cancellation of subscription `id` on behalf of saga `x` reported success. -/
def Cancelled (s : State) (x : String) (data : SubscriptionData) : Prop :=
  ⟨.compensation x data.token, data.subscriptionID, .unsubscribed, true⟩ ∈ s.statusLog

/-- Compensation of the saga has begun. -/
def SagaState.Undoing (st : SagaState) : Prop := st = .compensating ∨ st = .failed

/-- The assertion in front of an operation. -/
def Ready (D : Deps) (c : Call) (s : State) : Op → Prop
  | .stmtUpdateStatus (.compensation x token) status id => status = .unsubscribed ∧
      ∃ inst, s.sagas.get x = some inst ∧ inst.data.subscriptionID = id ∧
        inst.data.token = token ∧ inst.state.Undoing
  | .stmtUpdateStatus (.rollback token) status id => status = .unsubscribed ∧
      ∃ data, OwnData D c s data ∧ data.token = token ∧ data.subscriptionID = id
  | .stmtUpdateStatus (.confirm token) status _ => status = .active ∧ c = .confirm token
  | .stmtUpdateStatus (.unsubscribe token) status _ =>
    status = .unsubscribed ∧ c = .unsubscribe token
  | .stmtUpdateToken newToken id _ => c.token? = some newToken ∧
      ∃ row, s.tables.byID id = some row ∧ c.key? D = some row.key
  | .stmtCreate k token status =>
    status = .pending ∧ c.token? = some token ∧ c.key? D = some k
  | .sagaCreate x data timeout =>
    c.sagaID? = some x ∧ OwnData D c s data ∧ timeout = D.timeout
  | .sagaCompleteIfAwaiting x => ∃ body reply, c = .handleReply body ∧
      D.json.reply.unmarshal body = .ok reply ∧ reply.type = replyConfirmationSent ∧
      reply.sagaID = x
  | .sagaMarkCompensated x => ∃ inst, s.sagas.get x = some inst ∧ Cancelled s x inst.data
  | .publish key body => key = cmdSendConfirmation ∧ ∃ x inst traceID payload,
      c.sagaID? = some x ∧ s.sagas.get x = some inst ∧
      D.json.payload.marshal ⟨inst.data.email, inst.data.repo, inst.data.confirmURL⟩
        = .ok payload ∧
      D.json.command.marshal ⟨x, cmdSendConfirmation, traceID, payload⟩ = .ok body
  | .trySend n state => (∃ body, c = .handleReply body) ∧ (state = .completed →
      ∃ ch inst, s.chans[n]? = some ch ∧ s.sagas.get ch.sagaID = some inst ∧
        inst.state = .completed)
  | .await n => ∃ x ch, c.sagaID? = some x ∧ s.chans[n]? = some ch ∧ ch.sagaID = x
  | _ => True

/-- What holds between any two operations. -/
structure SagaInv (s : State) : Prop where
  /-- A registered waiter has a channel for its saga. -/
  waiters : ∀ {x n}, s.waiters x = some n → ∃ c, s.chans[n]? = some c ∧ c.sagaID = x
  /-- A channel says "completed" only if its saga is. -/
  signalled : ∀ {n : Nat} {c : Chan}, s.chans[n]? = some c → c.buf = some .completed →
    ∃ inst, s.sagas.get c.sagaID = some inst ∧ inst.state = .completed
  /-- A cancellation was issued only for a saga whose compensation had begun. -/
  issued : ∀ {x token id status ok},
    (⟨.compensation x token, id, status, ok⟩ : StatusWrite) ∈ s.statusLog →
    ∃ inst, s.sagas.get x = some inst ∧ inst.state.Undoing
  /-- A failed saga has been cancelled. -/
  undone : ∀ {x inst}, s.sagas.get x = some inst → inst.state = .failed →
    Cancelled s x inst.data

theorem SagaInv.init : SagaInv State.init where
  waiters := by simp [State.init]
  signalled := by simp [State.init]
  issued := by simp [State.init]
  undone := by simp [State.init]

/-! ## The assertions are stable -/

section Stable

variable {D : Deps} {c : Call} {s s' : State}

theorem OwnData.evolves {data : SubscriptionData} (h : OwnData D c s data) (he : Evolves s s') :
    OwnData D c s' data := by
  cases c with
  | startAndWait ctx own sagaID => exact h
  | subscribe ctx rawEmail rawRepo draws =>
    obtain ⟨htok, hurl, row, hrow, hk⟩ := h
    obtain ⟨row', hrow', hkey⟩ := he.rows hrow
    exact ⟨htok, hurl, row', hrow', by rw [hkey]; exact hk⟩
  | _ => exact h

theorem OwnSaga.evolves {p : SagaState → Prop} (h : OwnSaga D c s p) (he : Evolves s s')
    (hp : ∀ a b, SagaState.Follows a b → p a → p b) : OwnSaga D c s' p := by
  obtain ⟨x, inst, hc, hx, hd, hi⟩ := h
  obtain ⟨inst', hx', hdata, _, hfol⟩ := he.sagas hx
  refine ⟨x, inst', hc, hx', ?_, hp _ _ hfol hi⟩
  rw [hdata]
  exact hd.evolves he

theorem SagaState.Follows.completed {a b : SagaState} (h : SagaState.Follows a b)
    (ha : a = .completed) : b = .completed := by
  subst ha
  rcases h with h | h | ⟨h, _⟩
  · exact h.symm
  · cases h
  · cases h

theorem SagaState.Follows.undoing {a b : SagaState} (h : SagaState.Follows a b)
    (ha : a.Undoing) : b.Undoing := by
  rcases h with rfl | h | ⟨_, h⟩
  · exact ha
  · subst h
    rcases ha with h | h <;> cases h
  · exact .inr h

theorem Cancelled.evolves {x : String} {data : SubscriptionData} (h : Cancelled s x data)
    (he : Evolves s s') : Cancelled s' x data :=
  he.log _ h

/-- Whatever the others do, the assertion still holds when the operation is
issued. -/
theorem Ready.evolves {o : Op} (h : Ready D c s o) (he : Evolves s s') : Ready D c s' o := by
  unfold Ready at h ⊢
  -- one case per kind of operation, in the order of `Ready`
  split at h
  · obtain ⟨hst, inst, hx, hid, htok, hu⟩ := h
    obtain ⟨inst', hx', hdata, _, hfol⟩ := he.sagas hx
    exact ⟨hst, inst', hx', by rw [hdata]; exact hid, by rw [hdata]; exact htok, hfol.undoing hu⟩
  · obtain ⟨hst, data, hd, htok, hid⟩ := h
    exact ⟨hst, data, hd.evolves he, htok, hid⟩
  · exact h
  · exact h
  · obtain ⟨htok, row, hrow, hk⟩ := h
    obtain ⟨row', hrow', hkey⟩ := he.rows hrow
    exact ⟨htok, row', hrow', by rw [hkey]; exact hk⟩
  · exact h
  · exact ⟨h.1, h.2.1.evolves he, h.2.2⟩
  · exact h
  · obtain ⟨inst, hx, hc⟩ := h
    obtain ⟨inst', hx', hdata, _⟩ := he.sagas hx
    exact ⟨inst', hx', by rw [hdata]; exact hc.evolves he⟩
  · obtain ⟨hkey, x, inst, traceID, payload, hc, hx, hp, hb⟩ := h
    obtain ⟨inst', hx', hdata, _⟩ := he.sagas hx
    exact ⟨hkey, x, inst', traceID, payload, hc, hx', by rw [hdata]; exact hp, hb⟩
  · refine ⟨h.1, fun hst => ?_⟩
    obtain ⟨ch, inst, hch, hx, hst⟩ := h.2 hst
    obtain ⟨ch', hch', hid⟩ := he.chans hch
    obtain ⟨inst', hx', _, _, hfol⟩ := he.sagas hx
    exact ⟨ch', inst', hch', by rw [hid]; exact hx', hfol.completed hst⟩
  · obtain ⟨x, ch, hc, hch, hid⟩ := h
    obtain ⟨ch', hch', hid'⟩ := he.chans hch
    exact ⟨x, ch', hc, hch', hid'.trans hid⟩
  · trivial

end Stable

/-! ## The invariant is kept -/

section Invariant

variable {D : Deps} {c : Call} {s s' : State} {o : Op} {ch : Choice} {r : o.Res}

/-- A registered channel is one for its saga. -/
theorem SagaInv.waiters_step (h : SagaInv s) (hw : WaitStep s s' o) {x : String} {n : Nat}
    (hx : s'.waiters x = some n) : ∃ c, s'.chans[n]? = some c ∧ c.sagaID = x := by
  have hold : s.waiters x = some n → ∃ c, s'.chans[n]? = some c ∧ c.sagaID = x := by
    intro hx
    obtain ⟨c, hc, hid⟩ := h.waiters hx
    obtain ⟨c', hc', hid'⟩ := hw.persists hc
    exact ⟨c', hc', hid'.trans hid⟩
  cases hw with
  | stay waiters chans => exact hold (waiters ▸ hx)
  | @register sagaID waiters chans =>
    rw [waiters, Function.update_apply] at hx
    split at hx
    · next heq =>
      subst heq
      rw [Option.some.injEq] at hx
      subst hx
      exact ⟨⟨x, none⟩, by rw [chans]; simp, rfl⟩
    · exact hold hx
  | @unregister sagaID waiters chans =>
    rw [waiters, Function.update_apply] at hx
    split at hx
    · cases hx
    · exact hold hx
  | send waiters _ _ => exact hold (waiters ▸ hx)
  | receive waiters _ _ => exact hold (waiters ▸ hx)

/-- A channel says "completed" only after the saga is. -/
theorem SagaInv.signalled_step (h : SagaInv s) (hr : Ready D c s o) (hw : WaitStep s s' o)
    (he : Evolves s s') {n : Nat} {d : Chan} (hd : s'.chans[n]? = some d)
    (hbuf : d.buf = some .completed) :
    ∃ inst, s'.sagas.get d.sagaID = some inst ∧ inst.state = .completed := by
  have hlater : (∃ inst, s.sagas.get d.sagaID = some inst ∧ inst.state = .completed) →
      ∃ inst, s'.sagas.get d.sagaID = some inst ∧ inst.state = .completed := by
    rintro ⟨inst, hx, hst⟩
    obtain ⟨inst', hx', _, _, hfol⟩ := he.sagas hx
    exact ⟨inst', hx', hfol.completed hst⟩
  refine hlater ?_
  rcases hw.buffered hd hbuf with hold | ⟨e, rfl, he', hid⟩
  · exact h.signalled hold hbuf
  · -- the sender had seen the saga completed
    obtain ⟨e₀, inst, he₀, hx, hst⟩ := hr.2 rfl
    rw [he', Option.some.injEq] at he₀
    rw [← he₀, hid] at hx
    exact ⟨inst, hx, hst⟩

/-- A cancellation on record belongs to a saga that was claimed. -/
theorem SagaInv.issued_step (h : SagaInv s) (hr : Ready D c s o) (hl : LogStep s s' o)
    (he : Evolves s s') {x token : String} {id : Nat} {status : Status} {ok : Bool}
    (hw : (⟨.compensation x token, id, status, ok⟩ : StatusWrite) ∈ s'.statusLog) :
    ∃ inst, s'.sagas.get x = some inst ∧ inst.state.Undoing := by
  have hlater : (∃ inst, s.sagas.get x = some inst ∧ inst.state.Undoing) →
      ∃ inst, s'.sagas.get x = some inst ∧ inst.state.Undoing := by
    rintro ⟨inst, hx, hst⟩
    obtain ⟨inst', hx', _, _, hfol⟩ := he.sagas hx
    exact ⟨inst', hx', hfol.undoing hst⟩
  refine hlater ?_
  cases hl with
  | stay log => rw [log] at hw; exact h.issued hw
  | @write origin status' id' succeeded log =>
    rw [log, List.mem_cons] at hw
    rcases hw with hw | hw
    · simp only [StatusWrite.mk.injEq] at hw
      rw [← hw.1] at hr
      obtain ⟨_, inst, hx, _, _, hu⟩ := hr
      exact ⟨inst, hx, hu⟩
    · exact h.issued hw

/-- A saga is failed only after its subscription was cancelled. -/
theorem SagaInv.undone_step (h : SagaInv s) (hr : Ready D c s o) (hx : SagaStep s s' o)
    (he : Evolves s s') {x : String} {inst' : Instance} (hx' : s'.sagas.get x = some inst')
    (hst : inst'.state = .failed) : Cancelled s' x inst'.data := by
  cases hget : s.sagas.get x with
  | none =>
    obtain ⟨_, _, haw, _⟩ := hx.created hget hx'
    rw [haw] at hst
    cases hst
  | some inst =>
    obtain ⟨i, hi, hdata, _, hedge⟩ := hx.follows hget
    rw [hx', Option.some.injEq] at hi
    subst hi
    rw [hdata]
    refine Cancelled.evolves ?_ he
    by_cases hf : inst.state = .failed
    · exact h.undone hget hf
    · -- the saga fails just now, and `MarkCompensated` is issued after the cancellation
      have ho := hx.marked hget hx' hf hst
      subst ho
      obtain ⟨inst₀, hget₀, hc⟩ := hr
      rw [hget, Option.some.injEq] at hget₀
      subst hget₀
      exact hc

/-- Every operation issued under its assertion keeps the invariant. -/
theorem SagaInv.step (h : SagaInv s) (hr : Ready D c s o) (hx : exec s o ch = some (r, s')) :
    SagaInv s' where
  waiters := h.waiters_step (exec_waiting hx)
  signalled := h.signalled_step hr (exec_waiting hx) (exec_evolves hx)
  issued := h.issued_step hr (exec_log hx) (exec_evolves hx)
  undone := h.undone_step hr (exec_sagas hx) (exec_evolves hx)

theorem SagaInv.enter {c : Call} (h : SagaInv s) (hc : enter c s = some s') : SagaInv s' := by
  rw [(enter_eq hc).2]
  exact ⟨h.waiters, h.signalled, h.issued, h.undone⟩

theorem SagaInv.world {e : WorldEvent} (h : SagaInv s) (he : world e s = some s') :
    SagaInv s' := by
  rcases world_eq he with ⟨d, rfl⟩ | rfl
  · exact ⟨h.waiters, h.signalled, h.issued, h.undone⟩
  · exact ⟨by simp, h.signalled, h.issued, h.undone⟩

end Invariant

/-! ## The contract -/

/-- Every call keeps `SagaInv`, issues its operations under their assertions,
and relies on nothing but what no step undoes. -/
def sagaContract (D : Deps) : Contract Op Op.Res State Call where
  inv := SagaInv
  rely _ _ := Evolves
  guar c o _ s _ := Ready D c s o

/-- What holds of what a call returned: no error from `Subscribe` or
`StartAndWait` means that the call's own saga is completed. -/
def Returned (D : Deps) (c : Call) (ret : Ret) (s : State) : Prop :=
  c.sagaID?.isSome → ret = .error none → OwnSaga D c s (· = .completed)

section Programs

variable {D : Deps} {c : Call} {s : State} {α : Type} {post : α → State → Prop}

/-- Assertions speak of what evolves, so neighbours keep them. -/
theorem sagaContract_annotates (D : Deps) :
    Annotates Executed (sagaContract D) (Ready D) where
  keeps := fun hinv hr ⟨_, hx⟩ => ⟨SagaInv.step hinv hr hx, hr⟩
  stable := fun _ _ hr he => Ready.evolves hr he

/-- The rule for one operation: its assertion, and whatever else is worth
remembering until it is issued. -/
theorem safe_op_keeping {o : Op} {k : o.Res → P α} (Q : State → Prop)
    (hstable : ∀ a b, Q a → Evolves a b → Q b) (hready : Ready D c s o) (hQ : Q s)
    (hstep : ∀ a r b, SagaInv a → Q a → Executed c o r a b → Q b →
      Safe Executed (sagaContract D) c post (k r) b) :
    Safe Executed (sagaContract D) c post (.op o k) s := by
  refine (sagaContract_annotates D).op Q (fun a b hq he => hstable a b hq he) hready hQ ?_
  rintro a r b hinv hq ⟨ch, hx⟩
  exact hstep a r b hinv hq ⟨ch, hx⟩ (hstable a b hq (exec_evolves hx))

/-- An operation before which nothing needs to be remembered. -/
theorem safe_op {o : Op} {k : o.Res → P α} (hready : Ready D c s o)
    (hstep : ∀ a r b, SagaInv a → Executed c o r a b →
      Safe Executed (sagaContract D) c post (k r) b) :
    Safe Executed (sagaContract D) c post (.op o k) s :=
  safe_op_keeping (fun _ => True) (fun _ _ _ _ => trivial) hready trivial
    (fun a r b hinv _ hx _ => hstep a r b hinv hx)

/-- What no step undoes is still there at the end. -/
theorem safe_frame {Q : State → Prop} {p : P α} (h : Safe Executed (sagaContract D) c post p s)
    (hQ : Q s) (hstable : ∀ a b, Q a → Evolves a b → Q b) :
    Safe Executed (sagaContract D) c (fun a s => post a s ∧ Q s) p s := by
  refine h.frame hQ (fun _ a b _ _ hq he => hstable a b hq he) ?_
  rintro o r a b _ hq ⟨ch, hx⟩
  exact hstable a b hq (exec_evolves hx)

/-- The rule for a one-statement function. -/
theorem safe_statement {o : Op} {answer : o.Res → α} (hready : Ready D c s o)
    (hpost : ∀ a r b, SagaInv a → Executed c o r a b → post (answer r) b) :
    Safe Executed (sagaContract D) c post (statement o answer) s :=
  safe_op hready (fun a r b hi hx => Safe.ret (hpost a r b hi hx))

/-- A status write on which `UpdateStatus` reports no error, or no row, was
carried out. -/
theorem updateStatus_safe {origin : Origin} {status : Status} {id : Nat}
    (hready : Ready D c s (.stmtUpdateStatus origin status id)) :
    Safe Executed (sagaContract D) c
      (fun res b => (∀ e, res = some e → e.is .errNotFound = true) →
        (⟨origin, id, status, true⟩ : StatusWrite) ∈ b.statusLog)
      (Repo.updateStatus origin id status) s := by
  refine safe_statement hready ?_
  rintro a r b _ ⟨ch, hx⟩ hres
  rcases exec_updateStatus hx with ⟨e, rfl, hne, rfl⟩ | ⟨t, n, _, rfl, rfl | ⟨f, rfl⟩ | ⟨f, rfl⟩⟩
  · have := hres _ rfl
    simp [Err.is, hne] at this
  · exact List.mem_cons_self
  · have := hres _ rfl
    simp [Err.is] at this
  · have := hres _ rfl
    simp [Err.is] at this

/-- `Cancel` answers without an error only if the statement did. -/
theorem cancel_safe {origin : Origin} {id : Nat}
    (hready : Ready D c s (.stmtUpdateStatus origin .unsubscribed id)) :
    Safe Executed (sagaContract D) c
      (fun res b => res = none → (⟨origin, id, .unsubscribed, true⟩ : StatusWrite) ∈ b.statusLog)
      (cancel origin id) s := by
  refine Safe.bind (updateStatus_safe hready) (fun res b hb => ?_)
  cases res with
  | none => exact Safe.ret (fun _ => hb (by simp))
  | some err =>
    by_cases hnf : err.is .errNotFound = true
    · simp only [hnf, if_true]
      refine Safe.ret (fun _ => hb (fun e he => ?_))
      cases he
      exact hnf
    · simp only [if_neg hnf]
      exact Safe.ret (fun h => by cases h)

variable {data : SubscriptionData} {x : String}

/-- Sagas stay, with their data. -/
theorem saga_stable (a b : State) (h : ∃ inst, a.sagas.get x = some inst ∧ inst.data = data)
    (he : Evolves a b) : ∃ inst, b.sagas.get x = some inst ∧ inst.data = data := by
  obtain ⟨inst, hx, hd⟩ := h
  obtain ⟨inst', hx', hd', _⟩ := he.sagas hx
  exact ⟨inst', hx', hd'.trans hd⟩

/-- So do channels, with the saga they were registered for. -/
theorem chan_stable {n : Nat} (a b : State) (h : ∃ ch, a.chans[n]? = some ch ∧ ch.sagaID = x)
    (he : Evolves a b) : ∃ ch, b.chans[n]? = some ch ∧ ch.sagaID = x := by
  obtain ⟨ch, hch, hid⟩ := h
  obtain ⟨ch', hch', hid'⟩ := he.chans hch
  exact ⟨ch', hch', hid'.trans hid⟩

/-- The end of `compensate`, on a saga that has been claimed. -/
theorem cancelAndMark_safe {inst : Instance} (hx : s.sagas.get x = some inst)
    (hdata : inst.data = data) (hu : inst.state.Undoing) :
    Safe Executed (sagaContract D) c (fun _ _ => True) (cancelAndMark x data) s := by
  have hready : Ready D c s
      (.stmtUpdateStatus (.compensation x data.token) .unsubscribed data.subscriptionID) :=
    ⟨rfl, inst, hx, by rw [hdata], by rw [hdata], hu⟩
  refine Safe.bind (safe_frame (cancel_safe hready) ⟨inst, hx, hdata⟩ (saga_stable (x := x))) ?_
  rintro res b ⟨hres, inst', hx', hd⟩
  cases res with
  | some err => exact Safe.ret trivial
  | none =>
    refine safe_statement ⟨inst', hx', ?_⟩ (fun _ _ _ _ _ => trivial)
    rw [hd]
    exact hres rfl

/-- `compensate` claims the saga or finds it claimed before it cancels. -/
theorem compensate_safe (x : String) :
    Safe Executed (sagaContract D) c (fun _ _ => True) (compensate x) s := by
  refine safe_op trivial ?_
  rintro a r b _ ⟨ch, hex⟩
  rcases exec_claim hex with ⟨rfl, e, rfl⟩ | ⟨rfl, _, hdata⟩
  · exact Safe.ret trivial
  · rcases r with e | _ | e | data
    · exact Safe.ret trivial
    · -- the claim was lost: resume if the saga is compensating
      refine safe_op trivial ?_
      rintro a r b _ ⟨ch, hex⟩
      obtain ⟨rfl, hget⟩ := exec_sagaGet hex
      rcases r with e | _ | e | inst
      · exact Safe.ret trivial
      · exact Safe.ret trivial
      · exact Safe.ret trivial
      · show Safe _ _ _ _ (if inst.state ≠ .compensating then _ else _) _
        by_cases hst : inst.state = .compensating
        · rw [if_neg (fun h => h hst)]
          exact cancelAndMark_safe (hget inst rfl) rfl (.inl hst)
        · rw [if_pos hst]
          exact Safe.ret trivial
    · exact Safe.ret trivial
    · -- the claim was won, so the saga is compensating from here on
      obtain ⟨inst, hx, hd, hst⟩ := claimed_saga (hdata data rfl)
      exact cancelAndMark_safe hx hd (.inl hst)

/-- A waiter is only told "completed" when its saga is. -/
theorem signalWaiter_safe {state : SagaState} (hc : ∃ body, c = .handleReply body)
    (h : state = .completed → ∃ inst, s.sagas.get x = some inst ∧ inst.state = .completed) :
    Safe Executed (sagaContract D) c (fun _ _ => True) (signalWaiter x state) s := by
  refine safe_op_keeping
    (fun s => state = .completed → ∃ inst, s.sagas.get x = some inst ∧ inst.state = .completed)
    ?_ trivial h ?_
  · intro a b hq he hst
    obtain ⟨inst, hx, hc⟩ := hq hst
    obtain ⟨inst', hx', _, _, hfol⟩ := he.sagas hx
    exact ⟨inst', hx', hfol.completed hc⟩
  · rintro a r b hinv hq ⟨ch, hex⟩ _
    obtain ⟨rfl, hr⟩ := exec_lookupWaiter hex
    cases r with
    | none => exact Safe.ret trivial
    | some n =>
      obtain ⟨d, hd, hid⟩ := hinv.waiters hr.symm
      refine safe_op ⟨hc, fun hst => ?_⟩ (fun _ _ _ _ _ => Safe.ret trivial)
      obtain ⟨inst, hx, hcomp⟩ := hq hst
      exact ⟨d, inst, hd, by rw [hid]; exact hx, hcomp⟩

/-- The waiter is told after the row has moved. -/
theorem onConfirmationSent_safe (hready : Ready D c s (.sagaCompleteIfAwaiting x)) :
    Safe Executed (sagaContract D) c (fun _ _ => True) (onConfirmationSent x) s := by
  refine safe_op hready ?_
  rintro a r b _ ⟨ch, hex⟩
  rcases r with e | e | n
  · exact Safe.ret trivial
  · exact Safe.ret trivial
  · show Safe _ _ _ _ (if decide (n = 1) = true then _ else _) _
    by_cases hn : n = 1
    · rw [if_pos (by simpa using hn)]
      have hc : ∃ body, c = .handleReply body := by
        obtain ⟨body, _, hc, _⟩ := hready
        exact ⟨body, hc⟩
      refine Safe.bind (signalWaiter_safe hc (fun _ => ?_)) (fun _ _ _ => Safe.ret trivial)
      -- one row was hit, so the saga was awaiting and is completed now
      rcases exec_complete hex with ⟨_, e, he⟩ | ⟨rfl, hhits⟩
      · cases he
      · have hhit := hhits n rfl
        rw [hn, SagaTable.hits_eq] at hhit
        split at hhit
        · next hst =>
          obtain ⟨inst, hx, hst⟩ := Option.map_eq_some_iff.mp hst
          refine ⟨{ inst with state := .completed }, ?_, rfl⟩
          simp [State.moveSaga, SagaTable.get_transition, hx, hst]
        · cases hhit
    · rw [if_neg (by simpa using hn)]
      exact Safe.ret trivial

theorem onConfirmationFailed_safe (x : String) (hc : ∃ body, c = .handleReply body) :
    Safe Executed (sagaContract D) c (fun _ _ => True) (onConfirmationFailed x) s := by
  refine Safe.bind (compensate_safe x) (fun res b _ => ?_)
  cases res with
  | some err => exact Safe.ret trivial
  | none =>
    exact Safe.bind (signalWaiter_safe hc (fun h => by cases h)) (fun _ _ _ => Safe.ret trivial)

theorem handleReply_safe (body : Bytes) (hc : c = .handleReply body) :
    Safe Executed (sagaContract D) c (fun _ _ => True) (handleReply D body) s := by
  unfold handleReply
  cases hr : D.json.reply.unmarshal body with
  | error f => exact Safe.ret trivial
  | ok reply =>
    dsimp only
    by_cases hsent : reply.type = replyConfirmationSent
    · rw [if_pos hsent]
      exact onConfirmationSent_safe ⟨body, reply, hc, hr, hsent, rfl⟩
    · rw [if_neg hsent]
      by_cases hfailed : reply.type = replyConfirmationFailed
      · rw [if_pos hfailed]
        exact onConfirmationFailed_safe _ ⟨body, hc⟩
      · rw [if_neg hfailed]
        exact Safe.ret trivial

theorem reapLoop_safe (ids : List String) :
    Safe Executed (sagaContract D) c (fun _ _ => True) (reapLoop ids) s := by
  induction ids generalizing s with
  | nil => exact Safe.ret trivial
  | cons id ids ih =>
    refine safe_op trivial (fun a done b _ _ => ?_)
    cases done with
    | true => exact Safe.ret trivial
    | false =>
      show Safe _ _ _ _ (compensate id >>= fun _ => reapLoop ids) _
      exact Safe.bind (compensate_safe id) (fun _ _ _ => ih)

theorem reap_safe : Safe Executed (sagaContract D) c (fun _ _ => True) reap s := by
  refine safe_op trivial (fun a r b _ _ => ?_)
  cases r with
  | error e => exact Safe.ret trivial
  | ok ids => exact reapLoop_safe ids

/-! ## `StartAndWait` -/

/-- The saga `x` is the call's own, with the data it was started with. -/
def Started (D : Deps) (c : Call) (x : String) (data : SubscriptionData) (s : State) : Prop :=
  c.sagaID? = some x ∧ OwnData D c s data ∧ ∃ inst, s.sagas.get x = some inst ∧ inst.data = data

theorem Started.evolves (a b : State) (h : Started D c x data a) (he : Evolves a b) :
    Started D c x data b :=
  ⟨h.1, h.2.1.evolves he, saga_stable a b h.2.2 he⟩

variable {ctx : Context}

/-- A command is published for a saga that is in the table. -/
theorem publishConfirmation_safe (h : Started D c x data s) :
    Safe Executed (sagaContract D) c (fun _ _ => True) (publishConfirmation D ctx x data) s := by
  obtain ⟨hid, _, inst, hx, rfl⟩ := h
  unfold publishConfirmation
  cases hp : D.json.payload.marshal ⟨inst.data.email, inst.data.repo, inst.data.confirmURL⟩ with
  | error f => exact Safe.ret trivial
  | ok payload =>
    cases hb : D.json.command.marshal
        ⟨x, cmdSendConfirmation, ctx.traceID.getD "", payload⟩ with
    | error f => simp only [hb]; exact Safe.ret trivial
    | ok body =>
      simp only [hb]
      exact safe_statement ⟨rfl, x, inst, _, payload, hid, hx, hp, hb⟩
        (fun _ _ _ _ _ => trivial)

/-- Nil means that the channel of this very saga said "completed". -/
theorem dispatchAndWait_safe {n : Nat} (h : Started D c x data s)
    (hn : ∃ ch, s.chans[n]? = some ch ∧ ch.sagaID = x) :
    Safe Executed (sagaContract D) c
      (fun res b => res = none → OwnSaga D c b (· = .completed))
      (dispatchAndWait D ctx data x n) s := by
  -- the saga and the channel are there until the end
  let Q : State → Prop := fun s => Started D c x data s ∧
    ∃ ch, s.chans[n]? = some ch ∧ ch.sagaID = x
  have hQ : ∀ a b, Q a → Evolves a b → Q b :=
    fun a b h he => ⟨h.1.evolves a b he, chan_stable a b h.2 he⟩
  refine Safe.bind (safe_frame (Q := Q) (publishConfirmation_safe h) ⟨h, hn⟩ hQ) ?_
  rintro res b ⟨_, hs, ch, hch, hid⟩
  cases res with
  | some err =>
    refine Safe.bind (compensate_safe x) (fun _ _ _ => Safe.ret (fun h => ?_))
    cases h
  | none =>
    refine safe_op_keeping Q hQ ⟨x, ch, hs.1, hch, hid⟩ ⟨hs, ch, hch, hid⟩ ?_
    rintro a r b hinv ⟨_, ch, hch, hid⟩ ⟨choice, hex⟩ ⟨hs', _⟩
    cases r with
    | timeout => exact Safe.ret (fun h => by cases h)
    | done e => exact Safe.ret (fun h => by cases h)
    | received final =>
      show Safe _ _ _ _ (if final = .completed then _ else _) _
      by_cases hf : final = .completed
      · rw [if_pos hf]
        refine Safe.ret (fun _ => ?_)
        -- the channel is this saga's, and it said "completed"
        obtain ⟨d, hd, hbuf⟩ := exec_await hex
        rw [hch, Option.some.injEq] at hd
        subst hd
        obtain ⟨inst, hx, hst⟩ := hinv.signalled hch (by rw [hbuf, hf])
        rw [hid] at hx
        obtain ⟨hc, hown, inst', hx', hd'⟩ := hs'
        obtain ⟨i, hi, hdata, _, hfol⟩ := (exec_evolves hex).sagas hx
        rw [hx', Option.some.injEq] at hi
        subst hi
        exact ⟨x, inst', hc, hx', by rw [hd']; exact hown, hfol.completed hst⟩
      · rw [if_neg hf]
        exact Safe.ret (fun h => by cases h)

theorem ownSaga_completed_stable (a b : State) (h : OwnSaga D c a (· = .completed))
    (he : Evolves a b) : OwnSaga D c b (· = .completed) :=
  h.evolves he (fun _ _ hfol => hfol.completed)

/-- `Store.Create` without an error leaves the saga behind. -/
theorem sagaStoreCreate_safe (hid : c.sagaID? = some x) (hown : OwnData D c s data) :
    Safe Executed (sagaContract D) c
      (fun res b => OwnData D c b data ∧ (res = none → Started D c x data b))
      (SagaStore.create x data D.timeout) s := by
  refine safe_op_keeping (fun s => OwnData D c s data) (fun a b h he => h.evolves he)
    ⟨hid, hown, rfl⟩ hown ?_
  rintro a r b _ _ ⟨ch, hex⟩ hown
  refine Safe.ret ⟨hown, fun hres => ⟨hid, hown, ?_⟩⟩
  rcases exec_sagaCreate hex with ⟨_, e, rfl⟩ | ⟨hnone, rfl⟩
  · cases hres
  · exact ⟨⟨x, .awaitingConfirmation, data, a.now + D.timeout⟩,
      by simp [SagaTable.get_insert], rfl⟩

/-- `StartAndWait` returns nil only if its saga is completed. -/
theorem startAndWait_safe (hid : c.sagaID? = some x) (hown : OwnData D c s data) :
    Safe Executed (sagaContract D) c
      (fun res b => res = none → OwnSaga D c b (· = .completed))
      (startAndWait D ctx data x) s := by
  refine Safe.bind (sagaStoreCreate_safe hid hown) ?_
  rintro res b ⟨hown, hstarted⟩
  cases res with
  | some err =>
    have hready : Ready D c b
        (.stmtUpdateStatus (.rollback data.token) .unsubscribed data.subscriptionID) :=
      ⟨rfl, data, hown, rfl, rfl⟩
    refine Safe.bind (cancel_safe hready) (fun _ _ _ => Safe.ret (fun h => ?_))
    cases h
  | none =>
    refine safe_op_keeping (Started D c x data) Started.evolves trivial (hstarted rfl) ?_
    rintro a n b _ _ ⟨ch, hex⟩ hs
    show Safe _ _ _ _ (dispatchAndWait D ctx data x n >>= fun res =>
      unregisterWaiter x >>= fun _ => pure res) _
    refine Safe.bind (dispatchAndWait_safe hs ⟨_, exec_registerWaiter hex, rfl⟩) ?_
    intro res b hres
    refine safe_op_keeping (fun s => res = none → OwnSaga D c s (· = .completed)) ?_ trivial hres
      (fun _ _ _ _ _ _ hq => Safe.ret hq)
    intro a b hq he hn
    exact ownSaga_completed_stable a b (hq hn) he

/-! ## `Subscribe`, `Confirm`, `Unsubscribe` -/

/-- The row with this id is for the call's triple. -/
def RowFor (D : Deps) (c : Call) (id : Nat) (s : State) : Prop :=
  ∃ row, s.tables.byID id = some row ∧ c.key? D = some row.key

theorem RowFor.evolves {id : Nat} (a b : State) (h : RowFor D c id a) (he : Evolves a b) :
    RowFor D c id b := by
  obtain ⟨row, hrow, hk⟩ := h
  obtain ⟨row', hrow', hkey⟩ := he.rows hrow
  exact ⟨row', hrow', by rw [hkey]; exact hk⟩

/-- A `Subscribe` reserves rows for its triple, under the token it drew. -/
theorem saga_reserving {k : Key} {draw : Except Fault String}
    (hdraw : ∀ token, draw = .ok token → c.token? = some token) (hkey : c.key? D = some k) :
    Reserving Executed (sagaContract D) (Ready D) c k draw (RowFor D c) (RowFor D c) where
  annotates := sagaContract_annotates D
  executes := fun h => h
  lookup := fun _ => trivial
  upsert := fun _ => trivial
  create := fun _ token htok => ⟨rfl, hdraw token htok, hkey⟩
  refresh := fun htok hrow => ⟨hdraw _ htok, hrow⟩
  found := fun hrow hk _ => ⟨_, hrow, by rw [hk]; exact hkey⟩
  held := fun hrow he => hrow.evolves _ _ he
  refreshed := fun _ hrow ⟨_, hx⟩ => hrow.evolves _ _ (exec_evolves hx)
  created := by
    rintro token n a b htok ⟨ch, hx⟩
    rcases exec_create hx with ⟨_, e, he⟩ | ⟨t, ht, rfl, hr | ⟨f, hr⟩⟩
    · cases he
    · cases hr
      exact ⟨a.tables.newRow k token .pending, by simp [(Tables.createQuery_ok ht).1], hkey⟩
    · cases hr

/-- The token of a `Subscribe` call is the one it drew. -/
theorem Call.token?_subscribe {rawEmail rawRepo : String} {draws : Draws} {token : String}
    (h : draws.token = .ok token) :
    (Call.subscribe ctx rawEmail rawRepo draws).token? = some token := by
  obtain ⟨tok, sid⟩ := draws
  dsimp only at h
  rw [h]
  rfl

/-- `Subscribe` starts its saga with the row that it reserved. -/
theorem subscribe_safe {rawEmail rawRepo : String} {draws : Draws}
    (hc : c = .subscribe ctx rawEmail rawRepo draws) :
    Safe Executed (sagaContract D) c
      (fun res b => res = none → OwnSaga D c b (· = .completed))
      (subscribe D ctx rawEmail rawRepo draws) s := by
  have hdraw : ∀ token, draws.token = .ok token → c.token? = some token := by
    intro token htok
    rw [hc]
    exact Call.token?_subscribe htok
  have hreserve : ∀ addr ref, parseSubscribeInput D rawEmail rawRepo = .ok (addr, ref) →
      Reserving Executed (sagaContract D) (Ready D) c ⟨addr, ref.owner, ref.name⟩ draws.token
        (RowFor D c) (RowFor D c) := by
    intro addr ref hparse
    refine saga_reserving hdraw ?_
    rw [hc]
    simp [Call.key?, hparse]
  refine subscribe_rule (sagaContract_annotates D) (fun _ _ _ => trivial) hreserve ?_
  intro sub ref s hrow htok
  have hown : OwnData D c s (sagaData D sub ref) := by
    subst hc
    exact ⟨hdraw _ htok, rfl, hrow⟩
  exact startAndWait_safe (by rw [hc]; rfl) hown

theorem confirm_safe {token : String} (hc : c = .confirm token) :
    Safe Executed (sagaContract D) c (fun _ _ => True) (confirm token) s :=
  (sagaContract_annotates D).free (confirm_uses (fun _ => trivial) (fun _ _ => ⟨rfl, hc⟩))

theorem unsubscribe_safe {token : String} (hc : c = .unsubscribe token) :
    Safe Executed (sagaContract D) c (fun _ _ => True) (unsubscribe token) s :=
  (sagaContract_annotates D).free (unsubscribe_uses (fun _ => trivial) (fun _ _ => ⟨rfl, hc⟩))

/-- Every call of the monolith meets the contract. -/
theorem program_safe (D : Deps) (c : Call) (s : State) :
    Safe Executed (sagaContract D) c (Returned D c) (program D c) s := by
  cases c with
  | subscribe ctx rawEmail rawRepo draws =>
    refine Safe.bind (subscribe_safe rfl) (fun res b hb => Safe.ret (fun _ h => hb ?_))
    simpa using h
  | confirm token =>
    exact Safe.bind (confirm_safe rfl) (fun _ _ _ => Safe.ret (fun h => by cases h))
  | unsubscribe token =>
    exact Safe.bind (unsubscribe_safe rfl) (fun _ _ _ => Safe.ret (fun h => by cases h))
  | handleReply body =>
    exact Safe.bind (handleReply_safe body rfl) (fun _ _ _ => Safe.ret (fun h => by cases h))
  | reap => exact Safe.bind reap_safe (fun _ _ _ => Safe.ret (fun h => by cases h))
  | startAndWait ctx data sagaID =>
    refine Safe.bind (startAndWait_safe rfl rfl) (fun res b hb => Safe.ret (fun _ h => hb ?_))
    simpa using h

end Programs

/-! ## Every run -/

/-- Nothing is said of what a call returns. -/
def Anything (_ : Call) (_ : Ret) (_ : State) : Prop := True

/-- Every event may happen. -/
def Always (_ : Pool Op Op.Res State Call Ret) (_ : Event Choice Call WorldEvent) : Prop := True

variable {D : Deps}

theorem Returned.evolves {c : Call} {ret : Ret} {s s' : State} (h : Returned D c ret s)
    (he : Evolves s s') : Returned D c ret s' :=
  fun hc hr => ownSaga_completed_stable s s' (h hc hr) he

/-- **The calls of the monolith fit together**: all of them only move the state forward. -/
theorem monolith_respects (D : Deps) :
    Respects (monolith D) Always Executed (sagaContract D) (Returned D) (Returned D) := by
  have hstands : ∀ {th : Thread Op Op.Res Call Ret} {s s' : State}, Evolves s s' →
      Stands (sagaContract D) (Returned D) th s s' :=
    fun he => ⟨fun _ _ => he, fun _ _ h => h.evolves he⟩
  refine ⟨fun _ _ _ _ h => h, ?_, ?_, ?_, ?_⟩
  · intro p c s _ hp hent
    exact ⟨hp.1.enter hent, program_safe D c s, fun _ _ _ => hstands (enter_evolves hent)⟩
  · intro p i ch th o k r s _ _ _ _ _ hx
    exact ⟨ch, hx⟩
  · intro p i ch th o k r s _ _ _ _ _ hx _ _ j th' _ _
    exact hstands (exec_evolves hx)
  · intro p e s _ hp henv
    exact ⟨hp.1.world henv, fun _ _ _ => hstands (world_evolves henv)⟩

/-- A pool that every event of a run may assume. -/
abbrev MonolithSafe (D : Deps) (p : Pool Op Op.Res State Call Ret) : Prop :=
  PoolSafe Executed (sagaContract D) (Returned D) (Returned D) p

variable {p : Pool Op Op.Res State Call Ret}

/-- Every run of the monolith is safe, whatever fails. -/
theorem monolith_safe {Cond : Pool Op Op.Res State Call Ret →
      Event Choice Call WorldEvent → Prop} {es : List (Event Choice Call WorldEvent)}
    (h : (monolith D).Run Cond monolithInit es p) :
    MonolithSafe D p := by
  have hinit : MonolithSafe D monolithInit :=
    ⟨SagaInv.init, fun i th hth => by simp [monolithInit] at hth⟩
  exact hinit.run (monolith_respects D) (h.mono (fun _ _ _ => trivial))

/-- The pools of a run may be assumed safe wherever its condition is used. -/
theorem run_safe {Cond : Pool Op Op.Res State Call Ret →
      Event Choice Call WorldEvent → Prop} {es : List (Event Choice Call WorldEvent)}
    (h : (monolith D).Run Cond monolithInit es p) :
    (monolith D).Run (fun p e => Cond p e ∧ MonolithSafe D p) monolithInit es p :=
  h.strengthen (fun _ _ _ hr _ => monolith_safe hr)

/-- What is known of an operation of a run: it was executed under its assertion,
and the invariant holds before and after it. -/
structure Known (D : Deps) (c : Call) (o : Op) (ch : Choice) (r : o.Res) (s s' : State) : Prop where
  exec : exec s o ch = some (r, s')
  ready : Ready D c s o
  before : SagaInv s
  after : SagaInv s'

/-- The same, for some outcome chosen by the environment. -/
def Recorded (D : Deps) (c : Call) (o : Op) (r : o.Res) (s s' : State) : Prop :=
  ∃ ch, Known D c o ch r s s'

/-- A status is either withdrawn, or it is the one `Confirm` writes. -/
theorem Ready.status_written {c : Call} {s : State} {origin : Origin} {status : Status} {id : Nat}
    (h : Ready D c s (.stmtUpdateStatus origin status id)) :
    status = .unsubscribed ∨ (status = .active ∧ ∃ token, origin = .confirm token ∧
      c = .confirm token) := by
  cases origin with
  | confirm token => exact .inr ⟨h.1, token, rfl, h.2⟩
  | _ => exact .inl h.1

theorem MonolithSafe.known {i : Nat} {th : Thread Op Op.Res Call Ret} {o : Op} {k : o.Res → P Ret}
    {ch : Choice} {r : o.Res} {s : State} (h : MonolithSafe D p) (hth : p.threads[i]? = some th)
    (hend : th.ended = none) (hp : th.prog = .op o k)
    (hx : ReleaseNotifier.exec p.state o ch = some (r, s)) : Known D th.call o ch r p.state s := by
  obtain ⟨hinv, hready, _⟩ := PoolSafe.exec h hth hend hp ⟨ch, hx⟩
  exact ⟨hx, hready, h.1, hinv⟩

end ReleaseNotifier
