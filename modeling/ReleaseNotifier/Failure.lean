/-
What `ErrConfirmationFailed` says about the saga.

`StartAndWait` returns it after a failed publish, when it has tried to
compensate, and after a failure reply, when the reply consumer has. In both
cases the caller is told that the subscription was undone, but the code does not
make sure of it: the request's own compensation may fail and the error is
dropped, a publish may report an error although the command got through and the
saga was completed, and a failure reply that meets a completed saga signals
"failed" all the same. `CompensationPrevails` excludes exactly these, and then
the error means what it says.
-/
import ReleaseNotifier.Ready

set_option autoImplicit false

namespace ReleaseNotifier

open Conc

/-! ## The condition -/

/-- The saga an operation claims for compensation. -/
def Op.claims? : Op → Option String
  | .sagaClaimCompensation x => some x
  | _ => none

/-- The compensation that follows a failed publish does not fail itself, and
neither it nor a failure reply meets a completed or unknown saga. -/
def Prevails (c : Call) (s : State) (o : Op) (ch : Choice) : Prop :=
  (c.sagaID?.isSome = true → o.compensates = true → ch = .ok) ∧
    ∀ x ∈ o.claims?, c ≠ .reap → ∃ inst ∈ s.sagas.get x, inst.state ≠ .completed

instance (c : Call) (s : State) (o : Op) (ch : Choice) : Decidable (Prevails c s o ch) :=
  inferInstanceAs (Decidable (_ ∧ _))

/-- The condition on the events of a run. -/
def CompensationPrevails (p : Pool Op Op.Res State Call Ret) :
    Event Choice Call WorldEvent → Prop
  | .run i ch => ∀ x ∈ p.due? i, Prevails x.1 p.state x.2 ch
  | _ => True

instance (p : Pool Op Op.Res State Call Ret) : DecidablePred (CompensationPrevails p)
  | .run i ch => inferInstanceAs (Decidable (∀ x ∈ p.due? i, Prevails x.1 p.state x.2 ch))
  | .call _ => isTrue trivial
  | .kill _ => isTrue trivial
  | .env _ => isTrue trivial

/-! ## The contract -/

/-- Saga `x` is failed. -/
def Failed (x : String) (s : State) : Prop :=
  ∃ inst, s.sagas.get x = some inst ∧ inst.state = .failed

/-- Compensation of saga `x` has begun. -/
def Undoing (x : String) (s : State) : Prop :=
  ∃ inst, s.sagas.get x = some inst ∧ inst.state.Undoing

/-- `failed` is an end: no step leads out of it. -/
theorem Failed.evolves {x : String} (a b : State) (h : Failed x a) (he : Evolves a b) :
    Failed x b := by
  obtain ⟨inst, hx, hst⟩ := h
  obtain ⟨inst', hx', _, _, hfol⟩ := he.sagas hx
  refine ⟨inst', hx', ?_⟩
  rcases hfol with h | h | ⟨h, _⟩
  · rw [← h]; exact hst
  · rw [hst] at h; cases h
  · rw [hst] at h; cases h

/-- A compensation that has begun ends in `failed` or is still going on. -/
theorem Undoing.evolves {x : String} (a b : State) (h : Undoing x a) (he : Evolves a b) :
    Undoing x b := by
  obtain ⟨inst, hx, hst⟩ := h
  obtain ⟨inst', hx', _, _, hfol⟩ := he.sagas hx
  exact ⟨inst', hx', hfol.undoing hst⟩

/-- `MarkCompensated` ends a compensation, or finds it ended. -/
theorem Undoing.marked {x : String} {s : State} (h : Undoing x s) :
    Failed x (s.moveSaga .failed x .compensating) := by
  obtain ⟨inst, hx, hst | hst⟩ := h
  · refine ⟨{ inst with state := .failed }, ?_, rfl⟩
    simp [State.moveSaga, SagaTable.get_transition, hx, hst]
  · refine ⟨inst, ?_, hst⟩
    simp [State.moveSaga, SagaTable.get_transition, hx, hst]

/-- What is known of an operation under the condition. -/
def Prevailing (D : Deps) (c : Call) (o : Op) (r : o.Res) (s s' : State) : Prop :=
  ∃ ch, Known D c o ch r s s' ∧ Prevails c s o ch

/-- A channel says "failed" only if its saga is. -/
def FailureSignalled (s : State) : Prop :=
  ∀ (n : Nat) (c : Chan) (st : SagaState), s.chans[n]? = some c → c.buf = some st →
    st ≠ .completed → Failed c.sagaID s

/-- The assertion in front of a send. -/
def SendsFailure (_c : Call) (s : State) (o : Op) : Prop :=
  ∀ n st, o = .trySend n st → st ≠ .completed →
    ∃ ch, s.chans[n]? = some ch ∧ Failed ch.sagaID s

/-- The contract of this file. -/
def failureContract : Contract Op Op.Res State Call where
  inv := FailureSignalled
  rely _ _ := Evolves
  guar c o _ s _ := SendsFailure c s o

/-- A send is the one step that can put a failure into a channel. -/
theorem FailureSignalled.step {c : Call} {s s' : State} {o : Op} (h : FailureSignalled s)
    (ha : SendsFailure c s o) (hw : WaitStep s s' o) (he : Evolves s s') :
    FailureSignalled s' := by
  intro n d st hd hbuf hst
  refine Failed.evolves s s' ?_ he
  rcases hw.buffered hd hbuf with hold | ⟨e, rfl, he', hid⟩
  · exact h n d st hold hbuf hst
  · obtain ⟨e₀, he₀, hf⟩ := ha n st rfl hst
    rw [he', Option.some.injEq] at he₀
    rw [← he₀, hid] at hf
    exact hf

theorem failureContract_annotates (D : Deps) :
    Annotates (Prevailing D) failureContract SendsFailure where
  keeps := fun hinv ha ⟨_, hk, _⟩ =>
    ⟨FailureSignalled.step hinv ha (exec_waiting hk.exec) (exec_evolves hk.exec), ha⟩
  stable := by
    intro c o a b _ _ ha he n st ho hst
    obtain ⟨ch, hch, hf⟩ := ha n st ho hst
    obtain ⟨ch', hch', hid⟩ := Evolves.chans he hch
    exact ⟨ch', hch', by rw [hid]; exact hf.evolves a b he⟩

section Programs

variable {D : Deps} {c : Call} {s : State} {α : Type} {post : α → State → Prop}

/-- The rule for an operation that is not a send. -/
theorem failure_op {o : Op} {k : o.Res → P α} (Q : State → Prop)
    (hstable : ∀ a b, Q a → Evolves a b → Q b) (ho : ∀ n st, o ≠ .trySend n st) (hQ : Q s)
    (hstep : ∀ a r b ch, FailureSignalled a → Q a → Known D c o ch r a b → Prevails c a o ch →
      Q b → Safe (Prevailing D) failureContract c post (k r) b) :
    Safe (Prevailing D) failureContract c post (.op o k) s := by
  refine (failureContract_annotates D).op Q (fun a b hq he => hstable a b hq he)
    (fun n st h => absurd h (ho n st)) hQ ?_
  rintro a r b hinv hq ⟨ch, hk, hp⟩
  exact hstep a r b ch hinv hq hk hp (hstable a b hq (exec_evolves hk.exec))

/-- The outcome of a compensation that has to succeed: of a request whatever it
returned, of a reply if it returned no error. -/
def MustUndo (c : Call) (res : Option Err) : Prop := res = none ∨ c.sagaID?.isSome = true

variable {x : String}

/-- The mark took effect unless it reported an error, and for a request it reports none. -/
theorem markCompensated_failure (hu : Undoing x s) :
    Safe (Prevailing D) failureContract c (fun res b => MustUndo c res → Failed x b)
      (SagaStore.markCompensated x) s := by
  refine failure_op (Undoing x) Undoing.evolves (by simp) hu ?_
  rintro a r b ch _ hu hk hp _
  refine Safe.ret (fun hmust => ?_)
  -- either way the statement took effect
  have hmoved : b = a.moveSaga .failed x .compensating := by
    rcases exec_mark hk.exec with ⟨_, e, rfl⟩ | hb
    · rcases hmust with h | h
      · cases h
      · have hok := hp.1 h rfl
        have hx := hk.exec
        rw [hok, exec_mark_ok] at hx
        cases hx
    · exact hb
  subst hmoved
  exact hu.marked

/-- A request's cancellation succeeds. -/
theorem cancel_failure {x token : String} {id : Nat} (hu : Undoing x s) :
    Safe (Prevailing D) failureContract c
      (fun res b => Undoing x b ∧ (res ≠ none → c.sagaID?.isSome = false))
      (cancel (.compensation x token) id) s := by
  have hstmt : Safe (Prevailing D) failureContract c
      (fun res b => Undoing x b ∧
        ((∃ e, res = some e ∧ e.is .errNotFound = false) → c.sagaID?.isSome = false))
      (Repo.updateStatus (.compensation x token) id .unsubscribed) s := by
    refine failure_op (Undoing x) Undoing.evolves (by simp) hu ?_
    intro a r b ch _ _ hk hp hu
    refine Safe.ret ⟨hu, fun ⟨e, he, hne⟩ => ?_⟩
    cases hsome : c.sagaID?.isSome with
    | false => rfl
    | true =>
      have hok := hp.1 hsome rfl
      have hx := hk.exec
      obtain ⟨t, n, _, hex⟩ := exec_cancel_ok a (.compensation x token) id
      rw [hok, hex, Option.some.injEq, Prod.mk.injEq] at hx
      rw [← hx.1] at he
      cases n with
      | zero =>
        cases he
        simp [Err.is] at hne
      | succ n => cases he
  refine Safe.bind hstmt ?_
  rintro res b ⟨hu, hres⟩
  cases res with
  | none => exact Safe.ret ⟨hu, fun h => absurd rfl h⟩
  | some err =>
    dsimp only
    by_cases hnf : err.is .errNotFound = true
    · rw [if_pos hnf]
      exact Safe.ret ⟨hu, fun h => absurd rfl h⟩
    · rw [if_neg hnf]
      exact Safe.ret ⟨hu, fun _ => hres ⟨err, rfl, by simpa using hnf⟩⟩

variable {data : SubscriptionData}

theorem cancelAndMark_failure (hu : Undoing x s) :
    Safe (Prevailing D) failureContract c (fun res b => MustUndo c res → Failed x b)
      (cancelAndMark x data) s := by
  refine Safe.bind (cancel_failure hu) ?_
  rintro res b ⟨hu, hres⟩
  cases res with
  | none => exact markCompensated_failure hu
  | some err =>
    refine Safe.ret (fun hmust => ?_)
    rcases hmust with h | h
    · cases h
    · rw [hres (by simp)] at h
      cases h

/-- A claim on a saga that is not completed leaves it compensating or failed. -/
theorem undoing_of_claim {a : State} {inst : Instance} (hx : a.sagas.get x = some inst)
    (hst : inst.state ≠ .completed) :
    Undoing x (a.moveSaga .compensating x .awaitingConfirmation) := by
  cases hs : inst.state with
  | awaitingConfirmation =>
    refine ⟨{ inst with state := .compensating }, ?_, .inl rfl⟩
    simp [State.moveSaga, SagaTable.get_transition, hx, hs]
  | completed => exact absurd hs hst
  | compensating =>
    refine ⟨inst, ?_, .inl hs⟩
    simp [State.moveSaga, SagaTable.get_transition, hx, hs]
  | failed =>
    refine ⟨inst, ?_, .inr hs⟩
    simp [State.moveSaga, SagaTable.get_transition, hx, hs]

/-- A claim that returns leaves the saga compensating or failed, whoever won it. -/
theorem claimCompensation_failure (hc : c ≠ .reap) :
    Safe (Prevailing D) failureContract c
      (fun res b => (∀ e, res = .error e → c.sagaID?.isSome = false) ∧
        (∀ d, res = .ok d → Undoing x b))
      (SagaStore.claimCompensation x) s := by
  refine failure_op (fun _ => True) (fun _ _ _ _ => trivial) (by simp) trivial ?_
  intro a r b ch _ _ hk hp _
  obtain ⟨inst, hx, hst⟩ := hp.2 x rfl hc
  refine Safe.ret ⟨fun e he => ?_, fun d hd => ?_⟩
  · cases hsome : c.sagaID?.isSome with
    | false => rfl
    | true =>
      have hok := hp.1 hsome rfl
      have hex := hk.exec
      rw [hok, exec_claim_ok, Option.some.injEq, Prod.mk.injEq] at hex
      rw [← hex.1] at he
      cases hcl : a.claimed x with
      | none => rw [hcl] at he; cases he
      | some data => rw [hcl] at he; cases he
  · rcases exec_claim hk.exec with ⟨_, e, rfl⟩ | ⟨rfl, _⟩
    · cases hd
    · exact undoing_of_claim hx hst

/-- The read after a lost claim sees a saga that somebody is compensating or has compensated. -/
theorem sagaGet_failure (hu : Undoing x s) :
    Safe (Prevailing D) failureContract c
      (fun res b => Undoing x b ∧ (∀ e, res = .error e → c.sagaID?.isSome = false) ∧
        (∀ inst, res = .ok inst → b.sagas.get x = some inst))
      (SagaStore.get x) s := by
  refine failure_op (Undoing x) Undoing.evolves (by simp) hu ?_
  rintro a r b ch _ ⟨inst, hx, _⟩ hk hp hu
  obtain ⟨rfl, hget⟩ := exec_sagaGet hk.exec
  refine Safe.ret ⟨hu, fun e he => ?_, fun i hi => ?_⟩
  · cases hsome : c.sagaID?.isSome with
    | false => rfl
    | true =>
      have hok := hp.1 hsome rfl
      have hex := hk.exec
      rw [hok, exec_sagaGet_ok, hx, Option.some.injEq, Prod.mk.injEq] at hex
      rw [← hex.1] at he
      cases he
  · rcases r with e | _ | e | inst'
    · cases hi
    · cases hi
    · cases hi
    · cases hi
      exact hget _ rfl

/-- The compensation of a request or of a reply, under the condition. -/
theorem compensate_failure (hc : c ≠ .reap) :
    Safe (Prevailing D) failureContract c (fun res b => MustUndo c res → Failed x b)
      (compensate x) s := by
  refine Safe.bind (claimCompensation_failure hc) ?_
  rintro res b ⟨herr, hok⟩
  cases res with
  | error e =>
    refine Safe.ret (fun hmust => ?_)
    rcases hmust with h | h
    · cases h
    · rw [herr e rfl] at h
      cases h
  | ok d =>
    cases d with
    | some data => exact cancelAndMark_failure (hok _ rfl)
    | none =>
      refine Safe.bind (sagaGet_failure (hok _ rfl)) ?_
      rintro res b ⟨hu, herr, hget⟩
      cases res with
      | error e =>
        refine Safe.ret (fun hmust => ?_)
        rcases hmust with h | h
        · cases h
        · rw [herr e rfl] at h
          cases h
      | ok inst =>
        dsimp only
        by_cases hst : inst.state = .compensating
        · rw [if_neg (fun h => h hst)]
          exact cancelAndMark_failure hu
        · rw [if_pos hst]
          -- not compensating any more, so failed
          refine Safe.ret (fun _ => ⟨inst, hget inst rfl, ?_⟩)
          obtain ⟨inst', hx', hu'⟩ := hu
          rw [hget inst rfl, Option.some.injEq] at hx'
          subst hx'
          exact hu'.resolve_left hst

/-- A waiter is told of a failure only once the saga is failed. -/
theorem signalWaiter_failure {state : SagaState} (h : state ≠ .completed → Failed x s) :
    Safe (Prevailing D) failureContract c (fun _ _ => True) (signalWaiter x state) s := by
  refine failure_op (fun s => state ≠ .completed → Failed x s)
    (fun a b hq he hst => (hq hst).evolves a b he) (by simp) h ?_
  intro a r b ch _ hq hk _ _
  obtain ⟨rfl, hr⟩ := exec_lookupWaiter hk.exec
  cases r with
  | none => exact Safe.ret trivial
  | some n =>
    obtain ⟨d, hd, hid⟩ := hk.before.waiters hr.symm
    refine (failureContract_annotates D).op (fun _ => True) (fun _ _ _ _ => trivial) ?_ trivial
      (fun _ _ _ _ _ _ => Safe.ret trivial)
    intro m st ho hst
    cases ho
    exact ⟨d, hd, by rw [hid]; exact hq hst⟩

theorem onConfirmationSent_failure :
    Safe (Prevailing D) failureContract c (fun _ _ => True) (onConfirmationSent x) s := by
  have hstmt : Safe (Prevailing D) failureContract c (fun _ _ => True)
      (SagaStore.completeIfAwaiting x) s :=
    (failureContract_annotates D).free (statement_uses (fun _ _ _ h => by cases h))
  refine Safe.bind hstmt (fun res b _ => ?_)
  cases res with
  | error e => exact Safe.ret trivial
  | ok transitioned =>
    cases transitioned with
    | false => exact Safe.ret trivial
    | true =>
      exact Safe.bind (signalWaiter_failure (fun h => absurd rfl h))
        (fun _ _ _ => Safe.ret trivial)

/-- A reply tells a failure only after a compensation without an error. -/
theorem handleReply_failure {body : Bytes} (hc : c = .handleReply body) :
    Safe (Prevailing D) failureContract c (fun _ _ => True) (handleReply D body) s := by
  unfold handleReply
  cases hr : D.json.reply.unmarshal body with
  | error f => exact Safe.ret trivial
  | ok reply =>
    dsimp only
    split
    · exact onConfirmationSent_failure
    · split
      · refine Safe.bind (compensate_failure (by rw [hc]; simp)) (fun res b hfailed => ?_)
        cases res with
        | some err => exact Safe.ret trivial
        | none =>
          exact Safe.bind (signalWaiter_failure (fun _ => hfailed (.inl rfl)))
            (fun _ _ _ => Safe.ret trivial)
      · exact Safe.ret trivial

/-! ## `StartAndWait` -/

/-- What `StartAndWait` owes its caller when it reports a failure. -/
def FailureMeant (x : String) (data : SubscriptionData) (res : Option Err) (s : State) : Prop :=
  ∀ e, res = some e → e.is .errConfirmationFailed = true →
    Failed x s ∧ ∃ inst, s.sagas.get x = some inst ∧ inst.data = data

theorem FailureMeant.evolves {res : Option Err} (a b : State) (h : FailureMeant x data res a)
    (he : Evolves a b) : FailureMeant x data res b := by
  intro e hres hf
  obtain ⟨hfailed, hsaga⟩ := h e hres hf
  exact ⟨hfailed.evolves a b he, saga_stable a b hsaga he⟩

/-- The saga is there, with its data, and the waiter's channel is its own. -/
def Waiting (x : String) (data : SubscriptionData) (n : Nat) (s : State) : Prop :=
  (∃ inst, s.sagas.get x = some inst ∧ inst.data = data) ∧
    ∃ ch, s.chans[n]? = some ch ∧ ch.sagaID = x

/-- A wait stands on what no step takes away. -/
theorem Waiting.evolves {n : Nat} (a b : State) (h : Waiting x data n a) (he : Evolves a b) :
    Waiting x data n b :=
  ⟨saga_stable a b h.1 he, chan_stable a b h.2 he⟩

theorem failure_frame {Q : State → Prop} {p : P α}
    (h : Safe (Prevailing D) failureContract c post p s) (hQ : Q s)
    (hstable : ∀ a b, Q a → Evolves a b → Q b) :
    Safe (Prevailing D) failureContract c (fun a s => post a s ∧ Q s) p s := by
  refine h.frame hQ (fun _ a b _ _ hq he => hstable a b hq he) ?_
  rintro o r a b _ hq ⟨ch, hk, _⟩
  exact hstable a b hq (exec_evolves hk.exec)

theorem publishConfirmation_failure {ctx : Context} :
    Safe (Prevailing D) failureContract c (fun _ _ => True)
      (publishConfirmation D ctx x data) s :=
  (failureContract_annotates D).free (publishConfirmation_uses (fun _ _ _ _ h => by cases h))

/-- Both ways to `ErrConfirmationFailed`: a publish that failed and a reply that said so. -/
theorem dispatchAndWait_failure {ctx : Context} {n : Nat} (hc : c.sagaID? = some x)
    (h : Waiting x data n s) :
    Safe (Prevailing D) failureContract c (FailureMeant x data)
      (dispatchAndWait D ctx data x n) s := by
  refine Safe.bind (failure_frame publishConfirmation_failure h Waiting.evolves) ?_
  rintro res b ⟨_, hw⟩
  cases res with
  | some err =>
    have hreap : c ≠ .reap := by
      rintro rfl
      cases hc
    refine Safe.bind (failure_frame (compensate_failure hreap) hw Waiting.evolves) ?_
    rintro res b ⟨hfailed, hsaga, _⟩
    exact Safe.ret (fun _ _ _ => ⟨hfailed (.inr (by rw [hc]; rfl)), hsaga⟩)
  | none =>
    refine failure_op (Waiting x data n) Waiting.evolves (by simp) hw ?_
    rintro a r b ch hinv ⟨_, d, hd, hid⟩ hk _ ⟨hsaga, _⟩
    cases r with
    | timeout =>
      refine Safe.ret (fun e he hf => ?_)
      cases he
      simp [Err.is] at hf
    | done e =>
      refine Safe.ret (fun e' he hf => ?_)
      cases he
      rw [exec_await_done hk.exec] at hf
      cases hf
    | received final =>
      show Safe _ _ _ _ (if final = .completed then _ else _) _
      by_cases hfin : final = .completed
      · rw [if_pos hfin]
        exact Safe.ret (fun e he _ => by cases he)
      · rw [if_neg hfin]
        -- the channel is this saga's, and what it said was a failure
        refine Safe.ret (fun e _ _ => ⟨?_, hsaga⟩)
        obtain ⟨d', hd', hbuf⟩ := exec_await hk.exec
        rw [hd, Option.some.injEq] at hd'
        subst hd'
        have hfailed := hinv n d final hd hbuf hfin
        rw [hid] at hfailed
        exact hfailed.evolves a b (exec_evolves hk.exec)

/-- What `Store.Create` reports is never this sentinel, so a failed start is not mistaken for it. -/
theorem sagaStoreCreate_failure {timeout : Nat} :
    Safe (Prevailing D) failureContract c
      (fun res b => (∀ e, res = some e → e.Foreign) ∧
        (res = none → ∃ inst, b.sagas.get x = some inst ∧ inst.data = data))
      (SagaStore.create x data timeout) s := by
  refine failure_op (fun _ => True) (fun _ _ _ _ => trivial) (by simp) trivial ?_
  intro a r b ch _ _ hk _ _
  refine Safe.ret ⟨fun e he => ?_, fun hres => ?_⟩
  · cases r with
    | error e' =>
      cases he
      exact fun q => exec_sagaCreate_error hk.exec q
    | ok u => cases he
  · rcases exec_sagaCreate hk.exec with ⟨_, e, rfl⟩ | ⟨hnone, rfl⟩
    · cases hres
    · exact ⟨⟨x, .awaitingConfirmation, data, a.now + timeout⟩, by simp [SagaTable.get_insert], rfl⟩

theorem startAndWait_failure {ctx : Context} (hc : c.sagaID? = some x) :
    Safe (Prevailing D) failureContract c (FailureMeant x data) (startAndWait D ctx data x) s := by
  refine Safe.bind sagaStoreCreate_failure ?_
  rintro res b ⟨herr, hsaga⟩
  cases res with
  | some err =>
    have hcancel : Safe (Prevailing D) failureContract c (fun _ _ => True)
        (cancel (.rollback data.token) data.subscriptionID) b :=
      (failureContract_annotates D).any
        (fun {o r a b} ⟨_, hk, _⟩ n st ho hst => ?_) (fun _ _ => trivial)
    · refine Safe.bind hcancel (fun _ _ _ => Safe.ret (fun e he hf => ?_))
      cases he
      have := herr err rfl .errConfirmationFailed
      simp [Err.is, this] at hf
    · subst ho
      obtain ⟨⟨body, rfl⟩, _⟩ := hk.ready
      cases hc
  | none =>
    refine failure_op (fun s => ∃ inst, s.sagas.get x = some inst ∧ inst.data = data)
      saga_stable (by simp) (hsaga rfl) ?_
    intro a n b ch _ _ hk _ hsaga
    show Safe _ _ _ _ (dispatchAndWait D ctx data x n >>= fun res =>
      unregisterWaiter x >>= fun _ => pure res) _
    refine Safe.bind (dispatchAndWait_failure hc
      ⟨hsaga, _, exec_registerWaiter hk.exec, rfl⟩) ?_
    intro res b hres
    exact failure_op (FailureMeant x data res) FailureMeant.evolves (by simp) hres
      (fun _ _ _ _ _ _ _ _ hq => Safe.ret hq)

end Programs

/-! ## Every run -/

/-- What holds of what a `StartAndWait` returned. -/
def FailureReturned (c : Call) (ret : Ret) (s : State) : Prop :=
  ∀ ctx data x res, c = .startAndWait ctx data x → ret = .error res → FailureMeant x data res s

theorem program_failure (D : Deps) (c : Call) (s : State) :
    Safe (Prevailing D) failureContract c (FailureReturned c) (program D c) s := by
  -- only a reply sends, and only `StartAndWait` has a postcondition
  have hother : (∀ body, c ≠ .handleReply body) →
      (∀ ctx data x, c ≠ .startAndWait ctx data x) →
      Safe (Prevailing D) failureContract c (FailureReturned c) (program D c) s := by
    intro hreply hsaw
    refine (failureContract_annotates D).any ?_
      (fun _ _ ctx data x _ h => absurd h (hsaw ctx data x))
    rintro o r a b ⟨_, hk, _⟩ n st rfl _
    obtain ⟨⟨body, hbody⟩, _⟩ := hk.ready
    exact absurd hbody (hreply body)
  cases c with
  | handleReply body =>
    refine Safe.bind (handleReply_failure rfl) (fun _ _ _ => Safe.ret ?_)
    intro ctx data x res h
    cases h
  | startAndWait ctx data x =>
    refine Safe.bind (startAndWait_failure rfl) (fun res b hres => Safe.ret ?_)
    intro ctx' data' x' res' h hret
    cases h
    cases hret
    exact hres
  | _ => exact hother (by simp) (by simp)

/-- Neighbours only move the state forward, which is all that the assertions need. -/
theorem failure_respects (D : Deps) :
    Respects (monolith D) (fun p e => CompensationPrevails p e ∧ MonolithSafe D p)
      (Prevailing D) failureContract FailureReturned FailureReturned := by
  have hstands : ∀ {th : Thread Op Op.Res Call Ret} {s s' : State}, Evolves s s' →
      Stands failureContract FailureReturned th s s' :=
    fun he => ⟨fun _ _ => he, fun _ _ h ctx data x res hc hr =>
      (h ctx data x res hc hr).evolves _ _ he⟩
  refine ⟨fun _ _ _ _ h => h, ?_, ?_, ?_, ?_⟩
  · intro p c s _ hp hent
    refine ⟨?_, program_failure D c s, fun _ _ _ => hstands (enter_evolves hent)⟩
    rw [(enter_eq hent).2]
    exact hp.1
  · rintro p i ch th o k r s ⟨hcond, hsafe⟩ _ hth hend hp hx
    exact ⟨ch, hsafe.known hth hend hp hx, hcond _ (Pool.due?_of_op hth hend hp)⟩
  · intro p i ch th o k r s _ _ _ _ _ hx _ _ j th' _ _
    exact hstands (exec_evolves hx)
  · intro p e s _ hp henv
    refine ⟨?_, fun _ _ _ => hstands (world_evolves henv)⟩
    rcases world_eq henv with ⟨d, rfl⟩ | rfl
    · exact hp.1
    · exact hp.1

/-- In every run in which compensation prevails, an error from `StartAndWait`
that wraps `ErrConfirmationFailed` means that its saga is failed and that a
cancellation of its subscription succeeded. -/
theorem confirmation_failed_undone (D : Deps) (es : List (Event Choice Call WorldEvent))
    (p : Pool Op Op.Res State Call Ret)
    (h : (monolith D).Run CompensationPrevails monolithInit es p) (i : Nat)
    (th : Thread Op Op.Res Call Ret) (hth : p.threads[i]? = some th) (ctx : Context)
    (data : SubscriptionData) (x : String) (hc : th.call = .startAndWait ctx data x) (e : Err)
    (hret : th.prog.result? = some (.error (some e)))
    (he : e.is .errConfirmationFailed = true) :
    ∃ inst, p.state.sagas.get x = some inst ∧ inst.data = data ∧ inst.state = .failed ∧
      ∃ w ∈ p.state.statusLog, w.origin = .compensation x data.token ∧
        w.id = data.subscriptionID ∧ w.status = .unsubscribed ∧ w.succeeded = true := by
  have hinit : PoolSafe (Prevailing D) failureContract FailureReturned FailureReturned
      monolithInit := by
    refine ⟨?_, fun i th hth => by simp [monolithInit] at hth⟩
    intro n c st hc
    simp [monolithInit, State.init] at hc
  have hsafe := hinit.run (failure_respects D) (run_safe h)
  have hprog : th.prog = .ret (.error (some e)) := Prog.result?_eq_some.mp hret
  obtain ⟨⟨inst, hx, hst⟩, inst', hx', hd⟩ :=
    (hsafe.2 i th hth).2 _ hprog ctx data x _ hc rfl e rfl he
  rw [hx, Option.some.injEq] at hx'
  subst hx'
  refine ⟨inst, hx, hd, hst, ?_⟩
  rw [← hd]
  exact ⟨_, (monolith_safe h).1.undone hx hst, rfl, rfl, rfl, rfl⟩

/-- A publish fails, and the request's compensation goes through. -/
def undoneRequest : List (Event Choice Call WorldEvent) :=
  [.call (.startAndWait ⟨none⟩ sampleData₁ "s1"), .run 0 .ok, .run 0 .ok,
    .run 0 (.fail (.io "broker")), .run 0 .ok, .run 0 .ok, .run 0 .ok, .run 0 .ok]

/-- Some call returned an error that wraps `ErrConfirmationFailed`. -/
def reportsFailure (th : Thread Op Op.Res Call Ret) : Bool :=
  match th.prog.result? with
  | some (.error (some e)) => e.is .errConfirmationFailed
  | _ => false

theorem reportsFailure_eq {th : Thread Op Op.Res Call Ret} (h : reportsFailure th = true) :
    ∃ e, th.prog.result? = some (.error (some e)) ∧ e.is .errConfirmationFailed = true := by
  unfold reportsFailure at h
  split at h
  · next e he => exact ⟨e, he, h⟩
  · cases h

/-- A publish that fails is undone before the request returns. -/
theorem confirmation_failed_undone_request :
    ∃ p th e inst, (monolith sample).Run CompensationPrevails monolithInit undoneRequest p ∧
      p.threads[0]? = some th ∧ th.prog.result? = some (.error (some e)) ∧
      e.is .errConfirmationFailed = true ∧ p.state.sagas.get "s1" = some inst ∧
      inst.state = .failed := by
  have hrun : ((monolith sample).stepsWhere (fun p e => decide (CompensationPrevails p e))
      monolithInit undoneRequest).any (fun p => p.threads[0]?.any (fun th =>
        reportsFailure th && decide (th.call = .startAndWait ⟨none⟩ sampleData₁ "s1"))) = true := by
    decide
  obtain ⟨p, hp, hany⟩ := (Option.any_eq_true _ _).mp hrun
  obtain ⟨th, hth, hboth⟩ := (Option.any_eq_true _ _).mp hany
  rw [Bool.and_eq_true] at hboth
  obtain ⟨e, hret, he⟩ := reportsFailure_eq hboth.1
  have hp' := Machine.Run.of_stepsWhere (fun _ _ h => of_decide_eq_true h) hp
  obtain ⟨inst, hx, _, hst, _⟩ := confirmation_failed_undone sample undoneRequest p hp' 0 th hth
    ⟨none⟩ sampleData₁ "s1" (of_decide_eq_true hboth.2) e hret he
  exact ⟨p, th, e, inst, hp', hth, hret, he, hx, hst⟩

/-- The publish reports an error although the broker has the command; the mail
goes out and its reply completes the saga before the request compensates. -/
def completedRequest : List (Event Choice Call WorldEvent) :=
  [.call (.startAndWait ⟨none⟩ sampleData₁ "s1"), .run 0 .ok, .run 0 .ok,
    .run 0 (.failApplied (.io "await broker confirm")),
    .call (.handleReply (sampleSent "s1")), .run 1 .ok, .run 1 .ok, .run 1 .ok,
    .run 0 .ok, .run 0 .ok, .run 0 .ok]

/-- Then `StartAndWait` reports a failed confirmation of a completed saga, and
nothing was cancelled. -/
theorem confirmation_failed_but_completed :
    ∃ p th e inst, (monolith sample).steps monolithInit completedRequest = some p ∧
      p.threads[0]? = some th ∧ th.call = .startAndWait ⟨none⟩ sampleData₁ "s1" ∧
      th.prog.result? = some (.error (some e)) ∧ e.is .errConfirmationFailed = true ∧
      p.state.sagas.get "s1" = some inst ∧ inst.state = .completed ∧
      p.state.statusLog = [] := by
  have hrun : ((monolith sample).steps monolithInit completedRequest).any (fun p =>
      p.threads[0]?.any (fun th => reportsFailure th &&
        decide (th.call = .startAndWait ⟨none⟩ sampleData₁ "s1")) &&
      (p.state.sagas.get "s1").any (fun inst => decide (inst.state = .completed)) &&
      decide (p.state.statusLog = [])) = true := by
    decide
  obtain ⟨p, hp, hall⟩ := (Option.any_eq_true _ _).mp hrun
  simp only [Bool.and_eq_true, decide_eq_true_eq] at hall
  obtain ⟨⟨hth, hsaga⟩, hlog⟩ := hall
  obtain ⟨th, hth, hboth⟩ := (Option.any_eq_true _ _).mp hth
  simp only [Bool.and_eq_true, decide_eq_true_eq] at hboth
  obtain ⟨e, hret, he⟩ := reportsFailure_eq hboth.1
  obtain ⟨inst, hx, hst⟩ := (Option.any_eq_true _ _).mp hsaga
  exact ⟨p, th, e, inst, hp, hth, hboth.2, hret, he, hx, of_decide_eq_true hst, hlog⟩

end ReleaseNotifier
