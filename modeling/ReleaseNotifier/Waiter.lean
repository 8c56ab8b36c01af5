/-
A waiter and the saga it waits for agree.

The outcome of a saga is in its row, and the request that started it learns it
through a channel of capacity one that lives beside the database. The two are
written by different statements, so they can differ: between the update that
completes a saga and the send that says so, the row is ahead. With one reply
handled at a time this is the only difference there ever is. As soon as no
reply is being handled, a request that blocks in its `select` has "completed"
in its channel exactly if its saga is completed, and "failed" only if it failed.

Two of the ways in which the code gets this right are easy to break. A request
registers before it publishes, so no reply finds its channel missing. And a
`confirmation_failed` for a completed saga does send "failed", but into a channel
that is full by then or that nobody reads any more.

`OneAtATime` is the condition on runs. Of the errors a store can report it only
excludes the one that matters here, an update that completes the saga and is
reported as failed: the reply is requeued then, and its redelivery finds nothing
to transition and tells nobody.
-/
import ReleaseNotifier.Broker
import ReleaseNotifier.Failure
import ReleaseNotifier.Handshake

set_option autoImplicit false

namespace ReleaseNotifier.Handshake

open Conc

/-! ## The condition -/

/-- The sagas whose commands were published. -/
def commanded (D : Deps) (s : State) : List String :=
  s.commands.filterMap (fun body =>
    match D.json.command.unmarshal body with
    | .ok cmd => some cmd.sagaID
    | .error _ => none)

/-- The update that completes a saga is not reported as failed if it was
carried out. -/
def honest : Op → Choice → Bool
  | .sagaCompleteIfAwaiting _, .failApplied _ => false
  | .sagaCompleteIfAwaiting _, .noCount _ => false
  | _, _ => true

/-- The operation is the `select` of `StartAndWait`. -/
def isAwait (_ : Call) : Op → Bool
  | .await _ => true
  | _ => false

/-- Replies are handled one at a time and answer published commands. A handler
is cut off only together with the requests that wait, which then are no more,
and the process starts anew when all of its calls are gone. -/
def OneAtATime (D : Deps) (p : MonolithPool) : Event Choice Call WorldEvent → Prop
  | .call c => (isReply c = true → p.NoneRunning isReply) ∧
    ∀ x ∈ answers? D c, x ∈ commanded D p.state
  | .run i ch => ∀ x ∈ p.due? i, honest x.2 ch = true
  | .kill i => ∀ th ∈ p.threads[i]?, isReply th.call = true → p.NoneDue isAwait
  | .env (.tick _) => True
  | .env .restart => p.NoneRunning (fun _ => true)

instance (D : Deps) (p : MonolithPool) : DecidablePred (OneAtATime D p)
  | .call c => inferInstanceAs (Decidable ((isReply c = true → p.NoneRunning isReply) ∧
      ∀ x ∈ answers? D c, x ∈ commanded D p.state))
  | .run i ch => inferInstanceAs (Decidable (∀ x ∈ p.due? i, honest x.2 ch = true))
  | .kill i => inferInstanceAs (Decidable (∀ th ∈ p.threads[i]?, isReply th.call = true →
      p.NoneDue isAwait))
  | .env (.tick _) => isTrue trivial
  | .env .restart => inferInstanceAs (Decidable (p.NoneRunning (fun _ => true)))

/-! ## Sagas -/

/-- Saga `x` is completed. -/
def Completed (x : String) (s : State) : Prop :=
  ∃ inst, s.sagas.get x = some inst ∧ inst.state = .completed

/-- Saga `x` is there and not awaiting its confirmation. -/
def Begun (x : String) (s : State) : Prop :=
  ∃ inst, s.sagas.get x = some inst ∧ inst.state ≠ .awaitingConfirmation

/-- Saga `x` has got to an end. -/
def Settled (x : String) (s : State) : Prop := Completed x s ∨ Failed x s

section Sagas

variable {x : String} {s s' : State}

theorem Completed.evolves (h : Completed x s) (he : Evolves s s') : Completed x s' := by
  obtain ⟨inst, hx, hst⟩ := h
  obtain ⟨inst', hx', _, _, hfol⟩ := he.sagas hx
  exact ⟨inst', hx', hfol.completed hst⟩

theorem Begun.evolves (h : Begun x s) (he : Evolves s s') : Begun x s' := by
  obtain ⟨inst, hx, hst⟩ := h
  obtain ⟨inst', hx', _, _, hfol⟩ := he.sagas hx
  refine ⟨inst', hx', fun haw => ?_⟩
  rw [haw] at hfol
  revert hst hfol
  cases inst.state <;> simp [SagaState.Follows]

/-- A settled saga stays settled. -/
theorem Settled.evolves (h : Settled x s) (he : Evolves s s') : Settled x s' :=
  h.imp (fun h => h.evolves he) (fun h => Failed.evolves s s' h he)

theorem not_completed_of_failed (h : Failed x s) : ¬ Completed x s := by
  rintro ⟨inst', hx', hst'⟩
  obtain ⟨inst, hx, hst⟩ := h
  rw [hx, Option.some.injEq] at hx'
  subst hx'
  rw [hst] at hst'
  cases hst'

/-- A compensation that was claimed from a saga that is there and not awaiting. -/
theorem Begun.of_claimed {inst : Instance} (hx : s.sagas.get x = some inst)
    (h : s.claimed x = none) : Begun x s := by
  refine ⟨inst, hx, fun haw => ?_⟩
  simp [State.claimed, hx, haw] at h

/-- What `compensate` concludes from the state it reads. -/
theorem Begun.settled (h : Begun x s) {inst : Instance} (hx : s.sagas.get x = some inst)
    (hne : inst.state ≠ .compensating) : Settled x s := by
  obtain ⟨inst', hx', hst⟩ := h
  rw [hx, Option.some.injEq] at hx'
  subst hx'
  cases hst' : inst.state with
  | awaitingConfirmation => exact absurd hst' hst
  | compensating => exact absurd hst' hne
  | completed => exact .inl ⟨inst, hx, hst'⟩
  | failed => exact .inr ⟨inst, hx, hst'⟩

end Sagas

/-! ## Commands -/

section Commands

variable {D : Deps} {c : Call} {o : Op} {ch : Choice} {r : o.Res} {s s' : State} {x : String}

theorem mem_commanded : x ∈ commanded D s ↔
    ∃ body ∈ s.commands, ∃ cmd, D.json.command.unmarshal body = .ok cmd ∧ cmd.sagaID = x := by
  unfold commanded
  rw [List.mem_filterMap]
  refine exists_congr (fun body => and_congr_right (fun _ => ?_))
  cases D.json.command.unmarshal body with
  | error f => simp
  | ok cmd => simp

/-- A command that is out stays out. -/
theorem commanded_evolves (h : x ∈ commanded D s) (he : Evolves s s') : x ∈ commanded D s' := by
  obtain ⟨body, hbody, hcmd⟩ := mem_commanded.mp h
  exact mem_commanded.mpr ⟨body, he.commands body hbody, hcmd⟩

theorem commanded_eq (h : s'.commands = s.commands) : commanded D s' = commanded D s := by
  unfold commanded
  rw [h]

/-- A call publishes the command of its own saga. -/
theorem commanded_exec (hjson : D.json.ReadsCommands) (hk : Known D c o ch r s s')
    (hx : x ∈ commanded D s') : x ∈ commanded D s ∨ c.sagaID? = some x := by
  rcases exec_commands hk.exec with hsame | ⟨key, body, rfl, hnew⟩
  · exact .inl (commanded_eq hsame ▸ hx)
  · obtain ⟨b, hb, cmd, hcmd, hid⟩ := mem_commanded.mp hx
    rw [hnew, List.mem_cons] at hb
    rcases hb with rfl | hb
    · obtain ⟨_, y, inst, traceID, payload, hy, _, hpay, hmarshal⟩ := hk.ready
      rw [hjson _ _ ⟨_, hpay⟩ hmarshal, Except.ok.injEq] at hcmd
      subst hcmd
      exact .inr (by rw [hy, ← hid])
    · exact .inl (mem_commanded.mpr ⟨b, hb, cmd, hcmd, hid⟩)

/-- A commanded saga is in the table. -/
theorem saga_of_commanded (hjson : D.json.ReadsCommands) (h : Commanded D s)
    (hx : x ∈ commanded D s) : ∃ inst, s.sagas.get x = some inst := by
  obtain ⟨body, hbody, cmd, hcmd, hid⟩ := mem_commanded.mp hx
  obtain ⟨y, inst, traceID, payload, hy, hpay, hmarshal⟩ := h body hbody
  rw [hjson _ _ ⟨_, hpay⟩ hmarshal, Except.ok.injEq] at hcmd
  subst hcmd
  exact ⟨inst, by rw [← hid]; exact hy⟩

end Commands

/-! ## What holds at a stage -/

/-- The waiter of saga `x` is channel `n`. -/
def Listening (x : String) (n : Nat) (s : State) : Prop :=
  s.waiters x = some n ∧ ∃ d, s.chans[n]? = some d ∧ d.sagaID = x

/-- The assertion of a stage. -/
def Holds (D : Deps) (c : Call) : Stage → State → Prop
  | .before, s => ∀ x ∈ c.sagaID?, x ∉ commanded D s
  | .registered n, s => ∃ x, c.sagaID? = some x ∧ x ∉ commanded D s ∧ s.waiters x = some n ∧
    s.chans[n]? = some ⟨x, none⟩
  | .waiting n, s => ∃ x, c.sagaID? = some x ∧ Listening x n s
  | .lost x, s => x ∈ commanded D s ∧ Begun x s
  | .claimed x, s => x ∈ commanded D s ∧ Undoing x s
  | .settled x state, s => x ∈ commanded D s ∧ (state ≠ .completed → Settled x s)
  | .sending n state, s => ∃ d, s.chans[n]? = some d ∧ d.sagaID ∈ commanded D s ∧
    (state ≠ .completed → Settled d.sagaID s)
  | .finished, _ => True

section Holds

variable {D : Deps} {c : Call} {q : Stage} {o : Op} {ch : Choice} {r : o.Res} {s s' : State}

/-- A request gets to its next stage with the assertion of that stage. -/
theorem Holds.request (hc : isReply c = false) (hk : Known D c o ch r s s')
    (ha : (stages D c).allows q o) (h : Holds D c q s) :
    Holds D c ((stages D c).next q o r) s' := by
  rw [stages_request hc] at ha ⊢
  change Holds D c (Stage.requested q o r) s'
  have hframe := exec_frame hk.exec
  -- only registering and publishing lead to a stage that says something new
  cases q with
  | before =>
    cases o with
    | registerWaiter x =>
      have hcmds : commanded D s' = commanded D s :=
        commanded_eq (hframe.broker (by simp [Op.part]))
      refine ⟨x, ha, by rw [hcmds]; exact h x ha, ?_, exec_registerWaiter hk.exec⟩
      have hx := hk.exec
      cases ch <;> simp only [exec, Option.some.injEq, Prod.mk.injEq, reduceCtorEq] at hx
      rw [← hx.2, ← hx.1]
      simp
    | _ =>
      have hcmds : commanded D s' = commanded D s := commanded_eq (hframe.broker ha.2)
      intro x hx
      rw [hcmds]
      exact h x hx
  | registered n =>
    cases o with
    | publish key body =>
      cases r with
      | error e => trivial
      | ok _ =>
        obtain ⟨x, hx, _, hw, hd⟩ := h
        obtain ⟨hwaiters, hchans⟩ := hframe.waiting (by simp [Op.part])
        exact ⟨x, hx, by rw [hwaiters]; exact hw, ⟨x, none⟩, by rw [hchans]; exact hd, rfl⟩
    | _ => trivial
  | _ => trivial

/-! The handler of a reply does, too: one lemma for each of its operations. -/

variable {x : String}

/-- The update that completes the saga. -/
theorem holds_complete {r : Except Err (Except Err Nat)} (he : Evolves s s')
    (hx : x ∈ commanded D s) :
    Holds D c (Stage.replied .before (.sagaCompleteIfAwaiting x) r) s' := by
  rcases r with err | err | n
  · trivial
  · trivial
  · show Holds D c (if n = 1 then _ else _) s'
    split
    · exact ⟨commanded_evolves hx he, fun hne => absurd rfl hne⟩
    · trivial

/-- The claim. A saga that was commanded is there, so a claim that finds nothing
has found it not awaiting. -/
theorem holds_claim {r : Except Err (Option (Except Err SubscriptionData))}
    (hjson : D.json.ReadsCommands) (hcmds : Commanded D s)
    (hex : exec s (.sagaClaimCompensation x) ch = some (r, s')) (hx : x ∈ commanded D s) :
    Holds D c (Stage.replied .before (.sagaClaimCompensation x) r) s' := by
  have he := exec_evolves hex
  have hclaim := exec_claim hex
  rcases r with err | _ | err | data
  · trivial
  · obtain ⟨inst, hget⟩ := saga_of_commanded hjson hcmds hx
    rcases hclaim with ⟨_, e, hr⟩ | ⟨_, hnone, _⟩
    · cases hr
    · exact ⟨commanded_evolves hx he, (Begun.of_claimed hget (hnone rfl)).evolves he⟩
  · trivial
  · rcases hclaim with ⟨_, e, hr⟩ | ⟨rfl, _, hsome⟩
    · cases hr
    · obtain ⟨inst, hget, _, hst⟩ := claimed_saga (hsome data rfl)
      exact ⟨commanded_evolves hx he, inst, hget, .inl hst⟩

/-- The read after a claim that was lost. -/
theorem holds_get {r : Except Err (Option (Except Err Instance))}
    (hex : exec s (.sagaGet x) ch = some (r, s')) (h : Holds D c (.lost x) s) :
    Holds D c (Stage.replied (.lost x) (.sagaGet x) r) s' := by
  obtain ⟨rfl, hfound⟩ := exec_sagaGet hex
  rcases r with err | _ | err | inst
  · trivial
  · trivial
  · trivial
  · show Holds D c (if inst.state = .compensating then _ else _) _
    have hget := hfound inst rfl
    split
    · next hst => exact ⟨h.1, inst, hget, .inl hst⟩
    · next hst => exact ⟨h.1, fun _ => h.2.settled hget hst⟩

/-- `MarkCompensated`. -/
theorem holds_mark {r : Except Err Unit} (hex : exec s (.sagaMarkCompensated x) ch = some (r, s'))
    (h : Holds D c (.claimed x) s) :
    Holds D c (Stage.replied (.claimed x) (.sagaMarkCompensated x) r) s' := by
  cases r with
  | error err => trivial
  | ok _ =>
    refine ⟨commanded_evolves h.1 (exec_evolves hex), fun _ => .inr ?_⟩
    rcases exec_mark hex with ⟨_, e, hr⟩ | rfl
    · cases hr
    · exact h.2.marked

/-- The look-up finds a channel that was made for the saga. -/
theorem holds_lookup {state : SagaState} {r : Option Nat} (hinv : SagaInv s)
    (hex : exec s (.lookupWaiter x) ch = some (r, s')) (h : Holds D c (.settled x state) s) :
    Holds D c (Stage.replied (.settled x state) (.lookupWaiter x) r) s' := by
  obtain ⟨rfl, hr⟩ := exec_lookupWaiter hex
  cases r with
  | none => trivial
  | some n =>
    obtain ⟨d, hd, hid⟩ := hinv.waiters hr.symm
    exact ⟨d, hd, by rw [hid]; exact h.1, fun hne => by rw [hid]; exact h.2 hne⟩

/-- A reply knows what it has done to its saga. -/
theorem Holds.reply (hjson : D.json.ReadsCommands) (hc : isReply c = true)
    (hk : Known D c o ch r s s') (hcmds : Commanded D s)
    (hans : ∀ x ∈ answers? D c, x ∈ commanded D s) (ha : (stages D c).allows q o)
    (h : Holds D c q s) : Holds D c ((stages D c).next q o r) s' := by
  rw [stages_reply hc] at ha ⊢
  change Holds D c (Stage.replied q o r) s'
  have he := exec_evolves hk.exec
  cases q with
  | before =>
    cases o with
    | sagaCompleteIfAwaiting x => exact holds_complete he (hans x ha)
    | sagaClaimCompensation x => exact holds_claim hjson hcmds hk.exec (hans x ha)
    | _ => cases ha
  | lost x =>
    cases o with
    | sagaGet y => cases ha; exact holds_get hk.exec h
    | _ => cases ha
  | claimed x =>
    cases o with
    | stmtUpdateStatus origin status id =>
      -- whatever the cancellation answers, the claim stands
      exact ⟨commanded_evolves h.1 he, Undoing.evolves s s' h.2 he⟩
    | sagaMarkCompensated y => cases ha; exact holds_mark hk.exec h
    | _ => cases ha
  | settled x state =>
    cases o with
    | lookupWaiter y => cases ha; exact holds_lookup hk.before hk.exec h
    | _ => cases ha
  | sending n state =>
    cases o with
    | trySend m st => trivial
    | _ => cases ha
  | _ => cases ha

/-- A call registers and unregisters nobody else's waiter. -/
theorem waiters_kept (hx : exec s o ch = some (r, s')) (ha : (stages D c).allows q o)
    (hne : c.sagaID? ≠ some x) : s'.waiters x = s.waiters x := by
  cases exec_waiting hx with
  | stay waiters => rw [waiters]
  | @register y waiters =>
    rw [waiters, Function.update_of_ne]
    rintro rfl
    exact hne (allows_registerWaiter ha)
  | @unregister y waiters =>
    rw [waiters, Function.update_of_ne]
    rintro rfl
    exact hne (allows_unregisterWaiter ha)
  | send waiters => rw [waiters]
  | receive waiters => rw [waiters]

/-- It receives from nobody else's channel: all that can happen to one is that a
reply's handler sends to it. -/
theorem chan_kept {n : Nat} {d : Chan} (hx : exec s o ch = some (r, s'))
    (ha : (stages D c).allows q o) (hq : Holds D c q s) (hd : s.chans[n]? = some d)
    (hne : c.sagaID? ≠ some d.sagaID) :
    s'.chans[n]? = some d ∨ ∃ state, o = .trySend n state := by
  cases exec_waiting hx with
  | stay _ chans => rw [chans]; exact .inl hd
  | register _ chans =>
    rw [chans, List.getElem?_append_left (List.getElem?_eq_some_iff.mp hd).1]
    exact .inl hd
  | unregister _ chans => rw [chans]; exact .inl hd
  | @send m state e _ found chans =>
    by_cases hmn : m = n
    · rw [hmn]
      exact .inr ⟨state, rfl⟩
    · rw [chans, List.getElem?_set_ne hmn]
      exact .inl hd
  | @receive m e _ found chans =>
    by_cases hmn : m = n
    · -- the receiver is at its own channel
      subst hmn
      obtain ⟨_, rfl⟩ := allows_await ha
      obtain ⟨x, hcx, _, d', hd', hid⟩ := hq
      rw [hd, Option.some.injEq] at hd'
      subst hd'
      exact absurd (hid ▸ hcx) hne
    · rw [chans, List.getElem?_set_ne hmn]
      exact .inl hd

/-- The operations of one call keep the assertions of the others. -/
theorem Holds.stable (hjson : D.json.ReadsCommands) {c' : Call} {q' : Stage}
    (hk : Known D c o ch r s s') (ha : (stages D c).allows q o) (hq : Holds D c q s)
    (hne : ∀ x, c'.sagaID? = some x → c.sagaID? ≠ some x) (h : Holds D c' q' s) :
    Holds D c' q' s' := by
  have he := exec_evolves hk.exec
  -- nobody else publishes the command of this call's saga
  have hcmd : ∀ x, c'.sagaID? = some x → x ∉ commanded D s → x ∉ commanded D s' := by
    intro x hx hnot hin
    rcases commanded_exec hjson hk hin with hold | hown
    · exact hnot hold
    · exact hne x hx hown
  cases q' with
  | before => exact fun x hx => hcmd x hx (h x hx)
  | registered n =>
    obtain ⟨x, hx, hnot, hw, hd⟩ := h
    refine ⟨x, hx, hcmd x hx hnot, by rw [waiters_kept hk.exec ha (hne x hx)]; exact hw, ?_⟩
    rcases chan_kept hk.exec ha hq hd (hne x hx) with hsame | ⟨state, rfl⟩
    · exact hsame
    · -- a handler sends for a saga that was commanded
      obtain ⟨_, rfl⟩ := allows_trySend ha
      obtain ⟨d, hd', hin, _⟩ := hq
      rw [hd, Option.some.injEq] at hd'
      subst hd'
      exact absurd hin hnot
  | waiting n =>
    obtain ⟨x, hx, hw, d, hd, hid⟩ := h
    obtain ⟨d', hd', hid'⟩ := he.chans hd
    exact ⟨x, hx, by rw [waiters_kept hk.exec ha (hne x hx)]; exact hw, d', hd', hid'.trans hid⟩
  | lost x => exact ⟨commanded_evolves h.1 he, h.2.evolves he⟩
  | claimed x => exact ⟨commanded_evolves h.1 he, Undoing.evolves s s' h.2 he⟩
  | settled x state => exact ⟨commanded_evolves h.1 he, fun hst => (h.2 hst).evolves he⟩
  | sending n state =>
    obtain ⟨d, hd, hin, hset⟩ := h
    obtain ⟨d', hd', hid⟩ := he.chans hd
    refine ⟨d', hd', ?_, fun hst => ?_⟩
    · rw [hid]
      exact commanded_evolves hin he
    · rw [hid]
      exact (hset hst).evolves he
  | finished => trivial

/-- Making a call and the passing of time keep every assertion, -/
theorem Holds.calls (h : Holds D c q s) (calls : List Call) :
    Holds D c q { s with calls := calls } := by
  cases q <;> exact h

theorem Holds.now (h : Holds D c q s) (now : Nat) : Holds D c q { s with now := now } := by
  cases q <;> exact h

/-- and a restart those of the calls that have returned. -/
theorem Holds.restart (h : Holds D c q s) (hq : q.final = true) :
    Holds D c q { s with waiters := fun _ => none } := by
  cases q with
  | before => exact h
  | claimed x => exact h
  | finished => trivial
  | _ => cases hq

end Holds

/-! ## The signal that is owed -/

/-- The stage in which a call may return. -/
def Final (_ : Call) (_ : Ret) (q : Stage) : Prop := q.final = true

/-- A handler has completed saga `x` and has yet to tell channel `n`. -/
def Owes (D : Deps) (th : Thread Op Op.Res Call Ret) (x : String) (n : Nat) : Prop :=
  th.ended = none ∧ isReply th.call = true ∧
    (th.prog.Obeys (stages D th.call) (Final th.call) (.settled x .completed) ∨
      th.prog.Obeys (stages D th.call) (Final th.call) (.sending n .completed))

/-- Some handler has. -/
def Owed (D : Deps) (p : MonolithPool) (x : String) (n : Nat) : Prop :=
  ∃ (j : Nat) (th : Thread Op Op.Res Call Ret), p.threads[j]? = some th ∧ Owes D th x n

/-- Channel `n` and the row of saga `x` agree, up to a signal that is owed. -/
def Agrees (D : Deps) (p : MonolithPool) (x : String) (n : Nat) : Prop :=
  ∃ d, p.state.chans[n]? = some d ∧
    (Completed x p.state → d.buf = some .completed ∨ d.buf = none ∧ Owed D p x n) ∧
    ∀ state, d.buf = some state → state ≠ .completed → Failed x p.state

/-- The ids of the sagas that were drawn so far. -/
def drawn (s : State) : List String := s.calls.filterMap Call.sagaID?

/-- What holds throughout such a run. -/
structure Agreement (D : Deps) (p : MonolithPool) : Prop where
  numbered : p.Numbered Call.sagaID? drawn
  single : p.OneRunning isReply
  issued : ∀ x ∈ commanded D p.state, x ∈ drawn p.state
  answered : ∀ c ∈ p.calls, ∀ x ∈ answers? D c, x ∈ commanded D p.state
  caused : ∀ x, Completed x p.state → x ∈ commanded D p.state
  tracked : p.Tracks (stages D) Final (Holds D)
  agrees : ∀ (i : Nat) th n x, p.threads[i]? = some th → th.pending? = some (.await n) →
    th.call.sagaID? = some x → Agrees D p x n

section Steps

variable {D : Deps} {p p' : MonolithPool} {e : Event Choice Call WorldEvent}

theorem drawn_evolves {s s' : State} (he : Evolves s s') : ∀ x ∈ drawn s, x ∈ drawn s' := by
  intro x hx
  obtain ⟨c, hc, hcx⟩ := List.mem_filterMap.mp hx
  exact List.mem_filterMap.mpr ⟨c, he.calls c hc, hcx⟩

/-- A saga id is drawn once. -/
theorem enter_drawn {c : Call} {s s' : State} (h : enter c s = some s') :
    ∀ x ∈ c.sagaID?, x ∉ drawn s ∧ x ∈ drawn s' := by
  intro x hx
  have hcx : c.sagaID? = some x := hx
  obtain ⟨hfresh, rfl⟩ := enter_eq h
  refine ⟨fun hin => ?_, List.mem_filterMap.mpr ⟨c, List.mem_cons_self, hx⟩⟩
  obtain ⟨c', hc', hcx'⟩ := List.mem_filterMap.mp hin
  have hall := List.all_eq_true.mp hfresh c' hc'
  simp [hcx, hcx'] at hall

theorem numbered_step (h : p.Numbered Call.sagaID? drawn)
    (hs : (monolith D).step p e = some p') : p'.Numbered Call.sagaID? drawn :=
  h.step hs (drawn_evolves (step_evolves hs)) (fun _ _ hent => enter_drawn hent)

/-- Two calls do not have the same saga. -/
theorem Agreement.distinct (h : Agreement D p) {i j : Nat} {th th' : Thread Op Op.Res Call Ret}
    (hi : p.threads[i]? = some th) (hj : p.threads[j]? = some th') (hne : j ≠ i) :
    ∀ x, th'.call.sagaID? = some x → th.call.sagaID? ≠ some x := by
  intro x hx' hx
  exact hne (h.numbered.distinct j i _ _ x (Pool.calls_of_thread hj) (Pool.calls_of_thread hi)
    hx' hx)

variable {th : Thread Op Op.Res Call Ret}

/-- The handler of a reply to `x` answers a command that was published. -/
theorem Agreement.answers (h : Agreement D p) {i : Nat} (hi : p.threads[i]? = some th) :
    ∀ x ∈ answers? D th.call, x ∈ commanded D p.state :=
  h.answered th.call (List.mem_of_getElem? (Pool.calls_of_thread hi))

/-- Commands are issued for sagas that were drawn. -/
theorem issued_step (hjson : D.json.ReadsCommands) (h : Agreement D p)
    (hsafe : MonolithSafe D p) (hs : (monolith D).step p e = some p') :
    ∀ x ∈ commanded D p'.state, x ∈ drawn p'.state := by
  intro x hx
  refine drawn_evolves (step_evolves hs) x ?_
  rcases step_cases hs with ⟨i, ch, th, o, k, r, _, hth, hend, hprog, hex⟩ | hidle
  · rcases commanded_exec hjson (hsafe.known hth hend hprog hex) hx with hold | hown
    · exact h.issued x hold
    · exact h.numbered.recorded th.call (List.mem_of_getElem? (Pool.calls_of_thread hth)) x hown
  · rw [commanded_eq hidle.commands] at hx
    exact h.issued x hx

/-- Replies come to commands that were issued. -/
theorem answered_step (h : Agreement D p) (hc : OneAtATime D p e)
    (hs : (monolith D).step p e = some p') :
    ∀ c ∈ p'.calls, ∀ x ∈ answers? D c, x ∈ commanded D p'.state := by
  intro c hmem x hx
  refine commanded_evolves ?_ (step_evolves hs)
  rcases (monolith D).step_calls hs with hsame | ⟨c', rfl, hnew⟩
  · exact h.answered c (hsame ▸ hmem) x hx
  · rw [hnew, List.mem_append, List.mem_singleton] at hmem
    rcases hmem with hold | rfl
    · exact h.answered c hold x hx
    · exact hc.2 x hx

/-- A saga is completed because of a reply, and so of a command. -/
theorem caused_step (h : Agreement D p) (hsafe : MonolithSafe D p)
    (hs : (monolith D).step p e = some p') :
    ∀ x, Completed x p'.state → x ∈ commanded D p'.state := by
  rintro x ⟨inst', hx', hst'⟩
  refine commanded_evolves ?_ (step_evolves hs)
  rcases step_cases hs with ⟨i, ch, th, o, k, r, _, hth, hend, hprog, hex⟩ | hidle
  · rcases completed_by (hsafe.known hth hend hprog hex) hx' hst' with
      hold | ⟨body, reply, hcall, hreply, _, hid⟩
    · exact h.caused x hold
    · refine h.answers hth x ?_
      rw [hcall]
      simp [answers?, hreply, hid]
  · rw [hidle.sagas] at hx'
    exact h.caused x ⟨inst', hx', hst'⟩

/-- A call keeps its assertion while another event happens. -/
theorem Agreement.holds_step (hjson : D.json.ReadsCommands)
    (h : Agreement D p) (hc : OneAtATime D p e) (hsafe : MonolithSafe D p)
    (hs : (monolith D).step p e = some p') {j : Nat} {q : Stage} (hth : p.threads[j]? = some th)
    (hun : th.Unharmed) (hne : ∀ ch, e ≠ .run j ch)
    (hobeys : th.prog.Obeys (stages D th.call) (Final th.call) q)
    (hholds : Holds D th.call q p.state) : Holds D th.call q p'.state := by
  cases e with
  | call c =>
    obtain ⟨s, hent, rfl⟩ := (monolith D).step_call hs
    rw [(enter_eq hent).2]
    exact hholds.calls _
  | run i ch =>
    obtain ⟨th', o, k, r, s, hth', hend, hprog, hx, rfl⟩ := (monolith D).step_run hs
    have hji : j ≠ i := by
      rintro rfl
      exact hne ch rfl
    obtain ⟨q', hobeys', hholds'⟩ := h.tracked i th' hth' (.inl hend)
    rw [hprog] at hobeys'
    exact Holds.stable hjson (hsafe.known hth' hend hprog hx) hobeys'.1 hholds'
      (h.distinct hth' hth hji) hholds
  | kill i =>
    obtain ⟨_, _, _, rfl⟩ := (monolith D).step_kill hs
    exact hholds
  | env w =>
    obtain ⟨s, hw, rfl⟩ := (monolith D).step_env hs
    cases w with
    | tick d => cases hw; exact hholds.now _
    | restart =>
      -- nothing is running then, and who has returned listens no more
      cases hw
      have hgone : p.NoneRunning (fun _ => true) := hc
      obtain ⟨_, _, hfinal⟩ := hun.returned (hgone.not_running hth rfl) hobeys
      exact hholds.restart hfinal

/-- Every call is where its protocol says. -/
theorem tracked_step (hjson : D.json.ReadsCommands) (h : Agreement D p)
    (hc : OneAtATime D p e) (hsafe : MonolithSafe D p) (hcmds : Commanded D p.state)
    (hs : (monolith D).step p e = some p') : p'.Tracks (stages D) Final (Holds D) := by
  have hprogram : ∀ c, ((monolith D).program c).Obeys (stages D c) (Final c) .before :=
    program_obeys D
  refine Pool.Tracks.step hprogram h.tracked hs ?_ ?_
    (fun _ _ _ => h.holds_step hjson hc hsafe hs)
  · -- the saga of a new call was never heard of
    rintro c s rfl hent x hx hin
    have hin' : x ∈ commanded D p.state := by
      obtain ⟨_, rfl⟩ := enter_eq hent
      exact hin
    exact (enter_drawn hent x hx).1 (h.issued x hin')
  · rintro i ch th o k r s q rfl hth hprog hx hallows hholds
    obtain ⟨th', _, _, _, _, hth', hend, _, _, _⟩ := (monolith D).step_run hs
    rw [hth, Option.some.injEq] at hth'
    subst hth'
    have hk := hsafe.known hth hend hprog hx
    cases hreply : isReply th.call with
    | false => exact hholds.request hreply hk hallows
    | true => exact hholds.reply hjson hreply hk hcmds (h.answers hth) hallows

/-! ## The channel and the row

The steps that matter: the update that completes the saga, the handler's two
steps from there to the channel, and a send of "failed". -/

/-- A call in its `select` is at the stage that says so. -/
theorem Agreement.waiting (h : Agreement D p) {i n : Nat} (hth : p.threads[i]? = some th)
    (hn : th.pending? = some (.await n)) :
    ∃ x, th.call.sagaID? = some x ∧ Listening x n p.state := by
  obtain ⟨hend, k, hprog⟩ := Thread.pending?_eq_some hn
  obtain ⟨q, hobeys, hholds⟩ := h.tracked i th hth (.inl hend)
  rw [hprog] at hobeys
  obtain ⟨_, rfl⟩ := allows_await hobeys.1
  exact hholds

/-- What is owed stays owed while the handler's thread is as it is. -/
theorem Owed.keep {x : String} {n : Nat} (h : Owed D p x n)
    (hkeep : ∀ (j : Nat) th, p.threads[j]? = some th → Owes D th x n → p'.threads[j]? = some th) :
    Owed D p' x n := by
  obtain ⟨j, th, hth, howes⟩ := h
  exact ⟨j, th, hkeep j th hth howes, howes⟩

/-- An agreement is about the rows, the channels and the handlers. -/
theorem Agrees.keep {x : String} {n : Nat} (h : Agrees D p x n)
    (hsagas : p'.state.sagas = p.state.sagas) (hchans : p'.state.chans = p.state.chans)
    (hkeep : ∀ (j : Nat) th, p.threads[j]? = some th → Owes D th x n → p'.threads[j]? = some th) :
    Agrees D p' x n := by
  obtain ⟨d, hd, hcomp, hfail⟩ := h
  refine ⟨d, by rw [hchans]; exact hd, fun hx => ?_, fun state hbuf hst => ?_⟩
  · rcases hcomp (by unfold Completed at hx ⊢; rw [← hsagas]; exact hx) with hbuf | ⟨hbuf, howed⟩
    · exact .inl hbuf
    · exact .inr ⟨hbuf, howed.keep hkeep⟩
  · unfold Failed
    rw [hsagas]
    exact hfail state hbuf hst

/-- A handler that is to tell a waiter has not returned. -/
theorem owes_resume {x : String} {n len : Nat} {prog : P Ret}
    (hreply : isReply th.call = true)
    (h : prog.Obeys (stages D th.call) (Final th.call) (.settled x .completed) ∨
      prog.Obeys (stages D th.call) (Final th.call) (.sending n .completed)) :
    Owes D (th.resume len prog) x n := by
  refine ⟨?_, hreply, h⟩
  cases prog with
  | ret a => rcases h with h | h <;> cases h
  | op o k => rfl

/-- An update that completes a saga is reported as such. -/
theorem exec_complete_honest {s s' : State} {x : String} {ch : Choice}
    {r : Except Err (Except Err Nat)} (hh : honest (.sagaCompleteIfAwaiting x) ch = true)
    (h : exec s (.sagaCompleteIfAwaiting x) ch = some (r, s')) (hold : ¬ Completed x s)
    (hnew : Completed x s') : r = .ok (.ok 1) := by
  rcases exec_complete h with ⟨rfl, _⟩ | ⟨rfl, hhits⟩
  · exact absurd hnew hold
  · have hone : s.sagas.hits x .awaitingConfirmation = 1 := by
      rw [SagaTable.hits_eq]
      split
      · rfl
      · next hst =>
        -- an update that hits nothing completes nothing
        obtain ⟨inst', hx, hc⟩ := hnew
        simp only [State.moveSaga, SagaTable.get_transition] at hx
        obtain ⟨inst, hget, rfl⟩ := Option.map_eq_some_iff.mp hx
        rw [if_neg (fun h => hst (by rw [hget, Option.map_some, h.2]))] at hc
        exact absurd ⟨inst, hget, hc⟩ hold
    rw [← hone]
    cases ch with
    | ok =>
      simp only [exec, attemptUpdate, attempt, Except.map, Option.some.injEq, Prod.mk.injEq] at h
      exact h.1.symm
    | fail f =>
      simp only [exec, attemptUpdate, attempt, Option.some.injEq, Prod.mk.injEq] at h
      exact absurd (h.2 ▸ hnew) hold
    | failApplied f => cases hh
    | noCount f => cases hh
    | _ => simp [exec, attemptUpdate, attempt] at h

section Run

variable {i n : Nat} {th : Thread Op Op.Res Call Ret} {o : Op} {k : o.Res → P Ret} {ch : Choice}
variable {r : o.Res} {s : State} {x : String}

/-- The pool after an operation of thread `i`. -/
def after (p : MonolithPool) (i : Nat) (th : Thread Op Op.Res Call Ret) (prog : P Ret) (s : State) :
    MonolithPool :=
  ⟨s, p.threads.set i (th.resume p.threads.length prog)⟩

theorem after_self {prog : P Ret} (hth : p.threads[i]? = some th) :
    (after p i th prog s).threads[i]? = some (th.resume p.threads.length prog) :=
  List.getElem?_set_self (List.getElem?_eq_some_iff.mp hth).1

theorem after_other {prog : P Ret} {j : Nat} (hji : j ≠ i) :
    (after p i th prog s).threads[j]? = p.threads[j]? :=
  List.getElem?_set_ne (fun h => hji h.symm)

/-- An operation that does not touch the channel leaves what is owed on it owed:
the handler that owes it is at most a step closer. -/
theorem Owed.run (howed : Owed D p x n) (hth : p.threads[i]? = some th)
    (hprog : th.prog = .op o k) (hk : Known D th.call o ch r p.state s)
    (hw : p.state.waiters x = some n) (hsend : ∀ state, o ≠ .trySend n state) :
    Owed D (after p i th (k r) s) x n := by
  obtain ⟨j, th', hth', howes⟩ := howed
  by_cases hji : j = i
  · subst hji
    rw [hth, Option.some.injEq] at hth'
    subst hth'
    obtain ⟨_, hreply, hobeys⟩ := howes
    rw [hprog] at hobeys
    rcases hobeys with hobeys | hobeys
    · -- the handler looks up the channel, and finds the one that is registered
      cases allows_settled hreply hobeys.1
      obtain ⟨rfl, hr⟩ := exec_lookupWaiter hk.exec
      rw [hw] at hr
      subst hr
      refine ⟨j, _, after_self hth, owes_resume hreply (.inr ?_)⟩
      have hnext := hobeys.2 (some n)
      rw [stages_reply hreply] at hnext ⊢
      exact hnext
    · exact absurd (allows_sending hreply hobeys.1) (hsend .completed)
  · exact ⟨j, th', by rw [after_other hji]; exact hth', howes⟩

/-- The handler that completes a saga owes the signal from then on. -/
theorem owed_of_completed (h : Agreement D p) (hth : p.threads[i]? = some th)
    (hend : th.ended = none) (hprog : th.prog = .op o k) (hk : Known D th.call o ch r p.state s)
    (hh : honest o ch = true) (hold : ¬ Completed x p.state) (hnew : Completed x s) :
    Owed D (after p i th (k r) s) x n := by
  obtain ⟨inst', hx', hst'⟩ := hnew
  rcases (exec_sagas hk.exec).completed hx' hst' with hbefore | rfl
  · exact absurd hbefore hold
  · obtain ⟨body, reply, hcall, _⟩ := hk.ready
    have hreply : isReply th.call = true := by rw [hcall]; rfl
    have hr := exec_complete_honest hh hk.exec hold ⟨inst', hx', hst'⟩
    subst hr
    obtain ⟨q, hobeys, _⟩ := h.tracked i th hth (.inl hend)
    rw [hprog] at hobeys
    obtain ⟨rfl, _⟩ := allows_complete hreply hobeys.1
    refine ⟨i, _, after_self hth, owes_resume hreply (.inl ?_)⟩
    have hnext := hobeys.2 (.ok (.ok 1))
    rw [stages_reply hreply] at hnext ⊢
    exact hnext

/-- A handler about to send something else than "completed" owes nothing. -/
theorem not_owed_of_failed (h : Agreement D p) (hth : p.threads[i]? = some th)
    (hend : th.ended = none) (hreply : isReply th.call = true) {state : SagaState}
    {k : Unit → P Ret} (hprog : th.prog = .op (.trySend n state) k) (hst : state ≠ .completed)
    (howed : Owed D p x n) : False := by
  obtain ⟨j, th', hth', hend', hreply', hobeys⟩ := howed
  -- there is only one handler
  have hij := h.single i j th th' hth hth' hreply hreply' hend hend'
  subst hij
  rw [hth, Option.some.injEq] at hth'
  subst hth'
  rw [hprog] at hobeys
  rcases hobeys with hobeys | hobeys
  · cases allows_settled hreply hobeys.1
  · cases allows_sending hreply hobeys.1
    exact hst rfl

/-- A send keeps the agreement: "completed" is sent for a completed saga, and
anything else finds the channel full if the saga is completed. -/
theorem agrees_send (h : Agreement D p) (hth : p.threads[i]? = some th) (hend : th.ended = none)
    {state : SagaState} {k : Unit → P Ret} {r : Unit} (hprog : th.prog = .op (.trySend n state) k)
    (hk : Known D th.call (.trySend n state) ch r p.state s) (hx : Listening x n p.state)
    (hagrees : Agrees D p x n) : Agrees D (after p i th (k r) s) x n := by
  obtain ⟨d, hd, hcomp, hfail⟩ := hagrees
  obtain ⟨_, d', hd', hid⟩ := hx
  rw [hd, Option.some.injEq] at hd'
  subst hd'
  obtain ⟨q, hobeys, hholds⟩ := h.tracked i th hth (.inl hend)
  rw [hprog] at hobeys
  obtain ⟨hreply, rfl⟩ := allows_trySend hobeys.1
  have he := exec_evolves hk.exec
  have hsagas : s.sagas = p.state.sagas := (exec_frame hk.exec).sagas nofun
  have hback : Completed x s → Completed x p.state := by
    unfold Completed
    rw [hsagas]
    exact id
  have hd' : s.chans[n]? = some { d with buf := some (d.buf.getD state) } := by
    rw [exec_trySend hk.exec]
    exact offer_chan hd
  refine ⟨_, hd', ?_⟩
  cases hbuf : d.buf with
  | some b =>
    -- dropped
    refine ⟨fun hc => ?_, fun state' hs hne => ?_⟩
    · rcases hcomp (hback hc) with hcompleted | ⟨hnone, _⟩
      · rw [hbuf] at hcompleted
        exact .inl hcompleted
      · rw [hbuf] at hnone
        cases hnone
    · exact Failed.evolves _ _ (hfail state' (by rw [hbuf]; exact hs) hne) he
  | none =>
    by_cases hst : state = .completed
    · subst hst
      refine ⟨fun _ => .inl rfl, fun state' hs hne => ?_⟩
      cases hs
      exact absurd rfl hne
    · have hnot : ¬ Completed x p.state := by
        intro hc
        rcases hcomp hc with hfull | ⟨_, howed⟩
        · rw [hbuf] at hfull
          cases hfull
        · exact not_owed_of_failed h hth hend hreply hprog hst howed
      refine ⟨fun hc => absurd (hback hc) hnot, fun _ _ _ => ?_⟩
      obtain ⟨d', hd', _, hsettled⟩ := hholds
      rw [hd, Option.some.injEq] at hd'
      subst hd'
      rw [hid] at hsettled
      rcases hsettled hst with hc | hf
      · exact absurd hc hnot
      · exact Failed.evolves _ _ hf he

/-- Every other operation of another call keeps it, too. -/
theorem agrees_other (h : Agreement D p) (hth : p.threads[i]? = some th) (hend : th.ended = none)
    (hprog : th.prog = .op o k) (hk : Known D th.call o ch r p.state s) (hh : honest o ch = true)
    (hne : th.call.sagaID? ≠ some x) (hx : Listening x n p.state) (hagrees : Agrees D p x n) :
    Agrees D (after p i th (k r) s) x n := by
  obtain ⟨d, hd, hcomp, hfail⟩ := hagrees
  obtain ⟨hw, d', hd', hid⟩ := id hx
  rw [hd, Option.some.injEq] at hd'
  subst hd'
  have he := exec_evolves hk.exec
  obtain ⟨q, hobeys, hholds⟩ := h.tracked i th hth (.inl hend)
  rw [hprog] at hobeys
  -- apart from a send the channel is as before, and only the row may be ahead
  by_cases hsend : ∃ state, o = .trySend n state
  · obtain ⟨state, rfl⟩ := hsend
    exact agrees_send h hth hend hprog hk hx ⟨d, hd, hcomp, hfail⟩
  · have hkept := (chan_kept hk.exec hobeys.1 hholds hd (hid ▸ hne)).resolve_right hsend
    refine ⟨d, hkept, fun hc => ?_,
      fun state hbuf hst => Failed.evolves _ _ (hfail state hbuf hst) he⟩
    by_cases hold : Completed x p.state
    · rcases hcomp hold with hbuf | ⟨hbuf, howed⟩
      · exact .inl hbuf
      · exact .inr ⟨hbuf, howed.run hth hprog hk hw (fun state ho => hsend ⟨state, ho⟩)⟩
    · -- the saga is completed by this operation, and the channel is still empty
      refine .inr ⟨?_, owed_of_completed h hth hend hprog hk hh hold hc⟩
      cases hbuf : d.buf with
      | none => rfl
      | some state =>
        by_cases hst : state = .completed
        · subst hst
          have hsaid := hk.before.signalled hd hbuf
          rw [hid] at hsaid
          exact absurd hsaid hold
        · have hf := Failed.evolves _ _ (hfail state hbuf hst) he
          exact absurd hc (not_completed_of_failed hf)

/-- The call that gets to its `select` finds its channel empty and its saga not
completed. -/
theorem agrees_own (h : Agreement D p) (hth : p.threads[i]? = some th) (hend : th.ended = none)
    (hprog : th.prog = .op o k) (hk : Known D th.call o ch r p.state s)
    (hn : (th.resume p.threads.length (k r)).pending? = some (.await n))
    (hx : th.call.sagaID? = some x) : Agrees D (after p i th (k r) s) x n := by
  obtain ⟨_, k', hprog'⟩ := Thread.pending?_eq_some hn
  rw [Thread.resume_prog] at hprog'
  obtain ⟨q, hobeys, hholds⟩ := h.tracked i th hth (.inl hend)
  rw [hprog] at hobeys
  have hnext := hobeys.2 r
  rw [hprog'] at hnext
  obtain ⟨hreq, hstage⟩ := allows_await hnext.1
  obtain ⟨rfl, key, body, rfl⟩ := next_waiting hreq hstage
  obtain ⟨y, hy, hnot, _, hd⟩ := hholds
  rw [hx, Option.some.injEq] at hy
  subst hy
  have hframe := exec_frame hk.exec
  refine ⟨⟨x, none⟩, ?_, fun hc => ?_, fun _ hbuf => by cases hbuf⟩
  · show s.chans[n]? = _
    rw [(hframe.waiting nofun).2]
    exact hd
  · have hc' : Completed x p.state := by
      unfold Completed at hc ⊢
      rw [← hframe.sagas nofun]
      exact hc
    exact absurd (h.caused x hc') hnot

end Run

/-- What is in a channel agrees with its saga. -/
theorem agrees_step (h : Agreement D p) (hc : OneAtATime D p e) (hsafe : MonolithSafe D p)
    (hs : (monolith D).step p e = some p') :
    ∀ (i : Nat) th n x, p'.threads[i]? = some th → th.pending? = some (.await n) →
      th.call.sagaID? = some x → Agrees D p' x n := by
  intro j thT n x hT hn hx
  obtain ⟨hlive, _, _⟩ := Thread.pending?_eq_some hn
  cases e with
  | call c =>
    obtain ⟨s, hent, rfl⟩ := (monolith D).step_call hs
    obtain ⟨_, rfl⟩ := enter_eq hent
    rcases getElem?_append_singleton hT with hold | ⟨_, rfl⟩
    · refine (h.agrees j thT n x hold hn hx).keep rfl rfl (fun i th hth _ => ?_)
      rw [List.getElem?_append_left (List.getElem?_eq_some_iff.mp hth).1]
      exact hth
    · -- no call starts with its `select`
      obtain ⟨_, k, hprog⟩ := Thread.pending?_eq_some hn
      have hobeys := program_obeys D c
      rw [show program D c = .op (.await n) k from hprog] at hobeys
      cases (allows_await hobeys.1).2
  | run i ch =>
    obtain ⟨th, o, k, r, s, hth, hend, hprog, hex, rfl⟩ := (monolith D).step_run hs
    have hk := hsafe.known hth hend hprog hex
    rcases getElem?_set_cases hT with ⟨_, rfl⟩ | ⟨hji, hold⟩
    · exact agrees_own h hth hend hprog hk hn hx
    · obtain ⟨y, hy, hlisten⟩ := h.waiting hold hn
      rw [hx, Option.some.injEq] at hy
      subst hy
      exact agrees_other h hth hend hprog hk (hc _ (Pool.due?_of_op hth hend hprog))
        (h.distinct hth hold hji x hx) hlisten (h.agrees j thT n x hold hn hx)
  | kill i =>
    obtain ⟨th, hth, hend, rfl⟩ := (monolith D).step_kill hs
    rcases getElem?_set_cases hT with ⟨_, rfl⟩ | ⟨_, hold⟩
    · cases hlive
    · refine (h.agrees j thT n x hold hn hx).keep rfl rfl (fun i' th' hth' howes => ?_)
      by_cases hii : i' = i
      · -- a handler is not killed while this call waits
        subst hii
        have hquiet := (hc th' hth' howes.2.1).pending hold hn
        cases hquiet
      · rw [List.getElem?_set_ne (fun h => hii h.symm)]
        exact hth'
  | env w =>
    obtain ⟨s, hw, rfl⟩ := (monolith D).step_env hs
    cases w with
    | tick d =>
      cases hw
      exact (h.agrees j thT n x hT hn hx).keep rfl rfl (fun _ _ hth _ => hth)
    | restart =>
      have hgone : p.NoneRunning (fun _ => true) := hc
      exact absurd hlive (hgone.not_running hT rfl)

/-- **Every step keeps the agreement.** -/
theorem Agreement.step (hjson : D.json.ReadsCommands) (h : Agreement D p)
    (hc : OneAtATime D p e) (hsafe : MonolithSafe D p) (hcmds : Commanded D p.state)
    (hs : (monolith D).step p e = some p') : Agreement D p' where
  numbered := numbered_step h.numbered hs
  single := by
    refine h.single.step hs ?_
    rintro c rfl hreply
    exact hc.1 hreply
  issued := issued_step hjson h hsafe hs
  answered := answered_step h hc hs
  caused := caused_step h hsafe hs
  tracked := tracked_step hjson h hc hsafe hcmds hs
  agrees := agrees_step h hc hsafe hs

end Steps

/-! ## Every run -/

/-- The pool before the first call. -/
theorem Agreement.init (D : Deps) : Agreement D monolithInit where
  numbered := by
    refine ⟨fun c hc => ?_, fun i j c c' n hi => ?_⟩
    · cases hc
    · cases hi
  single := fun i j th th' hi => by simp [monolithInit] at hi
  issued := fun x hx => by cases hx
  answered := fun c hc => by cases hc
  caused := by
    rintro x ⟨inst, hx, _⟩
    simp [monolithInit, State.init] at hx
  tracked := fun i th hi => by simp [monolithInit] at hi
  agrees := fun i th n x hi => by simp [monolithInit] at hi

theorem agreement_of_run {D : Deps} (hjson : D.json.ReadsCommands)
    {es : List (Event Choice Call WorldEvent)} {p : MonolithPool}
    (h : (monolith D).Run (OneAtATime D) monolithInit es p) : Agreement D p := by
  have hrun : (monolith D).Run (fun p e => OneAtATime D p e ∧ MonolithSafe D p ∧
      Commanded D p.state) monolithInit es p :=
    h.strengthen (fun _ _ _ hr _ =>
      ⟨monolith_safe hr, run_commanded (hr.mono (fun _ _ _ => trivial))⟩)
  exact hrun.invariant (Agreement.init D)
    (fun _ _ _ hp hc hs => hp.step hjson hc.1 hc.2.1 hc.2.2 hs)

/-- With replies handled one at a time, next to any requests and reapers and
whatever the replies say: while a call blocks in its `select` and no reply is
being handled, its channel holds "completed" exactly if its saga is completed,
and "failed" only if it has failed. A call that has returned nil has its saga
completed, now and ever after. -/
theorem waiter_agrees_with_saga (D : Deps) (hjson : D.json.ReadsCommands)
    (es : List (Event Choice Call WorldEvent)) (p : MonolithPool)
    (h : (monolith D).Run (OneAtATime D) monolithInit es p) :
    (∀ (i : Nat) (c : Call) (n : Nat), p.due? i = some (c, .await n) → p.NoneRunning isReply →
      ∃ x d, c.sagaID? = some x ∧ p.state.chans[n]? = some d ∧ d.sagaID = x ∧
        (Completed x p.state ↔ d.buf = some .completed) ∧
        (d.buf = some .failed → Failed x p.state)) ∧
    ∀ (i : Nat) (th : Thread Op Op.Res Call Ret) (x : String), p.threads[i]? = some th →
      th.call.sagaID? = some x → th.prog = .ret (.error none) →
      ∀ es' p', (monolith D).steps p es' = some p' → Completed x p'.state := by
  -- the first part is the invariant without its debt, the second holds of every run
  have hagree := agreement_of_run hjson h
  have hsafe := monolith_safe h
  refine ⟨fun i c n hdue hnone => ?_, fun i th x hth hx hret es' p' hsteps => ?_⟩
  · obtain ⟨th, hth, rfl, hn⟩ := Pool.due?_eq_some hdue
    obtain ⟨x, hx, _, d, hd, hid⟩ := hagree.waiting hth hn
    obtain ⟨d', hd', hcomp, hfail⟩ := hagree.agrees i th n x hth hn hx
    rw [hd, Option.some.injEq] at hd'
    subst hd'
    refine ⟨x, d, hx, hd, hid, ⟨fun hc => ?_, fun hbuf => ?_⟩, fun hbuf => hfail _ hbuf nofun⟩
    · rcases hcomp hc with hbuf | ⟨_, j, th', hth', hend, hreply, _⟩
      · exact hbuf
      · -- a signal is owed by a handler that is running
        exact absurd hend (hnone.not_running hth' hreply)
    · have hsaid := hsafe.1.signalled hd hbuf
      rw [hid] at hsaid
      exact hsaid
  · obtain ⟨y, inst, hy, hget, _, hst⟩ := (hsafe.2 i th hth).2 _ hret (by simp [hx]) rfl
    rw [hx, Option.some.injEq] at hy
    subst hy
    have hrun : (monolith D).Run Always p es' p' := .of_steps_any (fun _ _ => trivial) hsteps
    exact Completed.evolves ⟨inst, hget, hst⟩ (run_evolves hrun)

/-- Two replies that contradict each other, and a reaper in between, while the
request is in its `select`. -/
def conflictingReplies : List (Event Choice Call WorldEvent) :=
  [.call (.startAndWait ⟨none⟩ sampleData₁ "s1"), .run 0 .ok, .run 0 .ok, .run 0 .ok,
    .call (.handleReply (sampleSent "s1")), .run 1 .ok, .call .reap, .run 2 .ok, .run 1 .ok,
    .run 1 .ok, .call (.handleReply (sampleFailed "s1" "smtp")), .run 3 .ok, .run 3 .ok,
    .run 3 .ok, .run 3 .ok]

/-- Of two conflicting replies the first one decides, for the saga and for the waiter. -/
theorem waiter_agrees_with_saga_conflicting :
    ∃ p d, (monolith sample).Run (OneAtATime sample) monolithInit conflictingReplies p ∧
      p.due? 0 = some (.startAndWait ⟨none⟩ sampleData₁ "s1", .await 0) ∧
      p.NoneRunning isReply ∧ p.state.chans[0]? = some d ∧ d.buf = some .completed ∧
      Completed "s1" p.state := by
  have hrun : ((monolith sample).stepsWhere (fun p e => decide (OneAtATime sample p e))
      monolithInit conflictingReplies).any (fun p =>
        decide (p.due? 0 = some (.startAndWait ⟨none⟩ sampleData₁ "s1", .await 0)) &&
        decide (p.NoneRunning isReply) &&
        p.state.chans[0]?.any (fun d => decide (d.buf = some .completed))) = true := by
    decide
  obtain ⟨p, hp, hall⟩ := (Option.any_eq_true _ _).mp hrun
  simp only [Bool.and_eq_true, decide_eq_true_eq] at hall
  obtain ⟨⟨hdue, hnone⟩, hany⟩ := hall
  obtain ⟨d, hd, hbuf⟩ := (Option.any_eq_true _ _).mp hany
  have hbuf : d.buf = some .completed := of_decide_eq_true hbuf
  have hp' := Machine.Run.of_stepsWhere (fun _ _ h => of_decide_eq_true h) hp
  have hagree := (waiter_agrees_with_saga sample sample_compatible.command _ p hp').1
  obtain ⟨x, d', hx, hd', _, hiff, _⟩ := hagree 0 _ 0 hdue hnone
  cases hx
  rw [hd, Option.some.injEq] at hd'
  subst hd'
  exact ⟨p, d, hp', hdue, hnone, hd, hbuf, hiff.mpr hbuf⟩

end ReleaseNotifier.Handshake
