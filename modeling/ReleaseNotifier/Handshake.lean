/-
In which order a request waits for its reply and a reply is handled.

`StartAndWait` registers its channel before it publishes its command, and blocks
on the channel only if the command is out. `HandleReply` settles the saga
first and tells the waiter afterwards: after a `confirmation_sent` only if this
call made the transition, after a `confirmation_failed` whenever `compensate`
returned nil, which it also does for a saga that somebody else has completed.
`program_obeys` says so of the programs, whatever they are answered; what it
means for the channel is the subject of the next file.
-/
import ReleaseNotifier.Conc.Protocol
import ReleaseNotifier.Steps

set_option autoImplicit false

namespace ReleaseNotifier.Handshake

open Conc

/-! ## The protocol -/

/-- How far a call has come. -/
inductive Stage
  | before
  /-- the request listens on channel `n`, and its command is not out -/
  | registered (n : Nat)
  /-- the command is out, and the request blocks in its `select` -/
  | waiting (n : Nat)
  /-- the reply came too late to claim the compensation -/
  | lost (x : String)
  /-- the reply carries out the compensation -/
  | claimed (x : String)
  /-- the saga is settled, and its waiter does not know -/
  | settled (x : String) (state : SagaState)
  /-- the same, and the waiter's channel has been looked up -/
  | sending (n : Nat) (state : SagaState)
  | finished

/-- The call handles a reply. -/
def isReply : Call → Bool
  | .handleReply _ => true
  | _ => false

/-- The saga a call handles a reply for. -/
def answers? (D : Deps) : Call → Option String
  | .handleReply body =>
    match D.json.reply.unmarshal body with
    | .ok reply => some reply.sagaID
    | .error _ => none
  | _ => none

/-- An operation that touches neither the waiters nor the broker. -/
def plain (o : Op) : Prop := o.part ≠ .waiting ∧ o.part ≠ .broker

/-- What a request may do. -/
def Stage.requests (c : Call) : Stage → Op → Prop
  | .before, .registerWaiter x => c.sagaID? = some x
  | .before, o => plain o
  | .registered _, .publish _ _ => True
  | .registered _, .unregisterWaiter x => c.sagaID? = some x
  | .registered _, o => plain o
  | .waiting n, .await m => m = n
  | .finished, .unregisterWaiter x => c.sagaID? = some x
  | .finished, o => plain o
  | _, _ => False

/-- Where that leads it. -/
def Stage.requested : Stage → (o : Op) → o.Res → Stage
  | .before, .registerWaiter _, n => .registered n
  | .before, _, _ => .before
  | .registered n, .publish _ _, .ok () => .waiting n
  | _, _, _ => .finished

/-- What the handler of a reply may do. -/
def Stage.replies (D : Deps) (c : Call) : Stage → Op → Prop
  | .before, .sagaCompleteIfAwaiting x => answers? D c = some x
  | .before, .sagaClaimCompensation x => answers? D c = some x
  | .lost x, .sagaGet y => y = x
  | .claimed _, .stmtUpdateStatus _ _ _ => True
  | .claimed x, .sagaMarkCompensated y => y = x
  | .settled x _, .lookupWaiter y => y = x
  | .sending n state, .trySend m state' => m = n ∧ state' = state
  | _, _ => False

/-- Where that leads it. -/
def Stage.replied : Stage → (o : Op) → o.Res → Stage
  | .before, .sagaCompleteIfAwaiting x, .ok (.ok n) =>
    if n = 1 then .settled x .completed else .finished
  | .before, .sagaClaimCompensation x, .ok none => .lost x
  | .before, .sagaClaimCompensation x, .ok (some (.ok _)) => .claimed x
  | .lost x, .sagaGet _, .ok (some (.ok inst)) =>
    if inst.state = .compensating then .claimed x else .settled x .failed
  | .claimed x, .stmtUpdateStatus _ _ _, _ => .claimed x
  | .claimed x, .sagaMarkCompensated _, .ok () => .settled x .failed
  | .settled _ state, .lookupWaiter _, some n => .sending n state
  | _, _, _ => .finished

/-- The protocol of a call. -/
def stages (D : Deps) (c : Call) : Protocol Op Op.Res Stage :=
  if isReply c then ⟨Stage.replies D c, Stage.replied⟩ else ⟨Stage.requests c, Stage.requested⟩

/-- A call does not return while a channel is registered for it, and not between
settling a saga and telling its waiter. -/
def Stage.final : Stage → Bool
  | .before => true
  | .claimed _ => true
  | .finished => true
  | _ => false

/-- The two protocols share no rule, so a proof picks one of them first. -/
theorem stages_reply {D : Deps} {c : Call} (h : isReply c = true) :
    stages D c = ⟨Stage.replies D c, Stage.replied⟩ := if_pos h

theorem stages_request {D : Deps} {c : Call} (h : isReply c = false) :
    stages D c = ⟨Stage.requests c, Stage.requested⟩ := if_neg (by simp [h])

/-! ## Reading the stage off an operation -/

section Stages

variable {D : Deps} {c : Call} {q : Stage} {x : String} {n : Nat} {state : SagaState}

/-- Whoever registers a waiter does so under its own saga. -/
theorem allows_registerWaiter (h : (stages D c).allows q (.registerWaiter x)) :
    c.sagaID? = some x := by
  cases hc : isReply c with
  | true => rw [stages_reply hc] at h; cases q <;> cases h
  | false =>
    rw [stages_request hc] at h
    cases q with
    | before => exact h
    | registered n => exact absurd rfl h.1
    | finished => exact absurd rfl h.1
    | _ => cases h

theorem allows_unregisterWaiter (h : (stages D c).allows q (.unregisterWaiter x)) :
    c.sagaID? = some x := by
  cases hc : isReply c with
  | true => rw [stages_reply hc] at h; cases q <;> cases h
  | false =>
    rw [stages_request hc] at h
    cases q with
    | before => exact absurd rfl h.1
    | registered n => exact h
    | finished => exact h
    | _ => cases h

/-- Only a request waits, and on the channel it registered. -/
theorem allows_await (h : (stages D c).allows q (.await n)) :
    isReply c = false ∧ q = .waiting n := by
  cases hc : isReply c with
  | true => rw [stages_reply hc] at h; cases q <;> cases h
  | false =>
    rw [stages_request hc] at h
    cases q with
    | before => exact absurd rfl h.1
    | registered n => exact absurd rfl h.1
    | waiting m => cases h; exact ⟨rfl, rfl⟩
    | finished => exact absurd rfl h.1
    | _ => cases h

/-- Only a reply sends, on the channel it found. -/
theorem allows_trySend (h : (stages D c).allows q (.trySend n state)) :
    isReply c = true ∧ q = .sending n state := by
  cases hc : isReply c with
  | true =>
    rw [stages_reply hc] at h
    cases q with
    | sending m st => obtain ⟨rfl, rfl⟩ := h; exact ⟨rfl, rfl⟩
    | _ => cases h
  | false =>
    rw [stages_request hc] at h
    cases q with
    | before => exact absurd rfl h.1
    | registered n => exact absurd rfl h.1
    | finished => exact absurd rfl h.1
    | _ => cases h

/-- A reply completes the saga that it names, as its first step. -/
theorem allows_complete (hc : isReply c = true)
    (h : (stages D c).allows q (.sagaCompleteIfAwaiting x)) :
    q = .before ∧ answers? D c = some x := by
  rw [stages_reply hc] at h
  cases q with
  | before => exact ⟨rfl, h⟩
  | _ => cases h

/-- A reply that has settled a saga looks for its waiter next. -/
theorem allows_settled {o : Op} (hc : isReply c = true)
    (h : (stages D c).allows (.settled x state) o) : o = .lookupWaiter x := by
  rw [stages_reply hc] at h
  cases o with
  | lookupWaiter y => cases h; rfl
  | _ => cases h

/-- A reply that has found a channel sends on it next. -/
theorem allows_sending {o : Op} (hc : isReply c = true)
    (h : (stages D c).allows (.sending n state) o) : o = .trySend n state := by
  rw [stages_reply hc] at h
  cases o with
  | trySend m st => obtain ⟨rfl, rfl⟩ := h; rfl
  | _ => cases h

/-- A request gets to its `select` by publishing its command. -/
theorem next_waiting {o : Op} {r : o.Res} (hc : isReply c = false)
    (h : (stages D c).next q o r = .waiting n) :
    q = .registered n ∧ ∃ key body, o = .publish key body := by
  rw [stages_request hc] at h
  change Stage.requested q o r = .waiting n at h
  unfold Stage.requested at h
  split at h
  · cases h
  · cases h
  · cases h
    exact ⟨rfl, _, _, rfl⟩
  · cases h

end Stages

/-! ## Requests -/

section Requests

variable {D : Deps} {c : Call} {α : Type}

/-- The protocol of a request. -/
abbrev requesting (c : Call) : Protocol Op Op.Res Stage := ⟨Stage.requests c, Stage.requested⟩

/-- Before it registers, a request may do anything that is plain. -/
theorem plain_before {p : P α} (hp : p.Uses plain) :
    p.Obeys (requesting c) (fun _ q => q = .before) .before := by
  refine hp.obeys (fun q => q = Stage.before) rfl (fun q o hq ho => ?_)
  subst hq
  cases o with
  | registerWaiter x => exact absurd rfl ho.1
  | _ => exact ⟨ho, fun _ => rfl⟩

/-- A request with channel `n`, or none any more, that does not wait. -/
def Leaving (n : Nat) (q : Stage) : Prop := q = .registered n ∨ q = .finished

/-- Neither is anything plain a problem afterwards. -/
theorem plain_leaving {p : P α} {n : Nat} {q : Stage} (hp : p.Uses plain) (hq : Leaving n q) :
    p.Obeys (requesting c) (fun _ q => Leaving n q) q := by
  refine hp.obeys (Leaving n) hq (fun q o hq ho => ?_)
  rcases hq with rfl | rfl
  · cases o with
    | publish key body => exact absurd rfl ho.2
    | unregisterWaiter x => exact absurd rfl ho.1
    | _ => exact ⟨ho, fun _ => .inr rfl⟩
  · cases o with
    | unregisterWaiter x => exact absurd rfl ho.1
    | _ => exact ⟨ho, fun _ => .inr rfl⟩

theorem compensate_plain (x : String) : (compensate x).Uses plain :=
  compensate_uses ⟨nofun, nofun⟩ ⟨nofun, nofun⟩ (fun _ _ => ⟨nofun, nofun⟩) ⟨nofun, nofun⟩

theorem cancel_plain (origin : Origin) (id : Nat) : (cancel origin id).Uses plain :=
  cancel_uses ⟨nofun, nofun⟩

/-- The command is out if `publishConfirmation` returns nil. -/
theorem publishConfirmation_obeys (ctx : Context) (x : String) (data : SubscriptionData) (n : Nat) :
    (publishConfirmation D ctx x data).Obeys (requesting c)
      (fun res q => if res = none then q = .waiting n else Leaving n q) (.registered n) := by
  unfold publishConfirmation
  split
  · exact .inl rfl
  · split
    · exact .inl rfl
    · refine ⟨trivial, fun r => ?_⟩
      cases r with
      | error err => exact .inr rfl
      | ok _ => exact rfl

/-- However the wait ends, the channel is still to be unregistered. -/
theorem dispatchAndWait_obeys (ctx : Context) (x : String) (data : SubscriptionData) (n : Nat) :
    (dispatchAndWait D ctx data x n).Obeys (requesting c) (fun _ q => Leaving n q)
      (.registered n) := by
  refine (publishConfirmation_obeys ctx x data n).bind (fun res q hq => ?_)
  cases res with
  | some err =>
    exact (plain_leaving (compensate_plain x) hq).bind (fun _ _ hq => hq)
  | none =>
    cases hq
    refine ⟨rfl, fun woken => ?_⟩
    cases woken with
    | received final =>
      show Prog.Obeys _ _ (if final = .completed then _ else _) _
      split <;> exact .inr rfl
    | timeout => exact .inr rfl
    | done e => exact .inr rfl

/-- `StartAndWait` unregisters on every path on which it registered. -/
theorem startAndWait_obeys (ctx : Context) {x : String} (data : SubscriptionData)
    (hx : c.sagaID? = some x) :
    (startAndWait D ctx data x).Obeys (requesting c) (fun _ q => q.final = true) .before := by
  have hcreate : (SagaStore.create x data D.timeout).Uses plain := statement_uses ⟨nofun, nofun⟩
  refine (plain_before hcreate).bind (fun res q hq => ?_)
  subst hq
  cases res with
  | some err =>
    exact (plain_before (cancel_plain _ _)).bind (fun _ q hq => by subst hq; rfl)
  | none =>
    refine ⟨hx, fun n => ?_⟩
    refine (dispatchAndWait_obeys ctx x data n).bind (fun res q hq => ?_)
    rcases hq with rfl | rfl
    · exact ⟨hx, fun _ => rfl⟩
    · exact ⟨hx, fun _ => rfl⟩

/-! The rest of the requests is plain. -/

theorem ensureRepoExistsOnGitHub_plain (ref : Ref) : (ensureRepoExistsOnGitHub ref).Uses plain := by
  refine ⟨⟨nofun, nofun⟩, fun r => ?_⟩
  cases r with
  | error err => trivial
  | ok exists_ =>
    show Prog.Uses _ (if exists_ = true then _ else _)
    split <;> trivial

theorem reserveSubscription_plain (addr : String) (ref : Ref) (draw : Except Fault String) :
    (reserveSubscription addr ref draw).Uses plain := by
  have hstmt : ∀ {β : Type} {o : Op} {answer : o.Res → β}, plain o →
      (statement o answer).Uses plain := fun ho => statement_uses ho
  -- both ways to a row are statements and nothing else
  have hrefresh : ∀ sub, (refreshPendingSubscription sub draw).Uses plain := by
    intro sub
    cases draw with
    | error f => trivial
    | ok token =>
      refine Prog.Uses.bind (hstmt ⟨nofun, nofun⟩) (fun res => ?_)
      cases res with
      | none => trivial
      | some err => dsimp only; split <;> trivial
  have hcreate : (createPendingSubscription addr ref draw).Uses plain := by
    cases draw with
    | error f => trivial
    | ok token =>
      refine Prog.Uses.bind (hstmt ⟨nofun, nofun⟩) (fun res => ?_)
      cases res with
      | some err => trivial
      | none =>
        refine Prog.Uses.bind (hstmt ⟨nofun, nofun⟩) (fun res => ?_)
        cases res with
        | error err => trivial
        | ok id => trivial
  refine Prog.Uses.bind (hstmt ⟨nofun, nofun⟩) (fun res => ?_)
  cases res with
  | ok existing =>
    dsimp only
    split
    · trivial
    · exact hrefresh existing
  | error err =>
    dsimp only
    split
    · exact hcreate
    · trivial

/-- Everything before `StartAndWait` is plain, so `Subscribe` is as orderly as that. -/
theorem subscribe_obeys (ctx : Context) (rawEmail rawRepo : String) (draws : Draws)
    (hx : c.sagaID? = some draws.sagaID) :
    (subscribe D ctx rawEmail rawRepo draws).Obeys (requesting c) (fun _ q => q.final = true)
      .before := by
  unfold subscribe
  split
  · rfl
  · refine (plain_before (ensureRepoExistsOnGitHub_plain _)).bind (fun res q hq => ?_)
    subst hq
    cases res with
    | some err => rfl
    | none =>
      refine (plain_before (reserveSubscription_plain _ _ _)).bind (fun res q hq => ?_)
      subst hq
      cases res with
      | error err => rfl
      | ok sub =>
        refine (startAndWait_obeys ctx _ hx).bind (fun res q hq => ?_)
        cases res with
        | some err => exact hq
        | none => exact hq

theorem confirm_plain (token : String) : (confirm token).Uses plain :=
  confirm_uses ⟨nofun, nofun⟩ (fun _ => ⟨nofun, nofun⟩)

theorem unsubscribe_plain (token : String) : (unsubscribe token).Uses plain :=
  unsubscribe_uses ⟨nofun, nofun⟩ (fun _ => ⟨nofun, nofun⟩)

theorem reap_plain : reap.Uses plain := by
  refine Prog.Uses.bind (statement_uses ⟨nofun, nofun⟩) (fun res => ?_)
  cases res with
  | error err => trivial
  | ok ids => exact reapLoop_uses ⟨nofun, nofun⟩ compensate_plain ids

end Requests

/-! ## Replies -/

section Replies

variable {D : Deps} {c : Call} {x : String}

/-- The protocol of a reply's handler. -/
abbrev replying (D : Deps) (c : Call) : Protocol Op Op.Res Stage :=
  ⟨Stage.replies D c, Stage.replied⟩

/-- A missing waiter ends the reply as much as a send does. -/
theorem signalWaiter_obeys (x : String) (state : SagaState) :
    (signalWaiter x state).Obeys (replying D c) (fun _ q => q = .finished) (.settled x state) := by
  refine ⟨rfl, fun n => ?_⟩
  cases n with
  | none => exact rfl
  | some n => exact ⟨⟨rfl, rfl⟩, fun _ => rfl⟩

/-- Only the reply that completed the saga goes on to its waiter. -/
theorem onConfirmationSent_obeys (hx : answers? D c = some x) :
    (onConfirmationSent x).Obeys (replying D c) (fun _ q => q.final = true) .before := by
  refine ⟨hx, fun r => ?_⟩
  rcases r with err | err | n
  · rfl
  · rfl
  · show Prog.Obeys _ _ (if decide (n = 1) = true then _ else _) (if n = 1 then _ else _)
    by_cases hn : n = 1
    · rw [if_pos (by simpa using hn), if_pos hn]
      exact (signalWaiter_obeys x .completed).bind (fun _ q hq => by subst hq; rfl)
    · rw [if_neg (by simpa using hn), if_neg hn]
      rfl

/-- `compensate` returns nil only when the saga is settled. -/
def Compensated (x : String) (res : Option Err) (q : Stage) : Prop :=
  if res = none then q = .settled x .failed else q.final = true

/-- An error on the way ends the handler without a word to the waiter. -/
theorem cancelAndMark_obeys (x : String) (data : SubscriptionData) :
    (cancelAndMark x data).Obeys (replying D c) (Compensated x) (.claimed x) := by
  have hcancel : (cancel (.compensation x data.token) data.subscriptionID).Obeys (replying D c)
      (fun _ q => q = .claimed x) (.claimed x) := by
    refine ⟨trivial, fun r => ?_⟩
    rcases r with err | err | _ | n
    · show Prog.Obeys _ _ (if _ then _ else _) _
      split <;> exact rfl
    · show Prog.Obeys _ _ (if _ then _ else _) _
      split <;> exact rfl
    · exact rfl
    · exact rfl
  refine hcancel.bind (fun res q hq => ?_)
  subst hq
  cases res with
  | some err => exact rfl
  | none =>
    refine ⟨rfl, fun r => ?_⟩
    cases r with
    | error err => exact rfl
    | ok _ => exact rfl

/-- A lost claim is resumed if the saga is compensating, and settled otherwise. -/
theorem compensate_obeys (hx : answers? D c = some x) :
    (compensate x).Obeys (replying D c) (Compensated x) .before := by
  refine ⟨hx, fun r => ?_⟩
  rcases r with err | _ | err | data
  · exact rfl
  · refine ⟨rfl, fun r => ?_⟩
    rcases r with err | _ | err | inst
    · exact rfl
    · exact rfl
    · exact rfl
    · show Prog.Obeys _ _ (if inst.state ≠ .compensating then _ else _)
        (if inst.state = .compensating then _ else _)
      by_cases hst : inst.state = .compensating
      · rw [if_neg (by simpa using hst), if_pos hst]
        exact cancelAndMark_obeys x inst.data
      · rw [if_pos hst, if_neg hst]
        exact rfl
  · exact rfl
  · exact cancelAndMark_obeys x data

theorem onConfirmationFailed_obeys (hx : answers? D c = some x) :
    (onConfirmationFailed x).Obeys (replying D c) (fun _ q => q.final = true) .before := by
  refine (compensate_obeys hx).bind (fun res q hq => ?_)
  cases res with
  | some err => exact hq
  | none =>
    cases hq
    exact (signalWaiter_obeys x .failed).bind (fun _ q hq => by subst hq; rfl)

/-- A body that does not parse, or of another type, ends before the first step. -/
theorem handleReply_obeys (body : Bytes) :
    (handleReply D body).Obeys (replying D (.handleReply body)) (fun _ q => q.final = true)
      .before := by
  unfold handleReply
  cases hr : D.json.reply.unmarshal body with
  | error f => rfl
  | ok reply =>
    have hx : answers? D (.handleReply body) = some reply.sagaID := by simp [answers?, hr]
    dsimp only
    split
    · exact onConfirmationSent_obeys hx
    · split
      · exact onConfirmationFailed_obeys hx
      · rfl

end Replies

/-- Every call keeps to its protocol. -/
theorem program_obeys (D : Deps) (c : Call) :
    (program D c).Obeys (stages D c) (fun _ q => q.final = true) .before := by
  have hplain : ∀ {α : Type} {p : P α} {f : α → Ret}, isReply c = false → p.Uses plain →
      Prog.Obeys (stages D c) (fun _ q => q.final = true) (do return f (← p)) .before := by
    intro α p f hc hp
    rw [stages_request hc]
    exact (plain_before hp).bind (fun _ q hq => by subst hq; rfl)
  cases c with
  | subscribe ctx rawEmail rawRepo draws =>
    rw [stages_request rfl]
    exact (subscribe_obeys ctx rawEmail rawRepo draws rfl).bind (fun _ _ hq => hq)
  | confirm token => exact hplain rfl (confirm_plain token)
  | unsubscribe token => exact hplain rfl (unsubscribe_plain token)
  | handleReply body =>
    rw [stages_reply rfl]
    exact (handleReply_obeys body).bind (fun _ _ hq => hq)
  | reap => exact hplain rfl reap_plain
  | startAndWait ctx data sagaID =>
    rw [stages_request rfl]
    exact (startAndWait_obeys ctx data rfl).bind (fun _ _ hq => hq)

end ReleaseNotifier.Handshake
