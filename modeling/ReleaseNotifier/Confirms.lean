/-
Does a publish that the broker confirms return nil?

All callers wait for their confirmations on the one cached channel, and a caller
whose context is done closes that channel under the others. What is outstanding
on it is then resolved, and the question is as what. On a connection that stays up
nobody is told anything the broker did not say: an answer it has given is
dispatched before the `Close` is over, and a message it has not answered by then
it will never confirm. So a caller whose message is confirmed and whose own
context is not done gets nil, whoever else gives up in the meantime.

What a caller may have been told is a clause of the invariant of the publisher
(`Healthy`). Each call is tracked through the stages of `Publish`, with what the
stage says about the call's own confirmation.
-/
import ReleaseNotifier.Connections

set_option autoImplicit false

namespace ReleaseNotifier.Publisher

open Conc

variable {s s' : State} {topology : Topology}

/-! ## A connection that stays up -/

/-- What the caller has been told is what the broker decided. Only where the broker had
not answered and its channel is gone, it is "not acknowledged" all the same. -/
def Told (s : State) (c : Confirmation) : Prop :=
  ∀ b, c.resolved = some b →
    c.verdict = some b ∨ (c.verdict = none ∧ b = false ∧ s.ch ≠ some c.chan)

/-- The publisher while its connection is up: the channel that is open is the
cached one, what is outstanding is outstanding on it, every caller was told the
truth, and every confirmation belongs to a call that was made. -/
structure Healthy (s : State) : Prop where
  tidy : Tidy s
  cached : ∀ (ch : Nat) (x : Channel), s.chans[ch]? = some x → (x.closed = false ↔ s.ch = some ch)
  outstanding : ∀ c ∈ s.confirmations, c.resolved = none → s.ch = some c.chan
  told : ∀ c ∈ s.confirmations, Told s c
  numbered : ∀ c ∈ s.confirmations, c.call ∈ s.calls

/-- The confirmations of `call` are still those of `call`, what the caller was told
stands, and what was done still is. -/
structure Keeps (call : Nat) (s s' : State) : Prop where
  own : ∀ (m : Nat) (c' : Confirmation), s'.confirmations[m]? = some c' → c'.call = call →
    ∃ c, s.confirmations[m]? = some c ∧ c.call = call ∧
      (∀ b, c.resolved = some b → c'.resolved = some b) ∧ (c.expired = true → c'.expired = true)
  cancelled : ∀ ctx ∈ s.cancelled, ctx ∈ s'.cancelled

/-- A step that touches neither confirmations nor contexts keeps everything. -/
theorem Keeps.of_eq {call : Nat} (hconf : s'.confirmations = s.confirmations)
    (hcancel : s'.cancelled = s.cancelled) : Keeps call s s' := by
  refine ⟨fun m c' hc' hcall => ?_, fun ctx hctx => by rw [hcancel]; exact hctx⟩
  rw [hconf] at hc'
  exact ⟨c', hc', hcall, fun _ => id, id⟩

/-! ## Closing channels -/

variable {c : Confirmation}

/-- What was resolved before its channel was closed stays as it is. -/
theorem settle_resolved {b : Bool} (h : c.resolved = some b) : c.settle.resolved = some b := by
  rw [Confirmation.settle, Confirmation.resolve, h]
  rfl

/-- Closing the channel and then its connection settles nothing twice. -/
theorem settle_settle (c : Confirmation) : c.settle.settle = c.settle := rfl

variable {c' : Confirmation}

/-- A confirmation is the same or settled, and settled if its channel is closed. -/
theorem closeWhere_confirmation {f : Nat → Channel → Bool} {m : Nat}
    (h : (s.closeWhere f Confirmation.settle).confirmations[m]? = some c') :
    ∃ c, s.confirmations[m]? = some c ∧ (c' = c ∨ c' = c.settle) ∧
      ((s.chans[c.chan]?).any (f c.chan) = true → c' = c.settle) := by
  rw [State.closeWhere, List.getElem?_map] at h
  obtain ⟨c, hc, rfl⟩ := Option.map_eq_some_iff.mp h
  refine ⟨c, hc, ?_, fun hd => if_pos hd⟩
  split
  · exact .inr rfl
  · exact .inl rfl

/-- Closing channels keeps everything but what is outstanding. -/
theorem closeWhere_keeps (s : State) (f : Nat → Channel → Bool) (call : Nat) :
    Keeps call s (s.closeWhere f Confirmation.settle) := by
  refine ⟨fun m c' hc' hcall => ?_, fun _ h => h⟩
  obtain ⟨c, hc, rfl | rfl, _⟩ := closeWhere_confirmation hc'
  · exact ⟨c', hc, hcall, fun _ => id, id⟩
  · exact ⟨c, hc, hcall, fun _ => settle_resolved, id⟩

/-- Two steps in a row, as in a reset. -/
theorem Keeps.trans {call : Nat} {t : State} (h : Keeps call s s') (h' : Keeps call s' t) :
    Keeps call s t := by
  refine ⟨fun m c' hc' hcall => ?_, fun ctx hctx => h'.cancelled ctx (h.cancelled ctx hctx)⟩
  obtain ⟨c₁, hc₁, hcall₁, hv₁, he₁⟩ := h'.own m c' hc' hcall
  obtain ⟨c, hc, hcall, hv, he⟩ := h.own m c₁ hc₁ hcall₁
  exact ⟨c, hc, hcall, fun b hb => hv₁ b (hv b hb), fun hf => he₁ (he hf)⟩

theorem closeChannel_keeps (s : State) (ch call : Nat) : Keeps call s (s.closeChannel ch) :=
  closeWhere_keeps s _ call

/-- Closing a connection leaves the results of a call alone. -/
theorem closeConn_keeps (s : State) (conn call : Nat) : Keeps call s (s.closeConn conn) := by
  have hclosed := closeWhere_keeps s (fun _ x => decide (x.conn = conn)) call
  exact hclosed.trans (.of_eq rfl rfl)

/-- A reset settles what is outstanding and contradicts nobody. -/
theorem reset_keeps (s : State) (call : Nat) : Keeps call s s.reset := by
  have hch : Keeps call s s.withoutCh := by
    unfold State.withoutCh
    split
    · exact (closeChannel_keeps s _ call).trans (.of_eq rfl rfl)
    · exact .of_eq rfl rfl
  refine hch.trans ?_
  unfold State.reset State.withoutConn
  split
  · exact (closeConn_keeps _ _ call).trans (.of_eq rfl rfl)
  · exact .of_eq rfl rfl

/-- A reset of a publisher that has nothing cached does nothing. -/
theorem reset_none (hch : s.ch = none) (hconn : s.conn = none) : s.reset = s := by
  simp only [State.reset, State.withoutCh, hch, State.withoutConn, hconn]

/-- What a reset makes of a channel: the cached one is closed, none is opened. -/
theorem reset_chan {j : Nat} {x' : Channel} (h : s.reset.chans[j]? = some x') :
    ∃ x, s.chans[j]? = some x ∧ (x.closed = true → x'.closed = true) ∧
      (s.ch = some j → x'.closed = true) := by
  have hwithoutCh : ∀ x₁, s.withoutCh.chans[j]? = some x₁ → ∃ x, s.chans[j]? = some x ∧
      (x.closed = true → x₁.closed = true) ∧ (s.ch = some j → x₁.closed = true) := by
    intro x₁ hx₁
    unfold State.withoutCh at hx₁
    split at hx₁
    · next ch hch =>
      have hclosed : (s.closeChannel ch).chans[j]? = some x₁ := hx₁
      rw [State.closeChannel, closeWhere_chans] at hclosed
      obtain ⟨x, hx, rfl⟩ := Option.map_eq_some_iff.mp hclosed
      refine ⟨x, hx, fun hcl => ?_, fun hj => ?_⟩
      · split
        · rfl
        · exact hcl
      · rw [hch, Option.some.injEq] at hj
        simp [hj]
    · next hch => exact ⟨x₁, hx₁, id, fun hj => by rw [hch] at hj; cases hj⟩
  unfold State.reset State.withoutConn at h
  split at h
  · next conn hconn =>
    have hclosed : (s.withoutCh.closeConn conn).chans[j]? = some x' := h
    rw [closeConn_chans] at hclosed
    obtain ⟨x₁, hx₁, rfl⟩ := Option.map_eq_some_iff.mp hclosed
    obtain ⟨x, hx, hstay, hcached⟩ := hwithoutCh x₁ hx₁
    refine ⟨x, hx, fun hcl => ?_, fun hj => ?_⟩
    · split
      · rfl
      · exact hstay hcl
    · split
      · rfl
      · exact hcached hj
  · exact hwithoutCh x' h

/-- What a reset makes of a confirmation: it is the same or settled, and settled
if it is on the cached channel. -/
theorem reset_confirmation (h : Tidy s) {m : Nat} (hc' : s.reset.confirmations[m]? = some c') :
    ∃ c, s.confirmations[m]? = some c ∧ (c' = c ∨ c' = c.settle) ∧
      (s.ch = some c.chan → c' = c.settle) := by
  -- closing the channel settles what is outstanding on it
  have hwithoutCh : ∀ c₁, s.withoutCh.confirmations[m]? = some c₁ → ∃ c,
      s.confirmations[m]? = some c ∧ (c₁ = c ∨ c₁ = c.settle) ∧
        (s.ch = some c.chan → c₁ = c.settle) := by
    intro c₁ hc₁
    unfold State.withoutCh at hc₁
    split at hc₁
    · next ch hch =>
      have hclosed : (s.closeChannel ch).confirmations[m]? = some c₁ := hc₁
      obtain ⟨c, hc, hor, hsettle⟩ := closeWhere_confirmation hclosed
      refine ⟨c, hc, hor, fun heq => hsettle ?_⟩
      rw [hch, Option.some.injEq] at heq
      have hlt := h.inRange.confirmations c (List.mem_of_getElem? hc)
      rw [List.getElem?_eq_getElem hlt]
      simp [heq]
    · next hch => exact ⟨c₁, hc₁, .inl rfl, fun heq => by rw [hch] at heq; cases heq⟩
  -- closing the connection afterwards settles nothing twice
  unfold State.reset State.withoutConn at hc'
  split at hc'
  · next conn _ =>
    have hclosed : (s.withoutCh.closeConn conn).confirmations[m]? = some c' := hc'
    rw [closeConn_confirmations] at hclosed
    obtain ⟨c₁, hc₁, hor₁, _⟩ := closeWhere_confirmation hclosed
    obtain ⟨c, hc, hor, hsettle⟩ := hwithoutCh c₁ hc₁
    refine ⟨c, hc, ?_, fun heq => ?_⟩
    · rcases hor₁ with rfl | rfl
      · exact hor
      · rcases hor with rfl | rfl
        · exact .inr rfl
        · exact .inr (settle_settle c)
    · rcases hor₁ with rfl | rfl
      · exact hsettle heq
      · rw [hsettle heq, settle_settle]
  · exact hwithoutCh c' hc'

/-- Settling tells the caller what the broker has answered, or that it has not: true
once the channel is given up. -/
theorem Told.settle (h : Told s c) (hch : s'.ch = none) : Told s' c.settle := by
  intro b hb
  have hgone : s'.ch ≠ some c.chan := by
    rw [hch]
    exact nofun
  cases hres : c.resolved with
  | some b' =>
    rw [settle_resolved hres, Option.some.injEq] at hb
    subst hb
    exact (h b' hres).imp_right (fun hno => ⟨hno.1, hno.2.1, hgone⟩)
  | none =>
    have hsettled : some (c.verdict.getD false) = some b := by
      rw [← hb, Confirmation.settle, Confirmation.resolve, hres]
      rfl
    cases hv : c.verdict with
    | some b' =>
      rw [hv] at hsettled
      exact .inl (hv.trans hsettled)
    | none =>
      rw [hv] at hsettled
      exact .inr ⟨hv, (Option.some.inj hsettled).symm, hgone⟩

/-- What was told stays true when the channel is given up. -/
theorem Told.vacated (h : Told s c) (hch : s'.ch = none) : Told s' c := by
  intro b hb
  refine (h b hb).imp_right (fun hno => ⟨hno.1, hno.2.1, ?_⟩)
  rw [hch]
  exact nofun

theorem reset_calls (s : State) : s.reset.calls = s.calls := by
  unfold State.reset State.withoutConn State.withoutCh
  split <;> split <;> rfl

/-- A reset by any caller leaves a healthy publisher healthy. -/
theorem Healthy.reset (h : Healthy s) : Healthy s.reset := by
  have hvac := h.tidy.reset
  refine ⟨hvac.tidy, fun j x' hx' => ?_, fun c' hc' hout => ?_, fun c' hc' => ?_, fun c' hc' => ?_⟩
  · obtain ⟨x, hx, hstay, hcached⟩ := reset_chan hx'
    have hclosed : x'.closed = true := by
      cases hx₁ : x.closed with
      | true => exact hstay hx₁
      | false => exact hcached ((h.cached j x hx).mp hx₁)
    rw [hclosed, hvac.ch]
    simp
  · -- whatever was outstanding was so on the cached channel
    obtain ⟨m, hm⟩ := List.mem_iff_getElem?.mp hc'
    obtain ⟨c, hc, hor, hsettle⟩ := reset_confirmation h.tidy hm
    have hnone : c.resolved = none := by
      rcases hor with rfl | rfl
      · exact hout
      · cases hout
    rw [hsettle (h.outstanding c (List.mem_of_getElem? hc) hnone)] at hout
    cases hout
  · obtain ⟨m, hm⟩ := List.mem_iff_getElem?.mp hc'
    obtain ⟨c, hc, hor, _⟩ := reset_confirmation h.tidy hm
    have hold := h.told c (List.mem_of_getElem? hc)
    rcases hor with rfl | rfl
    · exact hold.vacated hvac.ch
    · exact hold.settle hvac.ch
  · obtain ⟨m, hm⟩ := List.mem_iff_getElem?.mp hc'
    obtain ⟨c, hc, hor, _⟩ := reset_confirmation h.tidy hm
    have hold := h.numbered c (List.mem_of_getElem? hc)
    rw [reset_calls]
    rcases hor with rfl | rfl
    · exact hold
    · exact hold

/-- A cached channel is alive. -/
theorem Healthy.alive (h : Healthy s) {ch : Nat} (hch : s.ch = some ch) :
    (s.chans[ch]?).all Channel.closed = false := by
  rcases h.tidy.paired with ⟨_, hnone⟩ | ⟨_, k, x, _, hk, hx, _⟩
  · rw [hnone] at hch
    cases hch
  · rw [hk, Option.some.injEq] at hch
    subst hch
    rw [hx]
    exact (h.cached k x hx).mpr hk

variable {chs : List Choice}

/-- `getChannel` leaves the confirmations alone: a channel that is cached is
alive, and what it dials nobody has used. -/
theorem getChannelLocked_healthy {ctx : Nat} {r : Except Err Nat} (h : Healthy s)
    (hx : exec topology s (.getChannelLocked ctx) chs = some (r, s')) :
    Healthy s' ∧ s'.confirmations = s.confirmations ∧ s'.cancelled = s.cancelled ∧
      s'.calls = s.calls := by
  rcases critical_post (getChannelLocked_ensures topology ctx h.tidy) hx with rfl | ⟨hdead, hpost⟩
  · exact ⟨h, rfl, rfl, rfl⟩
  · -- it dialled, so the channel it found was dead; a healthy publisher caches no dead channel
    have hch : s.ch = none := by
      cases hch : s.ch with
      | none => rfl
      | some ch =>
        have := hdead ch hch
        rw [h.alive hch] at this
        cases this
    have hconn : s.conn = none := by
      rcases h.tidy.paired with ⟨hnone, _⟩ | ⟨_, k, _, _, hk, _⟩
      · exact hnone
      · rw [hk] at hch
        cases hch
    have hvac := h.tidy.reset
    rw [reset_none hch hconn] at hpost hvac
    -- nothing is outstanding: that would be on the cached channel
    have hresolved : ∀ c ∈ s.confirmations, c.resolved ≠ none := by
      intro c hc hnone
      have := h.outstanding c hc hnone
      rw [hch] at this
      cases this
    have hallclosed : ∀ (k : Nat) x, s.chans[k]? = some x → x.closed = true := by
      intro k x hxk
      cases hcl : x.closed with
      | true => rfl
      | false =>
        have := (h.cached k x hxk).mp hcl
        rw [hch] at this
        cases this
    -- the redial failed and was undone, or its channel is cached now
    rcases hpost with hundone | rfl
    · refine ⟨⟨hundone.vacant.tidy, fun k x hxk => ?_, ?_, ?_, ?_⟩, hundone.confirmations,
        hundone.cancelled, hundone.calls⟩
      · have hclosed : x.closed = true := by
          rcases Nat.lt_or_ge k s.chans.length with hlt | hge
          · rw [hundone.chans k hlt] at hxk
            exact hallclosed k x hxk
          · exact hundone.closed k x hge hxk
        rw [hclosed, hundone.vacant.ch]
        simp
      · rw [hundone.confirmations]
        exact fun c hc hnone => absurd hnone (hresolved c hc)
      · rw [hundone.confirmations]
        exact fun c hc => (h.told c hc).vacated hundone.vacant.ch
      · rw [hundone.confirmations, hundone.calls]
        exact h.numbered
    · refine ⟨⟨hvac.installed, fun k x hxk => ?_, ?_, fun c hc b hb => ?_, h.numbered⟩,
        rfl, rfl, rfl⟩
      · rcases getElem?_append_singleton hxk with hold | ⟨rfl, rfl⟩
        · have hne : k ≠ s.chans.length := Nat.ne_of_lt (List.getElem?_eq_some_iff.mp hold).1
          rw [hallclosed k x hold]
          show true = false ↔ some s.chans.length = some k
          simp [Ne.symm hne]
        · exact ⟨fun _ => rfl, fun _ => rfl⟩
      · exact fun c hc hnone => absurd hnone (hresolved c hc)
      · -- the new channel is nobody's yet
        have hne : some s.chans.length ≠ some c.chan := by
          intro heq
          have hlt := h.tidy.inRange.confirmations c hc
          rw [Option.some.inj heq] at hlt
          exact lt_irrefl _ hlt
        exact (h.told c hc b hb).imp_right (fun hno => ⟨hno.1, hno.2.1, hne⟩)

/-! ## What one step can do -/

/-- An operation leaves the confirmations alone, resets the publisher, or adds
one confirmation to the cached channel. -/
theorem exec_cases {o : Op} {r : o.Res} (h : Healthy s)
    (hx : exec topology s o chs = some (r, s')) :
    (Healthy s' ∧ s'.confirmations = s.confirmations ∧ s'.cancelled = s.cancelled ∧
        s'.calls = s.calls) ∨
      (s' = s.reset ∧ (o = .close ∨ ∃ ch, o = .resetIfCurrent ch ∧ s.ch = some ch)) ∨
      ∃ call ch routingKey body, o = .publish call ch routingKey body ∧ s.ch = some ch ∧
        s' = { s with confirmations :=
          s.confirmations ++ [⟨call, ch, routingKey, body, none, none, false⟩] } := by
  cases o with
  | liveChannel =>
    rw [(critical_post (liveChannel_ensures s) hx).1]
    exact .inl ⟨h, rfl, rfl, rfl⟩
  | getChannelLocked ctx => exact .inl (getChannelLocked_healthy h hx)
  | resetIfCurrent failed =>
    have heq := critical_post (resetIfCurrentLocked_ensures s failed) hx
    by_cases hch : s.ch = some failed
    · rw [if_pos hch] at heq
      exact .inr (.inl ⟨heq, .inr ⟨failed, rfl, hch⟩⟩)
    · rw [if_neg hch] at heq
      rw [heq]
      exact .inl ⟨h, rfl, rfl, rfl⟩
  | close =>
    have heq := critical_post (resetLocked_ensures s) hx
    exact .inr (.inl ⟨heq, .inl rfl⟩)
  | publish call ch routingKey body =>
    rcases publish_answer hx with ⟨_, _, rfl⟩ | ⟨_, hopen, rfl⟩
    · exact .inl ⟨h, rfl, rfl, rfl⟩
    · -- the channel was open when the message was written, so it is the cached one
      refine .inr (.inr ⟨call, ch, routingKey, body, rfl, ?_, rfl⟩)
      cases hxk : s.chans[ch]? with
      | none => rw [hxk] at hopen; cases hopen
      | some x =>
        rw [hxk] at hopen
        exact (h.cached ch x hxk).mp hopen
  | wait confirmation ctx =>
    rw [(wait_answer hx).1]
    exact .inl ⟨h, rfl, rfl, rfl⟩

/-- No operation of a caller, a reset included, makes the publisher unhealthy. -/
theorem exec_healthy {o : Op} {r : o.Res} (h : Healthy s)
    (hx : exec topology s o chs = some (r, s'))
    (hown : ∀ call ch routingKey body, o = .publish call ch routingKey body → call ∈ s.calls) :
    Healthy s' := by
  rcases exec_cases h hx with ⟨hs', _⟩ | ⟨rfl, _⟩ | ⟨call, ch, routingKey, body, rfl, hch, rfl⟩
  · exact hs'
  · exact h.reset
  · refine ⟨exec_tidy h.tidy hx, h.cached, fun c hc hnone => ?_, fun c hc => ?_, fun c hc => ?_⟩
    · rcases List.mem_append.mp hc with hc | hc
      · exact h.outstanding c hc hnone
      · rw [List.mem_singleton.mp hc]
        exact hch
    · rcases List.mem_append.mp hc with hc | hc
      · exact h.told c hc
      · rw [List.mem_singleton.mp hc]
        exact nofun
    · rcases List.mem_append.mp hc with hc | hc
      · exact h.numbered c hc
      · rw [List.mem_singleton.mp hc]
        exact hown call ch routingKey body rfl

/-- Only its own publish adds to the confirmations of a call. -/
theorem exec_keeps {o : Op} {r : o.Res} {call : Nat} (h : Healthy s)
    (hx : exec topology s o chs = some (r, s'))
    (hother : ∀ ch routingKey body, o ≠ .publish call ch routingKey body) : Keeps call s s' := by
  rcases exec_cases h hx with ⟨_, hconf, hcancel, _⟩ | ⟨rfl, _⟩ |
    ⟨call', ch, key, body, rfl, _, rfl⟩
  · exact .of_eq hconf hcancel
  · exact reset_keeps s call
  · refine ⟨fun m c' hc' hcall => ?_, fun _ hctx => hctx⟩
    rcases getElem?_append_singleton hc' with hold | ⟨_, rfl⟩
    · exact ⟨c', hold, hcall, fun _ => id, id⟩
    · exact absurd (by rw [← hcall]) (hother ch key body)

/-- The connection stays up. -/
def WorldEvent.calm : WorldEvent → Bool
  | .channelDies _ => false
  | .connDies _ => false
  | _ => true

/-- One confirmation changes, the others stay. -/
theorem amend_confirmation {m k : Nat} {f : Confirmation → Confirmation}
    (h : (s.amend m f).confirmations[k]? = some c') :
    ∃ c, s.confirmations[k]? = some c ∧ (c' = c ∨ (k = m ∧ c' = f c)) := by
  rw [State.amend, List.getElem?_modify] at h
  obtain ⟨c, hc, rfl⟩ := Option.map_eq_some_iff.mp h
  refine ⟨c, hc, ?_⟩
  split
  · next hmk => exact .inr ⟨hmk.symm, rfl⟩
  · exact .inl rfl

/-- What the world may do to one confirmation: it gives it the broker's verdict,
tells the caller, or lets the timeout pass. -/
structure Amends (s : State) (f : Confirmation → Confirmation) (c : Confirmation) : Prop where
  call : (f c).call = c.call
  chan : (f c).chan = c.chan
  expired : c.expired = true → (f c).expired = true
  resolved : ∀ b, c.resolved = some b → (f c).resolved = some b
  told : Told s (f c)

section Amend

variable {m : Nat} {f : Confirmation → Confirmation}

/-- A confirmation that is amended as the broker does keeps the channel healthy. -/
theorem amend_healthy (h : Healthy s) (hf : ∀ c, s.confirmations[m]? = some c → Amends s f c)
    (htidy : Tidy (s.amend m f)) : Healthy (s.amend m f) := by
  refine ⟨htidy, h.cached, fun c' hc' hnone => ?_, fun c' hc' => ?_, fun c' hc' => ?_⟩
  · obtain ⟨k, hk⟩ := List.mem_iff_getElem?.mp hc'
    obtain ⟨c, hc, rfl | ⟨rfl, rfl⟩⟩ := amend_confirmation hk
    · exact h.outstanding _ (List.mem_of_getElem? hc) hnone
    · have hout : c.resolved = none := by
        cases hres : c.resolved with
        | none => rfl
        | some b =>
          rw [(hf c hc).resolved b hres] at hnone
          cases hnone
      rw [(hf c hc).chan]
      exact h.outstanding c (List.mem_of_getElem? hc) hout
  · obtain ⟨k, hk⟩ := List.mem_iff_getElem?.mp hc'
    obtain ⟨c, hc, rfl | ⟨rfl, rfl⟩⟩ := amend_confirmation hk
    · exact h.told _ (List.mem_of_getElem? hc)
    · exact (hf c hc).told
  · obtain ⟨k, hk⟩ := List.mem_iff_getElem?.mp hc'
    obtain ⟨c, hc, rfl | ⟨rfl, rfl⟩⟩ := amend_confirmation hk
    · exact h.numbered _ (List.mem_of_getElem? hc)
    · rw [(hf c hc).call]
      exact h.numbered c (List.mem_of_getElem? hc)

theorem amend_keeps (call : Nat) (hf : ∀ c, s.confirmations[m]? = some c → Amends s f c) :
    Keeps call s (s.amend m f) := by
  refine ⟨fun k c' hc' hcall => ?_, fun _ hctx => hctx⟩
  obtain ⟨c, hc, rfl | ⟨rfl, rfl⟩⟩ := amend_confirmation hc'
  · exact ⟨c', hc, hcall, fun _ => id, id⟩
  · rw [(hf c hc).call] at hcall
    exact ⟨c, hc, hcall, (hf c hc).resolved, (hf c hc).expired⟩

end Amend

section Unused

variable {conn : Nat}

/-- Closing a connection that no channel is on resolves nothing. -/
theorem closeConn_confirmations_of_unused
    (hother : ∀ (k : Nat) x, s.chans[k]? = some x → x.conn ≠ conn) :
    (s.closeConn conn).confirmations = s.confirmations := by
  rw [closeConn_confirmations]
  refine closeWhere_confirmations (fun c _ => ?_)
  cases hx : s.chans[c.chan]? with
  | none => rfl
  | some x => exact decide_eq_false (hother _ x hx)

/-- It closes no channel either. -/
theorem closeConn_chans_of_unused
    (hother : ∀ (k : Nat) x, s.chans[k]? = some x → x.conn ≠ conn) (k : Nat) :
    (s.closeConn conn).chans[k]? = s.chans[k]? := by
  rw [closeConn_chans]
  cases hx : s.chans[k]? with
  | none => rfl
  | some x => simp [hother k x hx]

theorem Healthy.closeConn_of_unused (h : Healthy s) (htidy : Tidy (s.closeConn conn))
    (hother : ∀ (k : Nat) x, s.chans[k]? = some x → x.conn ≠ conn) :
    Healthy (s.closeConn conn) := by
  have hconf := closeConn_confirmations_of_unused hother
  refine ⟨htidy, fun k x hx => ?_, ?_, ?_, ?_⟩
  · rw [closeConn_chans_of_unused hother] at hx
    exact h.cached k x hx
  · rw [hconf]
    exact h.outstanding
  · rw [hconf]
    exact h.told
  · rw [hconf]
    exact h.numbered

end Unused

/-- One step of the world while the connection is up. -/
theorem world_calm {e : WorldEvent} (h : Healthy s) (he : e.calm = true)
    (hw : world e s = some s') :
    Healthy s' ∧ (∀ call, Keeps call s s') ∧ s'.calls = s.calls := by
  have htidy := world_tidy h.tidy hw
  have hamend : ∀ {m : Nat} {f : Confirmation → Confirmation},
      (∀ c, s.confirmations[m]? = some c → Amends s f c) → s' = s.amend m f →
      Healthy s' ∧ (∀ call, Keeps call s s') ∧ s'.calls = s.calls := by
    intro m f hf heq
    subst heq
    exact ⟨amend_healthy h hf htidy, fun call => amend_keeps call hf, rfl⟩
  cases e with
  | answer m accepted =>
    simp only [world] at hw
    split at hw
    · next c₀ hc₀ =>
      split at hw
      · next hready =>
        rw [Bool.and_eq_true, Option.isNone_iff_eq_none, Bool.not_eq_true'] at hready
        obtain ⟨hnone, hopen⟩ := hready
        refine hamend (fun c hc => ?_) (Option.some.inj hw).symm
        refine ⟨rfl, rfl, id, fun _ => id, fun b hb => ?_⟩
        rw [hc₀, Option.some.injEq] at hc
        subst hc
        -- the channel is open, so it is the cached one, and nobody was told anything yet
        rcases h.told c₀ (List.mem_of_getElem? hc₀) b hb with hv | ⟨_, _, hgone⟩
        · rw [hnone] at hv
          cases hv
        · cases hx : s.chans[c₀.chan]? with
          | none => rw [hx] at hopen; cases hopen
          | some x =>
            rw [hx] at hopen
            exact absurd ((h.cached _ x hx).mp hopen) hgone
      · cases hw
    · cases hw
  | arrive m =>
    simp only [world] at hw
    split at hw
    · next c₀ hc₀ =>
      split at hw
      · next hready =>
        rw [Bool.and_eq_true, Option.isNone_iff_eq_none] at hready
        refine hamend (fun c hc => ?_) (Option.some.inj hw).symm
        refine ⟨rfl, rfl, id, fun b hb => ?_, fun b hb => .inl hb⟩
        rw [hc₀, Option.some.injEq] at hc
        rw [← hc, hready.1] at hb
        cases hb
      · cases hw
    · cases hw
  | cancel ctx =>
    cases hw
    exact ⟨⟨htidy, h.cached, h.outstanding, h.told, h.numbered⟩,
      fun call => ⟨fun m c' hc' hcall => ⟨c', hc', hcall, fun _ => id, id⟩,
        fun _ hctx => List.mem_cons_of_mem _ hctx⟩, rfl⟩
  | expire m =>
    refine hamend (fun c hc => ?_) (Option.some.inj hw).symm
    exact ⟨rfl, rfl, fun _ => rfl, fun _ => id, h.told c (List.mem_of_getElem? hc)⟩
  | channelDies ch => cases he
  | connDies conn => cases he
  | lateDial succeeds =>
    simp only [world] at hw
    split at hw
    · cases hw
    · cases hw
      exact ⟨⟨htidy, h.cached, h.outstanding, h.told, h.numbered⟩,
        fun call => .of_eq rfl rfl, rfl⟩
  | closeLate conn =>
    simp only [world] at hw
    split at hw
    · next y hy =>
      split at hw
      · next hlate =>
        rw [Bool.and_eq_true] at hlate
        cases hw
        -- a connection that came too late has no channels to close
        have hother : ∀ (k : Nat) x, s.chans[k]? = some x → x.conn ≠ conn := by
          rintro k x hx rfl
          obtain ⟨y', hy', hnot⟩ := h.tidy.inRange.chans k x hx
          rw [hy, Option.some.injEq] at hy'
          rw [← hy', hlate.1] at hnot
          cases hnot
        have hconf := closeConn_confirmations_of_unused hother
        exact ⟨h.closeConn_of_unused htidy hother, fun call => .of_eq hconf rfl, rfl⟩
      · cases hw
    · cases hw

/-! ## The stages of a publish -/

/-- How far a publish has come. -/
inductive Stage
  /-- nothing has been written -/
  | unpublished
  /-- the message is written, and confirmation `m` is waited for -/
  | waiting (m : Nat)
  /-- the confirmation came -/
  | delivered
  /-- the write failed, the broker refused, or the context is done -/
  | failed
  deriving DecidableEq

/-- The stage after an answer. -/
def Stage.next : Stage → (o : Op) → o.Res → Stage
  | .unpublished, .publish _ _ _ _, .ok m => .waiting m
  | .unpublished, .publish _ _ _ _, .error _ => .failed
  | .waiting _, .wait _ _, .ok true => .delivered
  | .waiting _, .wait _ _, _ => .failed
  | q, _, _ => q

/-- Look for a channel, write the message, wait for its confirmation, and reset
the channel when something went wrong. `Close` has no stages. -/
def stages : Call → Protocol Op Op.Res Stage
  | .publish call ctx _ _ =>
    { allows := fun
        | .unpublished, .liveChannel => True
        | .unpublished, .getChannelLocked _ => True
        | .unpublished, .publish c _ _ _ => c = call
        | .waiting m, .wait m' ctx' => m' = m ∧ ctx' = ctx
        | .failed, .resetIfCurrent _ => True
        | _, _ => False
      next := Stage.next }
  | .close => { allows := fun _ _ => True, next := fun q _ _ => q }

/-- A publish does not return while it waits, and returns nil when it is
delivered. -/
def Returned : Call → Option Err → Stage → Prop
  | .publish _ _ _ _, r, q => (∀ m, q ≠ .waiting m) ∧ (q = .delivered → r = none)
  | .close, _, _ => True

variable {routingKey : String} {body : Bytes}

/-- A publish that wrote nothing, or failed, may return anything. -/
theorem returned_unpublished {call ctx : Nat} {r : Option Err} :
    Returned (.publish call ctx routingKey body) r .unpublished :=
  ⟨by simp, by simp⟩

theorem returned_failed {call ctx : Nat} {r : Option Err} :
    Returned (.publish call ctx routingKey body) r .failed :=
  ⟨by simp, by simp⟩

/-- Nil is right once the message is delivered. -/
theorem returned_delivered {call ctx : Nat} :
    Returned (.publish call ctx routingKey body) none .delivered :=
  ⟨by simp, fun _ => rfl⟩

theorem getChannel_obeys (call ctx : Nat) (routingKey : String) (body : Bytes) :
    (getChannel ctx).Obeys (stages (.publish call ctx routingKey body))
      (fun _ q => q = .unpublished) .unpublished := by
  refine ⟨trivial, fun r => ?_⟩
  cases r with
  | some ch => exact rfl
  | none => exact ⟨trivial, fun _ => rfl⟩

/-- `Publish` waits for the broker's answer, and returns nil once it is delivered. -/
theorem publish_obeys (topology : Topology) (call ctx : Nat) (routingKey : String) (body : Bytes) :
    (publish topology call ctx routingKey body).Obeys (stages (.publish call ctx routingKey body))
      (Returned (.publish call ctx routingKey body)) .unpublished := by
  refine (getChannel_obeys call ctx routingKey body).bind (fun r q hq => ?_)
  subst hq
  cases r with
  | error err => exact returned_unpublished
  | ok ch =>
    refine ⟨rfl, fun r => ?_⟩
    cases r with
    | error err => exact ⟨trivial, fun _ => returned_failed⟩
    | ok m =>
      refine ⟨⟨rfl, rfl⟩, fun r => ?_⟩
      rcases r with err | _ | _
      · exact ⟨trivial, fun _ => returned_failed⟩
      · exact returned_failed
      · exact returned_delivered

theorem program_obeys (topology : Topology) (c : Call) :
    (program topology c).Obeys (stages c) (Returned c) .unpublished := by
  cases c with
  | publish call ctx routingKey body => exact publish_obeys topology call ctx routingKey body
  | close => exact ⟨trivial, fun _ => trivial⟩

/-- What is known of the call's own confirmation in a stage: before the publish there is
none, while the call waits there is only the one it waits for, and a call that has failed
was told "not acknowledged" or its context is done. -/
def Known : Call → Stage → State → Prop
  | .publish call _ _ _, .unpublished, s =>
    ∀ (m : Nat) (c : Confirmation), s.confirmations[m]? = some c → c.call ≠ call
  | .publish call _ _ _, .waiting m, s =>
    ∀ (k : Nat) (c : Confirmation), s.confirmations[k]? = some c → c.call = call → k = m
  | .publish call ctx _ _, .failed, s =>
    ∀ (m : Nat) (c : Confirmation), s.confirmations[m]? = some c → c.call = call →
      c.resolved = some false ∨ s.isDone c ctx = true
  | _, _, _ => True

/-- A context that is done stays done. -/
theorem isDone_mono {c c' : Confirmation} {ctx : Nat} (h : s.isDone c ctx = true)
    (hcancel : ∀ ctx ∈ s.cancelled, ctx ∈ s'.cancelled)
    (hexpired : c.expired = true → c'.expired = true) : s'.isDone c' ctx = true := by
  simp only [State.isDone, Bool.or_eq_true, decide_eq_true_eq] at h ⊢
  exact h.imp (hcancel ctx) hexpired

/-- Other callers and the world leave it known. -/
theorem Known.keeps {call ctx : Nat} {q : Stage} (h : Known (.publish call ctx routingKey body) q s)
    (hkeeps : Keeps call s s') : Known (.publish call ctx routingKey body) q s' := by
  cases q with
  | unpublished =>
    intro m c' hc' hcall
    obtain ⟨c, hc, hown, _⟩ := hkeeps.own m c' hc' hcall
    exact h m c hc hown
  | waiting m =>
    intro k c' hc' hcall
    obtain ⟨c, hc, hown, _⟩ := hkeeps.own k c' hc' hcall
    exact h k c hc hown
  | delivered => exact trivial
  | failed =>
    intro m c' hc' hcall
    obtain ⟨c, hc, hown, hresolved, hexpired⟩ := hkeeps.own m c' hc' hcall
    exact (h m c hc hown).imp (hresolved false)
      (fun hd => isDone_mono hd hkeeps.cancelled hexpired)

/-- The call's own operation leads to what is known in the next stage. -/
theorem Known.own {call ctx : Nat} {q : Stage} {o : Op} {r : o.Res} (hhealthy : Healthy s)
    (hallow : (stages (.publish call ctx routingKey body)).allows q o)
    (h : Known (.publish call ctx routingKey body) q s)
    (hx : exec topology s o chs = some (r, s')) :
    Known (.publish call ctx routingKey body)
      ((stages (.publish call ctx routingKey body)).next q o r) s' := by
  -- every operation but the publish leaves the call's confirmations as they are
  have hsilent : (∀ ch routingKey body, o ≠ .publish call ch routingKey body) →
      Known (.publish call ctx routingKey body) q s' :=
    fun hother => h.keeps (exec_keeps hhealthy hx hother)
  cases q with
  | unpublished =>
    cases o with
    | liveChannel => exact hsilent nofun
    | getChannelLocked ctx' => exact hsilent nofun
    | publish call' ch key body' =>
      obtain rfl : call' = call := hallow
      rcases publish_answer hx with ⟨err, rfl, rfl⟩ | ⟨rfl, _, rfl⟩
      · exact fun m c hc hown => absurd hown (h m c hc)
      · intro k c hc hown
        rcases getElem?_append_singleton hc with hold | ⟨hk, _⟩
        · exact absurd hown (h k c hold)
        · exact hk
    | _ => exact hallow.elim
  | waiting m =>
    cases o with
    | wait m' ctx' =>
      obtain ⟨rfl, rfl⟩ := hallow
      obtain ⟨rfl, c, hc, hanswer⟩ := wait_answer hx
      -- a failure is about the call's one confirmation
      have hfailed : c.resolved = some false ∨ s'.isDone c ctx' = true →
          Known (.publish call ctx' routingKey body) .failed s' := by
        intro hwhy k e he hcall
        rw [h k e he hcall, hc, Option.some.injEq] at he
        exact he ▸ hwhy
      rcases hanswer with ⟨acked, rfl, hres⟩ | ⟨err, rfl, hdone⟩
      · cases acked with
        | true => exact trivial
        | false => exact hfailed (.inl hres)
      · exact hfailed (.inr hdone)
    | _ => exact hallow.elim
  | delivered => exact hallow.elim
  | failed =>
    cases o with
    | resetIfCurrent ch => exact hsilent nofun
    | _ => exact hallow.elim

/-! ## Numbers of calls -/

/-- The number of a publish. -/
def Call.number? : Call → Option Nat
  | .publish call _ _ _ => some call
  | .close => none

/-- A call is entered under a number of its own. -/
theorem enter_cases {c : Call} (h : enter c s = some s') :
    s' = { s with calls := c.number?.toList ++ s.calls } ∧ ∀ n ∈ c.number?, n ∉ s.calls := by
  cases c with
  | publish call ctx routingKey body =>
    simp only [enter] at h
    split at h
    · cases h
    · next hfresh =>
      refine ⟨(Option.some.inj h).symm, fun n hn => ?_⟩
      rw [← Option.some.inj hn]
      exact hfresh
  | close => exact ⟨(Option.some.inj h).symm, fun n hn => by cases hn⟩

variable {p p' : Pool Op Op.Res State Call (Option Err)}

/-- Numbers stay with their calls. -/
theorem numbered_step {e : Event (List Choice) Call WorldEvent}
    (h : p.Numbered Call.number? State.calls) (hs : (machine topology).step p e = some p')
    (hcalls : ∀ n ∈ p.state.calls, n ∈ p'.state.calls) : p'.Numbered Call.number? State.calls := by
  refine h.step hs hcalls (fun c s hent n hn => ?_)
  obtain ⟨rfl, hfresh⟩ := enter_cases hent
  exact ⟨hfresh n hn, List.mem_append_left _ (Option.mem_toList.mpr hn)⟩

/-! ## Runs on a connection that stays up -/

/-- The connection stays up, and nobody closes the publisher. -/
def Up : Event (List Choice) Call WorldEvent → Prop
  | .call c => c ≠ .close
  | .env w => w.calm = true
  | _ => True

instance : DecidablePred Up
  | .call c => inferInstanceAs (Decidable (c ≠ .close))
  | .run _ _ => isTrue trivial
  | .kill _ => isTrue trivial
  | .env w => inferInstanceAs (Decidable (w.calm = true))

/-- What holds throughout such a run. -/
structure Sound (p : Pool Op Op.Res State Call (Option Err)) : Prop where
  healthy : Healthy p.state
  numbered : p.Numbered Call.number? State.calls
  opened : ∀ c ∈ p.calls, c ≠ .close
  tracks : p.Tracks stages Returned Known

/-- A call that waits is at its `wait`. -/
theorem waiting_prog {call ctx m : Nat}
    {prog : P (Option Err)}
    (h : prog.Obeys (stages (.publish call ctx routingKey body))
      (Returned (.publish call ctx routingKey body)) (.waiting m)) :
    ∃ k, prog = .op (.wait m ctx) k := by
  cases prog with
  | ret a => exact absurd rfl (h.1 m)
  | op o k =>
    have hallow := h.1
    cases o with
    | wait m' ctx' =>
      obtain ⟨rfl, rfl⟩ := hallow
      exact ⟨k, rfl⟩
    | _ => exact hallow.elim

/-- Making a call. -/
theorem Sound.call {c : Call} (h : Sound p) (hc : c ≠ .close)
    (hs : (machine topology).step p (.call c) = some p') : Sound p' := by
  obtain ⟨s, hent, hp'⟩ := (machine topology).step_call hs
  obtain ⟨hs', hfresh⟩ := enter_cases hent
  have hstate : p'.state = { p.state with calls := c.number?.toList ++ p.state.calls } := by
    rw [hp', ← hs']
  have hcalls : ∀ n ∈ p.state.calls, n ∈ p'.state.calls := by
    rw [hstate]
    exact fun n hn => List.mem_append_right _ hn
  have hhealthy : Healthy p'.state := by
    rw [hstate]
    refine ⟨⟨h.healthy.tidy.paired, h.healthy.tidy.kept.congr rfl,
      h.healthy.tidy.inRange.congr rfl rfl rfl⟩, h.healthy.cached, h.healthy.outstanding,
      h.healthy.told, fun d hd => List.mem_append_right _ (h.healthy.numbered d hd)⟩
  refine ⟨hhealthy, numbered_step h.numbered hs hcalls, fun d hd => ?_,
    h.tracks.step (program_obeys topology) hs ?_ ?_ ?_⟩
  · rcases (machine topology).step_calls hs with heq | ⟨_, hevent, heq⟩
    · exact h.opened d (heq ▸ hd)
    · cases hevent
      rw [heq] at hd
      rcases List.mem_append.mp hd with hd | hd
      · exact h.opened d hd
      · rw [List.mem_singleton.mp hd]
        exact hc
  · -- a number that is new has no confirmation yet
    intro c₁ s₁ hevent hent₁
    cases hevent
    obtain ⟨rfl, _⟩ := enter_cases hent₁
    cases c with
    | close => exact trivial
    | publish call ctx routingKey body =>
      intro m d hd hown
      exact hfresh call rfl (hown ▸ h.healthy.numbered d (List.mem_of_getElem? hd))
  · intro i ch th o k r s q hrun
    cases hrun
  · intro j th q hth _ _ _ hR
    rw [hstate]
    cases hcall : th.call with
    | close => exact trivial
    | publish call ctx routingKey body =>
      rw [hcall] at hR
      exact hR.keeps (.of_eq rfl rfl)

/-- An operation of a call. -/
theorem Sound.run {i : Nat} (h : Sound p) (hs : (machine topology).step p (.run i chs) = some p') :
    Sound p' := by
  have hcallseq : p'.calls = p.calls := by
    rcases (machine topology).step_calls hs with heq | ⟨_, heq, _⟩
    · exact heq
    · cases heq
  obtain ⟨th, o, k, r, s, hth, hend, hp, hx, hp'⟩ := (machine topology).step_run hs
  have hstate : p'.state = s := by rw [hp']
  obtain ⟨q, hq, hR⟩ := h.tracks i th hth (.inl hend)
  have hallow : (stages th.call).allows q o := by
    rw [hp] at hq
    exact hq.1
  obtain ⟨call, ctx, routingKey, body, hcall⟩ :
      ∃ call ctx routingKey body, th.call = .publish call ctx routingKey body := by
    cases hcall : th.call with
    | close => exact absurd hcall (h.opened _ (List.mem_of_getElem? (Pool.calls_of_thread hth)))
    | publish call ctx routingKey body => exact ⟨call, ctx, routingKey, body, rfl⟩
  rw [hcall] at hallow
  have hpublish : ∀ call' ch key body', o = .publish call' ch key body' → call' = call := by
    rintro call' ch key body' rfl
    cases q
    · exact hallow
    all_goals exact hallow.elim
  have hrecorded : call ∈ p.state.calls :=
    h.numbered.recorded th.call (List.mem_of_getElem? (Pool.calls_of_thread hth)) call
      (by rw [hcall]; rfl)
  have hcalls : p'.state.calls = p.state.calls := by
    rw [hstate]
    rcases exec_cases h.healthy hx with ⟨_, _, _, heq⟩ | ⟨rfl, _⟩ | ⟨_, _, _, _, _, _, rfl⟩
    · exact heq
    · exact reset_calls p.state
    · rfl
  have hhealthy : Healthy p'.state := by
    rw [hstate]
    exact exec_healthy h.healthy hx
      (fun call' ch key body' ho => hpublish call' ch key body' ho ▸ hrecorded)
  refine ⟨hhealthy, numbered_step h.numbered hs (fun n hn => hcalls ▸ hn), hcallseq ▸ h.opened,
    h.tracks.step (program_obeys topology) hs ?_ ?_ ?_⟩
  · intro c s hc
    cases hc
  · rintro _ _ th₁ o₁ k₁ r₁ s₁ q₁ hrun hth₁ hp₁ hx₁ hallow₁ hR₁
    cases hrun
    rw [hth, Option.some.injEq] at hth₁
    subst hth₁
    rw [hcall] at hallow₁ hR₁ ⊢
    exact hR₁.own h.healthy hallow₁ hx₁
  · intro j th' q' hth' hun hne hq' hR'
    rw [hstate]
    cases hcall' : th'.call with
    | close => exact trivial
    | publish call' ctx' routingKey' body' =>
      rw [hcall'] at hR' hq'
      have hdiff : call' ≠ call := by
        rintro rfl
        have hij := h.numbered.distinct i j th.call th'.call call' (Pool.calls_of_thread hth)
          (Pool.calls_of_thread hth') (by rw [hcall]; rfl) (by rw [hcall']; rfl)
        exact hne chs (by rw [hij])
      exact hR'.keeps (exec_keeps h.healthy hx (fun ch key body₁ ho =>
        hdiff (hpublish call' ch key body₁ ho)))

/-- A step of the world. -/
theorem Sound.env {w : WorldEvent} (h : Sound p) (hcalm : w.calm = true)
    (hs : (machine topology).step p (.env w) = some p') : Sound p' := by
  obtain ⟨s, hw, rfl⟩ := (machine topology).step_env hs
  obtain ⟨hhealthy, hkeeps, hcalls⟩ := world_calm h.healthy hcalm hw
  refine ⟨hhealthy, numbered_step h.numbered hs (fun n hn => hcalls ▸ hn), h.opened,
    h.tracks.step (program_obeys topology) hs ?_ ?_ ?_⟩
  · intro c s hc
    cases hc
  · intro i ch th o k r s q hrun
    cases hrun
  · intro j th q hth _ _ _ hR
    cases hcall : th.call with
    | close => exact trivial
    | publish call ctx routingKey body =>
      rw [hcall] at hR
      exact hR.keeps (hkeeps call)

/-- **Every step keeps it**, while the connection stays up. -/
theorem Sound.step {e : Event (List Choice) Call WorldEvent} (h : Sound p) (hup : Up e)
    (hs : (machine topology).step p e = some p') : Sound p' := by
  cases e with
  | call c => exact h.call hup hs
  | run i chs => exact h.run hs
  | kill i =>
    have hcallseq : p'.calls = p.calls := by
      rcases (machine topology).step_calls hs with heq | ⟨_, heq, _⟩
      · exact heq
      · cases heq
    have hsame : p'.state = p.state := by
      obtain ⟨th, _, _, rfl⟩ := (machine topology).step_kill hs
      rfl
    refine ⟨hsame ▸ h.healthy, numbered_step h.numbered hs (fun n hn => hsame ▸ hn),
      hcallseq ▸ h.opened,
      h.tracks.step (program_obeys topology) hs ?_ ?_ ?_⟩
    · intro c s hc
      cases hc
    · intro i ch th o k r s q hrun
      cases hrun
    · intro j th q _ _ _ _ hR
      rw [hsame]
      exact hR
  | env w => exact h.env hup hs

theorem sound_of_run {es : List (Event (List Choice) Call WorldEvent)}
    {p : Pool Op Op.Res State Call (Option Err)}
    (h : (machine topology).Run (fun _ => Up) init es p) : Sound p := by
  refine h.invariant (J := Sound) ?_ (fun p e p' hp hc hs => hp.step hc hs)
  have hnil : (machine topology).Run (fun _ => Up) init [] init := .nil
  refine ⟨⟨machine_tidy hnil, ?_, ?_, ?_, ?_⟩, ⟨?_, ?_⟩, ?_, ?_⟩
  · intro ch x hx
    cases hx
  · intro c hc
    cases hc
  · intro c hc
    cases hc
  · intro c hc
    cases hc
  · intro c hc
    cases hc
  · intro i j c c' n hc
    cases hc
  · intro c hc
    cases hc
  · intro i th hth
    cases hth

/-- A caller whose message was accepted is not told otherwise. -/
theorem Healthy.resolved_of_accepted (h : Healthy s) {m : Nat} {b : Bool}
    (hm : s.confirmations[m]? = some c) (haccepted : c.verdict = some true)
    (hres : c.resolved = some b) : b = true := by
  rcases h.told c (List.mem_of_getElem? hm) b hres with hv | ⟨hv, _⟩
  · exact Option.some.inj (hv.symm.trans haccepted)
  · rw [haccepted] at hv
    cases hv

/-- A call that is delivered returns nil without another operation. -/
theorem delivered_prog {call ctx : Nat}
    {prog : P (Option Err)}
    (h : prog.Obeys (stages (.publish call ctx routingKey body))
      (Returned (.publish call ctx routingKey body)) .delivered) : prog = .ret none := by
  cases prog with
  | ret r => rw [h.2 rfl]
  | op o k => exact h.1.elim

/-- A call whose message is accepted and whose context is not done has returned
nil, or it waits for the broker's answer and then returns nil. -/
theorem Sound.accepted {p : Pool Op Op.Res State Call (Option Err)} (h : Sound p) {i : Nat}
    {th : Thread Op Op.Res Call (Option Err)} {call ctx : Nat} {m : Nat}
    (hth : p.threads[i]? = some th) (hun : th.Unharmed)
    (hcall : th.call = .publish call ctx routingKey body) (hm : p.state.confirmations[m]? = some c)
    (hown : c.call = call) (haccepted : c.verdict = some true)
    (hdone : p.state.isDone c ctx = false) :
    th.prog = .ret none ∨
      ∃ k, th.prog = .op (.wait m ctx) k ∧ k (.ok true) = .ret none := by
  obtain ⟨q, hq, hR⟩ := h.tracks i th hth hun
  rw [hcall] at hq hR
  -- only the last two stages fit a confirmation that was accepted and is not done
  cases q with
  | unpublished => exact absurd hown (hR m c hm)
  | failed =>
    rcases hR m c hm hown with hrefused | hctx
    · cases h.healthy.resolved_of_accepted hm haccepted hrefused
    · rw [hdone] at hctx
      cases hctx
  | delivered => exact .inl (delivered_prog hq)
  | waiting m' =>
    obtain rfl : m = m' := hR m c hm hown
    obtain ⟨k, hp⟩ := waiting_prog hq
    rw [hp] at hq
    exact .inr ⟨k, hp, delivered_prog (hq.2 (.ok true))⟩

/-- Once the answer has arrived, the `select` can take it. -/
theorem receive_step (topology : Topology) {p : Pool Op Op.Res State Call (Option Err)}
    {i m ctx : Nat} {th : Thread Op Op.Res Call (Option Err)} {k : Except Err Bool → P (Option Err)}
    {acked : Bool} (hth : p.threads[i]? = some th) (hend : th.ended = none)
    (hp : th.prog = .op (.wait m ctx) k) (hm : p.state.confirmations[m]? = some c)
    (hres : c.resolved = some acked) :
    (machine topology).step p (.run i [.receive])
      = some ⟨p.state, p.threads.set i (th.resume p.threads.length (k (.ok acked)))⟩ := by
  have hwait : (machine topology).exec p.state (.wait m ctx) [.receive]
      = some (.ok acked, p.state) := by
    show p.state.wait m ctx [.receive] = _
    simp [State.wait, hm, hres]
  simp only [Machine.step, hth, hend, Option.isNone_none, if_true, hp, hwait]

/-- On a connection that stays up, whatever else other callers do, however their contexts
end and whenever they reset the channel: a publish whose message the broker has accepted
and whose own context is not done has returned nil if it has returned, and if it is still
running, the confirmation and its own next step make it return nil. -/
theorem accepted_publish_returns_nil (topology : Topology)
    (es : List (Event (List Choice) Call WorldEvent))
    (p : Pool Op Op.Res State Call (Option Err))
    (h : (machine topology).Run (fun _ => Up) init es p)
    (i : Nat) (th : Thread Op Op.Res Call (Option Err)) (call ctx : Nat) (routingKey : String)
    (body : Bytes) (m : Nat) (c : Confirmation) (hth : p.threads[i]? = some th)
    (hcall : th.call = .publish call ctx routingKey body)
    (hm : p.state.confirmations[m]? = some c) (hown : c.call = call)
    (haccepted : c.verdict = some true) (hdone : p.state.isDone c ctx = false) :
    (∀ r, th.prog = .ret r → r = none) ∧
      (th.ended = none → ∃ es' p' th', (machine topology).Run (fun _ => Up) p es' p' ∧
        (∀ e ∈ es', e = .env (.arrive m) ∨ e = .run i [.receive]) ∧
        p'.threads[i]? = some th' ∧ th'.prog = .ret none) := by
  have hsound := sound_of_run h
  refine ⟨fun r hret => ?_, fun hend => ?_⟩
  · rcases hsound.accepted hth (.inr (by rw [hret]; rfl)) hcall hm hown haccepted hdone with
      hp | ⟨k, hp, _⟩
    · rw [hret] at hp
      exact Prog.ret.inj hp
    · rw [hret] at hp
      cases hp
  · rcases hsound.accepted hth (.inl hend) hcall hm hown haccepted hdone with
      hp | ⟨k, hp, hret⟩
    · exact ⟨[], p, th, .nil, nofun, hth, hp⟩
    · have hlt : i < p.threads.length := (List.getElem?_eq_some_iff.mp hth).1
      have hself : (p.threads.set i (th.resume p.threads.length (k (.ok true))))[i]?
          = some (th.resume p.threads.length (k (.ok true))) := List.getElem?_set_self hlt
      cases hres : c.resolved with
      | some acked =>
        obtain rfl := hsound.healthy.resolved_of_accepted hm haccepted hres
        have hstep := receive_step topology hth hend hp hm hres
        exact ⟨[.run i [.receive]], _, _, Machine.Run.nil.snoc trivial hstep,
          fun e he => .inr (List.mem_singleton.mp he), hself, hret⟩
      | none =>
        -- the answer is on its way
        let p₁ : Pool Op Op.Res State Call (Option Err) :=
          ⟨p.state.amend m (fun c => { c with resolved := c.verdict }), p.threads⟩
        have harrive : (machine topology).step p (.env (.arrive m)) = some p₁ := by
          simp [Machine.step, machine, world, hm, hres, haccepted, p₁]
        have hm₁ : p₁.state.confirmations[m]? = some { c with resolved := c.verdict } := by
          show (p.state.confirmations.modify m _)[m]? = _
          rw [List.getElem?_modify, hm]
          simp
        have hstep := receive_step topology (p := p₁) hth hend hp hm₁ haccepted
        have hrun : (machine topology).Run (fun _ => Up) p
            [.env (.arrive m), .run i [.receive]] _ :=
          (Machine.Run.nil.snoc rfl harrive).snoc trivial hstep
        refine ⟨_, _, _, hrun, fun e he => ?_, hself, hret⟩
        rcases List.mem_cons.mp he with rfl | he
        · exact .inl rfl
        · exact .inr (List.mem_singleton.mp he)

/-- Two callers wait on one channel and the broker accepts the message of the second. The
first one's context is cancelled, and it resets the channel while the answer to the second
is on its way. -/
def bystander : List (Event (List Choice) Call WorldEvent) :=
  [.call (.publish 0 0 "k" []), .call (.publish 1 1 "k" []),
    .run 0 [.ok], .run 0 (List.replicate 8 .ok), .run 0 [.ok],
    .run 1 [.ok, .ok], .run 1 [.ok], .env (.answer 1 true), .env (.cancel 0),
    .run 0 [.done (.io "context canceled")], .run 0 (List.replicate 7 .ok)]

/-- The first caller has closed the channel under the second, which returns nil. -/
theorem accepted_publish_returns_nil_second :
    ∃ p es' p' th', (machine sampleTopology).Run (fun _ => Up) init bystander p ∧
      p.state.chans = [⟨0, true⟩] ∧ p.due? 1 = some (.publish 1 1 "k" [], .wait 1 1) ∧
      (machine sampleTopology).Run (fun _ => Up) p es' p' ∧
      p'.threads[1]? = some th' ∧ th'.prog = .ret none := by
  have hrun : ((machine sampleTopology).stepsWhere (fun _ e => Up e) init bystander).any (fun p =>
      decide (p.state.chans = [⟨0, true⟩]) &&
      decide (p.due? 1 = some (.publish 1 1 "k" [], .wait 1 1)) &&
      (p.state.confirmations[1]?).any (fun c => decide (c.call = 1) &&
        decide (c.verdict = some true) && decide (p.state.isDone c 1 = false))) = true := by
    decide
  obtain ⟨p, hp, hall⟩ := (Option.any_eq_true _ _).mp hrun
  simp only [Bool.and_eq_true, decide_eq_true_eq] at hall
  obtain ⟨⟨hclosed, hdue⟩, hconf⟩ := hall
  obtain ⟨c, hc, hc'⟩ := (Option.any_eq_true _ _).mp hconf
  simp only [Bool.and_eq_true, decide_eq_true_eq] at hc'
  obtain ⟨⟨hown, haccepted⟩, hdone⟩ := hc'
  have h : (machine sampleTopology).Run (fun _ => Up) init bystander p :=
    .of_stepsWhere (fun _ _ h => of_decide_eq_true h) hp
  obtain ⟨th, hth, hcall, hpending⟩ := Pool.due?_eq_some hdue
  obtain ⟨_, hnext⟩ := accepted_publish_returns_nil sampleTopology bystander p h 1 th 1 1 "k" []
    1 c hth hcall hc hown haccepted hdone
  obtain ⟨es', p', th', hrun', _, hth', hret⟩ := hnext (Thread.pending?_eq_some hpending).1
  exact ⟨p, es', p', th', h, hclosed, hdue, hrun', hth', hret⟩

end ReleaseNotifier.Publisher
