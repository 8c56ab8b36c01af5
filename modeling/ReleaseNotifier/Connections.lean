/-
The bookkeeping of the `Publisher`: which connection is cached, and which ones
have been closed.

The dial path has five early exits, and redialling, the clean-up after a failed
publish and the shutdown all write the two fields. Between critical sections
the fields are either both nil or hold a channel and the connection it was
opened on, and every connection `getChannel` was given is the cached one or has
been closed (`Tidy`). Inside a section that is not so; there the connection in
hand is accounted for (`Released`).
-/
import ReleaseNotifier.Publisher

set_option autoImplicit false

namespace ReleaseNotifier.Publisher

open Conc

variable {s s' : State} {ctx : Nat} {c : Choice}

/-! ## The library -/

theorem closeWhere_chans (s : State) (f : Nat → Channel → Bool) (g : Confirmation → Confirmation)
    (k : Nat) : (s.closeWhere f g).chans[k]?
      = (s.chans[k]?).map (fun x => if f k x then { x with closed := true } else x) := by
  rw [State.closeWhere, List.getElem?_mapIdx]

variable {g : Confirmation → Confirmation}

/-- Closing channels leaves every channel on its connection. -/
theorem closeWhere_conn {f : Nat → Channel → Bool} {k : Nat} {x : Channel}
    (h : s.chans[k]? = some x) :
    ∃ x', (s.closeWhere f g).chans[k]? = some x' ∧ x'.conn = x.conn := by
  rw [closeWhere_chans, h]
  refine ⟨_, rfl, ?_⟩
  dsimp only
  split <;> rfl

theorem closeConn_conns (s : State) (conn k : Nat) :
    (s.closeConn conn).conns[k]?
      = (s.conns[k]?).map (fun x => if conn = k then { x with released := true } else x) := by
  rw [State.closeConn, List.getElem?_modify]
  rfl

theorem closeConn_chans (s : State) (conn k : Nat) : (s.closeConn conn).chans[k]?
    = (s.chans[k]?).map (fun x => if decide (x.conn = conn) then { x with closed := true } else x) :=
  closeWhere_chans s (fun _ x => decide (x.conn = conn)) Confirmation.settle k

/-- Closing a connection is closing its channels, as far as confirmations go. -/
theorem closeConn_confirmations (s : State) (conn : Nat) : (s.closeConn conn).confirmations
    = (s.closeWhere (fun _ x => decide (x.conn = conn)) Confirmation.settle).confirmations := rfl

/-- A request to the server leaves the publisher as it is. -/
theorem request_state {r : Except Err Unit} (h : s.request c = some (r, s')) : s' = s := by
  cases c <;> simp only [State.request, Option.some.injEq, Prod.mk.injEq, reduceCtorEq] at h
  · exact h.2.symm
  · exact h.2.symm

/-- A `Close` takes effect, whatever it reports. -/
theorem closing_state {r : Except Err Unit} {t : State} (h : t.closing c = some (r, s')) :
    s' = t := by
  cases c <;> simp only [State.closing, Option.some.injEq, Prod.mk.injEq, reduceCtorEq] at h
  · exact h.2.symm
  · exact h.2.symm

theorem fields_answer {r : Option Nat × Option Nat} (h : lockedExec s .fields c = some (r, s')) :
    r = (s.conn, s.ch) ∧ s' = s := by
  cases c <;> simp only [lockedExec, Option.some.injEq, Prod.mk.injEq, reduceCtorEq] at h
  exact ⟨h.1.symm, h.2.symm⟩

variable {r : Except Err Nat}

/-- A dial that fails may leave a connection that nobody holds. -/
theorem dial_answer (h : lockedExec s (.dial ctx) c = some (r, s')) :
    (∃ err n, r = .error err ∧ s' = { s with abandoned := n }) ∨
      (r = .ok s.conns.length ∧ s' = { s with conns := s.conns ++ [⟨false, false⟩] }) := by
  cases c <;> simp only [lockedExec, Option.some.injEq, Prod.mk.injEq, reduceCtorEq] at h
  · exact .inr ⟨h.1.symm, h.2.symm⟩
  · exact .inl ⟨_, s.abandoned, h.1.symm, h.2.symm⟩
  · split at h
    · simp only [Option.some.injEq, Prod.mk.injEq] at h
      exact .inl ⟨_, _, h.1.symm, h.2.symm⟩
    · cases h

theorem openChannel_answer {conn : Nat} (h : lockedExec s (.openChannel conn) c = some (r, s')) :
    (∃ err, r = .error err ∧ s' = s) ∨
      (r = .ok s.chans.length ∧ s' = { s with chans := s.chans ++ [⟨conn, false⟩] }) := by
  cases c <;> simp only [lockedExec, Option.some.injEq, Prod.mk.injEq, reduceCtorEq] at h
  · exact .inr ⟨h.1.symm, h.2.symm⟩
  · exact .inl ⟨_, h.1.symm, h.2.symm⟩

variable {chs : List Choice}

/-- A publish takes the next confirmation on an open channel, or fails without a trace. -/
theorem publish_answer {call ch : Nat} {routingKey : String} {body : Bytes}
    (h : s.publish call ch routingKey body chs = some (r, s')) :
    (∃ err, r = .error err ∧ s' = s) ∨
      (r = .ok s.confirmations.length ∧ (s.chans[ch]?).all Channel.closed = false ∧
        s' = { s with confirmations :=
          s.confirmations ++ [⟨call, ch, routingKey, body, none, none, false⟩] }) := by
  unfold State.publish at h
  split at h
  · split at h
    · cases h
      exact .inl ⟨_, rfl, rfl⟩
    · next hopen =>
      cases h
      exact .inr ⟨rfl, Bool.eq_false_iff.mpr hopen, rfl⟩
  · cases h
    exact .inl ⟨_, rfl, rfl⟩
  · cases h

/-- A wait ends with the broker's answer or with an error, and changes nothing. -/
theorem wait_answer {m : Nat} {r : Except Err Bool} (h : s.wait m ctx chs = some (r, s')) :
    s' = s ∧ ∃ c, s.confirmations[m]? = some c ∧
      ((∃ acked, r = .ok acked ∧ c.resolved = some acked) ∨
        ∃ err, r = .error err ∧ s.isDone c ctx = true) := by
  unfold State.wait at h
  split at h
  · split at h
    · next c hc =>
      obtain ⟨acked, hres, heq⟩ := Option.map_eq_some_iff.mp h
      cases heq
      exact ⟨rfl, c, hc, .inl ⟨acked, rfl, hres⟩⟩
    · cases h
  · split at h
    · next c hc =>
      split at h
      · next hdone =>
        cases h
        exact ⟨rfl, c, hc, .inr ⟨_, rfl, hdone⟩⟩
      · cases h
    · cases h
  · cases h

/-! ## Connections accounted for -/

/-- Every connection `getChannel` was given has been closed, except for the one
in hand. -/
def Released (s : State) (inHand : Option Nat) : Prop :=
  ∀ conn x, s.conns[conn]? = some x → x.late = false → inHand = some conn ∨ x.released = true

theorem Released.congr {inHand : Option Nat} (h : Released s inHand) (hc : s'.conns = s.conns) :
    Released s' inHand := by
  intro conn x hx hlate
  rw [hc] at hx
  exact h conn x hx hlate

theorem Released.weaken (h : Released s none) (inHand : Option Nat) : Released s inHand := by
  intro conn x hx hlate
  rcases h conn x hx hlate with hnone | hrel
  · cases hnone
  · exact .inr hrel

/-- Closing the connection in hand leaves none. -/
theorem Released.closeConn {conn : Nat} (h : Released s (some conn)) :
    Released (s.closeConn conn) none := by
  intro k x hx hlate
  rw [closeConn_conns] at hx
  obtain ⟨y, hy, rfl⟩ := Option.map_eq_some_iff.mp hx
  by_cases hk : conn = k
  · exact .inr (by rw [if_pos hk])
  · rw [if_neg hk] at hlate ⊢
    rcases h k y hy hlate with heq | hrel
    · exact absurd (Option.some.inj heq) hk
    · exact .inr hrel

/-- A connection that arrives is in hand. -/
theorem Released.dialled (h : Released s none) (hc : s'.conns = s.conns ++ [⟨false, false⟩]) :
    Released s' (some s.conns.length) := by
  intro k x hx hlate
  rw [hc] at hx
  rcases getElem?_append_singleton hx with hold | ⟨rfl, _⟩
  · exact (h.weaken _) k x hold hlate
  · exact .inl rfl

/-- Channels and confirmations refer to what is there; a connection that came
too late has no channels. -/
structure InRange (s : State) : Prop where
  chans : ∀ (ch : Nat) (x : Channel), s.chans[ch]? = some x →
    ∃ y : Connection, s.conns[x.conn]? = some y ∧ y.late = false
  confirmations : ∀ c ∈ s.confirmations, c.chan < s.chans.length

theorem InRange.conn_lt (h : InRange s) {ch : Nat} {x : Channel} (hx : s.chans[ch]? = some x) :
    x.conn < s.conns.length := by
  obtain ⟨y, hy, _⟩ := h.chans ch x hx
  exact (List.getElem?_eq_some_iff.mp hy).1

/-- The bookkeeping between critical sections. -/
structure Tidy (s : State) : Prop where
  paired : (s.conn = none ∧ s.ch = none) ∨
    ∃ (conn ch : Nat) (x : Channel), s.conn = some conn ∧ s.ch = some ch ∧
      s.chans[ch]? = some x ∧ x.conn = conn
  kept : Released s s.conn
  inRange : InRange s

theorem InRange.congr (h : InRange s) (hchans : s'.chans = s.chans) (hconns : s'.conns = s.conns)
    (hconf : s'.confirmations = s.confirmations) : InRange s' := by
  refine ⟨fun ch x hx => ?_, fun c hc => ?_⟩
  · rw [hchans] at hx
    rw [hconns]
    exact h.chans ch x hx
  · rw [hconf] at hc
    rw [hchans]
    exact h.confirmations c hc

theorem InRange.closeWhere (h : InRange s) (f : Nat → Channel → Bool)
    (hg : ∀ c, (g c).chan = c.chan) : InRange (s.closeWhere f g) := by
  refine ⟨fun ch x hx => ?_, fun c hc => ?_⟩
  · rw [closeWhere_chans] at hx
    obtain ⟨y, hy, rfl⟩ := Option.map_eq_some_iff.mp hx
    have := h.chans ch y hy
    split
    · exact this
    · exact this
  · obtain ⟨d, hd, rfl⟩ := List.mem_map.mp hc
    have hlen : (s.closeWhere f g).chans.length = s.chans.length := List.length_mapIdx
    have := h.confirmations d hd
    rw [hlen]
    split
    · rw [hg]
      exact this
    · exact this

/-- The pair that is held may be closed, and is still a pair. -/
theorem Tidy.closeWhere (h : Tidy s) (f : Nat → Channel → Bool) (hg : ∀ c, (g c).chan = c.chan) :
    Tidy (s.closeWhere f g) := by
  refine ⟨?_, h.kept.congr rfl, h.inRange.closeWhere f hg⟩
  rcases h.paired with hnone | ⟨conn, ch, x, hconn, hch, hx, hxc⟩
  · exact .inl hnone
  · obtain ⟨x', hx', hxc'⟩ := closeWhere_conn (f := f) (g := g) hx
    exact .inr ⟨conn, ch, x', hconn, hch, hx', hxc'.trans hxc⟩

/-! ## `resetLocked` -/

/-- The state once the cached channel has been closed and forgotten. -/
def State.withoutCh (s : State) : State :=
  match s.ch with
  | some ch => { s.closeChannel ch with ch := none }
  | none => s

/-- The state once the cached connection has been closed and forgotten. -/
def State.withoutConn (s : State) : State :=
  match s.conn with
  | some conn => { s.closeConn conn with conn := none }
  | none => s

/-- The state after `resetLocked`, whatever the two `Close` report. -/
def State.reset (s : State) : State := s.withoutCh.withoutConn

theorem resetCh_ensures (s : State) :
    resetCh.Ensures lockedExec s (fun _ s' => s' = s.withoutCh) := by
  refine Prog.Ensures.op (fun c r s₁ hx => ?_)
  obtain ⟨rfl, rfl⟩ := fields_answer hx
  unfold State.withoutCh
  cases s₁.ch with
  | none => exact .ret rfl
  | some ch =>
    refine Prog.Ensures.op (fun c r s₂ hx => ?_)
    obtain rfl := closing_state hx
    refine Prog.Ensures.op (fun c r s₃ hx => ?_)
    cases c <;> simp only [lockedExec, Option.some.injEq, Prod.mk.injEq, reduceCtorEq] at hx
    exact .ret hx.2.symm

theorem resetConn_ensures (s : State) :
    resetConn.Ensures lockedExec s (fun _ s' => s' = s.withoutConn) := by
  refine Prog.Ensures.op (fun c r s₁ hx => ?_)
  obtain ⟨rfl, rfl⟩ := fields_answer hx
  unfold State.withoutConn
  cases s₁.conn with
  | none => exact .ret rfl
  | some ch =>
    refine Prog.Ensures.op (fun c r s₂ hx => ?_)
    obtain rfl := closing_state hx
    refine Prog.Ensures.op (fun c r s₃ hx => ?_)
    cases c <;> simp only [lockedExec, Option.some.injEq, Prod.mk.injEq, reduceCtorEq] at hx
    exact .ret hx.2.symm

/-- After a reset the publisher holds neither channel nor connection. -/
theorem resetLocked_ensures (s : State) :
    resetLocked.Ensures lockedExec s (fun _ s' => s' = s.reset) := by
  refine (resetCh_ensures s).bind (fun _ s₁ h₁ => ?_)
  refine (resetConn_ensures s₁).bind (fun _ s₂ h₂ => ?_)
  rw [h₁] at h₂
  exact .ret h₂

/-- Nothing is cached and everything is closed. -/
structure Vacant (s : State) : Prop where
  conn : s.conn = none
  ch : s.ch = none
  released : Released s none
  inRange : InRange s

theorem Vacant.tidy (h : Vacant s) : Tidy s :=
  ⟨.inl ⟨h.conn, h.ch⟩, h.released.weaken _, h.inRange⟩

theorem InRange.closeConn (h : InRange s) (conn : Nat) : InRange (s.closeConn conn) := by
  have h' := h.closeWhere (fun _ x => decide (x.conn = conn)) (g := Confirmation.settle)
    (fun _ => rfl)
  refine ⟨fun ch x hx => ?_, h'.confirmations⟩
  obtain ⟨y, hy, hlate⟩ := h'.chans ch x hx
  rw [closeConn_conns]
  refine ⟨_, congrArg (Option.map _) hy, ?_⟩
  dsimp only
  split
  · exact hlate
  · exact hlate

/-- A reset leaves nothing behind. -/
theorem Tidy.reset (h : Tidy s) : Vacant s.reset := by
  have hch : s.withoutCh.ch = none ∧ s.withoutCh.conn = s.conn ∧ s.withoutCh.conns = s.conns ∧
      InRange s.withoutCh := by
    unfold State.withoutCh
    split
    · next ch _ =>
      have hclosed : InRange (s.closeChannel ch) := h.inRange.closeWhere _ (fun _ => rfl)
      exact ⟨rfl, rfl, rfl, hclosed.congr rfl rfl rfl⟩
    · next hnone => exact ⟨hnone, rfl, rfl, h.inRange⟩
  obtain ⟨hnone, hconn, hconns, hrange⟩ := hch
  have hrel : Released s.withoutCh s.withoutCh.conn := by
    rw [hconn]
    exact h.kept.congr hconns
  unfold State.reset State.withoutConn
  split
  · next conn hc =>
    rw [hc] at hrel
    exact ⟨rfl, hnone, hrel.closeConn.congr rfl, (hrange.closeConn conn).congr rfl rfl rfl⟩
  · next hc =>
    rw [hc] at hrel
    exact ⟨hc, hnone, hrel, hrange⟩

/-! ## The dial path -/

theorem bindQueue_ensures (ch : Nat) (topology : Topology) (keys : List String) (s : State) :
    (bindQueue ch topology keys).Ensures lockedExec s (fun _ s' => s' = s) := by
  induction keys with
  | nil => exact .ret rfl
  | cons key keys ih =>
    refine Prog.Ensures.op (fun c r s₁ hx => ?_)
    obtain rfl := request_state hx
    cases r with
    | error err => exact .ret rfl
    | ok u => exact ih

/-- Declaring moves nothing that the publisher holds. -/
theorem declareTopology_ensures (ch : Nat) (topology : Topology) (s : State) :
    (declareTopology ch topology).Ensures lockedExec s (fun _ s' => s' = s) := by
  refine Prog.Ensures.op (fun c r s₁ hx => ?_)
  obtain rfl := request_state hx
  cases r with
  | error err => exact .ret rfl
  | ok u =>
    show Prog.Ensures _ (if topology.queue = "" then _ else _) _ _
    split
    · exact .ret rfl
    · refine Prog.Ensures.op (fun c r s₂ hx => ?_)
      obtain rfl := request_state hx
      cases r with
      | error err => exact .ret rfl
      | ok u => exact bindQueue_ensures ch topology _ _

/-- The state with a connection just dialled. -/
def State.dialled (s : State) : State := { s with conns := s.conns ++ [⟨false, false⟩] }

/-- The state with a connection just dialled and a channel opened on it. -/
def State.opened (s : State) : State :=
  { s.dialled with chans := s.chans ++ [⟨s.conns.length, false⟩] }

/-- The state with both of them cached. -/
def State.installed (s : State) : State :=
  { s.opened with conn := some s.conns.length, ch := some s.chans.length }

/-- What a failed redial leaves of the state `t` it was tried in: what was
dialled is closed, and nobody else is affected. -/
structure Undone (t s : State) : Prop where
  vacant : Vacant s
  confirmations : s.confirmations = t.confirmations
  chans : ∀ k, k < t.chans.length → s.chans[k]? = t.chans[k]?
  closed : ∀ (k : Nat) (x : Channel), t.chans.length ≤ k → s.chans[k]? = some x → x.closed = true
  cancelled : s.cancelled = t.cancelled
  calls : s.calls = t.calls

/-- Closing channels nobody waits on changes no confirmation. -/
theorem closeWhere_confirmations {f : Nat → Channel → Bool}
    (h : ∀ c ∈ s.confirmations, (s.chans[c.chan]?).any (f c.chan) = false) :
    (s.closeWhere f g).confirmations = s.confirmations := by
  refine (List.map_congr_left (fun c hc => ?_)).trans (List.map_id _)
  rw [h c hc]
  rfl

/-- Closing a connection that has just been dialled, with all that has been
opened on it, disturbs nobody. -/
theorem closeConn_undoes {t : State} (h : Vacant t) (hconn : s.conn = t.conn) (hch : s.ch = t.ch)
    (hconns : s.conns = t.conns ++ [⟨false, false⟩])
    (hchans : ∀ k, k < t.chans.length → s.chans[k]? = t.chans[k]?)
    (hnew : ∀ (k : Nat) (x : Channel), t.chans.length ≤ k → s.chans[k]? = some x →
      x.conn = t.conns.length)
    (hconf : s.confirmations = t.confirmations) (hcancel : s.cancelled = t.cancelled)
    (hcalls : s.calls = t.calls) (hrange : InRange s) : Undone t (s.closeConn t.conns.length) := by
  have hother : ∀ (k : Nat) x, t.chans[k]? = some x → x.conn ≠ t.conns.length :=
    fun k x hx => Nat.ne_of_lt (h.inRange.conn_lt hx)
  refine ⟨⟨hconn.trans h.conn, hch.trans h.ch, ?_, hrange.closeConn _⟩, ?_, fun k hk => ?_,
    fun k x hk hx => ?_, hcancel, hcalls⟩
  · exact (h.released.dialled hconns).closeConn
  · rw [closeConn_confirmations]
    refine (closeWhere_confirmations (fun c hc => ?_)).trans hconf
    rw [hconf] at hc
    rw [hchans c.chan (h.inRange.confirmations c hc)]
    cases hx : t.chans[c.chan]? with
    | none => rfl
    | some x => exact decide_eq_false (hother _ x hx)
  · rw [closeConn_chans, hchans k hk]
    cases hx : t.chans[k]? with
    | none => rfl
    | some x => simp [hother k x hx]
  · rw [closeConn_chans] at hx
    obtain ⟨y, hy, rfl⟩ := Option.map_eq_some_iff.mp hx
    simp [hnew k y hk hy]

/-- One more connection leaves the channels where they are. -/
theorem InRange.moreConns (h : InRange s) (new : Connection) (n : Nat) :
    InRange { s with conns := s.conns ++ [new], abandoned := n } := by
  refine ⟨fun k x hx => ?_, h.confirmations⟩
  obtain ⟨y, hy, hlate⟩ := h.chans k x hx
  exact ⟨y, by rw [List.getElem?_append_left (h.conn_lt hx)]; exact hy, hlate⟩

theorem InRange.dialled (h : InRange s) : InRange s.dialled := h.moreConns _ s.abandoned

theorem InRange.opened (h : InRange s) : InRange s.opened := by
  refine ⟨fun k x hx => ?_, fun c hc => ?_⟩
  · rcases getElem?_append_singleton hx with hold | ⟨_, rfl⟩
    · exact h.dialled.chans k x hold
    · exact ⟨⟨false, false⟩, List.getElem?_concat_length, rfl⟩
  · show c.chan < (s.chans ++ [_]).length
    rw [List.length_append]
    exact Nat.lt_add_right 1 (h.confirmations c hc)

/-- Closing a channel that has just been opened: nobody has published on it. -/
theorem closeBoth_undoes (h : Vacant s) :
    Undone s ((s.opened.closeChannel s.chans.length).closeConn s.conns.length) := by
  refine closeConn_undoes h rfl rfl rfl (fun k hk => ?_) (fun k x hk hx => ?_) ?_ rfl rfl
    (h.inRange.opened.closeWhere _ (fun _ => rfl))
  · rw [State.closeChannel, closeWhere_chans, State.opened, List.getElem?_append_left hk]
    have hne : k ≠ s.chans.length := Nat.ne_of_lt hk
    cases s.chans[k]? <;> simp [hne]
  · rw [State.closeChannel, closeWhere_chans] at hx
    obtain ⟨y, hy, rfl⟩ := Option.map_eq_some_iff.mp hx
    rcases getElem?_append_singleton hy with hold | ⟨_, rfl⟩
    · exact absurd (List.getElem?_eq_some_iff.mp hold).1 (Nat.not_lt.mpr hk)
    · split <;> rfl
  · refine closeWhere_confirmations (fun c hc => ?_)
    have hne : c.chan ≠ s.chans.length := Nat.ne_of_lt (h.inRange.confirmations c hc)
    cases (s.opened).chans[c.chan]? <;> simp [hne]

/-- A redial starts from a reset, and fails and is undone or is installed. -/
theorem redial_ensures (topology : Topology) (ctx : Nat) (h : Tidy s) :
    (redial topology ctx).Ensures lockedExec s (fun r s' =>
      (∃ err, r = .error err ∧ Undone s.reset s') ∨
        (r = .ok s.reset.chans.length ∧ s' = s.reset.installed)) := by
  refine (resetLocked_ensures s).bind (fun _ t ht => ?_)
  have hvac : Vacant t := by
    rw [ht]
    exact h.reset
  rw [← ht]
  have hclose : ∀ err, (closeBoth err t.chans.length t.conns.length).Ensures lockedExec t.opened
      (fun r s' => ∃ err, r = .error err ∧ Undone t s') := by
    intro err
    refine Prog.Ensures.op (fun c r s₁ hx => ?_)
    obtain rfl := closing_state hx
    refine Prog.Ensures.op (fun c r s₂ hx => ?_)
    obtain rfl := closing_state hx
    exact .ret ⟨_, rfl, closeBoth_undoes hvac⟩
  -- up to the first channel there are no new ones to speak of
  have hbeyond : ∀ {P : Prop} (k : Nat) (x : Channel), t.chans.length ≤ k →
      t.chans[k]? = some x → P :=
    fun k x hk hx => absurd (List.getElem?_eq_some_iff.mp hx).1 (Nat.not_lt.mpr hk)
  refine Prog.Ensures.op (fun c r s₁ hx => ?_)
  rcases dial_answer hx with ⟨err, n, rfl, rfl⟩ | ⟨rfl, rfl⟩
  · exact .ret (.inl ⟨_, rfl, ⟨hvac.conn, hvac.ch, hvac.released.congr rfl,
      hvac.inRange.congr rfl rfl rfl⟩, rfl, fun _ _ => rfl, fun k x => hbeyond k x, rfl, rfl⟩)
  · refine Prog.Ensures.op (fun c r s₂ hx => ?_)
    rcases openChannel_answer hx with ⟨err, rfl, rfl⟩ | ⟨rfl, rfl⟩
    · -- no channel: only the connection is closed
      refine Prog.Ensures.op (fun c r s₃ hx => ?_)
      obtain rfl := closing_state hx
      exact .ret (.inl ⟨_, rfl, closeConn_undoes hvac rfl rfl rfl (fun _ _ => rfl)
        (fun k x => hbeyond k x) rfl rfl rfl hvac.inRange.dialled⟩)
    · refine Prog.Ensures.op (fun c r s₃ hx => ?_)
      obtain rfl := request_state hx
      cases r with
      | error err => exact (hclose _).mono (fun _ _ h => .inl h)
      | ok u =>
        refine (declareTopology_ensures _ topology _).bind (fun res s₄ h₄ => ?_)
        subst h₄
        cases res with
        | some err => exact (hclose _).mono (fun _ _ h => .inl h)
        | none =>
          refine Prog.Ensures.op (fun c r s₅ hx => ?_)
          cases c <;>
            simp only [lockedExec, Option.some.injEq, Prod.mk.injEq, reduceCtorEq] at hx
          exact .ret (.inr ⟨rfl, hx.2.symm⟩)

/-! ## The critical sections -/

/-- Looking at the cached channel changes nothing and finds it if it is alive. -/
theorem liveChannel_ensures (s : State) :
    liveChannel.Ensures lockedExec s (fun r s' => s' = s ∧
      r = s.ch.filter (fun ch => !(s.chans[ch]?).all Channel.closed)) := by
  refine Prog.Ensures.op (fun c r s₁ hx => ?_)
  obtain ⟨rfl, rfl⟩ := fields_answer hx
  cases hch : s₁.ch with
  | none => exact .ret ⟨rfl, rfl⟩
  | some ch =>
    refine Prog.Ensures.op (fun c r s₂ hx => ?_)
    cases c <;> simp only [lockedExec, Option.some.injEq, Prod.mk.injEq, reduceCtorEq] at hx
    obtain ⟨rfl, rfl⟩ := hx
    refine .ret ⟨rfl, ?_⟩
    cases hclosed : (s₁.chans[ch]?).all Channel.closed with
    | true => simp [Option.filter, hclosed]
    | false => simp [Option.filter, hclosed]

/-- A critical section that ran to its end satisfies what it ensures. -/
theorem critical_post {α : Type} {p : Locked α} {post : α → State → Prop} {a : α}
    (hp : p.Ensures lockedExec s post) (h : critical p s chs = some (a, s')) : post a s' := by
  unfold critical at h
  split at h
  · next tr b t hf =>
    cases h
    exact hp _ _ (Prog.Steps.of_follow hf).returns
  · cases h

/-- The section of `getChannel` returns the cached channel, or redials. -/
theorem getChannelLocked_ensures (topology : Topology) (ctx : Nat) (h : Tidy s) :
    (getChannelLocked topology ctx).Ensures lockedExec s (fun _ s' =>
      s' = s ∨ ((∀ ch, s.ch = some ch → (s.chans[ch]?).all Channel.closed = true) ∧
        (Undone s.reset s' ∨ s' = s.reset.installed))) := by
  refine (liveChannel_ensures s).bind (fun res s₁ h₁ => ?_)
  obtain ⟨rfl, hlive⟩ := h₁
  cases res with
  | some ch => exact .ret (.inl rfl)
  | none =>
    refine (redial_ensures topology ctx h).mono (fun _ _ hpost => .inr ⟨fun ch hch => ?_, ?_⟩)
    · rw [hch] at hlive
      simpa [Option.filter] using hlive.symm
    · rcases hpost with ⟨_, _, hundone⟩ | ⟨_, hinst⟩
      · exact .inl hundone
      · exact .inr hinst

/-- The section of `resetIfCurrent` resets the channel it was called for, and
nothing else. -/
theorem resetIfCurrentLocked_ensures (s : State) (failed : Nat) :
    (resetIfCurrentLocked failed).Ensures lockedExec s
      (fun _ s' => s' = if s.ch = some failed then s.reset else s) := by
  refine Prog.Ensures.op (fun c r s₁ hx => ?_)
  obtain ⟨rfl, rfl⟩ := fields_answer hx
  show Prog.Ensures _ (if s₁.ch ≠ some failed then _ else _) _ _
  by_cases hch : s₁.ch = some failed
  · rw [if_neg (not_not_intro hch), if_pos hch]
    exact resetLocked_ensures s₁
  · rw [if_pos hch, if_neg hch]
    exact .ret rfl

/-- A new pair is taken over only where none was held. -/
theorem Vacant.installed (h : Vacant s) : Tidy s.installed := by
  refine ⟨.inr ⟨_, _, ⟨s.conns.length, false⟩, rfl, rfl, ?_, rfl⟩, ?_, ?_⟩
  · exact List.getElem?_concat_length
  · exact h.released.dialled rfl
  · exact h.inRange.opened.congr rfl rfl rfl

/-! ## Every run -/

/-- Confirmations that are amended stay on their channels. -/
theorem Tidy.amend (h : Tidy s) (m : Nat) {f : Confirmation → Confirmation}
    (hf : ∀ c, (f c).chan = c.chan) : Tidy (s.amend m f) := by
  refine ⟨h.paired, h.kept.congr rfl, h.inRange.chans, fun c hc => ?_⟩
  obtain ⟨k, hk⟩ := List.mem_iff_getElem?.mp hc
  rw [State.amend, List.getElem?_modify] at hk
  obtain ⟨d, hd, rfl⟩ := Option.map_eq_some_iff.mp hk
  have := h.inRange.confirmations d (List.mem_of_getElem? hd)
  split
  · rw [hf]
    exact this
  · exact this

/-- **Every operation keeps the books.** -/
theorem exec_tidy {topology : Topology} {o : Op} {r : o.Res} (h : Tidy s)
    (hx : exec topology s o chs = some (r, s')) : Tidy s' := by
  cases o with
  | liveChannel =>
    rw [(critical_post (liveChannel_ensures s) hx).1]
    exact h
  | getChannelLocked ctx =>
    rcases critical_post (getChannelLocked_ensures topology ctx h) hx with
      rfl | ⟨_, hundone | rfl⟩
    · exact h
    · exact hundone.vacant.tidy
    · exact h.reset.installed
  | resetIfCurrent failed =>
    rw [critical_post (resetIfCurrentLocked_ensures s failed) hx]
    split
    · exact h.reset.tidy
    · exact h
  | close =>
    rw [critical_post (resetLocked_ensures s) hx]
    exact h.reset.tidy
  | publish call ch routingKey body =>
    rcases publish_answer hx with ⟨_, _, rfl⟩ | ⟨_, hopen, rfl⟩
    · exact h
    · refine ⟨h.paired, h.kept.congr rfl, h.inRange.chans, fun c hc => ?_⟩
      rcases List.mem_append.mp hc with hc | hc
      · exact h.inRange.confirmations c hc
      · rw [List.mem_singleton.mp hc]
        -- the channel is there, since it is not closed
        by_contra hlt
        rw [List.getElem?_eq_none (Nat.not_lt.mp hlt)] at hopen
        cases hopen
  | wait confirmation ctx =>
    rw [(wait_answer hx).1]
    exact h

/-- So does everything that the broker does on its own. -/
theorem world_tidy {e : WorldEvent} (h : Tidy s) (hw : world e s = some s') : Tidy s' := by
  cases e with
  | answer m accepted =>
    simp only [world] at hw
    split at hw
    · split at hw
      · cases hw
        exact h.amend m (fun _ => rfl)
      · cases hw
    · cases hw
  | arrive m =>
    simp only [world] at hw
    split at hw
    · split at hw
      · cases hw
        exact h.amend m (fun _ => rfl)
      · cases hw
    · cases hw
  | cancel ctx =>
    cases hw
    exact ⟨h.paired, h.kept.congr rfl, h.inRange.congr rfl rfl rfl⟩
  | expire m =>
    cases hw
    exact h.amend m (fun _ => rfl)
  | channelDies ch =>
    cases hw
    exact h.closeWhere _ (fun _ => rfl)
  | connDies conn =>
    cases hw
    exact h.closeWhere _ (fun _ => rfl)
  | lateDial succeeds =>
    simp only [world] at hw
    split at hw
    · cases hw
    · cases hw
      cases succeeds with
      | false => exact ⟨h.paired, h.kept.congr rfl, h.inRange.congr rfl rfl rfl⟩
      | true =>
        -- a connection that nobody waits for any more is marked late, and closed by `closeLate`
        refine ⟨h.paired, fun conn x hx hlate => ?_, h.inRange.moreConns _ _⟩
        rcases getElem?_append_singleton hx with hold | ⟨_, rfl⟩
        · exact h.kept conn x hold hlate
        · cases hlate
  | closeLate conn =>
    simp only [world] at hw
    split at hw
    · split at hw
      · cases hw
        -- its channels go with it, so the pair the publisher holds is judged after that
        have hclosed := h.closeWhere (fun _ x => decide (x.conn = conn))
          (g := Confirmation.settle) (fun _ => rfl)
        refine ⟨hclosed.paired, fun k x hx hlate => ?_, h.inRange.closeConn conn⟩
        rw [closeConn_conns] at hx
        obtain ⟨y, hy, rfl⟩ := Option.map_eq_some_iff.mp hx
        split
        · exact .inr rfl
        · next hne =>
          rw [if_neg hne] at hlate
          exact h.kept k y hy hlate
      · cases hw
    · cases hw

/-- The bookkeeping is in order wherever a run gets. -/
theorem machine_tidy {topology : Topology} {es : List (Event (List Choice) Call WorldEvent)}
    {p : Pool Op Op.Res State Call (Option Err)}
    {Cond : Pool Op Op.Res State Call (Option Err) → Event (List Choice) Call WorldEvent → Prop}
    (h : (machine topology).Run Cond init es p) : Tidy p.state := by
  refine h.invariant (J := fun p => Tidy p.state) ?_ (fun p e p' hp _ hs => ?_)
  · refine ⟨.inl ⟨rfl, rfl⟩, fun conn x hx => ?_, fun ch x hx => ?_, fun c hc => ?_⟩
    · cases hx
    · cases hx
    · cases hc
  · rcases (machine topology).step_state hs with ⟨_, _, _, _, _, _, _, _, _, _, hx⟩ | hsame |
      ⟨c, hc⟩ | ⟨w, hw⟩
    · exact exec_tidy hp hx
    · rw [hsame]
      exact hp
    · cases c with
      | publish call ctx routingKey body =>
        simp only [machine, enter] at hc
        split at hc
        · cases hc
        · rw [← Option.some.inj hc]
          exact ⟨hp.paired, hp.kept.congr rfl, hp.inRange.congr rfl rfl rfl⟩
      | close =>
        rw [← Option.some.inj hc]
        exact hp
    · exact world_tidy hp hw

/-- For every interleaving of the critical sections, with every failure on the
dial path and channels and connections dying at any time: the two fields are
both nil or a channel with the connection it was opened on; a connection that
`getChannel` was given is the cached one or has been closed, and one that came
too late for it has been closed or is about to be, by the goroutine that waits
for it; and a reset for a channel that is no longer cached changes nothing. -/
theorem bookkeeping (topology : Topology) (es : List (Event (List Choice) Call WorldEvent))
    (p : Pool Op Op.Res State Call (Option Err))
    (h : (machine topology).Run (fun _ _ => True) init es p) :
    ((p.state.conn = none ∧ p.state.ch = none) ∨
        ∃ (conn ch : Nat) (x : Channel), p.state.conn = some conn ∧ p.state.ch = some ch ∧
          p.state.chans[ch]? = some x ∧ x.conn = conn) ∧
      (∀ (conn : Nat) (x : Connection), p.state.conns[conn]? = some x →
        if x.late then x.released = true ∨ ∃ s, world (.closeLate conn) p.state = some s ∧
          s.conns[conn]? = some { x with released := true }
        else p.state.conn = some conn ∨ x.released = true) ∧
      ∀ i chs c failed p', p.due? i = some (c, .resetIfCurrent failed) →
        p.state.ch ≠ some failed → (machine topology).step p (.run i chs) = some p' →
        p'.state = p.state := by
  have htidy := machine_tidy h
  refine ⟨htidy.paired, fun conn x hx => ?_, ?_⟩
  · cases hlate : x.late with
    | false => exact htidy.kept conn x hx hlate
    | true =>
      cases hrel : x.released with
      | true => exact .inl rfl
      | false =>
        refine .inr ⟨p.state.closeConn conn, ?_, ?_⟩
        · simp [world, hx, hlate, hrel]
        · rw [closeConn_conns, hx]
          simp [hlate]
  · intro i chs c failed p' hdue hne hs
    obtain ⟨th, o, k, r, s, hth, hend, hp, hx, rfl⟩ := (machine topology).step_run hs
    rw [Pool.due?_of_op hth hend hp, Option.some.injEq, Prod.mk.injEq] at hdue
    obtain ⟨_, rfl⟩ := hdue
    have hsame := critical_post (resetIfCurrentLocked_ensures p.state failed) hx
    rw [if_neg hne] at hsame
    exact hsame

/-- The exchange of the saga commands. -/
def sampleTopology : Topology := ⟨"saga", "", []⟩

/-- A first publish dials; its channel dies under a second one, and a third one
replaces it before the second one gets to reset it. -/
def replaced : List (Event (List Choice) Call WorldEvent) :=
  [.call (.publish 0 0 "k" []), .run 0 [.ok], .run 0 (List.replicate 8 .ok), .run 0 [.ok],
    .call (.publish 1 1 "k" []), .run 1 [.ok, .ok], .env (.channelDies 0), .run 1 [.ok],
    .call (.publish 2 2 "k" []), .run 2 [.ok, .ok], .run 2 (List.replicate 13 .ok)]

/-- A reset that comes too late leaves the new channel alone. -/
theorem bookkeeping_replaced :
    ∃ p p', (machine sampleTopology).Run (fun _ _ => True) init replaced p ∧
      p.due? 1 = some (.publish 1 1 "k" [], .resetIfCurrent 0) ∧ p.state.ch = some 1 ∧
      p.state.conns = [⟨false, true⟩, ⟨false, false⟩] ∧
      (machine sampleTopology).step p (.run 1 [.ok]) = some p' ∧ p'.state = p.state := by
  have hrun : ((machine sampleTopology).steps init replaced).any (fun p =>
      decide (p.due? 1 = some (.publish 1 1 "k" [], .resetIfCurrent 0)) &&
      decide (p.state.ch = some 1) &&
      decide (p.state.conns = [⟨false, true⟩, ⟨false, false⟩]) &&
      ((machine sampleTopology).step p (.run 1 [.ok])).isSome) = true := by
    decide
  obtain ⟨p, hp, hall⟩ := (Option.any_eq_true _ _).mp hrun
  simp only [Bool.and_eq_true, decide_eq_true_eq] at hall
  obtain ⟨⟨⟨hdue, hch⟩, hconns⟩, hstep⟩ := hall
  obtain ⟨p', hp'⟩ := Option.isSome_iff_exists.mp hstep
  have h := Machine.Run.of_steps_any (fun _ _ => trivial) hp
  obtain ⟨_, _, hstale⟩ := bookkeeping sampleTopology replaced p h
  exact ⟨p, p', h, hdue, hch, hconns, hp', hstale 1 _ _ 0 p' hdue (by rw [hch]; decide) hp'⟩

end ReleaseNotifier.Publisher
