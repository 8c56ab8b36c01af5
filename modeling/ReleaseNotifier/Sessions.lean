/-
What a consumer does with its connection, and with what it is handed.

The stages are those of the program, from the dial to the settlement of one delivery.
What a consumer knows depends on its stage (`Knows`), and it stays true because the
consumer is the only one that touches its own connection and channels (`Leaves`). So
a settlement always meets an outstanding delivery or a channel that is gone, and
whichever way a session ends its connection is closed.
-/
import ReleaseNotifier.Custody

set_option autoImplicit false

namespace ReleaseNotifier.Consuming

open Conc

/-! ## Whose connection it is -/

/-- The connection was dialled for this context, and arrived in time. -/
def Owns (s : State) (ctx conn : Nat) : Prop :=
  ∃ x, s.conns[conn]? = some x ∧ x.owner = ctx ∧ x.late = false

/-- The channel is on such a connection. -/
def Mine (s : State) (ctx ch : Nat) : Prop := ∃ y, s.chans[ch]? = some y ∧ Owns s ctx y.conn

theorem Owns.unique {s : State} {ctx ctx' conn : Nat} (h : Owns s ctx conn)
    (h' : Owns s ctx' conn) : ctx = ctx' := by
  obtain ⟨x, hx, hown, _⟩ := h
  obtain ⟨x', hx', hown', _⟩ := h'
  cases hx.symm.trans hx'
  exact hown.symm.trans hown'

/-- A channel belongs to one consumer. -/
theorem Mine.unique {s : State} {ctx ctx' ch : Nat} (h : Mine s ctx ch) (h' : Mine s ctx' ch) :
    ctx = ctx' := by
  obtain ⟨y, hy, hown⟩ := h
  obtain ⟨y', hy', hown'⟩ := h'
  cases hy.symm.trans hy'
  exact hown.unique hown'

/-- A step that leaves the connection of this context alone: the broker may close its
channels and deliver on them, nobody does anything else there. -/
structure Leaves (ctx : Nat) (s s' : State) : Prop where
  conns : ∀ (conn : Nat) x, x.owner = ctx → x.late = false →
    (s'.conns[conn]? = some x ↔ s.conns[conn]? = some x)
  chans : ∀ (ch : Nat) y, s.chans[ch]? = some y → Owns s ctx y.conn →
    ∃ y', s'.chans[ch]? = some y' ∧ y'.conn = y.conn ∧ y'.prefetch = y.prefetch
  unacked : ∀ d ∈ s.unacked, Mine s ctx d.ch → s'.isOpen d.ch = true → d ∈ s'.unacked
  closed : ∀ ch, ch < s.chans.length → s'.isOpen ch = true → s.isOpen ch = true
  cancelled : ∀ c ∈ s.cancelled, c ∈ s'.cancelled
  tags : s.tags ≤ s'.tags
  buffered : ∀ d, d.tag < s.tags → d ∈ s'.buffered → d ∈ s.buffered
  verdicts : ∀ x ∈ s.verdicts, x ∈ s'.verdicts
  judged : ∀ d v, Mine s ctx d.ch → (d, v) ∈ s'.verdicts → (d, v) ∈ s.verdicts

namespace Leaves

variable {ctx : Nat} {s s' s'' : State}

theorem refl (ctx : Nat) (s : State) : Leaves ctx s s where
  conns := fun _ _ _ _ => Iff.rfl
  chans := fun _ y hy _ => ⟨y, hy, rfl, rfl⟩
  unacked := fun _ hd _ _ => hd
  closed := fun _ _ h => h
  cancelled := fun _ h => h
  tags := Nat.le_refl _
  buffered := fun _ _ h => h
  verdicts := fun _ h => h
  judged := fun _ _ _ h => h

theorem owns (h : Leaves ctx s s') {conn : Nat} (hown : Owns s ctx conn) : Owns s' ctx conn := by
  obtain ⟨x, hx, howner, hlate⟩ := hown
  exact ⟨x, (h.conns conn x howner hlate).mpr hx, howner, hlate⟩

theorem mine (h : Leaves ctx s s') {ch : Nat} (hmine : Mine s ctx ch) : Mine s' ctx ch := by
  obtain ⟨y, hy, hown⟩ := hmine
  obtain ⟨y', hy', hconn, _⟩ := h.chans ch y hy hown
  exact ⟨y', hy', by rw [hconn]; exact h.owns hown⟩

/-- What one step leaves alone and the next one too. -/
theorem trans (h : Leaves ctx s s') (h' : Leaves ctx s' s'')
    (hlen : s.chans.length ≤ s'.chans.length) : Leaves ctx s s'' where
  conns := fun conn x ho hl => (h'.conns conn x ho hl).trans (h.conns conn x ho hl)
  chans := fun ch y hy hown => by
    obtain ⟨y', hy', hconn, hpre⟩ := h.chans ch y hy hown
    obtain ⟨y'', hy'', hconn', hpre'⟩ := h'.chans ch y' hy' (by rw [hconn]; exact h.owns hown)
    exact ⟨y'', hy'', hconn'.trans hconn, hpre'.trans hpre⟩
  unacked := fun d hd hmine hopen => by
    have hmine' := h.mine hmine
    obtain ⟨y, hy, _⟩ := hmine'
    have hopen' := h'.closed d.ch (List.getElem?_eq_some_iff.mp hy).1 hopen
    exact h'.unacked d (h.unacked d hd hmine hopen') (h.mine hmine) hopen
  closed := fun ch hlt hopen => h.closed ch hlt (h'.closed ch (Nat.lt_of_lt_of_le hlt hlen) hopen)
  cancelled := fun c hc => h'.cancelled c (h.cancelled c hc)
  tags := Nat.le_trans h.tags h'.tags
  buffered := fun d hlt hd =>
    h.buffered d hlt (h'.buffered d (Nat.lt_of_lt_of_le hlt h.tags) hd)
  verdicts := fun x hx => h'.verdicts x (h.verdicts x hx)
  judged := fun d v hmine hv => h.judged d v hmine (h'.judged d v (h.mine hmine) hv)

/-- The broker may close any channel. -/
theorem closeWhere (ctx : Nat) (s : State) (f : Nat → Channel → Bool) :
    Leaves ctx s (s.closeWhere f) :=
  { refl ctx s with
    chans := fun ch y hy _ => by
      rw [closeWhere_chans, hy]
      refine ⟨_, rfl, ?_⟩
      dsimp only
      split
      · exact ⟨rfl, rfl⟩
      · exact ⟨rfl, rfl⟩
    unacked := fun d hd _ hopen => by
      rw [isOpen_closeWhere, Bool.and_eq_true, Bool.not_eq_true'] at hopen
      exact mem_unacked_closeWhere.mpr ⟨hd, hopen.2⟩
    closed := fun ch _ hopen => by
      rw [isOpen_closeWhere, Bool.and_eq_true] at hopen
      exact hopen.1 }

/-- Giving up somebody else's connection. -/
theorem release {conn : Nat} (hown : ¬ Owns s ctx conn) : Leaves ctx s (s.release conn) :=
  { refl ctx s with
    conns := fun k x ho hl => by
      rw [release_conns]
      by_cases hk : conn = k
      · subst hk
        refine ⟨fun h => ?_, fun h => absurd ⟨x, h, ho, hl⟩ hown⟩
        obtain ⟨y, hy, rfl⟩ := Option.map_eq_some_iff.mp h
        rw [if_pos rfl] at ho hl
        exact absurd ⟨y, hy, ho, hl⟩ hown
      · rw [show (fun x : Connection => if conn = k then { x with released := true } else x) = id
          from funext fun x => if_neg hk, Option.map_id]
        rfl }

/-- Somebody else's connection, or one that was given up. -/
theorem newConn {new : Connection} (hnew : new.owner ≠ ctx ∨ new.late = true)
    (abandoned : List Nat) :
    Leaves ctx s { s with conns := s.conns ++ [new], abandoned := abandoned } :=
  { refl ctx s with
    conns := fun k x ho hl => by
      refine ⟨fun h => ?_, fun h => ?_⟩
      · rcases getElem?_append_singleton h with hold | ⟨_, rfl⟩
        · exact hold
        · rcases hnew with hne | hlate
          · exact absurd ho hne
          · rw [hl] at hlate
            cases hlate
      · exact (List.getElem?_append_left (List.getElem?_eq_some_iff.mp h).1).trans h }

theorem opened (new : Channel) : Leaves ctx s { s with chans := s.chans ++ [new] } :=
  { refl ctx s with
    chans := fun ch y hy _ =>
      ⟨y, (List.getElem?_append_left (List.getElem?_eq_some_iff.mp hy).1).trans hy, rfl, rfl⟩
    unacked := fun _ hd _ _ => hd
    closed := fun ch hlt hopen => by
      rw [isOpen_append hlt] at hopen
      exact hopen }

/-- Setting up somebody else's channel. -/
theorem amend {ch : Nat} {f : Channel → Channel} (hclosed : ∀ x, (f x).closed = x.closed)
    (hmine : ¬ Mine s ctx ch) : Leaves ctx s (s.amend ch f) :=
  { refl ctx s with
    chans := fun k y hy hown => by
      have hk : ch ≠ k := by
        rintro rfl
        exact hmine ⟨y, hy, hown⟩
      refine ⟨y, ?_, rfl, rfl⟩
      rw [State.amend, List.getElem?_modify, hy]
      simp [hk]
    unacked := fun _ hd _ _ => hd
    closed := fun k _ hopen => by
      rw [isOpen_amend hclosed] at hopen
      exact hopen }

theorem receive (d : Delivery) : Leaves ctx s { s with buffered := s.buffered.erase d } :=
  { refl ctx s with buffered := fun _ _ h => List.mem_of_mem_erase h }

/-- Somebody else's verdict. -/
theorem judge {d : Delivery} (hmine : ¬ Mine s ctx d.ch) (v : Verdict) :
    Leaves ctx s { s with verdicts := (d, v) :: s.verdicts } :=
  { refl ctx s with
    verdicts := fun _ h => List.mem_cons_of_mem _ h
    judged := fun d' v' hmine' hv' => by
      rcases List.mem_cons.mp hv' with heq | hv'
      · cases heq
        exact absurd hmine' hmine
      · exact hv' }

/-- Somebody else's settlement, even one that closes its channel. -/
theorem settle {d : Delivery} (hmine : ¬ Mine s ctx d.ch) (how : Settlement) :
    Leaves ctx s (s.settle d how) := by
  unfold State.settle
  split
  · split
    · exact { refl ctx s with
        unacked := fun d' hd' hmine' _ => by
          refine (List.mem_erase_of_ne ?_).mpr hd'
          rintro rfl
          exact hmine hmine' }
    · exact { closeWhere ctx s _ with }
  · exact refl ctx s

/-- A delivery is added under a tag that nobody has seen. -/
theorem deliver (ctx : Nat) (s : State) (ch : Nat) (message : Message) :
    Leaves ctx s (s.deliver ch message) :=
  { refl ctx s with
    unacked := fun d hd _ _ => List.mem_append_left _ hd
    tags := Nat.le_succ _
    buffered := fun d hlt hd => by
      rcases List.mem_append.mp hd with hd | hd
      · exact hd
      · rw [List.mem_singleton.mp hd] at hlt
        exact absurd hlt (Nat.lt_irrefl _) }

end Leaves

/-! ## The stages of a session -/

/-- How far a consumer has come. `limited` says that its prefetch is set, `stopped` that
the context has been seen done. -/
inductive Stage
  | idle
  | stopped
  | dialled (conn : Nat)
  | opened (conn ch : Nat) (limited : Bool)
  | holding (conn ch : Nat) (d : Delivery)
  | judged (conn ch : Nat) (d : Delivery) (v : Verdict)

namespace Stage

def conn? : Stage → Option Nat
  | .idle => none
  | .stopped => none
  | .dialled conn => some conn
  | .opened conn _ _ => some conn
  | .holding conn _ _ => some conn
  | .judged conn _ _ _ => some conn

def chan? : Stage → Option Nat
  | .opened _ ch _ => some ch
  | .holding _ ch _ => some ch
  | .judged _ ch _ _ => some ch
  | _ => none

def limited : Stage → Bool
  | .opened _ _ limited => limited
  | _ => true

def held? : Stage → Option Delivery
  | .holding _ _ d => some d
  | .judged _ _ d _ => some d
  | _ => none

def verdict? : Stage → Option Verdict
  | .judged _ _ _ v => some v
  | _ => none

end Stage

/-- What a consumer calls at each stage. -/
inductive Allows (cfg : ConsumerConfig) (ctx : Nat) : Stage → Op → Prop
  | log (q : Stage) (event : String) : Allows cfg ctx q (.log event)
  | ctxErr : Allows cfg ctx .idle (.ctxErr ctx)
  | sleep : Allows cfg ctx .idle (.sleep ctx)
  | dial : Allows cfg ctx .idle (.dial ctx)
  | openChannel (conn : Nat) : Allows cfg ctx (.dialled conn) (.openChannel conn)
  | closeConn (conn : Nat) : Allows cfg ctx (.dialled conn) (.closeConn conn)
  | declare (conn ch : Nat) (o : Messaging.DeclareOp) :
      Allows cfg ctx (.opened conn ch false) (.declare ch o)
  | qos (conn ch : Nat) : Allows cfg ctx (.opened conn ch false) (.qos ch cfg.effective)
  | consume (conn ch : Nat) (queue : String) :
      Allows cfg ctx (.opened conn ch true) (.consume ch queue)
  | select (conn ch : Nat) : Allows cfg ctx (.opened conn ch true) (.select ctx ch)
  | closeChannel (conn ch : Nat) (limited : Bool) :
      Allows cfg ctx (.opened conn ch limited) (.closeChannel ch)
  | handle (conn ch : Nat) (d : Delivery) : Allows cfg ctx (.holding conn ch d) (.handle ctx d)
  | settle (conn ch : Nat) (d : Delivery) (v : Verdict) :
      Allows cfg ctx (.judged conn ch d v) (.settle d v.settlement)

/-- Where the answer leads. -/
def Stage.next : Stage → (o : Op) → o.Res → Stage
  | .idle, .ctxErr _, true => .stopped
  | .idle, .sleep _, false => .stopped
  | .idle, .dial _, .ok conn => .dialled conn
  | .dialled conn, .openChannel _, .ok ch => .opened conn ch false
  | .dialled _, .closeConn _, _ => .idle
  | .opened conn ch _, .qos _ _, .ok _ => .opened conn ch true
  | .opened conn ch _, .select _ _, .delivery (some d) => .holding conn ch d
  | .opened conn _ _, .closeChannel _, _ => .dialled conn
  | .holding conn ch d, .handle _ _, v => .judged conn ch d v
  | .judged conn ch _ _, .settle _ _, _ => .opened conn ch true
  | q, _, _ => q

def session (cfg : ConsumerConfig) (ctx : Nat) : Protocol Op Op.Res Stage where
  allows := Allows cfg ctx
  next := Stage.next

section Obeys

variable (cfg : ConsumerConfig) (ctx : Nat)

/-- Every verdict is followed by its settlement, an unknown one by a log line too. -/
theorem settle_obeys (conn ch : Nat) (d : Delivery) :
    (settle ctx d).Obeys (session cfg ctx) (fun _ q => q = .opened conn ch true)
      (.holding conn ch d) := by
  refine ⟨.handle conn ch d, fun v => ?_⟩
  have hlast : ∀ r, (reported r).Obeys (session cfg ctx) (fun _ q => q = .opened conn ch true)
      (.opened conn ch true) := by
    intro r
    cases r with
    | error err => exact ⟨.log _ _, fun _ => rfl⟩
    | ok u => rfl
  rcases v with ⟨_ | _ | _⟩ | n
  · exact ⟨.settle conn ch d (.known .ack), hlast⟩
  · exact ⟨.settle conn ch d (.known .drop), hlast⟩
  · exact ⟨.settle conn ch d (.known .requeue), hlast⟩
  · exact ⟨.log _ _, fun _ => ⟨.settle conn ch d (.unknown n), hlast⟩⟩

/-- A function that returns leaves its consumer at a stage; one that has not been
followed to its end may be anywhere. -/
def EndsIn (P : Stage → Prop) (ended : Ended) (q : Stage) : Prop :=
  ∀ err, ended = .returned err → P q

/-- The loop over deliveries holds one at a time. -/
theorem pump_obeys (conn ch rounds : Nat) :
    (pump ctx ch rounds).Obeys (session cfg ctx) (EndsIn (fun q => q = .opened conn ch true))
      (.opened conn ch true) := by
  induction rounds with
  | zero => exact fun _ h => by cases h
  | succ rounds ih =>
    refine ⟨.select conn ch, fun r => ?_⟩
    rcases r with _ | (_ | err) | (_ | d)
    · exact fun _ _ => rfl
    · exact fun _ _ => rfl
    · exact fun _ _ => rfl
    · exact fun _ _ => rfl
    · exact (settle_obeys cfg ctx conn ch d).bind (fun _ q hq => by rw [hq]; exact ih)

/-- A deferred `Close` is called at the stage the function returns in. -/
theorem deferring_obeys {P Q : Stage → Prop} {close : Session (Except Err Unit)}
    {body : Session Ended} {q : Stage} (hbody : body.Obeys (session cfg ctx) (EndsIn P) q)
    (hclose : ∀ q, P q → close.Obeys (session cfg ctx) (fun _ q => Q q) q) :
    (deferring close body).Obeys (session cfg ctx) (EndsIn Q) q := by
  refine hbody.bind (fun ended q' hq' => ?_)
  cases ended with
  | unfinished => exact fun _ h => by cases h
  | returned err => exact (hclose q' (hq' err rfl)).bind (fun _ _ hq _ _ => hq)

theorem declareTopology_obeys (conn ch : Nat) (topology : Publisher.Topology) :
    ((Messaging.declareTopology topology).interpret
      (fun o => perform (.declare ch o))).Obeys (session cfg ctx)
        (fun _ q => q = .opened conn ch false) (.opened conn ch false) := by
  -- whatever is declared, the stage stays
  generalize Messaging.declareTopology topology = p
  induction p with
  | ret a => exact rfl
  | op o k ih => exact ⟨.declare conn ch o, ih⟩

/-- The prefetch is set before the queue is consumed. -/
theorem onChannel_obeys (conn ch rounds : Nat) :
    (onChannel cfg ctx ch rounds).Obeys (session cfg ctx)
      (EndsIn (fun q => ∃ limited, q = .opened conn ch limited)) (.opened conn ch false) := by
  refine (declareTopology_obeys cfg ctx conn ch cfg.topology).bind (fun err q hq => ?_)
  subst hq
  cases err with
  | some err => exact fun _ _ => ⟨false, rfl⟩
  | none =>
    refine ⟨.qos conn ch, fun r => ?_⟩
    cases r with
    | error err => exact fun _ _ => ⟨false, rfl⟩
    | ok u =>
      refine ⟨.consume conn ch _, fun r => ?_⟩
      cases r with
      | error err => exact fun _ _ => ⟨true, rfl⟩
      | ok u =>
        refine ⟨.log _ _, fun _ => ?_⟩
        exact (pump_obeys cfg ctx conn ch rounds).mono
          (fun ended q hq err herr => ⟨true, hq err herr⟩)

/-- A session closes its channel and its connection on every path. -/
theorem consumeSession_obeys (rounds : Nat) :
    (consumeSession cfg ctx rounds).Obeys (session cfg ctx) (EndsIn (fun q => q = .idle))
      .idle := by
  refine ⟨.dial, fun r => ?_⟩
  cases r with
  | error err => exact fun _ _ => rfl
  | ok conn =>
    refine deferring_obeys cfg ctx (P := fun q => q = .dialled conn) ?_ (fun q hq => ?_)
    · refine ⟨.openChannel conn, fun r => ?_⟩
      cases r with
      | error err => exact fun _ _ => rfl
      | ok ch =>
        refine deferring_obeys cfg ctx (onChannel_obeys cfg ctx conn ch rounds) (fun q hq => ?_)
        obtain ⟨limited, rfl⟩ := hq
        exact ⟨.closeChannel conn ch limited, fun _ => rfl⟩
    · subst hq
      exact ⟨.closeConn conn, fun _ => rfl⟩

/-- Only a context that is done ends the loop. -/
theorem reconnecting_obeys (rounds sessions : Nat) :
    (reconnecting cfg ctx rounds sessions).Obeys (session cfg ctx)
      (fun ended q => ∀ err, ended = .returned err → err = none ∧ q = .stopped) .idle := by
  induction sessions with
  | zero => exact fun _ h => by cases h
  | succ sessions ih =>
    refine ⟨.ctxErr, fun done => ?_⟩
    cases done with
    | true => exact fun err h => by cases h; exact ⟨rfl, rfl⟩
    | false =>
      refine (consumeSession_obeys cfg ctx rounds).bind (fun ended q hq => ?_)
      rcases ended with (_ | err) | _
      · rw [hq none rfl]
        exact ih
      · rw [hq _ rfl]
        refine ⟨.log _ _, fun _ => ⟨.sleep, fun woken => ?_⟩⟩
        cases woken with
        | true => exact ih
        | false => exact fun err h => by cases h; exact ⟨rfl, rfl⟩
      · exact fun _ h => by cases h

/-- How `RunConsumer` returns: with an error for a configuration it cannot work with,
or with nil once the context is done. -/
def Returns (c : Call) (ended : Ended) (q : Stage) : Prop :=
  ∀ err, ended = .returned err →
    (err = none ∧ q = .stopped) ∨
      ((c.nilHandler = true ∨ cfg.url = "" ∨ cfg.topology.queue = "") ∧ err ≠ none ∧ q = .idle)

/-- A consumer keeps to the stages, and has no connection open when it returns. -/
theorem program_obeys (c : Call) :
    ((machine cfg).program c).Obeys (session cfg c.ctx) (Returns cfg c) .idle := by
  change Prog.Obeys _ _ (runConsumer cfg c.nilHandler c.ctx c.rounds c.sessions) _
  unfold runConsumer
  split
  · next hnil => exact fun err h => by cases h; exact .inr ⟨.inl hnil, by simp, rfl⟩
  · split
    · next hcfg => exact fun err h => by cases h; exact .inr ⟨.inr hcfg, by simp, rfl⟩
    · exact (reconnecting_obeys cfg c.ctx c.rounds c.sessions).mono
        (fun ended q h err herr => .inl (h err herr))

end Obeys

/-! ## What a consumer knows -/

/-- At each stage: which connection is open, what the broker was told about the
channel, and that the delivery in hand is still outstanding there. -/
structure Knows (cfg : ConsumerConfig) (ctx : Nat) (q : Stage) (s : State) : Prop where
  released : ∀ (conn : Nat) x, s.conns[conn]? = some x → x.owner = ctx → x.late = false →
    q.conn? = some conn ∨ x.released = true
  conn : ∀ conn, q.conn? = some conn → Owns s ctx conn
  chan : ∀ ch, q.chan? = some ch → ∃ y, s.chans[ch]? = some y ∧ q.conn? = some y.conn ∧
    (q.limited = true → y.prefetch = cfg.limit)
  held : ∀ d, q.held? = some d → q.chan? = some d.ch ∧ d.tag < s.tags ∧ d ∉ s.buffered ∧
    (s.isOpen d.ch = true → d ∈ s.unacked)
  unasked : ∀ d, q.held? = some d → q.verdict? = none → ∀ v, (d, v) ∉ s.verdicts
  answered : ∀ d v, q.held? = some d → q.verdict? = some v → (d, v) ∈ s.verdicts
  stopped : q = .stopped → ctx ∈ s.cancelled

namespace Knows

variable {cfg : ConsumerConfig} {ctx ctx' : Nat} {q : Stage} {s s' : State}

theorem mine (h : Knows cfg ctx q s) {ch : Nat} (hch : q.chan? = some ch) : Mine s ctx ch := by
  obtain ⟨y, hy, hconn, _⟩ := h.chan ch hch
  exact ⟨y, hy, h.conn _ hconn⟩

/-- What a consumer knows does not depend on the others. -/
theorem stable (h : Knows cfg ctx q s) (hl : Leaves ctx s s') : Knows cfg ctx q s' where
  released := fun conn x hx ho hlate => h.released conn x ((hl.conns conn x ho hlate).mp hx) ho hlate
  conn := fun conn hconn => hl.owns (h.conn conn hconn)
  chan := fun ch hch => by
    obtain ⟨y, hy, hconn, hlim⟩ := h.chan ch hch
    obtain ⟨y', hy', hconn', hpre⟩ := hl.chans ch y hy (h.conn _ hconn)
    exact ⟨y', hy', by rw [hconn']; exact hconn, fun hq => hpre.trans (hlim hq)⟩
  held := fun d hd => by
    obtain ⟨hch, htag, hout, hun⟩ := h.held d hd
    have hmine := h.mine hch
    obtain ⟨y, hy, _⟩ := hmine
    refine ⟨hch, Nat.lt_of_lt_of_le htag hl.tags, fun hbuf => hout (hl.buffered d htag hbuf),
      fun hopen => ?_⟩
    have hopen' := hl.closed d.ch (List.getElem?_eq_some_iff.mp hy).1 hopen
    exact hl.unacked d (hun hopen') (h.mine hch) hopen
  unasked := fun d hd hv v hmem =>
    h.unasked d hd hv v (hl.judged d v (h.mine (h.held d hd).1) hmem)
  answered := fun d v hd hv => hl.verdicts _ (h.answered d v hd hv)
  stopped := fun hq => hl.cancelled _ (h.stopped hq)

/-- Nothing is known before the first dial. -/
theorem idle (h : ∀ (conn : Nat) x, s.conns[conn]? = some x → x.owner = ctx → x.late = false →
    x.released = true) : Knows cfg ctx .idle s where
  released := fun conn x hx ho hl => .inr (h conn x hx ho hl)
  conn := fun _ h => by cases h
  chan := fun _ h => by cases h
  held := fun _ h => by cases h
  unasked := fun _ h => by cases h
  answered := fun _ _ h => by cases h
  stopped := fun h => by cases h

/-- The context has been seen done. -/
theorem stop (h : Knows cfg ctx .idle s) (hdone : ctx ∈ s.cancelled) : Knows cfg ctx .stopped s :=
  { h with stopped := fun _ => hdone }

/-- With a connection in hand. -/
theorem dialled {conn : Nat} (hrel : ∀ (k : Nat) x, s.conns[k]? = some x → x.owner = ctx →
      x.late = false → k = conn ∨ x.released = true) (hown : Owns s ctx conn) :
    Knows cfg ctx (.dialled conn) s where
  released := fun k x hx ho hl => (hrel k x hx ho hl).imp_left (fun h => congrArg some h.symm)
  conn := fun k hk => by
    cases hk
    exact hown
  chan := fun _ h => by cases h
  held := fun _ h => by cases h
  unasked := fun _ h => by cases h
  answered := fun _ _ h => by cases h
  stopped := fun h => by cases h

variable {conn ch : Nat}

/-- With a channel on it. -/
theorem opened {limited : Bool} {y : Channel} (h : Knows cfg ctx (.dialled conn) s)
    (hy : s.chans[ch]? = some y) (hconn : y.conn = conn)
    (hlim : limited = true → y.prefetch = cfg.limit) : Knows cfg ctx (.opened conn ch limited) s :=
  { h with
    chan := fun k hk => by
      cases hk
      exact ⟨y, hy, congrArg some hconn.symm, hlim⟩
    held := fun _ h => by cases h
    stopped := fun h => by cases h }

/-- Whoever has a connection knows at least that. -/
theorem toDialled {conn : Nat} (h : Knows cfg ctx q s) (hq : q.conn? = some conn) :
    Knows cfg ctx (.dialled conn) s :=
  dialled (fun k x hx ho hl => (h.released k x hx ho hl).imp_left
    (fun heq => Option.some.inj (heq.symm.trans hq))) (h.conn conn hq)

/-- The connection is closed, and with it the last one. -/
theorem closeConn {conn : Nat} (h : Knows cfg ctx (.dialled conn) s) (hs : s'.conns = s.conns) :
    Knows cfg ctx .idle (s'.release conn) := by
  refine idle (fun k x hx ho hl => ?_)
  rw [release_conns, hs] at hx
  obtain ⟨y, hy, rfl⟩ := Option.map_eq_some_iff.mp hx
  by_cases hk : conn = k
  · rw [if_pos hk]
  · rw [if_neg hk] at ho hl ⊢
    rcases h.released k y hy ho hl with heq | hrel
    · exact absurd (Option.some.inj heq) hk
    · exact hrel

/-- A limit or a consumer is set on the channel in hand. -/
theorem amend {b b' : Bool} {f : Channel → Channel} (h : Knows cfg ctx (.opened conn ch b) s)
    (hconn : ∀ x, (f x).conn = x.conn)
    (hlim : b' = true → ∀ x, s.chans[ch]? = some x → (f x).prefetch = cfg.limit) :
    Knows cfg ctx (.opened conn ch b') (s.amend ch f) := by
  obtain ⟨y, hy, hyconn, _⟩ := h.chan ch rfl
  have hd : Knows cfg ctx (.dialled conn) (s.amend ch f) :=
    { h.toDialled rfl with
      chan := fun _ h => by cases h
      held := fun _ h => by cases h }
  refine hd.opened (y := f y) ?_ ?_ (fun hb => hlim hb y hy)
  · rw [State.amend, List.getElem?_modify, hy]
    simp
  · rw [hconn]
    exact (Option.some.inj hyconn).symm

/-- A delivery is in hand. -/
theorem receive {d : Delivery} (h : Knows cfg ctx (.opened conn ch true) s) (hc : Custody cfg s)
    (hd : d ∈ s.buffered) (hch : d.ch = ch) :
    Knows cfg ctx (.holding conn ch d) { s with buffered := s.buffered.erase d } :=
  { h with
    held := fun d' hd' => by
      cases hd'
      refine ⟨congrArg some hch.symm, (hc.tagged d (.inr (.inl hd))).1,
        hc.distinct.2.not_mem_erase, hc.outstanding d hd⟩
    unasked := fun d' hd' _ v => by
      cases hd'
      exact hc.unjudged d hd v
    answered := fun _ _ _ hv => by cases hv
    stopped := fun h => by cases h }

/-- The handler has answered. -/
theorem judge {d : Delivery} (h : Knows cfg ctx (.holding conn ch d) s) (v : Verdict) :
    Knows cfg ctx (.judged conn ch d v) { s with verdicts := (d, v) :: s.verdicts } :=
  { h with
    unasked := fun _ _ hv => by cases hv
    answered := fun d' v' hd' hv' => by
      cases hd'
      cases hv'
      exact List.mem_cons_self
    stopped := fun h => by cases h }

/-- The delivery is settled. -/
theorem settle {d : Delivery} {v : Verdict} (h : Knows cfg ctx (.judged conn ch d v) s)
    (how : Settlement) : Knows cfg ctx (.opened conn ch true) (s.settle d how) := by
  obtain ⟨y, hy, hyconn, hlim⟩ := h.chan ch rfl
  have hsame : (s.settle d how).conns = s.conns ∧ (s.settle d how).chans = s.chans := by
    unfold State.settle
    split
    · next hopen =>
      rw [if_pos ((h.held d rfl).2.2.2 hopen)]
      exact ⟨rfl, rfl⟩
    · exact ⟨rfl, rfl⟩
  have hd : Knows cfg ctx (.dialled conn) (s.settle d how) := by
    refine dialled (fun k x hx ho hl => ?_) ?_
    · rw [hsame.1] at hx
      exact (h.released k x hx ho hl).imp_left (fun heq => (Option.some.inj heq).symm)
    · obtain ⟨x, hx, hown⟩ := h.conn conn rfl
      exact ⟨x, by rw [hsame.1]; exact hx, hown⟩
  exact hd.opened (by rw [hsame.2]; exact hy) (Option.some.inj hyconn).symm hlim

end Knows

/-! ## One call of the library -/

section Steps

variable {cfg : ConsumerConfig} {ctx : Nat} {q : Stage} {s s' : State} {o : Op} {r : o.Res}
variable {turn : Turn}

/-- The calls that tell the broker nothing. -/
theorem silent_answer (ho : (∃ c, o = .ctxErr c) ∨ (∃ c, o = .sleep c) ∨ ∃ event, o = .log event)
    (hx : exec s o turn = some (r, s')) : s' = s := by
  rcases ho with ⟨c, rfl⟩ | ⟨c, rfl⟩ | ⟨event, rfl⟩
  · cases turn <;> simp only [exec, Option.some.injEq, Prod.mk.injEq, reduceCtorEq] at hx
    exact hx.2.symm
  · cases turn <;> simp only [exec, Option.some.injEq, Prod.mk.injEq, reduceCtorEq] at hx
    · exact hx.2.symm
    · split at hx <;> cases hx
      rfl
  · cases turn <;> simp only [exec, Option.some.injEq, Prod.mk.injEq, reduceCtorEq] at hx
    exact hx.2.symm

/-- The queue is in order after any call of a consumer that knows what it should. -/
theorem exec_custody (h : Custody cfg s) (hk : Knows cfg ctx q s) (ha : Allows cfg ctx q o)
    (hx : exec s o turn = some (r, s')) : Custody cfg s' := by
  cases ha with
  | log q event => rw [silent_answer (.inr (.inr ⟨_, rfl⟩)) hx]; exact h
  | ctxErr => rw [silent_answer (.inl ⟨_, rfl⟩) hx]; exact h
  | sleep => rw [silent_answer (.inr (.inl ⟨_, rfl⟩)) hx]; exact h
  | dial =>
    rcases dial_answer hx with ⟨_, _, _, rfl⟩ | ⟨_, rfl⟩
    · exact h.withConns _ _ _ (Nat.le_refl _)
    · exact h.withConns _ _ _ (by simp)
  | openChannel conn =>
    rcases openChannel_answer hx with ⟨rfl, _⟩ | ⟨_, rfl⟩
    · exact h
    · obtain ⟨x, hconn, _⟩ := hk.conn conn rfl
      exact h.opened (List.getElem?_eq_some_iff.mp hconn).1
  | closeConn conn =>
    rcases closeConn_answer hx with rfl | rfl
    · exact h.release conn
    · exact (h.closeWhere _).release conn
  | declare conn ch o =>
    rcases request_answer hx with ⟨rfl, _⟩ | rfl
    · exact h
    · exact h
  | qos conn ch =>
    rcases request_answer hx with ⟨rfl, _⟩ | rfl
    · exact h
    · exact h.amend (fun _ => rfl) (fun _ => rfl) (fun _ _ _ => rfl)
  | consume conn ch queue =>
    rcases request_answer hx with ⟨rfl, _⟩ | rfl
    · exact h
    · refine h.amend (fun _ => rfl) (fun _ => rfl) (fun x hx _ => ?_)
      obtain ⟨y, hy, _, hlim⟩ := hk.chan ch rfl
      cases hx.symm.trans hy
      exact hlim rfl
  | select conn ch =>
    rcases select_answer hx with ⟨rfl, _⟩ | ⟨d, _, _, _, rfl⟩
    · exact h
    · exact h.receive d
  | closeChannel conn ch limited =>
    rcases request_answer hx with ⟨rfl, _⟩ | rfl
    · exact h
    · exact h.closeWhere _
  | handle conn ch d =>
    obtain rfl := handle_answer hx
    obtain ⟨hch, htag, hout, _⟩ := hk.held d rfl
    obtain ⟨y, hy, _⟩ := hk.mine hch
    exact h.judge r htag (List.getElem?_eq_some_iff.mp hy).1 hout (hk.unasked d rfl rfl)
  | settle conn ch d v =>
    obtain ⟨_, _, hout, hun⟩ := hk.held d rfl
    rcases settle_answer hx with rfl | rfl
    · exact h
    · exact h.settle hun hout (hk.answered d v rfl rfl)

/-- It does not touch what belongs to another consumer. -/
theorem exec_leaves {ctx' : Nat} (hne : ctx' ≠ ctx) (hk : Knows cfg ctx q s)
    (ha : Allows cfg ctx q o) (hx : exec s o turn = some (r, s')) : Leaves ctx' s s' := by
  have hother : ∀ {ch}, q.chan? = some ch → ¬ Mine s ctx' ch :=
    fun hch hmine => hne (hmine.unique (hk.mine hch))
  cases ha with
  | log q event => rw [silent_answer (.inr (.inr ⟨_, rfl⟩)) hx]; exact .refl _ _
  | ctxErr => rw [silent_answer (.inl ⟨_, rfl⟩) hx]; exact .refl _ _
  | sleep => rw [silent_answer (.inr (.inl ⟨_, rfl⟩)) hx]; exact .refl _ _
  | dial =>
    rcases dial_answer hx with ⟨_, _, _, rfl⟩ | ⟨_, rfl⟩
    · exact { Leaves.refl ctx' s with }
    · exact .newConn (.inl (Ne.symm hne)) _
  | openChannel conn =>
    rcases openChannel_answer hx with ⟨rfl, _⟩ | ⟨_, rfl⟩
    · exact .refl _ _
    · exact .opened _
  | closeConn conn =>
    have hown : ¬ Owns s ctx' conn := fun hown => hne (hown.unique (hk.conn conn rfl))
    rcases closeConn_answer hx with rfl | rfl
    · exact .release hown
    · refine (Leaves.closeWhere ctx' s _).trans (.release hown) ?_
      exact Nat.le_of_eq List.length_mapIdx.symm
  | declare conn ch o =>
    rcases request_answer hx with ⟨rfl, _⟩ | rfl
    · exact .refl _ _
    · exact .refl _ _
  | qos conn ch =>
    rcases request_answer hx with ⟨rfl, _⟩ | rfl
    · exact .refl _ _
    · exact .amend (fun _ => rfl) (hother rfl)
  | consume conn ch queue =>
    rcases request_answer hx with ⟨rfl, _⟩ | rfl
    · exact .refl _ _
    · exact .amend (fun _ => rfl) (hother rfl)
  | select conn ch =>
    rcases select_answer hx with ⟨rfl, _⟩ | ⟨d, _, _, _, rfl⟩
    · exact .refl _ _
    · exact .receive d
  | closeChannel conn ch limited =>
    rcases request_answer hx with ⟨rfl, _⟩ | rfl
    · exact .refl _ _
    · exact .closeWhere _ _ _
  | handle conn ch d =>
    obtain rfl := handle_answer hx
    exact .judge (hother (hk.held d rfl).1) r
  | settle conn ch d v =>
    rcases settle_answer hx with rfl | rfl
    · exact .refl _ _
    · exact .settle (hother (hk.held d rfl).1) _

/-- It gets to the next stage, and knows what belongs there. -/
theorem exec_knows (h : Custody cfg s) (hk : Knows cfg ctx q s) (ha : Allows cfg ctx q o)
    (hx : exec s o turn = some (r, s')) : Knows cfg ctx (q.next o r) s' := by
  cases ha with
  | log q event =>
    rw [silent_answer (.inr (.inr ⟨_, rfl⟩)) hx]
    cases q <;> exact hk
  | ctxErr =>
    rw [silent_answer (.inl ⟨_, rfl⟩) hx]
    cases r with
    | false => exact hk
    | true => exact hk.stop (ctxErr_answer hx rfl)
  | sleep =>
    rw [silent_answer (.inr (.inl ⟨_, rfl⟩)) hx]
    cases r with
    | false => exact hk.stop (sleep_answer hx rfl)
    | true => exact hk
  | dial =>
    rcases dial_answer hx with ⟨_, _, rfl, rfl⟩ | ⟨rfl, rfl⟩
    · exact { hk with }
    · refine Knows.dialled (fun k x hx ho hl => ?_) ⟨_, List.getElem?_concat_length, rfl, rfl⟩
      rcases getElem?_append_singleton hx with hold | ⟨rfl, _⟩
      · exact .inr ((hk.released k x hold ho hl).resolve_left (fun heq => by cases heq))
      · exact .inl rfl
  | openChannel conn =>
    rcases openChannel_answer hx with ⟨rfl, err, rfl⟩ | ⟨rfl, rfl⟩
    · exact hk
    · have hd : Knows cfg ctx (.dialled conn) _ :=
        hk.stable (.opened (⟨conn, 0, false, false⟩ : Channel))
      exact hd.opened List.getElem?_concat_length rfl (fun h => by cases h)
  | closeConn conn =>
    rcases closeConn_answer hx with rfl | rfl
    · exact hk.closeConn rfl
    · exact hk.closeConn rfl
  | declare conn ch o =>
    rcases request_answer hx with ⟨rfl, _⟩ | rfl
    · exact hk
    · exact hk
  | qos conn ch =>
    rcases request_answer hx with ⟨rfl, err, rfl⟩ | rfl
    · exact hk
    · cases r with
      | error err => exact hk.amend (fun _ => rfl) (fun h => by cases h)
      | ok u => exact hk.amend (fun _ => rfl) (fun _ _ _ => rfl)
  | consume conn ch queue =>
    rcases request_answer hx with ⟨rfl, _⟩ | rfl
    · exact hk
    · refine hk.amend (fun _ => rfl) (fun _ x hx => ?_)
      obtain ⟨y, hy, _, hlim⟩ := hk.chan ch rfl
      cases hx.symm.trans hy
      exact hlim rfl
  | select conn ch =>
    rcases select_answer hx with ⟨rfl, hr⟩ | ⟨d, hd, hch, rfl, rfl⟩
    · rcases r with _ | err | (_ | d)
      · exact hk
      · exact hk
      · exact hk
      · exact absurd rfl (hr d)
    · exact hk.receive h hd hch
  | closeChannel conn ch limited =>
    rcases request_answer hx with ⟨rfl, _⟩ | rfl
    · exact hk.toDialled rfl
    · exact (hk.stable (.closeWhere _ _ _)).toDialled rfl
  | handle conn ch d =>
    obtain rfl := handle_answer hx
    exact hk.judge r
  | settle conn ch d v =>
    rcases settle_answer hx with rfl | rfl
    · obtain ⟨y, hy, hyconn, hlim⟩ := hk.chan ch rfl
      exact (hk.toDialled rfl).opened hy (Option.some.inj hyconn).symm hlim
    · exact hk.settle _

/-- The world keeps the queue in order. -/
theorem world_custody {e : WorldEvent} (h : Custody cfg s) (he : world e s = some s') :
    Custody cfg s' := by
  cases e with
  | publish body =>
    cases he
    exact h.publish body
  | deliver ch message =>
    simp only [world] at he
    split at he
    · next hok =>
      cases he
      exact h.deliver hok.1 hok.2
    · cases he
  | channelDies ch =>
    cases he
    exact h.closeWhere _
  | connDies conn =>
    cases he
    exact h.closeWhere _
  | cancel ctx =>
    cases he
    exact h.withConns _ _ _ (Nat.le_refl _)
  | lateDial ctx succeeds =>
    simp only [world] at he
    split at he
    · cases he
      refine h.withConns _ _ _ ?_
      split
      · simp
      · exact Nat.le_refl _
    · cases he
  | closeLate conn =>
    simp only [world] at he
    split at he
    · split at he
      · cases he
        exact (h.closeWhere _).release conn
      · cases he
    · cases he

/-- It leaves every consumer's connection alone. -/
theorem world_leaves {e : WorldEvent} (ctx : Nat) (he : world e s = some s') : Leaves ctx s s' := by
  cases e with
  | publish body =>
    cases he
    exact { Leaves.refl ctx s with }
  | deliver ch message =>
    simp only [world] at he
    split at he
    · cases he
      exact .deliver ctx s ch message
    · cases he
  | channelDies ch =>
    cases he
    exact .closeWhere _ _ _
  | connDies conn =>
    cases he
    exact .closeWhere _ _ _
  | cancel c =>
    cases he
    exact { Leaves.refl ctx s with cancelled := fun _ h => List.mem_cons_of_mem _ h }
  | lateDial c succeeds =>
    simp only [world] at he
    split at he
    · cases he
      cases succeeds with
      | true => exact .newConn (.inr rfl) _
      | false => exact { Leaves.refl ctx s with }
    · cases he
  | closeLate conn =>
    simp only [world] at he
    split at he
    · next x hx =>
      split at he
      · next hlate =>
        cases he
        refine (Leaves.closeWhere ctx s _).trans (.release ?_) (Nat.le_of_eq List.length_mapIdx.symm)
        rintro ⟨y, hy, _, hyl⟩
        cases hx.symm.trans hy
        rw [hyl] at hlate
        cases hlate
      · cases he
    · cases he

end Steps

/-! ## Every run -/

section Runs

variable {cfg : ConsumerConfig} {s s' : State}

/-- What is on record of the calls and of the handlers' answers: only a handler's answer
is added to it. -/
theorem exec_record {o : Op} {turn : Turn} {r : o.Res} (hx : exec s o turn = some (r, s')) :
    s'.contexts = s.contexts ∧ (s'.verdicts = s.verdicts ∨ ∃ ctx d v, o = .handle ctx d ∧
      turn = .verdict v ∧ s'.verdicts = (d, v) :: s.verdicts) := by
  cases o with
  | handle ctx d =>
    cases turn <;> simp only [exec, Option.some.injEq, Prod.mk.injEq, reduceCtorEq] at hx
    obtain ⟨rfl, rfl⟩ := hx
    exact ⟨rfl, .inr ⟨ctx, d, _, rfl, rfl, rfl⟩⟩
  | ctxErr c => rw [silent_answer (.inl ⟨_, rfl⟩) hx]; exact ⟨rfl, .inl rfl⟩
  | sleep c => rw [silent_answer (.inr (.inl ⟨_, rfl⟩)) hx]; exact ⟨rfl, .inl rfl⟩
  | log event => rw [silent_answer (.inr (.inr ⟨_, rfl⟩)) hx]; exact ⟨rfl, .inl rfl⟩
  | dial c => rcases dial_answer hx with ⟨_, _, _, rfl⟩ | ⟨_, rfl⟩ <;> exact ⟨rfl, .inl rfl⟩
  | openChannel conn =>
    rcases openChannel_answer hx with ⟨rfl, _⟩ | ⟨_, rfl⟩ <;> exact ⟨rfl, .inl rfl⟩
  | declare ch o => rcases request_answer hx with ⟨rfl, _⟩ | rfl <;> exact ⟨rfl, .inl rfl⟩
  | qos ch n => rcases request_answer hx with ⟨rfl, _⟩ | rfl <;> exact ⟨rfl, .inl rfl⟩
  | consume ch queue => rcases request_answer hx with ⟨rfl, _⟩ | rfl <;> exact ⟨rfl, .inl rfl⟩
  | select c ch =>
    rcases select_answer hx with ⟨rfl, _⟩ | ⟨_, _, _, _, rfl⟩ <;> exact ⟨rfl, .inl rfl⟩
  | settle d how =>
    rcases settle_answer hx with rfl | rfl
    · exact ⟨rfl, .inl rfl⟩
    · unfold State.settle
      split
      · split <;> exact ⟨rfl, .inl rfl⟩
      · exact ⟨rfl, .inl rfl⟩
  | closeChannel ch => rcases request_answer hx with ⟨rfl, _⟩ | rfl <;> exact ⟨rfl, .inl rfl⟩
  | closeConn conn => rcases closeConn_answer hx with rfl | rfl <;> exact ⟨rfl, .inl rfl⟩

/-- The world adds nothing. -/
theorem world_record {e : WorldEvent} (he : world e s = some s') :
    s'.contexts = s.contexts ∧ s'.verdicts = s.verdicts := by
  cases e <;> simp only [world] at he
  case publish body => cases he; exact ⟨rfl, rfl⟩
  case deliver ch message => split at he <;> cases he; exact ⟨rfl, rfl⟩
  case channelDies ch => cases he; exact ⟨rfl, rfl⟩
  case connDies conn => cases he; exact ⟨rfl, rfl⟩
  case cancel c => cases he; exact ⟨rfl, rfl⟩
  case lateDial c succeeds => split at he <;> cases he; exact ⟨rfl, rfl⟩
  case closeLate conn =>
    split at he
    · split at he <;> cases he
      exact ⟨rfl, rfl⟩
    · cases he

/-- The queue is in order, the contexts are distinct and every consumer that runs or
has returned knows what belongs to its stage. -/
structure Orderly (cfg : ConsumerConfig) (p : Consumers) : Prop where
  custody : Custody cfg p.state
  owners : ∀ ctx conn, Owns p.state ctx conn → ctx ∈ p.state.contexts
  numbered : p.Numbered (fun c => some c.ctx) State.contexts
  tracks : p.Tracks (fun c => session cfg c.ctx) (Returns cfg)
    (fun c => Knows cfg c.ctx)

theorem orderly_init (cfg : ConsumerConfig) : Orderly cfg init where
  custody := custody_init cfg
  owners := by
    rintro ctx conn ⟨x, hx, _⟩
    cases hx
  numbered :=
    { recorded := fun c hc => by cases hc
      distinct := fun i j c c' n hi => by cases hi }
  tracks := fun i th hth => by cases hth

/-- Nobody owns a connection of another's after a step that leaves them alone. -/
theorem Leaves.owns_back {ctx conn : Nat} (h : Leaves ctx s s') (hown : Owns s' ctx conn) :
    Owns s ctx conn := by
  obtain ⟨x, hx, ho, hl⟩ := hown
  exact ⟨x, (h.conns conn x ho hl).mp hx, ho, hl⟩

/-- What one event does to the consumers it is not an operation of. -/
theorem Orderly.leaves {p p' : Consumers} {e : Event Turn Call WorldEvent} (h : Orderly cfg p)
    (hs : (machine cfg).step p e = some p') {ctx : Nat}
    (hnot : ∀ i turn th, e = .run i turn → p.threads[i]? = some th → th.call.ctx ≠ ctx) :
    Leaves ctx p.state p'.state := by
  cases e with
  | call c =>
    obtain ⟨s, hent, rfl⟩ := Machine.step_call _ hs
    simp only [machine] at hent
    split at hent
    · cases hent
    · cases hent
      exact { Leaves.refl ctx p.state with }
  | run i turn =>
    obtain ⟨th, o, k, r, s, hth, hend, hp, hx, rfl⟩ := Machine.step_run _ hs
    obtain ⟨q, hq, hk⟩ := h.tracks i th hth (.inl hend)
    rw [hp] at hq
    exact exec_leaves (Ne.symm (hnot i turn th rfl hth)) hk hq.1 hx
  | kill i =>
    obtain ⟨th, _, _, rfl⟩ := Machine.step_kill _ hs
    exact .refl _ _
  | env e =>
    obtain ⟨s, henv, rfl⟩ := Machine.step_env _ hs
    exact world_leaves ctx henv

/-- **Every step of every consumer keeps the order.** -/
theorem Orderly.step {p p' : Consumers} {e : Event Turn Call WorldEvent} (h : Orderly cfg p)
    (hs : (machine cfg).step p e = some p') : Orderly cfg p' := by
  have hcontexts : ∀ n ∈ p.state.contexts, n ∈ p'.state.contexts := by
    intro n hn
    cases e with
    | call c =>
      obtain ⟨s, hent, rfl⟩ := Machine.step_call _ hs
      simp only [machine] at hent
      split at hent
      · cases hent
      · cases hent
        exact List.mem_cons_of_mem _ hn
    | run i turn =>
      obtain ⟨th, o, k, r, s, _, _, _, hx, rfl⟩ := Machine.step_run _ hs
      rw [(exec_record hx).1]
      exact hn
    | kill i =>
      obtain ⟨th, _, _, rfl⟩ := Machine.step_kill _ hs
      exact hn
    | env e =>
      obtain ⟨s, henv, rfl⟩ := Machine.step_env _ hs
      rw [(world_record henv).1]
      exact hn
  have hfresh : ∀ c s, (machine cfg).enter c p.state = some s →
      c.ctx ∉ p.state.contexts ∧ s = { p.state with contexts := c.ctx :: p.state.contexts } := by
    intro c s hent
    simp only [machine] at hent
    split at hent
    · cases hent
    · next hnew =>
      cases hent
      exact ⟨hnew, rfl⟩
  refine ⟨?_, fun ctx conn hown => ?_, ?_, ?_⟩
  · cases e with
    | call c =>
      obtain ⟨s, hent, rfl⟩ := Machine.step_call _ hs
      obtain ⟨_, rfl⟩ := hfresh c s hent
      exact h.custody.withConns _ _ _ (Nat.le_refl _)
    | run i turn =>
      obtain ⟨th, o, k, r, s, hth, hend, hp, hx, rfl⟩ := Machine.step_run _ hs
      obtain ⟨q, hq, hk⟩ := h.tracks i th hth (.inl hend)
      rw [hp] at hq
      exact exec_custody h.custody hk hq.1 hx
    | kill i =>
      obtain ⟨th, _, _, rfl⟩ := Machine.step_kill _ hs
      exact h.custody
    | env e =>
      obtain ⟨s, henv, rfl⟩ := Machine.step_env _ hs
      exact world_custody h.custody henv
  · -- either the consumer itself has just dialled, or the connection was there
    by_cases hmine : ∃ i turn th, e = .run i turn ∧ p.threads[i]? = some th ∧ th.call.ctx = ctx
    · obtain ⟨i, turn, th, _, hth, rfl⟩ := hmine
      exact hcontexts _ (h.numbered.recorded th.call
        (List.mem_map_of_mem (List.mem_of_getElem? hth)) _ rfl)
    · have hleaves : Leaves ctx p.state p'.state :=
        h.leaves hs (fun i turn th he hth heq => hmine ⟨i, turn, th, he, hth, heq⟩)
      exact hcontexts _ (h.owners ctx conn (hleaves.owns_back hown))
  · refine h.numbered.step hs hcontexts (fun c s hent n hn => ?_)
    obtain ⟨hnew, rfl⟩ := hfresh c s hent
    cases hn
    exact ⟨hnew, List.mem_cons_self⟩
  · refine h.tracks.step (program_obeys cfg) hs (fun c s _ hent => ?_)
      (fun i turn th o k r s q _ hth hp hx ha hk => exec_knows h.custody hk ha hx)
      (fun j th q hth _ hne _ hk => hk.stable (h.leaves hs ?_))
    · obtain ⟨hnew, rfl⟩ := hfresh c s hent
      exact Knows.idle (fun conn x hx ho hl =>
        absurd (h.owners c.ctx conn ⟨x, hx, ho, hl⟩) hnew)
    · -- no two consumers have the same context
      intro i turn th' he hth' heq
      have hij := h.numbered.distinct i j th'.call th.call th.call.ctx
        (Pool.calls_of_thread hth') (Pool.calls_of_thread hth) (congrArg some heq) rfl
      subst hij
      exact hne turn he

theorem run_orderly {es : List (Event Turn Call WorldEvent)} {p : Consumers}
    (h : (machine cfg).Run (fun _ _ => True) init es p) : Orderly cfg p :=
  h.invariant (orderly_init cfg) (fun _ _ _ hp _ hs => hp.step hs)

end Runs

/-! ## The results -/

/-- In every run of any number of consumers of a queue, with sessions that fail at any
point, consumers that are killed, channels and connections that die, settlements that
are lost on the way and handlers that answer anything: every published message is in
exactly one place, one that is acknowledged or dropped was so because the handler said
so about a delivery of it, the handler is asked at most once about a delivery, the
broker is never sent a settlement it has to refuse, and no channel holds more than a
prefetch that the protocol's 16 bits can say. -/
theorem messages_accounted_for (cfg : ConsumerConfig) (es : List (Event Turn Call WorldEvent))
    (p : Consumers) (h : (machine cfg).Run (fun _ _ => True) init es p) :
    p.state.places.Perm p.state.published ∧ p.state.places.Nodup ∧
      (∀ m ∈ p.state.acked, ∃ d, d.message = m ∧ (d, .known .ack) ∈ p.state.verdicts) ∧
      (∀ m ∈ p.state.dropped, ∃ d, d.message = m ∧ (d, .known .drop) ∈ p.state.verdicts) ∧
      (p.state.verdicts.map Prod.fst).Nodup ∧ p.state.refused = 0 ∧
      (cfg.prefetch < 65536 → ∀ ch, p.state.onChannel ch ≤ cfg.effective.toNat) := by
  have hc := (run_orderly h).custody
  refine ⟨hc.conserved, hc.places_nodup, hc.accepted, hc.rejected, hc.once, hc.unrefused,
    fun hprefetch ch => ?_⟩
  have hlimit : cfg.limit = cfg.effective.toNat ∧ cfg.limit ≠ 0 := by
    unfold ConsumerConfig.limit wirePrefetch ConsumerConfig.effective defaultPrefetch
    split <;> omega
  rw [← hlimit.1]
  exact hc.bounded hlimit.2 ch

/-- Two consumers; the first one's acknowledgement is lost with its connection, and the
message goes to the second one. -/
theorem messages_accounted_for_sample :
    ∃ es p, (machine ⟨"amqp://h", ⟨"x", "q", []⟩, 0⟩).Run (fun _ _ => True) init es p ∧
      p.state.verdicts.length = 2 ∧ p.state.acked = [⟨0, [7]⟩] ∧
      p.state.places.Perm p.state.published := by
  have hrun : ((machine ⟨"amqp://h", ⟨"x", "q", []⟩, 0⟩).steps init
      ([.call ⟨false, 0, 2, 1⟩, .call ⟨false, 1, 2, 1⟩, .env (.publish [7])] ++
        List.replicate 8 (.run 0 .ok) ++ [.env (.deliver 0 ⟨0, [7]⟩), .run 0 (.receive 0),
        .run 0 (.verdict (.known .ack)), .run 0 .lost, .env (.connDies 0)] ++
        List.replicate 8 (.run 1 .ok) ++ [.env (.deliver 1 ⟨0, [7]⟩), .run 1 (.receive 1),
        .run 1 (.verdict (.known .ack)), .run 1 .ok])).any
      (fun p => decide (p.state.verdicts.length = 2 ∧ p.state.acked = [⟨0, [7]⟩])) = true := by
    decide
  obtain ⟨p, hp, hprop⟩ := (Option.any_eq_true _ _).mp hrun
  rw [decide_eq_true_eq] at hprop
  have h := Machine.Run.of_steps hp
  exact ⟨_, p, h, hprop.1, hprop.2, (messages_accounted_for _ _ p h).1⟩

/-- A connection this consumer has been given and not closed. One that `dialContext` had
given up on is not given to anybody. -/
def State.Open (s : State) (ctx conn : Nat) : Prop :=
  ∃ x, s.conns[conn]? = some x ∧ x.owner = ctx ∧ x.late = false ∧ x.released = false

/-- The goroutine that `dialContext` has left with a late connection can close it. -/
theorem closeLate_releases {s : State} {conn : Nat} {x : Connection}
    (hx : s.conns[conn]? = some x) (hlate : x.late = true) :
    ∃ s', world (.closeLate conn) s = some s' ∧
      s'.conns[conn]? = some { x with released := true } := by
  refine ⟨(s.dropConn conn).release conn, ?_, ?_⟩
  · simp only [world, hx, hlate, if_true]
  · show (s.conns.modify conn _)[conn]? = _
    rw [List.getElem?_modify, hx]
    simp

/-- A consumer that reconnects for ever has at most one connection open at a time of those
it was given. It returns nil only when its context is done, an error only for a
configuration it cannot work with, and then it has closed all it was given. A connection
that `dialContext` had given up on may be open then, or come later: it is closed by the
step of the goroutine that was left waiting for it. -/
theorem connections_released (cfg : ConsumerConfig) (es : List (Event Turn Call WorldEvent))
    (p : Consumers) (h : (machine cfg).Run (fun _ _ => True) init es p) (i : Nat)
    (th : Thread Op Op.Res Call Ended) (hth : p.threads[i]? = some th) (hun : th.Unharmed) :
    (∀ conn conn', p.state.Open th.call.ctx conn → p.state.Open th.call.ctx conn' → conn = conn') ∧
      ∀ err, th.prog = .ret (.returned err) →
        (∀ conn, ¬ p.state.Open th.call.ctx conn) ∧
        (err = none → th.call.ctx ∈ p.state.cancelled) ∧
        (err ≠ none → th.call.nilHandler = true ∨ cfg.url = "" ∨ cfg.topology.queue = "") ∧
        ∀ conn x, p.state.conns[conn]? = some x → x.owner = th.call.ctx →
          x.released = true ∨ (x.late = true ∧ ∃ s, world (.closeLate conn) p.state = some s ∧
            s.conns[conn]? = some { x with released := true }) := by
  obtain ⟨q, hq, hk⟩ := (run_orderly h).tracks i th hth hun
  have hin : ∀ conn, p.state.Open th.call.ctx conn → q.conn? = some conn := by
    rintro conn ⟨x, hx, ho, hl, hr⟩
    exact (hk.released conn x hx ho hl).resolve_right (by rw [hr]; simp)
  refine ⟨fun conn conn' ho ho' => Option.some.inj ((hin conn ho).symm.trans (hin conn' ho')),
    fun err hret => ?_⟩
  have hrest : (∀ conn, ¬ p.state.Open th.call.ctx conn) →
      ∀ conn x, p.state.conns[conn]? = some x → x.owner = th.call.ctx →
        x.released = true ∨ (x.late = true ∧ ∃ s, world (.closeLate conn) p.state = some s ∧
          s.conns[conn]? = some { x with released := true }) := by
    intro hnone conn x hx ho
    by_cases hl : x.late = true
    · exact .inr ⟨hl, closeLate_releases hx hl⟩
    · refine .inl (Bool.eq_true_of_not_eq_false fun hr => ?_)
      exact hnone conn ⟨x, hx, ho, Bool.eq_false_of_not_eq_true hl, hr⟩
  rw [hret] at hq
  rcases hq err rfl with ⟨rfl, rfl⟩ | ⟨hcfg, hne, rfl⟩
  · have hnone : ∀ conn, ¬ p.state.Open th.call.ctx conn := fun conn ho => by cases hin conn ho
    exact ⟨hnone, fun _ => hk.stopped rfl, fun h => absurd rfl h, hrest hnone⟩
  · have hnone : ∀ conn, ¬ p.state.Open th.call.ctx conn := fun conn ho => by cases hin conn ho
    exact ⟨hnone, fun h => absurd h hne, fun _ => hcfg, hrest hnone⟩

/-- A session whose channel is refused, another one that is cancelled. -/
theorem connections_released_sample :
    ∃ es p th, (machine ⟨"amqp://h", ⟨"x", "q", []⟩, 0⟩).Run (fun _ _ => True) init es p ∧
      p.threads[0]? = some th ∧ th.prog = .ret (.returned none) ∧ p.state.conns.length = 2 ∧
      0 ∈ p.state.cancelled := by
  have hrun : ((machine ⟨"amqp://h", ⟨"x", "q", []⟩, 0⟩).steps init
      ([.call ⟨false, 0, 2, 3⟩, .run 0 .ok, .run 0 .ok, .run 0 (.fail (.io "504"))] ++
        List.replicate 11 (.run 0 .ok) ++ [.env (.cancel 0), .run 0 (.done (.io "canceled"))] ++
        List.replicate 3 (.run 0 .ok))).any
      (fun p => (p.threads[0]?).any (fun th =>
        decide (th.prog.result? = some (.returned none)) &&
          decide (p.state.conns.length = 2 ∧ th.call.ctx = 0))) = true := by
    decide
  obtain ⟨p, hp, hany⟩ := (Option.any_eq_true _ _).mp hrun
  obtain ⟨th, hth, hprop⟩ := (Option.any_eq_true _ _).mp hany
  simp only [Bool.and_eq_true, decide_eq_true_eq] at hprop
  have h := Machine.Run.of_steps hp
  have hret := Prog.result?_eq_some.mp hprop.1
  have hresult := (connections_released _ _ p h 0 th hth (.inr (by rw [hret]; rfl))).2 none hret
  rw [hprop.2.2] at hresult
  exact ⟨_, p, th, h, hth, hret, hprop.2.1, hresult.2.1 rfl⟩

end ReleaseNotifier.Consuming
