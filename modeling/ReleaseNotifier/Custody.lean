/-
Where a message is.

At any moment every published message is in exactly one place: ready, on one open
channel, acknowledged or dropped (`Custody`). Most steps keep that by themselves. A
settlement keeps it if it is of a delivery that is outstanding on its channel, or whose
channel is gone, and if it is the one the handler asked for; that this is always so is
a matter of the consumer's program.
-/
import ReleaseNotifier.RunConsumer
import Mathlib.Data.List.Perm.Basic
import Mathlib.Data.List.Perm.Lattice
import Mathlib.Data.List.Nodup
import Mathlib.Data.List.Range

set_option autoImplicit false

namespace ReleaseNotifier.Consuming

open Conc

/-! ## Channels -/

section Channels

variable {s : State}

theorem closeWhere_chans (s : State) (f : Nat → Channel → Bool) (k : Nat) :
    (s.closeWhere f).chans[k]? =
      (s.chans[k]?).map (fun x => if f k x then { x with closed := true } else x) := by
  rw [State.closeWhere, List.getElem?_mapIdx]

/-- The channel is among those that are closed. -/
def State.hit (s : State) (f : Nat → Channel → Bool) (ch : Nat) : Bool := (s.chans[ch]?).any (f ch)

/-- A channel stays open if it is not hit. -/
theorem isOpen_closeWhere (s : State) (f : Nat → Channel → Bool) (ch : Nat) :
    (s.closeWhere f).isOpen ch = (s.isOpen ch && !s.hit f ch) := by
  rw [State.isOpen, closeWhere_chans, State.isOpen, State.hit]
  cases s.chans[ch]? with
  | none => rfl
  | some x =>
    by_cases hx : f ch x = true
    · simp [hx]
    · simp [hx]

/-- The unacked deliveries of a channel go with it. -/
theorem mem_unacked_closeWhere {f : Nat → Channel → Bool} {d : Delivery} :
    d ∈ (s.closeWhere f).unacked ↔ d ∈ s.unacked ∧ s.hit f d.ch = false := by
  show d ∈ s.unacked.filter _ ↔ _
  rw [List.mem_filter]
  simp [State.hit]

/-- Setting a limit or a consumer opens and closes nothing. -/
theorem isOpen_amend {f : Channel → Channel} (hf : ∀ x, (f x).closed = x.closed) (s : State)
    (ch k : Nat) : (s.amend ch f).isOpen k = s.isOpen k := by
  rw [State.isOpen, State.amend, List.getElem?_modify, State.isOpen]
  cases s.chans[k]? with
  | none => rfl
  | some x =>
    by_cases hk : ch = k
    · simp [hk, hf]
    · simp [hk]

theorem isOpen_lt {ch : Nat} (h : s.isOpen ch = true) : ch < s.chans.length := by
  obtain ⟨x, hx, _⟩ := (Option.any_eq_true _ _).mp h
  exact (List.getElem?_eq_some_iff.mp hx).1

/-- A new channel does not open an old one. -/
theorem isOpen_append {new : Channel} {ch : Nat} (h : ch < s.chans.length) :
    State.isOpen { s with chans := s.chans ++ [new] } ch = s.isOpen ch := by
  rw [State.isOpen, State.isOpen, List.getElem?_append_left h]

theorem release_conns (s : State) (conn k : Nat) :
    (s.release conn).conns[k]? =
      (s.conns[k]?).map (fun x => if conn = k then { x with released := true } else x) := by
  rw [State.release, List.getElem?_modify]
  rfl

end Channels

/-! ## The places of a message -/

/-- The messages wherever they are. -/
def State.places (s : State) : List Message :=
  s.ready ++ s.unacked.map Delivery.message ++ s.acked ++ s.dropped

/-- How many messages are unacknowledged on a channel. -/
def State.onChannel (s : State) (ch : Nat) : Nat :=
  s.unacked.countP (fun d => decide (d.ch = ch))

/-- The limit the broker is given. -/
def ConsumerConfig.limit (cfg : ConsumerConfig) : Nat := wirePrefetch cfg.effective

/-- What a handler's answer is turned into. -/
def Verdict.settlement : Verdict → Settlement
  | .known .ack => .ack
  | .known .drop => .drop
  | .known .requeue => .requeue
  | .unknown _ => .requeue

/-- What holds of the queue at any time. -/
structure Custody (cfg : ConsumerConfig) (s : State) : Prop where
  conserved : s.places.Perm s.published
  numbered : s.published.map Message.id = List.range s.published.length
  lodged : ∀ d ∈ s.unacked, s.isOpen d.ch = true
  limited : ∀ (ch : Nat) y, s.chans[ch]? = some y → y.consuming = true → y.prefetch = cfg.limit
  bounded : cfg.limit ≠ 0 → ∀ ch, s.onChannel ch ≤ cfg.limit
  outstanding : ∀ d ∈ s.buffered, s.isOpen d.ch = true → d ∈ s.unacked
  tagged : ∀ d, d ∈ s.unacked ∨ d ∈ s.buffered ∨ (∃ v, (d, v) ∈ s.verdicts) →
    d.tag < s.tags ∧ d.ch < s.chans.length
  distinct : s.unacked.Nodup ∧ s.buffered.Nodup
  unjudged : ∀ d ∈ s.buffered, ∀ v, (d, v) ∉ s.verdicts
  once : (s.verdicts.map Prod.fst).Nodup
  accepted : ∀ m ∈ s.acked, ∃ d, d.message = m ∧ (d, .known .ack) ∈ s.verdicts
  rejected : ∀ m ∈ s.dropped, ∃ d, d.message = m ∧ (d, .known .drop) ∈ s.verdicts
  unrefused : s.refused = 0
  placed : ∀ (ch : Nat) y, s.chans[ch]? = some y → y.conn < s.conns.length

theorem custody_init (cfg : ConsumerConfig) : Custody cfg .init where
  conserved := .refl _
  numbered := rfl
  lodged := by simp [State.init]
  limited := by simp [State.init]
  bounded := by simp [State.init, State.onChannel]
  outstanding := by simp [State.init]
  tagged := by simp [State.init]
  distinct := ⟨List.nodup_nil, List.nodup_nil⟩
  unjudged := by simp [State.init]
  once := List.nodup_nil
  accepted := by simp [State.init]
  rejected := by simp [State.init]
  unrefused := rfl
  placed := by simp [State.init]

/-- A message is in one place only. -/
theorem Custody.places_nodup {cfg : ConsumerConfig} {s : State} (h : Custody cfg s) :
    s.places.Nodup := by
  refine h.conserved.nodup_iff.mpr (List.Nodup.of_map Message.id ?_)
  rw [h.numbered]
  exact List.nodup_range

namespace Custody

variable {cfg : ConsumerConfig} {s : State}

/-- Connections that come, and are released. -/
theorem withConns (h : Custody cfg s) {conns : List Connection} (contexts cancelled abandoned)
    (hlen : s.conns.length ≤ conns.length) :
    Custody cfg { s with conns := conns, contexts := contexts, cancelled := cancelled,
                         abandoned := abandoned } :=
  { h with placed := fun ch y hy => Nat.lt_of_lt_of_le (h.placed ch y hy) hlen }

/-- Giving a connection up moves no message. -/
theorem release (h : Custody cfg s) (conn : Nat) : Custody cfg (s.release conn) :=
  h.withConns _ _ _ (by simp)

/-- What was unacked on a closed channel is ready again. -/
theorem closeWhere (h : Custody cfg s) (f : Nat → Channel → Bool) :
    Custody cfg (s.closeWhere f) where
  conserved := by
    refine .trans ?_ h.conserved
    -- the deliveries of the closed channels go from one place to another
    show ((s.ready ++ (s.unacked.filter _).map Delivery.message) ++
      (s.unacked.filter _).map Delivery.message ++ s.acked ++ s.dropped).Perm _
    rw [State.places, List.append_assoc s.ready, ← List.map_append]
    exact (((List.filter_append_perm _ _).map _).append_left _).append_right _ |>.append_right _
  numbered := h.numbered
  lodged := by
    intro d hd
    obtain ⟨hd, hhit⟩ := mem_unacked_closeWhere.mp hd
    rw [isOpen_closeWhere, h.lodged d hd, hhit]
    rfl
  limited := by
    intro ch y hy hcons
    rw [closeWhere_chans] at hy
    obtain ⟨x, hx, rfl⟩ := Option.map_eq_some_iff.mp hy
    split at hcons
    · next hf =>
      rw [if_pos hf]
      exact h.limited ch x hx hcons
    · next hf =>
      rw [if_neg hf]
      exact h.limited ch x hx hcons
  bounded := by
    intro hlim ch
    refine Nat.le_trans ?_ (h.bounded hlim ch)
    exact List.Sublist.countP_le List.filter_sublist
  outstanding := by
    intro d hd hopen
    rw [isOpen_closeWhere, Bool.and_eq_true, Bool.not_eq_true'] at hopen
    exact mem_unacked_closeWhere.mpr ⟨h.outstanding d hd hopen.1, hopen.2⟩
  tagged := by
    intro d hd
    have hlen : (s.closeWhere f).chans.length = s.chans.length := List.length_mapIdx
    rw [hlen]
    refine h.tagged d ?_
    rcases hd with hd | hd | hd
    · exact .inl (mem_unacked_closeWhere.mp hd).1
    · exact .inr (.inl hd)
    · exact .inr (.inr hd)
  distinct := ⟨h.distinct.1.filter _, h.distinct.2⟩
  unjudged := h.unjudged
  once := h.once
  accepted := h.accepted
  rejected := h.rejected
  unrefused := h.unrefused
  placed := by
    intro ch y hy
    rw [closeWhere_chans] at hy
    obtain ⟨x, hx, rfl⟩ := Option.map_eq_some_iff.mp hy
    split
    · exact h.placed ch x hx
    · exact h.placed ch x hx

/-- A new channel holds nothing. -/
theorem opened (h : Custody cfg s) {conn : Nat} (hconn : conn < s.conns.length) :
    Custody cfg { s with chans := s.chans ++ [⟨conn, 0, false, false⟩] } :=
  { h with
    lodged := fun d hd => by
      rw [isOpen_append (h.tagged d (.inl hd)).2]
      exact h.lodged d hd
    limited := fun ch y hy hcons => by
      rcases getElem?_append_singleton hy with hold | ⟨_, rfl⟩
      · exact h.limited ch y hold hcons
      · cases hcons
    outstanding := fun d hd hopen => by
      rw [isOpen_append (h.tagged d (.inr (.inl hd))).2] at hopen
      exact h.outstanding d hd hopen
    tagged := fun d hd => by
      obtain ⟨htag, hch⟩ := h.tagged d hd
      refine ⟨htag, ?_⟩
      show d.ch < (s.chans ++ [_]).length
      rw [List.length_append]
      exact Nat.lt_add_right 1 hch
    placed := fun ch y hy => by
      rcases getElem?_append_singleton hy with hold | ⟨_, rfl⟩
      · exact h.placed ch y hold
      · exact hconn }

/-- A limit, or a consumer where the limit is set. -/
theorem amend (h : Custody cfg s) {ch : Nat} {f : Channel → Channel}
    (hclosed : ∀ x, (f x).closed = x.closed) (hconn : ∀ x, (f x).conn = x.conn)
    (hlim : ∀ x, s.chans[ch]? = some x → (f x).consuming = true → (f x).prefetch = cfg.limit) :
    Custody cfg (s.amend ch f) :=
  { h with
    lodged := fun d hd => by
      rw [isOpen_amend hclosed]
      exact h.lodged d hd
    limited := fun k y hy hcons => by
      rw [State.amend, List.getElem?_modify] at hy
      obtain ⟨x, hx, rfl⟩ := Option.map_eq_some_iff.mp hy
      by_cases hk : ch = k
      · subst hk
        rw [if_pos rfl] at hcons ⊢
        exact hlim x hx hcons
      · rw [if_neg hk] at hcons ⊢
        exact h.limited k x hx hcons
    outstanding := fun d hd hopen => by
      rw [isOpen_amend hclosed] at hopen
      exact h.outstanding d hd hopen
    tagged := fun d hd => by
      rw [State.amend, List.length_modify]
      exact h.tagged d hd
    placed := fun k y hy => by
      rw [State.amend, List.getElem?_modify] at hy
      obtain ⟨x, hx, rfl⟩ := Option.map_eq_some_iff.mp hy
      by_cases hk : ch = k
      · rw [if_pos hk, hconn]
        exact h.placed k x hx
      · rw [if_neg hk]
        exact h.placed k x hx }

/-- A delivery handed out by the library. -/
theorem receive (h : Custody cfg s) (d : Delivery) :
    Custody cfg { s with buffered := s.buffered.erase d } :=
  { h with
    outstanding := fun d' hd' => h.outstanding d' (List.mem_of_mem_erase hd')
    tagged := fun d' hd' => h.tagged d'
      (hd'.imp_right (Or.imp_left List.mem_of_mem_erase))
    distinct := ⟨h.distinct.1, h.distinct.2.erase d⟩
    unjudged := fun d' hd' => h.unjudged d' (List.mem_of_mem_erase hd') }

/-- A handler's answer, to a delivery it had not been asked about. -/
theorem judge (h : Custody cfg s) {d : Delivery} (v : Verdict) (htag : d.tag < s.tags)
    (hch : d.ch < s.chans.length) (hout : d ∉ s.buffered) (hnew : ∀ v, (d, v) ∉ s.verdicts) :
    Custody cfg { s with verdicts := (d, v) :: s.verdicts } :=
  { h with
    tagged := fun d' hd' => by
      rcases hd' with hd' | hd' | ⟨v', hv'⟩
      · exact h.tagged d' (.inl hd')
      · exact h.tagged d' (.inr (.inl hd'))
      · rcases List.mem_cons.mp hv' with heq | hv'
        · cases heq
          exact ⟨htag, hch⟩
        · exact h.tagged d' (.inr (.inr ⟨v', hv'⟩))
    unjudged := fun d' hd' v' hv' => by
      rcases List.mem_cons.mp hv' with heq | hv'
      · cases heq
        exact hout hd'
      · exact h.unjudged d' hd' v' hv'
    once := by
      rw [List.map_cons, List.nodup_cons]
      refine ⟨fun hmem => ?_, h.once⟩
      obtain ⟨⟨d', v'⟩, hv', heq⟩ := List.mem_map.mp hmem
      cases heq
      exact hnew v' hv'
    accepted := fun m hm => by
      obtain ⟨d', hd', hv'⟩ := h.accepted m hm
      exact ⟨d', hd', List.mem_cons_of_mem _ hv'⟩
    rejected := fun m hm => by
      obtain ⟨d', hd', hv'⟩ := h.rejected m hm
      exact ⟨d', hd', List.mem_cons_of_mem _ hv'⟩ }

/-- A settlement of an outstanding delivery, or on a channel that is gone. -/
theorem settle (h : Custody cfg s) {d : Delivery} {v : Verdict}
    (hd : s.isOpen d.ch = true → d ∈ s.unacked) (hout : d ∉ s.buffered)
    (hv : (d, v) ∈ s.verdicts) : Custody cfg (s.settle d v.settlement) := by
  unfold State.settle
  split
  · next hopen =>
    rw [if_pos (hd hopen)]
    have hperm := (List.perm_cons_erase (hd hopen)).map Delivery.message
    exact { h with
      conserved := by
        refine .trans (List.perm_iff_count.mpr fun m => ?_) h.conserved
        have hcount := hperm.count_eq m
        -- the message is counted once, in the place it was moved to
        cases hs : v.settlement <;>
          simp [State.take, State.places, List.count_append, List.count_cons] at hcount ⊢ <;> omega
      lodged := fun d' hd' => h.lodged d' (List.mem_of_mem_erase hd')
      bounded := fun hlim ch => Nat.le_trans (List.Sublist.countP_le List.erase_sublist)
        (h.bounded hlim ch)
      outstanding := fun d' hd' hopen' => by
        refine (List.mem_erase_of_ne ?_).mpr (h.outstanding d' hd' hopen')
        rintro rfl
        exact hout hd'
      tagged := fun d' hd' => h.tagged d' (hd'.imp_left List.mem_of_mem_erase)
      distinct := ⟨h.distinct.1.erase d, h.distinct.2⟩
      accepted := fun m hm => by
        rcases List.mem_append.mp hm with hm | hm
        · exact h.accepted m hm
        · split at hm
          · next hs =>
            refine ⟨d, (List.mem_singleton.mp hm).symm, ?_⟩
            rcases v with ⟨_ | _ | _⟩ | n <;> first | exact hv | cases hs
          · cases hm
      rejected := fun m hm => by
        rcases List.mem_append.mp hm with hm | hm
        · exact h.rejected m hm
        · split at hm
          · next hs =>
            refine ⟨d, (List.mem_singleton.mp hm).symm, ?_⟩
            rcases v with ⟨_ | _ | _⟩ | n <;> first | exact hv | cases hs
          · cases hm }
  · exact h

/-- A new message is ready. -/
theorem publish (h : Custody cfg s) (body : Bytes) :
    Custody cfg { s with published := s.published ++ [⟨s.published.length, body⟩]
                         ready := s.ready ++ [⟨s.published.length, body⟩] } :=
  { h with
    conserved := by
      refine .trans (List.perm_iff_count.mpr fun m => ?_) (h.conserved.append_right _)
      simp only [State.places, List.count_append]
      omega
    numbered := by
      rw [List.map_append, h.numbered, List.length_append]
      exact List.range_succ.symm }

/-- A delivery moves one message from the queue to the channel, within its prefetch. -/
theorem deliver (h : Custody cfg s) {ch : Nat} {message : Message} (hroom : s.hasRoom ch = true)
    (hready : message ∈ s.ready) : Custody cfg (s.deliver ch message) := by
  obtain ⟨x, hx, hok⟩ := (Option.any_eq_true _ _).mp hroom
  simp only [Bool.and_eq_true, Bool.or_eq_true, beq_iff_eq, decide_eq_true_eq,
    Bool.not_eq_true'] at hok
  have hopen : s.isOpen ch = true := by simp [State.isOpen, hx, hok.1.2]
  have hnew : ∀ d, d ∈ s.unacked ∨ d ∈ s.buffered ∨ (∃ v, (d, v) ∈ s.verdicts) →
      d ≠ ⟨ch, s.tags, message⟩ := by
    rintro d hd rfl
    exact Nat.lt_irrefl _ (h.tagged _ hd).1
  have hperm := List.perm_cons_erase hready
  exact { h with
    conserved := by
      refine .trans (List.perm_iff_count.mpr fun m => ?_) h.conserved
      have hcount := hperm.count_eq m
      simp only [State.deliver, State.places, List.count_append, List.count_cons, List.map_append,
        List.map_cons, List.map_nil, List.count_nil] at hcount ⊢
      omega
    lodged := fun d hd => by
      rcases List.mem_append.mp hd with hd | hd
      · exact h.lodged d hd
      · rw [List.mem_singleton.mp hd]
        exact hopen
    bounded := fun hlim k => by
      have hk := h.bounded hlim k
      have hlimit := h.limited ch x hx hok.1.1
      simp only [State.onChannel, State.deliver, List.countP_append, List.countP_singleton,
        decide_eq_true_eq] at hk ⊢
      split
      · next heq =>
        subst heq
        rcases hok.2 with hzero | hlt
        · exact absurd (hlimit.symm.trans hzero) hlim
        · omega
      · omega
    outstanding := fun d hd hopen' => by
      rcases List.mem_append.mp hd with hd | hd
      · exact List.mem_append_left _ (h.outstanding d hd hopen')
      · exact List.mem_append_right _ hd
    tagged := fun d hd => by
      have hlt : ∀ d', d' ∈ s.unacked ∨ d' ∈ s.buffered ∨ (∃ v, (d', v) ∈ s.verdicts) →
          d'.tag < s.tags + 1 ∧ d'.ch < s.chans.length :=
        fun d' hd' => ⟨Nat.lt_succ_of_lt (h.tagged d' hd').1, (h.tagged d' hd').2⟩
      have hself : ∀ {d'}, d' ∈ [(⟨ch, s.tags, message⟩ : Delivery)] →
          d'.tag < s.tags + 1 ∧ d'.ch < s.chans.length := fun hd' => by
        rw [List.mem_singleton.mp hd']
        exact ⟨Nat.lt_succ_self _, isOpen_lt hopen⟩
      rcases hd with hd | hd | hd
      · rcases List.mem_append.mp hd with hd | hd
        · exact hlt d (.inl hd)
        · exact hself hd
      · rcases List.mem_append.mp hd with hd | hd
        · exact hlt d (.inr (.inl hd))
        · exact hself hd
      · exact hlt d (.inr (.inr hd))
    distinct := by
      refine ⟨List.nodup_append'.mpr ⟨h.distinct.1, List.nodup_singleton _, ?_⟩,
        List.nodup_append'.mpr ⟨h.distinct.2, List.nodup_singleton _, ?_⟩⟩
      · exact List.disjoint_singleton.mpr (fun hd => hnew _ (.inl hd) rfl)
      · exact List.disjoint_singleton.mpr (fun hd => hnew _ (.inr (.inl hd)) rfl)
    unjudged := fun d hd v hv => by
      rcases List.mem_append.mp hd with hd | hd
      · exact h.unjudged d hd v hv
      · exact hnew d (.inr (.inr ⟨v, hv⟩)) (List.mem_singleton.mp hd) }

end Custody

end ReleaseNotifier.Consuming
