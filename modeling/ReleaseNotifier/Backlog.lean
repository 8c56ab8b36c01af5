/-
The reaper and a backlog.

One `Reap` takes at most a hundred sagas. That a longer backlog is worked off in
the order of the deadlines, and that nothing else is touched, is a matter of what
a query may answer: `ORDER BY timeout_at LIMIT 100` fixes neither the order of
equal deadlines nor which of them make it into the batch. `IsBatch` is all that
can be relied on (`batching` answers any of them, at the limit that the query has),
and `k` batches in a row are one batch of the `k`-fold limit
(`IsBatch.append`); the rest is bookkeeping about what a compensation changes.
-/
import ReleaseNotifier.Replies

set_option autoImplicit false

namespace ReleaseNotifier

open Conc

/-! ## What a query may answer -/

/-- The saga waits past its deadline: the `WHERE` clause of `ListTimedOut`. -/
def Due (now : Nat) (inst : Instance) : Prop :=
  inst.state = .awaitingConfirmation ∧ inst.timeoutAt < now

instance (now : Nat) (inst : Instance) : Decidable (Due now inst) :=
  inferInstanceAs (Decidable (_ ∧ _))

/-- The rows the clause selects. -/
def SagaTable.due (t : SagaTable) (now : Nat) : List Instance :=
  t.rows.filter (fun i => decide (Due now i))

/-- What `ListTimedOut` may answer: ids of due sagas, earliest deadline first, at
most `limit`, and all of them if they are no more. -/
structure IsBatch (t : SagaTable) (now limit : Nat) (ids : List String) : Prop where
  nodup : ids.Nodup
  isDue : ∀ x ∈ ids, ∃ a, t.get x = some a ∧ Due now a
  sorted : ids.Pairwise (fun x y => ∀ a b, t.get x = some a → t.get y = some b →
    a.timeoutAt ≤ b.timeoutAt)
  earliest : ∀ x ∈ ids, ∀ y, y ∉ ids → ∀ a b, t.get x = some a → t.get y = some b → Due now b →
    a.timeoutAt ≤ b.timeoutAt
  length_eq : ids.length = min limit (t.due now).length

section Due

variable {t t₁ : SagaTable} {now : Nat} {x : String} {ids ids' : List String}

theorem SagaTable.mem_due {i : Instance} :
    i ∈ t.due now ↔ t.get i.id = some i ∧ Due now i := by
  rw [SagaTable.due, List.mem_filter, decide_eq_true_eq]
  exact ⟨fun h => ⟨SagaTable.get_of_mem h.1, h.2⟩, fun h => ⟨SagaTable.get_mem h.1, h.2⟩⟩

theorem SagaTable.mem_map_due :
    x ∈ (t.due now).map Instance.id ↔ ∃ a, t.get x = some a ∧ Due now a := by
  rw [List.mem_map]
  constructor
  · rintro ⟨a, ha, rfl⟩
    exact ⟨a, SagaTable.mem_due.mp ha⟩
  · rintro ⟨a, ha, hdue⟩
    have hid := SagaTable.get_id ha
    exact ⟨a, SagaTable.mem_due.mpr ⟨by rw [hid]; exact ha, hdue⟩, hid⟩

theorem SagaTable.due_nodup : ((t.due now).map Instance.id).Nodup :=
  t.idsUnique.sublist (List.filter_sublist.map _)

/-- The clauses of a batch, over the rows there are. -/
instance (t : SagaTable) (now limit : Nat) (ids : List String) :
    Decidable (IsBatch t now limit ids) :=
  decidable_of_iff
    (ids.Nodup ∧ (∀ x ∈ ids, x ∈ (t.due now).map Instance.id) ∧
      ids.Pairwise (fun x y => ∀ a ∈ t.get x, ∀ b ∈ t.get y, a.timeoutAt ≤ b.timeoutAt) ∧
      (∀ x ∈ ids, ∀ a ∈ t.get x, ∀ b ∈ t.due now, b.id ∉ ids → a.timeoutAt ≤ b.timeoutAt) ∧
      ids.length = min limit (t.due now).length)
    ⟨fun ⟨hnodup, hdue, hsorted, hearliest, hlen⟩ =>
      { nodup := hnodup
        isDue := fun x hx => SagaTable.mem_map_due.mp (hdue x hx)
        sorted := hsorted.imp (fun h a b ha hb => h a ha b hb)
        earliest := fun x hx y hy a b ha hb hd => hearliest x hx a ha b
          (SagaTable.mem_due.mpr ⟨by rw [SagaTable.get_id hb]; exact hb, hd⟩)
          (by rw [SagaTable.get_id hb]; exact hy)
        length_eq := hlen },
    fun h =>
      ⟨h.nodup, fun x hx => SagaTable.mem_map_due.mpr (h.isDue x hx),
        h.sorted.imp (fun h a ha b hb => h a b ha hb),
        fun x hx a ha b hb hnot => h.earliest x hx b.id hnot a b ha (SagaTable.mem_due.mp hb).1
          (SagaTable.mem_due.mp hb).2, h.length_eq⟩⟩

/-- Of distinct ids, those in a list of some of them are as many as the list has. -/
theorem length_filter_not_mem {all : List String} (hall : all.Nodup) (hids : ids.Nodup)
    (hsub : ∀ x ∈ ids, x ∈ all) :
    (all.filter (fun x => decide (x ∉ ids))).length = all.length - ids.length := by
  have hperm : (all.filter (fun x => decide (x ∈ ids))).Perm ids := by
    refine (List.perm_ext_iff_of_nodup (hall.filter _) hids).mpr (fun x => ?_)
    rw [List.mem_filter, decide_eq_true_eq]
    exact ⟨fun h => h.2, fun h => ⟨hsub x h, h⟩⟩
  have hsplit := List.length_eq_length_filter_add (l := all) (fun x => decide (x ∈ ids))
  have hnot : all.filter (fun x => !decide (x ∈ ids)) = all.filter (fun x => decide (x ∉ ids)) := by
    congr 1
    funext x
    exact (decide_not).symm
  rw [hnot, hperm.length_eq] at hsplit
  omega

theorem FailedOnly.not_due (h : FailedOnly t t₁ ids) (hx : x ∈ ids) {a : Instance}
    (ha : t₁.get x = some a) : ¬ Due now a := by
  rw [h x] at ha
  obtain ⟨i, -, rfl⟩ := Option.map_eq_some_iff.mp ha
  rw [if_pos hx]
  intro hdue
  cases hdue.1

/-- What is still due. -/
theorem FailedOnly.length_due (h : FailedOnly t t₁ ids) (hids : ids.Nodup)
    (hdue : ∀ x ∈ ids, ∃ a, t.get x = some a ∧ Due now a) :
    (t₁.due now).length = (t.due now).length - ids.length := by
  have hall : (t₁.due now).map Instance.id
      |>.Perm (((t.due now).map Instance.id).filter (fun x => decide (x ∉ ids))) := by
    refine (List.perm_ext_iff_of_nodup SagaTable.due_nodup (SagaTable.due_nodup.filter _)).mpr
      (fun x => ?_)
    rw [List.mem_filter, decide_eq_true_eq, SagaTable.mem_map_due, SagaTable.mem_map_due]
    by_cases hx : x ∈ ids
    · refine iff_of_false ?_ (fun hr => hr.2 hx)
      rintro ⟨a, ha, hd⟩
      exact h.not_due hx ha hd
    · rw [h.get_of_not_mem hx]
      exact ⟨fun hl => ⟨hl, hx⟩, fun hr => hr.1⟩
  have hlen := hall.length_eq
  rw [List.length_map, length_filter_not_mem SagaTable.due_nodup hids
    (fun x hx => SagaTable.mem_map_due.mpr (hdue x hx)), List.length_map] at hlen
  exact hlen

/-- A batch and the next one are one batch. -/
theorem IsBatch.append {limit limit' : Nat} (h : IsBatch t now limit ids)
    (hfailed : FailedOnly t t₁ ids) (h' : IsBatch t₁ now limit' ids') :
    IsBatch t now (limit + limit') (ids ++ ids') := by
  have hnew : ∀ y ∈ ids', y ∉ ids ∧ ∃ b, t.get y = some b ∧ Due now b := by
    intro y hy
    obtain ⟨b, hb, hdue⟩ := h'.isDue y hy
    have hnot : y ∉ ids := fun hmem => hfailed.not_due hmem hb hdue
    rw [hfailed.get_of_not_mem hnot] at hb
    exact ⟨hnot, b, hb, hdue⟩
  refine ⟨?_, ?_, ?_, ?_, ?_⟩
  · refine List.nodup_append.mpr ⟨h.nodup, h'.nodup, ?_⟩
    rintro x hx y hy rfl
    exact (hnew x hy).1 hx
  · intro x hx
    rcases List.mem_append.mp hx with hx | hx
    · exact h.isDue x hx
    · exact (hnew x hx).2
  · refine List.pairwise_append.mpr ⟨h.sorted, ?_, ?_⟩
    · refine h'.sorted.imp_of_mem (fun hx hy hle a b ha hb => ?_)
      rw [← hfailed.get_of_not_mem (hnew _ hx).1] at ha
      rw [← hfailed.get_of_not_mem (hnew _ hy).1] at hb
      exact hle a b ha hb
    · intro x hx y hy a b ha hb
      obtain ⟨hnot, b', hb', hdue⟩ := hnew y hy
      rw [hb] at hb'
      cases hb'
      exact h.earliest x hx y hnot a b ha hb hdue
  · intro x hx y hy a b ha hb hdue
    rw [List.mem_append, not_or] at hy
    rcases List.mem_append.mp hx with hx | hx
    · exact h.earliest x hx y hy.1 a b ha hb hdue
    · rw [← hfailed.get_of_not_mem (hnew x hx).1] at ha
      rw [← hfailed.get_of_not_mem hy.1] at hb
      exact h'.earliest x hx y hy.2 a b ha hb hdue
  · have hlen := h.length_eq
    have hlen' := h'.length_eq
    rw [hfailed.length_due h.nodup h.isDue] at hlen'
    rw [List.length_append]
    omega

/-- The batch depends on the time only through what is due. -/
theorem IsBatch.of_due_iff {time limit : Nat} (h : IsBatch t time limit ids)
    (hiff : ∀ x a, t.get x = some a → (Due time a ↔ Due now a)) : IsBatch t now limit ids := by
  -- what is due is the same list at both times
  have hsame : t.due time = t.due now := by
    refine List.filter_congr (fun i hi => ?_)
    exact decide_eq_decide.mpr (hiff i.id i (SagaTable.get_of_mem hi))
  refine ⟨h.nodup, fun x hx => ?_, h.sorted, fun x hx y hy a b ha hb hdue => ?_, ?_⟩
  · obtain ⟨a, ha, hdue⟩ := h.isDue x hx
    exact ⟨a, ha, (hiff x a ha).mp hdue⟩
  · exact h.earliest x hx y hy a b ha hb ((hiff y b hb).mpr hdue)
  · rw [← hsame]
    exact h.length_eq

/-- The model's query answers with a batch. -/
theorem SagaTable.isBatch_listTimedOut (t : SagaTable) (now limit : Nat) :
    IsBatch t now limit (t.listTimedOut now limit) := by
  let sortedRows := (t.due now).insertionSort (fun a b => a.timeoutAt ≤ b.timeoutAt)
  have hlist : t.listTimedOut now limit = (sortedRows.take limit).map Instance.id := by
    rw [SagaTable.listTimedOut]
    congr 3
    exact List.filter_congr (fun i _ => (Bool.decide_and _ _).symm)
  have hmem : ∀ i ∈ sortedRows, t.get i.id = some i ∧ Due now i :=
    fun i hi => SagaTable.mem_due.mp ((List.mem_insertionSort _).mp hi)
  have hsorted : sortedRows.Pairwise (fun a b => a.timeoutAt ≤ b.timeoutAt) :=
    List.pairwise_insertionSort _ _
  -- `ORDER BY` and `LIMIT`: what is kept comes before what is cut off
  have hparts := List.take_append_drop limit sortedRows
  rw [← hparts, List.pairwise_append] at hsorted
  refine ⟨t.listTimedOut_nodup now limit, fun x hx => ?_, ?_, ?_, ?_⟩
  · rw [hlist] at hx
    obtain ⟨i, hi, rfl⟩ := List.mem_map.mp hx
    exact ⟨i, hmem i (List.mem_of_mem_take hi)⟩
  · rw [hlist, List.pairwise_map]
    refine hsorted.1.imp_of_mem (fun hi hj hle a b ha hb => ?_)
    rw [(hmem _ (List.mem_of_mem_take hi)).1] at ha
    rw [(hmem _ (List.mem_of_mem_take hj)).1] at hb
    cases ha
    cases hb
    exact hle
  · intro x hx y hy a b ha hb hdue
    rw [hlist] at hx hy
    obtain ⟨i, hi, rfl⟩ := List.mem_map.mp hx
    rw [(hmem i (List.mem_of_mem_take hi)).1] at ha
    cases ha
    have hid := SagaTable.get_id hb
    have hall : b ∈ sortedRows := by
      refine (List.mem_insertionSort _).mpr (SagaTable.mem_due.mpr ⟨?_, hdue⟩)
      rw [hid]
      exact hb
    rw [← hparts, List.mem_append] at hall
    rcases hall with htaken | hleft
    · exact absurd (List.mem_map.mpr ⟨b, htaken, hid⟩) hy
    · exact hsorted.2.2 _ hi _ hleft
  · rw [hlist, List.length_map, List.length_take, List.length_insertionSort]

end Due

/-! ## What a `Reap` does -/

/-- The loop over a batch, at any time. -/
theorem IsBatch.reaped {s : State} {ids : List String} {time limit : Nat} (h : IsBatch s.sagas time limit ids) :
    Reaped s (ids.foldl State.compensated { s with now := time }) ids := by
  have hloop : Reaped { s with now := time }
      (ids.foldl State.compensated { s with now := time }) ids := by
    refine reaped_foldl h.nodup (fun x hx => ?_)
    obtain ⟨a, ha, hdue⟩ := h.isDue x hx
    exact ⟨a, ha, hdue.1⟩
  exact ⟨hloop.sagas, hloop.withdrawn, hloop.kept, hloop.log⟩

/-! ## One `Reap` after another -/

/-- Between `now` and `time` the deadline of no saga passes that still waits. -/
def NoneExpires (now time : Nat) (s : State) : Prop :=
  ∀ x inst, s.sagas.get x = some inst → inst.state = .awaitingConfirmation →
    inst.timeoutAt < time → inst.timeoutAt < now

/-- Nothing fails, and `ListTimedOut` answers whatever `ORDER BY timeout_at LIMIT limit`
allows in this state, for the limit it is called with. The choice is which of these
answers it is; any other list is none. -/
def batching (s : State) : (o : Op) → List String → Option (o.Res × State)
  | .sagaListTimedOut limit => fun ids =>
    if IsBatch s.sagas s.now limit ids then some (.ok ids, s) else none
  | o => fun _ => unfailing s o

theorem batching_eq (s : State) (o : Op) (ids : List String) (h : o.lists = false) :
    batching s o ids = unfailing s o := by
  cases o with
  | sagaListTimedOut limit => cases h
  | _ => rfl

/-- **What `Reap` does**: it compensates a batch of `reaperBatch`, one saga after the
other, and every such batch is one it may take. -/
theorem reap_returns_iff {s s' : State} : reap.Returns batching s () s' ↔
    ∃ ids, IsBatch s.sagas s.now reaperBatch ids ∧ s' = ids.foldl State.compensated s := by
  have hloop : ∀ ids, (reapLoop ids).Returns batching s () s' ↔
      s' = ids.foldl State.compensated s := by
    intro ids
    rw [(reapLoop_lists ids).returns_iff batching_eq ids, reapLoop_run_eq, Option.some.injEq,
      Prod.mk.injEq]
    exact ⟨fun h => h.2.symm, fun h => ⟨rfl, h.symm⟩⟩
  rw [reap, SagaStore.listTimedOut, statement, Prog.op_bind]
  constructor
  · intro h
    obtain ⟨ids, r, s₁, hx, hret⟩ := Prog.returns_op h
    simp only [batching] at hx
    split at hx
    · next hbatch =>
      cases hx
      exact ⟨ids, hbatch, (hloop ids).mp hret⟩
    · cases hx
  · rintro ⟨ids, hbatch, hs'⟩
    have hx : batching s (.sagaListTimedOut reaperBatch) ids = some (.ok ids, s) := if_pos hbatch
    exact .op hx ((hloop ids).mpr hs')

/-- Consecutive calls of `Reap`, each at a time not before `now`. Nothing fails,
nothing else happens, and no further deadline passes. -/
def Reaps (now : Nat) (s : State) : List Nat → State → Prop
  | [], s' => s' = s
  | time :: times, s' =>
    now ≤ time ∧ NoneExpires now time s ∧
      ∃ s₁, reap.Returns batching { s with now := time } () s₁ ∧ Reaps now s₁ times s'

/-- What is due is the same at both times. -/
theorem due_iff_of_noneExpires {now time : Nat} {s : State} (hle : now ≤ time)
    (hnone : NoneExpires now time s) {x : String} {a : Instance} (ha : s.sagas.get x = some a) :
    Due time a ↔ Due now a :=
  ⟨fun h => ⟨h.1, hnone x a ha h.1 h.2⟩, fun h => ⟨h.1, Nat.lt_of_lt_of_le h.2 hle⟩⟩

/-- Together the calls take what one query would list, and do nothing else. -/
theorem Reaps.reaped {now : Nat} {s s' : State} {times : List Nat} (h : Reaps now s times s') :
    ∃ ids, IsBatch s.sagas now (reaperBatch * times.length) ids ∧ Reaped s s' ids := by
  induction times generalizing s with
  | nil =>
    rw [show s' = s from h]
    refine ⟨[], ⟨List.nodup_nil, fun x hx => absurd hx List.not_mem_nil, List.Pairwise.nil,
      fun x hx => absurd hx List.not_mem_nil, ?_⟩, Reaped.refl s⟩
    simp
  | cons time times ih =>
    obtain ⟨hle, hnone, s₁, hret, hrest⟩ := h
    obtain ⟨ids, hbatch, hs₁⟩ := reap_returns_iff.mp hret
    -- no further deadline has passed since `now`
    have hbatch' : IsBatch s.sagas now reaperBatch ids :=
      IsBatch.of_due_iff hbatch (fun x a ha => due_iff_of_noneExpires hle hnone ha)
    have hone : Reaped s s₁ ids := by
      rw [hs₁]
      exact IsBatch.reaped hbatch
    obtain ⟨ids', hmore, hreaped⟩ := ih hrest
    refine ⟨ids ++ ids', ?_, hone.trans hreaped⟩
    have hall := hbatch'.append hone.sagas hmore
    rw [List.length_cons, Nat.mul_add, Nat.mul_one, Nat.add_comm]
    exact hall

/-- Such calls can be made at any times at which nothing more expires. -/
theorem exists_reaps {now : Nat} {s : State} {times : List Nat}
    (h : ∀ time ∈ times, now ≤ time ∧ NoneExpires now time s) : ∃ s', Reaps now s times s' := by
  induction times generalizing s with
  | nil => exact ⟨s, rfl⟩
  | cons time times ih =>
    obtain ⟨hle, hnone⟩ := h time List.mem_cons_self
    let ids := s.sagas.listTimedOut time reaperBatch
    have hbatch : IsBatch s.sagas time reaperBatch ids :=
      s.sagas.isBatch_listTimedOut time reaperBatch
    have hret : reap.Returns batching { s with now := time } ()
        (ids.foldl State.compensated { s with now := time }) :=
      reap_returns_iff.mpr ⟨ids, hbatch, rfl⟩
    -- a saga that waits afterwards has waited before
    have hnext : ∀ time' ∈ times, now ≤ time' ∧
        NoneExpires now time' (ids.foldl State.compensated { s with now := time }) := by
      intro time' htime
      obtain ⟨hle', hnone'⟩ := h time' (List.mem_cons_of_mem _ htime)
      refine ⟨hle', fun x inst hx hst hlt => ?_⟩
      rw [hbatch.reaped.sagas x] at hx
      obtain ⟨i, hi, rfl⟩ := Option.map_eq_some_iff.mp hx
      by_cases hmem : x ∈ ids
      · rw [if_pos hmem] at hst
        cases hst
      · rw [if_neg hmem] at hst hlt ⊢
        exact hnone' x i hi hst hlt
    obtain ⟨s', hreaps⟩ := ih hnext
    exact ⟨s', hle, hnone, _, hret, hreaps⟩

/-! ## The backlog -/

/-- The sagas of a backlog that still wait. -/
theorem countP_waiting {s s' : State} {now : Nat} {ids : List String} (h : Reaped s s' ids)
    (hnodup : ids.Nodup) (hdue : ∀ x ∈ ids, ∃ a, s.sagas.get x = some a ∧ Due now a) :
    (s.sagas.due now).countP (fun i =>
        decide ((s'.sagas.get i.id).map Instance.state = some .awaitingConfirmation))
      = (s.sagas.due now).length - ids.length := by
  have hwaits : ∀ i ∈ s.sagas.due now,
      (decide ((s'.sagas.get i.id).map Instance.state = some .awaitingConfirmation) = true ↔
        decide (i.id ∉ ids) = true) := by
    intro i hi
    obtain ⟨hget, hst, -⟩ := SagaTable.mem_due.mp hi
    rw [decide_eq_true_eq, decide_eq_true_eq, h.sagas i.id, hget]
    by_cases hmem : i.id ∈ ids
    · simp [hmem]
    · simp [hmem, hst]
  have hall : ((s.sagas.due now).map Instance.id).Nodup := SagaTable.due_nodup
  have hcount := length_filter_not_mem hall hnodup
    (fun x hx => SagaTable.mem_map_due.mpr (hdue x hx))
  rw [List.length_map, ← List.countP_eq_length_filter, List.countP_map] at hcount
  rw [List.countP_congr hwaits]
  exact hcount

/-- **The reaper drains a backlog.** Of the `n` sagas that are due, `k` calls leave
`n - 100 k` waiting. What they take together is a batch of `100 k`, that is the earliest
deadlines first: these are failed with their subscriptions unsubscribed or absent, and
their `Cancel` calls were made in this order. The other due sagas are as they were, and no
other saga and no subscription that none of the due sagas refers to has changed. Such
calls can be made at all times at which no further deadline has passed. -/
theorem reaper_drains (s : State) :
    (∀ times s', Reaps s.now s times s' →
      (s.sagas.due s.now).countP (fun i =>
          decide ((s'.sagas.get i.id).map Instance.state = some .awaitingConfirmation))
        = (s.sagas.due s.now).length - reaperBatch * times.length ∧
      (∃ ids, IsBatch s.sagas s.now (reaperBatch * times.length) ids ∧
        s'.statusLog = (ids.filterMap
          (fun x => (s.sagas.get x).map (cancelRecord x))).reverse ++ s.statusLog ∧
        ∀ i ∈ s.sagas.due s.now,
          (i.id ∈ ids → s'.sagas.get i.id = some { i with state := .failed } ∧
            Withdrawn s' i.data.subscriptionID) ∧
          (i.id ∉ ids → s'.sagas.get i.id = some i)) ∧
      (∀ x, (∀ i ∈ s.sagas.due s.now, i.id ≠ x) → s'.sagas.get x = s.sagas.get x) ∧
      ∀ id, (∀ i ∈ s.sagas.due s.now, i.data.subscriptionID ≠ id) →
        s'.tables.byID id = s.tables.byID id) ∧
    ∀ times, (∀ time ∈ times, s.now ≤ time ∧ NoneExpires s.now time s) →
      ∃ s', Reaps s.now s times s' := by
  refine ⟨fun times s' h => ?_, fun times h => exists_reaps h⟩
  obtain ⟨ids, hbatch, hreaped⟩ := h.reaped
  -- what was taken was due
  have hrow : ∀ x ∈ ids, ∀ a, s.sagas.get x = some a → a ∈ s.sagas.due s.now ∧ a.id = x := by
    intro x hx a ha
    obtain ⟨a', ha', hdue⟩ := hbatch.isDue x hx
    rw [ha] at ha'
    cases ha'
    have hid := SagaTable.get_id ha
    exact ⟨SagaTable.mem_due.mpr ⟨by rw [hid]; exact ha, hdue⟩, hid⟩
  refine ⟨?_, ⟨ids, hbatch, hreaped.log, fun i hi => ⟨fun hmem => ⟨?_, ?_⟩, fun hmem => ?_⟩⟩,
    fun x hx => ?_, fun id hid => ?_⟩
  · rw [countP_waiting hreaped hbatch.nodup hbatch.isDue, hbatch.length_eq]
    omega
  · rw [hreaped.sagas, (SagaTable.mem_due.mp hi).1, Option.map_some, if_pos hmem]
  · exact hreaped.isWithdrawn hmem (SagaTable.mem_due.mp hi).1
  · rw [hreaped.sagas.get_of_not_mem hmem, (SagaTable.mem_due.mp hi).1]
  · refine hreaped.sagas.get_of_not_mem (fun hmem => ?_)
    obtain ⟨a, ha, hdue⟩ := hbatch.isDue x hmem
    obtain ⟨hmem', hid⟩ := hrow x hmem a ha
    exact hx a hmem' hid
  · refine hreaped.kept id (fun x hx a ha => ?_)
    exact hid a (hrow x hx a ha).1

/-- One saga is overdue, and one `Reap` later none is. -/
theorem reaper_drains_one :
    ∃ p s', (monolith sample).steps monolithInit replyMissing = some p ∧
      Reaps p.state.now p.state [p.state.now] s' ∧
      (p.state.sagas.due p.state.now).length = 1 ∧
      (p.state.sagas.due p.state.now).countP (fun i =>
        decide ((s'.sagas.get i.id).map Instance.state = some .awaitingConfirmation)) = 0 := by
  have hrun : ((monolith sample).steps monolithInit replyMissing).any (fun p =>
      decide ((p.state.sagas.due p.state.now).length = 1)) = true := by
    decide
  obtain ⟨p, hp, hone⟩ := (Option.any_eq_true _ _).mp hrun
  have hlen := of_decide_eq_true hone
  obtain ⟨hall, hcalls⟩ := reaper_drains p.state
  obtain ⟨s', hreaps⟩ := hcalls [p.state.now] (fun time htime => by
    rw [List.mem_singleton.mp htime]
    exact ⟨Nat.le_refl _, fun _ _ _ _ hlt => hlt⟩)
  have hcount := (hall [p.state.now] s' hreaps).1
  rw [hlen] at hcount
  exact ⟨p, s', hp, hreaps, hlen, hcount⟩

end ReleaseNotifier
