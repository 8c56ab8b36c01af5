/-
The `saga_instances` table (`migrations/000002_init_saga_instances.up.sql`) and
the statements of `internal/saga/store.go` on it.

The guards in the `WHERE` clauses are what the orchestrator's single-winner
argument rests on, so the statements are kept as the store has them: a
conditional update of the state column, and the number of rows it hit.
`saga_type`, `compensated_at`, `created_at` and `updated_at` are written but
never read by the code and are left out.
-/
import ReleaseNotifier.Table
import Mathlib.Data.List.Sort
import Mathlib.Data.List.InsertIdx

set_option autoImplicit false

namespace ReleaseNotifier

/-- `saga.State`. -/
inductive SagaState
  | awaitingConfirmation
  | completed
  | compensating
  | failed
  deriving DecidableEq, Repr

/-- `saga.SubscriptionData`, the saga's working set. -/
structure SubscriptionData where
  email : String
  repo : String
  owner : String
  name : String
  token : String
  confirmURL : String
  subscriptionID : Nat
  deriving DecidableEq, Repr

/-- `saga.Instance`, one persisted saga. -/
structure Instance where
  id : String
  state : SagaState
  data : SubscriptionData
  timeoutAt : Nat
  deriving DecidableEq, Repr

/-- The table; `id` is its primary key. -/
structure SagaTable where
  rows : List Instance
  idsUnique : (rows.map Instance.id).Nodup

/-- One edge of the saga's life cycle, or none. -/
inductive SagaState.Edge : SagaState → SagaState → Prop
  | stay (a : SagaState) : Edge a a
  | complete : Edge .awaitingConfirmation .completed
  | claim : Edge .awaitingConfirmation .compensating
  | compensated : Edge .compensating .failed

/-- What may lie between two looks at one saga. -/
def SagaState.Follows (a b : SagaState) : Prop :=
  a = b ∨ a = .awaitingConfirmation ∨ (a = .compensating ∧ b = .failed)

/-- One transition is a case of what may follow. -/
theorem SagaState.Edge.follows {a b : SagaState} (h : SagaState.Edge a b) :
    SagaState.Follows a b := by
  cases h with
  | stay => exact .inl rfl
  | complete => exact .inr (.inl rfl)
  | claim => exact .inr (.inl rfl)
  | compensated => exact .inr (.inr ⟨rfl, rfl⟩)

theorem SagaState.Follows.refl (a : SagaState) : SagaState.Follows a a := .inl rfl

/-- Several transitions lead no further than the relation says. -/
theorem SagaState.Follows.trans {a b c : SagaState} (hab : SagaState.Follows a b)
    (hbc : SagaState.Follows b c) : SagaState.Follows a c := by
  rcases hab with rfl | rfl | ⟨rfl, rfl⟩
  · exact hbc
  · exact .inr (.inl rfl)
  · rcases hbc with rfl | h | ⟨h, _⟩
    · exact .inr (.inr ⟨rfl, rfl⟩)
    · cases h
    · cases h

namespace SagaTable

variable {t : SagaTable} {id : String} {inst : Instance}

/-- The table before the first saga. -/
def empty : SagaTable := ⟨[], by simp⟩

/-- The row with primary key `id`: the `SELECT` of `Store.Get`. -/
def get (t : SagaTable) (id : String) : Option Instance := Table.lookup Instance.id t.rows id

@[simp] theorem get_empty (id : String) : empty.get id = none := rfl

/-- A saga that is found is a row. -/
theorem get_mem (h : t.get id = some inst) : inst ∈ t.rows := Table.lookup_mem h

theorem get_id (h : t.get id = some inst) : inst.id = id := Table.lookup_key h

/-- Ids are unique, so a row is what its id finds. -/
theorem get_of_mem (h : inst ∈ t.rows) : t.get inst.id = some inst :=
  Table.lookup_of_mem t.idsUnique h

/-- The row test `id = $2 AND state = $3`. -/
def isAt (id : String) (state : SagaState) (x : Instance) : Bool :=
  decide (x.id = id) && decide (x.state = state)

/-- `UPDATE saga_instances SET state = $1 WHERE id = $2 AND state = $3`. -/
def transition (t : SagaTable) (dst : SagaState) (id : String) (src : SagaState) : SagaTable where
  rows := Table.update (isAt id src) (fun x => { x with state := dst }) t.rows
  idsUnique := by
    rw [Table.map_update]
    · exact t.idsUnique
    · exact fun _ _ => rfl

/-- How many rows the statement hits. -/
def hits (t : SagaTable) (id : String) (src : SagaState) : Nat := t.rows.countP (isAt id src)

/-- The `INSERT` of `Store.Create`; the primary key refuses a second row. -/
def insert (t : SagaTable) (inst : Instance) (h : t.get inst.id = none) : SagaTable where
  rows := t.rows ++ [inst]
  idsUnique := by
    rw [List.map_append, List.nodup_append]
    refine ⟨t.idsUnique, by simp, ?_⟩
    intro a ha b hb hab
    obtain ⟨x, hx, rfl⟩ := List.mem_map.mp ha
    rw [List.map_singleton, List.mem_singleton] at hb
    exact Table.lookup_eq_none.mp h x hx (hab.trans hb)

/-- The query of `Store.ListTimedOut`: ids of awaiting sagas past their
deadline, earliest deadline first, at most `limit`. -/
def listTimedOut (t : SagaTable) (now limit : Nat) : List String :=
  (((t.rows.filter (fun x => decide (x.state = .awaitingConfirmation) &&
      decide (x.timeoutAt < now))).insertionSort
    (fun a b => a.timeoutAt ≤ b.timeoutAt)).take limit).map Instance.id

/-! ## What the rows look like after a statement -/

/-- `UPDATE … WHERE id = … AND state = …`, as seen by every lookup afterwards. -/
theorem get_transition (dst : SagaState) (src : SagaState) (i : String) :
    (t.transition dst id src).get i
      = (t.get i).map (fun x => if i = id ∧ x.state = src then { x with state := dst } else x) := by
  have hupd : Table.lookup Instance.id
      (Table.update (isAt id src) (fun x => { x with state := dst }) t.rows) i
      = (Table.lookup Instance.id t.rows i).map
          (fun x => if isAt id src x then { x with state := dst } else x) :=
    Table.lookup_update (fun _ _ => rfl)
  rw [get, transition, hupd]
  cases hx : Table.lookup Instance.id t.rows i with
  | none => simp [get, hx]
  | some x =>
    have hid : x.id = i := Table.lookup_key hx
    simp [get, hx, isAt, hid]

/-- An insert adds its own row and changes no other. -/
theorem get_insert (h : t.get inst.id = none) (i : String) :
    (t.insert inst h).get i = if i = inst.id then some inst else t.get i := by
  rw [get, insert, Table.lookup_append_singleton]
  by_cases hi : i = inst.id
  · subst hi
    rw [if_pos rfl, if_pos rfl]
    rw [get] at h
    rw [h, Option.none_or]
  · rw [if_neg hi, if_neg (fun he => hi he.symm), Option.or_none, get]

/-- The statement hits a row exactly when the saga is in the state it asks for. -/
theorem hits_eq (src : SagaState) :
    t.hits id src = if (t.get id).map Instance.state = some src then 1 else 0 := by
  have hle : t.hits id src ≤ 1 := by
    refine Table.countP_le_one (k := id) t.idsUnique (fun r _ hr => ?_)
    simp only [isAt, Bool.and_eq_true, decide_eq_true_eq] at hr
    exact hr.1
  by_cases hst : (t.get id).map Instance.state = some src
  · obtain ⟨x, hx, hxs⟩ := Option.map_eq_some_iff.mp hst
    have hpos : 0 < t.hits id src :=
      List.countP_pos_iff.mpr ⟨x, get_mem hx, by simp [isAt, get_id hx, hxs]⟩
    rw [if_pos hst]
    omega
  · rw [if_neg hst]
    refine List.countP_eq_zero.mpr (fun x hx hp => hst ?_)
    simp only [isAt, Bool.and_eq_true, decide_eq_true_eq] at hp
    rw [← hp.1, get_of_mem hx, Option.map_some, hp.2]

/-- What `ListTimedOut` lists waits past its deadline. -/
theorem mem_listTimedOut {now limit : Nat} (h : id ∈ t.listTimedOut now limit) :
    ∃ x, t.get id = some x ∧ x.state = .awaitingConfirmation ∧ x.timeoutAt < now := by
  obtain ⟨x, hx, rfl⟩ := List.mem_map.mp h
  have hmem := (List.mem_insertionSort _).mp (List.mem_of_mem_take hx)
  rw [List.mem_filter] at hmem
  simp only [Bool.and_eq_true, decide_eq_true_eq] at hmem
  exact ⟨x, get_of_mem hmem.1, hmem.2.1, hmem.2.2⟩

/-- With no more overdue sagas than the limit, every one of them is listed. -/
theorem listTimedOut_of_le {now limit : Nat}
    (hle : t.rows.countP (fun x => decide (x.state = .awaitingConfirmation) &&
      decide (x.timeoutAt < now)) ≤ limit)
    (hx : t.get id = some inst) (hs : inst.state = .awaitingConfirmation)
    (ht : inst.timeoutAt < now) : id ∈ t.listTimedOut now limit := by
  have hlen : ((t.rows.filter (fun x => decide (x.state = .awaitingConfirmation) &&
      decide (x.timeoutAt < now))).insertionSort
        (fun a b => a.timeoutAt ≤ b.timeoutAt)).length ≤ limit := by
    rw [List.length_insertionSort, ← List.countP_eq_length_filter]
    exact hle
  rw [listTimedOut, List.take_of_length_le hlen, List.mem_map]
  refine ⟨inst, (List.mem_insertionSort _).mpr (List.mem_filter.mpr ⟨get_mem hx, ?_⟩), get_id hx⟩
  simp [hs, ht]

end SagaTable

end ReleaseNotifier
