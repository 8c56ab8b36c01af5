/-
The notifier's ledger: the table `sent_notifications` and the two statements of
`services/notification/store/postgres.go`.

A row is written when a notification is reserved and marked when it has been
sent, so a dedup key is in one of three conditions: it has no row, its row has
no `sent_at`, or it has one. Everything above the statements depends on a key's
condition only (`Ledger.mark`), and each statement moves the condition of its
own key and no other; the rows are not looked at again after this file.

`kind` and `dedup_key` always fit their columns: a kind is one of two constants,
a key is the hexadecimal form of a SHA-256 sum.
-/
import ReleaseNotifier.Table

set_option autoImplicit false

namespace ReleaseNotifier

/-- The values of the `kind` column. -/
inductive Kind
  | confirmation
  | release
  deriving DecidableEq, Repr

/-- The text of a kind: `kindConfirmation` and `kindRelease`. -/
def Kind.text : Kind → String
  | .confirmation => "confirmation"
  | .release => "release"

/-- A row of `sent_notifications`. -/
structure LedgerRow where
  id : Nat
  kind : Kind
  dedupKey : String
  sentAt : Option Nat
  deriving DecidableEq, Repr

/-- `sent_notifications`: the dedup keys are unique. -/
structure Ledger where
  rows : List LedgerRow
  nextID : Nat
  keysUnique : (rows.map LedgerRow.dedupKey).Nodup

namespace Ledger

/-- The table after the migrations. -/
def empty : Ledger := ⟨[], 1, List.nodup_nil⟩

/-- The row of a dedup key. -/
def get (l : Ledger) (key : String) : Option LedgerRow :=
  Table.lookup LedgerRow.dedupKey l.rows key

/-- `INSERT` of a key that has no row. -/
def insert (l : Ledger) (kind : Kind) (key : String) (h : l.get key = none) : Ledger where
  rows := l.rows ++ [⟨l.nextID, kind, key, none⟩]
  nextID := l.nextID + 1
  keysUnique := by
    rw [List.map_append, List.nodup_append]
    refine ⟨l.keysUnique, List.nodup_singleton _, ?_⟩
    intro k hk k' hk' heq
    simp only [List.map_cons, List.map_nil, List.mem_singleton] at hk'
    obtain ⟨r, hr, rfl⟩ := List.mem_map.mp hk
    exact Table.lookup_eq_none.mp h r hr (heq.trans hk')

/-- `UPDATE ... WHERE dedup_key = ...`, of other columns than the key. -/
def rewrite (l : Ledger) (key : String) (f : LedgerRow → LedgerRow)
    (hf : ∀ r, (f r).dedupKey = r.dedupKey) : Ledger where
  rows := Table.update (fun r => decide (r.dedupKey = key)) f l.rows
  nextID := l.nextID
  keysUnique := by
    rw [Table.map_update (fun r _ => hf r)]
    exact l.keysUnique

/-- `reserveQuery`: the id it returns, if it returns a row. -/
def reserveQuery (l : Ledger) (kind : Kind) (key : String) : Option Nat × Ledger :=
  match h : l.get key with
  | none => (some l.nextID, l.insert kind key h)
  | some row =>
    -- the conflicting row is updated, and returned, only while it is unsent
    if row.sentAt = none then (some row.id, l.rewrite key (fun r => { r with kind := kind }) (fun _ => rfl))
    else (none, l)

/-- `confirmQuery`. -/
def confirmQuery (l : Ledger) (now : Nat) (key : String) : Ledger :=
  l.rewrite key (fun r => { r with sentAt := some now }) (fun _ => rfl)

end Ledger

/-! ## The condition of a key -/

/-- What the ledger says of a dedup key. -/
inductive Mark
  | absent
  | reserved
  | confirmed
  deriving DecidableEq, Repr

/-- What reserving makes of a key's condition. -/
def Mark.reserve : Mark → Mark
  | .absent => .reserved
  | m => m

/-- What confirming makes of it: a row has to be there. -/
def Mark.confirm : Mark → Mark
  | .absent => .absent
  | _ => .confirmed

/-- The condition a row is in. -/
def LedgerRow.mark (r : LedgerRow) : Mark := if r.sentAt.isSome then .confirmed else .reserved

/-- The condition of a key. -/
def Ledger.mark (l : Ledger) (key : String) : Mark :=
  match l.get key with
  | some row => row.mark
  | none => .absent

namespace Ledger

variable {l : Ledger} {kind : Kind} {key k : String}

theorem mark_absent : l.mark key = .absent ↔ l.get key = none := by
  unfold mark
  split
  · next row h =>
    rw [h]
    simp only [LedgerRow.mark, reduceCtorEq, iff_false]
    split <;> simp
  · next h => simp [h]

theorem mark_of_get {row : LedgerRow} (h : l.get key = some row) : l.mark key = row.mark := by
  simp only [mark, h]

/-- A statement on the row of one key leaves the others' conditions alone. -/
theorem mark_rewrite (f : LedgerRow → LedgerRow) (hf : ∀ r, (f r).dedupKey = r.dedupKey)
    (g : Mark → Mark) (hmark : ∀ r, (f r).mark = g r.mark) (habsent : g .absent = .absent) :
    (l.rewrite key f hf).mark k = if k = key then g (l.mark k) else l.mark k := by
  have hget : (l.rewrite key f hf).get k
      = (l.get k).map (fun r => if decide (r.dedupKey = key) then f r else r) :=
    Table.lookup_update (fun r _ => hf r)
  cases h : l.get k with
  | none =>
    have hl : l.mark k = .absent := mark_absent.mpr h
    rw [h, Option.map_none] at hget
    rw [mark_absent.mpr hget, hl, habsent, ite_self]
  | some row =>
    have hrow : row.dedupKey = k := Table.lookup_key h
    rw [h, Option.map_some, hrow] at hget
    rw [mark_of_get hget, mark_of_get h]
    by_cases hk : k = key
    · simp [hk, hmark]
    · simp [hk]

/-- A reservation moves the condition of its own key. -/
theorem mark_reserveQuery :
    (l.reserveQuery kind key).2.mark k
      = if k = key then (l.mark k).reserve else l.mark k := by
  unfold reserveQuery
  split
  · next h =>
    have hget : (l.insert kind key h).get k
        = (l.get k).or (if key = k then some ⟨l.nextID, kind, key, none⟩ else none) :=
      Table.lookup_append_singleton
    by_cases hk : k = key
    · subst hk
      rw [h, Option.none_or, if_pos rfl] at hget
      rw [if_pos rfl, mark_of_get hget, mark_absent.mpr h]
      rfl
    · rw [if_neg (fun h => hk h.symm), Option.or_none] at hget
      rw [if_neg hk, mark, hget, mark]
  · next row h =>
    have hkey : l.mark key ≠ .absent := by rw [Ne, mark_absent, h]; simp
    -- on a key that is there, reserving changes the kind at most
    have hstay : ∀ m : Mark, m ≠ .absent → m.reserve = m := by
      intro m hm
      cases m with
      | absent => exact absurd rfl hm
      | reserved => rfl
      | confirmed => rfl
    have hsame : l.mark k = if k = key then (l.mark k).reserve else l.mark k := by
      by_cases hk : k = key
      · rw [if_pos hk, hstay _ (by rw [hk]; exact hkey)]
      · rw [if_neg hk]
    split
    · rw [← hsame]
      refine (mark_rewrite (fun r => { r with kind := kind }) (fun _ => rfl) id (fun _ => rfl)
        rfl).trans ?_
      rw [id, ite_self]
    · exact hsame

/-- A row is returned unless the key is confirmed. -/
theorem reserveQuery_returns :
    (l.reserveQuery kind key).1.isSome = decide (l.mark key ≠ .confirmed) := by
  unfold reserveQuery
  split
  · next h => simp [mark_absent.mpr h]
  · next row h =>
    rw [mark_of_get h]
    split
    · next hs => simp [LedgerRow.mark, hs]
    · next hs =>
      have : row.sentAt.isSome = true := Option.ne_none_iff_isSome.mp hs
      simp [LedgerRow.mark, this]

/-- A confirmation moves the condition of its own key. -/
theorem mark_confirmQuery {now : Nat} :
    (l.confirmQuery now key).mark k = if k = key then (l.mark k).confirm else l.mark k := by
  refine mark_rewrite (fun r => { r with sentAt := some now }) (fun _ => rfl) Mark.confirm
    (fun r => ?_) rfl
  cases hs : r.sentAt with
  | none => simp [LedgerRow.mark, hs, Mark.confirm]
  | some t => simp [LedgerRow.mark, hs, Mark.confirm]

end Ledger

end ReleaseNotifier
