/-
Lists of rows as database tables.

A table is the list of its rows in insertion order. `lookup` is a query by a
column that identifies rows, `update` a statement of the form
`UPDATE ... SET ... WHERE ...`, and insertion is appending. The lemmas say how
a query sees the table after a statement, which is all that reasoning about a
sequence of statements needs: no proof about a particular table has to look
into the list.
-/
import Mathlib.Data.List.Nodup

set_option autoImplicit false

namespace Table

variable {ρ κ : Type} [DecidableEq κ]

/-- The first row whose `key` column is `k`. -/
def lookup (key : ρ → κ) (t : List ρ) (k : κ) : Option ρ := t.find? (fun r => decide (key r = k))

/-- Apply `f` to the rows that satisfy `p`. -/
def update (p : ρ → Bool) (f : ρ → ρ) (t : List ρ) : List ρ :=
  t.map (fun r => if p r then f r else r)

variable {key : ρ → κ} {t : List ρ} {k : κ} {r : ρ} {p : ρ → Bool} {f : ρ → ρ}

theorem lookup_mem (h : lookup key t k = some r) : r ∈ t := List.mem_of_find?_eq_some h

theorem lookup_key (h : lookup key t k = some r) : key r = k := by
  have := List.find?_some h
  simpa using this

/-- A row is found under its own key when keys do not repeat. -/
theorem lookup_of_mem (hn : (t.map key).Nodup) (hr : r ∈ t) : lookup key t (key r) = some r := by
  induction t with
  | nil => cases hr
  | cons x xs ih =>
    rw [List.map_cons, List.nodup_cons] at hn
    by_cases hx : key x = key r
    · rcases List.mem_cons.mp hr with rfl | hmem
      · simp [lookup]
      · exact absurd (hx ▸ List.mem_map_of_mem hmem) hn.1
    · rcases List.mem_cons.mp hr with rfl | hmem
      · exact absurd rfl hx
      · have hih := ih hn.2 hmem
        simp only [lookup] at hih ⊢
        rw [List.find?_cons_of_neg (by simpa using hx)]
        exact hih

/-- A key that is not found belongs to no row. -/
theorem lookup_eq_none : lookup key t k = none ↔ ∀ r ∈ t, key r ≠ k := by
  simp [lookup, List.find?_eq_none]

/-- A statement that leaves the key column alone is seen row by row. -/
theorem lookup_update (hkey : ∀ r, p r = true → key (f r) = key r) :
    lookup key (update p f t) k = (lookup key t k).map (fun r => if p r then f r else r) := by
  have hk : ∀ r, key (if p r then f r else r) = key r := by
    intro r
    by_cases hp : p r = true
    · rw [if_pos hp]; exact hkey r hp
    · rw [if_neg hp]
  induction t with
  | nil => rfl
  | cons x xs ih =>
    simp only [lookup, update] at ih ⊢
    rw [List.map_cons, List.find?_cons, List.find?_cons, hk x]
    by_cases hx : key x = k
    · simp [hx]
    · simpa [hx] using ih

/-- A row that is appended is found last. -/
theorem lookup_append_singleton {x : ρ} :
    lookup key (t ++ [x]) k
      = (lookup key t k).or (if key x = k then some x else none) := by
  simp only [lookup, List.find?_append]
  by_cases hx : key x = k
  · simp [hx]
  · simp [hx]

/-- An update leaves every column alone that its function does. -/
theorem map_update {γ : Type} {g : ρ → γ} (hg : ∀ r, p r = true → g (f r) = g r) :
    (update p f t).map g = t.map g := by
  rw [update, List.map_map]
  refine List.map_congr_left (fun r _ => ?_)
  by_cases hp : p r = true
  · simp only [Function.comp_apply, if_pos hp]; exact hg r hp
  · simp only [Function.comp_apply, if_neg hp]

theorem mem_update : r ∈ update p f t ↔ ∃ x ∈ t, (if p x then f x else x) = r := by
  simp only [update, List.mem_map]

omit [DecidableEq κ] in
/-- With no repeated key, at most one row has a given one. -/
theorem countP_le_one (hn : (t.map key).Nodup) (hp : ∀ r ∈ t, p r = true → key r = k) :
    t.countP p ≤ 1 := by
  induction t with
  | nil => simp
  | cons x xs ih =>
    rw [List.map_cons, List.nodup_cons] at hn
    rw [List.countP_cons]
    by_cases hx : p x = true
    · have hzero : xs.countP p = 0 := by
        rw [List.countP_eq_zero]
        intro y hy hpy
        have hyk := hp y (List.mem_cons_of_mem x hy) hpy
        have hxk := hp x List.mem_cons_self hx
        exact hn.1 (by rw [hxk, ← hyk]; exact List.mem_map_of_mem hy)
      simp [hzero, hx]
    · have := ih hn.2 (fun r hr => hp r (List.mem_cons_of_mem x hr))
      simpa [hx] using this

end Table
