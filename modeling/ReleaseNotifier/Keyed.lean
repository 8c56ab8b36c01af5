/-
Many small machines in one map.

An operation has a key, reads the entry under that key, answers, and leaves a new
entry there. Nothing else is read or written, so what is answered under one key
does not depend on the operations under the others: `answers_filter` says what the
answers under a key are, and `filter_answers` that leaving the others out changes
none of them.
-/
import Mathlib.Logic.Function.Basic

set_option autoImplicit false

/-- What an operation of type `A` does to the entry under its key. -/
structure Keyed (K A S R : Type) where
  key : A → K
  step : Option S → A → R × S

namespace Keyed

variable {K A S R : Type} [DecidableEq K] (m : Keyed K A S R)

/-- One operation on the map. -/
def apply (entries : K → Option S) (a : A) : R × (K → Option S) :=
  ((m.step (entries (m.key a)) a).1,
    Function.update entries (m.key a) (some (m.step (entries (m.key a)) a).2))

/-- The operations of a run, each with its answer. -/
def answers (entries : K → Option S) : List A → List (A × R)
  | [] => []
  | a :: as => (a, (m.apply entries a).1) :: answers (m.apply entries a).2 as

/-- The same for one entry, whatever the keys. -/
def alone (entry : Option S) : List A → List (A × R)
  | [] => []
  | a :: as => (a, (m.step entry a).1) :: alone (some (m.step entry a).2) as

theorem map_fst_answers (entries : K → Option S) (as : List A) :
    (m.answers entries as).map Prod.fst = as := by
  induction as generalizing entries with
  | nil => rfl
  | cons a as ih => rw [answers, List.map_cons, ih]

/-- An access is a step of the entry for its key. -/
theorem apply_of_key {k : K} {a : A} (h : m.key a = k) (entries : K → Option S) :
    (m.apply entries a).1 = (m.step (entries k) a).1 ∧
      (m.apply entries a).2 k = some (m.step (entries k) a).2 := by
  subst h
  exact ⟨rfl, Function.update_self _ _ _⟩

/-- It touches no other entry. -/
theorem apply_of_ne {k : K} {a : A} (h : m.key a ≠ k) (entries : K → Option S) :
    (m.apply entries a).2 k = entries k := Function.update_of_ne (Ne.symm h) _ _

/-- The answers under a key are those of its entry alone. -/
theorem answers_filter (k : K) (entries : K → Option S) (as : List A) :
    (m.answers entries as).filter (fun x => decide (m.key x.1 = k)) =
      m.alone (entries k) (as.filter (fun a => decide (m.key a = k))) := by
  induction as generalizing entries with
  | nil => rfl
  | cons a as ih =>
    rw [answers, List.filter_cons, List.filter_cons, ih]
    by_cases hk : m.key a = k
    · obtain ⟨hanswer, hentry⟩ := m.apply_of_key hk entries
      rw [if_pos (decide_eq_true hk), if_pos (decide_eq_true hk), alone, hanswer, hentry]
    · rw [if_neg (by simpa using hk), if_neg (by simpa using hk), m.apply_of_ne hk]

/-- A run with the operations under one key only is this key's part of the run. -/
theorem filter_answers (k : K) (entries : K → Option S) (as : List A) :
    m.answers entries (as.filter (fun a => decide (m.key a = k))) =
      (m.answers entries as).filter (fun x => decide (m.key x.1 = k)) := by
  have hkeys : ∀ x ∈ m.answers entries (as.filter (fun a => decide (m.key a = k))),
      decide (m.key x.1 = k) = true := by
    intro x hx
    have hmem := List.mem_map_of_mem (f := Prod.fst) hx
    rw [map_fst_answers] at hmem
    exact (List.mem_filter.mp hmem).2
  rw [← List.filter_eq_self.mpr hkeys, answers_filter, answers_filter, List.filter_filter]
  simp only [Bool.and_self]

end Keyed
