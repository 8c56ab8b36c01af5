/-
Histories in which nothing comes back.

A history is a list of values, oldest first. A value is superseded once another
one has followed it, and the history has no returns if no superseded value is
entered again. In such a history the values are ordered by when they were
current (`Older`), and a record that copies some of the values, each newer than
what it has, is a list without repetitions. These are the facts a consumer needs
who sees only some of the values, some of them late.
-/
import Mathlib.Data.List.Nodup
import Mathlib.Data.List.Pairwise
import Mathlib.Tactic.ByContra

set_option autoImplicit false

namespace Succession

variable {α : Type} {l : List α} {t u v x : α}

/-- `t` was current, and `u` was current later. -/
def Older (l : List α) (t u : α) : Prop :=
  t ≠ u ∧ ∃ i j : Nat, i < j ∧ l[i]? = some t ∧ l[j]? = some u

/-- `t` was current, and something else was current later. -/
def Superseded (l : List α) (t : α) : Prop :=
  ∃ i j : Nat, i < j ∧ j < l.length ∧ l[i]? = some t ∧ l[j]? ≠ some t

/-- What comes between two occurrences of a value is that value. -/
def NoReturn (l : List α) : Prop :=
  ∀ (i j k : Nat) (t : α), i < j → j < k → l[i]? = some t → l[k]? = some t → l[j]? = some t

instance [DecidableEq α] : Decidable (Superseded l t) :=
  decidable_of_iff (∃ j ∈ List.range l.length, ∃ i ∈ List.range j,
      l[i]? = some t ∧ l[j]? ≠ some t) (by
    simp only [List.mem_range]
    constructor
    · rintro ⟨j, hj, i, hi, ht, hu⟩
      exact ⟨i, j, hi, hj, ht, hu⟩
    · rintro ⟨i, j, hi, hj, ht, hu⟩
      exact ⟨j, hj, i, hi, ht, hu⟩)

/-! ## Entering a value -/

theorem noReturn_nil : NoReturn ([] : List α) := by
  intro i j k t _ _ hi
  cases hi

/-- A value that has not been superseded may be entered. -/
theorem NoReturn.snoc (h : NoReturn l) (hx : ¬ Superseded l x) : NoReturn (l ++ [x]) := by
  intro i j k t hij hjk hi hk
  have hklt : k < l.length + 1 := by
    have := (List.getElem?_eq_some_iff.mp hk).1
    rwa [List.length_append] at this
  have hj : j < l.length := by omega
  rw [List.getElem?_append_left (by omega : i < l.length)] at hi
  rw [List.getElem?_append_left hj]
  rcases Nat.lt_or_ge k l.length with hkl | hkl
  · rw [List.getElem?_append_left hkl] at hk
    exact h i j k t hij hjk hi hk
  · -- the last entry is `x` itself
    obtain rfl : k = l.length := by omega
    rw [List.getElem?_concat_length, Option.some.injEq] at hk
    subst hk
    by_contra hne
    exact hx ⟨i, j, hij, hj, hi, hne⟩

theorem Older.snoc (h : Older l t u) (x : α) : Older (l ++ [x]) t u := by
  obtain ⟨hne, i, j, hij, hi, hj⟩ := h
  refine ⟨hne, i, j, hij, ?_, ?_⟩
  · rw [List.getElem?_append_left (List.getElem?_eq_some_iff.mp hi).1]
    exact hi
  · rw [List.getElem?_append_left (List.getElem?_eq_some_iff.mp hj).1]
    exact hj

/-- Everything else is older than what is entered. -/
theorem older_of_mem (ht : t ∈ l) (hne : t ≠ x) : Older (l ++ [x]) t x := by
  obtain ⟨i, hi⟩ := List.mem_iff_getElem?.mp ht
  have hlt := (List.getElem?_eq_some_iff.mp hi).1
  refine ⟨hne, i, l.length, hlt, ?_, List.getElem?_concat_length⟩
  rw [List.getElem?_append_left hlt]
  exact hi

/-! ## The order -/

/-- A value that does not come back has its place in the order. -/
theorem Older.asymm (h : NoReturn l) (htu : Older l t u) : ¬ Older l u t := by
  rintro ⟨_, k, m, hkm, hk, hm⟩
  obtain ⟨hne, i, j, hij, hi, hj⟩ := htu
  rcases Nat.lt_trichotomy j m with hjm | hjm | hjm
  · -- `t` at `i`, `u` at `j`, `t` at `m`
    have := h i j m t hij hjm hi hm
    rw [hj, Option.some.injEq] at this
    exact hne this.symm
  · rw [hjm, hm, Option.some.injEq] at hj
    exact hne hj
  · -- `u` at `k`, `t` at `m`, `u` at `j`
    have := h k m j u hkm hjm hk hj
    rw [hm, Option.some.injEq] at this
    exact hne this

/-- The order of first occurrences. -/
theorem Older.trans (h : NoReturn l) (htu : Older l t u) (huv : Older l u v) : Older l t v := by
  have hne : t ≠ v := by
    rintro rfl
    exact htu.asymm h huv
  obtain ⟨_, i, j, hij, hi, hj⟩ := htu
  obtain ⟨huv', k, m, hkm, hk, hm⟩ := huv
  refine ⟨hne, i, m, ?_, hi, hm⟩
  by_contra hmi
  -- otherwise `v` at `m` stands between two occurrences of `u`
  have := h k m j u hkm (by omega) hk hj
  rw [hm, Option.some.injEq] at this
  exact huv' this.symm

/-! ## Records that follow a history -/

/-- `t` is in the history and nothing in the record is newer. -/
def UpToDate (l written : List α) (t : α) : Prop :=
  t ∈ l ∧ ∀ w ∈ written, w = t ∨ Older l w t

variable {written : List α}

/-- What was entered last is up to date. -/
theorem upToDate_of_getLast (hx : l.getLast? = some x) (hw : ∀ w ∈ written, w ∈ l) :
    UpToDate l written x := by
  obtain ⟨l', rfl⟩ := List.getLast?_eq_some_iff.mp hx
  refine ⟨by simp, fun w hwm => ?_⟩
  by_cases hwx : w = x
  · exact .inl hwx
  · refine .inr (older_of_mem ?_ hwx)
    rcases List.mem_append.mp (hw w hwm) with hmem | hmem
    · exact hmem
    · exact absurd (List.mem_singleton.mp hmem) hwx

/-- A new value does not make an old write newer. -/
theorem UpToDate.snoc (h : UpToDate l written t) (x : α) : UpToDate (l ++ [x]) written t :=
  ⟨List.mem_append_left _ h.1, fun w hw => (h.2 w hw).imp_right (fun ho => ho.snoc x)⟩

/-- An up-to-date value that is not the last one of the record is newer than all
of them. -/
theorem UpToDate.newer (h : NoReturn l) (hp : written.Pairwise (Older l))
    (ht : UpToDate l written t) (hlast : written.getLast? ≠ some t) :
    ∀ w ∈ written, Older l w t := by
  intro w hw
  rcases ht.2 w hw with rfl | hold
  · -- the last one would be both newer than `w` and not newer
    obtain ⟨a, b, rfl⟩ := List.append_of_mem hw
    cases hb : b.getLast? with
    | none =>
      rw [List.getLast?_eq_none_iff] at hb
      subst hb
      simp at hlast
    | some y =>
      have hy : y ∈ b := List.mem_of_getLast? hb
      have hwy : Older l w y :=
        List.rel_of_pairwise_cons (List.pairwise_append.mp hp).2.1 hy
      rcases ht.2 y (List.mem_append_right _ (List.mem_cons_of_mem _ hy)) with rfl | hyw
      · exact absurd rfl hwy.1
      · exact absurd hyw (hwy.asymm h)
  · exact hold

/-- Such a value may be added to the record. -/
theorem UpToDate.record (h : NoReturn l) (hp : written.Pairwise (Older l))
    (ht : UpToDate l written t) (hlast : written.getLast? ≠ some t) :
    (written ++ [t]).Pairwise (Older l) := by
  refine List.pairwise_append.mpr ⟨hp, List.pairwise_singleton _ _, fun w hw y hy => ?_⟩
  rw [List.mem_singleton.mp hy]
  exact ht.newer h hp hlast w hw

/-- An ordered record repeats nothing. -/
theorem nodup_of_ordered (hp : written.Pairwise (Older l)) : written.Nodup :=
  hp.imp (fun h => h.1)

end Succession
