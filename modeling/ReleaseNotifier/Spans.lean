/-
Cutting a list of timed things into spans.

A span is opened by the first thing that no earlier span holds, and holds what
follows until something comes after the span's end, which is a function of the time
it was opened at. `List.splitBy` compares neighbours, and here everything is compared
with what opened the span. When the times do not go back, a span is everything
between its opening and its end (`spans_filter`).
-/
import Mathlib.Order.Lattice
import Mathlib.Data.List.Basic

set_option autoImplicit false

namespace Spans

variable {α T : Type} [LinearOrder T] (time : α → T) (last : T → T)

/-- The spans from here on; `x` has opened one, which holds `acc` so far. -/
def spansFrom (x : α) (acc : List α) : List α → List (List α)
  | [] => [acc]
  | y :: ys =>
    if time y ≤ last (time x) then spansFrom x (acc ++ [y]) ys else acc :: spansFrom y [y] ys

/-- The spans of a list. -/
def spans : List α → List (List α)
  | [] => []
  | x :: xs => spansFrom time last x [x] xs

theorem flatten_spansFrom (x : α) (acc ys : List α) :
    (spansFrom time last x acc ys).flatten = acc ++ ys := by
  induction ys generalizing x acc with
  | nil => rw [spansFrom, List.flatten_singleton, List.append_nil]
  | cons y ys ih =>
    rw [spansFrom]
    split
    · rw [ih, List.append_assoc, List.singleton_append]
    · rw [List.flatten_cons, ih, List.singleton_append]

/-- Nothing is lost, and nothing is in two spans. -/
theorem flatten_spans (xs : List α) : (spans time last xs).flatten = xs := by
  cases xs with
  | nil => rfl
  | cons x xs => exact flatten_spansFrom time last x [x] xs

/-- A span that nothing ends is the only one. -/
theorem spansFrom_of_le {x : α} {acc ys : List α} (h : ∀ y ∈ ys, time y ≤ last (time x)) :
    spansFrom time last x acc ys = [acc ++ ys] := by
  induction ys generalizing acc with
  | nil => rw [spansFrom, List.append_nil]
  | cons y ys ih =>
    rw [spansFrom, if_pos (h y List.mem_cons_self), ih (fun z hz => h z (List.mem_cons_of_mem _ hz)),
      List.append_assoc, List.singleton_append]

/-- `y` is in the span that opens at the time of `x`. -/
def within (x y : α) : Bool := decide (time x ≤ time y) && decide (time y ≤ last (time x))

variable {time last}

theorem within_iff {x y : α} :
    within time last x y = true ↔ time x ≤ time y ∧ time y ≤ last (time x) := by
  rw [within, Bool.and_eq_true, decide_eq_true_eq, decide_eq_true_eq]

/-- A span that is being read, with the rest of the list: it is opened by `x` and holds
`acc`, and no time goes back. -/
structure Reading (time : α → T) (last : T → T) (x : α) (acc ys : List α) : Prop where
  mem : x ∈ acc
  inside : ∀ y ∈ acc, within time last x y = true
  ordered : ∀ y ∈ acc, ∀ z ∈ ys, time y ≤ time z
  rest : ys.Pairwise (fun a b => time a ≤ time b)

/-- What is read next is in the span. -/
theorem Reading.extend {x y : α} {acc ys : List α} (h : Reading time last x acc (y :: ys))
    (hy : time y ≤ last (time x)) : Reading time last x (acc ++ [y]) ys where
  mem := List.mem_append_left _ h.mem
  inside z hz := by
    rcases List.mem_append.mp hz with hz | hz
    · exact h.inside z hz
    · rw [List.mem_singleton.mp hz]
      exact within_iff.mpr ⟨h.ordered x h.mem y List.mem_cons_self, hy⟩
  ordered z hz w hw := by
    rcases List.mem_append.mp hz with hz | hz
    · exact h.ordered z hz w (List.mem_cons_of_mem _ hw)
    · rw [List.mem_singleton.mp hz]
      exact List.rel_of_pairwise_cons h.rest hw
  rest := h.rest.of_cons

theorem head_le {y z : α} {ys : List α} (h : (y :: ys).Pairwise (fun a b => time a ≤ time b))
    (hz : z ∈ y :: ys) : time y ≤ time z := by
  rcases List.mem_cons.mp hz with rfl | hz
  · exact le_rfl
  · exact List.rel_of_pairwise_cons h hz

/-- What opens a span is in it. -/
theorem within_self (hlast : ∀ t, t ≤ last t) (x : α) : within time last x x = true :=
  within_iff.mpr ⟨le_rfl, hlast _⟩

/-- What is read next opens a span. -/
theorem Reading.start (hlast : ∀ t, t ≤ last t) {y : α} {ys : List α}
    (h : (y :: ys).Pairwise (fun a b => time a ≤ time b)) : Reading time last y [y] ys where
  mem := List.mem_singleton_self y
  inside z hz := by
    rw [List.mem_singleton.mp hz]
    exact within_self hlast y
  ordered z hz w hw := by
    rw [List.mem_singleton.mp hz]
    exact List.rel_of_pairwise_cons h hw
  rest := h.of_cons

/-- A span is all that lies between its ends, and later spans lie after it. -/
theorem Reading.filter (hlast : ∀ t, t ≤ last t) {x : α} {acc ys : List α}
    (h : Reading time last x acc ys) :
    ∀ w ∈ spansFrom time last x acc ys,
      ∃ z ∈ acc ++ ys, w = (acc ++ ys).filter (within time last z) := by
  induction ys generalizing x acc with
  | nil =>
    intro w hw
    rw [spansFrom, List.mem_singleton] at hw
    rw [List.append_nil, hw]
    exact ⟨x, h.mem, (List.filter_eq_self.mpr h.inside).symm⟩
  | cons y ys ih =>
    rw [spansFrom]
    split
    · next hy =>
      have hstep := ih (h.extend hy)
      rwa [List.append_assoc, List.singleton_append] at hstep
    · next hy =>
      rw [not_le] at hy
      intro w hw
      rcases List.mem_cons.mp hw with rfl | hw
      · -- everything that follows comes after the end
        have hafter : ∀ z ∈ y :: ys, ¬ within time last x z = true := by
          intro z hz hwithin
          exact absurd (lt_of_lt_of_le hy (head_le h.rest hz))
            (not_lt.mpr (within_iff.mp hwithin).2)
        refine ⟨x, List.mem_append_left _ h.mem, ?_⟩
        rw [List.filter_append, List.filter_eq_self.mpr h.inside, List.filter_eq_nil_iff.mpr hafter,
          List.append_nil]
      · -- a later span opens after everything that has been read
        obtain ⟨z, hz, rfl⟩ := ih (Reading.start hlast h.rest) w hw
        rw [List.singleton_append] at hz ⊢
        have hbefore : ∀ v ∈ acc, ¬ within time last z v = true := by
          intro v hv hwithin
          have hlt : time v < time z :=
            lt_of_lt_of_le (lt_of_le_of_lt (within_iff.mp (h.inside v hv)).2 hy) (head_le h.rest hz)
          exact absurd hlt (not_lt.mpr (within_iff.mp hwithin).1)
        refine ⟨z, List.mem_append_right _ hz, ?_⟩
        rw [List.filter_append, List.filter_eq_nil_iff.mpr hbefore, List.nil_append]

/-- When the times do not go back, a span is what lies between its ends. -/
theorem spans_filter (hlast : ∀ t, t ≤ last t) {xs : List α}
    (h : xs.Pairwise (fun a b => time a ≤ time b)) :
    ∀ w ∈ spans time last xs, ∃ x ∈ xs, w = xs.filter (within time last x) := by
  cases xs with
  | nil =>
    intro w hw
    exact absurd hw List.not_mem_nil
  | cons x xs => exact (Reading.start hlast h).filter hlast

end Spans
