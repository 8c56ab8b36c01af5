/-
Cutting a list between neighbours.

A rule says for every way to split the list in two whether there is a cut: it
sees all that comes before and all that comes after. `segments` cuts wherever
the rule says so, in one pass. What it returns is characterised without the
pass: a segment is a stretch of the list with a cut, or an end of the list, on
either side of it, and no cut inside (`mem_segments`).
-/
import Mathlib.Data.List.Basic

set_option autoImplicit false

namespace Text

variable {α : Type}

/-- A rule for cutting: `rule before after`. -/
abbrev Rule (α : Type) := List α → List α → Bool

/-- The segments of `before ++ current ++ rest` from `current` on, where
`current` is the beginning of one. -/
def segmentsFrom (rule : Rule α) (before current : List α) : List α → List (List α)
  | [] => if current.isEmpty then [] else [current]
  | c :: rest =>
    if !current.isEmpty && rule (before ++ current) (c :: rest) then
      current :: segmentsFrom rule (before ++ current) [c] rest
    else segmentsFrom rule before (current ++ [c]) rest

/-- The segments of a list. -/
def segments (rule : Rule α) (l : List α) : List (List α) := segmentsFrom rule [] [] l

/-- `w` is a segment between `before` and `after`. -/
structure IsSegment (rule : Rule α) (before w after : List α) : Prop where
  ne_nil : w ≠ []
  left : before = [] ∨ rule before (w ++ after) = true
  right : after = [] ∨ rule (before ++ w) after = true
  whole : ∀ u v, u ≠ [] → v ≠ [] → w = u ++ v → rule (before ++ u) (v ++ after) = false

/-- `current` begins a segment, as far as it goes. -/
structure Begun (rule : Rule α) (before current rest : List α) : Prop where
  left : before = [] ∨ rule before (current ++ rest) = true
  whole : ∀ u v, u ≠ [] → v ≠ [] → current = u ++ v → rule (before ++ u) (v ++ rest) = false

section Spec

variable {rule : Rule α} {before current rest : List α} {c : α}

theorem Begun.single (h : rule before (c :: rest) = true) : Begun rule before [c] rest := by
  refine ⟨.inr h, fun u v hu hv huv => ?_⟩
  -- one element is not two parts
  rcases List.append_eq_singleton_iff.mp huv.symm with ⟨rfl, -⟩ | ⟨-, rfl⟩
  · exact absurd rfl hu
  · exact absurd rfl hv

theorem Begun.extend (h : Begun rule before current (c :: rest))
    (hcut : current ≠ [] → rule (before ++ current) (c :: rest) = false) :
    Begun rule before (current ++ [c]) rest := by
  refine ⟨by simpa using h.left, fun u v hu hv huv => ?_⟩
  obtain ⟨v', x, rfl⟩ := List.eq_nil_or_concat v |>.resolve_left hv
  rw [List.concat_eq_append, ← List.append_assoc] at huv
  obtain ⟨rfl, hx⟩ := List.append_inj' huv rfl
  cases hx
  -- a cut in front of `c` is excluded by `hcut`, one before that by `h`
  by_cases hv' : v' = []
  · subst hv'
    simpa using hcut (by simpa using hu)
  · simpa using h.whole u v' hu hv' rfl

/-- A segment that starts where `current` does, or in it, is no shorter. -/
theorem IsSegment.eq_of_begun (h : Begun rule before current rest) {q w after : List α}
    (hsplit : current ++ rest = q ++ w ++ after) (hseg : IsSegment rule (before ++ q) w after)
    (hq : q.length < current.length) :
    q = [] ∧ ∃ v, w = current ++ v := by
  rw [List.append_assoc] at hsplit
  -- `q` is a proper part of `current`, so a cut behind it would be inside
  obtain ⟨x, hx, hrest⟩ : ∃ x, current = q ++ x ∧ w ++ after = x ++ rest := by
    rcases List.append_eq_append_iff.mp hsplit with ⟨x, hx, hy⟩ | ⟨x, hx, hy⟩
    · have hlen := congrArg List.length hx
      rw [List.length_append] at hlen
      omega
    · exact ⟨x, hx, hy⟩
  have hxne : x ≠ [] := by
    rintro rfl
    rw [hx, List.append_nil] at hq
    exact Nat.lt_irrefl _ hq
  have hq0 : q = [] := by
    by_contra hq'
    have hinside := h.whole q x hq' hxne hx
    rcases hseg.left with hleft | hleft
    · exact hq' (List.append_eq_nil_iff.mp hleft).2
    · rw [hrest, hinside] at hleft
      cases hleft
  subst hq0
  rw [List.nil_append] at hx
  subst hx
  refine ⟨rfl, ?_⟩
  rcases List.append_eq_append_iff.mp hrest with ⟨y, hy, hafter⟩ | ⟨y, hy, -⟩
  · -- `w` stops inside `current`
    by_cases hyne : y = []
    · exact ⟨[], by rw [hy, hyne]; simp⟩
    · have hinside := h.whole w y hseg.ne_nil hyne hy
      rcases hseg.right with hright | hright
      · rw [hright] at hafter
        exact absurd (List.append_eq_nil_iff.mp hafter.symm).1 hyne
      · rw [List.append_nil, hafter, hinside] at hright
        cases hright
  · exact ⟨y, hy⟩

/-- `current` is a segment if there is a cut behind it. -/
theorem Begun.isSegment (h : Begun rule before current rest) (hne : current ≠ [])
    (hcut : rest = [] ∨ rule (before ++ current) rest = true) :
    IsSegment rule before current rest :=
  ⟨hne, h.left, hcut, h.whole⟩

/-- What the pass returns from `current` on are the segments from there on. -/
theorem mem_segmentsFrom (h : Begun rule before current rest) (w : List α) :
    w ∈ segmentsFrom rule before current rest ↔
      ∃ q after, current ++ rest = q ++ w ++ after ∧ IsSegment rule (before ++ q) w after := by
  induction rest generalizing before current with
  | nil =>
    rw [segmentsFrom]
    by_cases hcur : current = []
    · subst hcur
      refine ⟨fun hw => by simp at hw, ?_⟩
      rintro ⟨q, after, hsplit, hseg⟩
      exact absurd (by simpa using hsplit.symm) (by simp [hseg.ne_nil])
    · rw [if_neg (by simpa using hcur), List.mem_singleton]
      constructor
      · rintro rfl
        exact ⟨[], [], by simp, by simpa using h.isSegment hcur (.inl rfl)⟩
      · rintro ⟨q, after, hsplit, hseg⟩
        have hlen := congrArg List.length hsplit
        have hpos := List.length_pos_iff.mpr hseg.ne_nil
        simp only [List.length_append, List.length_nil] at hlen
        obtain ⟨rfl, v, hv⟩ := hseg.eq_of_begun h hsplit (by omega)
        rw [hv, List.length_append] at hlen
        have hv0 : v = [] := List.length_eq_zero_iff.mp (by simp at hlen; omega)
        rw [hv, hv0, List.append_nil]
  | cons c rest ih =>
    rw [segmentsFrom]
    by_cases hcut : current ≠ [] ∧ rule (before ++ current) (c :: rest) = true
    · rw [if_pos (by simpa using hcut), List.mem_cons, ih (Begun.single hcut.2)]
      constructor
      · rintro (rfl | ⟨q, after, hsplit, hseg⟩)
        · exact ⟨[], c :: rest, by simp, by simpa using h.isSegment hcut.1 (.inr hcut.2)⟩
        · refine ⟨current ++ q, after, ?_, by simpa using hseg⟩
          rw [List.singleton_append] at hsplit
          rw [hsplit]
          simp
      · rintro ⟨q, after, hsplit, hseg⟩
        by_cases hq : q.length < current.length
        · obtain ⟨rfl, v, hv⟩ := hseg.eq_of_begun h hsplit hq
          by_cases hv0 : v = []
          · exact .inl (by rw [hv, hv0, List.append_nil])
          · -- a longer one would have the cut inside
            have hbehind : v ++ after = c :: rest := by
              rw [hv, List.nil_append, List.append_assoc] at hsplit
              exact (List.append_cancel_left hsplit).symm
            have hinside := hseg.whole current v hcut.1 hv0 hv
            rw [List.append_nil, hbehind, hcut.2] at hinside
            cases hinside
        · -- it starts behind `current`, among those of the rest
          have hfront : current <+: q := by
            rw [List.append_assoc] at hsplit
            exact List.prefix_of_prefix_length_le ⟨_, hsplit⟩ (List.prefix_append _ _)
              (Nat.le_of_not_lt hq)
          obtain ⟨q', rfl⟩ := hfront
          refine .inr ⟨q', after, ?_, by simpa using hseg⟩
          simp only [List.append_assoc] at hsplit
          simpa using List.append_cancel_left hsplit
    · have hno : current ≠ [] → rule (before ++ current) (c :: rest) = false := by
        intro hne
        rw [← Bool.not_eq_true]
        exact fun hr => hcut ⟨hne, hr⟩
      rw [if_neg (by simpa using hcut), ih (h.extend hno)]
      simp only [List.append_assoc, List.singleton_append]

end Spec

/-- The segments of a list are its stretches between two cuts without a cut
inside. -/
theorem mem_segments {rule : Rule α} {l w : List α} :
    w ∈ segments rule l ↔ ∃ before after, l = before ++ w ++ after ∧
      IsSegment rule before w after := by
  have hbegun : Begun rule [] [] l :=
    ⟨.inl rfl, fun u v hu _ huv => absurd (List.append_eq_nil_iff.mp huv.symm).1 hu⟩
  rw [segments, mem_segmentsFrom hbegun]
  simp only [List.nil_append]

end Text
