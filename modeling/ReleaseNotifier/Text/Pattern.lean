/-
Patterns: character classes, bounded repetition, and words whose separators stand
alone, as regular expressions over any alphabet.

What a pattern matches is taken apart one constructor at a time. `Separated` is
the language of `[class](?:sep?[class])*`, the usual way to write "no separator
first, last or twice in a row" without saying any of it.
-/
import Mathlib.Computability.RegularExpressions

set_option autoImplicit false

namespace Text.Pattern

open RegularExpression

variable {α : Type}

/-! ## Classes and repetitions -/

/-- A class: one of the characters of a list. -/
def oneOf (l : List α) : RegularExpression α := (l.map char).sum

/-- The range `lo-hi` of a class. -/
def charRange (lo hi : Char) : List Char :=
  (List.range' lo.toNat (hi.toNat + 1 - lo.toNat)).map Char.ofNat

/-- Below the surrogates a range has all the characters between its ends. -/
theorem mem_charRange {lo hi : Char} (h : hi.toNat < 0xd800) {c : Char} :
    c ∈ charRange lo hi ↔ lo.toNat ≤ c.toNat ∧ c.toNat ≤ hi.toNat := by
  rw [charRange, List.mem_map]
  constructor
  · rintro ⟨n, hn, rfl⟩
    rw [List.mem_range'_1] at hn
    have hnat : (Char.ofNat n).toNat = n := by
      have hvalid : n.isValidChar := .inl (by omega)
      rw [Char.ofNat, dif_pos hvalid]
      rfl
    omega
  · intro hc
    exact ⟨c.toNat, List.mem_range'_1.mpr (by omega), Char.ofNat_toNat c⟩

/-- `p?`. -/
def optional (P : RegularExpression α) : RegularExpression α := 1 + P

/-- `p{1,n+1}`. -/
def upTo (P : RegularExpression α) (n : Nat) : RegularExpression α := P * optional P ^ n

/-- A class matches one character. -/
theorem mem_oneOf {l w : List α} : w ∈ (oneOf l).matches' ↔ ∃ a ∈ l, w = [a] := by
  induction l with
  | nil =>
    simp only [oneOf, List.map_nil, List.sum_nil, matches'_zero, List.not_mem_nil, false_and,
      exists_false, iff_false]
    exact Language.notMem_zero w
  | cons b l ih =>
    rw [oneOf, List.map_cons, List.sum_cons, matches'_add, Language.mem_add, ← oneOf, ih,
      matches'_char, List.exists_mem_cons_iff]
    exact Iff.rfl

/-- An option matches nothing or what is optional. -/
theorem mem_optional {P : RegularExpression α} {w : List α} :
    w ∈ (optional P).matches' ↔ w = [] ∨ w ∈ P.matches' := by
  rw [optional, matches'_add, matches'_epsilon, Language.mem_add, Language.mem_one]

/-- At most `n` characters of a class. -/
theorem mem_optional_oneOf_pow {l : List α} (n : Nat) {w : List α} :
    w ∈ (optional (oneOf l) ^ n).matches' ↔ w.length ≤ n ∧ ∀ a ∈ w, a ∈ l := by
  induction n generalizing w with
  | zero =>
    rw [matches'_pow, pow_zero, Language.mem_one, Nat.le_zero, List.length_eq_zero_iff]
    refine ⟨fun h => ⟨h, ?_⟩, fun h => h.1⟩
    rw [h]
    exact fun a ha => absurd ha List.not_mem_nil
  | succ n ih =>
    rw [matches'_pow, pow_succ', Language.mem_mul]
    simp only [← matches'_pow, ih, mem_optional, mem_oneOf]
    constructor
    · rintro ⟨u, hu, v, ⟨hlen, hv⟩, rfl⟩
      rcases hu with rfl | ⟨a, ha, rfl⟩
      · exact ⟨by simpa using Nat.le_succ_of_le hlen, hv⟩
      · refine ⟨by simpa using hlen, fun b hb => ?_⟩
        rcases List.mem_cons.mp hb with rfl | hb
        · exact ha
        · exact hv b hb
    · rintro ⟨hlen, hall⟩
      cases w with
      | nil => exact ⟨[], .inl rfl, [], ⟨Nat.zero_le _, hall⟩, rfl⟩
      | cons a w =>
        obtain ⟨ha, hw⟩ := List.forall_mem_cons.mp hall
        exact ⟨[a], .inr ⟨a, ha, rfl⟩, w, ⟨Nat.le_of_succ_le_succ hlen, hw⟩, rfl⟩

theorem mem_upTo_oneOf {l : List α} (n : Nat) {w : List α} :
    w ∈ (upTo (oneOf l) n).matches' ↔
      (1 ≤ w.length ∧ w.length ≤ n + 1) ∧ ∀ a ∈ w, a ∈ l := by
  rw [upTo, matches'_mul, Language.mem_mul]
  simp only [mem_oneOf, mem_optional_oneOf_pow]
  constructor
  · rintro ⟨_, ⟨a, ha, rfl⟩, v, ⟨hlen, hv⟩, rfl⟩
    exact ⟨⟨by simp, by simpa using hlen⟩, List.forall_mem_cons.mpr ⟨ha, hv⟩⟩
  · rintro ⟨⟨hpos, hlen⟩, hall⟩
    cases w with
    | nil => exact absurd hpos (by simp)
    | cons a w =>
      obtain ⟨ha, hw⟩ := List.forall_mem_cons.mp hall
      exact ⟨[a], ⟨a, ha, rfl⟩, w, ⟨Nat.le_of_succ_le_succ hlen, hw⟩, rfl⟩

/-! ## Separators that stand alone -/

/-- What may follow a character of the class: no separator at the end, and none
after another. -/
structure Trailing (sep : α) (p : α → Prop) (w : List α) : Prop where
  chars : ∀ a ∈ w, p a ∨ a = sep
  last : w.getLast? ≠ some sep
  alone : ¬ [sep, sep] <:+: w

/-- Characters of a class, and separators that are neither first nor last nor next to
each other. -/
structure Separated (sep : α) (p : α → Prop) (w : List α) : Prop extends Trailing sep p w where
  nonempty : w ≠ []
  first : w.head? ≠ some sep

section Separators

variable {sep : α} {p : α → Prop} {w : List α}

theorem Trailing.nil : Trailing sep p [] := by
  refine ⟨fun a ha => absurd ha List.not_mem_nil, by simp, fun h => ?_⟩
  exact absurd (List.IsInfix.length_le h) (by simp)

/-- The rest after a character of the class. -/
theorem trailing_cons (hsep : ¬ p sep) {a : α} (ha : p a) :
    Trailing sep p (a :: w) ↔ Trailing sep p w := by
  have hne : a ≠ sep := fun h => hsep (h ▸ ha)
  have hlast : (a :: w).getLast? = some sep ↔ w.getLast? = some sep := by
    cases w with
    | nil => simp [hne]
    | cons b w => rw [List.getLast?_cons_cons]
  have halone : [sep, sep] <:+: a :: w ↔ [sep, sep] <:+: w := by
    rw [List.infix_cons_iff]
    refine or_iff_right (fun h => ?_)
    rw [List.cons_prefix_cons] at h
    exact hne h.1.symm
  constructor
  · rintro ⟨hchars, hl, hs⟩
    exact ⟨(List.forall_mem_cons.mp hchars).2, mt hlast.mpr hl, mt halone.mpr hs⟩
  · rintro ⟨hchars, hl, hs⟩
    exact ⟨List.forall_mem_cons.mpr ⟨.inl ha, hchars⟩, mt hlast.mp hl, mt halone.mp hs⟩

/-- The rest after a separator: a character of the class comes next. -/
theorem trailing_sep (hsep : ¬ p sep) :
    Trailing sep p (sep :: w) ↔ ∃ a v, w = a :: v ∧ p a ∧ Trailing sep p v := by
  constructor
  · rintro ⟨hchars, hl, hs⟩
    cases w with
    | nil => exact absurd rfl hl
    | cons a v =>
      have hne : a ≠ sep := by
        rintro rfl
        exact hs ⟨[], v, rfl⟩
      have ha : p a :=
        (hchars a (List.mem_cons_of_mem _ List.mem_cons_self)).resolve_right hne
      have hrest : Trailing sep p (a :: v) := by
        refine ⟨(List.forall_mem_cons.mp hchars).2, ?_, fun h => hs (h.trans ?_)⟩
        · rwa [List.getLast?_cons_cons] at hl
        · exact (List.suffix_cons _ _).isInfix
      exact ⟨a, v, rfl, ha, (trailing_cons hsep ha).mp hrest⟩
  · rintro ⟨a, v, rfl, ha, hv⟩
    have hne : a ≠ sep := fun h => hsep (h ▸ ha)
    obtain ⟨hchars, hl, hs⟩ := (trailing_cons hsep ha).mpr hv
    refine ⟨List.forall_mem_cons.mpr ⟨.inr rfl, hchars⟩, ?_, fun h => ?_⟩
    · rwa [List.getLast?_cons_cons]
    · rcases List.infix_cons_iff.mp h with h | h
      · rw [List.cons_prefix_cons, List.cons_prefix_cons] at h
        exact hne h.2.1.symm
      · exact hs h

/-- A separated text begins with a run and goes on with separators and runs. -/
theorem separated_cons (hsep : ¬ p sep) {a : α} :
    Separated sep p (a :: w) ↔ p a ∧ Trailing sep p w := by
  constructor
  · rintro ⟨htrail, -, hfirst⟩
    have hne : a ≠ sep := fun h => hfirst (by rw [h, List.head?_cons])
    have ha : p a := (htrail.chars a List.mem_cons_self).resolve_right hne
    exact ⟨ha, (trailing_cons hsep ha).mp htrail⟩
  · rintro ⟨ha, htrail⟩
    refine ⟨(trailing_cons hsep ha).mpr htrail, List.cons_ne_nil _ _, fun h => hsep ?_⟩
    rw [List.head?_cons, Option.some.injEq] at h
    exact h ▸ ha

end Separators

/-- `[class](?:sep?[class])*`. -/
def separated (sep : α) (l : List α) : RegularExpression α :=
  oneOf l * star (optional (char sep) * oneOf l)

section Separated

variable {sep : α} {l : List α}

/-- The repeated group is a character of the class, with or without a separator before
it. -/
theorem mem_group {w : List α} :
    w ∈ (optional (char sep) * oneOf l).matches' ↔ ∃ a ∈ l, w = [a] ∨ w = [sep, a] := by
  rw [matches'_mul, Language.mem_mul]
  simp only [mem_optional, mem_oneOf, matches'_char]
  constructor
  · rintro ⟨u, hu, v, ⟨a, ha, rfl⟩, rfl⟩
    rcases hu with rfl | rfl
    · exact ⟨a, ha, .inl rfl⟩
    · exact ⟨a, ha, .inr rfl⟩
  · rintro ⟨a, ha, rfl | rfl⟩
    · exact ⟨[], .inl rfl, [a], ⟨a, ha, rfl⟩, rfl⟩
    · exact ⟨[sep], .inr rfl, [a], ⟨a, ha, rfl⟩, rfl⟩

/-- One more round of a star. -/
theorem mem_star_cons {P : RegularExpression α} {u w : List α} (hu : u ∈ P.matches')
    (hw : w ∈ (star P).matches') : u ++ w ∈ (star P).matches' := by
  rw [matches'_star, Language.mem_kstar] at hw ⊢
  obtain ⟨ws, rfl, hws⟩ := hw
  exact ⟨u :: ws, rfl, List.forall_mem_cons.mpr ⟨hu, hws⟩⟩

/-- The starred group matches what may follow a character of the class. -/
theorem mem_star_group (hsep : sep ∉ l) {w : List α} :
    w ∈ (star (optional (char sep) * oneOf l)).matches' ↔ Trailing sep (· ∈ l) w := by
  constructor
  · intro h
    rw [matches'_star, Language.mem_kstar] at h
    obtain ⟨ws, rfl, hws⟩ := h
    induction ws with
    | nil => exact .nil
    | cons v ws ih =>
      obtain ⟨hv, hws⟩ := List.forall_mem_cons.mp hws
      have hrest := ih hws
      obtain ⟨a, ha, rfl | rfl⟩ := mem_group.mp hv
      · exact (trailing_cons hsep ha).mpr hrest
      · exact (trailing_sep hsep).mpr ⟨a, _, rfl, ha, hrest⟩
  · -- one or two characters are taken off at a time
    intro h
    induction hn : w.length using Nat.strong_induction_on generalizing w with
    | _ n ih =>
      cases w with
      | nil =>
        rw [matches'_star]
        exact Language.nil_mem_kstar _
      | cons b v =>
        rcases h.chars b List.mem_cons_self with hb | rfl
        · have hv := (trailing_cons hsep hb).mp h
          have hlt : v.length < n := by simp [← hn]
          exact mem_star_cons (mem_group.mpr ⟨b, hb, .inl rfl⟩) (ih _ hlt hv rfl)
        · obtain ⟨a, u, rfl, ha, hu⟩ := (trailing_sep hsep).mp h
          have hlt : u.length < n := by
            rw [← hn, List.length_cons, List.length_cons]
            omega
          exact mem_star_cons (mem_group.mpr ⟨a, ha, .inr rfl⟩) (ih _ hlt hu rfl)

/-- The pattern matches words whose separators stand alone, and no others. -/
theorem mem_separated (hsep : sep ∉ l) {w : List α} :
    w ∈ (separated sep l).matches' ↔ Separated sep (· ∈ l) w := by
  rw [separated, matches'_mul, Language.mem_mul]
  simp only [mem_oneOf, mem_star_group hsep]
  constructor
  · rintro ⟨_, ⟨a, ha, rfl⟩, v, hv, rfl⟩
    exact (separated_cons hsep).mpr ⟨ha, hv⟩
  · intro h
    cases w with
    | nil => exact absurd rfl h.nonempty
    | cons a v =>
      obtain ⟨ha, hv⟩ := (separated_cons hsep).mp h
      exact ⟨[a], ⟨a, ha, rfl⟩, v, hv, rfl⟩

end Separated

/-! ## Renaming characters -/

section Renaming

variable {β : Type} {f : β → α} {sep : β} {p : α → Prop} {w : List β}

/-- Separators stand alone in a word if they do in its image under a renaming. -/
theorem separated_map (hf : Function.Injective f) :
    Separated (f sep) p (w.map f) ↔ Separated sep (fun b => p (f b)) w := by
  have hsome : ∀ o : Option β, o.map f = some (f sep) ↔ o = some sep := by
    intro o
    rw [← Option.map_some, (Option.map_injective hf).eq_iff]
  have hinfix : [f sep, f sep] <:+: w.map f ↔ [sep, sep] <:+: w := by
    rw [List.infix_map_iff]
    constructor
    · rintro ⟨v, hv, heq⟩
      have : v = [sep, sep] := (List.map_injective_iff.mpr hf) heq.symm
      rwa [← this]
    · intro h
      exact ⟨_, h, rfl⟩
  have hchars : (∀ a ∈ w.map f, p a ∨ a = f sep) ↔ ∀ b ∈ w, p (f b) ∨ b = sep := by
    simp only [List.forall_mem_map, hf.eq_iff]
  constructor
  · rintro ⟨⟨hc, hl, hs⟩, hne, hfirst⟩
    refine ⟨⟨hchars.mp hc, ?_, mt hinfix.mpr hs⟩, mt List.map_eq_nil_iff.mpr hne, ?_⟩
    · rwa [List.getLast?_map, Ne, hsome] at hl
    · rwa [List.head?_map, Ne, hsome] at hfirst
  · rintro ⟨⟨hc, hl, hs⟩, hne, hfirst⟩
    refine ⟨⟨hchars.mpr hc, ?_, mt hinfix.mp hs⟩, mt List.map_eq_nil_iff.mp hne, ?_⟩
    · rwa [List.getLast?_map, Ne, hsome]
    · rwa [List.head?_map, Ne, hsome]

end Renaming

end Text.Pattern
