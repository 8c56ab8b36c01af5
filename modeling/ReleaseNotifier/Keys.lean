/-
Is a key as sensitive in a map as it is at the top level?

At the top level `isSensitiveKey` sees what `toSnakeCase` makes of a key, in a
map it sees the key itself. The words it then finds are stretches of the key
between two cuts, and the two kinds of cut differ: snake case has all those of
`keyParts` and, besides, the acronym cuts, such as the one in `JSON|Token`. An
acronym cut can set a sensitive word off that stood inside another word, and it
can run through a sensitive word (`TO|ken`). The classification changes exactly
where one of these happens without the other and no sensitive word is left to
speak for the key under both.

There is a second kind of acronym cut that no ASCII key shows: an upper-case
letter that has no lower case stays upper-case in the snake-cased key, and
`keyParts` cuts it off from a letter before it that has become lower-case.
-/
import ReleaseNotifier.Logger
import ReleaseNotifier.Text.Segments

set_option autoImplicit false

namespace ReleaseNotifier.Logger

open Text

/-! ## Words -/

/-- A rune that words are made of. -/
def isWordRune (r : Char) : Bool := Unicode.isLetter r || Unicode.isDigit r

/-- A lower-case letter or a digit. -/
def isLowerOrDigit (r : Char) : Bool := Unicode.isLower r || Unicode.isDigit r

/-- A word ends between any rune and one that is in no word, and where `cut` says
so. -/
def wordRule (cut : Char → Char → Option Char → Bool) : Rule Char := fun before after =>
  match before.getLast?, after with
  | some p, c :: rest => !isWordRune p || !isWordRune c || cut p c rest.head?
  | _, _ => true

/-- The cuts of `keyParts`. -/
def camelCut (p c : Char) (_ : Option Char) : Bool := Unicode.isUpper c && isLowerOrDigit p

/-- What `toSnakeCase` writes for a rune of a word. -/
def snakeRune (r : Char) : Char := if Unicode.isUpper r then Unicode.toLower r else r

/-- The cuts snake case has besides: before an upper-case letter that a
lower-case one follows, and before one that has no lower case, after one that
has. -/
def acronymCut (p c : Char) (next : Option Char) : Bool :=
  Unicode.isUpper c && (next.any Unicode.isLower ||
    (Unicode.isUpper (Unicode.toLower c) && isLowerOrDigit (snakeRune p)))

/-- All the cuts of snake case. -/
def snakeCut (p c : Char) (next : Option Char) : Bool :=
  camelCut p c next || acronymCut p c next

/-- How a word is spelled when it is looked up. -/
def spelled (w : List Char) : Bytes := encode (w.map Unicode.toLower)

/-- The words among some segments, as they are spelled. -/
def spelledWords (segs : List (List Char)) : List Bytes :=
  (segs.filter (fun w => w.all isWordRune)).map spelled

theorem flush_eq (b : List Char) : flush b = if b.isEmpty then [] else [spelled b] := by
  rw [flush, Strings.toLower, runes_encode, spelled]

@[simp] theorem flush_nil : flush [] = [] := rfl

/-! ## The loop of `keyParts` -/

section Loop

variable {prev : Option Char} {b : List Char} {r : Char} (rs : List Char)

/-- `keyParts` cuts before an upper-case letter that a lower-case one or a digit precedes. -/
theorem keyPartsFrom_word (h : isWordRune r = true) :
    keyPartsFrom prev b (r :: rs)
      = if Unicode.isUpper r && prev.any isLowerOrDigit then
          flush b ++ keyPartsFrom (some r) [r] rs
        else keyPartsFrom (some r) (b ++ [r]) rs := by
  have hword : (Unicode.isLetter r || Unicode.isDigit r) = true := h
  simp only [keyPartsFrom, hword, if_true]
  by_cases hcut : (Unicode.isUpper r && prev.any isLowerOrDigit) = true
  · have hcut' : (Unicode.isUpper r && prev.any (fun p => Unicode.isLower p || Unicode.isDigit p))
        = true := hcut
    simp [hcut, hcut']
  · have hcut' : ¬ (Unicode.isUpper r && prev.any
        (fun p => Unicode.isLower p || Unicode.isDigit p)) = true := hcut
    simp only [if_neg hcut, if_neg hcut', List.nil_append]

/-- A rune that belongs to no word ends the word before it. -/
theorem keyPartsFrom_other (h : isWordRune r = false) :
    keyPartsFrom prev b (r :: rs) = flush b ++ keyPartsFrom (some r) [] rs := by
  have hword : (Unicode.isLetter r || Unicode.isDigit r) = false := h
  simp only [keyPartsFrom, hword, Bool.false_eq_true, if_false]
  split
  · simp
  · simp

/-- Without a word begun it does not matter what came before. -/
theorem keyPartsFrom_nil (prev prev' : Option Char) :
    keyPartsFrom prev [] rs = keyPartsFrom prev' [] rs := by
  cases rs with
  | nil => rfl
  | cons r rs =>
    cases h : isWordRune r with
    | true => simp only [keyPartsFrom_word rs h, flush_nil, List.nil_append, ite_self]
    | false => simp only [keyPartsFrom_other rs h]

end Loop

/-! ## Segments of a key

A segment is a word, or a single rune that is in no word. -/

/-- What a segment begun can look like. -/
def Uniform (w : List Char) : Prop :=
  (∀ r ∈ w, isWordRune r = true) ∨ ∃ x, w = [x] ∧ isWordRune x = false

theorem Uniform.nil : Uniform [] := .inl (fun _ h => absurd h List.not_mem_nil)

theorem Uniform.single (r : Char) : Uniform [r] := by
  cases h : isWordRune r with
  | true => exact .inl (fun x hx => by rwa [List.mem_singleton.mp hx])
  | false => exact .inr ⟨r, rfl, h⟩

/-- The runes of a segment that are put into the builder. -/
def kept (w : List Char) : List Char := w.filter isWordRune

section Segments

variable {cut : Char → Char → Option Char → Bool} {before w rs : List Char} {p r x : Char}

theorem kept_word (h : ∀ r ∈ w, isWordRune r = true) : kept w = w :=
  List.filter_eq_self.mpr h

theorem kept_other (h : isWordRune x = false) : kept [x] = [] := by
  rw [kept, List.filter_singleton, h]
  rfl

theorem kept_append (h : isWordRune r = true) : kept (w ++ [r]) = kept w ++ [r] := by
  rw [kept, List.filter_append, List.filter_singleton, h, kept]
  rfl

/-- The last rune tells of which kind the whole segment is. -/
theorem Uniform.of_last (hu : Uniform w) (hlast : w.getLast? = some p)
    (hp : isWordRune p = true) : ∀ r ∈ w, isWordRune r = true := by
  rcases hu with hw | ⟨x, rfl, hx⟩
  · exact hw
  · have hxp : x = p := by simpa using hlast
    rw [← hxp, hx] at hp
    cases hp

theorem Uniform.kept_eq_nil (hu : Uniform w)
    (h : ∀ p, w.getLast? = some p → isWordRune p = false) : kept w = [] := by
  rcases hu with hw | ⟨x, rfl, hx⟩
  · cases hlast : w.getLast? with
    | none => rw [List.getLast?_eq_none_iff.mp hlast]; rfl
    | some p =>
      have hp := hw p (List.mem_of_getLast? hlast)
      rw [h p hlast] at hp
      cases hp
  · exact kept_other hx

/-- A segment grows by runes of its own kind. -/
theorem Uniform.append (hu : Uniform w) (hlast : w.getLast? = some p)
    (hp : isWordRune p = true) (hr : isWordRune r = true) : Uniform (w ++ [r]) := by
  refine .inl (fun x hx => ?_)
  rcases List.mem_append.mp hx with hx | hx
  · exact hu.of_last hlast hp x hx
  · rwa [List.mem_singleton.mp hx]

/-- A segment contributes its word, or nothing if it has none. -/
theorem spelledWords_cons (hu : Uniform w) (hne : w ≠ []) (segs : List (List Char)) :
    spelledWords (w :: segs) = flush (kept w) ++ spelledWords segs := by
  rcases hu with hw | ⟨x, rfl, hx⟩
  · have hall : w.all isWordRune = true := List.all_eq_true.mpr hw
    rw [kept_word hw, flush_eq, if_neg (by simpa using hne), spelledWords, List.filter_cons, hall]
    rfl
  · have hall : [x].all isWordRune = false := by simp [hx]
    rw [kept_other hx, spelledWords, List.filter_cons, hall]
    rfl

/-- The cut after a segment depends on its last rune and the next two. -/
theorem wordRule_append (hlast : w.getLast? = some p) :
    wordRule cut (before ++ w) (r :: rs)
      = (!isWordRune p || !isWordRune r || cut p r rs.head?) := by
  have hne : w ≠ [] := fun h => by rw [h] at hlast; cases hlast
  have hwhole : (before ++ w).getLast? = some p := by
    rw [List.getLast?_append_of_ne_nil _ hne, hlast]
  simp only [wordRule, hwhole]

/-- What is left when the text ends is the last word. -/
theorem spelledWords_end (hu : Uniform w) :
    spelledWords (segmentsFrom (wordRule cut) before w []) = flush (kept w) := by
  by_cases hne : w = []
  · rw [hne]; rfl
  · rw [segmentsFrom, if_neg (by simpa using hne), spelledWords_cons hu hne]
    exact List.append_nil _

/-- A segment ends before a rune. -/
theorem spelledWords_break (hu : Uniform w)
    (h : ∀ p, w.getLast? = some p → isWordRune p = true → isWordRune r = true →
      cut p r rs.head? = true) :
    spelledWords (segmentsFrom (wordRule cut) before w (r :: rs))
      = flush (kept w) ++ spelledWords (segmentsFrom (wordRule cut) (before ++ w) [r] rs) := by
  cases hlast : w.getLast? with
  | none =>
    rw [List.getLast?_eq_none_iff.mp hlast, List.append_nil]
    rfl
  | some p =>
    have hne : w ≠ [] := fun h => by rw [h] at hlast; cases hlast
    have hcut : wordRule cut (before ++ w) (r :: rs) = true := by
      rw [wordRule_append hlast]
      cases hp : isWordRune p with
      | false => rfl
      | true =>
        cases hr : isWordRune r with
        | false => rfl
        | true => exact h p hlast hp hr
    rw [segmentsFrom, if_pos (by simp [hne, hcut]), spelledWords_cons hu hne]

/-- A word goes on with a rune. -/
theorem spelledWords_join (hlast : w.getLast? = some p) (hp : isWordRune p = true)
    (hr : isWordRune r = true) (hcut : cut p r rs.head? = false) :
    spelledWords (segmentsFrom (wordRule cut) before w (r :: rs))
      = spelledWords (segmentsFrom (wordRule cut) before (w ++ [r]) rs) := by
  have hno : wordRule cut (before ++ w) (r :: rs) = false := by
    rw [wordRule_append hlast, hp, hr, hcut]
    rfl
  rw [segmentsFrom, hno, Bool.and_false, if_neg Bool.false_ne_true]

end Segments

/-! ## The two ways to find words -/

/-- `keyParts` finds the words between its cuts. -/
theorem keyPartsFrom_eq (before : List Char) {w : List Char} (hu : Uniform w) (rs : List Char) :
    keyPartsFrom w.getLast? (kept w) rs
      = spelledWords (segmentsFrom (wordRule camelCut) before w rs) := by
  induction rs generalizing before w with
  | nil => rw [spelledWords_end hu, keyPartsFrom]
  | cons r rs ih =>
    have hrest := ih (before ++ w) (Uniform.single r)
    rw [List.getLast?_singleton] at hrest
    cases hr : isWordRune r with
    | false =>
      rw [kept_other hr] at hrest
      rw [spelledWords_break hu (fun _ _ _ h => absurd h (by simp [hr])),
        keyPartsFrom_other rs hr, hrest]
    | true =>
      rw [kept_word (fun x hx => by rwa [List.mem_singleton.mp hx])] at hrest
      by_cases hjoin : ∃ p, w.getLast? = some p ∧ isWordRune p = true ∧
          camelCut p r rs.head? = false
      · -- the rune goes on with the word in the builder
        obtain ⟨p, hlast, hp, hcut⟩ := hjoin
        have hmore := ih before (hu.append hlast hp hr)
        rw [List.getLast?_concat, kept_append hr] at hmore
        have hno : (Unicode.isUpper r && w.getLast?.any isLowerOrDigit) = false := by
          rw [hlast]
          exact hcut
        rw [spelledWords_join hlast hp hr hcut, keyPartsFrom_word rs hr, hno,
          if_neg Bool.false_ne_true]
        exact hmore
      · rw [spelledWords_break hu (fun p hlast hp _ => by
          rw [← Bool.not_eq_false]
          exact fun hcut => hjoin ⟨p, hlast, hp, hcut⟩), keyPartsFrom_word rs hr, ← hrest]
        split
        · rfl
        · rename_i hcond
          -- without a cut there is nothing in the builder
          have hempty : kept w = [] := by
            refine hu.kept_eq_nil (fun p hlast => ?_)
            rw [← Bool.not_eq_true]
            intro hp
            refine hjoin ⟨p, hlast, hp, ?_⟩
            rw [hlast] at hcond
            exact Bool.eq_false_iff.mpr hcond
          rw [hempty, flush_nil, List.nil_append, List.nil_append]

/-! ### Snake case -/

/-- Lower-casing does not see what `toSnakeCase` does to a rune. -/
theorem toLower_snakeRune (r : Char) : Unicode.toLower (snakeRune r) = Unicode.toLower r := by
  rw [snakeRune]
  split
  · exact Unicode.toLower_toLower r
  · rfl

variable {r : Char}

theorem isWordRune_snakeRune (h : isWordRune r = true) : isWordRune (snakeRune r) = true := by
  rw [snakeRune]
  split
  · rename_i hupper
    rw [isWordRune, Unicode.isLetter_toLower hupper, Bool.true_or]
  · exact h

theorem isWordRune_of_upper (h : Unicode.isUpper r = true) : isWordRune r = true := by
  rw [isWordRune, Unicode.isLetter, h]
  rfl

/-- Neither does the spelling of a word. -/
theorem spelled_snakeRune (w : List Char) : spelled (w.map snakeRune) = spelled w := by
  rw [spelled, List.map_map, spelled]
  congr 1
  exact List.map_congr_left (fun r _ => toLower_snakeRune r)

theorem flush_snakeRune (w : List Char) : flush (w.map snakeRune) = flush w := by
  rw [flush_eq, flush_eq, spelled_snakeRune, List.isEmpty_map]

theorem isWordRune_underscore : isWordRune '_' = false := by decide

/-- With nothing buffered a cut makes no difference. -/
theorem keyPartsFrom_fresh (h : isWordRune r = true) (prev : Option Char) (rs : List Char) :
    keyPartsFrom prev [] (r :: rs) = keyPartsFrom (some r) [r] rs := by
  rw [keyPartsFrom_word rs h, flush_nil, List.nil_append, List.nil_append, ite_self]

/-- `toSnakeCase` writes an underscore before a rune of a word. -/
def scored (prev : Option Char) (pu : Bool) (r : Char) (next : Option Char) : Bool :=
  Unicode.isUpper r &&
    (prev.isSome && !pu && (prev.any isLowerOrDigit || next.any Unicode.isLower))

theorem snakeFrom_word (hr : isWordRune r = true) (prev : Option Char) (pu : Bool)
    (rs : List Char) :
    snakeFrom prev pu (r :: rs)
      = (if scored prev pu r rs.head? then ['_'] else [])
          ++ snakeRune r :: snakeFrom (some r) false rs := by
  have hsep : ¬ (r = '-' ∨ r = ' ' ∨ r = '.') := by
    rintro (rfl | rfl | rfl) <;> exact absurd hr (by decide)
  have hscore : (r == '_') = false := by
    rw [beq_eq_false_iff_ne]
    rintro rfl
    exact absurd hr (by decide)
  rw [snakeFrom, if_neg hsep, snakeRune, hscore]
  cases hupper : Unicode.isUpper r with
  | false => simp [scored, hupper]
  | true =>
    have hscored : scored prev pu r rs.head? = (prev.isSome && !pu &&
        (prev.any isLowerOrDigit || rs.head?.any Unicode.isLower)) := by
      rw [scored, hupper, Bool.true_and]
    rw [hscored]
    rfl

/-- A cut of snake case is an underscore, or a cut `keyParts` makes in what was
written. -/
theorem snakeCut_eq (p r : Char) (next : Option Char) :
    snakeCut p r next = (scored (some p) false r next ||
      (Unicode.isUpper (snakeRune r) && isLowerOrDigit (snakeRune p))) := by
  cases hupper : Unicode.isUpper r with
  | false => simp [snakeCut, camelCut, acronymCut, scored, snakeRune, hupper]
  | true =>
    have hr : snakeRune r = Unicode.toLower r := by rw [snakeRune, hupper, if_pos rfl]
    simp [snakeCut, camelCut, acronymCut, scored, hr, hupper, Bool.or_assoc]

/-- A rune outside all words ends the word in the builder, whether or not
`toSnakeCase` writes something for it. -/
theorem keyPartsFrom_snakeFrom_other (hr : isWordRune r = false) (prev po : Option Char) (pu : Bool)
    {b : List Char} (hpu : pu = true → b = []) (rs : List Char) :
    ∃ po' pu', keyPartsFrom po b (snakeFrom prev pu (r :: rs))
      = flush b ++ keyPartsFrom po' [] (snakeFrom (some r) pu' rs) := by
  by_cases hsep : r = '-' ∨ r = ' ' ∨ r = '.'
  · rw [snakeFrom, if_pos hsep]
    cases pu with
    | true => exact ⟨po, true, by rw [hpu rfl]; rfl⟩
    | false =>
      exact ⟨some '_', true, keyPartsFrom_other _ isWordRune_underscore⟩
  · have hupper : ¬ Unicode.isUpper r = true := fun h => by
      rw [isWordRune_of_upper h] at hr
      cases hr
    rw [snakeFrom, if_neg hsep, if_neg hupper]
    exact ⟨some r, r == '_', keyPartsFrom_other _ hr⟩

/-- A rune of a word, after another one: the builder is flushed before it exactly
at a cut of snake case, whether the cut was written as an underscore or is one that
`keyParts` sees for itself. -/
theorem keyPartsFrom_scored (hr : isWordRune r = true) (p : Char) (next : Option Char)
    (b rest : List Char) :
    keyPartsFrom (some (snakeRune p)) b
        ((if scored (some p) false r next then ['_'] else []) ++ snakeRune r :: rest)
      = if snakeCut p r next then flush b ++ keyPartsFrom (some (snakeRune r)) [snakeRune r] rest
        else keyPartsFrom (some (snakeRune r)) (b ++ [snakeRune r]) rest := by
  have hsr := isWordRune_snakeRune hr
  rw [snakeCut_eq]
  cases scored (some p) false r next with
  | true =>
    rw [Bool.true_or, if_pos rfl, if_pos rfl, List.singleton_append,
      keyPartsFrom_other _ isWordRune_underscore, keyPartsFrom_fresh hsr]
  | false =>
    rw [Bool.false_or, if_neg Bool.false_ne_true, List.nil_append, keyPartsFrom_word _ hsr,
      Option.any_some]

/-- With nothing in the builder an underscore makes no difference. -/
theorem keyPartsFrom_scored_nil (hr : isWordRune r = true) (po : Option Char) (score : Bool)
    (rest : List Char) :
    keyPartsFrom po [] ((if score then ['_'] else []) ++ snakeRune r :: rest)
      = keyPartsFrom (some (snakeRune r)) [snakeRune r] rest := by
  have hsr := isWordRune_snakeRune hr
  cases score with
  | true =>
    rw [if_pos rfl, List.singleton_append, keyPartsFrom_other _ isWordRune_underscore, flush_nil,
      List.nil_append, keyPartsFrom_fresh hsr]
  | false => rw [if_neg Bool.false_ne_true, List.nil_append, keyPartsFrom_fresh hsr]

/-- `keyParts` finds in the snake-cased key the words between the cuts of snake
case. The rune before is remembered twice: as it stands in the key, and as it was
written. -/
theorem keyPartsFrom_snakeFrom (before : List Char) {w : List Char} (hu : Uniform w)
    (po : Option Char) (pu : Bool)
    (hpo : ∀ p, w.getLast? = some p → isWordRune p = true → po = some (snakeRune p))
    (hpu : pu = true → kept w = []) (rs : List Char) :
    keyPartsFrom po ((kept w).map snakeRune) (snakeFrom w.getLast? pu rs)
      = spelledWords (segmentsFrom (wordRule snakeCut) before w rs) := by
  induction rs generalizing before w po pu with
  | nil => rw [snakeFrom, spelledWords_end hu, keyPartsFrom, flush_snakeRune]
  | cons r rs ih =>
    cases hr : isWordRune r with
    | false =>
      obtain ⟨po', pu', hstep⟩ := keyPartsFrom_snakeFrom_other hr w.getLast? po pu
        (b := (kept w).map snakeRune) (fun h => by rw [hpu h]; rfl) rs
      have hrest := ih (before ++ w) (Uniform.single r) po' pu'
        (fun p hp hw => by
          rw [List.getLast?_singleton] at hp
          cases hp
          rw [hr] at hw
          cases hw)
        (fun _ => kept_other hr)
      rw [kept_other hr, List.getLast?_singleton, List.map_nil] at hrest
      rw [hstep, spelledWords_break hu (fun _ _ _ h => absurd h (by simp [hr])),
        flush_snakeRune, hrest]
    | true =>
      have hrest := ih (before ++ w) (Uniform.single r) (some (snakeRune r)) false
        (fun p hp _ => by
          rw [List.getLast?_singleton] at hp
          cases hp
          rfl)
        (fun h => absurd h Bool.false_ne_true)
      rw [kept_word (fun x hx => by rwa [List.mem_singleton.mp hx]),
        List.getLast?_singleton, List.map_singleton] at hrest
      rw [snakeFrom_word hr]
      by_cases hword : ∃ p, w.getLast? = some p ∧ isWordRune p = true
      · obtain ⟨p, hlast, hp⟩ := hword
        -- an underscore was written last only if the builder is empty
        have hpu' : pu = false := by
          rw [← Bool.not_eq_true]
          intro h
          have hmem : p ∈ kept w :=
            List.mem_filter.mpr ⟨List.mem_of_getLast? hlast, hp⟩
          rw [hpu h] at hmem
          exact List.not_mem_nil hmem
        rw [hpo p hlast hp, hpu', hlast, keyPartsFrom_scored hr]
        cases hcut : snakeCut p r rs.head? with
        | true =>
          rw [spelledWords_break hu (fun q hq _ _ => by
            rw [hlast] at hq
            cases hq
            exact hcut), if_pos rfl, flush_snakeRune, hrest]
        | false =>
          have hmore := ih before (hu.append hlast hp hr) (some (snakeRune r)) false
            (fun q hq _ => by
              rw [List.getLast?_concat] at hq
              cases hq
              rfl)
            (fun h => absurd h Bool.false_ne_true)
          rw [List.getLast?_concat, kept_append hr, List.map_append] at hmore
          rw [spelledWords_join hlast hp hr hcut, if_neg Bool.false_ne_true]
          exact hmore
      · -- at the beginning of a word an underscore more or less cuts nothing off
        have hempty : kept w = [] := hu.kept_eq_nil (fun p hlast => by
          rw [← Bool.not_eq_true]
          exact fun hp => hword ⟨p, hlast, hp⟩)
        rw [spelledWords_break hu (fun p hlast hp _ => absurd ⟨p, hlast, hp⟩ hword), hempty,
          List.map_nil, keyPartsFrom_scored_nil hr, hrest, flush_nil, List.nil_append]

/-! ### White space around a key -/

theorem isWordRune_of_space (h : Unicode.isSpace r = true) : isWordRune r = false := by
  obtain ⟨hletter, hdigit⟩ := Unicode.not_letter_of_isSpace h
  rw [isWordRune, hletter, hdigit]
  rfl

/-- What is trimmed in front has no word in it. -/
theorem keyPartsFrom_front {front : List Char} (h : ∀ r ∈ front, isWordRune r = false)
    (prev : Option Char) (rs : List Char) :
    keyPartsFrom prev [] (front ++ rs) = keyPartsFrom none [] rs := by
  induction front generalizing prev with
  | nil => exact keyPartsFrom_nil rs prev none
  | cons r front ih =>
    rw [List.cons_append, keyPartsFrom_other _ (h r List.mem_cons_self), flush_nil,
      List.nil_append, ih (fun x hx => h x (List.mem_cons_of_mem _ hx))]

/-- What is trimmed behind has none either. -/
theorem keyPartsFrom_back {back : List Char} (h : ∀ r ∈ back, isWordRune r = false)
    (prev : Option Char) (b rs : List Char) :
    keyPartsFrom prev b (rs ++ back) = keyPartsFrom prev b rs := by
  induction rs generalizing prev b with
  | nil =>
    cases back with
    | nil => rfl
    | cons r back =>
      have hrest := keyPartsFrom_front (fun x hx => h x (List.mem_cons_of_mem _ hx)) (some r) []
      rw [List.append_nil] at hrest
      rw [List.nil_append, keyPartsFrom_other _ (h r List.mem_cons_self), hrest, keyPartsFrom,
        keyPartsFrom, flush_nil, List.append_nil]
  | cons r rs ih =>
    rw [List.cons_append]
    cases hr : isWordRune r with
    | true => rw [keyPartsFrom_word _ hr, keyPartsFrom_word _ hr, ih, ih]
    | false => rw [keyPartsFrom_other _ hr, keyPartsFrom_other _ hr, ih]

/-- Trimming a key does not change its words. -/
theorem keyParts_trimSpace (key : Bytes) : keyParts (Strings.trimSpace key) = keyParts key := by
  obtain ⟨front, back, hkey, hfront, hback⟩ := Strings.runes_eq_trimSpace key
  rw [keyParts, keyParts, hkey, keyPartsFrom_back (fun r hr => isWordRune_of_space (hback r hr)),
    keyPartsFrom_front (fun r hr => isWordRune_of_space (hfront r hr))]

/-! ## `apikey`

Neither trimming nor snake case changes whether a key spells `apikey`: white
space has no byte of it, and an underscore is taken out again. -/

/-- What is searched for `apikey`. -/
def bare (rs : List Char) : Bytes := stripKeySeparators (spelled rs)

theorem bare_append (rs rs' : List Char) : bare (rs ++ rs') = bare rs ++ bare rs' := by
  rw [bare, spelled, List.map_append, encode_append, stripKeySeparators, List.filter_append]
  rfl

theorem bare_cons (r : Char) (rs : List Char) : bare (r :: rs) = bare [r] ++ bare rs :=
  bare_append [r] rs

theorem bare_separator (h : r = '_' ∨ r = '-' ∨ r = ' ' ∨ r = '.') : bare [r] = [] := by
  rcases h with rfl | rfl | rfl | rfl <;> decide

theorem bare_snakeRune (r : Char) : bare [snakeRune r] = bare [r] := by
  have h := spelled_snakeRune [r]
  rw [List.map_singleton] at h
  rw [bare, h, bare]

/-- `toSnakeCase` moves separators and case, and the bare key has neither. -/
theorem bare_snakeFrom (prev : Option Char) (pu : Bool) (rs : List Char) :
    bare (snakeFrom prev pu rs) = bare rs := by
  induction rs generalizing prev pu with
  | nil => rfl
  | cons r rs ih =>
    rw [snakeFrom, bare_cons r rs]
    have hscore : bare ['_'] = [] := bare_separator (.inl rfl)
    by_cases hsep : r = '-' ∨ r = ' ' ∨ r = '.'
    · rw [if_pos hsep, bare_append, ih, bare_separator (.inr hsep)]
      split
      · rfl
      · rw [hscore]
    · rw [if_neg hsep]
      by_cases hupper : Unicode.isUpper r = true
      · have hlower : Unicode.toLower r = snakeRune r := by rw [snakeRune, if_pos hupper]
        rw [if_pos hupper, bare_append, hlower, bare_cons, ih, bare_snakeRune]
        split
        · rw [hscore, List.nil_append]
        · rfl
      · rw [if_neg hupper, bare_cons, ih]

section Infix

variable {α : Type} {w front back m : List α}

/-- What has no element of the front is not found any sooner in it. -/
theorem infix_of_front (h : ∀ x ∈ w, x ∉ front) (hin : w <:+: front ++ m) : w <:+: m := by
  induction front with
  | nil => exact hin
  | cons y front ih =>
    rw [List.cons_append, List.infix_cons_iff] at hin
    rcases hin with hpre | hin
    · cases w with
      | nil => exact List.nil_infix
      | cons x w =>
        have hxy := (List.cons_prefix_cons.mp hpre).1
        exact absurd (hxy ▸ List.mem_cons_self) (h x List.mem_cons_self)
    · exact ih (fun x hx hmem => h x hx (List.mem_cons_of_mem _ hmem)) hin

/-- A word that shares no rune with the tail is found before it. -/
theorem infix_of_back (h : ∀ x ∈ w, x ∉ back) (hin : w <:+: m ++ back) : w <:+: m := by
  rw [← List.reverse_infix, List.reverse_append] at hin
  rw [← List.reverse_infix]
  refine infix_of_front (fun x hx hmem => ?_) hin
  exact h x (List.mem_reverse.mp hx) (List.mem_reverse.mp hmem)

end Infix

/-- White space has no byte of `apikey`. -/
theorem not_mem_bare_of_space {rs : List Char} (h : ∀ r ∈ rs, Unicode.isSpace r = true) {b : UInt8}
    (hb : b ∈ utf8 "apikey") : b ∉ bare rs := by
  intro hmem
  have hspelled : b ∈ spelled rs := (List.mem_filter.mp hmem).1
  rw [spelled, encode, List.mem_flatMap] at hspelled
  obtain ⟨r', hr', hbr⟩ := hspelled
  obtain ⟨r, hr, rfl⟩ := List.mem_map.mp hr'
  have hspace : ∀ b ∈ utf8 "apikey", b ∉ String.utf8EncodeChar r := by
    refine Unicode.of_isSpace (P := fun r => ∀ b ∈ utf8 "apikey", b ∉ String.utf8EncodeChar r) ?_
      (h r hr)
    decide +kernel
  rw [Unicode.toLower_of_isSpace (h r hr)] at hbr
  exact hspace b hb hbr

/-- A key spells `apikey`. -/
def SpellsApikey (key : Bytes) : Prop := utf8 "apikey" <:+: bare (runes key)

/-- Trimming cannot hide `apikey`. -/
theorem spellsApikey_trimSpace (key : Bytes) :
    SpellsApikey (Strings.trimSpace key) ↔ SpellsApikey key := by
  obtain ⟨front, back, hkey, hfront, hback⟩ := Strings.runes_eq_trimSpace key
  rw [SpellsApikey, SpellsApikey, hkey, bare_append, bare_append]
  constructor
  · intro hin
    exact hin.trans (List.infix_append _ _ _)
  · intro hin
    refine infix_of_front (fun b hb => not_mem_bare_of_space hfront hb) ?_
    exact infix_of_back (fun b hb => not_mem_bare_of_space hback hb) hin

theorem runes_toSnakeCase (key : Bytes) :
    runes (toSnakeCase key) = snakeFrom none false (runes key) := by
  rw [toSnakeCase]
  split
  · rename_i hempty
    rw [hempty]
    rfl
  · exact runes_encode _

/-! ## What makes a key sensitive -/

/-- A sensitive word of a key, at its place. -/
structure SensitiveAt (key : Bytes) (before w after : List Char) : Prop where
  place : runes key = before ++ w ++ after
  word : ∀ r ∈ w, isWordRune r = true
  sensitive : spelled w ∈ sensitiveKeys

/-- A sensitive word stands alone between the cuts of a rule. -/
def StandsAlone (cut : Char → Char → Option Char → Bool) (key : Bytes) : Prop :=
  ∃ before w after, SensitiveAt key before w after ∧ IsSegment (wordRule cut) before w after

theorem standsAlone_iff (cut : Char → Char → Option Char → Bool) (key : Bytes) :
    StandsAlone cut key ↔
      ∃ part ∈ spelledWords (segments (wordRule cut) (runes key)), part ∈ sensitiveKeys := by
  constructor
  · rintro ⟨before, w, after, hat, hseg⟩
    refine ⟨spelled w, List.mem_map.mpr ⟨w, List.mem_filter.mpr ⟨?_, ?_⟩, rfl⟩, hat.sensitive⟩
    · exact mem_segments.mpr ⟨before, after, hat.place, hseg⟩
    · exact List.all_eq_true.mpr hat.word
  · rintro ⟨part, hpart, hsens⟩
    obtain ⟨w, hw, rfl⟩ := List.mem_map.mp hpart
    obtain ⟨hmem, hword⟩ := List.mem_filter.mp hw
    obtain ⟨before, after, hplace, hseg⟩ := mem_segments.mp hmem
    exact ⟨before, w, after, ⟨hplace, List.all_eq_true.mp hword, hsens⟩, hseg⟩

/-- **`keyParts` as a segmentation**: the words of the text under its own rule. -/
theorem keyParts_eq (key : Bytes) :
    keyParts key = spelledWords (segments (wordRule camelCut) (runes key)) :=
  keyPartsFrom_eq [] Uniform.nil (runes key)

/-- The same of the key that `toSnakeCase` has rewritten, over the runes of the original. -/
theorem keyParts_toSnakeCase (key : Bytes) :
    keyParts (toSnakeCase key) = spelledWords (segments (wordRule snakeCut) (runes key)) := by
  rw [keyParts, runes_toSnakeCase]
  exact keyPartsFrom_snakeFrom [] Uniform.nil none false (fun _ h => by cases h) (fun _ => rfl) _

/-- Trimming aside, a key is sensitive if it spells `apikey` or has a sensitive
part. -/
theorem isSensitiveKey_iff (key : Bytes) :
    isSensitiveKey key = true ↔
      SpellsApikey key ∨ ∃ part ∈ keyParts key, part ∈ sensitiveKeys := by
  have hbare : stripKeySeparators (Strings.toLower (Strings.trimSpace key))
      = bare (runes (Strings.trimSpace key)) := rfl
  rw [← spellsApikey_trimSpace, ← keyParts_trimSpace key, SpellsApikey, ← hbare]
  simp only [isSensitiveKey, Strings.contains]
  by_cases happ : utf8 "apikey" <:+: stripKeySeparators (Strings.toLower (Strings.trimSpace key))
  · simp only [happ, decide_true, if_true, true_or]
  · simp only [happ, decide_false, Bool.false_eq_true, if_false, false_or, List.any_eq_true,
      List.contains_iff_mem]

/-- When a key is sensitive as it stands. -/
theorem isSensitiveKey_raw (key : Bytes) :
    isSensitiveKey key = true ↔ SpellsApikey key ∨ StandsAlone camelCut key := by
  rw [isSensitiveKey_iff, standsAlone_iff, keyParts_eq]

/-- When it is sensitive after the rewriting. -/
theorem isSensitiveKey_toSnakeCase (key : Bytes) :
    isSensitiveKey (toSnakeCase key) = true ↔ SpellsApikey key ∨ StandsAlone snakeCut key := by
  rw [isSensitiveKey_iff, standsAlone_iff, keyParts_toSnakeCase, SpellsApikey, runes_toSnakeCase,
    bare_snakeFrom]
  rfl

/-! ## Acronym cuts -/

/-- A sensitive word that `keyParts` finds, with no acronym cut inside. -/
def Untouched (key : Bytes) : Prop :=
  ∃ before w after, SensitiveAt key before w after ∧
    IsSegment (wordRule camelCut) before w after ∧
    ∀ u v, u ≠ [] → v ≠ [] → w = u ++ v → wordRule acronymCut (before ++ u) (v ++ after) = false

/-- A sensitive word that `keyParts` finds, with an acronym cut inside, as in
`TOken`. -/
def CutThrough (key : Bytes) : Prop :=
  ∃ before w after, SensitiveAt key before w after ∧
    IsSegment (wordRule camelCut) before w after ∧
    ∃ u v, u ≠ [] ∧ v ≠ [] ∧ w = u ++ v ∧ wordRule acronymCut (before ++ u) (v ++ after) = true

/-- A sensitive word between cuts of snake case, one of which is not a cut of
`keyParts`, as in `CSRFToken`. -/
def SetOff (key : Bytes) : Prop :=
  ∃ before w after, SensitiveAt key before w after ∧
    IsSegment (wordRule snakeCut) before w after ∧
    ((before ≠ [] ∧ wordRule camelCut before (w ++ after) = false) ∨
      (after ≠ [] ∧ wordRule camelCut (before ++ w) after = false))

/-- Snake case has the cuts of `keyParts` and the acronym cuts. -/
theorem wordRule_snakeCut (before after : List Char) :
    wordRule snakeCut before after
      = (wordRule camelCut before after || wordRule acronymCut before after) := by
  unfold wordRule
  split
  · rename_i p c rest _
    rw [snakeCut]
    cases isWordRune p <;> cases isWordRune c <;> rfl
  · rfl

theorem standsAlone_camelCut (key : Bytes) :
    StandsAlone camelCut key ↔ Untouched key ∨ CutThrough key := by
  constructor
  · rintro ⟨before, w, after, hat, hseg⟩
    by_cases hcut : ∃ u v, u ≠ [] ∧ v ≠ [] ∧ w = u ++ v ∧
        wordRule acronymCut (before ++ u) (v ++ after) = true
    · exact .inr ⟨before, w, after, hat, hseg, hcut⟩
    · refine .inl ⟨before, w, after, hat, hseg, fun u v hu hv hw => ?_⟩
      rw [← Bool.not_eq_true]
      exact fun h => hcut ⟨u, v, hu, hv, hw, h⟩
  · rintro (⟨before, w, after, hat, hseg, -⟩ | ⟨before, w, after, hat, hseg, -⟩)
    · exact ⟨before, w, after, hat, hseg⟩
    · exact ⟨before, w, after, hat, hseg⟩

theorem standsAlone_snakeCut (key : Bytes) :
    StandsAlone snakeCut key ↔ Untouched key ∨ SetOff key := by
  constructor
  · rintro ⟨before, w, after, hat, hseg⟩
    by_cases hleft : before ≠ [] ∧ wordRule camelCut before (w ++ after) = false
    · exact .inr ⟨before, w, after, hat, hseg, .inl hleft⟩
    by_cases hright : after ≠ [] ∧ wordRule camelCut (before ++ w) after = false
    · exact .inr ⟨before, w, after, hat, hseg, .inr hright⟩
    -- the word ends on both sides at cuts of `keyParts`, and nothing cuts it
    have hinside : ∀ u v, u ≠ [] → v ≠ [] → w = u ++ v →
        wordRule camelCut (before ++ u) (v ++ after) = false ∧
          wordRule acronymCut (before ++ u) (v ++ after) = false := by
      intro u v hu hv hw
      have hno := hseg.whole u v hu hv hw
      rwa [wordRule_snakeCut, Bool.or_eq_false_iff] at hno
    refine .inl ⟨before, w, after, hat, ⟨hseg.ne_nil, ?_, ?_, ?_⟩, ?_⟩
    · rwa [not_and_or, not_not, Bool.not_eq_false] at hleft
    · rwa [not_and_or, not_not, Bool.not_eq_false] at hright
    · exact fun u v hu hv hw => (hinside u v hu hv hw).1
    · exact fun u v hu hv hw => (hinside u v hu hv hw).2
  · rintro (⟨before, w, after, hat, hseg, hno⟩ | ⟨before, w, after, hat, hseg, -⟩)
    · refine ⟨before, w, after, hat, ⟨hseg.ne_nil, ?_, ?_, ?_⟩⟩
      · exact hseg.left.imp id (fun h => by rw [wordRule_snakeCut, h, Bool.true_or])
      · exact hseg.right.imp id (fun h => by rw [wordRule_snakeCut, h, Bool.true_or])
      · intro u v hu hv hw
        rw [wordRule_snakeCut, hseg.whole u v hu hv hw, hno u v hu hv hw, Bool.false_or]
    · exact ⟨before, w, after, hat, hseg⟩

/-! ## At the top level and in a map -/

/-- Where both kinds of cut find a sensitive word, or neither. -/
def ReadsAlike (key : Bytes) : Prop :=
  SpellsApikey key ∨ Untouched key ∨ (CutThrough key ↔ SetOff key)

/-- The two readings differ by cuts alone, so it is enough to compare these. -/
theorem sensitive_alike (key : Bytes) :
    isSensitiveKey key = isSensitiveKey (toSnakeCase key) ↔ ReadsAlike key := by
  rw [Bool.eq_iff_iff, isSensitiveKey_raw, isSensitiveKey_toSnakeCase, standsAlone_camelCut,
    standsAlone_snakeCut, ReadsAlike]
  tauto

/-- The attribute is written as the entry of a map would be. -/
theorem replaceAttr_eq_redact_iff {α : Type} {key : Bytes} (htime : key ≠ utf8 "time")
    (hlevel : key ≠ utf8 "level") :
    (∀ val : Value α, (replaceAttr key val).2 = redact key val) ↔
      isSensitiveKey key = isSensitiveKey (toSnakeCase key) := by
  have hwritten : ∀ val : Value α, (replaceAttr key val).2
      = if isSensitiveKey (toSnakeCase key) then .str redactedValue else redactValue val := by
    intro val
    -- `err` is renamed on the way, which makes no difference: neither name is sensitive
    have herr : isSensitiveKey (if key = utf8 "err" then utf8 "error" else toSnakeCase key)
        = isSensitiveKey (toSnakeCase key) := by
      split
      · rename_i h
        rw [h]
        decide
      · rfl
    rw [replaceAttr, if_neg htime, if_neg hlevel]
    simp only [herr]
    split
    · rfl
    · rfl
  constructor
  · intro h
    -- an empty string tells the two apart
    have hempty := h (.str [])
    rw [hwritten, redact, redactValue] at hempty
    have hne : (Value.str redactedValue : Value α) ≠ .str [] := by
      intro heq
      exact absurd (Value.str.inj heq) (by decide)
    cases hk : isSensitiveKey key <;> cases hs : isSensitiveKey (toSnakeCase key)
    · rfl
    · rw [hk, hs] at hempty
      exact absurd hempty hne
    · rw [hk, hs] at hempty
      exact absurd hempty.symm hne
    · rfl
  · intro h val
    rw [hwritten, redact, h]

/-- **A key is classified alike** at the top level and in a map, and a value is
written alike under it, exactly if it reads alike with and without acronym cuts.
The logger's own keys for the time and the level are not classified at all. -/
theorem classified_alike_iff {α : Type} (key : Bytes) :
    (isSensitiveKey key = isSensitiveKey (toSnakeCase key) ↔ ReadsAlike key) ∧
      (key ≠ utf8 "time" → key ≠ utf8 "level" →
        ((∀ val : Value α, (replaceAttr key val).2 = redact key val) ↔ ReadsAlike key)) := by
  refine ⟨sensitive_alike key, fun htime hlevel => ?_⟩
  rw [replaceAttr_eq_redact_iff htime hlevel, sensitive_alike]

/-- `authToken` is redacted under either reading. -/
theorem classified_alike_authToken :
    ReadsAlike (utf8 "authToken") ∧
      ∀ val : Value Unit, (replaceAttr (utf8 "authToken") val).2 = redact (utf8 "authToken") val := by
  obtain ⟨hkey, hval⟩ := classified_alike_iff (α := Unit) (utf8 "authToken")
  have halike : ReadsAlike (utf8 "authToken") := hkey.mp (by decide)
  exact ⟨halike, (hval (by decide) (by decide)).mpr halike⟩

/-- A token that is hidden at the top level and shown in a map, and a card the
other way round. -/
theorem not_classified_alike :
    isSensitiveKey (utf8 "CSRFToken") = false ∧
      isSensitiveKey (toSnakeCase (utf8 "CSRFToken")) = true ∧
      isSensitiveKey (utf8 "CArd") = true ∧ isSensitiveKey (toSnakeCase (utf8 "CArd")) = false := by
  decide

end ReleaseNotifier.Logger
