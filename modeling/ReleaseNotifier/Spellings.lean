/-
The ways to spell a key.

`api_key`, `API_KEY`, `api-key`, `api.key`, `api key`, `apiKey` and `ApiKey` are
the same two words. `keyParts` recovers the words from each of them: five layouts
end a word with a separator, and two begin one with a capital after a small
letter. That words have two letters matters in the last two only, where a word of
one letter ends in its capital.
-/
import ReleaseNotifier.Keys

set_option autoImplicit false

namespace ReleaseNotifier.Logger

open Text

/-! ## Words and spellings -/

/-- A small ASCII letter. -/
def IsSmall (r : Char) : Prop := 'a'.toNat ≤ r.toNat ∧ r.toNat ≤ 'z'.toNat

/-- A word of at least two small letters. -/
structure Word where
  letters : List Char
  two : 2 ≤ letters.length
  small : ∀ r ∈ letters, IsSmall r

/-- The capital of a small letter. -/
def capital (r : Char) : Char := Char.ofNat (r.toNat - 0x20)

/-- A word that begins with a capital. -/
def Word.capitalized (w : Word) : List Char :=
  match w.letters with
  | [] => []
  | r :: rs => capital r :: rs

/-- The styles a key is spelled in. -/
inductive Style
  | snake
  | upperSnake
  | kebab
  | dotted
  | spaced
  | camel
  | pascal
  deriving DecidableEq

/-- Some words in a style. -/
def Style.spell (ws : List Word) : Style → List Char
  | .snake => ['_'].intercalate (ws.map Word.letters)
  | .upperSnake => ['_'].intercalate (ws.map (fun w => w.letters.map capital))
  | .kebab => ['-'].intercalate (ws.map Word.letters)
  | .dotted => ['.'].intercalate (ws.map Word.letters)
  | .spaced => [' '].intercalate (ws.map Word.letters)
  | .camel =>
    match ws with
    | [] => []
    | w :: ws => w.letters ++ ws.flatMap Word.capitalized
  | .pascal => ws.flatMap Word.capitalized

/-! ## Letters -/

/-- What is known of a small letter, and of its capital. -/
structure Cased (r : Char) : Prop where
  not_upper : Unicode.isUpper r = false
  lower : Unicode.isLower r = true
  toLower : Unicode.toLower r = r
  capital_upper : Unicode.isUpper (capital r) = true
  capital_not : isLowerOrDigit (capital r) = false
  toLower_capital : Unicode.toLower (capital r) = r
  encoded : stripKeySeparators (String.utf8EncodeChar r) = String.utf8EncodeChar r

theorem IsSmall.cased {r : Char} (h : IsSmall r) : Cased r := by
  have hall : ∀ n < 0x7b, 0x61 ≤ n → Unicode.isUpper (Char.ofNat n) = false ∧
      Unicode.isLower (Char.ofNat n) = true ∧ Unicode.toLower (Char.ofNat n) = Char.ofNat n ∧
      Unicode.isUpper (capital (Char.ofNat n)) = true ∧
      isLowerOrDigit (capital (Char.ofNat n)) = false ∧
      Unicode.toLower (capital (Char.ofNat n)) = Char.ofNat n ∧
      stripKeySeparators (String.utf8EncodeChar (Char.ofNat n))
        = String.utf8EncodeChar (Char.ofNat n) := by
    decide
  have hr := hall r.toNat (Nat.lt_succ_of_le h.2) h.1
  rw [Char.ofNat_toNat] at hr
  obtain ⟨h₁, h₂, h₃, h₄, h₅, h₆, h₇⟩ := hr
  exact ⟨h₁, h₂, h₃, h₄, h₅, h₆, h₇⟩

section Letters

variable {r : Char} (h : IsSmall r)

include h

theorem isWordRune_small : isWordRune r = true := by
  rw [isWordRune, Unicode.isLetter, h.cased.lower, Bool.or_true, Bool.true_or, Bool.true_or]

theorem isWordRune_capital : isWordRune (capital r) = true := by
  rw [isWordRune, Unicode.isLetter, h.cased.capital_upper, Bool.true_or, Bool.true_or,
    Bool.true_or]

theorem isLowerOrDigit_small : isLowerOrDigit r = true := by
  rw [isLowerOrDigit, h.cased.lower, Bool.true_or]

end Letters

/-! ## How a word is found -/

/-- Runes that `keyParts` takes together: none is a capital, or all are and
nothing small comes before. -/
def Flows (prev : Option Char) (w : List Char) : Prop :=
  (∀ r ∈ w, Unicode.isUpper r = false) ∨
    (prev.any isLowerOrDigit = false ∧ ∀ r ∈ w, isLowerOrDigit r = false)

variable {prev : Option Char}

/-- A word that flows is not cut at its next letter. -/
theorem Flows.head {r : Char} {w : List Char} (h : Flows prev (r :: w)) :
    (Unicode.isUpper r && prev.any isLowerOrDigit) = false := by
  rcases h with hsmall | ⟨hprev, -⟩
  · rw [hsmall r List.mem_cons_self, Bool.false_and]
  · rw [hprev, Bool.and_false]

theorem Flows.tail {r : Char} {w : List Char} (h : Flows prev (r :: w)) : Flows (some r) w := by
  rcases h with hsmall | ⟨-, hbig⟩
  · exact .inl (fun x hx => hsmall x (List.mem_cons_of_mem _ hx))
  · exact .inr ⟨hbig r List.mem_cons_self, fun x hx => hbig x (List.mem_cons_of_mem _ hx)⟩

/-- The loop runs through a word and has it in the builder. -/
theorem keyPartsFrom_flow {b w : List Char} (hword : ∀ r ∈ w, isWordRune r = true)
    (hflow : Flows prev w) (hne : w ≠ []) (rest : List Char) :
    keyPartsFrom prev b (w ++ rest) = keyPartsFrom w.getLast? (b ++ w) rest := by
  induction w generalizing prev b with
  | nil => exact absurd rfl hne
  | cons r w ih =>
    have hstep : keyPartsFrom prev b (r :: w ++ rest)
        = keyPartsFrom (some r) (b ++ [r]) (w ++ rest) := by
      rw [List.cons_append, keyPartsFrom_word _ (hword r List.mem_cons_self), hflow.head,
        if_neg Bool.false_ne_true]
    rw [hstep]
    by_cases hw : w = []
    · subst hw
      rfl
    · rw [ih (fun x hx => hword x (List.mem_cons_of_mem _ hx)) hflow.tail hw, List.append_assoc,
        List.singleton_append, List.getLast?_cons_of_ne_nil hw]

theorem flush_of_ne_nil {b : List Char} (h : b ≠ []) : flush b = [spelled b] := by
  rw [flush_eq, if_neg (by simpa using h)]

/-! ### Separators -/

/-- Words that end at separators. -/
theorem keyPartsFrom_separated {sep : Char} (hsep : isWordRune sep = false)
    {parts : List (List Char)} (hne : ∀ w ∈ parts, w ≠ [])
    (hword : ∀ w ∈ parts, ∀ r ∈ w, isWordRune r = true) (hflow : ∀ w ∈ parts, Flows none w) :
    keyPartsFrom none [] ([sep].intercalate parts) = parts.map spelled := by
  induction parts with
  | nil => rfl
  | cons w parts ih =>
    have hw : keyPartsFrom none [] w = [spelled w] := by
      have hrun := keyPartsFrom_flow (b := []) (hword w List.mem_cons_self)
        (hflow w List.mem_cons_self) (hne w List.mem_cons_self) []
      rw [List.append_nil, List.nil_append] at hrun
      rw [hrun, keyPartsFrom, flush_of_ne_nil (hne w List.mem_cons_self)]
    cases parts with
    | nil =>
      rw [List.intercalate_singleton, hw]
      rfl
    | cons w' parts =>
      have hrest := ih (fun x hx => hne x (List.mem_cons_of_mem _ hx))
        (fun x hx => hword x (List.mem_cons_of_mem _ hx))
        (fun x hx => hflow x (List.mem_cons_of_mem _ hx))
      rw [List.intercalate_cons_cons, List.append_assoc, List.singleton_append,
        keyPartsFrom_flow (hword w List.mem_cons_self) (hflow w List.mem_cons_self)
          (hne w List.mem_cons_self),
        List.nil_append, keyPartsFrom_other _ hsep,
        keyPartsFrom_nil _ (some sep) none, hrest, flush_of_ne_nil (hne w List.mem_cons_self)]
      rfl

/-! ### Capitals -/

section Capitals

variable (w : Word)

theorem Word.ne_nil : w.letters ≠ [] := by
  intro h
  have := w.two
  rw [h] at this
  exact absurd this (by decide)

/-- A capital, and at least one small letter behind it. -/
theorem Word.capitalized_eq : ∃ r rs, w.letters = r :: rs ∧ w.capitalized = capital r :: rs ∧
    IsSmall r ∧ (∀ x ∈ rs, IsSmall x) ∧ rs ≠ [] := by
  obtain ⟨r, rs, hletters⟩ := List.exists_cons_of_ne_nil w.ne_nil
  have hsmall := w.small
  have htwo := w.two
  rw [hletters] at hsmall htwo
  refine ⟨r, rs, hletters, ?_, hsmall r List.mem_cons_self,
    fun x hx => hsmall x (List.mem_cons_of_mem _ hx), ?_⟩
  · rw [Word.capitalized, hletters]
  · rintro rfl
    rw [List.length_singleton] at htwo
    exact absurd htwo (by decide)

theorem Word.spelled_letters : spelled w.letters = encode w.letters := by
  rw [spelled, List.map_congr_left (fun r hr => (w.small r hr).cased.toLower), List.map_id']

/-- Capitals do not change how a word is spelled. -/
theorem Word.spelled_capitals : spelled (w.letters.map capital) = encode w.letters := by
  have hback : (w.letters.map capital).map Unicode.toLower = w.letters := by
    rw [List.map_map]
    exact (List.map_congr_left (fun r hr => (w.small r hr).cased.toLower_capital)).trans
      (List.map_id' _)
  rw [spelled, hback]

theorem Word.spelled_capitalized : spelled w.capitalized = encode w.letters := by
  obtain ⟨r, rs, hletters, hcap, hr, hrs, -⟩ := w.capitalized_eq
  rw [← w.spelled_letters, hletters, hcap, spelled, spelled, List.map_cons, List.map_cons,
    hr.cased.toLower_capital, hr.cased.toLower]

/-- A capital after a small letter ends the word in the builder. -/
theorem keyPartsFrom_capitalized {p : Char} (hp : isLowerOrDigit p = true) (b rest : List Char) :
    ∃ q, isLowerOrDigit q = true ∧
      keyPartsFrom (some p) b (w.capitalized ++ rest)
        = flush b ++ keyPartsFrom (some q) w.capitalized rest := by
  obtain ⟨r, rs, -, hcap, hr, hrs, hne⟩ := w.capitalized_eq
  obtain ⟨q, hq⟩ : ∃ q, rs.getLast? = some q := ⟨_, List.getLast?_eq_some_getLast hne⟩
  refine ⟨q, isLowerOrDigit_small (hrs q (List.mem_of_getLast? hq)), ?_⟩
  have hcut : (Unicode.isUpper (capital r) && (some p).any isLowerOrDigit) = true := by
    rw [hr.cased.capital_upper, Option.any_some, hp]
    rfl
  have hflow : Flows (some (capital r)) rs := .inl (fun x hx => (hrs x hx).cased.not_upper)
  rw [hcap, List.cons_append, keyPartsFrom_word _ (isWordRune_capital hr), if_pos hcut,
    keyPartsFrom_flow (fun x hx => isWordRune_small (hrs x hx)) hflow hne, hq]
  rfl

end Capitals

/-- Words that begin with capitals, behind a word in the builder. -/
theorem keyPartsFrom_capitals {p : Char} (hp : isLowerOrDigit p = true) (b : List Char)
    (ws : List Word) :
    keyPartsFrom (some p) b (ws.flatMap Word.capitalized)
      = flush b ++ ws.map (fun w => encode w.letters) := by
  induction ws generalizing p b with
  | nil => rw [List.flatMap_nil, keyPartsFrom, List.map_nil, List.append_nil]
  | cons w ws ih =>
    obtain ⟨q, hq, hstep⟩ := keyPartsFrom_capitalized w hp b (ws.flatMap Word.capitalized)
    have hne : w.capitalized ≠ [] := by
      obtain ⟨r, rs, -, hcap, -⟩ := w.capitalized_eq
      rw [hcap]
      exact List.cons_ne_nil _ _
    rw [List.flatMap_cons, hstep, ih hq, flush_of_ne_nil hne, w.spelled_capitalized,
      List.map_cons]
    rfl

/-! ## Every style -/

/-- Words in one form, between separators. -/
theorem keyParts_separated {sep : Char} (hsep : isWordRune sep = false) {form : Word → List Char}
    (hne : ∀ w, form w ≠ []) (hword : ∀ w, ∀ r ∈ form w, isWordRune r = true)
    (hflow : ∀ w, Flows none (form w)) (hspelled : ∀ w, spelled (form w) = encode w.letters)
    (ws : List Word) :
    keyPartsFrom none [] ([sep].intercalate (ws.map form)) = ws.map (fun w => encode w.letters) := by
  rw [keyPartsFrom_separated hsep, List.map_map]
  · exact List.map_congr_left (fun w _ => hspelled w)
  · exact List.forall_mem_map.mpr (fun w _ => hne w)
  · exact List.forall_mem_map.mpr (fun w _ => hword w)
  · exact List.forall_mem_map.mpr (fun w _ => hflow w)

theorem Word.flows (w : Word) : Flows none w.letters :=
  .inl (fun r hr => (w.small r hr).cased.not_upper)

/-- Lower-case words with a separator between them are found as they are. -/
theorem keyParts_small {sep : Char} (hsep : isWordRune sep = false) (ws : List Word) :
    keyPartsFrom none [] ([sep].intercalate (ws.map Word.letters))
      = ws.map (fun w => encode w.letters) :=
  keyParts_separated hsep (fun w => w.ne_nil) (fun w r hr => isWordRune_small (w.small r hr))
    Word.flows Word.spelled_letters ws

/-- Words in capitals are not cut inside. -/
theorem keyParts_upperSnake (ws : List Word) :
    keyPartsFrom none [] (Style.spell ws .upperSnake) = ws.map (fun w => encode w.letters) := by
  refine keyParts_separated (by decide) (fun w => ?_) (fun w r hr => ?_) (fun w => ?_)
    Word.spelled_capitals ws
  · simpa using w.ne_nil
  · obtain ⟨c, hc, rfl⟩ := List.mem_map.mp hr
    exact isWordRune_capital (w.small c hc)
  · refine .inr ⟨rfl, fun r hr => ?_⟩
    obtain ⟨c, hc, rfl⟩ := List.mem_map.mp hr
    exact (w.small c hc).cased.capital_not

/-- In camel case the cut is before each capital. -/
theorem keyParts_camel (w : Word) (ws : List Word) :
    keyPartsFrom none [] (w.letters ++ ws.flatMap Word.capitalized)
      = (w :: ws).map (fun w => encode w.letters) := by
  obtain ⟨q, hq⟩ : ∃ q, w.letters.getLast? = some q :=
    ⟨_, List.getLast?_eq_some_getLast w.ne_nil⟩
  have hlow := isLowerOrDigit_small (w.small q (List.mem_of_getLast? hq))
  rw [keyPartsFrom_flow (fun r hr => isWordRune_small (w.small r hr)) w.flows w.ne_nil, hq,
    keyPartsFrom_capitals hlow, List.nil_append, flush_of_ne_nil w.ne_nil, w.spelled_letters,
    List.map_cons]
  rfl

/-- The words are recovered from every spelling. -/
theorem keyParts_spell (style : Style) (ws : List Word) :
    keyPartsFrom none [] (style.spell ws) = ws.map (fun w => encode w.letters) := by
  cases style with
  | snake => exact keyParts_small (by decide) ws
  | kebab => exact keyParts_small (by decide) ws
  | dotted => exact keyParts_small (by decide) ws
  | spaced => exact keyParts_small (by decide) ws
  | upperSnake => exact keyParts_upperSnake ws
  | camel =>
    cases ws with
    | nil => rfl
    | cons w ws => exact keyParts_camel w ws
  | pascal =>
    -- with an empty builder the capital that comes first cuts nothing off
    rw [Style.spell, keyPartsFrom_nil _ none (some 'a'),
      keyPartsFrom_capitals (by decide), flush_nil, List.nil_append]

/-- The bare key forgets how a word was written. -/
theorem Word.bare_eq (w : Word) {l : List Char} (h : spelled l = encode w.letters) :
    bare l = encode w.letters := by
  rw [bare, h, encode, stripKeySeparators, List.filter_flatMap]
  exact List.flatMap_congr (fun r hr => (w.small r hr).cased.encoded)

/-- A separator leaves nothing. -/
theorem bare_intercalate {sep : Char} (hsep : bare [sep] = []) (parts : List (List Char)) :
    bare ([sep].intercalate parts) = parts.flatMap bare := by
  induction parts with
  | nil => rfl
  | cons w parts ih =>
    cases parts with
    | nil => rw [List.intercalate_singleton, List.flatMap_cons, List.flatMap_nil, List.append_nil]
    | cons w' parts =>
      rw [List.intercalate_cons_cons, bare_append, bare_append, hsep, ih, List.append_nil]
      rfl

theorem bare_flatMap (f : Word → List Char) (hf : ∀ w, spelled (f w) = encode w.letters)
    (ws : List Word) : bare (ws.flatMap f) = encode (ws.flatMap Word.letters) := by
  induction ws with
  | nil => rfl
  | cons w ws ih =>
    rw [List.flatMap_cons, List.flatMap_cons, bare_append, encode_append, ih, w.bare_eq (hf w)]

/-- Without its separators a spelling is its words, one after the other. -/
theorem bare_spell (style : Style) (ws : List Word) :
    bare (style.spell ws) = encode (ws.flatMap Word.letters) := by
  have hparts : ∀ f : Word → List Char, (∀ w, spelled (f w) = encode w.letters) →
      (ws.map f).flatMap bare = encode (ws.flatMap Word.letters) := by
    intro f hf
    rw [List.flatMap_map, encode, List.flatMap_assoc]
    exact List.flatMap_congr (fun w _ => w.bare_eq (hf w))
  cases style with
  | snake => rw [Style.spell, bare_intercalate (by decide), hparts _ Word.spelled_letters]
  | kebab => rw [Style.spell, bare_intercalate (by decide), hparts _ Word.spelled_letters]
  | dotted => rw [Style.spell, bare_intercalate (by decide), hparts _ Word.spelled_letters]
  | spaced => rw [Style.spell, bare_intercalate (by decide), hparts _ Word.spelled_letters]
  | upperSnake =>
    rw [Style.spell, bare_intercalate (by decide), hparts _ Word.spelled_capitals]
  | camel =>
    cases ws with
    | nil => rfl
    | cons w ws =>
      rw [Style.spell, bare_append, bare_flatMap _ Word.spelled_capitalized,
        w.bare_eq w.spelled_letters, List.flatMap_cons, encode_append]
  | pascal => rw [Style.spell, bare_flatMap _ Word.spelled_capitalized]

/-- Whatever the style, a key of words is sensitive if and only if one of the words
is, or they spell `apikey` one after the other. -/
theorem spelling_classified (style : Style) (ws : List Word) :
    isSensitiveKey (encode (style.spell ws)) = true ↔
      (∃ w ∈ ws, encode w.letters ∈ sensitiveKeys) ∨
        utf8 "apikey" <:+: encode (ws.flatMap Word.letters) := by
  rw [isSensitiveKey_iff, SpellsApikey, keyParts, runes_encode, bare_spell, keyParts_spell]
  simp only [List.mem_map, exists_exists_and_eq_and]
  exact or_comm

/-- `api key` in five of the styles. -/
example : isSensitiveKey (utf8 "API_KEY") = true ∧ isSensitiveKey (utf8 "api-key") = true ∧
    isSensitiveKey (utf8 "api key") = true ∧ isSensitiveKey (utf8 "apiKey") = true ∧
    isSensitiveKey (utf8 "ApiKey") = true := by
  decide

end ReleaseNotifier.Logger
