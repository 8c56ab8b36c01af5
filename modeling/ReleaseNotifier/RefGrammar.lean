/-
`ParseRef` of `internal/repository/ref.go`, and its language over all strings.

A reference is read from bytes, as the code reads it: the cut is at a byte, the
length of the owner is counted in bytes, and the two regular expressions run over
runes. They are Mathlib's regular expressions, written as in the source. The service
and the poller hold references as strings of characters; for them the same parser is
run on the bytes of the string.
-/
import ReleaseNotifier.Wire
import ReleaseNotifier.Text.Pattern

set_option autoImplicit false

namespace ReleaseNotifier.Repository

open Text Text.Pattern

/-! ## `ref.go` -/

/-- `repository.Ref`. -/
structure Ref where
  owner : Bytes
  name : Bytes
  deriving DecidableEq

/-- `ErrInvalid`. -/
def errInvalid : Err := .text "invalid repository format, expected owner/repo"

/-- The class `[A-Za-z0-9]`. -/
def alnum : List Char := charRange 'A' 'Z' ++ charRange 'a' 'z' ++ charRange '0' '9'

/-- `nameRe`: `^[A-Za-z0-9._-]{1,100}$`. -/
def nameRe : RegularExpression Char := upTo (oneOf (alnum ++ ['.', '_', '-'])) 99

/-- `ownerRe`: `^[A-Za-z0-9](?:-?[A-Za-z0-9])*$`. -/
def ownerRe : RegularExpression Char := separated '-' alnum

/-- `MatchString` for a pattern between `^` and `$`. -/
def matchString (re : RegularExpression Char) (s : Bytes) : Bool := re.rmatch (runes s)

/-- `validOwner`. -/
def validOwner (owner : Bytes) : Bool :=
  decide (owner.length ≤ 39) && matchString ownerRe owner

/-- The byte of `/`. -/
def slash : UInt8 := 0x2f

/-- The byte of `-`. -/
def hyphen : UInt8 := 0x2d

/-- `ParseRef`. -/
def parseRef (raw : Bytes) : Except Err Ref :=
  match Strings.cut raw slash with
  | none => .error errInvalid
  | some (owner, name) =>
    if !validOwner owner || !matchString nameRe name then .error errInvalid
    else .ok ⟨owner, name⟩

/-- `Ref.String`. -/
def Ref.string (r : Ref) : Bytes := r.owner ++ slash :: r.name

/-! ## The grammar -/

/-- An ASCII letter or digit. -/
def IsAlnum (b : UInt8) : Prop :=
  (0x41 ≤ b.toNat ∧ b.toNat ≤ 0x5a) ∨ (0x61 ≤ b.toNat ∧ b.toNat ≤ 0x7a) ∨
    (0x30 ≤ b.toNat ∧ b.toNat ≤ 0x39)

/-- An owner: 1 to 39 letters, digits and hyphens, with no hyphen first, last or after
another. -/
structure IsOwner (s : Bytes) : Prop where
  length : 1 ≤ s.length ∧ s.length ≤ 39
  chars : ∀ b ∈ s, IsAlnum b ∨ b = hyphen
  first : s.head? ≠ some hyphen
  last : s.getLast? ≠ some hyphen
  alone : ¬ [hyphen, hyphen] <:+: s

/-- A name: 1 to 100 letters, digits, dots, underscores and hyphens. -/
structure IsName (s : Bytes) : Prop where
  length : 1 ≤ s.length ∧ s.length ≤ 100
  chars : ∀ b ∈ s, IsAlnum b ∨ b = 0x2e ∨ b = 0x5f ∨ b = hyphen

instance (b : UInt8) : Decidable (IsAlnum b) := inferInstanceAs (Decidable (_ ∨ _ ∨ _))

/-- The grammar is ASCII, so bytes and runes agree on what it accepts. -/
theorem IsAlnum.lt {b : UInt8} (h : IsAlnum b) : b.toNat < 0x80 := by
  unfold IsAlnum at h
  omega

/-! ## Classes over bytes -/

/-- The character of an ASCII byte. -/
def char (b : UInt8) : Char := Char.ofNat b.toNat

theorem toNat_char (b : UInt8) : (char b).toNat = b.toNat := by
  have hlt := b.toNat_lt
  have hvalid : b.toNat.isValidChar := .inl (by omega)
  rw [char, Char.ofNat, dif_pos hvalid]
  rfl

/-- Bytes are told apart by the character of the same number. -/
theorem char_injective : Function.Injective char := by
  intro a b h
  have hnat : a.toNat = b.toNat := by rw [← toNat_char, h, toNat_char]
  exact UInt8.toNat_inj.mp hnat

theorem mem_alnum {c : Char} :
    c ∈ alnum ↔ (0x41 ≤ c.toNat ∧ c.toNat ≤ 0x5a) ∨ (0x61 ≤ c.toNat ∧ c.toNat ≤ 0x7a) ∨
      (0x30 ≤ c.toNat ∧ c.toNat ≤ 0x39) := by
  rw [alnum, List.mem_append, List.mem_append, mem_charRange (by decide),
    mem_charRange (by decide), mem_charRange (by decide), or_assoc]
  exact Iff.rfl

theorem char_mem_alnum {b : UInt8} : char b ∈ alnum ↔ IsAlnum b := by
  rw [mem_alnum, toNat_char, IsAlnum]

theorem lt_of_mem_alnum {c : Char} (h : c ∈ alnum) : c.toNat < 0x80 := by
  have := mem_alnum.mp h
  omega

variable {s : Bytes}

/-- A string of ASCII runes, by its bytes. -/
theorem runes_eq_map (h : ∀ r ∈ runes s, r.toNat < 0x80) : runes s = s.map char := by
  refine runes_ascii (fun b hb => ?_)
  rw [(eq_encode_of_ascii h).1] at hb
  obtain ⟨r, hr, hb⟩ := List.mem_flatMap.mp hb
  have hlt := h r hr
  rw [utf8EncodeChar_ascii hlt, List.mem_singleton] at hb
  rwa [hb, UInt8.toNat_ofNat', Nat.mod_eq_of_lt (by omega)]

theorem hyphen_not_mem_alnum : '-' ∉ alnum := by
  rw [mem_alnum]
  decide

/-- **What `ownerRe` accepts**: runs of letters and digits, separated by single hyphens. -/
theorem matchString_ownerRe :
    matchString ownerRe s = true ↔ Separated hyphen IsAlnum s := by
  have hmap : Separated '-' (· ∈ alnum) (s.map char) ↔ Separated hyphen IsAlnum s := by
    have h : Separated (char hyphen) (· ∈ alnum) (s.map char) ↔
        Separated hyphen (fun b => char b ∈ alnum) s := separated_map char_injective
    simp only [char_mem_alnum] at h
    exact h
  rw [matchString, RegularExpression.rmatch_iff_matches', ownerRe,
    mem_separated hyphen_not_mem_alnum]
  constructor
  · intro h
    have hascii : ∀ r ∈ runes s, r.toNat < 0x80 := by
      intro r hr
      rcases h.chars r hr with hr | rfl
      · exact lt_of_mem_alnum hr
      · decide
    rw [runes_eq_map hascii] at h
    exact hmap.mp h
  · intro h
    have hascii : ∀ b ∈ s, b.toNat < 0x80 := by
      intro b hb
      rcases h.chars b hb with hb | rfl
      · exact hb.lt
      · decide
    rw [runes_ascii hascii]
    exact hmap.mpr h

/-- The class of a name, over bytes. -/
theorem char_mem_nameClass {b : UInt8} :
    char b ∈ alnum ++ ['.', '_', '-'] ↔ IsAlnum b ∨ b = 0x2e ∨ b = 0x5f ∨ b = hyphen := by
  have hchar : ∀ c : UInt8, char b = char c ↔ b = c := fun _ => char_injective.eq_iff
  rw [List.mem_append, char_mem_alnum]
  simp only [List.mem_cons, List.not_mem_nil, or_false]
  exact or_congr_right (or_congr (hchar 0x2e) (or_congr (hchar 0x5f) (hchar hyphen)))

theorem lt_of_mem_nameClass {c : Char} (h : c ∈ alnum ++ ['.', '_', '-']) : c.toNat < 0x80 := by
  rcases List.mem_append.mp h with h | h
  · exact lt_of_mem_alnum h
  · have hall : ['.', '_', '-'].all (fun d => decide (d.toNat < 0x80)) = true := by decide
    exact of_decide_eq_true (List.all_eq_true.mp hall c h)

theorem IsName.lt (h : IsName s) : ∀ b ∈ s, b.toNat < 0x80 := by
  intro b hb
  rcases h.chars b hb with hb | rfl | rfl | rfl
  · exact hb.lt
  · decide
  · decide
  · decide

/-- What `nameRe` accepts. -/
theorem matchString_nameRe : matchString nameRe s = true ↔ IsName s := by
  rw [matchString, RegularExpression.rmatch_iff_matches', nameRe, mem_upTo_oneOf]
  constructor
  · rintro ⟨hlen, hall⟩
    have heq := runes_eq_map (fun r hr => lt_of_mem_nameClass (hall r hr))
    rw [heq, List.length_map] at hlen
    rw [heq, List.forall_mem_map] at hall
    exact ⟨hlen, fun b hb => char_mem_nameClass.mp (hall b hb)⟩
  · intro h
    rw [runes_ascii h.lt, List.length_map]
    refine ⟨h.length, List.forall_mem_map.mpr (fun b hb => ?_)⟩
    exact char_mem_nameClass.mpr (h.chars b hb)

/-- The length is checked outside the expression. -/
theorem validOwner_iff : validOwner s = true ↔ IsOwner s := by
  rw [validOwner, Bool.and_eq_true, decide_eq_true_eq, matchString_ownerRe]
  constructor
  · rintro ⟨hlen, ⟨hchars, hlast, halone⟩, hne, hfirst⟩
    exact ⟨⟨List.length_pos_iff.mpr hne, hlen⟩, hchars, hfirst, hlast, halone⟩
  · rintro ⟨hlen, hchars, hfirst, hlast, halone⟩
    exact ⟨hlen.2, ⟨hchars, hlast, halone⟩, List.length_pos_iff.mp hlen.1, hfirst⟩

/-- No slash in an owner, so the first one in a reference separates. -/
theorem IsOwner.slash_not_mem (h : IsOwner s) : slash ∉ s := by
  intro hmem
  exact absurd (h.chars slash hmem) (by decide)

/-! ## The parser -/

/-- What `ParseRef` accepts, and what it returns. -/
theorem parseRef_eq_ok {raw : Bytes} {r : Ref} :
    parseRef raw = .ok r ↔ raw = r.string ∧ IsOwner r.owner ∧ IsName r.name := by
  constructor
  · intro h
    rw [parseRef] at h
    cases hcut : Strings.cut raw slash with
    | none =>
      rw [hcut] at h
      cases h
    | some halves =>
      obtain ⟨owner, name⟩ := halves
      simp only [hcut, Bool.or_eq_true, Bool.not_eq_true'] at h
      split at h
      · cases h
      · next hvalid =>
        cases h
        simp only [not_or, Bool.not_eq_false] at hvalid
        exact ⟨(Strings.cut_eq_some.mp hcut).1, validOwner_iff.mp hvalid.1,
          matchString_nameRe.mp hvalid.2⟩
  · rintro ⟨rfl, howner, hname⟩
    have hcut : Strings.cut r.string slash = some (r.owner, r.name) :=
      Strings.cut_append howner.slash_not_mem r.name
    rw [parseRef, hcut]
    simp only [validOwner_iff.mpr howner, matchString_nameRe.mpr hname, Bool.not_true,
      Bool.or_self, Bool.false_eq_true, if_false]

/-- `ParseRef` accepts its grammar and nothing else; what it returns prints as what was
read and reads back as itself, so no two strings are read as one reference. -/
theorem parseRef_exact (raw : Bytes) :
    ((∃ r, parseRef raw = .ok r) ↔
        ∃ owner name, raw = owner ++ slash :: name ∧ IsOwner owner ∧ IsName name) ∧
      (∀ r, parseRef raw = .ok r → r.string = raw ∧ parseRef r.string = .ok r) ∧
      ∀ raw' r, parseRef raw = .ok r → parseRef raw' = .ok r → raw = raw' := by
  refine ⟨⟨?_, ?_⟩, fun r h => ?_, fun raw' r h h' => ?_⟩
  · rintro ⟨r, h⟩
    exact ⟨r.owner, r.name, parseRef_eq_ok.mp h⟩
  · rintro ⟨owner, name, h⟩
    exact ⟨⟨owner, name⟩, parseRef_eq_ok.mpr h⟩
  · have hraw := (parseRef_eq_ok.mp h).1
    exact ⟨hraw.symm, hraw ▸ h⟩
  · rw [(parseRef_eq_ok.mp h).1, (parseRef_eq_ok.mp h').1]

/-- In ASCII every byte is a rune. -/
theorem IsOwner.runes_eq (h : IsOwner s) : runes s = s.map char := by
  refine runes_ascii (fun b hb => ?_)
  rcases h.chars b hb with hb | rfl
  · exact hb.lt
  · decide

end ReleaseNotifier.Repository

namespace ReleaseNotifier

open Text

/-! ## Strings of characters -/

/-- `repository.Ref`, where the rest of the model holds it: in characters. -/
structure Ref where
  owner : String
  name : String
  deriving DecidableEq, Repr

/-- `Ref.String`. -/
def Ref.string (r : Ref) : String := r.owner ++ "/" ++ r.name

/-- `ParseRef` for a string that is valid UTF-8. What it accepts is ASCII, so the two halves
are strings of characters again. -/
def parseRef (raw : String) : Except Err Ref :=
  (Repository.parseRef (utf8 raw)).map fun r =>
    ⟨String.ofList (runes r.owner), String.ofList (runes r.name)⟩

/-- What `ParseRef` takes for the owner has no slash, so a full name, and a cache key made
of one, has a single reading. -/
theorem parseRef_owner {raw : String} {ref : Ref} (h : parseRef raw = .ok ref) :
    '/' ∉ ref.owner.toList := by
  cases hparse : Repository.parseRef (utf8 raw) with
  | error err =>
    rw [parseRef, hparse] at h
    cases h
  | ok r =>
    rw [parseRef, hparse] at h
    cases h
    obtain ⟨-, howner, -⟩ := Repository.parseRef_eq_ok.mp hparse
    rw [String.toList_ofList, howner.runes_eq, List.mem_map]
    rintro ⟨b, hb, hchar⟩
    obtain rfl : b = Repository.slash := Repository.char_injective hchar
    exact howner.slash_not_mem hb

end ReleaseNotifier
