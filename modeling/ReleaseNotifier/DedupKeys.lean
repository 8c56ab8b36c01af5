/-
The keys of the dedup ledger: `SendConfirmation`, `SendReleaseNotification` and
`hashDedupKey` of `services/notification/service.go`.

A logical key is put together from its fields with colons and nothing escaped. It
can be read back because a repository that `ParseRef` accepts has no colon, and a
tag has none either: the first colon ends the repository, the second the tag, and
everything after that is the address, colons and all. The two kinds of key differ
in their first letter.

SHA-256 is a parameter, assumed to be injective on these keys and on nothing else;
that writing a sum in hexadecimal loses nothing is proved.
-/
import ReleaseNotifier.MailText
import ReleaseNotifier.RefGrammar
import ReleaseNotifier.Tracectx
import Mathlib.Data.Set.Function

set_option autoImplicit false

namespace ReleaseNotifier.MailText

open Text Repository

/-! ## `service.go` -/

/-- The byte of `:`. -/
def colon : UInt8 := 0x3a

/-- The logical key of a confirmation. -/
def confirmKey (confirmURL : Bytes) : Bytes := utf8 "confirm:" ++ confirmURL

/-- The logical key of a release notification. -/
def releaseKey (repo tag email : Bytes) : Bytes :=
  utf8 "release:" ++ repo ++ utf8 ":" ++ tag ++ utf8 ":" ++ email

/-- What identifies a mail, before it is hashed. -/
def Mail.logicalKey : Mail → Bytes
  | .confirmation _ confirmURL _ => confirmKey confirmURL
  | .release email repo rel =>
    let tag := match rel with
      | some rel => rel.tagName
      | none => []
    releaseKey repo tag email

/-- `hashDedupKey`. The length of a sum is left open: no function to 32 bytes is
injective on all keys. -/
def hashDedupKey (sum256 : Bytes → Bytes) (logical : Bytes) : Bytes :=
  Tracectx.hexEncode (sum256 logical)

/-- The keys of `Notifier` are the same strings. -/
theorem logicalKey_ofMail (m : Notifier.Mail) : (ofMail m).logicalKey = utf8 m.logicalKey := by
  cases m with
  | confirmation c =>
    show utf8 "confirm:" ++ utf8 c.confirmURL = utf8 ("confirm:" ++ c.confirmURL)
    rw [utf8_append]
  | release email repo rel =>
    cases rel with
    | none =>
      show releaseKey (utf8 repo) [] (utf8 email) =
        utf8 ("release:" ++ repo ++ ":" ++ "" ++ ":" ++ email)
      simp only [utf8_append, releaseKey]
      rfl
    | some rel =>
      show releaseKey (utf8 repo) (utf8 rel.tagName) (utf8 email) =
        utf8 ("release:" ++ repo ++ ":" ++ rel.tagName ++ ":" ++ email)
      simp only [utf8_append, releaseKey]

/-! ## Hexadecimal -/

theorem hexDigit_injective {m n : Nat} (hm : m < 16) (hn : n < 16)
    (h : Tracectx.hexDigit m = Tracectx.hexDigit n) : m = n := by
  have hall : ∀ m < 16, ∀ n < 16, Tracectx.hexDigit m = Tracectx.hexDigit n → m = n := by decide
  exact hall m hm n hn h

/-- Two digits make one byte. -/
theorem hexEncode_injective : Function.Injective Tracectx.hexEncode := by
  intro a b h
  induction a generalizing b with
  | nil =>
    have hlength := congrArg List.length h
    rw [Tracectx.length_hexEncode, Tracectx.length_hexEncode] at hlength
    exact (List.length_eq_zero_iff.mp (by simpa using hlength.symm)).symm
  | cons x a ih =>
    cases b with
    | nil => cases h
    | cons y b =>
      obtain ⟨hhigh, hrest⟩ := List.cons.inj h
      obtain ⟨hlow, hrest⟩ := List.cons.inj hrest
      have hx := x.toNat_lt
      have hy := y.toNat_lt
      have hdiv := hexDigit_injective (by omega) (by omega) hhigh
      have hmod := hexDigit_injective (by omega) (by omega) hlow
      have hxy : x = y := UInt8.toNat_inj.mp (by omega)
      rw [hxy, ih hrest]

/-! ## Reading a key back -/

/-- What a release notification is identified by: a repository that `ParseRef` accepts,
a tag without a colon, and any address. -/
structure Triple where
  repo : Bytes
  tag : Bytes
  email : Bytes
  accepted : ∃ r, Repository.parseRef repo = .ok r
  noColon : colon ∉ tag

/-- The logical key of a triple. -/
def Triple.key (t : Triple) : Bytes := releaseKey t.repo t.tag t.email

/-- A repository's name has no colon, so the first one in a key separates. -/
theorem colon_not_mem_repo {repo : Bytes} (h : ∃ r, Repository.parseRef repo = .ok r) :
    colon ∉ repo := by
  obtain ⟨r, h⟩ := h
  obtain ⟨rfl, howner, hname⟩ := parseRef_eq_ok.mp h
  intro hmem
  rcases List.mem_append.mp hmem with hmem | hmem
  · exact absurd (howner.chars colon hmem) (by decide)
  · rcases List.mem_cons.mp hmem with heq | hmem
    · exact absurd heq (by decide)
    · exact absurd (hname.chars colon hmem) (by decide)

theorem releaseKey_eq (repo tag email : Bytes) :
    releaseKey repo tag email = utf8 "release:" ++ (repo ++ colon :: (tag ++ colon :: email)) := by
  have hcolon : utf8 ":" = [colon] := by decide
  simp [releaseKey, hcolon]

/-- A field without a colon is what stands before the first one. -/
theorem field_unique {a b rest rest' : Bytes} (ha : colon ∉ a) (hb : colon ∉ b)
    (h : a ++ colon :: rest = b ++ colon :: rest') : a = b ∧ rest = rest' := by
  have hcut := Strings.cut_append ha rest
  rw [h, Strings.cut_append hb] at hcut
  cases hcut
  exact ⟨rfl, rfl⟩

/-- The key tells the three parts apart. -/
theorem Triple.key_injective : Function.Injective Triple.key := by
  rintro ⟨repo, tag, email, haccepted, htag⟩ ⟨repo', tag', email', haccepted', htag'⟩ h
  simp only [Triple.key, releaseKey_eq, List.append_cancel_left_eq] at h
  obtain ⟨rfl, hrest⟩ :=
    field_unique (colon_not_mem_repo haccepted) (colon_not_mem_repo haccepted') h
  obtain ⟨rfl, rfl⟩ := field_unique htag htag' hrest
  rfl

/-- A tag with a colon would do. -/
example : releaseKey (utf8 "o/n") (utf8 "v1:x") (utf8 "y") =
    releaseKey (utf8 "o/n") (utf8 "v1") (utf8 "x:y") := by
  decide

/-- A confirmation's key is made of its URL. -/
theorem confirmKey_injective : Function.Injective confirmKey :=
  fun _ _ h => List.append_cancel_left h

/-- The first letters differ. -/
theorem Triple.key_ne_confirmKey (t : Triple) (url : Bytes) : t.key ≠ confirmKey url := by
  intro h
  have hrelease : utf8 "release:" = 0x72 :: utf8 "elease:" := by decide
  have hconfirm : utf8 "confirm:" = 0x63 :: utf8 "onfirm:" := by decide
  rw [Triple.key, releaseKey_eq, confirmKey, hrelease, hconfirm] at h
  exact absurd (List.cons.inj h).1 (by decide)

/-! ## Dedup keys -/

/-- A logical key. -/
def IsKey (key : Bytes) : Prop := (∃ t : Triple, key = t.key) ∨ ∃ url, key = confirmKey url

/-- Under a way to write logical keys no two of them are written alike. -/
structure Distinct (write : Bytes → Bytes) : Prop where
  release : ∀ t t' : Triple, write t.key = write t'.key → t = t'
  confirmation : ∀ url url' : Bytes, write (confirmKey url) = write (confirmKey url') → url = url'
  apart : ∀ (t : Triple) (url : Bytes), write t.key ≠ write (confirmKey url)

/-- Without collisions among the keys no two mails share a record. -/
theorem distinct_of_injOn {write : Bytes → Bytes} (h : Set.InjOn write {key | IsKey key}) :
    Distinct write := by
  have hrelease : ∀ t : Triple, IsKey t.key := fun t => .inl ⟨t, rfl⟩
  have hconfirm : ∀ url, IsKey (confirmKey url) := fun url => .inr ⟨url, rfl⟩
  refine ⟨fun t t' heq => ?_, fun url url' heq => ?_, fun t url heq => ?_⟩
  · exact Triple.key_injective (h (hrelease t) (hrelease t') heq)
  · exact confirmKey_injective (h (hconfirm url) (hconfirm url') heq)
  · exact t.key_ne_confirmKey url (h (hrelease t) (hconfirm url) heq)

/-- Neither the logical keys nor the dedup keys of different mails are ever the same. -/
theorem dedupKeys_distinct (sum256 : Bytes → Bytes) (hsum : Set.InjOn sum256 {key | IsKey key}) :
    Distinct id ∧ Distinct (hashDedupKey sum256) :=
  ⟨distinct_of_injOn (Set.injOn_id _),
    distinct_of_injOn (fun _ hk _ hk' h => hsum hk hk' (hexEncode_injective h))⟩

/-- Injective hashes exist. -/
theorem dedupKeys_distinct_id : Distinct (hashDedupKey id) :=
  (dedupKeys_distinct id (Set.injOn_id _)).2

end ReleaseNotifier.MailText
