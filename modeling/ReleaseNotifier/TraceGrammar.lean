/-
The language of `ParseTraceparent`.

The code lowers two of the four fields before it takes their length and the other
two after, and it counts bytes while it checks runes. `Hex` is what a field has to
be for all of that to come to the same: hexadecimal digits of either case, as
bytes. The one fact behind it is about the whole of Unicode. No rune but the 22
digits themselves is lowered to a digit (`isHexRune_toLower`); there are runes
outside ASCII whose lower case is ASCII, but theirs is no digit.
-/
import ReleaseNotifier.Tracectx

set_option autoImplicit false

namespace ReleaseNotifier.Tracectx

open Text

/-! ## Hexadecimal digits -/

/-- A hexadecimal digit of either case. -/
def IsHexByte (b : UInt8) : Prop :=
  (0x30 ≤ b.toNat ∧ b.toNat ≤ 0x39) ∨ (0x61 ≤ b.toNat ∧ b.toNat ≤ 0x66) ∨
    (0x41 ≤ b.toNat ∧ b.toNat ≤ 0x46)

instance (b : UInt8) : Decidable (IsHexByte b) :=
  inferInstanceAs (Decidable (_ ∨ _ ∨ _))

/-- The lower case of an ASCII letter, and any other byte as it is. -/
def lowerByte (b : UInt8) : UInt8 := if 0x41 ≤ b.toNat ∧ b.toNat ≤ 0x5a then b + 0x20 else b

/-- `n` hexadecimal digits. -/
structure Hex (n : Nat) (s : Bytes) : Prop where
  length : s.length = n
  digits : ∀ b ∈ s, IsHexByte b

/-- Not all of the digits are zero. -/
def NonZero (s : Bytes) : Prop := ∃ b ∈ s, b ≠ 0x30

/-- The code points whose lower case is a digit. -/
theorem casePairs_hex :
    (Unicode.casePairs Unicode.caseTable).all (fun x =>
      !((0x30 ≤ x.2 && x.2 ≤ 0x39) || (0x61 ≤ x.2 && x.2 ≤ 0x66)) ||
        (0x41 ≤ x.1 && x.1 ≤ 0x46)) = true := by
  decide +kernel

/-- Only a digit is lowered to a digit. -/
theorem isHexRune_toLower {r : Char} (h : isHexRune (Unicode.toLower r) = true) :
    (0x30 ≤ r.toNat ∧ r.toNat ≤ 0x39) ∨ (0x61 ≤ r.toNat ∧ r.toNat ≤ 0x66) ∨
      (0x41 ≤ r.toNat ∧ r.toNat ≤ 0x46) := by
  have hbounds := isHexRune_bounds h
  rw [Unicode.toNat_toLower] at hbounds
  rcases Unicode.lowerCode_pair Unicode.caseTable r.toNat with hsame | hmem
  · rw [hsame] at hbounds
    rcases hbounds with hd | hl
    · exact .inl hd
    · exact .inr (.inl hl)
  · have hpair := List.all_eq_true.mp casePairs_hex _ hmem
    simp only [Bool.or_eq_true, Bool.not_eq_true', Bool.or_eq_false_iff, Bool.and_eq_false_iff,
      Bool.and_eq_true, decide_eq_true_eq, decide_eq_false_iff_not] at hpair
    right
    right
    omega

/-- The digits of the code points up to 127. -/
theorem isHexRune_toLower_ofNat :
    ∀ n < 0x80, (0x30 ≤ n ∧ n ≤ 0x39) ∨ (0x61 ≤ n ∧ n ≤ 0x66) ∨ (0x41 ≤ n ∧ n ≤ 0x46) →
      isHexRune (Unicode.toLower (Char.ofNat n)) = true ∧
        String.utf8EncodeChar (Unicode.toLower (Char.ofNat n)) = [lowerByte (UInt8.ofNat n)] := by
  decide

section Fields

variable {s : Bytes}

theorem IsHexByte.lt {b : UInt8} (h : IsHexByte b) : b.toNat < 0x80 := by
  unfold IsHexByte at h
  omega

/-- A field is lowered byte by byte. -/
theorem toLower_of_digits (h : ∀ b ∈ s, IsHexByte b) : Strings.toLower s = s.map lowerByte := by
  rw [Strings.toLower, runes_ascii (fun b hb => (h b hb).lt), encode, List.map_map,
    List.flatMap_map, List.map_eq_flatMap]
  refine List.flatMap_congr (fun b hb => ?_)
  have hone := (isHexRune_toLower_ofNat b.toNat (h b hb).lt (h b hb)).2
  rw [UInt8.ofNat_toNat] at hone
  exact hone

/-- The check after lowering is a check of the bytes. -/
theorem isHexLower_toLower : isHexLower (Strings.toLower s) = true ↔ ∀ b ∈ s, IsHexByte b := by
  rw [isHexLower, Strings.runes_toLower, List.all_map, List.all_eq_true]
  constructor
  · intro h b hb
    have hdigit : ∀ r ∈ runes s, (0x30 ≤ r.toNat ∧ r.toNat ≤ 0x39) ∨
        (0x61 ≤ r.toNat ∧ r.toNat ≤ 0x66) ∨ (0x41 ≤ r.toNat ∧ r.toNat ≤ 0x46) :=
      fun r hr => isHexRune_toLower (h r hr)
    have hascii : ∀ r ∈ runes s, r.toNat < 0x80 := by
      intro r hr
      have := hdigit r hr
      omega
    rw [(eq_encode_of_ascii hascii).1, encode, List.mem_flatMap] at hb
    obtain ⟨r, hr, hb⟩ := hb
    have hlt := hascii r hr
    rw [utf8EncodeChar_ascii hlt, List.mem_singleton] at hb
    rw [hb, IsHexByte, UInt8.toNat_ofNat', Nat.mod_eq_of_lt (by omega)]
    exact hdigit r hr
  · intro h r hr
    rw [runes_ascii (fun b hb => (h b hb).lt)] at hr
    obtain ⟨b, hb, rfl⟩ := List.mem_map.mp hr
    exact (isHexRune_toLower_ofNat b.toNat (h b hb).lt (h b hb)).1

theorem Hex.dash_not_mem {n : Nat} (h : Hex n s) : dash ∉ s := by
  intro hmem
  exact absurd (h.digits dash hmem) (by decide)

theorem lowerByte_eq_zero {b : UInt8} (h : IsHexByte b) : lowerByte b = 0x30 ↔ b = 0x30 := by
  have hall : ∀ n < 0x80, lowerByte (UInt8.ofNat n) = 0x30 ↔ UInt8.ofNat n = 0x30 := by
    decide
  have hb := hall b.toNat h.lt
  rwa [UInt8.ofNat_toNat] at hb

/-- Lowering neither makes nor removes a zero. -/
theorem Hex.map_eq_replicate {n : Nat} (h : Hex n s) :
    s.map lowerByte = List.replicate n 0x30 ↔ ¬ NonZero s := by
  rw [List.eq_replicate_iff, List.length_map, and_iff_right h.length, NonZero]
  simp only [List.mem_map, forall_exists_index, and_imp, forall_apply_eq_imp_iff₂, not_exists,
    not_and, not_not]
  exact forall₂_congr (fun b hb => lowerByte_eq_zero (h.digits b hb))

/-- A field whose length is taken before it is lowered. -/
theorem checked_before (n : Nat) :
    (s.length = n ∧ isHexLower (Strings.toLower s) = true) ↔ Hex n s := by
  rw [isHexLower_toLower]
  exact ⟨fun h => ⟨h.1, h.2⟩, fun h => ⟨h.1, h.2⟩⟩

/-- A field whose length is taken after it is lowered. -/
theorem checked_after (n : Nat) :
    ((Strings.toLower s).length = n ∧ isHexLower (Strings.toLower s) = true) ↔ Hex n s := by
  rw [← checked_before, isHexLower_toLower]
  refine and_congr_left (fun h => ?_)
  rw [toLower_of_digits h, List.length_map]

end Fields

/-! ## The header -/

theorem joined_of_split {s a b c d : Bytes} (h : Strings.split s dash = [a, b, c, d]) :
    s = joined a b c d := by
  have hs : [dash].intercalate (s.splitOn dash) = s := List.intercalate_splitOn dash
  rw [← Strings.split, h] at hs
  rw [← hs]
  simp [joined, List.intercalate]

/-- A header as the specification has it: version, trace id, parent id and flags. -/
structure Header (s v t p f : Bytes) : Prop where
  fields : s = joined v t p f
  version : Hex 2 v
  traceID : Hex 32 t
  traceID_ne : NonZero t
  parentID : Hex 16 p
  parentID_ne : NonZero p
  flags : Hex 2 f

section Header

variable {h id v t p f : Bytes}

/-- The two checks of `parts[0]` and of `parts[3]`. -/
theorem short_checks : ¬ (v.length ≠ 2 ∨ (!isHexLower (Strings.toLower v)) = true) ↔ Hex 2 v := by
  rw [← checked_before, not_or, not_not, Bool.not_eq_true', Bool.not_eq_false]

/-- The three checks of the parent id. -/
theorem span_checks :
    ¬ ((Strings.toLower p).length ≠ spanIDHexLen ∨ (!isHexLower (Strings.toLower p)) = true ∨
        Strings.toLower p = zeroSpanID) ↔ Hex 16 p ∧ NonZero p := by
  rw [not_or, not_or, not_not, Bool.not_eq_true', Bool.not_eq_false, ← and_assoc,
    checked_after spanIDHexLen]
  refine and_congr_right (fun hp => ?_)
  rw [toLower_of_digits hp.digits, zeroSpanID, Hex.map_eq_replicate hp, not_not]

/-- `IsValidID` of the lowered trace id. -/
theorem isValidID_toLower : isValidID (Strings.toLower t) = true ↔ Hex 32 t ∧ NonZero t := by
  have hchecks : isValidID (Strings.toLower t) = true ↔
      ((Strings.toLower t).length = traceIDHexLen ∧ isHexLower (Strings.toLower t) = true) ∧
        Strings.toLower t ≠ zeroTraceID := by
    simp only [isValidID, Bool.and_eq_true, beq_iff_eq, bne_iff_ne]
    tauto
  rw [hchecks, checked_after traceIDHexLen]
  refine and_congr_right (fun ht => ?_)
  rw [toLower_of_digits ht.digits, zeroTraceID, Ne, Hex.map_eq_replicate ht, not_not]

/-- What is accepted is a header. -/
theorem header_of_parseTraceparent (hparse : parseTraceparent h = some id) :
    ∃ v t p f, Header (Strings.trimSpace h) v t p f ∧ id = t.map lowerByte := by
  simp only [parseTraceparent] at hparse
  split at hparse
  · cases hparse
  · split at hparse
    · next version trace parent flags hsplit =>
      split at hparse
      · cases hparse
      · next hversion =>
        split at hparse
        · cases hparse
        · next hspan =>
          split at hparse
          · cases hparse
          · next hflags =>
            split at hparse
            · cases hparse
            · next hvalid =>
              cases hparse
              rw [Bool.not_eq_true', Bool.not_eq_false] at hvalid
              obtain ⟨htrace, htrace_ne⟩ := isValidID_toLower.mp hvalid
              obtain ⟨hparent, hparent_ne⟩ := span_checks.mp hspan
              exact ⟨version, trace, parent, flags,
                ⟨joined_of_split hsplit, short_checks.mp hversion, htrace, htrace_ne, hparent,
                  hparent_ne, short_checks.mp hflags⟩, toLower_of_digits htrace.digits⟩
    · cases hparse

/-- A header is accepted. -/
theorem Header.parse (hh : Header (Strings.trimSpace h) v t p f) :
    parseTraceparent h = some (t.map lowerByte) := by
  have hne : Strings.trimSpace h ≠ [] := by
    rw [hh.fields]
    simp [joined]
  have hsplit : Strings.split (Strings.trimSpace h) dash = [v, t, p, f] := by
    rw [hh.fields]
    exact split_of_joined hh.version.dash_not_mem hh.traceID.dash_not_mem
      hh.parentID.dash_not_mem hh.flags.dash_not_mem
  have hvalid := isValidID_toLower.mpr ⟨hh.traceID, hh.traceID_ne⟩
  simp only [parseTraceparent, if_neg hne, hsplit, if_neg (short_checks.mpr hh.version),
    if_neg (span_checks.mpr ⟨hh.parentID, hh.parentID_ne⟩), if_neg (short_checks.mpr hh.flags)]
  rw [hvalid, toLower_of_digits hh.traceID.digits]
  rfl

end Header

/-- `ParseTraceparent` accepts exactly the headers, surrounded by white space or
not, and returns their trace id in lower case, which is a valid one; and it reads
back what `Traceparent` writes. -/
theorem parseTraceparent_exact :
    (∀ h id : Bytes, parseTraceparent h = some id ↔
      ∃ v t p f, Header (Strings.trimSpace h) v t p f ∧ id = t.map lowerByte) ∧
    (∀ h id : Bytes, parseTraceparent h = some id → isValidID id = true) ∧
    ∀ (id : Bytes) (d : SpanDraws), isValidID id = true →
      ∃ tp, traceparent id d = some tp ∧ parseTraceparent tp = some id := by
  refine ⟨fun h id => ⟨header_of_parseTraceparent, ?_⟩,
    fun h id => isValidID_of_parseTraceparent, fun id d hid => parseTraceparent_traceparent hid d⟩
  rintro ⟨v, t, p, f, hh, rfl⟩
  exact hh.parse

/-- A header in upper case with white space around it. -/
theorem parseTraceparent_exact_upper :
    parseTraceparent (utf8 " 00-4BF92F3577B34DA6A3CE929D0E0E4736-00F067AA0BA902B7-01\n")
        = some (utf8 "4bf92f3577b34da6a3ce929d0e0e4736") ∧
      isValidID (utf8 "4bf92f3577b34da6a3ce929d0e0e4736") = true := by
  have hparse : parseTraceparent
      (utf8 " 00-4BF92F3577B34DA6A3CE929D0E0E4736-00F067AA0BA902B7-01\n")
        = some (utf8 "4bf92f3577b34da6a3ce929d0e0e4736") := by
    decide
  exact ⟨hparse, parseTraceparent_exact.2.1 _ _ hparse⟩

end ReleaseNotifier.Tracectx
