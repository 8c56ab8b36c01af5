/-
Go strings: byte strings, read as UTF-8 where the code asks for runes.

A byte that begins no valid encoding is a rune of its own, `utf8.RuneError`, and
takes one byte; this is what `range` over a string, `[]rune` and the functions
of package `strings` agree on. So a string falls into pieces in one way only, a
rune with the bytes it was read from, and everything here is said in terms of
the pieces. The decoder of a single encoding is Lean's own.

`pieces_induction` is the rule all the proofs go by: a string is empty, or a
valid encoding and a string, or a stray byte and a string.
-/
import ReleaseNotifier.Text.Unicode
import Mathlib.Data.List.DropRight
import Mathlib.Data.List.Infix

set_option autoImplicit false

namespace Text

/-! ## Pieces -/

/-- `utf8.RuneError`. -/
def runeError : Char := Char.ofNat 0xfffd

/-- A rune, and the bytes it was read from. -/
structure Piece where
  rune : Char
  bytes : List UInt8
  deriving DecidableEq

/-- `utf8.DecodeRune`, for a string that is not empty. -/
def decodeRune (s : List UInt8) : Piece :=
  match s.toByteArray.utf8DecodeChar? 0 with
  | some r => ⟨r, s.take r.utf8Size⟩
  | none => ⟨runeError, s.take 1⟩

/-- The pieces of a string after its first `skip` bytes. -/
def piecesFrom : Nat → List UInt8 → List Piece
  | _, [] => []
  | skip + 1, _ :: s => piecesFrom skip s
  | 0, b :: s => decodeRune (b :: s) :: piecesFrom ((decodeRune (b :: s)).bytes.length - 1) s

/-- The pieces of a string. -/
def pieces (s : List UInt8) : List Piece := piecesFrom 0 s

/-- `[]rune(s)`. -/
def runes (s : List UInt8) : List Char := (pieces s).map Piece.rune

/-- `string(rs)`, or the bytes `WriteRune` puts into a builder. -/
def encode (rs : List Char) : List UInt8 := rs.flatMap String.utf8EncodeChar

/-- The counter of the decoder only skips bytes. -/
theorem piecesFrom_eq (skip : Nat) (s : List UInt8) : piecesFrom skip s = pieces (s.drop skip) := by
  induction skip generalizing s with
  | zero => rfl
  | succ n ih =>
    cases s with
    | nil => rfl
    | cons b s => exact ih s

/-- A text is decoded rune by rune. -/
theorem pieces_cons (b : UInt8) (s : List UInt8) :
    pieces (b :: s)
      = decodeRune (b :: s) :: pieces (s.drop ((decodeRune (b :: s)).bytes.length - 1)) := by
  rw [pieces, piecesFrom, piecesFrom_eq]

@[simp] theorem pieces_nil : pieces [] = [] := rfl

theorem utf8EncodeChar_ne_nil (r : Char) : String.utf8EncodeChar r ≠ [] := by
  intro h
  have hlen := String.length_utf8EncodeChar r
  rw [h] at hlen
  exact absurd hlen (Nat.ne_of_lt r.utf8Size_pos)

/-- A valid encoding is decoded whatever follows it. -/
theorem decodeRune_encoded (r : Char) (s : List UInt8) :
    decodeRune (String.utf8EncodeChar r ++ s) = ⟨r, String.utf8EncodeChar r⟩ := by
  have hdec : (String.utf8EncodeChar r ++ s).toByteArray.utf8DecodeChar? 0 = some r := by
    rw [List.toByteArray_append]
    exact ByteArray.utf8DecodeChar?_utf8EncodeChar_append
  have htake : (String.utf8EncodeChar r ++ s).take r.utf8Size = String.utf8EncodeChar r := by
    rw [← String.length_utf8EncodeChar r, List.take_left]
  rw [decodeRune, hdec]
  simp only [htake]

/-- A byte that begins no valid encoding. -/
def Stray (b : UInt8) (s : List UInt8) : Prop :=
  (b :: s).toByteArray.utf8DecodeChar? 0 = none

/-- An encoded rune is one piece. -/
theorem pieces_encoded (r : Char) (s : List UInt8) :
    pieces (String.utf8EncodeChar r ++ s) = ⟨r, String.utf8EncodeChar r⟩ :: pieces s := by
  obtain ⟨b, t, hbt⟩ := List.exists_cons_of_ne_nil (utf8EncodeChar_ne_nil r)
  have hdec := decodeRune_encoded r s
  rw [hbt, List.cons_append] at hdec ⊢
  rw [pieces_cons, hdec]
  simp

/-- A stray byte is a piece of its own, read as `RuneError`. -/
theorem pieces_stray {b : UInt8} {s : List UInt8} (h : Stray b s) :
    pieces (b :: s) = ⟨runeError, [b]⟩ :: pieces s := by
  have hdec : decodeRune (b :: s) = ⟨runeError, [b]⟩ := by
    rw [decodeRune, h]
    rfl
  rw [pieces_cons, hdec]
  rfl

/-- A string is empty, or begins with a valid encoding, or with a stray byte. -/
theorem pieces_induction {P : List UInt8 → Prop} (nil : P [])
    (encoded : ∀ r s, P s → P (String.utf8EncodeChar r ++ s))
    (stray : ∀ b s, Stray b s → P s → P (b :: s)) (s : List UInt8) : P s := by
  induction hn : s.length using Nat.strong_induction_on generalizing s with
  | _ n ih =>
    cases s with
    | nil => exact nil
    | cons b t =>
      cases hdec : (b :: t).toByteArray.utf8DecodeChar? 0 with
      | none => exact stray b t hdec (ih t.length (by rw [← hn]; simp) t rfl)
      | some r =>
        obtain ⟨l, hl⟩ := ByteArray.exists_of_utf8DecodeChar?_eq_some hdec
        have hsplit : b :: t = String.utf8EncodeChar r ++ l.data.toList := by
          rw [← List.toByteArray_inj, List.toByteArray_append, hl]
          congr 1
          apply ByteArray.ext
          rw [List.data_toByteArray, Array.toArray_toList]
        -- an encoding is not empty, so what follows it is shorter
        have hpos : 0 < (String.utf8EncodeChar r).length :=
          List.length_pos_iff.mpr (utf8EncodeChar_ne_nil r)
        rw [hsplit]
        refine encoded r _ (ih _ ?_ _ rfl)
        rw [← hn, hsplit, List.length_append]
        omega

/-- The pieces make up the string. -/
theorem flatMap_pieces (s : List UInt8) : (pieces s).flatMap Piece.bytes = s := by
  induction s using pieces_induction with
  | nil => rfl
  | encoded r s ih => rw [pieces_encoded, List.flatMap_cons, ih]
  | stray b s h ih => rw [pieces_stray h, List.flatMap_cons, ih, List.singleton_append]

/-- A stray byte stays one when bytes are cut off behind it. -/
theorem Stray.of_append {b : UInt8} {s t : List UInt8} (h : Stray b (s ++ t)) : Stray b s := by
  unfold Stray at h ⊢
  cases hdec : (b :: s).toByteArray.utf8DecodeChar? 0 with
  | none => rfl
  | some r =>
    have hmore := ByteArray.utf8DecodeChar?_append_eq_some hdec t.toByteArray
    rw [← List.toByteArray_append, List.cons_append, h] at hmore
    cases hmore

/-- Leading pieces are the pieces of the string they make up. -/
theorem pieces_take (n : Nat) (s : List UInt8) :
    pieces (((pieces s).take n).flatMap Piece.bytes) = (pieces s).take n := by
  induction s using pieces_induction generalizing n with
  | nil => simp
  | encoded r s ih =>
    cases n with
    | zero => rfl
    | succ n => rw [pieces_encoded, List.take_succ_cons, List.flatMap_cons, pieces_encoded, ih]
  | stray b s h ih =>
    cases n with
    | zero => rfl
    | succ n =>
      -- cutting off must not make a valid encoding of a stray byte and its successors
      have hcut : Stray b (((pieces s).take n).flatMap Piece.bytes) := by
        refine Stray.of_append (t := ((pieces s).drop n).flatMap Piece.bytes) ?_
        rw [← List.flatMap_append, List.take_append_drop, flatMap_pieces]
        exact h
      rw [pieces_stray h, List.take_succ_cons, List.flatMap_cons, List.singleton_append,
        pieces_stray hcut, ih]

/-- So are trailing ones. -/
theorem pieces_drop (n : Nat) (s : List UInt8) :
    pieces (((pieces s).drop n).flatMap Piece.bytes) = (pieces s).drop n := by
  induction s using pieces_induction generalizing n with
  | nil => simp
  | encoded r s ih =>
    cases n with
    | zero => rw [List.drop_zero, flatMap_pieces]
    | succ n => rw [pieces_encoded, List.drop_succ_cons, ih]
  | stray b s h ih =>
    cases n with
    | zero => rw [List.drop_zero, flatMap_pieces]
    | succ n => rw [pieces_stray h, List.drop_succ_cons, ih]

/-! ## Runes -/

@[simp] theorem runes_nil : runes [] = [] := rfl

theorem runes_encoded (r : Char) (s : List UInt8) :
    runes (String.utf8EncodeChar r ++ s) = r :: runes s := by
  rw [runes, pieces_encoded, List.map_cons, runes]

/-- Decoding undoes encoding. -/
theorem runes_encode_append (rs : List Char) (s : List UInt8) :
    runes (encode rs ++ s) = rs ++ runes s := by
  induction rs with
  | nil => rfl
  | cons r rs ih =>
    rw [encode, List.flatMap_cons, List.append_assoc, runes_encoded, List.cons_append]
    exact congrArg _ ih

/-- What was encoded is read back. -/
@[simp] theorem runes_encode (rs : List Char) : runes (encode rs) = rs := by
  have h := runes_encode_append rs []
  rwa [List.append_nil, runes_nil, List.append_nil] at h

@[simp] theorem encode_append (rs rs' : List Char) : encode (rs ++ rs') = encode rs ++ encode rs' :=
  List.flatMap_append

/-- An ASCII rune is one byte. -/
theorem utf8EncodeChar_ascii {r : Char} (h : r.toNat < 0x80) :
    String.utf8EncodeChar r = [UInt8.ofNat r.toNat] := by
  have hle : r.val.toNat ≤ 127 := Nat.le_of_lt_succ h
  simp only [String.utf8EncodeChar, if_pos hle]
  rfl

/-- No byte of any other rune is ASCII. -/
theorem le_of_mem_utf8EncodeChar {r : Char} (h : 0x80 ≤ r.toNat) :
    ∀ b ∈ String.utf8EncodeChar r, 0x80 ≤ b.toNat := by
  have hhigh : ∀ n : Nat, 128 ≤ n → n < 256 → 128 ≤ (UInt8.ofNat n).toNat := by
    intro n hlo hhi
    rwa [UInt8.toNat_ofNat', Nat.mod_eq_of_lt hhi]
  have hone : ¬ r.val.toNat ≤ 127 := Nat.not_le_of_lt h
  simp only [String.utf8EncodeChar, if_neg hone]
  by_cases htwo : r.val.toNat ≤ 2047
  · simp only [if_pos htwo, List.forall_mem_cons]
    exact ⟨hhigh _ (by omega) (by omega), hhigh _ (by omega) (by omega),
      List.forall_mem_nil _⟩
  · by_cases hthree : r.val.toNat ≤ 65535
    · simp only [if_neg htwo, if_pos hthree, List.forall_mem_cons]
      exact ⟨hhigh _ (by omega) (by omega), hhigh _ (by omega) (by omega),
        hhigh _ (by omega) (by omega), List.forall_mem_nil _⟩
    · simp only [if_neg htwo, if_neg hthree, List.forall_mem_cons]
      exact ⟨hhigh _ (by omega) (by omega), hhigh _ (by omega) (by omega),
        hhigh _ (by omega) (by omega), hhigh _ (by omega) (by omega), List.forall_mem_nil _⟩

/-- An ASCII byte of an encoding is the encoding of that character. -/
theorem mem_encode_ascii {rs : List Char} {b : UInt8} (h : b.toNat < 0x80) :
    b ∈ encode rs ↔ Char.ofNat b.toNat ∈ rs := by
  have hnat : (Char.ofNat b.toNat).toNat = b.toNat := by
    have hvalid : b.toNat.isValidChar := .inl (by omega)
    rw [Char.ofNat, dif_pos hvalid]
    rfl
  rw [encode, List.mem_flatMap]
  constructor
  · rintro ⟨r, hr, hb⟩
    by_cases hascii : r.toNat < 0x80
    · rw [utf8EncodeChar_ascii hascii, List.mem_singleton] at hb
      rwa [hb, UInt8.toNat_ofNat', Nat.mod_eq_of_lt (by omega), Char.ofNat_toNat]
    · have := le_of_mem_utf8EncodeChar (Nat.le_of_not_lt hascii) b hb
      omega
  · intro hmem
    refine ⟨_, hmem, ?_⟩
    rw [utf8EncodeChar_ascii (by omega), hnat, UInt8.ofNat_toNat]
    exact List.mem_singleton_self _

/-- The bytes of a string of characters. -/
theorem toUTF8_eq_encode (s : String) : s.toUTF8.data.toList = encode s.toList := by
  show s.toByteArray.data.toList = encode s.toList
  rw [← String.utf8Encode_toList, List.utf8Encode, List.toList_data_toByteArray]
  rfl

/-- A string of ASCII runes is their encoding, and it has a byte for each. -/
theorem eq_encode_of_ascii {s : List UInt8} (h : ∀ r ∈ runes s, r.toNat < 0x80) :
    s = encode (runes s) ∧ s.length = (runes s).length := by
  induction s using pieces_induction with
  | nil => exact ⟨rfl, rfl⟩
  | encoded r s ih =>
    rw [runes_encoded] at h ⊢
    obtain ⟨hs, hlen⟩ := ih (fun x hx => h x (List.mem_cons_of_mem _ hx))
    have hr := utf8EncodeChar_ascii (h r List.mem_cons_self)
    refine ⟨?_, by rw [hr]; simp [hlen]⟩
    rw [encode, List.flatMap_cons]
    exact congrArg _ hs
  | stray b s hb ih =>
    -- `utf8.RuneError` is no ASCII rune
    have herr : runeError ∈ runes (b :: s) := by
      rw [runes, pieces_stray hb]
      exact List.mem_cons_self
    exact absurd (h _ herr) (by decide)

/-- An ASCII byte is a piece by itself. -/
theorem pieces_ascii {b : UInt8} (h : b.toNat < 0x80) (s : List UInt8) :
    pieces (b :: s) = ⟨Char.ofNat b.toNat, [b]⟩ :: pieces s := by
  have hnat : (Char.ofNat b.toNat).toNat = b.toNat := by
    have hvalid : b.toNat.isValidChar := .inl (by omega)
    rw [Char.ofNat, dif_pos hvalid]
    rfl
  have henc : String.utf8EncodeChar (Char.ofNat b.toNat) = [b] := by
    rw [utf8EncodeChar_ascii (by rw [hnat]; exact h), hnat, UInt8.ofNat_toNat]
  have hpieces := pieces_encoded (Char.ofNat b.toNat) s
  rwa [henc, List.singleton_append] at hpieces

/-- In ASCII every byte is a rune. -/
theorem runes_ascii {s : List UInt8} (h : ∀ b ∈ s, b.toNat < 0x80) :
    runes s = s.map (fun b => Char.ofNat b.toNat) := by
  induction s with
  | nil => rfl
  | cons b s ih =>
    rw [runes, pieces_ascii (h b List.mem_cons_self), List.map_cons, List.map_cons]
    exact congrArg _ (ih (fun x hx => h x (List.mem_cons_of_mem _ hx)))

/-! ## The first occurrence -/

section Span

variable {α : Type} [DecidableEq α] {a : α} {l : List α}

theorem bne_of_notMem (h : a ∉ l) : ∀ b ∈ l, (b != a) = true := by
  intro b hb
  exact bne_iff_ne.mpr (fun heq => h (heq ▸ hb))

theorem span_append_cons (h : a ∉ l) (l' : List α) :
    (l ++ a :: l').span (fun b => b != a) = (l, a :: l') := by
  rw [List.span_eq_takeWhile_dropWhile, List.takeWhile_append_of_pos (bne_of_notMem h),
    List.dropWhile_append_of_pos (bne_of_notMem h)]
  simp

theorem span_of_notMem (h : a ∉ l) : l.span (fun b => b != a) = (l, []) := by
  rw [List.span_eq_takeWhile_dropWhile, List.takeWhile_eq_self_iff.mpr (bne_of_notMem h),
    List.dropWhile_eq_nil_iff.mpr (bne_of_notMem h)]

end Span

/-! ## Package `strings` -/

namespace Strings

/-- `strings.TrimSpace`. -/
def trimSpace (s : List UInt8) : List UInt8 :=
  (((pieces s).dropWhile (fun p => Unicode.isSpace p.rune)).rdropWhile
    (fun p => Unicode.isSpace p.rune)).flatMap Piece.bytes

/-- `strings.ToLower`. -/
def toLower (s : List UInt8) : List UInt8 := encode ((runes s).map Unicode.toLower)

/-- `strings.Split`, at a separator of one byte. -/
def split (s : List UInt8) (sep : UInt8) : List (List UInt8) := s.splitOn sep

/-- `strings.Cut`, at a separator of one byte. -/
def cut (s : List UInt8) (sep : UInt8) : Option (List UInt8 × List UInt8) :=
  match s.span (fun b => b != sep) with
  | (_, []) => none
  | (before, _ :: after) => some (before, after)

/-- `strings.Contains`. -/
def contains (s substr : List UInt8) : Bool := decide (substr <:+: s)

/-- `Cut` cuts at the first separator. -/
theorem cut_append {before : List UInt8} {sep : UInt8} (h : sep ∉ before) (after : List UInt8) :
    cut (before ++ sep :: after) sep = some (before, after) := by
  rw [cut, span_append_cons h]

/-- Without a separator there is no cut. -/
theorem cut_of_notMem {s : List UInt8} {sep : UInt8} (h : sep ∉ s) : cut s sep = none := by
  rw [cut, span_of_notMem h]

/-- The cut is at the first separator. -/
theorem cut_eq_some {s before after : List UInt8} {sep : UInt8} :
    cut s sep = some (before, after) ↔ s = before ++ sep :: after ∧ sep ∉ before := by
  constructor
  · intro h
    by_cases hmem : sep ∈ s
    · obtain ⟨b, a, rfl, hb⟩ := List.eq_append_cons_of_mem hmem
      rw [cut_append hb] at h
      cases h
      exact ⟨rfl, hb⟩
    · rw [cut_of_notMem hmem] at h
      cases h
  · rintro ⟨rfl, h⟩
    exact cut_append h after

/-- A string without white space is not trimmed. -/
theorem trimSpace_of_not_space {s : List UInt8}
    (h : ∀ r ∈ runes s, Unicode.isSpace r = false) : trimSpace s = s := by
  have hpieces : ∀ p ∈ pieces s, Unicode.isSpace p.rune = false :=
    fun p hp => h p.rune (List.mem_map.mpr ⟨p, hp, rfl⟩)
  have hfront : (pieces s).dropWhile (fun p => Unicode.isSpace p.rune) = pieces s := by
    rw [List.dropWhile_eq_self_iff]
    intro hpos
    rw [hpieces _ (List.getElem_mem hpos)]
    exact Bool.false_ne_true
  have hback : (pieces s).rdropWhile (fun p => Unicode.isSpace p.rune) = pieces s := by
    rw [List.rdropWhile_eq_self_iff]
    intro hne
    rw [hpieces _ (List.getLast_mem hne)]
    exact Bool.false_ne_true
  rw [trimSpace, hfront, hback, flatMap_pieces]

/-- ASCII bytes that are not white space are not trimmed, nor is anything between them. -/
theorem trimSpace_append {a : List UInt8} (hne : a ≠ [])
    (ha : ∀ b ∈ a, b.toNat < 0x80 ∧ Unicode.isSpace (Char.ofNat b.toNat) = false)
    (s : List UInt8) : ∃ t, t <+: s ∧ trimSpace (a ++ s) = a ++ t := by
  have hpieces : pieces (a ++ s) = a.map (fun b => ⟨Char.ofNat b.toNat, [b]⟩) ++ pieces s := by
    clear hne
    induction a with
    | nil => rfl
    | cons b a ih =>
      rw [List.cons_append, pieces_ascii (ha b List.mem_cons_self).1,
        ih (fun x hx => ha x (List.mem_cons_of_mem _ hx))]
      rfl
  have hbytes : (a.map (fun b => (⟨Char.ofNat b.toNat, [b]⟩ : Piece))).flatMap Piece.bytes = a := by
    rw [List.flatMap_map]
    exact List.flatMap_singleton' a
  obtain ⟨b, rest, rfl⟩ := List.exists_cons_of_ne_nil hne
  have hfront : (pieces (b :: rest ++ s)).dropWhile (fun p => Unicode.isSpace p.rune) =
      pieces (b :: rest ++ s) := by
    rw [hpieces]
    exact List.dropWhile_cons_of_neg (by simp [(ha b List.mem_cons_self).2])
  have hkeep : ((b :: rest).map (fun b => (⟨Char.ofNat b.toNat, [b]⟩ : Piece))).rdropWhile
      (fun p => Unicode.isSpace p.rune) = (b :: rest).map (fun b => ⟨Char.ofNat b.toNat, [b]⟩) := by
    rw [List.rdropWhile_eq_self_iff]
    intro hmap
    obtain ⟨x, hx, hlast⟩ := List.mem_map.mp (List.getLast_mem hmap)
    rw [← hlast]
    simp [(ha x hx).2]
  refine ⟨((pieces s).rdropWhile (fun p => Unicode.isSpace p.rune)).flatMap Piece.bytes, ?_, ?_⟩
  · obtain ⟨back, hback⟩ := List.rdropWhile_prefix (fun p => Unicode.isSpace (Piece.rune p)) (pieces s)
    refine ⟨back.flatMap Piece.bytes, ?_⟩
    rw [← List.flatMap_append, hback, flatMap_pieces]
  · rw [trimSpace, hfront, hpieces]
    conv_rhs => rw [← hbytes]
    rw [← List.flatMap_append]
    refine congrArg (List.flatMap Piece.bytes) ?_
    rw [List.rdropWhile] at hkeep ⊢
    rw [List.reverse_append, List.dropWhile_append]
    split
    · next hempty =>
      rw [hkeep, List.rdropWhile, List.isEmpty_iff.mp hempty, List.reverse_nil, List.append_nil]
    · rw [List.reverse_append, List.reverse_reverse]
      rfl

/-- The pieces of a trimmed string are the pieces of the string, trimmed. -/
theorem pieces_trimSpace (s : List UInt8) :
    pieces (trimSpace s) = ((pieces s).dropWhile (fun p => Unicode.isSpace p.rune)).rdropWhile
      (fun p => Unicode.isSpace p.rune) := by
  -- trimming drops so many pieces in front, and keeps so many of the rest
  obtain ⟨n, hn⟩ : ∃ n, (pieces s).dropWhile (fun p => Unicode.isSpace p.rune)
      = (pieces s).drop n :=
    ⟨_, List.suffix_iff_eq_drop.mp (List.dropWhile_suffix _)⟩
  obtain ⟨m, hm⟩ : ∃ m, ((pieces s).drop n).rdropWhile (fun p => Unicode.isSpace p.rune)
      = ((pieces s).drop n).take m :=
    ⟨_, List.prefix_iff_eq_take.mp (List.rdropWhile_prefix _ _)⟩
  have hdrop := pieces_drop n s
  have htake := pieces_take m (((pieces s).drop n).flatMap Piece.bytes)
  rw [hdrop] at htake
  rw [trimSpace, hn, hm, htake]

theorem rdropWhile_append_rtakeWhile {α : Type} (p : α → Bool) (l : List α) :
    l.rdropWhile p ++ l.rtakeWhile p = l := by
  have h := congrArg List.reverse (List.takeWhile_append_dropWhile (p := p) (l := l.reverse))
  rwa [List.reverse_append, List.reverse_reverse] at h

/-- What is trimmed is white space on either side. -/
theorem runes_eq_trimSpace (s : List UInt8) :
    ∃ front back, runes s = front ++ runes (trimSpace s) ++ back ∧
      (∀ r ∈ front, Unicode.isSpace r = true) ∧ ∀ r ∈ back, Unicode.isSpace r = true := by
  have hfront := List.takeWhile_append_dropWhile (p := fun p => Unicode.isSpace (Piece.rune p))
    (l := pieces s)
  have hback := rdropWhile_append_rtakeWhile (fun p => Unicode.isSpace (Piece.rune p))
    ((pieces s).dropWhile (fun p => Unicode.isSpace p.rune))
  rw [← pieces_trimSpace] at hback
  rw [← hback, ← List.append_assoc] at hfront
  have hrunes := congrArg (List.map Piece.rune) hfront
  rw [List.map_append, List.map_append] at hrunes
  refine ⟨_, _, hrunes.symm, ?_, ?_⟩
  · intro r hr
    obtain ⟨p, hp, rfl⟩ := List.mem_map.mp hr
    have hspace := List.mem_takeWhile_imp hp
    exact hspace
  · intro r hr
    obtain ⟨p, hp, rfl⟩ := List.mem_map.mp hr
    have hspace := List.mem_rtakeWhile_imp hp
    exact hspace

/-- `ToLower` works rune by rune. -/
@[simp] theorem runes_toLower (s : List UInt8) :
    runes (toLower s) = (runes s).map Unicode.toLower := runes_encode _

end Strings

end Text
