/-
Addresses as package `net/mail` reads them.

`parseAddress` is `mail.ParseAddress` for a mailbox: an addr-spec, or a phrase and an
addr-spec in angle brackets. The local part is a dot-atom or a quoted string, of
which only the content is kept; the domain is a dot-atom or an IP address in square
brackets. Comments, groups and encoded words are left out, and so are the texts of
the errors. What `net.ParseIP` accepts is a parameter (`IPSyntax`).

A result is not always an address again, because the quotes are gone.
`parseAddress_self_iff` says when it is: if the local part is a dot-atom.
-/
import ReleaseNotifier.Text.Strings

set_option autoImplicit false

namespace Text.Mailbox

/-! ## Characters -/

/-- `isVchar`. -/
def isVchar (r : Char) : Bool :=
  (decide ('!' ≤ r) && decide (r ≤ '~')) || decide (0x80 ≤ r.toNat)

/-- `isWSP`. -/
def isWSP (r : Char) : Bool := r == ' ' || r == '\t'

/-- The specials of RFC 5322, without the dot. -/
def specials : List Char := ['(', ')', '<', '>', '[', ']', ':', ';', '@', '\\', ',', '"']

/-- `isAtext`, with dots. -/
def isAtext (r : Char) : Bool := !specials.contains r && isVchar r

/-- `isQtext`. -/
def isQtext (r : Char) : Bool := r != '\\' && r != '"' && isVchar r

/-- `isDtext`. -/
def isDtext (r : Char) : Bool := r != '[' && r != ']' && r != '\\' && isVchar r

/-- The texts `net.ParseIP` accepts: digits, colons and dots, in either case. -/
structure IPSyntax where
  accepts : List Char → Bool
  chars : ∀ {t}, accepts t = true → '@' ∉ t
  lower : ∀ {t}, accepts t = true → accepts (t.map Unicode.toLower) = true

/-! ## The parser

A consumer returns what it has read and the rest of the input. -/

/-- `skipSpace`. -/
def skipSpace (s : List Char) : List Char := s.dropWhile isWSP

/-- `consume`. -/
def consume (c : Char) : List Char → Option (List Char)
  | [] => none
  | r :: s => if r = c then some s else none

/-- No dot first, last or after another. -/
def wellDotted (atom : List Char) : Bool :=
  atom.head? != some '.' && !decide (['.', '.'] <:+: atom) && atom.getLast? != some '.'

/-- `consumeAtom`, for dot-atoms. -/
def consumeAtom (permissive : Bool) (s : List Char) : Option (List Char × List Char) :=
  let atom := s.takeWhile isAtext
  if atom = [] then none
  else if !permissive && !wellDotted atom then none
  else some (atom, s.dropWhile isAtext)

/-- The loop of `consumeQuotedString`. -/
def quotedFrom : Bool → List Char → Option (List Char × List Char)
  | _, [] => none
  | true, r :: s =>
    if isVchar r || isWSP r then (quotedFrom false s).map (fun x => (r :: x.1, x.2)) else none
  | false, r :: s =>
    if isQtext r || isWSP r then (quotedFrom false s).map (fun x => (r :: x.1, x.2))
    else if r = '"' then some ([], s)
    else if r = '\\' then quotedFrom true s
    else none

/-- `consumeQuotedString`; the first character is the quote. -/
def consumeQuotedString (s : List Char) : Option (List Char × List Char) := quotedFrom false s.tail

/-- `consumeDomainLiteral`. -/
def consumeDomainLiteral (ip : IPSyntax) (s : List Char) : Option (List Char × List Char) := do
  let s ← consume '[' s
  let dtext := s.takeWhile isDtext
  let rest ← consume ']' (s.dropWhile isDtext)
  if ip.accepts dtext then some ('[' :: (dtext ++ [']']), rest) else none

/-- The local part in `consumeAddrSpec`. -/
def consumeLocal (s : List Char) : Option (List Char × List Char) :=
  if s.head? = some '"' then (consumeQuotedString s).filter (fun x => decide (x.1 ≠ []))
  else consumeAtom false s

/-- The domain in `consumeAddrSpec`. -/
def consumeDomain (ip : IPSyntax) (s : List Char) : Option (List Char × List Char) :=
  if s.head? = some '[' then consumeDomainLiteral ip s else consumeAtom false s

/-- `consumeAddrSpec`. -/
def consumeAddrSpec (ip : IPSyntax) (s : List Char) : Option (List Char × List Char) := do
  let (localPart, s) ← consumeLocal (skipSpace s)
  let s ← consume '@' s
  let (domain, s) ← consumeDomain ip (skipSpace s)
  return (localPart ++ '@' :: domain, s)

/-- A word of `consumePhrase`. -/
def consumeWord (s : List Char) : Option (List Char × List Char) :=
  if s.head? = some '"' then consumeQuotedString s else consumeAtom true s

/-- The words of `consumePhrase` after the first, `n` at most. -/
def skipWords : Nat → List Char → List Char
  | 0, s => s
  | n + 1, s =>
    match consumeWord (skipSpace s) with
    | none => skipSpace s
    | some (_, rest) => skipWords n rest

/-- `consumePhrase`; every word takes a character at least. -/
def consumePhrase (s : List Char) : Option (List Char) :=
  (consumeWord (skipSpace s)).map (fun x => skipWords x.2.length x.2)

/-- The display name in `parseAddress`, which may be missing. -/
def skipDisplayName (s : List Char) : Option (List Char) :=
  if s.head? = some '<' then some s else consumePhrase s

/-- `parseAddress` for what is no addr-spec. -/
def parseNameAddr (ip : IPSyntax) (s : List Char) : Option (List Char) := do
  let s ← skipDisplayName s
  let s ← consume '<' (skipSpace s)
  let (spec, s) ← consumeAddrSpec ip s
  let s ← consume '>' s
  if skipSpace s = [] then some spec else none

/-- `ParseAddress`: the field `Address` of what it returns. -/
def parseAddress (ip : IPSyntax) (s : List Char) : Option (List Char) :=
  match consumeAddrSpec ip (skipSpace s) with
  | some (spec, rest) => if skipSpace rest = [] then some spec else none
  | none => parseNameAddr ip (skipSpace s)

/-- What stands before the last `@`. -/
def localPart (s : List Char) : List Char := (s.reverse.span (fun c => c != '@')).2.tail.reverse

/-- The domain has no `@`, so the last one separates. -/
theorem localPart_append {d : List Char} (h : '@' ∉ d) (l : List Char) :
    localPart (l ++ '@' :: d) = l := by
  have hrev : (l ++ '@' :: d).reverse = d.reverse ++ '@' :: l.reverse := by simp
  have hd : '@' ∉ d.reverse := fun hmem => h (List.mem_reverse.mp hmem)
  rw [localPart, hrev, span_append_cons hd, List.tail_cons, List.reverse_reverse]

/-! ## What a consumer takes -/

/-- The value was read from the part of the input before the rest. -/
def Took (s x rest : List Char) : Prop := ∃ pre, s = pre ++ rest ∧ x.Sublist pre

variable {s x rest : List Char}

theorem Took.suffix (h : Took s x rest) : rest <:+ s := by
  obtain ⟨pre, rfl, -⟩ := h
  exact List.suffix_append pre rest

/-- What a parser returns was in its input. -/
theorem Took.mem (h : Took s x rest) {c : Char} (hc : c ∈ x) : c ∈ s := by
  obtain ⟨pre, rfl, hx⟩ := h
  exact List.mem_append_left _ (hx.mem hc)

theorem skipSpace_suffix (s : List Char) : skipSpace s <:+ s := List.dropWhile_suffix _

theorem consume_eq_some {c : Char} {s rest : List Char} :
    consume c s = some rest ↔ s = c :: rest := by
  cases s with
  | nil => simp [consume]
  | cons r s =>
    rw [consume]
    split
    · next h => simp [h]
    · next h => simp [h]

/-- A dot-atom. -/
structure DotAtom (s : List Char) : Prop where
  nonempty : s ≠ []
  atext : ∀ c ∈ s, isAtext c = true
  dotted : wellDotted s = true

/-- An atom is taken from the front as it stands. -/
theorem consumeAtom_took {permissive : Bool} (h : consumeAtom permissive s = some (x, rest)) :
    s = x ++ rest := by
  simp only [consumeAtom] at h
  split at h
  · cases h
  · split at h
    · cases h
    · cases h
      exact (List.takeWhile_append_dropWhile).symm

/-- Outside a phrase an atom has no empty part. -/
theorem consumeAtom_dotAtom (h : consumeAtom false s = some (x, rest)) : DotAtom x := by
  simp only [consumeAtom, Bool.not_false, Bool.true_and] at h
  split at h
  · cases h
  · next hne =>
    split at h
    · cases h
    · next hdotted =>
      cases h
      exact ⟨hne, fun c hc => List.mem_takeWhile_imp hc, by simpa using hdotted⟩

/-- What a quoted string is read from: a part of the input that would be read the same with
nothing behind it. -/
theorem quotedFrom_took {escaped : Bool} (h : quotedFrom escaped s = some (x, rest)) :
    ∃ pre, s = pre ++ rest ∧ x.Sublist pre ∧ quotedFrom escaped pre = some (x, []) := by
  induction s generalizing escaped x with
  | nil => cases escaped <;> cases h
  | cons r s ih =>
    have hkept : ∀ {y}, (quotedFrom false s).map (fun x => (r :: x.1, x.2)) = some (y, rest) →
        ∃ pre, r :: s = r :: pre ++ rest ∧ y.Sublist (r :: pre) ∧
          (quotedFrom false pre).map (fun x => (r :: x.1, x.2)) = some (y, []) := by
      intro y hy
      obtain ⟨⟨x', rest'⟩, hx', heq⟩ := Option.map_eq_some_iff.mp hy
      cases heq
      obtain ⟨pre, rfl, hsub, hread⟩ := ih hx'
      exact ⟨pre, rfl, hsub.cons_cons r, by rw [hread]; rfl⟩
    cases escaped with
    | true =>
      simp only [quotedFrom] at h
      split at h
      · next hchar =>
        obtain ⟨pre, hs, hsub, hread⟩ := hkept h
        exact ⟨r :: pre, hs, hsub, by rw [quotedFrom, if_pos hchar, hread]⟩
      · cases h
    | false =>
      simp only [quotedFrom] at h
      split at h
      · next hchar =>
        obtain ⟨pre, hs, hsub, hread⟩ := hkept h
        exact ⟨r :: pre, hs, hsub, by rw [quotedFrom, if_pos hchar, hread]⟩
      · next hchar =>
        split at h
        · next hquote =>
          cases h
          exact ⟨[r], rfl, List.nil_sublist _, by rw [quotedFrom, if_neg hchar, if_pos hquote]⟩
        · next hquote =>
          split at h
          · next hslash =>
            obtain ⟨pre, rfl, hsub, hread⟩ := ih h
            refine ⟨r :: pre, rfl, hsub.cons r, ?_⟩
            rw [quotedFrom, if_neg hchar, if_neg hquote, if_pos hslash, hread]
          · cases h

/-- A quoted string ends at its closing quote, and reads the same without what follows. -/
theorem consumeQuotedString_took (hs : s.head? = some '"')
    (h : consumeQuotedString s = some (x, rest)) :
    ∃ text, s = '"' :: text ++ rest ∧ quotedFrom false text = some (x, []) := by
  obtain ⟨t, rfl⟩ : ∃ t, s = '"' :: t := by
    cases s with
    | nil => cases hs
    | cons r t =>
      cases hs
      exact ⟨t, rfl⟩
  obtain ⟨pre, heq, -, hread⟩ := quotedFrom_took h
  exact ⟨pre, congrArg _ heq, hread⟩

/-- How a local part is written: a dot-atom stands as it is, of a quoted string the content
is kept. -/
inductive Written : List Char → List Char → Prop
  | atom {a : List Char} : DotAtom a → Written a a
  | quoted {text content : List Char} :
      quotedFrom false text = some (content, []) → Written ('"' :: text) content

/-- The content of a quoted string is shorter than the string. -/
theorem Written.sublist {word : List Char} (h : Written word x) :
    x.Sublist word ∧ (DotAtom x ∨ x.length < word.length) := by
  cases h with
  | atom hatom => exact ⟨List.Sublist.refl x, .inl hatom⟩
  | quoted hread =>
    obtain ⟨pre, heq, hsub, -⟩ := quotedFrom_took hread
    rw [List.append_nil] at heq
    subst heq
    exact ⟨hsub.cons _, .inr (Nat.lt_succ_of_le hsub.length_le)⟩

/-- The local part was read from a word of the input. -/
theorem consumeLocal_cases (h : consumeLocal s = some (x, rest)) :
    ∃ word, s = word ++ rest ∧ Written word x := by
  unfold consumeLocal at h
  split at h
  · next hquote =>
    obtain ⟨hquoted, -⟩ := Option.filter_eq_some_iff.mp h
    obtain ⟨text, hs, hread⟩ := consumeQuotedString_took hquote hquoted
    exact ⟨_, hs, .quoted hread⟩
  · exact ⟨x, consumeAtom_took h, .atom (consumeAtom_dotAtom h)⟩

/-- A domain: a dot-atom, or an IP address in brackets. -/
inductive IsDomain (ip : IPSyntax) : List Char → Prop
  | atom {d : List Char} : DotAtom d → IsDomain ip d
  | literal {t : List Char} :
      (∀ c ∈ t, isDtext c = true) → ip.accepts t = true → IsDomain ip ('[' :: (t ++ [']']))

section Domains

variable {ip : IPSyntax}

theorem consumeDomainLiteral_spec {s x rest : List Char}
    (h : consumeDomainLiteral ip s = some (x, rest)) : s = x ++ rest ∧ IsDomain ip x := by
  simp only [consumeDomainLiteral, Option.bind_eq_bind, Option.bind_eq_some_iff] at h
  obtain ⟨t, ht, rest', hrest, h⟩ := h
  split at h
  · next haccepts =>
    cases h
    have hsplit : t = t.takeWhile isDtext ++ ']' :: rest := by
      rw [← consume_eq_some.mp hrest, List.takeWhile_append_dropWhile]
    refine ⟨?_, .literal (fun c hc => List.mem_takeWhile_imp hc) haccepts⟩
    rw [consume_eq_some.mp ht]
    nth_rewrite 1 [hsplit]
    simp
  · cases h

/-- A domain is taken as it stands, an atom or a literal. -/
theorem consumeDomain_spec {s x rest : List Char} (h : consumeDomain ip s = some (x, rest)) :
    s = x ++ rest ∧ IsDomain ip x := by
  unfold consumeDomain at h
  split at h
  · exact consumeDomainLiteral_spec h
  · exact ⟨consumeAtom_took h, .atom (consumeAtom_dotAtom h)⟩

/-- What an addr-spec is read from. -/
theorem consumeAddrSpec_cases {s spec rest : List Char}
    (h : consumeAddrSpec ip s = some (spec, rest)) :
    ∃ localPart s' domain, consumeLocal (skipSpace s) = some (localPart, '@' :: s') ∧
      skipSpace s' = domain ++ rest ∧ IsDomain ip domain ∧ spec = localPart ++ '@' :: domain := by
  simp only [consumeAddrSpec, Option.bind_eq_bind, Option.bind_eq_some_iff, Prod.exists] at h
  obtain ⟨localPart, s₁, hlocal, s₂, hat, domain, s₃, hdomain, heq⟩ := h
  cases heq
  obtain ⟨hsplit, hd⟩ := consumeDomain_spec hdomain
  rw [consume_eq_some.mp hat] at hlocal
  exact ⟨localPart, s₂, domain, hlocal, hsplit, hd, rfl⟩

theorem consumeLocal_took {s x rest : List Char} (h : consumeLocal s = some (x, rest)) :
    Took s x rest := by
  obtain ⟨word, hs, hwritten⟩ := consumeLocal_cases h
  exact ⟨word, hs, hwritten.sublist.1⟩

/-- The specification keeps local part and domain in their order. -/
theorem consumeAddrSpec_took {s spec rest : List Char}
    (h : consumeAddrSpec ip s = some (spec, rest)) : Took s spec rest := by
  obtain ⟨localPart, s', domain, hlocal, hdomain, -, rfl⟩ := consumeAddrSpec_cases h
  obtain ⟨pre, hpre, hsub⟩ := consumeLocal_took hlocal
  obtain ⟨blanks, hblanks⟩ := skipSpace_suffix s
  obtain ⟨blanks', hblanks'⟩ := skipSpace_suffix s'
  refine ⟨blanks ++ pre ++ '@' :: (blanks' ++ domain), ?_, ?_⟩
  · rw [← hblanks, hpre, ← hblanks', hdomain]
    simp
  · have hdomainSub : domain.Sublist (blanks' ++ domain) := List.sublist_append_right _ _
    have hlocalSub : localPart.Sublist (blanks ++ pre) :=
      hsub.trans (List.sublist_append_right _ _)
    exact hlocalSub.append (hdomainSub.cons_cons '@')

/-! ## Reading a result again -/

/-- The specials are no atom text. -/
theorem atext_ne {c : Char} (h : isAtext c = true) {d : Char} (hd : d ∈ specials) : c ≠ d := by
  rintro rfl
  simp [isAtext, hd] at h

theorem isWSP_atext {c : Char} (h : isAtext c = true) : isWSP c = false := by
  have hblank : isAtext ' ' = false := by decide
  have htab : isAtext '\t' = false := by decide
  simp only [isWSP, Bool.or_eq_false_iff, beq_eq_false_iff_ne]
  constructor
  · rintro rfl
    rw [hblank] at h
    cases h
  · rintro rfl
    rw [htab] at h
    cases h

/-- No `@` in a domain, whichever form it has. -/
theorem IsDomain.at_not_mem {d : List Char} (h : IsDomain ip d) : '@' ∉ d := by
  intro hmem
  cases h with
  | atom hd => exact atext_ne (hd.atext '@' hmem) (by decide) rfl
  | literal _ haccepts =>
    simp only [List.mem_cons, List.mem_append, List.not_mem_nil, or_false] at hmem
    rcases hmem with h | h | h
    · exact absurd h (by decide)
    · exact ip.chars haccepts h
    · exact absurd h (by decide)

/-- A domain ends in a character that ends no angle bracket and is no blank. -/
theorem IsDomain.last {d : List Char} (h : IsDomain ip d) :
    ∃ c, d.getLast? = some c ∧ c ≠ '>' ∧ isWSP c = false := by
  cases h with
  | atom hd =>
    have hlast := List.getLast_mem hd.nonempty
    exact ⟨_, List.getLast?_eq_getLast_of_ne_nil hd.nonempty,
      atext_ne (hd.atext _ hlast) (by decide), isWSP_atext (hd.atext _ hlast)⟩
  | literal _ _ =>
    refine ⟨']', ?_, by decide, by decide⟩
    rw [← List.cons_append, List.getLast?_concat]

/-- A dot-atom up to a character that is not of it. -/
theorem consumeAtom_append {a s : List Char} (ha : DotAtom a)
    (hs : ∀ c, s.head? = some c → isAtext c = false) :
    consumeAtom false (a ++ s) = some (a, s) := by
  have htake : (a ++ s).takeWhile isAtext = a := by
    rw [List.takeWhile_append_of_pos ha.atext]
    cases s with
    | nil => simp
    | cons c s => simp [hs c rfl]
  have hdrop : (a ++ s).dropWhile isAtext = s := by
    rw [List.dropWhile_append_of_pos ha.atext]
    cases s with
    | nil => rfl
    | cons c s => simp [hs c rfl]
  simp only [consumeAtom, htake, hdrop, if_neg ha.nonempty, ha.dotted]
  rfl

theorem skipSpace_cons {c : Char} (h : isWSP c = false) (s : List Char) :
    skipSpace (c :: s) = c :: s := by
  rw [skipSpace, List.dropWhile_cons, h]
  rfl

theorem DotAtom.cons {a : List Char} (h : DotAtom a) :
    ∃ c t, a = c :: t ∧ isAtext c = true := by
  obtain ⟨c, t, rfl⟩ := List.exists_cons_of_ne_nil h.nonempty
  exact ⟨c, t, rfl, h.atext c List.mem_cons_self⟩

/-- A domain that was accepted is accepted again, alone. -/
theorem consumeDomain_self {d : List Char} (h : IsDomain ip d) :
    skipSpace d = d ∧ consumeDomain ip d = some (d, []) := by
  cases h with
  | atom hd =>
    have hatom := consumeAtom_append hd (s := []) (fun c hc => by cases hc)
    rw [List.append_nil] at hatom
    obtain ⟨c, t, rfl, hc⟩ := hd.cons
    refine ⟨skipSpace_cons (isWSP_atext hc) t, ?_⟩
    have hbracket : (c :: t).head? ≠ some '[' := by
      rw [List.head?_cons]
      exact fun heq => atext_ne hc (by decide) (Option.some.inj heq)
    rw [consumeDomain, if_neg hbracket, hatom]
  | @literal t hdtext haccepts =>
    refine ⟨skipSpace_cons (by decide) _, ?_⟩
    have hstop : isDtext ']' = false := by decide
    have htake : (t ++ [']']).takeWhile isDtext = t := by
      rw [List.takeWhile_append_of_pos hdtext]
      simp [hstop]
    have hdrop : (t ++ [']']).dropWhile isDtext = [']'] := by
      rw [List.dropWhile_append_of_pos hdtext]
      simp [hstop]
    rw [consumeDomain, if_pos List.head?_cons, consumeDomainLiteral]
    simp only [consume, if_true, Option.bind_eq_bind, Option.bind_some, htake, hdrop, haccepts]

/-- An address whose local part is a dot-atom is read as itself. -/
theorem parseAddress_self {l d : List Char} (hl : DotAtom l) (hd : IsDomain ip d) :
    parseAddress ip (l ++ '@' :: d) = some (l ++ '@' :: d) := by
  have hatom := consumeAtom_append hl (s := '@' :: d) (fun c hc => by
    cases hc
    decide)
  obtain ⟨hskip, hdomain⟩ := consumeDomain_self hd
  obtain ⟨c, t, rfl, hc⟩ := hl.cons
  have hstart : skipSpace (c :: t ++ '@' :: d) = c :: t ++ '@' :: d :=
    skipSpace_cons (isWSP_atext hc) _
  have hquote : (c :: t ++ '@' :: d).head? ≠ some '"' := by
    rw [List.cons_append, List.head?_cons]
    exact fun heq => atext_ne hc (by decide) (Option.some.inj heq)
  have hlocal : consumeLocal (c :: t ++ '@' :: d) = some (c :: t, '@' :: d) := by
    rw [consumeLocal, if_neg hquote, hatom]
  have hspec : consumeAddrSpec ip (c :: t ++ '@' :: d) = some (c :: t ++ '@' :: d, []) := by
    simp only [consumeAddrSpec, hstart, hlocal, Option.bind_eq_bind, Option.bind_some, consume,
      if_true, hskip, hdomain]
    rfl
  simp only [parseAddress, hstart, hspec]
  rfl

/-! ## What a result looks like -/

theorem consumeWord_suffix {s : List Char} {x : List Char × List Char}
    (h : consumeWord s = some x) : x.2 <:+ s := by
  unfold consumeWord at h
  split at h
  · next hquote =>
    obtain ⟨text, hs, -⟩ := consumeQuotedString_took hquote h
    rw [hs]
    exact List.suffix_append _ _
  · rw [consumeAtom_took h]
    exact List.suffix_append _ _

theorem skipWords_suffix (n : Nat) (s : List Char) : skipWords n s <:+ s := by
  induction n generalizing s with
  | zero => exact List.suffix_refl s
  | succ n ih =>
    rw [skipWords]
    cases hword : consumeWord (skipSpace s) with
    | none => exact skipSpace_suffix s
    | some x => exact (ih x.2).trans ((consumeWord_suffix hword).trans (skipSpace_suffix s))

/-- A display name is skipped from the front. -/
theorem skipDisplayName_suffix {s rest : List Char} (h : skipDisplayName s = some rest) :
    rest <:+ s := by
  unfold skipDisplayName at h
  split at h
  · cases h
    exact List.suffix_refl s
  · obtain ⟨x, hword, rfl⟩ := Option.map_eq_some_iff.mp h
    exact (skipWords_suffix _ _).trans ((consumeWord_suffix hword).trans (skipSpace_suffix s))

variable {s a : List Char}

/-- What a mailbox in angle brackets is read from. -/
theorem parseNameAddr_cases (h : parseNameAddr ip s = some a) :
    ∃ inside blanks, consumeAddrSpec ip inside = some (a, '>' :: blanks) ∧ inside <:+ s ∧
      skipSpace blanks = [] := by
  simp only [parseNameAddr, Option.bind_eq_bind, Option.bind_eq_some_iff, Prod.exists] at h
  obtain ⟨s₁, hname, s₂, hopen, spec, s₃, hspec, s₄, hclose, h⟩ := h
  split at h
  · next hblank =>
    cases h
    rw [consume_eq_some.mp hclose] at hspec
    have hinside : s₂ <:+ s₁ :=
      (List.suffix_cons '<' s₂).trans (consume_eq_some.mp hopen ▸ skipSpace_suffix s₁)
    exact ⟨s₂, s₄, hspec, hinside.trans (skipDisplayName_suffix hname), hblank⟩
  · cases h

/-- A mailbox in angle brackets ends in one, or in a blank. -/
theorem parseNameAddr_last (h : parseNameAddr ip s = some a) :
    ∃ c, s.getLast? = some c ∧ (c = '>' ∨ isWSP c = true) := by
  obtain ⟨inside, blanks, hspec, hinside, hblank⟩ := parseNameAddr_cases h
  obtain ⟨pre, rfl⟩ := (consumeAddrSpec_took hspec).suffix.trans hinside
  have hne : '>' :: blanks ≠ [] := List.cons_ne_nil '>' blanks
  refine ⟨_, (List.getLast?_append_of_ne_nil pre hne).trans (List.getLast?_eq_getLast_of_ne_nil hne), ?_⟩
  rcases List.mem_cons.mp (List.getLast_mem hne) with heq | hmem
  · exact .inl heq
  · exact .inr (List.dropWhile_eq_nil_iff.mp hblank _ hmem)

theorem getLast?_skipSpace {s : List Char} {c : Char} (h : s.getLast? = some c)
    (hc : isWSP c = false) : (skipSpace s).getLast? = some c := by
  obtain ⟨blanks, hs⟩ := skipSpace_suffix s
  have hne : skipSpace s ≠ [] := by
    intro hnil
    have hwsp := List.dropWhile_eq_nil_iff.mp hnil c (List.mem_of_getLast? h)
    rw [hc] at hwsp
    cases hwsp
  rw [← List.getLast?_append_of_ne_nil blanks hne, hs, h]

/-- A bare specification, or one in angle brackets after a name. -/
theorem parseAddress_cases (h : parseAddress ip s = some a) :
    (∃ rest, consumeAddrSpec ip (skipSpace s) = some (a, rest) ∧ skipSpace rest = []) ∨
      parseNameAddr ip (skipSpace s) = some a := by
  unfold parseAddress at h
  cases hspec : consumeAddrSpec ip (skipSpace s) with
  | none =>
    rw [hspec] at h
    exact .inr h
  | some x =>
    rw [hspec] at h
    dsimp only at h
    split at h
    · next hrest =>
      cases h
      exact .inl ⟨x.2, rfl, hrest⟩
    · cases h

/-- Every result is a local part and a domain, and the local part stands before an `@` of the
input. -/
theorem parseAddress_shape (h : parseAddress ip s = some a) :
    ∃ l d, a = l ++ '@' :: d ∧ IsDomain ip d ∧
      ∃ before word after, s = before ++ word ++ '@' :: after ∧ Written word l := by
  have hspec : ∀ {t rest}, t <:+ s → consumeAddrSpec ip t = some (a, rest) →
      ∃ l d, a = l ++ '@' :: d ∧ IsDomain ip d ∧
        ∃ before word after, s = before ++ word ++ '@' :: after ∧ Written word l := by
    intro t rest ht hspec
    obtain ⟨l, after, d, hlocal, -, hd, heq⟩ := consumeAddrSpec_cases hspec
    obtain ⟨word, hword, hwritten⟩ := consumeLocal_cases hlocal
    obtain ⟨before, hbefore⟩ := (skipSpace_suffix t).trans ht
    refine ⟨l, d, heq, hd, before, word, after, ?_, hwritten⟩
    rw [← hbefore, hword, List.append_assoc]
  rcases parseAddress_cases h with ⟨rest, hread, -⟩ | hname
  · exact hspec (skipSpace_suffix s) hread
  · obtain ⟨inside, _, hread, hinside, _⟩ := parseNameAddr_cases hname
    exact hspec (hinside.trans (skipSpace_suffix s)) hread

section Again

variable {l d : List Char} (hd : IsDomain ip d)

include hd

/-- What ends in a domain is read as an addr-spec or not at all. -/
theorem consumeAddrSpec_of_parseAddress {b : List Char}
    (h : parseAddress ip (l ++ '@' :: d) = some b) :
    ∃ rest, consumeAddrSpec ip (skipSpace (l ++ '@' :: d)) = some (b, rest) := by
  rcases parseAddress_cases h with ⟨rest, hread, -⟩ | hname
  · exact ⟨rest, hread⟩
  · obtain ⟨c, hc, hne, hblank⟩ := hd.last
    obtain ⟨c', hc', hbad⟩ := parseNameAddr_last hname
    have hlast : (skipSpace (l ++ '@' :: d)).getLast? = some c := by
      refine getLast?_skipSpace ?_ hblank
      rw [List.getLast?_append_of_ne_nil l (List.cons_ne_nil _ _), List.getLast?_cons, hc]
      rfl
    rw [hlast] at hc'
    cases hc'
    rcases hbad with heq | hwsp
    · exact absurd heq hne
    · rw [hblank] at hwsp
      cases hwsp

/-- A result is read as itself exactly if its local part is a dot-atom. -/
theorem parseAddress_self_iff :
    parseAddress ip (l ++ '@' :: d) = some (l ++ '@' :: d) ↔ DotAtom l := by
  constructor
  · intro h
    obtain ⟨rest, hspec⟩ := consumeAddrSpec_of_parseAddress hd h
    obtain ⟨l', s', d', hlocal, hdomain, hd', heq⟩ := consumeAddrSpec_cases hspec
    -- what follows the last `@` has none, on either side
    have hl : l = l' := by
      rw [← localPart_append hd.at_not_mem l, heq, localPart_append hd'.at_not_mem l']
    rw [hl]
    obtain ⟨word, hword, hwritten⟩ := consumeLocal_cases hlocal
    rcases hwritten.sublist.2 with hatom | hshort
    · exact hatom
    · -- nothing was skipped, and no quotes were dropped: all of the input is in the result
      exfalso
      have h₁ := (skipSpace_suffix (l ++ '@' :: d)).length_le
      have h₂ := (skipSpace_suffix (skipSpace (l ++ '@' :: d))).length_le
      have h₃ := (skipSpace_suffix s').length_le
      have hlength := congrArg List.length heq
      rw [hdomain, List.length_append] at h₃
      rw [hword] at h₂
      simp only [List.length_append, List.length_cons] at h₁ h₂ hlength
      omega
  · intro hl
    exact parseAddress_self hl hd

/-- Parsing invents no character. -/
theorem mem_of_parseAddress {b : List Char} (h : parseAddress ip (l ++ '@' :: d) = some b) {c : Char}
    (hc : c ∈ b) : c ∈ l ++ '@' :: d := by
  obtain ⟨rest, hspec⟩ := consumeAddrSpec_of_parseAddress hd h
  exact (skipSpace_suffix _).subset ((consumeAddrSpec_took hspec).mem hc)

end Again

end Domains

/-! ## Lower case -/

/-- The lower case of a rune is a letter `a` to `z` or no ASCII character. -/
theorem casePairs_letter :
    (Unicode.casePairs Unicode.caseTable).all (fun x =>
      (0x61 ≤ x.2 && x.2 ≤ 0x7a) || 0x80 ≤ x.2) = true := by
  decide +kernel

/-- Lower-casing lands on a lower-case ASCII letter or outside ASCII, if it moves a rune at all. -/
theorem toLower_cases (r : Char) : Unicode.toLower r = r ∨
    (0x61 ≤ (Unicode.toLower r).toNat ∧ (Unicode.toLower r).toNat ≤ 0x7a) ∨
      0x80 ≤ (Unicode.toLower r).toNat := by
  rcases Unicode.lowerCode_pair Unicode.caseTable r.toNat with hsame | hmem
  · left
    rw [Unicode.toLower, hsame, Char.ofNat_toNat]
  · right
    have hpair := List.all_eq_true.mp casePairs_letter _ hmem
    simp only [Bool.or_eq_true, Bool.and_eq_true, decide_eq_true_eq] at hpair
    rwa [Unicode.toNat_toLower]

/-- A letter is no special, no dot and visible. -/
theorem letter_atext {r : Char} (h : (0x61 ≤ r.toNat ∧ r.toNat ≤ 0x7a) ∨ 0x80 ≤ r.toNat) :
    isAtext r = true ∧ isDtext r = true ∧ r ≠ '.' := by
  have hlow : ('.' :: specials).all (fun d => decide (d.toNat < 0x61)) = true := by decide
  have hne : ∀ d ∈ '.' :: specials, r ≠ d := by
    rintro d hd rfl
    have := of_decide_eq_true (List.all_eq_true.mp hlow r hd)
    omega
  have hvisible : isVchar r = true := by
    rw [isVchar, Bool.or_eq_true, Bool.and_eq_true, decide_eq_true_eq, decide_eq_true_eq,
      decide_eq_true_eq]
    rcases h with hletter | hhigh
    · exact .inl ⟨(Nat.le_trans (by decide) hletter.1 : 0x21 ≤ r.toNat),
        (Nat.le_trans hletter.2 (by decide) : r.toNat ≤ 0x7e)⟩
    · exact .inr hhigh
  refine ⟨?_, ?_, hne '.' List.mem_cons_self⟩
  · have hspecial : specials.contains r = false := by
      rw [List.contains_eq_mem, decide_eq_false_iff_not]
      exact fun hmem => hne r (List.mem_cons_of_mem _ hmem) rfl
    rw [isAtext, hspecial, hvisible]
    rfl
  · simp [isDtext, hvisible, hne '[' (by decide), hne ']' (by decide), hne '\\' (by decide)]

section Lower

variable {r : Char}

/-- So atom text stays atom text. -/
theorem isAtext_toLower (h : isAtext r = true) : isAtext (Unicode.toLower r) = true := by
  rcases toLower_cases r with hsame | hletter
  · rwa [hsame]
  · exact (letter_atext hletter).1

theorem isDtext_toLower (h : isDtext r = true) : isDtext (Unicode.toLower r) = true := by
  rcases toLower_cases r with hsame | hletter
  · rwa [hsame]
  · exact (letter_atext hletter).2.1

/-- Only a dot becomes a dot. -/
theorem eq_dot_of_toLower (h : Unicode.toLower r = '.') : r = '.' := by
  rcases toLower_cases r with hsame | hletter
  · rwa [hsame] at h
  · exact absurd h (letter_atext hletter).2.2

end Lower

theorem DotAtom.lower {a : List Char} (h : DotAtom a) : DotAtom (a.map Unicode.toLower) := by
  have hdotted := h.dotted
  simp only [wellDotted, Bool.and_eq_true, bne_iff_ne, Bool.not_eq_true', decide_eq_false_iff_not]
    at hdotted
  refine ⟨mt List.map_eq_nil_iff.mp h.nonempty, ?_, ?_⟩
  · exact List.forall_mem_map.mpr (fun c hc => isAtext_toLower (h.atext c hc))
  · simp only [wellDotted, Bool.and_eq_true, bne_iff_ne, Bool.not_eq_true',
      decide_eq_false_iff_not]
    refine ⟨⟨fun hhead => hdotted.1.1 ?_, fun hinfix => hdotted.1.2 ?_⟩, fun hlast => hdotted.2 ?_⟩
    · rw [List.head?_map, Option.map_eq_some_iff] at hhead
      obtain ⟨c, hc, hdot⟩ := hhead
      rw [hc, eq_dot_of_toLower hdot]
    · obtain ⟨w, hw, heq⟩ := List.infix_map_iff.mp hinfix
      obtain ⟨a, w', rfl, ha, heq⟩ := List.map_eq_cons_iff.mp heq.symm
      obtain ⟨b, w'', rfl, hb, heq⟩ := List.map_eq_cons_iff.mp heq
      rwa [eq_dot_of_toLower ha, eq_dot_of_toLower hb, List.map_eq_nil_iff.mp heq] at hw
    · rw [List.getLast?_map, Option.map_eq_some_iff] at hlast
      obtain ⟨c, hc, hdot⟩ := hlast
      rw [hc, eq_dot_of_toLower hdot]

/-- A domain stays one when it is lower-cased. -/
theorem IsDomain.lower {ip : IPSyntax} {d : List Char} (h : IsDomain ip d) :
    IsDomain ip (d.map Unicode.toLower) := by
  cases h with
  | atom hd => exact .atom hd.lower
  | literal hdtext haccepts =>
    have hopen : Unicode.toLower '[' = '[' := by decide
    have hclose : Unicode.toLower ']' = ']' := by decide
    rw [List.map_cons, List.map_append, List.map_singleton, hopen, hclose]
    exact .literal (List.forall_mem_map.mpr (fun c hc => isDtext_toLower (hdtext c hc)))
      (ip.lower haccepts)

end Text.Mailbox
