/-
Trace ids at the edges: `internal/platform/tracectx`, the HTTP middleware that
takes an id from a request, and the two gRPC interceptors that pass it on.

Header and metadata values are byte strings, and need not be UTF-8. An id that
any of these functions lets through is plain ASCII, so from there on it is text
(`Context`), and `utf8_text` says that nothing is lost.

Random draws are arguments. `Traceparent` draws until a span is not zero; a call
that has returned has drawn such a span, and `SpanDraws` holds the draws of a
call together with that fact.
-/
import ReleaseNotifier.Text.Strings
import ReleaseNotifier.Monolith
import Mathlib.Data.List.OfFn

set_option autoImplicit false

namespace ReleaseNotifier

open Text

/-! ## `tracectx.go` -/

namespace Tracectx

/-- `traceIDHexLen`. -/
def traceIDHexLen : Nat := 32

/-- `spanIDHexLen`. -/
def spanIDHexLen : Nat := 16

/-- `zeroTraceID`. -/
def zeroTraceID : Bytes := List.replicate traceIDHexLen 0x30

/-- `zeroSpanID`. -/
def zeroSpanID : Bytes := List.replicate spanIDHexLen 0x30

/-- `maxExternalIDLen`. -/
def maxExternalIDLen : Nat := 64

/-- The byte `-`. -/
def dash : UInt8 := 0x2d

/-- A digit of `hex.EncodeToString`. -/
def hexDigit (n : Nat) : UInt8 := UInt8.ofNat (if n < 10 then 0x30 + n else 0x57 + n)

/-- `hex.EncodeToString`. -/
def hexEncode (src : List UInt8) : Bytes :=
  src.flatMap (fun b => [hexDigit (b.toNat / 16), hexDigit (b.toNat % 16)])

/-- `NewID`, with the sixteen bytes it draws. -/
def newID (draw : Vector UInt8 16) : Bytes := hexEncode draw.toList

/-- The range check of `isHexLower`. -/
def isHexRune (r : Char) : Bool :=
  ('0'.toNat ≤ r.toNat && r.toNat ≤ '9'.toNat) || ('a'.toNat ≤ r.toNat && r.toNat ≤ 'f'.toNat)

/-- `isHexLower`. -/
def isHexLower (s : Bytes) : Bool := (runes s).all isHexRune

/-- `IsValidID`. -/
def isValidID (id : Bytes) : Bool :=
  id.length == traceIDHexLen && id != zeroTraceID && isHexLower id

/-- The eight bytes of a span. -/
abbrev Span := Vector UInt8 8

/-- The span the specification rejects. -/
def zeroSpan : Span := Vector.replicate 8 0

/-- The spans one call of `Traceparent` draws, the last of which is not zero. -/
structure SpanDraws where
  draws : List Span
  ends : (draws.find? (fun span => decide (span ≠ zeroSpan))).isSome = true

/-- The loop of `Traceparent`: the first draw that is not zero. -/
def SpanDraws.span (d : SpanDraws) : Span :=
  (d.draws.find? (fun span => decide (span ≠ zeroSpan))).get d.ends

/-- `Traceparent`. -/
def traceparent (traceID : Bytes) (d : SpanDraws) : Option Bytes :=
  if !isValidID traceID then none
  else some (utf8 "00-" ++ traceID ++ utf8 "-" ++ hexEncode d.span.toList ++ utf8 "-01")

/-- The cases of the switch in `IsSafeExternalID`. -/
def isSafeRune (r : Char) : Bool :=
  ('0'.toNat ≤ r.toNat && r.toNat ≤ '9'.toNat) || ('a'.toNat ≤ r.toNat && r.toNat ≤ 'z'.toNat) ||
    ('A'.toNat ≤ r.toNat && r.toNat ≤ 'Z'.toNat) || r == '-' || r == '_' || r == '.'

/-- `IsSafeExternalID`. -/
def isSafeExternalID (s : Bytes) : Bool :=
  if s = [] ∨ s.length > maxExternalIDLen then false else (runes s).all isSafeRune

/-- `ParseTraceparent`. -/
def parseTraceparent (header : Bytes) : Option Bytes :=
  let trimmed := Strings.trimSpace header
  if trimmed = [] then none
  else
    match Strings.split trimmed dash with
    | [version, trace, parent, flags] =>
      if version.length ≠ 2 ∨ !isHexLower (Strings.toLower version) then none
      else
        -- the span of the caller is checked and then forgotten
        let spanID := Strings.toLower parent
        if spanID.length ≠ spanIDHexLen ∨ !isHexLower spanID ∨ spanID = zeroSpanID then none
        else if flags.length ≠ 2 ∨ !isHexLower (Strings.toLower flags) then none
        else
          let traceID := Strings.toLower trace
          if !isValidID traceID then none else some traceID
    | _ => none

end Tracectx

/-! ## `middleware/trace.go` -/

namespace Middleware

/-- What `Header.Get` returns for `Traceparent` and `X-Request-ID`; a header that
is absent is empty. -/
structure Headers where
  traceparent : Bytes
  requestID : Bytes
  deriving DecidableEq

/-- `traceIDFromRequest`. -/
def traceIDFromRequest (r : Headers) (draw : Vector UInt8 16) : Bytes :=
  match Tracectx.parseTraceparent r.traceparent with
  | some traceID => traceID
  | none =>
    let requestID := Strings.trimSpace r.requestID
    if Tracectx.isSafeExternalID requestID then requestID else Tracectx.newID draw

/-- A byte string as text. -/
def text (s : Bytes) : String := String.ofList (runes s)

/-- The context `TraceID` serves the request with. -/
def traceID (r : Headers) (draw : Vector UInt8 16) : Context :=
  ⟨some (text (traceIDFromRequest r draw))⟩

end Middleware

/-! ## gRPC metadata

`metadata.MD`, the metadata of one call: the values of each key, in order. -/

namespace Grpc

/-- `metadata.MD`. -/
abbrev MD := List (String × Bytes)

/-- `MD.Get`. -/
def MD.get (md : MD) (key : String) : List Bytes := (md.filter (fun x => x.1 = key)).map Prod.snd

/-- `metadata.AppendToOutgoingContext`. -/
def MD.append (md : MD) (key : String) (value : Bytes) : MD := md ++ [(key, value)]

/-- The key `x-request-id`. -/
def keyRequestID : String := "x-request-id"

/-- The key `traceparent`. -/
def keyTraceparent : String := "traceparent"

/-- `TraceUnaryClientInterceptor`: the metadata the call goes out with. -/
def traceUnaryClientInterceptor (ctx : Context) (outgoing : MD) (d : Tracectx.SpanDraws) : MD :=
  match ctx.traceID with
  | none => outgoing
  | some traceID =>
    if traceID = "" then outgoing
    else
      let outgoing := outgoing.append keyRequestID (utf8 traceID)
      match Tracectx.traceparent (utf8 traceID) d with
      | some traceparent => outgoing.append keyTraceparent traceparent
      | none => outgoing

/-- `traceIDFromMetadata`; there may be no incoming metadata at all. -/
def traceIDFromMetadata (incoming : Option MD) : Bytes :=
  match incoming with
  | none => []
  | some md =>
    match (md.get keyTraceparent).head?.bind Tracectx.parseTraceparent with
    | some traceID => traceID
    | none =>
      match md.get keyRequestID with
      | [] => []
      -- unlike on the HTTP side the value is not trimmed
      | id :: _ => if Tracectx.isSafeExternalID id then id else []

/-- `TraceUnaryServerInterceptor`: the context the handler runs with. -/
def traceUnaryServerInterceptor (ctx : Context) (incoming : Option MD) : Context :=
  let traceID := traceIDFromMetadata incoming
  -- without an id the context is passed on as it is, and none is made up
  if traceID ≠ [] then ⟨some (Middleware.text traceID)⟩ else ctx

end Grpc

/-! ## What the checks accept -/

namespace Tracectx

theorem isHexRune_bounds {r : Char} (h : isHexRune r = true) :
    (0x30 ≤ r.toNat ∧ r.toNat ≤ 0x39) ∨ (0x61 ≤ r.toNat ∧ r.toNat ≤ 0x66) := by
  simp only [isHexRune, Bool.or_eq_true, Bool.and_eq_true, decide_eq_true_eq] at h
  exact h

/-- Safe ids are ASCII without blanks, so they survive headers and trimming. -/
theorem isSafeRune_ascii {r : Char} (h : isSafeRune r = true) :
    r.toNat < 0x80 ∧ Unicode.isSpace r = false := by
  -- the three ranges and the three signs, as numbers
  have hcases : (0x30 ≤ r.toNat ∧ r.toNat ≤ 0x39) ∨ (0x61 ≤ r.toNat ∧ r.toNat ≤ 0x7a) ∨
      (0x41 ≤ r.toNat ∧ r.toNat ≤ 0x5a) ∨ r.toNat = 0x2d ∨ r.toNat = 0x5f ∨ r.toNat = 0x2e := by
    simp only [isSafeRune, Bool.or_eq_true, Bool.and_eq_true, decide_eq_true_eq,
      beq_iff_eq] at h
    rcases h with ((((h | h) | h) | h) | h) | h
    · exact .inl h
    · exact .inr (.inl h)
    · exact .inr (.inr (.inl h))
    all_goals subst h; decide
  refine ⟨by omega, ?_⟩
  simp only [Unicode.isSpace, Unicode.spaceCodes, List.mem_cons, List.not_mem_nil, or_false,
    decide_eq_false_iff_not]
  omega

theorem isSafeRune_of_isHexRune {r : Char} (h : isHexRune r = true) : isSafeRune r = true := by
  simp only [isSafeRune, Bool.or_eq_true, Bool.and_eq_true, decide_eq_true_eq]
  rcases isHexRune_bounds h with hd | hl
  · exact .inl (.inl (.inl (.inl (.inl hd))))
  · refine .inl (.inl (.inl (.inl (.inr ⟨hl.1, Nat.le_trans hl.2 ?_⟩))))
    decide

/-- A safe id is ASCII, and there is no white space in it. -/
theorem isSafeExternalID_runes {s : Bytes} (h : isSafeExternalID s = true) :
    s ≠ [] ∧ ∀ r ∈ runes s, r.toNat < 0x80 ∧ Unicode.isSpace r = false := by
  rw [isSafeExternalID] at h
  split at h
  · cases h
  · next hlen =>
    rw [not_or] at hlen
    exact ⟨hlen.1, fun r hr => isSafeRune_ascii (List.all_eq_true.mp h r hr)⟩

/-- A safe id is trimmed to itself. -/
theorem trimSpace_of_isSafeExternalID {s : Bytes} (h : isSafeExternalID s = true) :
    Strings.trimSpace s = s :=
  Strings.trimSpace_of_not_space (fun r hr => ((isSafeExternalID_runes h).2 r hr).2)

section Hex

variable {s : Bytes}

theorem isHexLower_runes (h : isHexLower s = true) {r : Char} (hr : r ∈ runes s) :
    isHexRune r = true :=
  List.all_eq_true.mp h r hr

theorem isHexLower_ascii (h : isHexLower s = true) {r : Char} (hr : r ∈ runes s) :
    r.toNat < 0x80 ∧ Unicode.isSpace r = false :=
  isSafeRune_ascii (isSafeRune_of_isHexRune (isHexLower_runes h hr))

/-- Lower-case hexadecimal is in lower case. -/
theorem toLower_of_isHexLower (h : isHexLower s = true) : Strings.toLower s = s := by
  have hall : ∀ n < 0x80, isHexRune (Char.ofNat n) = true →
      Unicode.toLower (Char.ofNat n) = Char.ofNat n := by
    decide
  have hsame : ∀ r ∈ runes s, Unicode.toLower r = r := by
    intro r hr
    have hr' := hall r.toNat (isHexLower_ascii h hr).1
    rw [Char.ofNat_toNat] at hr'
    exact hr' (isHexLower_runes h hr)
  have hmap : (runes s).map Unicode.toLower = runes s := by
    rw [List.map_congr_left hsame, List.map_id']
  rw [Strings.toLower, hmap]
  exact (eq_encode_of_ascii (fun r hr => (isHexLower_ascii h hr).1)).1.symm

/-- The bytes of lower-case hexadecimal. -/
theorem isHexLower_iff : isHexLower s = true ↔
    ∀ b ∈ s, (0x30 ≤ b.toNat ∧ b.toNat ≤ 0x39) ∨ (0x61 ≤ b.toNat ∧ b.toNat ≤ 0x66) := by
  constructor
  · intro h b hb
    have hs := (eq_encode_of_ascii (fun r hr => (isHexLower_ascii h hr).1)).1
    rw [hs, encode, List.mem_flatMap] at hb
    obtain ⟨r, hr, hb⟩ := hb
    have hascii := (isHexLower_ascii h hr).1
    rw [utf8EncodeChar_ascii hascii, List.mem_singleton] at hb
    rw [hb, UInt8.toNat_ofNat', Nat.mod_eq_of_lt (by omega)]
    exact isHexRune_bounds (isHexLower_runes h hr)
  · intro h
    have hall : ∀ n < 0x80, (0x30 ≤ n ∧ n ≤ 0x39) ∨ (0x61 ≤ n ∧ n ≤ 0x66) →
        isHexRune (Char.ofNat n) = true := by
      decide
    have hascii : ∀ b ∈ s, b.toNat < 0x80 := by
      intro b hb
      have := h b hb
      omega
    rw [isHexLower, runes_ascii hascii, List.all_map, List.all_eq_true]
    intro b hb
    exact hall b.toNat (hascii b hb) (h b hb)

/-- A visible ASCII byte is no white space. -/
theorem not_space_of_bytes (h : ∀ b ∈ s, 0x21 ≤ b.toNat ∧ b.toNat < 0x80) {r : Char}
    (hr : r ∈ runes s) : Unicode.isSpace r = false := by
  have hall : ∀ n < 0x80, 0x21 ≤ n → Unicode.isSpace (Char.ofNat n) = false := by
    decide
  rw [runes_ascii (fun b hb => (h b hb).2)] at hr
  obtain ⟨b, hb, rfl⟩ := List.mem_map.mp hr
  exact hall b.toNat (h b hb).2 (h b hb).1

/-- Hex digits contain no dash, so the fields can be split again. -/
theorem dash_not_mem (h : isHexLower s = true) : dash ∉ s := by
  intro hmem
  have := isHexLower_iff.mp h dash hmem
  revert this
  decide

end Hex

/-! ## Generated ids and spans -/

theorem hexDigit_bounds {n : Nat} (hn : n < 16) :
    (0x30 ≤ (hexDigit n).toNat ∧ (hexDigit n).toNat ≤ 0x39) ∨
      (0x61 ≤ (hexDigit n).toNat ∧ (hexDigit n).toNat ≤ 0x66) := by
  revert n
  decide

/-- Only zero is written as `0`, so an id of zeros comes from zero bytes. -/
theorem hexDigit_eq_zero {n : Nat} (hn : n < 16) (h : hexDigit n = 0x30) : n = 0 := by
  revert n
  decide

/-- Two digits for every byte. -/
theorem length_hexEncode (src : List UInt8) : (hexEncode src).length = 2 * src.length := by
  induction src with
  | nil => rfl
  | cons b src ih =>
    rw [hexEncode, List.flatMap_cons, List.length_append, List.length_cons]
    rw [hexEncode] at ih
    rw [ih]
    simp only [List.length_cons, List.length_nil]
    omega

theorem isHexLower_hexEncode (src : List UInt8) : isHexLower (hexEncode src) = true := by
  rw [isHexLower_iff]
  intro x hx
  obtain ⟨b, -, hx⟩ := List.mem_flatMap.mp hx
  have hb := b.toNat_lt
  simp only [List.mem_cons, List.not_mem_nil, or_false] at hx
  rcases hx with rfl | rfl
  · exact hexDigit_bounds (by omega)
  · exact hexDigit_bounds (by omega)

/-- Only zeros are encoded as zeros. -/
theorem eq_zero_of_hexEncode {src : List UInt8} (h : ∀ x ∈ hexEncode src, x = 0x30) :
    ∀ b ∈ src, b = 0 := by
  intro b hb
  have hlt := b.toNat_lt
  have hdigit : ∀ x ∈ [hexDigit (b.toNat / 16), hexDigit (b.toNat % 16)], x = 0x30 :=
    fun x hx => h x (List.mem_flatMap.mpr ⟨b, hb, hx⟩)
  have hhigh := hexDigit_eq_zero (by omega) (hdigit _ List.mem_cons_self)
  have hlow := hexDigit_eq_zero (by omega) (hdigit _ (List.mem_cons_of_mem _ List.mem_cons_self))
  apply UInt8.toNat_inj.mp
  rw [UInt8.toNat_zero]
  omega

/-- The span that was drawn is not the zero one. -/
theorem SpanDraws.span_ne_zero (d : SpanDraws) : hexEncode d.span.toList ≠ zeroSpanID := by
  intro h
  have hspan : d.span ≠ zeroSpan := by
    have hfind : d.draws.find? (fun span => decide (span ≠ zeroSpan)) = some d.span :=
      (Option.some_get d.ends).symm
    have hp := List.find?_some hfind
    exact of_decide_eq_true hp
  apply hspan
  -- a zero code would need every byte of the span to be zero
  have hzero : ∀ b ∈ d.span.toList, b = 0 := by
    refine eq_zero_of_hexEncode (fun x hx => ?_)
    rw [h, zeroSpanID] at hx
    exact List.eq_of_mem_replicate hx
  have hlist : d.span.toList = List.replicate 8 0 := by
    have hlen : d.span.toList.length = 8 := Vector.length_toList
    exact List.eq_replicate_iff.mpr ⟨hlen, hzero⟩
  apply Vector.toList_inj.mp
  rw [hlist]
  rfl

/-- Four fields of lower-case hexadecimal, joined by dashes. -/
def joined (a b c d : Bytes) : Bytes := a ++ dash :: (b ++ dash :: (c ++ dash :: d))

theorem split_of_joined {a b c d : Bytes} (ha : dash ∉ a) (hb : dash ∉ b) (hc : dash ∉ c)
    (hd : dash ∉ d) : Strings.split (joined a b c d) dash = [a, b, c, d] := by
  rw [Strings.split, joined, List.splitOn_append_cons_self_of_not_mem ha,
    List.splitOn_append_cons_self_of_not_mem hb, List.splitOn_append_cons_self_of_not_mem hc,
    List.splitOn_eq_singleton hd]

section Joined

variable {a b c d : Bytes} (ha : isHexLower a = true) (hb : isHexLower b = true)
  (hc : isHexLower c = true) (hd : isHexLower d = true)

include ha hb hc hd

/-- The four fields come back from the header. -/
theorem split_joined : Strings.split (joined a b c d) dash = [a, b, c, d] :=
  split_of_joined (dash_not_mem ha) (dash_not_mem hb) (dash_not_mem hc) (dash_not_mem hd)

theorem trimSpace_joined : Strings.trimSpace (joined a b c d) = joined a b c d := by
  refine Strings.trimSpace_of_not_space (fun r hr => not_space_of_bytes (fun x hx => ?_) hr)
  have hhex : ∀ {s : Bytes}, isHexLower s = true → x ∈ s → 0x21 ≤ x.toNat ∧ x.toNat < 0x80 := by
    intro s hs hmem
    have := isHexLower_iff.mp hs x hmem
    omega
  have hdash : 0x21 ≤ dash.toNat ∧ dash.toNat < 0x80 := by decide
  simp only [joined, List.mem_append, List.mem_cons] at hx
  rcases hx with hx | rfl | hx | rfl | hx | rfl | hx
  · exact hhex ha hx
  · exact hdash
  · exact hhex hb hx
  · exact hdash
  · exact hhex hc hx
  · exact hdash
  · exact hhex hd hx

end Joined

/-- What `Traceparent` writes, `ParseTraceparent` reads. -/
theorem parseTraceparent_traceparent {id : Bytes} (hvalid : isValidID id = true) (d : SpanDraws) :
    ∃ tp, traceparent id d = some tp ∧ parseTraceparent tp = some id := by
  have hid : isHexLower id = true := by
    simp only [isValidID, Bool.and_eq_true] at hvalid
    exact hvalid.2
  have hspan := isHexLower_hexEncode d.span.toList
  have h00 : isHexLower (utf8 "00") = true := by decide
  have h01 : isHexLower (utf8 "01") = true := by decide
  have hfields : utf8 "00-" ++ id ++ utf8 "-" ++ hexEncode d.span.toList ++ utf8 "-01"
      = joined (utf8 "00") id (hexEncode d.span.toList) (utf8 "01") := by
    have hhead : utf8 "00-" = utf8 "00" ++ [dash] := by decide
    have hmid : utf8 "-" = [dash] := by decide
    have htail : utf8 "-01" = dash :: utf8 "01" := by decide
    rw [hhead, hmid, htail]
    simp [joined]
  refine ⟨joined (utf8 "00") id (hexEncode d.span.toList) (utf8 "01"), ?_, ?_⟩
  · rw [traceparent, hvalid, hfields]
    rfl
  · have hne : joined (utf8 "00") id (hexEncode d.span.toList) (utf8 "01") ≠ [] := by
      simp [joined]
    have hspanlen : (hexEncode d.span.toList).length = spanIDHexLen := by
      rw [length_hexEncode, Vector.length_toList, spanIDHexLen]
    have hlen : (utf8 "00").length = 2 ∧ (utf8 "01").length = 2 := by decide
    simp only [parseTraceparent, trimSpace_joined h00 hid hspan h01, if_neg hne,
      split_joined h00 hid hspan h01]
    -- each check passes, and lowering the fields changes nothing
    rw [toLower_of_isHexLower h00, toLower_of_isHexLower hspan, toLower_of_isHexLower h01,
      toLower_of_isHexLower hid, h00, h01, hspan, hvalid, hlen.1, hlen.2, hspanlen]
    simp [d.span_ne_zero]

/-! ## What can become a trace id -/

/-- A trace id in hex is safe to hand on. -/
theorem isSafeExternalID_of_isHexLower {s : Bytes} (hlen : s.length = traceIDHexLen)
    (h : isHexLower s = true) : isSafeExternalID s = true := by
  have hshort : ¬ (s = [] ∨ s.length > maxExternalIDLen) := by
    rw [hlen, not_or]
    refine ⟨?_, by decide⟩
    rintro rfl
    cases hlen
  rw [isSafeExternalID, if_neg hshort, List.all_eq_true]
  exact fun r hr => isSafeRune_of_isHexRune (isHexLower_runes h hr)

theorem isSafeExternalID_of_isValidID {id : Bytes} (h : isValidID id = true) :
    isSafeExternalID id = true := by
  simp only [isValidID, Bool.and_eq_true, beq_iff_eq] at h
  exact isSafeExternalID_of_isHexLower h.1.1 h.2

/-- So is one that was drawn. -/
theorem isSafeExternalID_newID (draw : Vector UInt8 16) : isSafeExternalID (newID draw) = true := by
  refine isSafeExternalID_of_isHexLower ?_ (isHexLower_hexEncode _)
  rw [newID, length_hexEncode, Vector.length_toList, traceIDHexLen]

/-- What is read from a traceparent is a valid id. -/
theorem isValidID_of_parseTraceparent {header id : Bytes} (h : parseTraceparent header = some id) :
    isValidID id = true := by
  simp only [parseTraceparent] at h
  split at h
  · cases h
  · split at h
    · split at h
      · cases h
      · split at h
        · cases h
        · split at h
          · cases h
          · split at h
            · cases h
            · next hvalid =>
              cases h
              simpa using hvalid
    · cases h

end Tracectx

namespace Middleware

/-- Wherever it comes from, the id of a request is one that every side takes for
safe. -/
theorem isSafeExternalID_traceIDFromRequest (r : Headers) (draw : Vector UInt8 16) :
    Tracectx.isSafeExternalID (traceIDFromRequest r draw) = true := by
  rw [traceIDFromRequest]
  cases hparse : Tracectx.parseTraceparent r.traceparent with
  | some id =>
    exact Tracectx.isSafeExternalID_of_isValidID (Tracectx.isValidID_of_parseTraceparent hparse)
  | none =>
    by_cases hsafe : Tracectx.isSafeExternalID (Strings.trimSpace r.requestID) = true
    · simp only [if_pos hsafe]
      exact hsafe
    · simp only [if_neg hsafe]
      exact Tracectx.isSafeExternalID_newID draw

/-- As text a safe id is the same string. -/
theorem utf8_text {id : Bytes} (h : Tracectx.isSafeExternalID id = true) : utf8 (text id) = id := by
  have hascii := (Tracectx.isSafeExternalID_runes h).2
  rw [utf8, text]
  show (String.ofList (runes id)).toByteArray.data.toList = id
  rw [String.toByteArray_ofList, List.utf8Encode, List.toList_data_toByteArray]
  exact (eq_encode_of_ascii (fun r hr => (hascii r hr).1)).1.symm

theorem text_ne_empty {id : Bytes} (h : Tracectx.isSafeExternalID id = true) : text id ≠ "" := by
  intro hempty
  have hid := utf8_text h
  rw [hempty] at hid
  exact (Tracectx.isSafeExternalID_runes h).1 hid.symm

end Middleware

/-! ## One gRPC hop -/

namespace Grpc

@[simp] theorem MD.get_append (md : MD) (key key' : String) (value : Bytes) :
    (md.append key value).get key' = md.get key' ++ if key = key' then [value] else [] := by
  rw [MD.append, MD.get, List.filter_append, List.map_append]
  by_cases h : key = key'
  · simp [MD.get, h]
  · simp [MD.get, h]

/-- The server reads back the id the client's context carries, if it is a safe
one and the metadata had no trace of its own. -/
theorem traceIDFromMetadata_interceptor {id : Bytes} (hsafe : Tracectx.isSafeExternalID id = true)
    (d : Tracectx.SpanDraws) {outgoing incoming : MD}
    (hparent : outgoing.get keyTraceparent = []) (hid : outgoing.get keyRequestID = [])
    (hcarried : ∀ key, key = keyTraceparent ∨ key = keyRequestID → incoming.get key
      = (traceUnaryClientInterceptor ⟨some (Middleware.text id)⟩ outgoing d).get key) :
    traceIDFromMetadata (some incoming) = id := by
  have htext := Middleware.text_ne_empty hsafe
  have hutf8 := Middleware.utf8_text hsafe
  have hkeys : keyRequestID ≠ keyTraceparent := by decide
  have hgetParent := hcarried keyTraceparent (.inl rfl)
  have hgetID := hcarried keyRequestID (.inr rfl)
  simp only [traceUnaryClientInterceptor, if_neg htext, hutf8] at hgetParent hgetID
  by_cases hvalid : Tracectx.isValidID id = true
  · -- a W3C id travels in the traceparent, which takes precedence
    obtain ⟨tp, htp, hparse⟩ := Tracectx.parseTraceparent_traceparent hvalid d
    simp only [htp, MD.get_append, hparent, if_neg hkeys, List.nil_append, if_true] at hgetParent
    simp only [traceIDFromMetadata, hgetParent, List.head?_cons, Option.bind_some, hparse]
  · -- any other id travels in `x-request-id` alone
    have hnone : Tracectx.traceparent id d = none := by
      rw [Tracectx.traceparent, Bool.eq_false_iff.mpr hvalid]
      rfl
    simp only [hnone, MD.get_append, hparent, hid, if_neg hkeys, List.nil_append,
      if_true] at hgetParent hgetID
    simp only [traceIDFromMetadata, hgetParent, hgetID, List.head?_nil, Option.bind_none, hsafe,
      if_true]

/-- The handler of the call then runs with the id, whatever context the server
has for it. -/
theorem traceUnaryServerInterceptor_carries {id : Bytes}
    (hsafe : Tracectx.isSafeExternalID id = true) (d : Tracectx.SpanDraws) {outgoing incoming : MD}
    (hparent : outgoing.get keyTraceparent = []) (hid : outgoing.get keyRequestID = [])
    (hcarried : ∀ key, key = keyTraceparent ∨ key = keyRequestID → incoming.get key
      = (traceUnaryClientInterceptor ⟨some (Middleware.text id)⟩ outgoing d).get key)
    (ctx : Context) :
    traceUnaryServerInterceptor ctx (some incoming) = ⟨some (Middleware.text id)⟩ := by
  have hget := traceIDFromMetadata_interceptor hsafe d hparent hid hcarried
  have hne : id ≠ [] := (Tracectx.isSafeExternalID_runes hsafe).1
  simp only [traceUnaryServerInterceptor, hget]
  exact if_pos hne

end Grpc

/-! ## Which ids the two edges adopt

Both sides mean to trust the same ids. They share `ParseTraceparent`, but the
HTTP side trims a request id before it looks at it and the gRPC side does not. -/

/-- The HTTP side adopts `x`: it is the request's id whatever `NewID` draws. -/
def Middleware.Adopts (r : Middleware.Headers) (x : Bytes) : Prop :=
  ∀ draw, Middleware.traceIDFromRequest r draw = x

/-- The gRPC side adopts `x`. -/
def Grpc.Adopts (md : Grpc.MD) (x : Bytes) : Prop :=
  x ≠ [] ∧ Grpc.traceIDFromMetadata (some md) = x

/-- The values of the two headers as metadata. -/
def Middleware.Headers.metadata (r : Middleware.Headers) : Grpc.MD :=
  [(Grpc.keyTraceparent, r.traceparent), (Grpc.keyRequestID, r.requestID)]

section Adoption

variable {r : Middleware.Headers} {id x : Bytes}

/-- A `traceparent` that parses goes before the request id. -/
theorem Middleware.adopts_of_parse (h : Tracectx.parseTraceparent r.traceparent = some id) :
    Middleware.Adopts r x ↔ x = id := by
  simp only [Middleware.Adopts, Middleware.traceIDFromRequest, h]
  exact ⟨fun hall => (hall (Vector.replicate 16 0)).symm, fun hx _ => hx.symm⟩

/-- Without one a safe request id is adopted, trimmed. -/
theorem Middleware.adopts_of_not_parse (h : Tracectx.parseTraceparent r.traceparent = none) :
    Middleware.Adopts r x ↔ Tracectx.isSafeExternalID (Strings.trimSpace r.requestID) = true ∧
      x = Strings.trimSpace r.requestID := by
  simp only [Middleware.Adopts, Middleware.traceIDFromRequest, h]
  by_cases hsafe : Tracectx.isSafeExternalID (Strings.trimSpace r.requestID) = true
  · simp only [if_pos hsafe]
    exact ⟨fun hall => ⟨hsafe, (hall (Vector.replicate 16 0)).symm⟩, fun hx _ => hx.2.symm⟩
  · simp only [if_neg hsafe]
    refine ⟨fun hall => ?_, fun hx => absurd hx.1 hsafe⟩
    -- a generated id is not the same for all draws
    have hdraws := (hall (Vector.replicate 16 0)).trans (hall (Vector.replicate 16 1)).symm
    exact absurd hdraws (by decide)

theorem Grpc.adopts_of_parse (h : Tracectx.parseTraceparent r.traceparent = some id) :
    Grpc.Adopts r.metadata x ↔ x = id := by
  have hget : Grpc.traceIDFromMetadata (some r.metadata) = id := by
    have hparents : r.metadata.get Grpc.keyTraceparent = [r.traceparent] := rfl
    simp only [Grpc.traceIDFromMetadata, hparents, List.head?_cons, Option.bind_some, h]
  have hne : id ≠ [] := (Tracectx.isSafeExternalID_runes
    (Tracectx.isSafeExternalID_of_isValidID (Tracectx.isValidID_of_parseTraceparent h))).1
  rw [Grpc.Adopts, hget]
  exact ⟨fun hx => hx.2.symm, fun hx => ⟨hx ▸ hne, hx.symm⟩⟩

/-- Over gRPC the request id is not trimmed. -/
theorem Grpc.adopts_of_not_parse (h : Tracectx.parseTraceparent r.traceparent = none) :
    Grpc.Adopts r.metadata x ↔
      Tracectx.isSafeExternalID r.requestID = true ∧ x = r.requestID := by
  have hparents : r.metadata.get Grpc.keyTraceparent = [r.traceparent] := rfl
  have hids : r.metadata.get Grpc.keyRequestID = [r.requestID] := rfl
  simp only [Grpc.Adopts, Grpc.traceIDFromMetadata, hparents, hids, List.head?_cons,
    Option.bind_some, h]
  by_cases hsafe : Tracectx.isSafeExternalID r.requestID = true
  · simp only [hsafe, if_true, true_and]
    have hne := (Tracectx.isSafeExternalID_runes hsafe).1
    exact ⟨fun hx => hx.2.symm, fun hx => ⟨hx ▸ hne, hx.symm⟩⟩
  · simp only [if_neg hsafe]
    exact ⟨fun hx => absurd hx.2.symm hx.1, fun hx => absurd hx.1 hsafe⟩

end Adoption

/-- The two edges adopt the same ids from the same values if and only if the
traceparent decides, or the trimmed request id is unsafe, or there is nothing to
trim. -/
theorem adopts_alike_iff (r : Middleware.Headers) :
    (∀ x, Middleware.Adopts r x ↔ Grpc.Adopts r.metadata x) ↔
      ((Tracectx.parseTraceparent r.traceparent).isSome = true ∨
        Tracectx.isSafeExternalID (Strings.trimSpace r.requestID) = false ∨
        Strings.trimSpace r.requestID = r.requestID) := by
  cases hparse : Tracectx.parseTraceparent r.traceparent with
  | some id =>
    refine ⟨fun _ => .inl rfl, fun _ x => ?_⟩
    rw [Middleware.adopts_of_parse hparse, Grpc.adopts_of_parse hparse]
  | none =>
    constructor
    · intro halike
      by_cases hsafe : Tracectx.isSafeExternalID (Strings.trimSpace r.requestID) = true
      · have hhttp := (Middleware.adopts_of_not_parse hparse).mpr ⟨hsafe, rfl⟩
        exact .inr (.inr ((Grpc.adopts_of_not_parse hparse).mp ((halike _).mp hhttp)).2)
      · exact .inr (.inl (Bool.eq_false_iff.mpr hsafe))
    · rintro (hsome | hunsafe | hsame) x
      · cases hsome
      · rw [Middleware.adopts_of_not_parse hparse, Grpc.adopts_of_not_parse hparse, hunsafe]
        refine ⟨fun hx => absurd hx.1 Bool.false_ne_true, fun hx => ?_⟩
        -- a safe id is its own trimming
        rw [Tracectx.trimSpace_of_isSafeExternalID hx.1, hx.1] at hunsafe
        cases hunsafe
      · rw [Middleware.adopts_of_not_parse hparse, Grpc.adopts_of_not_parse hparse, hsame]

/-- A request id with a blank before it: the HTTP side adopts what is left, the
gRPC side adopts nothing. -/
theorem adopts_padded :
    Middleware.Adopts ⟨[], utf8 " abc"⟩ (utf8 "abc") ∧
      ¬ ∃ x, Grpc.Adopts (Middleware.Headers.metadata ⟨[], utf8 " abc"⟩) x := by
  have hparse : Tracectx.parseTraceparent [] = none := by decide
  refine ⟨(Middleware.adopts_of_not_parse hparse).mpr ?_, ?_⟩
  · decide
  · rintro ⟨x, hx⟩
    have hsafe := ((Grpc.adopts_of_not_parse hparse).mp hx).1
    revert hsafe
    decide

end ReleaseNotifier
