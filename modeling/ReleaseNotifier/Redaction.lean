/-
Redaction as a barrier.

What `Redact` returns is a function of what stands under no sensitive key, and
all of that can still be read from it. Both are said of the whole tree: two trees
have the same image exactly if they differ under sensitive keys only, and what a
path without a sensitive key leads to is the same before and after. A list hands
no key to its elements, so an index on a path never hides anything.
-/
import ReleaseNotifier.Logger

set_option autoImplicit false

namespace ReleaseNotifier.Logger

variable {α : Type}

/-! ## Two trees -/

/-- Two values differ only in what they store under sensitive keys. -/
inductive SameOutside : Value α → Value α → Prop
  | mapAny (keys : Finset Bytes) (v w : keys → Value α)
      (h : ∀ k : keys, isSensitiveKey k = false → SameOutside (v k) (w k)) :
      SameOutside (.mapAny keys v) (.mapAny keys w)
  | mapString (keys : Finset Bytes) (v w : keys → Bytes)
      (h : ∀ k : keys, isSensitiveKey k = false → v k = w k) :
      SameOutside (.mapString keys v) (.mapString keys w)
  | mapStrings (keys : Finset Bytes) (v w : keys → List Bytes)
      (h : ∀ k : keys, isSensitiveKey k = false → v k = w k) :
      SameOutside (.mapStrings keys v) (.mapStrings keys w)
  | list (length : Nat) (v w : Fin length → Value α) (h : ∀ i, SameOutside (v i) (w i)) :
      SameOutside (.list length v) (.list length w)
  | str (s : Bytes) : SameOutside (.str s) (.str s)
  | other (a : α) : SameOutside (.other a) (.other a)

/-- The same for two values logged under a key. -/
def SameUnder (key : Bytes) (v w : Value α) : Prop := isSensitiveKey key = true ∨ SameOutside v w

/-- An entry is overwritten under a sensitive key. -/
theorem ite_sensitive_congr {β : Type} {key : Bytes} {hidden x y : β}
    (h : isSensitiveKey key = false → x = y) :
    (if isSensitiveKey key then hidden else x) = if isSensitiveKey key then hidden else y := by
  cases hk : isSensitiveKey key with
  | true => rfl
  | false => exact h hk

/-- What is under a key that is not sensitive can be told apart. -/
theorem eq_of_ite_sensitive {β : Type} {key : Bytes} {hidden x y : β}
    (h : (if isSensitiveKey key then hidden else x) = if isSensitiveKey key then hidden else y)
    (hk : isSensitiveKey key = false) : x = y := by
  rwa [hk, if_neg Bool.false_ne_true, if_neg Bool.false_ne_true] at h

/-- Values that differ under sensitive keys only are redacted to the same. -/
theorem SameOutside.redactValue_eq {v w : Value α} (h : SameOutside v w) :
    redactValue v = redactValue w := by
  induction h with
  | mapAny keys v w _ ih =>
    simp only [redactValue]
    refine congrArg (Value.mapAny keys) (funext fun k => ?_)
    exact ite_sensitive_congr (ih k)
  | mapString keys v w h =>
    simp only [redactValue]
    refine congrArg (Value.mapString keys) (funext fun k => ?_)
    exact ite_sensitive_congr (h k)
  | mapStrings keys v w h =>
    simp only [redactValue]
    refine congrArg (Value.mapStrings keys) (funext fun k => ?_)
    exact ite_sensitive_congr (h k)
  | list length v w _ ih =>
    simp only [redactValue]
    refine congrArg (Value.list length) (funext fun i => ?_)
    exact ih i
  | str s => rfl
  | other a => rfl

/-- Nothing else is lost: trees with the same image differ under sensitive keys
only. -/
theorem SameOutside.of_redactValue_eq {v w : Value α} (h : redactValue v = redactValue w) :
    SameOutside v w := by
  induction v generalizing w with
  | mapAny keys v ih =>
    cases w <;> simp only [redactValue, reduceCtorEq] at h
    case mapAny keys' w =>
      -- the keys are kept, so both maps have the same ones
      obtain ⟨rfl, hentry⟩ := Value.mapAny.inj h
      refine .mapAny keys v w (fun k hk => ih k ?_)
      exact eq_of_ite_sensitive (congrFun (eq_of_heq hentry) k) hk
  | mapString keys v =>
    cases w <;> simp only [redactValue, reduceCtorEq] at h
    case mapString keys' w =>
      obtain ⟨rfl, hentry⟩ := Value.mapString.inj h
      exact .mapString keys v w
        (fun k hk => eq_of_ite_sensitive (congrFun (eq_of_heq hentry) k) hk)
  | mapStrings keys v =>
    cases w <;> simp only [redactValue, reduceCtorEq] at h
    case mapStrings keys' w =>
      obtain ⟨rfl, hentry⟩ := Value.mapStrings.inj h
      exact .mapStrings keys v w
        (fun k hk => eq_of_ite_sensitive (congrFun (eq_of_heq hentry) k) hk)
  | list length v ih =>
    cases w <;> simp only [redactValue, reduceCtorEq] at h
    case list length' w =>
      obtain ⟨rfl, helem⟩ := Value.list.inj h
      exact .list length v w (fun i => ih i (congrFun (eq_of_heq helem) i))
  | str s =>
    cases w <;> simp only [redactValue, reduceCtorEq] at h
    case str s' =>
      cases h
      exact .str s
  | other a =>
    cases w <;> simp only [redactValue, reduceCtorEq] at h
    case other a' =>
      cases h
      exact .other a

/-- **Redaction hides what is under sensitive keys and nothing else.** -/
theorem redact_eq_iff (key : Bytes) (v w : Value α) :
    redact key v = redact key w ↔ SameUnder key v w := by
  rw [redact, redact, SameUnder]
  cases hk : isSensitiveKey key with
  | true => exact iff_of_true rfl (.inl rfl)
  | false =>
    simp only [Bool.false_eq_true, if_false, false_or]
    exact ⟨SameOutside.of_redactValue_eq, SameOutside.redactValue_eq⟩

/-! ## What a path leads to -/

/-- A step into a container. -/
inductive Selector
  | key (k : Bytes)
  | index (i : Nat)

/-- What is seen of a value before any further step: the keys of a map, the
length of a list, or a leaf. -/
inductive Shape (α : Type)
  | mapAny (keys : Finset Bytes)
  | mapString (keys : Finset Bytes)
  | mapStrings (keys : Finset Bytes)
  | list (length : Nat)
  /-- a `[]string` in a `map[string][]string` -/
  | strings (length : Nat)
  | str (s : Bytes)
  | other (a : α)

/-- What a path leads to in a `[]string`. -/
def lookStrings (l : List Bytes) : List Selector → Option (Shape α)
  | [] => some (.strings l.length)
  | [.index i] => l[i]?.map .str
  | _ => none

/-- What a path leads to. -/
def Value.look : Value α → List Selector → Option (Shape α)
  | .mapAny keys _, [] => some (.mapAny keys)
  | .mapAny keys v, .key k :: path => if h : k ∈ keys then (v ⟨k, h⟩).look path else none
  | .mapString keys _, [] => some (.mapString keys)
  | .mapString keys v, [.key k] => if h : k ∈ keys then some (.str (v ⟨k, h⟩)) else none
  | .mapStrings keys _, [] => some (.mapStrings keys)
  | .mapStrings keys v, .key k :: path => if h : k ∈ keys then lookStrings (v ⟨k, h⟩) path else none
  | .list length _, [] => some (.list length)
  | .list length v, .index i :: path => if h : i < length then (v ⟨i, h⟩).look path else none
  | .str s, [] => some (.str s)
  | .other a, [] => some (.other a)
  | _, _ => none

/-- No key on a path is sensitive. -/
def Clear (path : List Selector) : Prop := ∀ k, .key k ∈ path → isSensitiveKey k = false

variable {path : List Selector}

theorem Clear.head {k : Bytes} (h : Clear (.key k :: path)) :
    isSensitiveKey k = false := h k List.mem_cons_self

theorem Clear.tail {s : Selector} (h : Clear (s :: path)) : Clear path :=
  fun k hk => h k (List.mem_cons_of_mem _ hk)

theorem ite_clear {β : Type} {key : Bytes} {hidden x : β} (h : isSensitiveKey key = false) :
    (if isSensitiveKey key then hidden else x) = x := by
  rw [h, if_neg Bool.false_ne_true]

/-- A path without a sensitive key leads to the same in what is logged. -/
theorem look_redactValue (v : Value α) (h : Clear path) :
    (redactValue v).look path = v.look path := by
  induction v generalizing path with
  | mapAny keys v ih =>
    match path with
    | [] => simp only [redactValue, Value.look]
    | .key k :: path =>
      simp only [redactValue, Value.look, ite_clear h.head, ih _ h.tail]
    | .index i :: path => simp only [redactValue, Value.look]
  | mapString keys v =>
    match path with
    | [] => simp only [redactValue, Value.look]
    | [.key k] => simp only [redactValue, Value.look, ite_clear h.head]
    -- a path does not lead into a string
    | .key k :: s :: path => simp only [redactValue, Value.look]
    | .index i :: path => simp only [redactValue, Value.look]
  | mapStrings keys v =>
    match path with
    | [] => simp only [redactValue, Value.look]
    | .key k :: path => simp only [redactValue, Value.look, ite_clear h.head]
    | .index i :: path => simp only [redactValue, Value.look]
  | list length v ih =>
    match path with
    | [] => simp only [redactValue, Value.look]
    | .key k :: path => simp only [redactValue, Value.look]
    | .index i :: path => simp only [redactValue, Value.look, ih _ h.tail]
  | str s => rw [redactValue]
  | other a => rw [redactValue]

/-! ## Twice -/

/-- The mask is redacted to itself, so a second pass changes nothing. -/
theorem redactValue_redactValue (v : Value α) : redactValue (redactValue v) = redactValue v := by
  induction v with
  | mapAny keys v ih =>
    simp only [redactValue]
    refine congrArg (Value.mapAny keys) (funext fun k => ?_)
    split
    · rfl
    · exact ih k
  | mapString keys v =>
    simp only [redactValue]
    refine congrArg (Value.mapString keys) (funext fun k => ?_)
    split
    · rfl
    · rfl
  | mapStrings keys v =>
    simp only [redactValue]
    refine congrArg (Value.mapStrings keys) (funext fun k => ?_)
    split
    · rfl
    · rfl
  | list length v ih =>
    simp only [redactValue]
    refine congrArg (Value.list length) (funext fun i => ?_)
    exact ih i
  | str s => rfl
  | other a => rfl

theorem redact_redact (key : Bytes) (v : Value α) : redact key (redact key v) = redact key v := by
  rw [redact]
  split
  · rename_i hk
    rw [redact, if_pos hk]
  · rename_i hk
    rw [redact, if_neg hk, redactValue_redactValue]

/-! ## The barrier -/

/-- **Redaction is a barrier and nothing more.** -/
theorem redact_barrier (key : Bytes) :
    (∀ v w : Value α, redact key v = redact key w ↔ SameUnder key v w) ∧
      (∀ (v : Value α) (path : List Selector), isSensitiveKey key = false → Clear path →
        (redact key v).look path = v.look path) ∧
      ∀ v : Value α, redact key (redact key v) = redact key v := by
  refine ⟨redact_eq_iff key, fun v path hk hpath => ?_, redact_redact key⟩
  rw [redact, ite_clear hk, look_redactValue v hpath]

/-- The headers of a request, with a bearer token. -/
def headersWith (bearer : Bytes) : Value Unit :=
  .mapAny {utf8 "headers"} (fun _ =>
    .mapStrings {utf8 "Authorization", utf8 "User-Agent"} (fun k =>
      if k = utf8 "Authorization" then [bearer] else [utf8 "curl/8"]))

/-- The token is hidden and the user agent is not. -/
theorem redact_barrier_headers :
    redact [] (headersWith (utf8 "Bearer abc123")) = redact [] (headersWith (utf8 "Bearer x")) ∧
      (redact [] (headersWith (utf8 "Bearer abc123"))).look
        [.key (utf8 "headers"), .key (utf8 "User-Agent"), .index 0] = some (.str (utf8 "curl/8")) := by
  obtain ⟨hsame, hlook, -⟩ := redact_barrier (α := Unit) []
  constructor
  · refine (hsame _ _).mpr (.inr (.mapAny _ _ _ (fun _ _ => .mapStrings _ _ _ (fun k hk => ?_))))
    split
    · -- the two headers differ under `Authorization` only, and it is sensitive
      rename_i h
      rw [h] at hk
      exact absurd hk (by decide)
    · rfl
  · have hclear : Clear [.key (utf8 "headers"), .key (utf8 "User-Agent"), .index 0] := by
      intro k hk
      simp only [List.mem_cons, Selector.key.injEq, reduceCtorEq, List.not_mem_nil, or_false] at hk
      rcases hk with rfl | rfl
      · decide
      · decide
    rw [hlook _ _ (by decide) hclear]
    rfl

end ReleaseNotifier.Logger
