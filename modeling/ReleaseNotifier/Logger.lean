/-
What the logger hides: `internal/platform/logger/sanitize.go`, and the attribute
names of `logger.go`.

A key is sensitive if one of its words is, or if it spells `apikey` once its
separators are taken out. Two functions cut a key into words. `keyParts` starts a
word at an upper-case letter after a lower-case letter or a digit. `toSnakeCase`,
which names the attributes at the top level, also starts one at an upper-case
letter that a lower-case letter follows, so that `HTTPServer` becomes
`http_server`. The loops of both are kept as they are, as recursions over the
runes that carry what the loop remembers.

A logged value is a tree of the four containers `redactValue` knows; anything
else is a leaf, and `α` stands for the leaves that are no strings. A Go map has
no order, so it is a finite set of keys with a value for each. A nil map or slice
and an empty one are not told apart.
-/
import ReleaseNotifier.Text.Strings
import ReleaseNotifier.Wire
import Mathlib.Data.Finset.Basic

set_option autoImplicit false

namespace ReleaseNotifier.Logger

open Text

/-! ## Keys -/

/-- `redactedValue`. -/
def redactedValue : Bytes := utf8 "<redacted>"

/-- `sensitiveKeys`. -/
def sensitiveKeys : List Bytes :=
  [utf8 "authorization", utf8 "card", utf8 "cvv", utf8 "email", utf8 "jwt", utf8 "password",
    utf8 "secret", utf8 "token"]

/-- The bytes `keySeparators` replaces by nothing. -/
def keySeparators : List UInt8 := [0x2d, 0x5f, 0x2e, 0x20]

/-- `stripKeySeparators`. -/
def stripKeySeparators (s : Bytes) : Bytes := s.filter (fun b => !keySeparators.contains b)

/-- `flush` in `keyParts`: the word in the builder, if there is one. -/
def flush (b : List Char) : List Bytes :=
  if b.isEmpty then [] else [Strings.toLower (encode b)]

/-- The loop of `keyParts`, after the rune `prev` and with `b` in the builder. -/
def keyPartsFrom (prev : Option Char) (b : List Char) : List Char → List Bytes
  | [] => flush b
  | r :: rs =>
    let cut := Unicode.isUpper r && prev.any (fun p => Unicode.isLower p || Unicode.isDigit p)
    let done := if cut then flush b else []
    let b := if cut then [] else b
    if Unicode.isLetter r || Unicode.isDigit r then done ++ keyPartsFrom (some r) (b ++ [r]) rs
    else done ++ flush b ++ keyPartsFrom (some r) [] rs

/-- `keyParts`. -/
def keyParts (key : Bytes) : List Bytes := keyPartsFrom none [] (runes key)

/-- `isSensitiveKey`. -/
def isSensitiveKey (key : Bytes) : Bool :=
  let trimmed := Strings.trimSpace key
  let normalized := Strings.toLower trimmed
  let stripped := stripKeySeparators normalized
  if Strings.contains stripped (utf8 "apikey") then true
  else (keyParts trimmed).any (fun part => sensitiveKeys.contains part)

/-- The loop of `toSnakeCase`, after the rune `prev`. -/
def snakeFrom (prev : Option Char) (previousUnderscore : Bool) : List Char → List Char
  | [] => []
  | r :: rs =>
    if r = '-' ∨ r = ' ' ∨ r = '.' then
      (if previousUnderscore then [] else ['_']) ++ snakeFrom (some r) true rs
    else if Unicode.isUpper r then
      let nextLower := rs.head?.any Unicode.isLower
      let prevLowerOrDigit := prev.any (fun p => Unicode.isLower p || Unicode.isDigit p)
      (if prev.isSome && !previousUnderscore && (prevLowerOrDigit || nextLower) then ['_'] else [])
        ++ Unicode.toLower r :: snakeFrom (some r) false rs
    else r :: snakeFrom (some r) (r == '_') rs

/-- `toSnakeCase`. -/
def toSnakeCase (key : Bytes) : Bytes :=
  if key = [] then key else encode (snakeFrom none false (runes key))

/-! ## Values -/

/-- A value handed to the logger. -/
inductive Value (α : Type)
  /-- `map[string]any` -/
  | mapAny (keys : Finset Bytes) (entry : keys → Value α)
  /-- `map[string]string` -/
  | mapString (keys : Finset Bytes) (entry : keys → Bytes)
  /-- `map[string][]string` -/
  | mapStrings (keys : Finset Bytes) (entry : keys → List Bytes)
  /-- `[]any` -/
  | list (length : Nat) (elem : Fin length → Value α)
  /-- `string` -/
  | str (s : Bytes)
  /-- any other type -/
  | other (a : α)

/-- `redactValue`. -/
def redactValue {α : Type} : Value α → Value α
  | .mapAny keys nested =>
    .mapAny keys (fun k =>
      if isSensitiveKey k then .str redactedValue else redactValue (nested k))
  | .mapString keys nested =>
    .mapString keys (fun k => if isSensitiveKey k then redactedValue else nested k)
  | .mapStrings keys nested =>
    .mapStrings keys (fun k => if isSensitiveKey k then [redactedValue] else nested k)
  | .list length nested => .list length (fun i => redactValue (nested i))
  | .str s => .str s
  | .other a => .other a

/-- `Redact`. -/
def redact {α : Type} (key : Bytes) (val : Value α) : Value α :=
  if isSensitiveKey key then .str redactedValue else redactValue val

/-- `replaceAttr`: the attribute that is written. How a time and a level are
formatted is left out. -/
def replaceAttr {α : Type} (key : Bytes) (val : Value α) : Bytes × Value α :=
  if key = utf8 "time" then (utf8 "timestamp", val)
  else if key = utf8 "level" then (key, val)
  else
    let key := if key = utf8 "err" then utf8 "error" else toSnakeCase key
    if isSensitiveKey key then (key, .str redactedValue) else (key, redactValue val)

end ReleaseNotifier.Logger
