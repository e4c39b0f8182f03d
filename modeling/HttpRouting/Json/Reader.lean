import HttpRouting.Json.Basic

/-!
Reading JSON.  The text is cut into tokens by one walk over its characters, and one walk over the
tokens builds the value on a stack of open arrays and objects.
-/

set_option autoImplicit false
set_option relaxedAutoImplicit false

namespace HttpRouting

namespace JsonNumber

/-- The rest of a number behind its point: a power of ten or nothing. -/
def exponent? : List Char → Option (Option (Bool × List Char))
  | [] => some none
  | mark :: rest =>
    if mark = 'e' || mark = 'E' then
      let (negative, digits) :=
        match rest with
        | '+' :: digits => (false, digits)
        | '-' :: digits => (true, digits)
        | digits => (false, digits)
      if digits.isEmpty || !digits.all Char.isDigit then none else some (some (negative, digits))
    else none

/-- Read a number: no superfluous zero in front, and digits on both sides of a point. -/
def read? (text : List Char) : Option JsonNumber :=
  let (negative, text) :=
    match text with
    | '-' :: rest => (true, rest)
    | rest => (false, rest)
  let whole := text.takeWhile Char.isDigit
  let rest := text.dropWhile Char.isDigit
  if whole.isEmpty || (whole.head? = some '0' && 1 < whole.length) then none
  else
    match rest with
    | '.' :: rest =>
      let fraction := rest.takeWhile Char.isDigit
      if fraction.isEmpty then none
      else
        (exponent? (rest.dropWhile Char.isDigit)).map fun exponent =>
          ⟨negative, whole, some fraction, exponent⟩
    | rest => (exponent? rest).map fun exponent => ⟨negative, whole, none, exponent⟩

end JsonNumber

namespace Json

/-- The tokens of a JSON text. -/
inductive Token where
  | openArray
  | closeArray
  | openObject
  | closeObject
  | comma
  | colon
  | value (json : Json)

/-- The units of a string read so far, the last one first.  A unit is a character or half of a
surrogate pair. -/
abbrev Units := List (Char ⊕ Nat)

/-- Join surrogate halves to characters; a half without its other half spoils the string. -/
def joinUnits : Units → Option (List Char)
  | [] => some []
  | .inl c :: rest => (joinUnits rest).map (c :: ·)
  | .inr high :: .inr low :: rest =>
    if high < 0xDC00 && 0xDC00 ≤ low then
      (joinUnits rest).map (Char.ofNat (0x10000 + (high - 0xD800) * 0x400 + (low - 0xDC00)) :: ·)
    else none
  | .inr _ :: _ => none

/-- The string of units written backwards. -/
def stringOfUnits (units : Units) : Option String :=
  (joinUnits units.reverse).map String.ofList

/-- Where the walk over the characters stands. -/
inductive Scan where
  | between
  | word (backwards : List Char)
  | inString (units : Units)
  | escape (units : Units)
  | unicode (units : Units) (digits value : Nat)

/-- The character that a one-letter escape writes. -/
def escaped? : Char → Option Char
  | '"' => some '"'
  | '\\' => some '\\'
  | '/' => some '/'
  | 'b' => some '\x08'
  | 'f' => some '\x0c'
  | 'n' => some '\n'
  | 'r' => some '\r'
  | 't' => some '\t'
  | _ => none

/-- The value of a hexadecimal digit in either case. -/
def hexDigit? (c : Char) : Option Nat :=
  if c.isDigit then some (c.toNat - '0'.toNat)
  else if 'a' ≤ c && c ≤ 'f' then some (c.toNat - 'a'.toNat + 10)
  else if 'A' ≤ c && c ≤ 'F' then some (c.toNat - 'A'.toNat + 10)
  else none

/-- The unit of a code point below `0x10000`. -/
def unitOf (value : Nat) : Char ⊕ Nat :=
  if 0xD800 ≤ value && value < 0xE000 then .inr value else .inl (Char.ofNat value)

/-- The value of a word outside strings. -/
def wordValue? (word : List Char) : Option Json :=
  if word = "null".toList then some .null
  else if word = "true".toList then some (.bool true)
  else if word = "false".toList then some (.bool false)
  else (JsonNumber.read? word).map .number

/-- The token of a mark. -/
def mark? : Char → Option Token
  | '[' => some .openArray
  | ']' => some .closeArray
  | '{' => some .openObject
  | '}' => some .closeObject
  | ',' => some .comma
  | ':' => some .colon
  | _ => none

/-- A blank between tokens. -/
def isSpace (c : Char) : Bool :=
  c = ' ' || c = '\t' || c = '\n' || c = '\r'

/-- One character further: the new place, and the tokens that end here, in order. -/
def scanStep : Scan → Char → Option (Scan × List Token)
  | .between, c =>
    if isSpace c then some (.between, [])
    else if c = '"' then some (.inString [], [])
    else
      match mark? c with
      | some token => some (.between, [token])
      | none => some (.word [c], [])
  | .word backwards, c =>
    if isSpace c then (wordValue? backwards.reverse).map fun v => (.between, [.value v])
    else if c = '"' then (wordValue? backwards.reverse).map fun v => (.inString [], [.value v])
    else
      match mark? c with
      | some token => (wordValue? backwards.reverse).map fun v => (.between, [.value v, token])
      | none => some (.word (c :: backwards), [])
  | .inString units, c =>
    if c = '"' then some (.between, [.value (.string (stringOfUnits units))])
    else if c = '\\' then some (.escape units, [])
    else if c.toNat < 0x20 then none
    else some (.inString (.inl c :: units), [])
  | .escape units, c =>
    if c = 'u' then some (.unicode units 0 0, [])
    else (escaped? c).map fun e => (.inString (.inl e :: units), [])
  | .unicode units digits value, c =>
    (hexDigit? c).map fun d =>
      let value := 16 * value + d
      if digits = 3 then (.inString (unitOf value :: units), []) else (.unicode units (digits + 1) value, [])

/-- The tokens of a text from a given place on. -/
def tokens? : Scan → List Char → Option (List Token)
  | .between, [] => some []
  | .word backwards, [] => (wordValue? backwards.reverse).map fun v => [.value v]
  | _, [] => none
  | scan, c :: rest =>
    match scanStep scan c with
    | none => none
    | some (scan, found) => (tokens? scan rest).map (found ++ ·)

/-- An array or object that is still open, its contents written backwards. -/
inductive Frame where
  | array (items : List Json)
  | object (fields : List (Option String × Json)) (key : Option String)

/-- What may come next. -/
inductive Expect where
  | value
  | firstItem
  | firstKey
  | key
  | colon
  | next
  | nothing
deriving DecidableEq

/-- The state of building a value. -/
structure Build where
  frames : List Frame
  expect : Expect
  result : Option Json

/-- The state in which a text begins. -/
def Build.start : Build := ⟨[], .value, none⟩

/-- Put a finished value where it belongs. -/
def place (value : Json) : List Frame → Build
  | [] => ⟨[], .nothing, some value⟩
  | .array items :: frames => ⟨.array (value :: items) :: frames, .next, none⟩
  | .object fields key :: frames => ⟨.object ((key, value) :: fields) none :: frames, .next, none⟩

/-- One token further. -/
def buildStep (state : Build) (token : Token) : Option Build :=
  let wantsValue := state.expect = .value || state.expect = .firstItem
  match token, state.frames with
  | .value (.string text), frames =>
    if wantsValue then some (place (.string text) frames)
    else
      match state.expect, frames with
      | .firstKey, .object fields _ :: rest => some ⟨.object fields text :: rest, .colon, none⟩
      | .key, .object fields _ :: rest => some ⟨.object fields text :: rest, .colon, none⟩
      | _, _ => none
  | .value json, frames => if wantsValue then some (place json frames) else none
  | .openArray, frames => if wantsValue then some ⟨.array [] :: frames, .firstItem, none⟩ else none
  | .openObject, frames =>
    if wantsValue then some ⟨.object [] none :: frames, .firstKey, none⟩ else none
  | .closeArray, .array items :: frames =>
    if state.expect = .firstItem || state.expect = .next then
      some (place (.array items.reverse) frames)
    else none
  | .closeObject, .object fields _ :: frames =>
    if state.expect = .firstKey || state.expect = .next then
      some (place (.object fields.reverse) frames)
    else none
  | .comma, .array items :: frames =>
    if state.expect = .next then some ⟨.array items :: frames, .value, none⟩ else none
  | .comma, .object fields key :: frames =>
    if state.expect = .next then some ⟨.object fields key :: frames, .key, none⟩ else none
  | .colon, frames => if state.expect = .colon then some ⟨frames, .value, none⟩ else none
  | _, _ => none

/-- Read a text that holds one value and nothing else. -/
def read? (text : String) : Option Json :=
  (tokens? .between text.toList).bind fun tokens =>
    (tokens.foldlM buildStep Build.start).bind Build.result

end Json

end HttpRouting
