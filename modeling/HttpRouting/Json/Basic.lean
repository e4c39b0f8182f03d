import HttpRouting.Binary.Shortest
import HttpRouting.Sorting

/-!
JSON values as a text writes them: numbers keep their digits, objects keep the order of their
fields and fields of one name, and a string is missing when its escapes write half of a surrogate
pair, which no text can hold.
-/

set_option autoImplicit false
set_option relaxedAutoImplicit false

namespace HttpRouting

/-- A number by its digits; the power of ten comes with the flag of its minus sign. -/
structure JsonNumber where
  negative : Bool
  whole : List Char
  fraction : Option (List Char)
  exponent : Option (Bool × List Char)
deriving DecidableEq, Repr

/-- A JSON value. -/
inductive Json where
  | null
  | bool (value : Bool)
  | number (value : JsonNumber)
  | string (text : Option String)
  | array (items : List Json)
  | object (fields : List (Option String × Json))

namespace JsonNumber

/-- The value of a run of decimal digits. -/
def digitsValue (digits : List Char) : Nat :=
  digits.foldl (fun value c => 10 * value + (c.toNat - '0'.toNat)) 0

/-- The number of a natural number. -/
def ofNat (n : Nat) : JsonNumber :=
  ⟨false, Decimal.digitText n, none, none⟩

/-- The natural number that plain digits write. -/
def toNat? (n : JsonNumber) : Option Nat :=
  if n.negative || n.fraction.isSome || n.exponent.isSome then none else some (digitsValue n.whole)

/-- The greatest number that a significand holds. -/
def significandLimit : Nat := UInt64.size

/-- Read digits into a significand until the next one would not fit; the digits left over remain. -/
def takeSignificand (significand : Nat) : List Char → Nat × List Char
  | [] => (significand, [])
  | c :: rest =>
    let next := 10 * significand + (c.toNat - '0'.toNat)
    if next < significandLimit then takeSignificand next rest else (significand, c :: rest)

/-- The significand and the power of ten that a number comes down to.  Digits that do not fit are
dropped; those of the whole part still count in the power. -/
def scaled (n : JsonNumber) : Nat × Int :=
  let (whole, dropped) := takeSignificand 0 n.whole
  let fraction := n.fraction.getD []
  let (significand, unused) := takeSignificand whole fraction
  let shift : Int := dropped.length - (fraction.length - unused.length : Nat)
  let power : Int :=
    match n.exponent with
    | none => 0
    | some (negative, digits) => if negative then -(digitsValue digits : Int) else digitsValue digits
  (significand, shift + power)

/-- The product or quotient of a double and a power of ten, each rounded; none beyond the range. -/
def scaleDouble? (significand : Nat) (power : Int) : Option Nat :=
  let format := BinaryFormat.double
  let start := format.round significand 1
  if start = 0 then some 0
  else if 0 ≤ power then
    if 308 < power then none
    else
      let (n, d) := format.toQuotient start
      let (pn, pd) := format.toQuotient (format.round (Nat.pow 10 power.toNat) 1)
      let bits := format.round (n * pn) (d * pd)
      if bits = format.infinity then none else some bits
  else some (divide start (-power).toNat 4)
where
  /-- Divide by a power of ten, by steps of at most 308; the fuel bounds the steps that leave a
  number above zero. -/
  divide (bits : Nat) (power : Nat) : Nat → Nat
    | 0 => 0
    | fuel + 1 =>
      let format := BinaryFormat.double
      let step := min power 308
      let (n, d) := format.toQuotient bits
      let (pn, pd) := format.toQuotient (format.round (Nat.pow 10 step) 1)
      let quotient := format.round (n * pd) (d * pn)
      if power ≤ 308 then quotient else divide quotient (power - 308) fuel

/-- The magnitude of a number as a double; none beyond the range. -/
def double? (n : JsonNumber) : Option Nat :=
  let (significand, power) := n.scaled
  scaleDouble? significand power

/-- Whether a number is written without point and power and fits 64 bits, with or without sign. -/
def isWord (n : JsonNumber) : Bool :=
  n.fraction.isNone && n.exponent.isNone &&
    (if n.negative then 0 < digitsValue n.whole && digitsValue n.whole ≤ UInt64.size / 2
     else digitsValue n.whole < UInt64.size)

/-- Whether a number lies within the range of doubles. -/
def inRange (n : JsonNumber) : Bool :=
  n.double?.isSome

/-- The text of a number: a word by its digits, any other number as the shortest decimal of its
double. -/
def text (n : JsonNumber) : List Char :=
  let sign := if n.negative then ['-'] else []
  if n.isWord then sign ++ n.whole
  else
    match n.double? with
    | none => "null".toList
    | some 0 => sign ++ "0.0".toList
    | some bits => sign ++ (BinaryFormat.double.shortest bits).toText

end JsonNumber

namespace Json

/-- A string of a text. -/
def ofString (text : String) : Json := .string (some text)

/-- A natural number. -/
def ofNat (n : Nat) : Json := .number (.ofNat n)

/-- An integer. -/
def ofInt (n : Int) : Json := .number { JsonNumber.ofNat n.natAbs with negative := n < 0 }

/-- A list of strings. -/
def ofStrings (texts : List String) : Json := .array (texts.map ofString)

/-- An object of named fields. -/
def ofFields (fields : List (String × Json)) : Json :=
  .object (fields.map fun (name, value) => (some name, value))

/-- A value, or null. -/
def ofOption {α : Type} (encode : α → Json) : Option α → Json
  | some value => encode value
  | none => .null

/-- The text of a string. -/
def string? : Json → Option String
  | .string text => text
  | _ => none

/-- The truth value. -/
def bool? : Json → Option Bool
  | .bool value => some value
  | _ => none

/-- The items of an array. -/
def array? : Json → Option (List Json)
  | .array items => some items
  | _ => none

/-- The natural number below a bound. -/
def natBelow? (bound : Nat) : Json → Option Nat
  | .number n => n.toNat?.filter (· < bound)
  | _ => none

/-- The texts of an array of strings. -/
def strings? (json : Json) : Option (List String) :=
  json.array?.bind fun items => items.mapM string?

/-- The last field of a name. -/
def field? (name : String) : Json → Option Json
  | .object fields => fields.reverse.lookup (some name)
  | _ => none

end Json

end HttpRouting
