import HttpRouting.Json.Basic

/-!
Writing JSON without blanks.  Fields are written in their order; `sorted` puts the fields of every
object into the order of their names first, where of several fields of one name the last counts.
-/

set_option autoImplicit false
set_option relaxedAutoImplicit false

namespace HttpRouting.Json

/-- A small hexadecimal digit. -/
def smallHexDigit (value : Nat) : Char :=
  if value < 10 then Char.ofNat ('0'.toNat + value) else Char.ofNat ('a'.toNat + (value - 10))

/-- The text of one character inside a string. -/
def escape (c : Char) : List Char :=
  if c = '"' then ['\\', '"']
  else if c = '\\' then ['\\', '\\']
  else if c = '\x08' then ['\\', 'b']
  else if c = '\t' then ['\\', 't']
  else if c = '\n' then ['\\', 'n']
  else if c = '\x0c' then ['\\', 'f']
  else if c = '\r' then ['\\', 'r']
  else if c.toNat < 0x20 then
    ['\\', 'u', '0', '0', smallHexDigit (c.toNat / 16), smallHexDigit (c.toNat % 16)]
  else [c]

/-- A string in quotes. -/
def quote (text : String) : List Char :=
  '"' :: (text.toList.flatMap escape ++ ['"'])

mutual

/-- The characters of a value. -/
def chars : Json → List Char
  | .null => "null".toList
  | .bool true => "true".toList
  | .bool false => "false".toList
  | .number n => n.text
  | .string text => quote (text.getD "")
  | .array items => '[' :: (itemsChars items ++ [']'])
  | .object fields => '{' :: (fieldsChars fields ++ ['}'])

/-- The items of an array joined by commas. -/
def itemsChars : List Json → List Char
  | [] => []
  | [item] => chars item
  | item :: rest => chars item ++ ',' :: itemsChars rest

/-- The fields of an object joined by commas. -/
def fieldsChars : List (Option String × Json) → List Char
  | [] => []
  | [field] => fieldChars field
  | field :: rest => fieldChars field ++ ',' :: fieldsChars rest

/-- A field of an object. -/
def fieldChars : Option String × Json → List Char
  | (name, value) => quote (name.getD "") ++ ':' :: chars value

end

/-- The text of a value. -/
def write (json : Json) : String :=
  String.ofList json.chars

/-- Keep the last of neighbouring fields with one name. -/
def keepLast : List (Option String × Json) → List (Option String × Json)
  | [] => []
  | [field] => [field]
  | field :: next :: rest =>
    if field.1 = next.1 then keepLast (next :: rest) else field :: keepLast (next :: rest)

/-- Fields in the order of their names. -/
def sortFields (fields : List (Option String × Json)) : List (Option String × Json) :=
  keepLast (Sorting.sortBy (fun a b => compare (a.1.getD "") (b.1.getD "")) fields)

mutual

/-- The same value with the fields of every object in the order of their names. -/
def sorted : Json → Json
  | .array items => .array (sortedItems items)
  | .object fields => .object (sortFields (sortedFields fields))
  | other => other

/-- The items of an array, each with sorted fields. -/
def sortedItems : List Json → List Json
  | [] => []
  | item :: rest => sorted item :: sortedItems rest

/-- The fields of an object, each with a sorted value. -/
def sortedFields : List (Option String × Json) → List (Option String × Json)
  | [] => []
  | field :: rest => sortedField field :: sortedFields rest

/-- A field with a sorted value. -/
def sortedField : Option String × Json → Option String × Json
  | (name, value) => (name, sorted value)

end

mutual

/-- Whether a value fits a number of levels: every string is a text, every number lies in the range
of doubles, and arrays and objects are nested no deeper. -/
def fits (levels : Nat) : Json → Bool
  | .number n => n.inRange
  | .string text => text.isSome
  | .array items => 0 < levels && itemsFit (levels - 1) items
  | .object fields => 0 < levels && fieldsFit (levels - 1) fields
  | _ => true

/-- Whether all items fit. -/
def itemsFit (levels : Nat) : List Json → Bool
  | [] => true
  | item :: rest => fits levels item && itemsFit levels rest

/-- Whether all fields fit. -/
def fieldsFit (levels : Nat) : List (Option String × Json) → Bool
  | [] => true
  | field :: rest => fieldFits levels field && fieldsFit levels rest

/-- Whether a field fits. -/
def fieldFits (levels : Nat) : Option String × Json → Bool
  | (name, value) => name.isSome && fits levels value

end

/-- The deepest nesting that is read as a value. -/
def depthLimit : Nat := 127

/-- Whether a value can be taken as data. -/
def isData (json : Json) : Bool :=
  json.fits depthLimit

end HttpRouting.Json
