/-!
Cutting texts: once at a separator, at the last occurrence of a character, or by taking a known
beginning or ending away.  Also the two case maps, which change ASCII letters only.
-/

set_option autoImplicit false
set_option relaxedAutoImplicit false

namespace HttpRouting.Text

/-- Cut at the first occurrence of a separator: the text before it and the text behind it. -/
def splitOnce? (separator : List Char) : List Char → Option (List Char × List Char)
  | [] => if separator.isEmpty then some ([], []) else none
  | c :: rest =>
    match separator.isPrefixOf? (c :: rest) with
    | some behind => some ([], behind)
    | none => (splitOnce? separator rest).map fun (before, behind) => (c :: before, behind)

/-- The text behind the last occurrence of a character. -/
def afterLast? (mark : Char) : List Char → Option (List Char)
  | [] => none
  | c :: rest =>
    match afterLast? mark rest with
    | some behind => some behind
    | none => if c = mark then some rest else none

/-- The text before the first occurrence of a character, or the whole text without one. -/
def upTo (mark : Char) (text : List Char) : List Char :=
  text.takeWhile (· != mark)

/-- The text without a known ending. -/
def withoutEnd? (ending text : List Char) : Option (List Char) :=
  (ending.reverse.isPrefixOf? text.reverse).map List.reverse

/-- The text without any occurrence of a character at its end. -/
def dropTrailing (mark : Char) (text : List Char) : List Char :=
  (text.reverse.dropWhile (· == mark)).reverse

/-- The text without any occurrence of a character at either end. -/
def stripMark (mark : Char) (text : List Char) : List Char :=
  dropTrailing mark (text.dropWhile (· == mark))

/-- The same text with its ASCII capitals made small. -/
def lower (text : String) : String :=
  String.ofList (text.toList.map Char.toLower)

/-- The same text with its small ASCII letters made capital. -/
def upper (text : String) : String :=
  String.ofList (text.toList.map Char.toUpper)

/-- Two texts agree up to the case of ASCII letters. -/
def sameIgnoringCase (a b : String) : Bool :=
  lower a == lower b

end HttpRouting.Text
