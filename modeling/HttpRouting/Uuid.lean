import HttpRouting.Text.Percent

/-!
Identifiers of 128 bits.  They are read in the hyphenated, plain, braced and `urn:uuid:` forms and
written hyphenated in small letters.
-/

set_option autoImplicit false
set_option relaxedAutoImplicit false

namespace HttpRouting

/-- An identifier by its thirty-two hexadecimal digits, in small letters. -/
structure Uuid where
  digits : List Char
deriving DecidableEq, Repr

namespace Uuid

/-- Whether a character is a hexadecimal digit in either case. -/
def isHexDigit (c : Char) : Bool :=
  c.isDigit || ('a' ≤ c && c ≤ 'f') || ('A' ≤ c && c ≤ 'F')

/-- The identifier of thirty-two digits. -/
def ofDigits? (digits : List Char) : Option Uuid :=
  if digits.length = 32 && digits.all isHexDigit then some ⟨digits.map Char.toLower⟩ else none

/-- The identifier of groups of 8, 4, 4, 4 and 12 digits joined by hyphens. -/
def ofHyphenated? (text : List Char) : Option Uuid :=
  let groups := text.splitOn '-'
  if groups.map List.length = [8, 4, 4, 4, 12] then ofDigits? groups.flatten else none

/-- The mark of an identifier in its form as a name, in either case. -/
def nameMark : List Char := "urn:uuid:".toList

/-- Read an identifier in any of its forms. -/
def parse? (text : String) : Option Uuid :=
  let chars := text.toList
  match ofDigits? chars with
  | some uuid => some uuid
  | none =>
    match chars with
    | '{' :: rest =>
      match rest.getLast? with
      | some '}' => ofHyphenated? rest.dropLast
      | _ => none
    | _ =>
      if (chars.take nameMark.length).map Char.toLower = nameMark then
        ofHyphenated? (chars.drop nameMark.length)
      else ofHyphenated? chars

/-- The hyphenated form. -/
def text (uuid : Uuid) : String :=
  let d := uuid.digits
  String.ofList (['-'].intercalate
    [d.take 8, (d.drop 8).take 4, (d.drop 12).take 4, (d.drop 16).take 4, d.drop 20])

end Uuid

end HttpRouting
