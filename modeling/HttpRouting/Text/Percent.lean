import HttpRouting.Text.Split

/-!
Percent-decoding.  A percent sign followed by two hexadecimal digits stands for the octet they
write; every other octet stands for itself, a lone percent sign included.
-/

set_option autoImplicit false
set_option relaxedAutoImplicit false

namespace HttpRouting

/-- A sequence of octets. -/
abbrev Bytes := List UInt8

namespace Text

/-- The UTF-8 octets of a text. -/
def utf8 (text : String) : Bytes :=
  text.toUTF8.data.toList

/-- The text whose UTF-8 octets these are, if they are valid. -/
def ofUtf8? (bytes : Bytes) : Option String :=
  String.fromUTF8? ⟨bytes.toArray⟩

/-- The value of a hexadecimal digit in either case. -/
def hexValue? (octet : UInt8) : Option UInt8 :=
  if 0x30 ≤ octet && octet ≤ 0x39 then some (octet - 0x30)
  else if 0x41 ≤ octet && octet ≤ 0x46 then some (octet - 0x41 + 10)
  else if 0x61 ≤ octet && octet ≤ 0x66 then some (octet - 0x61 + 10)
  else none

/-- The octet that two hexadecimal digits write. -/
def hexPair? (high low : UInt8) : Option UInt8 :=
  match hexValue? high, hexValue? low with
  | some h, some l => some (h * 16 + l)
  | _, _ => none

/-- Replace every complete escape by its octet. -/
def percentDecode : Bytes → Bytes
  | [] => []
  | [a] => [a]
  | [a, b] => [a, b]
  | a :: b :: c :: rest =>
    if a = 0x25 then
      match hexPair? b c with
      | some octet => octet :: percentDecode rest
      | none => a :: percentDecode (b :: c :: rest)
    else a :: percentDecode (b :: c :: rest)

/-- The decoded text; none when the decoded octets are not UTF-8. -/
def percentDecoded? (text : String) : Option String :=
  ofUtf8? (percentDecode (utf8 text))

/-- A hexadecimal digit, letters small. -/
def hexDigit (value : Nat) : Char :=
  if value < 10 then Char.ofNat (0x30 + value) else Char.ofNat (0x57 + value)

/-- Two small hexadecimal digits for every octet. -/
def hexEncode (bytes : Bytes) : String :=
  String.ofList (bytes.flatMap fun octet => [hexDigit (octet.toNat / 16), hexDigit (octet.toNat % 16)])

/-- Read octets written as pairs of hexadecimal digits. -/
def hexDecode? : Bytes → Option Bytes
  | [] => some []
  | [_] => none
  | high :: low :: rest =>
    match hexPair? high low, hexDecode? rest with
    | some octet, some octets => some (octet :: octets)
    | _, _ => none

end Text

end HttpRouting
