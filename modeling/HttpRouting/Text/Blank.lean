/-!
Blank characters and trimming.  A character is blank when it has the Unicode property
`White_Space`; trimming removes blanks from the ends of a text and touches nothing inside it.
-/

set_option autoImplicit false
set_option relaxedAutoImplicit false

namespace HttpRouting.Text

/-- The ranges of the Unicode property `White_Space`, first and last code point included. -/
def blankRanges : List (Nat × Nat) :=
  [(0x9, 0xD), (0x20, 0x20), (0x85, 0x85), (0xA0, 0xA0), (0x1680, 0x1680), (0x2000, 0x200A),
    (0x2028, 0x2029), (0x202F, 0x202F), (0x205F, 0x205F), (0x3000, 0x3000)]

/-- A blank character lies in one of the `White_Space` ranges. -/
def isBlank (c : Char) : Bool :=
  blankRanges.any fun range => range.1 ≤ c.toNat && c.toNat ≤ range.2

/-- Drop the blanks at the start. -/
def trimStart (text : List Char) : List Char :=
  text.dropWhile isBlank

/-- Drop the blanks at the end. -/
def trimEnd (text : List Char) : List Char :=
  (text.reverse.dropWhile isBlank).reverse

/-- Drop the blanks at both ends. -/
def trim (text : List Char) : List Char :=
  trimEnd (trimStart text)

/-- The text without the blanks at its ends. -/
def trimmed (text : String) : String :=
  String.ofList (trim text.toList)

end HttpRouting.Text
