import HttpRouting.Text.Percent

/-!
Tokens of the protocol: request methods, which are compared as they stand, and header names, which
are written in small letters.
-/

set_option autoImplicit false
set_option relaxedAutoImplicit false

namespace HttpRouting

/-- The marks that a token may hold besides letters and digits. -/
def tokenMarks : List Char :=
  "!#$%&'*+-.^_|~".toList ++ [Char.ofNat 0x60]

/-- A token character is an ASCII letter, a digit or one of the marks. -/
def isTokenChar (c : Char) : Bool :=
  c.isAlphanum || tokenMarks.contains c

/-- A token has at least one character and only token characters. -/
def isToken (text : String) : Bool :=
  !text.toList.isEmpty && text.toList.all isTokenChar

/-- A request method. -/
structure Method where
  name : String
deriving DecidableEq, Repr

namespace Method

/-- Read a method; its name is any token. -/
def parse? (text : String) : Option Method :=
  if isToken text then some ⟨text⟩ else none

def get : Method := ⟨"GET"⟩
def head : Method := ⟨"HEAD"⟩
def post : Method := ⟨"POST"⟩
def options : Method := ⟨"OPTIONS"⟩

/-- The order of the names. -/
def nameOrder (a b : Method) : Ordering :=
  compare a.name b.name

/-- Whether the method only reads a resource. -/
def isGetOrHead (m : Method) : Bool :=
  m == get || m == head

end Method

end HttpRouting
