import HttpRouting.Binary.Basic

/-!
Quality values of media types.  A quality is a single-precision number: a sign with a magnitude,
or not a number.  Its text is an optional sign and then digits with at most one point and an
optional power of ten, or one of the words `inf`, `infinity` and `nan` in any case; the value is
the nearest single-precision number.
-/

set_option autoImplicit false
set_option relaxedAutoImplicit false

namespace HttpRouting

/-- A single-precision number; a magnitude is written by its bits without the sign. -/
inductive Quality where
  | number (negative : Bool) (magnitude : Nat)
  | nan
deriving DecidableEq, Repr

namespace Quality

/-- The quality of a media type that names none. -/
def one : Quality := .number false 0x3F800000

/-- A whole number in the order of the numbers; both zeros are zero. -/
def rank? : Quality → Option Int
  | .number negative magnitude => some (if negative then -(magnitude : Int) else magnitude)
  | .nan => none

/-- The numeric order; whatever is not a number is taken as equal to everything. -/
def order (a b : Quality) : Ordering :=
  match a.rank?, b.rank? with
  | some x, some y => compare x y
  | _, _ => .eq

/-- The bits of a number, the sign on top. -/
def bits? : Quality → Option Nat
  | .number negative magnitude => some (if negative then 0x80000000 + magnitude else magnitude)
  | .nan => none

/-- The value of a run of decimal digits. -/
def digitsValue (digits : List Char) : Nat :=
  digits.foldl (fun value c => 10 * value + (c.toNat - '0'.toNat)) 0

/-- Take an optional sign off; the flag tells a minus. -/
def takeSign : List Char → Bool × List Char
  | '+' :: rest => (false, rest)
  | '-' :: rest => (true, rest)
  | rest => (false, rest)

/-- The power of ten at the end of a number, or zero when the text ends before it. -/
def exponent? : List Char → Option Int
  | [] => some 0
  | mark :: rest =>
    if mark = 'e' || mark = 'E' then
      let (negative, digits) := takeSign rest
      if digits.isEmpty || !digits.all Char.isDigit then none
      else some (if negative then -(digitsValue digits : Int) else digitsValue digits)
    else none

/-- The magnitude of a decimal with a power of ten.  Powers far outside the range of the format
are decided by their size alone. -/
def magnitude (digits : List Char) (exponent : Int) : Nat :=
  let significand := digitsValue digits
  let top : Int := digits.length + exponent
  if significand = 0 || top < -60 then 0
  else if (digits.dropWhile (· = '0')).length + exponent > 60 then BinaryFormat.single.infinity
  else if 0 ≤ exponent then BinaryFormat.single.round (significand * Nat.pow 10 exponent.toNat) 1
  else BinaryFormat.single.round significand (Nat.pow 10 (-exponent).toNat)

/-- Read the digits, the point and the power of ten of a number without its sign. -/
def unsigned? (text : List Char) : Option Nat :=
  let whole := text.takeWhile Char.isDigit
  let (fraction, rest) :=
    match text.dropWhile Char.isDigit with
    | '.' :: rest => (rest.takeWhile Char.isDigit, rest.dropWhile Char.isDigit)
    | rest => ([], rest)
  if whole.isEmpty && fraction.isEmpty then none
  else (exponent? rest).map fun exponent => magnitude (whole ++ fraction) (exponent - fraction.length)

/-- Read a quality; none when the text is not a number. -/
def read? (text : List Char) : Option Quality :=
  let (negative, rest) := takeSign text
  let word := String.ofList (rest.map Char.toLower)
  if word = "nan" then some .nan
  else if word = "inf" || word = "infinity" then some (.number negative BinaryFormat.single.infinity)
  else (unsigned? rest).map (.number negative)

end Quality

end HttpRouting
