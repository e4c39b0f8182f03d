/-!
Binary floating formats in exact arithmetic.  A magnitude is written by its bits without the sign:
the exponent field followed by the significand, so that the order of magnitudes is the order of
their bits.  `round` picks the magnitude nearest to a quotient, an exact half going to the even one.
-/

set_option autoImplicit false
set_option relaxedAutoImplicit false

namespace HttpRouting

/-- A binary format: how many significand bits it has, how far below one its least unit lies
(`2 ^ -depth`), and the bits of infinity. -/
structure BinaryFormat where
  precision : Nat
  depth : Nat
  infinity : Nat

namespace BinaryFormat

/-- The single-precision format. -/
def single : BinaryFormat := ⟨24, 149, 0x7F800000⟩

/-- The double-precision format. -/
def double : BinaryFormat := ⟨53, 1074, 0x7FF0000000000000⟩

/-- The whole number nearest to a quotient, an exact half going to the even neighbour. -/
def nearest (numerator denominator : Nat) : Nat :=
  let quotient := numerator / denominator
  let twice := 2 * (numerator % denominator)
  if twice < denominator then quotient
  else if denominator < twice then quotient + 1
  else quotient + quotient % 2

/-- The greatest `e` with `2 ^ e` at most the quotient of two positive numbers. -/
def floorLog2 (numerator denominator : Nat) : Int :=
  let guess : Int := (numerator.log2 : Int) - denominator.log2
  let reached :=
    if 0 ≤ guess then denominator <<< guess.toNat ≤ numerator
    else denominator ≤ numerator <<< (-guess).toNat
  if reached then guess else guess - 1

/-- The bits of the magnitude nearest to a quotient; too large a quotient gives infinity. -/
def round (format : BinaryFormat) (numerator denominator : Nat) : Nat :=
  if numerator = 0 then 0
  else
    let unit : Int :=
      max (floorLog2 numerator denominator - (format.precision - 1 : Nat)) (-(format.depth : Int))
    let significand :=
      if 0 ≤ unit then nearest numerator (denominator <<< unit.toNat)
      else nearest (numerator <<< (-unit).toNat) denominator
    min ((unit + format.depth).toNat <<< (format.precision - 1) + significand) format.infinity

/-- The significand of a finite magnitude and the power of two that it counts, given as its
distance above the least unit. -/
def decode (format : BinaryFormat) (bits : Nat) : Nat × Nat :=
  let lead := 1 <<< (format.precision - 1)
  if bits < lead then (bits, 0) else (lead + bits % lead, bits / lead - 1)

/-- A finite magnitude as a quotient. -/
def toQuotient (format : BinaryFormat) (bits : Nat) : Nat × Nat :=
  let (significand, shift) := format.decode bits
  (significand <<< shift, 1 <<< format.depth)

end BinaryFormat

end HttpRouting
