import HttpRouting.Binary.Basic

/-!
The shortest decimal that reads back as a given magnitude, and its text.  Grids of powers of ten
are tried from the coarsest one down; on each grid only the two neighbours of the value can be
nearest, and the first grid with a neighbour that rounds to the value gives the digits.
-/

set_option autoImplicit false
set_option relaxedAutoImplicit false

namespace HttpRouting

/-- A decimal number `digits * 10 ^ exponent`. -/
structure Decimal where
  digits : Nat
  exponent : Int
deriving Repr, DecidableEq

namespace Decimal

/-- The decimal digits of a number. -/
def digitText (n : Nat) : List Char :=
  Nat.toDigits 10 n

/-- Move zeros at the end of the digits into the exponent; the fuel bounds their number. -/
def normalized (fuel : Nat) (d : Decimal) : Decimal :=
  match fuel with
  | 0 => d
  | fuel + 1 =>
    if d.digits ≠ 0 && d.digits % 10 = 0 then normalized fuel ⟨d.digits / 10, d.exponent + 1⟩ else d

/-- The decimal as a quotient. -/
def toQuotient (d : Decimal) : Nat × Nat :=
  if 0 ≤ d.exponent then (d.digits * Nat.pow 10 d.exponent.toNat, 1)
  else (d.digits, Nat.pow 10 (-d.exponent).toNat)

/-- Positional text with at least one place behind the point when the point falls within sixteen
digits or at most five places before them, and otherwise one digit, a fraction if there is more,
and a power of ten with its sign. -/
def toText (d : Decimal) : List Char :=
  let digits := digitText d.digits
  let point : Int := digits.length + d.exponent
  if 0 ≤ d.exponent && point ≤ 16 then
    digits ++ List.replicate d.exponent.toNat '0' ++ ['.', '0']
  else if 0 < point && point ≤ 16 then
    digits.take point.toNat ++ '.' :: digits.drop point.toNat
  else if -5 < point && point ≤ 0 then
    '0' :: '.' :: (List.replicate (-point).toNat '0' ++ digits)
  else
    let fraction := if digits.length = 1 then [] else '.' :: digits.drop 1
    let power := point - 1
    let sign := if power < 0 then '-' else '+'
    digits.take 1 ++ fraction ++ 'e' :: sign :: digitText power.natAbs

end Decimal

namespace BinaryFormat

/-- The first grid, from a power of ten downwards, on which a neighbour of the value reads back. -/
def shortestFrom (format : BinaryFormat) (bits : Nat) (numerator denominator : Nat) :
    Nat → Int → Decimal
  | 0, exponent => ⟨0, exponent⟩
  | fuel + 1, exponent =>
    let (scaledNumerator, scaledDenominator) :=
      if 0 ≤ exponent then (numerator, denominator * Nat.pow 10 exponent.toNat)
      else (numerator * Nat.pow 10 (-exponent).toNat, denominator)
    let below := scaledNumerator / scaledDenominator
    let readsBack := fun digits =>
      let (n, d) := (Decimal.mk digits exponent).toQuotient
      digits ≠ 0 && format.round n d = bits
    let nearer := nearest scaledNumerator scaledDenominator
    let further := if nearer = below then below + 1 else below
    if readsBack nearer then ⟨nearer, exponent⟩
    else if readsBack further then ⟨further, exponent⟩
    else shortestFrom format bits numerator denominator fuel (exponent - 1)

/-- The decimal with the fewest digits that rounds to a positive finite magnitude. -/
def shortest (format : BinaryFormat) (bits : Nat) : Decimal :=
  let (numerator, denominator) := format.toQuotient bits
  let top : Int := floorLog2 numerator denominator * 30103 / 100000 + 1
  (shortestFrom format bits numerator denominator 24 top).normalized 400

end BinaryFormat

end HttpRouting
