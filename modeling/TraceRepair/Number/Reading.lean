import TraceRepair.Number.Rounded

namespace TraceRepair.Number

/-- More digits than any double or any point halfway between two of them needs. -/
def decisiveDigits : Nat := 800

/-- A row of digits and the power of ten that they are multiplied by, with at most one digit more
than can matter. Where digits are left out, that one says whether all of them are zeros. -/
def significant (ds : List Char) (power : Int) : List Char × Int :=
  let rest := ds.drop decisiveDigits
  if rest.isEmpty then (ds, power)
  else
    let last := if rest.all (· = '0') then '0' else '1'
    (ds.take decisiveDigits ++ [last], power + rest.length - 1)

def binaryPlace (numerator denominator : Nat) : Int :=
  let power : Int := Nat.log2 numerator - Nat.log2 denominator
  if denominator * Nat.pow 2 power.toNat ≤ numerator * Nat.pow 2 (-power).toNat then power
  else power - 1

/-- The bits of infinity, which lie above those of all finite doubles. -/
def infinityBits : Nat := 2047 * leadingBit

/-- The double nearest to a fraction, rounded once. The significand gets 53 bits, or fewer when its
last one would be too small. Where rounding carries into a bit more, it carries into the exponent
that stands in front of it. -/
def nearestRatio (numerator denominator : Nat) : Float :=
  if numerator = 0 then 0.0
  else
    let exponent := max (binaryPlace numerator denominator - 52) (-1074)
    let significand := roundHalfEven (numerator * Nat.pow 2 (-exponent).toNat)
      (denominator * Nat.pow 2 exponent.toNat)
    let bits := (exponent + 1074).toNat * leadingBit + significand
    Float.ofBits (min bits infinityBits).toUInt64

/-- The double nearest to a row of digits times a power of ten. Powers that leave the range at once
are settled without raising ten to them. -/
def nearestFloat (ds : List Char) (power : Int) : Float :=
  let ds := ds.dropWhile (· = '0')
  let place : Int := ds.length + power
  if ds.isEmpty ∨ place < -400 then 0.0
  else if 400 < place then 1.0 / 0.0
  else
    let (ds, power) := significant ds power
    nearestRatio (digitsValue ds * Nat.pow 10 power.toNat) (Nat.pow 10 (-power).toNat)

/-- Exponents from here on count only as far as their leading digits go. -/
def exponentCap : Nat := 0x10000

def readExponent? : List Char → Option Int
  | [] => some 0
  | c :: cs => if c = 'e' || c = 'E' then readInt? exponentCap cs else none

def readUnsignedFloat? (cs : List Char) : Option Float :=
  let lower := cs.map Char.toLower
  if lower = "inf".toList || lower = "infinity".toList then some (1.0 / 0.0)
  else if lower = "nan".toList then some (0.0 / 0.0)
  else
    let whole := cs.takeWhile isDigit
    let rest := cs.dropWhile isDigit
    let (fraction, rest) :=
      match rest with
      | '.' :: rest => (rest.takeWhile isDigit, rest.dropWhile isDigit)
      | rest => ([], rest)
    if whole.isEmpty && fraction.isEmpty then none
    else
      (readExponent? rest).map fun exponent =>
        nearestFloat (whole ++ fraction) (exponent - fraction.length)

/-- Digits with at most one point and an optional exponent, or the names of the infinities and of
what is not a number, after an optional sign. The nearest double is taken, and a half goes to the
even neighbour. -/
def readFloat? (cs : List Char) : Option Float :=
  let (negative, body) := splitSign cs
  (readUnsignedFloat? body).map fun x => if negative then -x else x

end TraceRepair.Number
