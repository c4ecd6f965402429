import TraceRepair.Number.Binary
import TraceRepair.Number.Decimal

namespace TraceRepair.Number

def roundHalfEven (numerator denominator : Nat) : Nat :=
  let quotient := numerator / denominator
  let twice := 2 * (numerator % denominator)
  if twice < denominator then quotient
  else if denominator < twice then quotient + 1
  else if quotient % 2 = 0 then quotient
  else quotient + 1

namespace Magnitude

/-- No double has a digit further behind the point, so places beyond it are zeros. -/
def deepestPlace : Nat := 1074

def reaches (m : Magnitude) (power : Int) : Bool :=
  let (numerator, denominator) := m.scaled (-power)
  denominator ≤ numerator

/-- The exponent of the largest power of ten up to `2 ^ power`. The fraction stands for the
logarithm of two, and is near enough to it for all powers that doubles have. -/
def tenBelowTwo (power : Int) : Int := (power * 78913) / 0x40000

/-- The place of the first digit: `10 ^ (place - 1) ≤ m < 10 ^ place` for a number above zero. -/
def place (m : Magnitude) : Int :=
  let power := tenBelowTwo (Nat.log2 m.significand + m.exponent)
  if m.reaches (power + 1) then power + 2 else power + 1

end Magnitude

def zeros (n : Nat) : List Char := List.replicate n '0'

def withPoint (ds : List Char) (places : Nat) : List Char :=
  if places = 0 then ds
  else
    let ds := zeros (places + 1 - ds.length) ++ ds
    ds.take (ds.length - places) ++ '.' :: ds.drop (ds.length - places)

/-- The exact value is rounded once, and a half goes to the even neighbour. -/
def fixedPlaces (m : Magnitude) (places : Nat) : List Char :=
  let kept := min places Magnitude.deepestPlace
  let (numerator, denominator) := m.scaled kept
  withPoint (digits (roundHalfEven numerator denominator) ++ zeros (places - kept)) places

def scientific (m : Magnitude) (places : Nat) : List Char × Int :=
  if m.significand = 0 then (withPoint (zeros (places + 1)) places, 0)
  else
    let place := m.place
    let kept := min places Magnitude.deepestPlace
    let (numerator, denominator) := m.scaled ((kept : Int) + 1 - place)
    let ds := digits (roundHalfEven numerator denominator)
    let filling := zeros (places - kept)
    if ds.length ≤ kept + 1 then (withPoint (ds ++ filling) places, place - 1)
    else (withPoint (ds.dropLast ++ filling) places, place)

end TraceRepair.Number
