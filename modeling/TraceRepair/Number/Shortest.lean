import TraceRepair.Number.Rounded

namespace TraceRepair.Number

structure Digits where
  value : Nat
  power : Int

namespace Digits

def trimmed (d : Digits) : Digits :=
  if d.value = 0 then d
  else
    let ds := digits d.value
    let count := (ds.reverse.takeWhile (· = '0')).length
    ⟨d.value / Nat.pow 10 count, d.power + count⟩

end Digits

inductive Tie where
  | up | toEven
deriving DecidableEq, Repr

def Tie.goesUp (tie : Tie) (quotient : Nat) : Bool :=
  match tie with
  | .up => true
  | .toEven => quotient % 2 == 1

/-- Where a magnitude lies among the multiples of a power of ten: at or above the `quotient`-th, and
`exact` when it is that one. Those from the `low`-th to the `high`-th read back. -/
structure Surroundings where
  quotient : Nat
  exact : Bool
  low : Nat
  high : Nat

def ceilDiv (n d : Nat) : Nat := (n + d - 1) / d

/-- What reads back lies up to half way to the neighbours of `m` among the doubles. The one below is
nearer when `m` is the first of its power of two, and the ends belong to `m` when its significand is
even. All is counted in quarters of the last bit. -/
def Magnitude.surroundings (m : Magnitude) (power : Int) : Surroundings :=
  let (quarter, whole) := (⟨1, m.exponent - 2⟩ : Magnitude).scaled (-power)
  let own := 4 * m.significand * quarter
  let least := own - (if m.significand = leadingBit then 1 else 2) * quarter
  let most := own + 2 * quarter
  let closed : Bool := m.significand % 2 = 0
  { quotient := own / whole
    exact := own % whole = 0
    low := if closed then ceilDiv least whole else least / whole + 1
    high := if closed then most / whole else ceilDiv most whole - 1 }

namespace Surroundings

def holds (s : Surroundings) (n : Nat) : Bool := s.low ≤ n && n ≤ s.high

/-- The neighbours of the magnitude among the multiples of an even step: the nearer of those that
read back, if there are any. -/
def candidate? (s : Surroundings) (tie : Tie) (step : Nat) : Option Nat :=
  let down := s.quotient / step * step
  let up := down + step
  match s.holds down, s.holds up with
  | true, true =>
    let twice := 2 * (s.quotient - down)
    let goesUp := step < twice || twice == step && (!s.exact || tie.goesUp (s.quotient / step))
    some (if goesUp then up else down)
  | true, false => some down
  | false, true => some up
  | false, false => none

def coarsest (s : Surroundings) (tie : Tie) : Nat → Nat
  | 0 => s.quotient
  | zeros + 1 =>
    match s.candidate? tie (Nat.pow 10 (zeros + 1)) with
    | some n => n
    | none => s.coarsest tie zeros

end Surroundings

/-- Seventeen digits are always enough; one more makes room to tell which of two is nearer. -/
def Magnitude.shortest (m : Magnitude) (tie : Tie) : Digits :=
  if m.significand = 0 then ⟨0, 0⟩
  else
    let power := m.place - 18
    (⟨(m.surroundings power).coarsest tie 17, power⟩ : Digits).trimmed

namespace Digits

def positional (d : Digits) : List Char :=
  match d.power with
  | .ofNat n => if d.value = 0 then ['0'] else digits d.value ++ zeros n
  | .negSucc n => withPoint (digits d.value) (n + 1)

end Digits

def signed (x : Float) (body : List Char) : List Char := if isNegative x then '-' :: body else body

/-- The text of a double: `NaN`, `inf`, or its shortest digits without an exponent. A number half
way between two of these goes up. -/
def floatText (x : Float) : String :=
  String.ofList <|
    if x.isNaN then "NaN".toList
    else
      match magnitude? x with
      | none => signed x "inf".toList
      | some m => signed x (m.shortest .up).positional

/-- Written with a point or an exponent, so that it cannot be taken for a whole number; the exponent
comes in for numbers of more than sixteen digits and those below a hundred-thousandth. A number half
way between two shortest decimals goes to the even one. -/
def markedFloatText (x : Float) : String :=
  String.ofList <|
    if x.isNaN then "NaN".toList
    else
      match magnitude? x with
      | none => signed x "inf".toList
      | some m =>
        let d := m.shortest .toEven
        let ds := digits d.value
        let place : Int := ds.length + d.power
        signed x <|
          if d.value = 0 then "0.0".toList
          else if 0 ≤ d.power ∧ place ≤ 16 then d.positional ++ ".0".toList
          else if -5 < place ∧ place ≤ 16 then d.positional
          else
            let exponent := place - 1
            let mantissa := if ds.length = 1 then ds else ds.take 1 ++ '.' :: ds.drop 1
            mantissa ++ 'e' :: (if exponent < 0 then '-' else '+') :: digits exponent.natAbs

end TraceRepair.Number
