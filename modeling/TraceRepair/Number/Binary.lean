namespace TraceRepair.Number

/-- The number `significand * 2 ^ exponent`. -/
structure Magnitude where
  significand : Nat
  exponent : Int

def isNegative (x : Float) : Bool := x.toBits >>> 63 == 1

def isZero (x : Float) : Bool := x.toBits <<< 1 == 0

/-- Equality of numbers, in which the two zeros are one number and so is what is not a number. -/
def sameNumber (x y : Float) : Bool := x.toBits == y.toBits || isZero x && isZero y

def leadingBit : Nat := 0x10000000000000

/-- The absolute value; none for infinities and for what is not a number. -/
def magnitude? (x : Float) : Option Magnitude :=
  let bits := x.toBits.toNat
  let biased : Nat := bits / leadingBit % 2048
  let fraction : Nat := bits % leadingBit
  if biased = 2047 then none
  else if biased = 0 then some ⟨fraction, -1074⟩
  else some ⟨leadingBit + fraction, (biased : Int) - 1075⟩

def Magnitude.scaled (m : Magnitude) (places : Int) : Nat × Nat :=
  (m.significand * Nat.pow 2 m.exponent.toNat * Nat.pow 10 places.toNat,
    Nat.pow 2 (-m.exponent).toNat * Nat.pow 10 (-places).toNat)

/-- The remainder of the division that rounds its quotient toward zero; it is exact, and it has the
sign of the dividend even when it is zero. -/
def remainder (x y : Float) : Float :=
  if x.isNaN || y.isNaN || x.isInf || isZero y then 0.0 / 0.0
  else
    match magnitude? x, magnitude? y with
    | some a, some b =>
      let low := min a.exponent b.exponent
      let rest := (a.significand * Nat.pow 2 (a.exponent - low).toNat)
        % (b.significand * Nat.pow 2 (b.exponent - low).toNat)
      let size := (Float.ofNat rest).scaleB low
      if isNegative x then -size else size
    | _, _ => x

end TraceRepair.Number
