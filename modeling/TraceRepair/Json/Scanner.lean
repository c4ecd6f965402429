import TraceRepair.Json.Fault
import TraceRepair.Number.Reading

namespace TraceRepair.Json

abbrev Reader := StateT (List Char) (Except Fault)

def isSpace (c : Char) : Bool := c = ' ' || c = '\n' || c = '\t' || c = '\r'

def skipSpace (cs : List Char) : List Char := cs.dropWhile isSpace

def scanWord : List Char → List Char → Except Fault (List Char)
  | [], rest => .ok rest
  | _ :: _, [] => .error (.here .eofValue [])
  | c :: cs, d :: rest =>
    if c = d then scanWord cs rest else .error (.past .expectedIdent (d :: rest))

structure Decimal where
  significand : Nat
  exponent : Int := 0

def Decimal.full : Nat := UInt64.size

/-- The digits of the whole part. Once they would fill 64 bits, further ones only count. -/
def scanWhole (d : Decimal) : List Char → Decimal × List Char
  | [] => (d, [])
  | c :: cs =>
    if Number.isDigit c then
      let grown := 10 * d.significand + Number.digitValue c
      if d.exponent = 0 ∧ grown < Decimal.full then scanWhole { d with significand := grown } cs
      else scanWhole { d with exponent := d.exponent + 1 } cs
    else (d, c :: cs)

/-- The digits behind the point. Once one does not fit, it and all further ones are dropped. -/
def scanFraction (d : Decimal) : List Char → Decimal × List Char
  | [] => (d, [])
  | c :: cs =>
    if Number.isDigit c then
      let grown := 10 * d.significand + Number.digitValue c
      if grown < Decimal.full then scanFraction ⟨grown, d.exponent - 1⟩ cs
      else (d, cs.dropWhile Number.isDigit)
    else (d, c :: cs)

/-- Powers of ten are applied one after the other, each by a single rounded operation. -/
def scaleBy (x : Float) (exponent : Int) : Nat → Option Float
  | 0 => some 0.0
  | fuel + 1 =>
    if exponent.natAbs ≤ 308 then
      let power := Number.nearestRatio (Nat.pow 10 exponent.natAbs) 1
      if exponent < 0 then some (x / power)
      else if (x * power).isInf then none
      else some (x * power)
    else if x == 0.0 then some x
    else if 0 ≤ exponent then none
    else scaleBy (x / 1e308) (exponent + 308) fuel

/-- None for a number beyond the largest double. -/
def Decimal.toFloat? (d : Decimal) : Option Float :=
  scaleBy d.significand.toUInt64.toFloat d.exponent (d.exponent.natAbs / 308 + 2)

/-- An exponent of more digits than anything can have is told by its sign. -/
def hugeExponent : Nat := 0x80000000

def signedReal (negative : Bool) (x : Float) : JsonNumber := .real (if negative then -x else x)

def finishReal (negative : Bool) (d : Decimal) (rest : List Char) :
    Except Fault (JsonNumber × List Char) :=
  match d.toFloat? with
  | some x => .ok (signedReal negative x, rest)
  | none => .error (.here .numberOutOfRange rest)

def scanExponentDigits (n : Nat) : List Char → Option Nat × List Char
  | [] => (some n, [])
  | c :: cs =>
    if Number.isDigit c then
      let grown := 10 * n + Number.digitValue c
      if grown < hugeExponent then scanExponentDigits grown cs else (none, cs)
    else (some n, c :: cs)

def scanExponent (negative : Bool) (d : Decimal) (cs : List Char) :
    Except Fault (JsonNumber × List Char) :=
  let (below, cs) := Number.splitSign cs
  match cs with
  | [] => .error (.here .eofValue [])
  | c :: rest =>
    if Number.isDigit c then
      match scanExponentDigits (Number.digitValue c) rest with
      | (some n, rest) =>
        finishReal negative { d with exponent := if below then d.exponent - n else d.exponent + n }
          rest
      | (none, rest) =>
        if d.significand ≠ 0 ∧ !below then .error (.here .numberOutOfRange rest)
        else .ok (signedReal negative 0.0, rest.dropWhile Number.isDigit)
    else .error (.past .invalidNumber (c :: rest))

def isExponentLetter (c : Char) : Bool := c = 'e' || c = 'E'

def scanDecimal (negative : Bool) (d : Decimal) (cs : List Char) :
    Except Fault (JsonNumber × List Char) :=
  match cs with
  | [] => .error (.past .eofValue [])
  | c :: _ =>
    if !Number.isDigit c then
      .error (.past .invalidNumber cs)
    else
      let (d, rest) := scanFraction d cs
      match rest with
      | e :: rest =>
        if isExponentLetter e then scanExponent negative d rest
        else finishReal negative d (e :: rest)
      | [] => finishReal negative d []

def largestBelowZero : Nat := 0x8000000000000000

/-- A whole number without point or exponent; minus zero and numbers beyond 64 bits are doubles. -/
def wholeNumber (negative : Bool) (d : Decimal) (rest : List Char) :
    Except Fault (JsonNumber × List Char) :=
  if d.exponent ≠ 0 then finishReal negative d rest
  else if !negative then .ok (.natural d.significand, rest)
  else if d.significand = 0 ∨ largestBelowZero < d.significand then
    .ok (.real (-d.significand.toUInt64.toFloat), rest)
  else .ok (.negative (-d.significand), rest)

def scanTail (negative : Bool) (d : Decimal) (rest : List Char) :
    Except Fault (JsonNumber × List Char) :=
  match rest with
  | [] => wholeNumber negative d []
  | c :: cs =>
    if c = '.' then scanDecimal negative d cs
    else if isExponentLetter c then scanExponent negative d cs
    else wholeNumber negative d rest

def startsWithDigit : List Char → Bool
  | c :: _ => Number.isDigit c
  | [] => false

/-- A number behind its sign. A zero in front of other digits is refused. -/
def scanNumber (negative : Bool) (cs : List Char) : Except Fault (JsonNumber × List Char) :=
  match cs with
  | [] => .error (.here .eofValue [])
  | c :: rest =>
    if c = '0' then
      if startsWithDigit rest then .error (.past .invalidNumber rest)
      else scanTail negative ⟨0, 0⟩ rest
    else if Number.isDigit c then
      let (d, rest) := scanWhole ⟨0, 0⟩ cs
      scanTail negative d rest
    else .error (.past .invalidNumber cs)

def passExponent (cs : List Char) : Except Fault (List Char) :=
  match (Number.splitSign cs).2 with
  | [] => .error (.here .invalidNumber [])
  | c :: rest =>
    if Number.isDigit c then .ok (rest.dropWhile Number.isDigit)
    else .error (.past .invalidNumber (c :: rest))

def passFraction (cs : List Char) : Except Fault (List Char) :=
  if !startsWithDigit cs then .error (.past .invalidNumber cs)
  else
    match cs.dropWhile Number.isDigit with
    | [] => .ok []
    | c :: rest => if isExponentLetter c then passExponent rest else .ok (c :: rest)

def passNumberTail : List Char → Except Fault (List Char)
  | [] => .ok []
  | c :: rest =>
    if c = '.' then passFraction rest
    else if isExponentLetter c then passExponent rest
    else .ok (c :: rest)

def passNumber (cs : List Char) : Except Fault (List Char) :=
  match cs with
  | [] => .error (.here .invalidNumber [])
  | c :: rest =>
    if c = '0' then
      if startsWithDigit rest then .error (.past .invalidNumber rest) else passNumberTail rest
    else if Number.isDigit c then passNumberTail (rest.dropWhile Number.isDigit)
    else .error (.past .invalidNumber cs)

def hexValue? (c : Char) : Option Nat :=
  if Number.isDigit c then some (Number.digitValue c)
  else if 'a' ≤ c ∧ c ≤ 'f' then some (c.toNat - 'a'.toNat + 10)
  else if 'A' ≤ c ∧ c ≤ 'F' then some (c.toNat - 'A'.toNat + 10)
  else none

def hexNumber? (a b c d : Char) : Option Nat := do
  return 4096 * (← hexValue? a) + 256 * (← hexValue? b) + 16 * (← hexValue? c) + (← hexValue? d)

/-- Four bytes that are not four digits are taken before they are refused. -/
def hexFault (cs : List Char) : Fault :=
  let bytes := byteCount cs
  if bytes < 4 then ⟨.eofString, .left 0⟩ else ⟨.invalidEscape, .left (bytes - 4)⟩

def isHighSurrogate (n : Nat) : Bool := 0xD800 ≤ n && n < 0xDC00

def isLowSurrogate (n : Nat) : Bool := 0xDC00 ≤ n && n < 0xE000

def simpleEscape? (c : Char) : Option Char :=
  match c with
  | '"' => some '"'
  | '\\' => some '\\'
  | '/' => some '/'
  | 'b' => some '\x08'
  | 'f' => some '\x0c'
  | 'n' => some '\n'
  | 'r' => some '\r'
  | 't' => some '\t'
  | _ => none

def surrogateFault : List Char → Fault
  | [] => .here .eofString []
  | '\\' :: [] => .here .eofString []
  | '\\' :: 'u' :: cs =>
    match cs with
    | a :: b :: c :: d :: rest =>
      if (hexNumber? a b c d).isSome then .here .loneSurrogate rest else hexFault cs
    | _ => hexFault cs
  | '\\' :: cs => .past .unfinishedSurrogate cs
  | cs => .past .unfinishedSurrogate cs

/-- A text behind its opening quote; `taken` holds its characters so far, latest first. Characters
beyond 16 bits are written as two surrogates, which may not stand alone. -/
def scanString (taken : List Char) : List Char → Except Fault (String × List Char)
  | [] => .error (.here .eofString [])
  | '"' :: rest => .ok (String.ofList taken.reverse, rest)
  | '\\' :: 'u' :: a :: b :: c :: d :: rest =>
    match hexNumber? a b c d with
    | none => .error (hexFault (a :: b :: c :: d :: rest))
    | some n =>
      if isLowSurrogate n then .error (.here .loneSurrogate rest)
      else if isHighSurrogate n then
        match rest with
        | '\\' :: 'u' :: a :: b :: c :: d :: rest' =>
          match hexNumber? a b c d with
          | none => .error (surrogateFault rest)
          | some m =>
            if isLowSurrogate m then
              scanString (Char.ofNat (0x10000 + 1024 * (n - 0xD800) + (m - 0xDC00)) :: taken) rest'
            else .error (surrogateFault rest)
        | _ => .error (surrogateFault rest)
      else scanString (Char.ofNat n :: taken) rest
  | '\\' :: 'u' :: rest => .error (hexFault rest)
  | ['\\'] => .error (.here .eofString [])
  | '\\' :: c :: rest =>
    match simpleEscape? c with
    | some e => scanString (e :: taken) rest
    | none => .error (.past .invalidEscape (c :: rest))
  | c :: rest =>
    if c.toNat < 0x20 then .error (.past .controlCharacter (c :: rest))
    else scanString (c :: taken) rest

/-- Gets past a text behind its opening quote; surrogates may stand as they like. -/
def passString : List Char → Except Fault (List Char)
  | [] => .error (.here .eofString [])
  | '"' :: rest => .ok rest
  | '\\' :: 'u' :: a :: b :: c :: d :: rest =>
    if (hexNumber? a b c d).isSome then passString rest
    else .error (hexFault (a :: b :: c :: d :: rest))
  | '\\' :: 'u' :: rest => .error (hexFault rest)
  | ['\\'] => .error (.here .eofString [])
  | '\\' :: c :: rest =>
    if (simpleEscape? c).isSome then passString rest else .error (.past .invalidEscape (c :: rest))
  | c :: rest =>
    if c.toNat < 0x20 then .error (.here .controlCharacter (c :: rest)) else passString rest

end TraceRepair.Json
