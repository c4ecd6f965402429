import TraceRepair.Operator.MathFunction
import TraceRepair.Number.Rounded

namespace TraceRepair

/-- A percent sign with flags, a width, a precision, length letters without effect, and the letter
of a conversion. It takes one argument, except that a doubled percent sign takes none. -/
structure Directive where
  left : Bool
  plus : Bool
  space : Bool
  zero : Bool
  alternate : Bool
  width : Nat
  precision : Option Nat
  conversion : Char
deriving DecidableEq, Repr

namespace Directive

def widest : Nat := 0x10000

def isFlag (c : Char) : Bool := ['-', '+', ' ', '0', '#'].contains c

def isLengthLetter (c : Char) : Bool := ['h', 'l', 'L', 'q', 'j', 'z', 't'].contains c

/-- The number that the digits in front denote, zero when there are none. The cap lies beyond what
is allowed, so that a number cut at it is refused. -/
def readNumber (cs : List Char) : Except RuntimeError (Nat × List Char) :=
  let n := Number.cappedValue (widest + 1) (cs.takeWhile Number.isDigit)
  if widest < n then .error (.fieldTooWide widest) else .ok (n, cs.dropWhile Number.isDigit)

def readPrecision : List Char → Except RuntimeError (Option Nat × List Char)
  | '.' :: cs => do
    let (n, rest) ← readNumber cs
    return (some n, rest)
  | cs => .ok (none, cs)

def read (cs : List Char) : Except RuntimeError (Directive × List Char) := do
  let flags := cs.takeWhile isFlag
  let (width, rest) ← readNumber (cs.dropWhile isFlag)
  let (precision, rest) ← readPrecision rest
  match rest.dropWhile isLengthLetter with
  | [] => throw (.invalidInput .formatCut)
  | conversion :: rest =>
    return ({ left := flags.contains '-', plus := flags.contains '+', space := flags.contains ' ',
              zero := flags.contains '0', alternate := flags.contains '#', width, precision,
              conversion }, rest)

def sign (d : Directive) (negative : Bool) : List Char :=
  if negative then ['-'] else if d.plus then ['+'] else if d.space then [' '] else []

/-- Floats are cut toward zero and kept within 64 bits. -/
def intArgument : Value → Except RuntimeError Int64
  | .float x => .ok x.toInt64
  | v =>
    match v.asInt? with
    | some n => .ok n
    | none => .error (.typeMismatch "int" v.typeName)

def mostPlaces : Nat := 0xFFFF

/-- More places than there can be end the process, although a directive may name one more. -/
def places (count : Nat) : Except RuntimeError Nat :=
  if mostPlaces < count then .error .aborted else .ok count

def decimalDigits (d : Directive) (n : Nat) : Except RuntimeError (List Char) :=
  let ds := Number.digits n
  let precision := d.precision.getD 0
  if ds.length < precision then do
    let wide ← places precision
    return Number.zeros (wide - ds.length) ++ ds
  else .ok ds

def bitDigits (base : Nat) (n : Int64) : List Char := Nat.toDigits base n.toUInt64.toNat

def exponentText (exponent : Int) : List Char :=
  let ds := Number.digits exponent.natAbs
  (if exponent < 0 then '-' else '+') :: (Number.zeros (2 - ds.length) ++ ds)

def stripZeros (cs : List Char) : List Char :=
  if cs.contains '.' then
    let kept := (cs.reverse.dropWhile (· = '0'))
    (kept.dropWhile (· = '.')).reverse
  else cs

def fixedForm (m : Number.Magnitude) (decimals : Nat) : Except RuntimeError (List Char) := do
  return Number.fixedPlaces m (← places decimals)

def exponentForm (m : Number.Magnitude) (decimals : Nat) (tidy : List Char → List Char) :
    Except RuntimeError (List Char) := do
  let (mantissa, exponent) := Number.scientific m (← places decimals)
  return tidy mantissa ++ 'e' :: exponentText exponent

/-- The digits of a finite float without its sign. The general conversion counts significant
digits, takes an exponent for very small and for large numbers, and drops zeros at the end. -/
def floatDigits (d : Directive) (x : Float) (m : Number.Magnitude) :
    Except RuntimeError (List Char) :=
  let precision := d.precision.getD 6
  match d.conversion.toLower with
  | 'f' => fixedForm m precision
  | 'e' => exponentForm m precision id
  | _ =>
    let significant := max precision 1
    let place : Int := if m.significand = 0 then 0 else x.log10.floor.toInt64.toInt
    let tidy := if d.alternate then id else stripZeros
    if place < -4 ∨ place ≥ significant then exponentForm m (significant - 1) tidy
    else (fixedForm m ((significant : Int) - 1 - place).toNat).map tidy

def floatBody (d : Directive) (x : Float) : Except RuntimeError (List Char) :=
  let body : Except RuntimeError (List Char) :=
    match Number.magnitude? x with
    | none => .ok (if x.isNaN then "nan".toList else "inf".toList)
    | some m => d.floatDigits x.abs m
  body.map fun cs => if d.conversion.isUpper then cs.map Char.toUpper else cs

/-- A code that is no character prints nothing. -/
def characterText : Value → Except RuntimeError String
  | .str s => .ok (s.take 1).copy
  | v => do
    let n ← intArgument v
    let code := n.toInt.toNat
    return if 0 ≤ n.toInt ∧ code.isValidChar then String.singleton (Char.ofNat code) else ""

def numeral (d : Directive) (arg : Value) : Except RuntimeError (List Char) :=
  match d.conversion with
  | 'd' | 'i' | 'u' => do
    let n ← intArgument arg
    return d.sign (n.toInt < 0) ++ (← d.decimalDigits n.toInt.natAbs)
  | 'x' => do
    let n ← intArgument arg
    return (if d.alternate then ['0', 'x'] else []) ++ bitDigits 16 n
  | 'X' => do
    let n ← intArgument arg
    return (if d.alternate then ['0', 'X'] else []) ++ (bitDigits 16 n).map Char.toUpper
  | 'o' => do
    let n ← intArgument arg
    return (if d.alternate then ['0'] else []) ++ bitDigits 8 n
  | 'f' | 'F' | 'e' | 'E' | 'g' | 'G' => do
    let x ← MathFunction.floatArgument arg
    return d.sign (Number.isNegative x && !x.isNaN) ++ (← d.floatBody x)
  | c => .error (.invalidInput (.conversion c))

def render (d : Directive) (arg : Value) : Except RuntimeError String :=
  match d.conversion with
  | 'c' => characterText arg
  | 's' =>
    let s := arg.display
    .ok ((d.precision.map fun p => (s.take p).copy).getD s)
  | _ => (d.numeral arg).map String.ofList

def isNumeric (d : Directive) : Bool :=
  ['d', 'i', 'u', 'f', 'F', 'e', 'E', 'g', 'G', 'x', 'X', 'o'].contains d.conversion

def blanks (n : Nat) : String := String.ofList (List.replicate n ' ')

def padZeros (missing : Nat) (cs : List Char) : List Char :=
  match cs with
  | c :: rest =>
    if c = '-' ∨ c = '+' ∨ c = ' ' then c :: (Number.zeros missing ++ rest)
    else Number.zeros missing ++ cs
  | [] => Number.zeros missing

/-- Fills up to the width: blanks behind, zeros inside a number, or blanks in front. -/
def pad (d : Directive) (s : String) : String :=
  let missing := d.width - s.length
  if missing = 0 then s
  else if d.left then s ++ blanks missing
  else if d.zero && d.isNumeric then String.ofList (padZeros missing s.toList)
  else blanks missing ++ s

def apply (d : Directive) (arg : Value) : Except RuntimeError String := do
  if arg.isUndefined then throw (.typeMismatch "defined value" arg.typeName)
  let s ← d.render arg
  return d.pad s

/-- What is left of a text is always an end of it. -/
theorem suffix_readNumber {cs rest : List Char} {n : Nat} (h : readNumber cs = .ok (n, rest)) :
    rest <:+ cs := by
  simp only [readNumber] at h
  split at h
  · cases h
  · cases h
    exact List.dropWhile_suffix _

theorem suffix_readPrecision {cs rest : List Char} {p : Option Nat}
    (h : readPrecision cs = .ok (p, rest)) : rest <:+ cs := by
  unfold readPrecision at h
  split at h
  · rename_i cs
    cases hr : readNumber cs with
    | error e => simp [hr, bind, Except.bind] at h
    | ok found =>
      simp only [hr, bind, Except.bind, pure, Except.pure, Except.ok.injEq, Prod.mk.injEq] at h
      obtain ⟨m, after⟩ := found
      rw [← h.2]
      exact (suffix_readNumber hr).trans (List.suffix_cons _ _)
  · cases h
    exact List.suffix_refl _

/-- A directive takes at least its conversion from the text, and leaves what stands behind it. -/
theorem suffix_read {cs rest : List Char} {d : Directive} (h : read cs = .ok (d, rest)) :
    d.conversion :: rest <:+ cs := by
  unfold read at h
  cases hw : readNumber (cs.dropWhile isFlag) with
  | error e => simp [hw, bind, Except.bind] at h
  | ok wide =>
    obtain ⟨width, rest₁⟩ := wide
    cases hp : readPrecision rest₁ with
    | error e => simp [hw, hp, bind, Except.bind] at h
    | ok precise =>
      obtain ⟨precision, rest₂⟩ := precise
      simp only [hw, hp, bind, Except.bind] at h
      split at h
      · cases h
      · rename_i conversion rest₃ h₃
        simp only [pure, Except.pure, Except.ok.injEq, Prod.mk.injEq] at h
        have letters : conversion :: rest₃ <:+ rest₂ := h₃ ▸ List.dropWhile_suffix isLengthLetter
        have behindWidth : rest₁ <:+ cs := (suffix_readNumber hw).trans (List.dropWhile_suffix _)
        rw [← h.1, ← h.2]
        exact letters.trans ((suffix_readPrecision hp).trans behindWidth)

theorem length_read {cs rest : List Char} {d : Directive} (h : read cs = .ok (d, rest)) :
    rest.length < cs.length :=
  (suffix_read h).length_le

end Directive

/-- Writes behind `out`. Text outside directives stands for itself; arguments left over are
ignored. -/
def formatBehind (out : String) (format : List Char) (args : List Value) :
    Except RuntimeError String :=
  match format with
  | [] => .ok out
  | c :: cs =>
    if c = '%' then
      match _h : Directive.read cs with
      | .error e => .error e
      | .ok (d, rest) =>
        if d.conversion = '%' then formatBehind (out.push '%') rest args
        else
          match args with
          | [] => .error (.invalidInput .formatUnfed)
          | arg :: args =>
            match d.apply arg with
            | .error e => .error e
            | .ok text => formatBehind (out ++ text) rest args
    else formatBehind (out.push c) cs args
termination_by format.length
decreasing_by
  · exact Nat.lt_succ_of_lt (Directive.length_read _h)
  · exact Nat.lt_succ_of_lt (Directive.length_read _h)
  · simp

def formatText (format : String) (args : List Value) : Except RuntimeError String :=
  formatBehind "" format.toList args

end TraceRepair
