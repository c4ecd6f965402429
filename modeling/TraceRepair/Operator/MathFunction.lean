import TraceRepair.RuntimeError
import TraceRepair.Value

namespace TraceRepair

inductive MathFunction where
  | floor | ceil | pow | abs | sqrt | log2 | log10 | log | exp | min | max
deriving DecidableEq, Repr

namespace MathFunction

def name : MathFunction → String
  | .floor => "floor"
  | .ceil => "ceil"
  | .pow => "pow"
  | .abs => "abs"
  | .sqrt => "sqrt"
  | .log2 => "log2"
  | .log10 => "log10"
  | .log => "log"
  | .exp => "exp"
  | .min => "min"
  | .max => "max"

def all : List MathFunction :=
  [.floor, .ceil, .pow, .abs, .sqrt, .log2, .log10, .log, .exp, .min, .max]

def ofName? (name : String) : Option MathFunction := all.find? (·.name == name)

def floatArgument : Value → Except RuntimeError Float
  | .int n => .ok n.toFloat
  | .float x => .ok x
  | v => .error (.typeMismatch "numeric" v.typeName)

/-- What is not a number gives way to the other operand. -/
def minFloat (x y : Float) : Float :=
  if x.isNaN then y else if y.isNaN then x else if y < x then y else x

def maxFloat (x y : Float) : Float :=
  if x.isNaN then y else if y.isNaN then x else if x < y then y else x

def absolute : Value → Except RuntimeError Value
  | .int n => .ok (.int (if n < 0 then -n else n))
  | .float x => .ok (.float x.abs)
  | v => .error (.typeMismatch "numeric" v.typeName)

/-- Two integers stay integers, and any other pair becomes a pair of floats. -/
def extremum (ints : Int64 → Int64 → Int64) (floats : Float → Float → Float) :
    Value → Value → Except RuntimeError Value
  | .int a, .int b => .ok (.int (ints a b))
  | a, b => do
    let x ← floatArgument a
    let y ← floatArgument b
    return .float (floats x y)

def onFloat (f : Float → Float) (v : Value) : Except RuntimeError Value := do
  let x ← floatArgument v
  return .float (f x)

def apply (f : MathFunction) (args : List Value) : Except RuntimeError Value :=
  match f, args with
  | .abs, [v] => absolute v
  | .min, [a, b] => extremum (fun m n => if n < m then n else m) minFloat a b
  | .max, [a, b] => extremum (fun m n => if m < n then n else m) maxFloat a b
  | .pow, [a, b] => do
    let x ← floatArgument a
    let y ← floatArgument b
    return .float (x.pow y)
  | .floor, [v] => onFloat Float.floor v
  | .ceil, [v] => onFloat Float.ceil v
  | .sqrt, [v] => onFloat Float.sqrt v
  | .log2, [v] => onFloat Float.log2 v
  | .log10, [v] => onFloat Float.log10 v
  | .log, [v] => onFloat Float.log v
  | .exp, [v] => onFloat Float.exp v
  | f, args =>
    let expected := match f with
      | .min | .max | .pow => 2
      | _ => 1
    .error (.arity f.name expected args.length)

end MathFunction

end TraceRepair
