import TraceRepair.RuntimeError
import TraceRepair.Value

namespace TraceRepair

inductive Arithmetic where
  | add | sub | mul | div | rem
deriving DecidableEq, Repr

namespace Arithmetic

def symbol : Arithmetic → String
  | .add => "+"
  | .sub => "-"
  | .mul => "*"
  | .div => "/"
  | .rem => "%"

def divides : Arithmetic → Bool
  | .div | .rem => true
  | _ => false

def onInts : Arithmetic → Int64 → Int64 → Int64
  | .add => (· + ·)
  | .sub => (· - ·)
  | .mul => (· * ·)
  | .div => (· / ·)
  | .rem => (· % ·)

def onFloats : Arithmetic → Float → Float → Float
  | .add => (· + ·)
  | .sub => (· - ·)
  | .mul => (· * ·)
  | .div => (· / ·)
  | .rem => Number.remainder

def clash (symbol : String) (left right : Value) : String :=
  left.typeName ++ " " ++ symbol ++ " " ++ right.typeName

/-- Integers wrap around at 64 bits and divide toward zero; as soon as one operand is a float both
are. Two booleans are no numbers, but one beside a number is. -/
def apply (op : Arithmetic) (left right : Value) : Except RuntimeError Value :=
  match left, right with
  | .int a, .int b =>
    if op.divides && b == 0 then .error .divisionByZero else .ok (.int (op.onInts a b))
  | .str a, .str b =>
    if op = .add then .ok (.str (a ++ b))
    else .error (.typeMismatch "numeric" (clash op.symbol left right))
  | .bool _, .bool _ => .error (.typeMismatch "numeric" (clash op.symbol left right))
  | left, right =>
    match left.asFloat?, right.asFloat? with
    | some x, some y => .ok (.float (op.onFloats x y))
    | _, _ => .error (.typeMismatch "numeric" (clash op.symbol left right))

def negate : Value → Except RuntimeError Value
  | .int n => .ok (.int (-n))
  | .float x => .ok (.float (-x))
  | v => .error (.typeMismatch "numeric" v.typeName)

def affirm : Value → Except RuntimeError Value
  | .int n => .ok (.int n)
  | .float x => .ok (.float x)
  | v => .error (.typeMismatch "numeric" v.typeName)

end Arithmetic

end TraceRepair
