import TraceRepair.Operator.Arithmetic

namespace TraceRepair

inductive Comparison where
  | le | lt | gt | ge | eq | ne
deriving DecidableEq, Repr

namespace Comparison

def symbol : Comparison → String
  | .le => "<="
  | .lt => "<"
  | .gt => ">"
  | .ge => ">="
  | .eq => "=="
  | .ne => "!="

/-- Without an order, as beside what is not a number, only `!=` holds. -/
def holds (op : Comparison) : Option Ordering → Bool
  | none => op = .ne
  | some order =>
    match op with
    | .le => order != .gt
    | .lt => order == .lt
    | .gt => order == .gt
    | .ge => order != .lt
    | .eq => order == .eq
    | .ne => order != .eq

def compareFloats (x y : Float) : Option Ordering :=
  if x < y then some .lt else if y < x then some .gt else if x == y then some .eq else none

/-- Texts go by code points, numbers by size; other values can only be tested for equality. -/
def apply (op : Comparison) (left right : Value) : Except RuntimeError Value :=
  match left, right with
  | .int a, .int b => .ok (.bool (op.holds (some (compare a b))))
  | .str a, .str b => .ok (.bool (op.holds (some (compare a b))))
  | left, right =>
    if left.isUndefined || right.isUndefined then
      .error (.typeMismatch "defined operands" (Arithmetic.clash op.symbol left right))
    else
      match left.asFloat?, right.asFloat? with
      | some x, some y => .ok (.bool (op.holds (compareFloats x y)))
      | _, _ =>
        if op = .eq then .ok (.bool (left.alike right))
        else if op = .ne then .ok (.bool (!left.alike right))
        else .error (.typeMismatch "comparable operands" (Arithmetic.clash op.symbol left right))

end Comparison

end TraceRepair
