import TraceRepair.Expr
import TraceRepair.Text.Alphanumeric

namespace TraceRepair

/-- Holds of names made of symbols only, such as `+` and `==`. -/
def isSymbolic (name : String) : Bool :=
  !name.isEmpty && !name.toList.any fun c => Text.isAlphanumeric c || c == '_'

def prettyOperation (head : String) (args : List String) : String :=
  match isSymbolic head, args with
  | true, [arg] => head ++ arg
  | true, _ :: _ :: _ => (" " ++ head ++ " ").intercalate args
  | _, args => head ++ "(" ++ ", ".intercalate args ++ ")"

namespace Expr

mutual

/-- The way a programmer writes it: operators of symbols stand between their operands or before a
single one, calls show the callee, and primes are left out. No parentheses are added. -/
def pretty : Expr → String
  | .constant text _ => text
  | .variable v => v.unprimedName
  | .operation name args _ =>
    match prettyAll args with
    | callee :: rest =>
      if name = OperatorName.call then callee ++ prettyOperation "" rest
      else prettyOperation name (callee :: rest)
    | [] => prettyOperation name []

def prettyAll : List Expr → List String
  | [] => []
  | a :: as => pretty a :: prettyAll as

end

end Expr

end TraceRepair
