import TraceRepair.Variable
import TraceRepair.Reserved

namespace TraceRepair

/-- A constant keeps its source text, an operation its name. -/
inductive Expr where
  | constant (text : String) (line : Nat)
  | variable (v : Variable)
  | operation (name : String) (args : List Expr) (line : Nat)
deriving Inhabited, Repr

namespace Expr

def line : Expr → Nat
  | .constant _ line => line
  | .variable v => v.line
  | .operation _ _ line => line

def atLine (line : Nat) : Expr → Expr
  | .constant text _ => .constant text line
  | .variable v => .variable (v.atLine line)
  | .operation name args _ => .operation name args line

def binary (name : String) (left right : Expr) : Expr := .operation name [left, right] 0

def ite (condition yes no : Expr) : Expr :=
  .operation OperatorName.conditional [condition, yes, no] 0

def asVariable? : Expr → Option Variable
  | .variable v => some v
  | _ => none

def operator? : Expr → Option String
  | .operation name _ _ => some name
  | _ => none

mutual

/-- Equality that looks at neither lines nor primes. -/
def alike : Expr → Expr → Bool
  | .constant a _, .constant b _ => a == b
  | .variable v, .variable w => v.sameName w
  | .operation f as _, .operation g bs _ => f == g && alikeAll as bs
  | _, _ => false

def alikeAll : List Expr → List Expr → Bool
  | [], [] => true
  | a :: as, b :: bs => alike a b && alikeAll as bs
  | _, _ => false

end

mutual

def size : Expr → Nat
  | .constant _ _ | .variable _ => 1
  | .operation _ args _ => 1 + sizeAll args

def sizeAll : List Expr → Nat
  | [] => 0
  | a :: as => size a + sizeAll as

end

mutual

def occurrences : Expr → List Variable
  | .constant _ _ => []
  | .variable v => [v]
  | .operation _ args _ => occurrencesAll args

def occurrencesAll : List Expr → List Variable
  | [] => []
  | a :: as => occurrences a ++ occurrencesAll as

end

mutual

def mapVariables (f : Variable → Expr) : Expr → Expr
  | .constant text line => .constant text line
  | .variable v => f v
  | .operation name args line => .operation name (mapVariablesAll f args) line

def mapVariablesAll (f : Variable → Expr) : List Expr → List Expr
  | [] => []
  | a :: as => mapVariables f a :: mapVariablesAll f as

end

mutual

/-- Like `mapVariables` with effects, which happen from left to right. -/
def mapVariablesM {m : Type → Type} [Monad m] (f : Variable → m Expr) : Expr → m Expr
  | .constant text line => pure (.constant text line)
  | .variable v => f v
  | .operation name args line => do
    let args ← mapVariablesAllM f args
    pure (.operation name args line)

def mapVariablesAllM {m : Type → Type} [Monad m] (f : Variable → m Expr) : List Expr → m (List Expr)
  | [] => pure []
  | a :: as => do
    let b ← mapVariablesM f a
    let bs ← mapVariablesAllM f as
    pure (b :: bs)

end

def toPrimed (e : Expr) : Expr := e.mapVariables fun v => .variable (v.setPrimed true)

def toUnprimed (e : Expr) : Expr := e.mapVariables fun v => .variable v.toUnprimed

def primeOnly (names : List String) (e : Expr) : Expr :=
  e.mapVariables fun v => .variable (if names.contains v.unprimedName then v.toPrimed else v)

def replace (e : Expr) (name : String) (new : Expr) : Expr :=
  e.mapVariables fun v => if v.name = name then new else .variable v

mutual

/-- Prefix form with primes, as in `+(5, x')`. -/
def display : Expr → String
  | .constant text _ => text
  | .variable v => v.name
  | .operation name args _ => name ++ "(" ++ ", ".intercalate (displayAll args) ++ ")"

def displayAll : List Expr → List String
  | [] => []
  | a :: as => display a :: displayAll as

end

end Expr

end TraceRepair
