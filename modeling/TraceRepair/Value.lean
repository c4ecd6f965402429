import TraceRepair.Number.Shortest

namespace TraceRepair

/-- The fields of a struct stand in the order of their names. -/
inductive Value where
  | int (n : Int64)
  | float (x : Float)
  | bool (b : Bool)
  | str (s : String)
  | array (items : List Value)
  | struct (fields : List (String × Value))
  | undefined
deriving Inhabited

namespace Value

def isTruthy : Value → Bool
  | .bool b => b
  | .int n => n != 0
  | .float x => !Number.isZero x
  | .str s => !s.isEmpty
  | .array items => !items.isEmpty
  | .struct _ => true
  | .undefined => false

def typeName : Value → String
  | .int _ => "int"
  | .float _ => "float"
  | .bool _ => "bool"
  | .str _ => "string"
  | .array _ => "array"
  | .struct _ => "struct"
  | .undefined => "undefined"

def isUndefined : Value → Bool
  | .undefined => true
  | _ => false

/-- Booleans count as 0 and 1. -/
def asInt? : Value → Option Int64
  | .int n => some n
  | .bool b => some (if b then 1 else 0)
  | _ => none

/-- Integers go to the nearest double. -/
def asFloat? : Value → Option Float
  | .float x => some x
  | .int n => some n.toFloat
  | .bool b => some (if b then 1.0 else 0.0)
  | _ => none

def asStr? : Value → Option String
  | .str s => some s
  | _ => none

mutual

def display : Value → String
  | .int n => Number.signedDecimal n.toInt
  | .float x => Number.floatText x
  | .bool b => if b then "true" else "false"
  | .str s => s
  | .array items => "[" ++ ", ".intercalate (displayItems items) ++ "]"
  | .struct fields => "\x7b " ++ ", ".intercalate (displayFields fields) ++ " \x7d"
  | .undefined => "<undef>"

def displayItems : List Value → List String
  | [] => []
  | v :: vs => display v :: displayItems vs

def displayFields : List (String × Value) → List String
  | [] => []
  | (name, v) :: rest => (name ++ ": " ++ display v) :: displayFields rest

end

mutual

/-- Deep equality, which never mixes kinds; numbers are compared as in `Number.sameNumber`. -/
def alike : Value → Value → Bool
  | .int a, .int b => a == b
  | .float x, .float y => Number.sameNumber x y
  | .bool a, .bool b => a == b
  | .str s, .str t => s == t
  | .array as, .array bs => alikeItems as bs
  | .struct fs, .struct gs => alikeFields fs gs
  | .undefined, .undefined => true
  | _, _ => false

def alikeItems : List Value → List Value → Bool
  | [], [] => true
  | a :: as, b :: bs => alike a b && alikeItems as bs
  | _, _ => false

def alikeFields : List (String × Value) → List (String × Value) → Bool
  | [], [] => true
  | (f, a) :: as, (g, b) :: bs => f == g && alike a b && alikeFields as bs
  | _, _ => false

end

def alikeOption : Option Value → Option Value → Bool
  | none, none => true
  | some a, some b => alike a b
  | _, _ => false

end Value

end TraceRepair
