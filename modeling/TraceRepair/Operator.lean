import TraceRepair.Operator.Arithmetic
import TraceRepair.Operator.Comparison
import TraceRepair.Operator.Arrays
import TraceRepair.Operator.MathFunction
import TraceRepair.Format

namespace TraceRepair

/-- Operations that choose which of their operands to evaluate get their meaning from the
evaluator. -/
inductive Operator where
  | arithmetic (op : Arithmetic)
  | comparison (op : Comparison)
  | not
  | and
  | or
  | append
  | format
  | assign
  | index
  | head
  | tail
  | cast
  | math (f : MathFunction)
deriving DecidableEq, Repr

namespace Operator

def name : Operator → String
  | .arithmetic op => op.symbol
  | .comparison op => op.symbol
  | .not => "!"
  | .and => "&&"
  | .or => "||"
  | .append => "StrAppend"
  | .format => "StrFormat"
  | .assign => "ArrayAssign"
  | .index => "ArrayIndex"
  | .head => "ListHead"
  | .tail => "ListTail"
  | .cast => "cast"
  | .math f => f.name

def all : List Operator :=
  [.arithmetic .add, .arithmetic .sub, .arithmetic .mul, .arithmetic .div, .arithmetic .rem,
    .comparison .le, .comparison .lt, .comparison .gt, .comparison .ge, .comparison .eq,
    .comparison .ne, .not, .and, .or, .append, .format, .assign, .index, .head, .tail, .cast]
  ++ MathFunction.all.map .math

def ofName? (name : String) : Option Operator := all.find? (·.name == name)

def defined (v : Value) : Except RuntimeError Value :=
  if v.isUndefined then .error (.typeMismatch "defined value" v.typeName) else .ok v

def appendTexts (parts : List Value) : Except RuntimeError Value := do
  let texts ← parts.mapM fun part => (defined part).map Value.display
  return .str (String.join texts)

/-- The types that a cast knows; any other leaves the value as it is. -/
def convert (type : String) (v : Value) : Option Value :=
  if ["int", "long", "short", "char", "unsigned"].contains type then
    match v with
    | .float x => some (.int x.toInt64)
    | .str s => (Number.readInt64? (Text.trimChars s.toList)).map .int
    | v => v.asInt?.map .int
  else if ["float", "double"].contains type then
    match v with
    | .str s => (Number.readFloat? (Text.trimChars s.toList)).map .float
    | v => v.asFloat?.map .float
  else if type = "bool" then some (.bool v.isTruthy)
  else if ["str", "string"].contains type then some (.str v.display)
  else some v

def castTo (type v : Value) : Except RuntimeError Value := do
  let type := type.asStr?.getD ""
  let v ← defined v
  match convert type v with
  | some w => return w
  | none => throw (.typeMismatch type v.typeName)

def result? : Operator → List Value → Option (Except RuntimeError Value)
  | .arithmetic op, [left, right] => some (op.apply left right)
  | .arithmetic .sub, [v] => some (Arithmetic.negate v)
  | .arithmetic .add, [v] => some (Arithmetic.affirm v)
  | .comparison op, [left, right] => some (op.apply left right)
  | .not, [v] => some ((defined v).map fun v => .bool !v.isTruthy)
  | .and, [left, right] => some do
    let left ← defined left
    if left.isTruthy then return .bool (← defined right).isTruthy else return .bool false
  | .or, [left, right] => some do
    let left ← defined left
    if left.isTruthy then return .bool true else return .bool (← defined right).isTruthy
  | .append, parts => some (appendTexts parts)
  | .format, .str text :: args => some ((formatText text args).map .str)
  | .format, v :: _ => some (.error (.typeMismatch "format string" v.typeName))
  | .assign, array :: step :: more :: rest =>
    let path := step :: more :: rest
    some (Arrays.assign array path.dropLast (path.getLastD .undefined))
  | .index, array :: step :: path => some (Arrays.getPath array (step :: path))
  | .head, [type, list] => some (Arrays.head list type.asStr?)
  | .head, [list] => some (Arrays.head list none)
  | .tail, [list] => some (Arrays.tail list)
  | .cast, [type, v] => some (castTo type v)
  | .math f, args => some (f.apply args)
  | _, _ => none

end Operator

/-- The operator is looked up by its name; at a number of operands without a meaning it is as
unknown as any other name. -/
def applyOperator (name : String) (args : List Value) : Except RuntimeError Value :=
  (((Operator.ofName? name).bind fun op => op.result? args)).getD
    (.error (.unknownOperator name args.length))

end TraceRepair
