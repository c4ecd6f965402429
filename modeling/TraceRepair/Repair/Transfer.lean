import TraceRepair.Mapping.Bijection
import TraceRepair.Expr
import TraceRepair.ModelError

namespace TraceRepair

inductive SynthesisError where
  | unresolved (name : String)
  | model (e : ModelError)
deriving DecidableEq, Repr

def SynthesisError.message : SynthesisError → String
  | .unresolved name => s!"variable `{name}` has no counterpart in the mapping"
  | .model e => e.message

/-- The counterpart of a variable; a reserved one without a counterpart stands for itself. -/
def Bijection.resolve (b : Bijection) (v : Variable) : Except SynthesisError Variable :=
  match b.find? v with
  | some counterpart => .ok counterpart
  | none => if isReserved v.unprimedName then .ok v else .error (.unresolved v.name)

namespace Expr

mutual

/-- Every variable becomes its counterpart, primed and at its old line; names of callees stay. -/
def transfer (b : Bijection) : Expr → Except SynthesisError Expr
  | .constant text line => .ok (.constant text line)
  | .variable v => do
    let w ← b.resolve v
    return .variable (w.toPrimed.atLine v.line)
  | .operation name args line =>
    match args with
    | callee :: rest => do
      let first ← if name = OperatorName.call then pure callee else transfer b callee
      let others ← transferAll b rest
      return .operation name (first :: others) line
    | [] => .ok (.operation name [] line)

def transferAll (b : Bijection) : List Expr → Except SynthesisError (List Expr)
  | [] => .ok []
  | e :: es => do
    let e ← transfer b e
    let es ← transferAll b es
    return e :: es

end

end Expr

end TraceRepair
