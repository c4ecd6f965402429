import TraceRepair.FlowGraph
import TraceRepair.RunInput

namespace TraceRepair

inductive Unmatched where
  | function (name : String)
  | location (function : String) (loc : Loc)
deriving DecidableEq, Repr

def Unmatched.message : Unmatched → String
  | .function name => s!"function `{name}` has no structural mapping"
  | .location owner loc => s!"location {loc} of `{owner}` has no structural counterpart"

/-- `values` lists the variables of the reference whose values differ; `visits` says that the
submission came to the location fewer times. -/
inductive DivergenceKind where
  | values (differing : List Variable)
  | visits
  | unmatched (cause : Unmatched)
deriving DecidableEq, Repr

namespace DivergenceKind

def name : DivergenceKind → String
  | .values _ => "VariableValueMismatch"
  | .visits => "TraceEntryMismatch"
  | .unmatched _ => "UnmatchedException"

def detail : DivergenceKind → String
  | .values differing => ": [" ++ ", ".intercalate (differing.map Variable.name) ++ "]"
  | .visits => ""
  | .unmatched cause => ": " ++ cause.message

end DivergenceKind

structure Divergence where
  kind : DivergenceKind
  reference : Loc
  submission : Option Loc
  input : Option RunInput := none
deriving DecidableEq, Repr

namespace Divergence

def differing (d : Divergence) : List Variable :=
  match d.kind with
  | .values differing => differing
  | _ => []

def display (d : Divergence) : String :=
  let submission := FlowGraph.displayEdge d.submission
  let shown := (d.input.map fun i => " for " ++ i.display).getD ""
  d.kind.name ++ s!" at reference {d.reference} / submission {submission}" ++ d.kind.detail ++ shown

end Divergence

end TraceRepair
