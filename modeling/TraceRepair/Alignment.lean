import TraceRepair.Mapping.Structural
import TraceRepair.Mapping.Variables
import TraceRepair.Notice
import TraceRepair.Program

namespace TraceRepair

inductive AlignmentError where
  | functionCount
  | missingFunction
  | locations (function : String)
  | controlFlow (function : String) (loc : Loc)
  | described (text : String)
deriving DecidableEq, Repr

def AlignmentError.message : AlignmentError → String
  | .functionCount => "Alignment failed, function sizes not equal"
  | .missingFunction => "Alignment failed, same function not found"
  | .locations owner => s!"Alignment failed: locations of `{owner}` differ"
  | .controlFlow owner loc =>
    s!"Alignment failed: control flow of `{owner}` differs at location {loc}"
  | .described text => "Alignment failed: " ++ text

namespace Alignment

def sameEdges (reference submission : FlowGraph) (loc : Loc) : Bool :=
  match reference.edges.find? loc, submission.edges.find? loc with
  | some a, some b => a == b
  | _, _ => false

/-- The locations, if both graphs have the same ones with the same edges. -/
def checkShape (reference submission : FlowGraph) : Except AlignmentError (List Loc) :=
  if reference.locations ≠ submission.locations then .error (.locations reference.name)
  else
    match reference.locations.find? fun loc => !sameEdges reference submission loc with
    | some loc => .error (.controlFlow reference.name loc)
    | none => .ok reference.locations

def identity (locations : List Loc) : LocationMap :=
  SortedMap.ofList (locations.map fun loc => (loc, loc))

/-- Locations stand for themselves. -/
def structuralMapping (reference submission : Program) : Except AlignmentError StructuralMapping :=
  if reference.functions.size ≠ submission.functions.size then .error .functionCount
  else
    reference.functions.entries.foldlM
      (fun mapping (name, graph) =>
        match submission.function? name with
        | none => .error .missingFunction
        | some other => (checkShape graph other).map fun locations =>
          mapping.put name (identity locations))
      StructuralMapping.empty

/-- The streams, the result, and what the function declares or sets; in order, and each once. -/
def variablesOf (g : FlowGraph) : List String :=
  let names := [Reserved.input, Reserved.output, Reserved.result]
    ++ g.params.map Parameter.name ++ g.types.keys ++ g.assignedVariables
  (SortedMap.ofList (names.map fun name => (name, ()))).keys

def byName (reference submission : FlowGraph) : Bijection :=
  let theirs := variablesOf submission
  let shared := (variablesOf reference).filter theirs.contains
  Bijection.ofPairs (shared.map fun name => (.reference name, .reference name))

/-- One candidate for each function that the structural mapping knows. -/
def variableMapping (reference submission : Program) (mapping : StructuralMapping) :
    Except AlignmentError VariableMapping × List Notice :=
  go .empty [] mapping.functions.keys
where
  go (found : VariableMapping) (notices : List Notice) :
      List String → Except AlignmentError VariableMapping × List Notice
    | [] => (.ok found, notices.reverse)
    | name :: names =>
      match reference.function? name, submission.function? name with
      | some graph, some other =>
        let pairs := byName graph other
        go (found.add name pairs) (.paired name pairs.size :: notices) names
      | _, _ => (.error .missingFunction, notices.reverse)

end Alignment

end TraceRepair
