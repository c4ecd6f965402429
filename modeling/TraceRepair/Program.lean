import TraceRepair.FlowGraph

namespace TraceRepair

structure Program where
  imports : List String := []
  functions : SortedMap String FlowGraph := ∅
  metadata : SortedMap String FlowGraph := ∅
  warnings : SortedMap String FlowGraph := ∅
  loops : SortedMap String FlowGraph := ∅

namespace Program

def empty : Program := {}

instance : Inhabited Program := ⟨empty⟩

/-- Takes the place of a function with the same name. -/
def addFunction (p : Program) (g : FlowGraph) : Program :=
  { p with functions := p.functions.insert g.name g }

def function? (p : Program) (name : String) : Option FlowGraph := p.functions.find? name

def function (p : Program) (name : String) : Except ModelError FlowGraph :=
  match p.function? name with
  | some g => .ok g
  | none => .error (.unknownFunction name)

def alikeFunctions : List (String × FlowGraph) → List (String × FlowGraph) → Bool
  | [], [] => true
  | (f, g) :: fs, (f', g') :: fs' => f == f' && g.alike g' && alikeFunctions fs fs'
  | _, _ => false

def alike (p q : Program) : Bool :=
  p.imports == q.imports && alikeFunctions p.functions.entries q.functions.entries
    && alikeFunctions p.metadata.entries q.metadata.entries
    && alikeFunctions p.warnings.entries q.warnings.entries
    && alikeFunctions p.loops.entries q.loops.entries

def display (p : Program) : String :=
  "\n\n" ++ String.join (p.functions.values.map FlowGraph.display)

end Program

end TraceRepair
