import TraceRepair.Expr
import TraceRepair.ModelError
import TraceRepair.SortedMap

namespace TraceRepair

abbrev Loc := Nat

abbrev Assignment := String × Expr

/-- No edge ends the function, one is always taken, and two branch on the condition. -/
structure Transition where
  onTrue : Option Loc := none
  onFalse : Option Loc := none
deriving DecidableEq, Repr, Inhabited

namespace Transition

def edge (t : Transition) (branch : Bool) : Option Loc := if branch then t.onTrue else t.onFalse

def count (t : Transition) : Nat := t.onTrue.toList.length + t.onFalse.toList.length

def withoutEdge (t : Transition) (branch : Bool) : Transition :=
  if branch then { t with onTrue := none } else { t with onFalse := none }

end Transition

structure Parameter where
  type : String
  name : String
deriving DecidableEq, Repr

/-- A location has a block of assignments, up to two edges and a description, in three tables. Edits
build the tables together; a graph read from outside may have a location in some of them only.
`entry` is zero until a location is added. -/
structure FlowGraph where
  name : String
  returnType : String
  entry : Loc := 0
  exit : Loc := 0
  params : List Parameter
  blocks : SortedMap Loc (List Assignment) := ∅
  edges : SortedMap Loc Transition := ∅
  descriptions : SortedMap Loc String := ∅
  types : SortedMap String String := ∅

namespace FlowGraph

def unknownLocation (g : FlowGraph) (loc : Loc) : ModelError := .unknownLocation g.name loc

/-- One past the highest location that has edges, and 1 in a graph without any. -/
def freshLocation (g : FlowGraph) : Loc := (g.edges.lastKey?.map (· + 1)).getD 1

/-- An empty block without edges; the first one added becomes the entry. -/
def addLocation (g : FlowGraph) (loc : Option Loc) (description : String) : Loc × FlowGraph :=
  let loc := loc.getD g.freshLocation
  (loc, { g with
    entry := if g.entry = 0 then loc else g.entry
    blocks := g.blocks.insert loc []
    edges := g.edges.insert loc {}
    descriptions := g.descriptions.insert loc description })

def editBlock (g : FlowGraph) (loc : Loc) (edit : List Assignment → List Assignment) :
    Except ModelError FlowGraph :=
  match g.blocks.find? loc with
  | none => .error (g.unknownLocation loc)
  | some block => .ok { g with blocks := g.blocks.insert loc (edit block) }

def addAssignment (g : FlowGraph) (loc : Loc) (target : String) (e : Expr) :
    Except ModelError FlowGraph :=
  g.editBlock loc (· ++ [(target, e)])

/-- A place beyond the block's end means the end. -/
def insertAssignment (g : FlowGraph) (loc : Loc) (place : Nat) (target : String) (e : Expr) :
    Except ModelError FlowGraph :=
  g.editBlock loc fun block => block.take place ++ (target, e) :: block.drop place

def replaceBlock (g : FlowGraph) (loc : Loc) (block : List Assignment) :
    Except ModelError FlowGraph :=
  g.editBlock loc fun _ => block

def setEdges (g : FlowGraph) (loc : Loc) (onTrue onFalse : Option Loc) :
    Except ModelError FlowGraph :=
  if g.descriptions.contains loc then .ok { g with edges := g.edges.insert loc ⟨onTrue, onFalse⟩ }
  else .error (g.unknownLocation loc)

/-- The first declaration of a variable stays. -/
def declare (g : FlowGraph) (name type : String) : FlowGraph :=
  if g.types.contains name then g else { g with types := g.types.insert name type }

def setExit (g : FlowGraph) (loc : Loc) : FlowGraph := { g with exit := loc }

def removeLocation (g : FlowGraph) (loc : Loc) : Except ModelError FlowGraph :=
  if g.blocks.contains loc then
    .ok { g with
      blocks := g.blocks.erase loc
      edges := g.edges.erase loc
      descriptions := g.descriptions.erase loc }
  else .error (g.unknownLocation loc)

def removeEdge (g : FlowGraph) (loc : Loc) (branch : Bool) : Except ModelError FlowGraph :=
  match g.edges.find? loc with
  | none => .error (g.unknownLocation loc)
  | some t => .ok { g with edges := g.edges.insert loc (t.withoutEdge branch) }

def hasLocation (g : FlowGraph) (loc : Loc) : Bool := g.blocks.contains loc

def locations (g : FlowGraph) : List Loc := g.blocks.keys

def required (g : FlowGraph) (loc : Loc) {α : Type} (found : Option α) : Except ModelError α :=
  match found with
  | some a => .ok a
  | none => .error (g.unknownLocation loc)

def block (g : FlowGraph) (loc : Loc) : Except ModelError (List Assignment) :=
  g.required loc (g.blocks.find? loc)

def transition (g : FlowGraph) (loc : Loc) : Except ModelError Transition :=
  g.required loc (g.edges.find? loc)

def description (g : FlowGraph) (loc : Loc) : Except ModelError String :=
  g.required loc (g.descriptions.find? loc)

/-- A block runs from front to back, so its last assignment to a variable counts. -/
def lastAssigned (target : String) (block : List Assignment) : Option Expr :=
  (block.reverse.find? (·.1 == target)).map (·.2)

def assigned (g : FlowGraph) (loc : Loc) (target : String) : Except ModelError (Option Expr) :=
  (g.block loc).map (lastAssigned target)

def assignedTo (g : FlowGraph) (loc : Loc) (v : Variable) : Except ModelError Expr := do
  match ← g.assigned loc v.name with
  | some e => return e
  | none => throw (.unknownVariable g.name v.name loc)

def target? (g : FlowGraph) (loc : Loc) (branch : Bool) : Option Loc :=
  (g.edges.find? loc).bind (·.edge branch)

def edgeCount (g : FlowGraph) (loc : Loc) : Except ModelError Nat :=
  (g.transition loc).map Transition.count

def firstOccurrences (names : List String) : List String :=
  names.foldl (fun seen name => if seen.contains name then seen else seen ++ [name]) []

def assignedVariables (g : FlowGraph) : List String :=
  firstOccurrences (g.blocks.values.flatten.map (·.1))

def alikeAssignments : List Assignment → List Assignment → Bool
  | [], [] => true
  | (v, a) :: as, (w, b) :: bs => v == w && a.alike b && alikeAssignments as bs
  | _, _ => false

def alikeBlocks : List (Loc × List Assignment) → List (Loc × List Assignment) → Bool
  | [], [] => true
  | (l, a) :: as, (m, b) :: bs => l == m && alikeAssignments a b && alikeBlocks as bs
  | _, _ => false

def alike (g h : FlowGraph) : Bool :=
  g.name == h.name && g.returnType == h.returnType && g.entry == h.entry && g.exit == h.exit
    && g.params == h.params && alikeBlocks g.blocks.entries h.blocks.entries
    && g.edges.entries == h.edges.entries && g.descriptions.entries == h.descriptions.entries
    && g.types.entries == h.types.entries

def displayEdge (edge : Option Loc) : String := (edge.map Nat.repr).getD "None"

def rule : String := String.ofList (List.replicate 40 '-')

def displayBlock (g : FlowGraph) (loc : Loc) (block : List Assignment) : String :=
  let title := (g.descriptions.find? loc).getD ""
  let lines := String.join (block.map fun a => "\n  " ++ a.1 ++ " := " ++ a.2.display)
  let edges := (g.edges.find? loc).getD {}
  s!"\nLoc {loc} ({title})\n" ++ rule ++ lines ++ "\n" ++ rule
    ++ "\n  True -> " ++ displayEdge edges.onTrue ++ "   False -> " ++ displayEdge edges.onFalse

def display (g : FlowGraph) : String :=
  let params := ", ".intercalate (g.params.map fun p => p.type ++ " " ++ p.name)
  "fun " ++ g.name ++ " (" ++ params ++ ") : " ++ g.returnType ++ "\n" ++ rule ++ "\n"
    ++ "initloc : " ++ Nat.repr g.entry
    ++ String.join (g.blocks.entries.map fun e => g.displayBlock e.1 e.2)

end FlowGraph

end TraceRepair
