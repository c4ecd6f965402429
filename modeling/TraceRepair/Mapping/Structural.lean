import TraceRepair.FlowGraph

namespace TraceRepair

abbrev LocationMap := SortedMap Loc Loc

structure StructuralMapping where
  functions : SortedMap String LocationMap := ∅

namespace StructuralMapping

def empty : StructuralMapping := {}

instance : Inhabited StructuralMapping := ⟨empty⟩

def put (m : StructuralMapping) (function : String) (locations : LocationMap) : StructuralMapping :=
  ⟨m.functions.insert function locations⟩

def mapping? (m : StructuralMapping) (function : String) : Option LocationMap :=
  m.functions.find? function

def insert (m : StructuralMapping) (function : String) (reference submission : Loc) :
    StructuralMapping :=
  m.put function (((m.mapping? function).getD ∅).insert reference submission)

def matching? (m : StructuralMapping) (function : String) (loc : Loc) : Option Loc :=
  (m.mapping? function).bind (·.find? loc)

def alike (m n : StructuralMapping) : Bool :=
  m.functions.entries.map (fun e => (e.1, e.2.entries))
    == n.functions.entries.map (fun e => (e.1, e.2.entries))

def displayLocations (locations : LocationMap) : String :=
  let pairs := locations.entries.map fun e => Nat.repr e.1 ++ "=" ++ Nat.repr e.2
  "\x7b" ++ ", ".intercalate pairs ++ "\x7d"

def display (m : StructuralMapping) : String :=
  let shown := m.functions.entries.map fun e => e.1 ++ "=" ++ displayLocations e.2
  "\x7b" ++ ", ".intercalate shown ++ "\x7d"

end StructuralMapping

end TraceRepair
