import TraceRepair.Mapping.Bijection

namespace TraceRepair

structure VariableMapping where
  functions : SortedMap String (List Bijection) := ∅

namespace VariableMapping

def empty : VariableMapping := {}

instance : Inhabited VariableMapping := ⟨empty⟩

def put (m : VariableMapping) (function : String) (candidates : List Bijection) : VariableMapping :=
  ⟨m.functions.insert function candidates⟩

def candidates? (m : VariableMapping) (function : String) : Option (List Bijection) :=
  m.functions.find? function

def candidates (m : VariableMapping) (function : String) : List Bijection :=
  (m.candidates? function).getD []

def add (m : VariableMapping) (function : String) (b : Bijection) : VariableMapping :=
  m.put function (m.candidates function ++ [b])

def best? (m : VariableMapping) (function : String) : Option Bijection :=
  (m.candidates function).head?

/-- The counterparts of a variable under all candidates that have one. -/
def matching (m : VariableMapping) (function : String) (v : Variable) : List Variable :=
  (m.candidates function).filterMap (·.find? v)

def alikeCandidates : List Bijection → List Bijection → Bool
  | [], [] => true
  | b :: bs, c :: cs => b.alike c && alikeCandidates bs cs
  | _, _ => false

def alikeFunctions : List (String × List Bijection) → List (String × List Bijection) → Bool
  | [], [] => true
  | (f, bs) :: fs, (g, cs) :: gs => f == g && alikeCandidates bs cs && alikeFunctions fs gs
  | _, _ => false

def alike (m n : VariableMapping) : Bool := alikeFunctions m.functions.entries n.functions.entries

def display (m : VariableMapping) : String :=
  let shown := m.functions.entries.map fun e =>
    e.1 ++ "=[" ++ ", ".intercalate (e.2.map Bijection.display) ++ "]"
  "\x7b" ++ ", ".intercalate shown ++ "\x7d"

end VariableMapping

end TraceRepair
