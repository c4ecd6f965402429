import TraceRepair.Mapping.Structural
import TraceRepair.Persisted.Program
import TraceRepair.RunInput

namespace TraceRepair

open Json

namespace StructuralMapping

def toJson (m : StructuralMapping) : Json := m.functions.toJson fun l => l.toJsonByLoc .nat

def reader : Reader StructuralMapping := do
  return ⟨← Reader.map (Reader.locMap Reader.loc)⟩

end StructuralMapping

namespace RunInput

def toJson (i : RunInput) : Json :=
  .object [("inputs", .strings i.tokens), ("args", .strings i.args)]

structure Draft where
  tokens : Option (List String) := none
  args : Option (List String) := none

def textsReader : Reader (List String) := Reader.list Reader.string

namespace Draft

def field (d : Draft) (name : String) : Reader Draft :=
  match name with
  | "inputs" => do return { d with tokens := ← Reader.once "inputs" d.tokens textsReader }
  | "args" => do return { d with args := ← Reader.once "args" d.args textsReader }
  | _ => do
    Reader.ignored
    return d

def complete (d : Draft) : RunInput := ⟨d.tokens.getD [], d.args.getD []⟩

end Draft

/-- Either list may be missing. -/
def reader : Reader RunInput :=
  Reader.record "Input" Draft.field {} (fun d => .ok d.complete) do
    let tokens ← Reader.item? 0 textsReader
    let args ← Reader.item? 1 textsReader
    return ⟨tokens.getD [], args.getD []⟩

def listReader : Reader (List RunInput) := Reader.list reader

end RunInput

end TraceRepair
