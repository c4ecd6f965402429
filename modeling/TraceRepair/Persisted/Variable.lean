import TraceRepair.Json.Decoder
import TraceRepair.Mapping.Variables

namespace TraceRepair

open Json

namespace Variable

def members (v : Variable) : List (String × Json) :=
  [("name", .string v.stored), ("primed", .bool v.flag), ("line", .nat v.line)]

def toJson (v : Variable) : Json := .object v.members

structure Draft where
  name : Option String := none
  primed : Option Bool := none
  line : Option Nat := none

namespace Draft

/-- A prime that ends the name moves into the flag. -/
def complete (d : Draft) : Except Reason Variable := do
  let name ← present "name" d.name
  return (ofOrigin name (d.primed.getD false)).atLine (d.line.getD 0)

def field (d : Draft) (name : String) : Reader Draft :=
  match name with
  | "name" => do return { d with name := ← Reader.once "name" d.name Reader.string }
  | "primed" => do return { d with primed := ← Reader.once "primed" d.primed Reader.bool }
  | "line" => do return { d with line := ← Reader.once "line" d.line Reader.line }
  | _ => do
    Reader.ignored
    return d

end Draft

def recordName : String := "RawVariable"

def reader : Reader Variable :=
  Reader.record recordName Draft.field {} Draft.complete do
    let name ← Reader.item (Reader.recordText recordName 3) 0 Reader.string
    let primed ← Reader.item? 1 Reader.bool
    let line ← Reader.item? 2 Reader.line
    return (ofOrigin name (primed.getD false)).atLine (line.getD 0)

end Variable

namespace Bijection

/-- An object whose keys hold the JSON text of the reference variables. -/
def toJson (b : Bijection) : Json :=
  .object (b.pairs.map fun p => (p.1.toJson.compact, p.2.toJson))

/-- A key is a text of its own, and faults in it are placed there. -/
def keyVariable (text : String) : Reader Variable := fun rest =>
  match Variable.reader.run text with
  | .ok v => .ok (v, rest)
  | .error e => .error ⟨.inKey e.reason, .settled e.position⟩

def reader : Reader Bijection :=
  Reader.opened '\x7b' "a JSON map" do
    let taken ← Brackets.object.items
      (fun taken => do
        let text ← Reader.key
        Reader.colon
        let submission ← Variable.reader
        return (← keyVariable text, submission) :: taken)
      []
    return ofPairs taken.reverse

end Bijection

namespace VariableMapping

def toJson (m : VariableMapping) : Json :=
  .object (m.functions.entries.map fun e => (e.1, .array (e.2.map Bijection.toJson)))

def reader : Reader VariableMapping := do
  return ⟨← Reader.map (Reader.list Bijection.reader)⟩

end VariableMapping

end TraceRepair
