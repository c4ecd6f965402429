import TraceRepair.Persisted.Expr
import TraceRepair.Program

namespace TraceRepair

open Json

namespace SortedMap

def toJson {α : Type} (m : SortedMap String α) (value : α → Json) : Json :=
  .object (m.entries.map fun e => (e.1, value e.2))

def toJsonByLoc {α : Type} (m : SortedMap Loc α) (value : α → Json) : Json :=
  .object (m.entries.map fun e => (Nat.repr e.1, value e.2))

end SortedMap

namespace Transition

def edgeJson (edge : Option Loc) : Json := (edge.map Json.nat).getD .null

def toJson (t : Transition) : Json :=
  .object [("true", edgeJson t.onTrue), ("false", edgeJson t.onFalse)]

structure Draft where
  onTrue : Option (Option Loc) := none
  onFalse : Option (Option Loc) := none

def Draft.field (d : Draft) (name : String) : Reader Draft :=
  match name with
  | "true" => do
    return { d with onTrue := ← Reader.once "true" d.onTrue (Reader.option Reader.loc) }
  | "false" => do
    return { d with onFalse := ← Reader.once "false" d.onFalse (Reader.option Reader.loc) }
  | _ => do
    Reader.ignored
    return d

/-- In an object an edge may be missing, in a list it may only be null. -/
def reader : Reader Transition :=
  Reader.record "Transition" Draft.field {} (fun d => .ok ⟨d.onTrue.join, d.onFalse.join⟩) do
    let expected := Reader.recordText "Transition" 2
    let onTrue ← Reader.item expected 0 (Reader.option Reader.loc)
    let onFalse ← Reader.item expected 1 (Reader.option Reader.loc)
    return ⟨onTrue, onFalse⟩

end Transition

namespace FlowGraph

def pairJson (first second : String) : Json := .array [.string first, .string second]

def blockJson (block : List Assignment) : Json :=
  .array (block.map fun a => .array [.string a.1, a.2.toJson])

def toJson (g : FlowGraph) : Json :=
  .object [
    ("name", .string g.name),
    ("rettype", .string g.returnType),
    ("initloc", .nat g.entry),
    ("endloc", .nat g.exit),
    ("params", .array (g.params.map fun p => pairJson p.type p.name)),
    ("locexprs", g.blocks.toJsonByLoc blockJson),
    ("loctrans", g.edges.toJsonByLoc Transition.toJson),
    ("locdescs", g.descriptions.toJsonByLoc .string),
    ("types", g.types.toJson .string)]

structure Draft where
  name : Option String := none
  returnType : Option String := none
  entry : Option Loc := none
  exit : Option Loc := none
  params : Option (List Parameter) := none
  blocks : Option (SortedMap Loc (List Assignment)) := none
  edges : Option (SortedMap Loc Transition) := none
  descriptions : Option (SortedMap Loc String) := none
  types : Option (SortedMap String String) := none

def paramReader : Reader Parameter := do
  let (type, name) ← Reader.pair Reader.string Reader.string
  return ⟨type, name⟩

def blockReader : Reader (List Assignment) := Reader.list (Reader.pair Reader.string Expr.reader)

namespace Draft

def field (d : Draft) (name : String) : Reader Draft :=
  match name with
  | "name" => do return { d with name := ← Reader.once "name" d.name Reader.string }
  | "rettype" => do
    return { d with returnType := ← Reader.once "rettype" d.returnType Reader.string }
  | "initloc" => do return { d with entry := ← Reader.once "initloc" d.entry Reader.loc }
  | "endloc" => do return { d with exit := ← Reader.once "endloc" d.exit Reader.loc }
  | "params" => do
    return { d with params := ← Reader.once "params" d.params (Reader.list paramReader) }
  | "locexprs" => do
    return { d with blocks := ← Reader.once "locexprs" d.blocks (Reader.locMap blockReader) }
  | "loctrans" => do
    return { d with edges := ← Reader.once "loctrans" d.edges (Reader.locMap Transition.reader) }
  | "locdescs" => do
    return { d with
      descriptions := ← Reader.once "locdescs" d.descriptions (Reader.locMap Reader.string) }
  | "types" => do
    return { d with types := ← Reader.once "types" d.types (Reader.map Reader.string) }
  | _ => do
    Reader.ignored
    return d

/-- All but the names may be missing. -/
def complete (d : Draft) : Except Reason FlowGraph := do
  let name ← present "name" d.name
  let returnType ← present "rettype" d.returnType
  return {
    name, returnType
    entry := d.entry.getD 0
    exit := d.exit.getD 0
    params := d.params.getD []
    blocks := d.blocks.getD ∅
    edges := d.edges.getD ∅
    descriptions := d.descriptions.getD ∅
    types := d.types.getD ∅ }

end Draft

def reader : Reader FlowGraph :=
  Reader.record "Function" Draft.field {} Draft.complete do
    let expected := Reader.recordText "Function" 9
    let d : Draft := {
      name := some (← Reader.item expected 0 Reader.string)
      returnType := some (← Reader.item expected 1 Reader.string)
      entry := ← Reader.item? 2 Reader.loc
      exit := ← Reader.item? 3 Reader.loc
      params := ← Reader.item? 4 (Reader.list paramReader)
      blocks := ← Reader.item? 5 (Reader.locMap blockReader)
      edges := ← Reader.item? 6 (Reader.locMap Transition.reader)
      descriptions := ← Reader.item? 7 (Reader.locMap Reader.string)
      types := ← Reader.item? 8 (Reader.map Reader.string) }
    Reader.require d.complete

end FlowGraph

namespace Program

def sectionJson (functions : SortedMap String FlowGraph) : Json := functions.toJson FlowGraph.toJson

def tagName : String := "Program"

def toJson (p : Program) : Json :=
  .object [
    ("importStatements", .strings p.imports),
    ("fncs", sectionJson p.functions),
    ("meta", sectionJson p.metadata),
    ("warns", sectionJson p.warnings),
    ("loops", sectionJson p.loops),
    ("tokentype", .string tagName)]

structure Draft where
  imports : Option (List String) := none
  functions : Option (SortedMap String FlowGraph) := none
  metadata : Option (SortedMap String FlowGraph) := none
  warnings : Option (SortedMap String FlowGraph) := none
  loops : Option (SortedMap String FlowGraph) := none
  tag : Option Unit := none

def sectionReader : Reader (SortedMap String FlowGraph) := Reader.map FlowGraph.reader

def tagNameReader : Reader Unit := do
  let name ← Reader.stringAs "variant identifier"
  Reader.require (if name = tagName then .ok () else .error (.unknownVariant name [tagName]))

def nullReader : Reader Unit := do
  if (← Reader.peek) = some 'n' then
    Reader.advance
    Reader.ofPass (scanWord "ull".toList)
  else Reader.mismatch "unit"

def tagKeyReader : Reader Unit := do
  match ← Reader.peek with
  | none => Reader.failPast .eofValue
  | some '"' => tagNameReader
  | some '\x7d' => Reader.failPast .expectedValue
  | some _ => Reader.failPast .keyNotString

/-- The tag stands alone or as the only key of an object with nothing under it. -/
def tagReader : Reader Unit := do
  match ← Reader.peek with
  | none => Reader.failPast .eofValue
  | some '"' => tagNameReader
  | some '\x7b' =>
    Reader.advance
    tagKeyReader
    Reader.colon
    nullReader
    match ← Reader.peek with
    | some '\x7d' => Reader.advance
    | some _ => Reader.require (.error .expectedValue)
    | none => Reader.require (.error .eofObject)
  | some _ => Reader.failPast .expectedValue

namespace Draft

def field (d : Draft) (name : String) : Reader Draft :=
  match name with
  | "importStatements" => do
    return { d with
      imports := ← Reader.once "importStatements" d.imports (Reader.list Reader.string) }
  | "fncs" => do return { d with functions := ← Reader.once "fncs" d.functions sectionReader }
  | "meta" => do return { d with metadata := ← Reader.once "meta" d.metadata sectionReader }
  | "warns" => do return { d with warnings := ← Reader.once "warns" d.warnings sectionReader }
  | "loops" => do return { d with loops := ← Reader.once "loops" d.loops sectionReader }
  | "tokentype" => do return { d with tag := ← Reader.once "tokentype" d.tag tagReader }
  | _ => do
    Reader.ignored
    return d

/-- Whatever is missing is empty. -/
def complete (d : Draft) : Program where
  imports := d.imports.getD []
  functions := d.functions.getD ∅
  metadata := d.metadata.getD ∅
  warnings := d.warnings.getD ∅
  loops := d.loops.getD ∅

end Draft

def reader : Reader Program :=
  Reader.record "Program" Draft.field {} (fun d => .ok d.complete) do
    let d : Draft := {
      imports := ← Reader.item? 0 (Reader.list Reader.string)
      functions := ← Reader.item? 1 sectionReader
      metadata := ← Reader.item? 2 sectionReader
      warnings := ← Reader.item? 3 sectionReader
      loops := ← Reader.item? 4 sectionReader
      tag := ← Reader.item? 5 tagReader }
    return d.complete

def ofText (text : String) : Except ReadError Program := reader.run text

end Program

end TraceRepair
