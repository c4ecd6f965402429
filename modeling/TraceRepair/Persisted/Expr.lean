import TraceRepair.Expr
import TraceRepair.Persisted.Variable

namespace TraceRepair.Expr

open Json

inductive Tag where
  | constant | variable | operation
deriving DecidableEq, Repr

namespace Tag

def name : Tag → String
  | .constant => "Constant"
  | .variable => "Variable"
  | .operation => "Operation"

def all : List Tag := [.constant, .variable, .operation]

def ofName (name : String) : Except Reason Tag :=
  match all.find? (·.name == name) with
  | some tag => .ok tag
  | none => .error (.unknownVariant name (all.map Tag.name))

/-- Inside an expression the number of a kind stands for its name. -/
def ofJson : Json → Except Reason Tag
  | .string name => ofName name
  | .number (.natural n) =>
    match all[n]? with
    | some tag => .ok tag
    | none => .error (.invalidValue (.natural n) "variant index 0 <= i < 3")
  | j => .error (.invalidType j.found "variant identifier")

def reader : Reader Tag := do
  let name ← Reader.stringAs "variant identifier"
  Reader.require (ofName name)

end Tag

def tagKey : String := "tokentype"

mutual

def toJson : Expr → Json
  | .constant text line =>
    .object [(tagKey, .string Tag.constant.name), ("value", .string text), ("line", .nat line)]
  | .variable v => .object ((tagKey, .string Tag.variable.name) :: v.members)
  | .operation name args line =>
    .object [(tagKey, .string Tag.operation.name), ("name", .string name),
      ("args", .array (toJsonAll args)), ("line", .nat line)]

def toJsonAll : List Expr → List Json
  | [] => []
  | e :: es => toJson e :: toJsonAll es

end

structure Content where
  value : Json
  arguments : Except Reason (List Expr)

namespace Content

def text (c : Content) : Except Reason String :=
  match c.value with
  | .string s => .ok s
  | j => .error (.invalidType j.found "a string")

def flag (c : Content) : Except Reason Bool :=
  match c.value with
  | .bool b => .ok b
  | j => .error (.invalidType j.found "a boolean")

def line (c : Content) : Except Reason Nat :=
  match c.value with
  | .number n => n.below UInt32.size "u32"
  | j => .error (.invalidType j.found "u32")

end Content

def once {α : Type} (name : String) (held : Option α) (value : Except Reason α) :
    Except Reason (Option α) :=
  match held with
  | some _ => .error (.duplicateField name)
  | none => value.map some

structure Draft where
  text : Option String := none
  name : Option String := none
  primed : Option Bool := none
  args : Option (List Expr) := none
  line : Option Nat := none

namespace Draft

/-- Only the fields of its own kind matter to a node. -/
def field (tag : Tag) (d : Draft) (name : String) (c : Content) : Except Reason Draft :=
  match tag, name with
  | .constant, "value" => do return { d with text := ← once "value" d.text c.text }
  | .variable, "name" | .operation, "name" => do
    return { d with name := ← once "name" d.name c.text }
  | .variable, "primed" => do return { d with primed := ← once "primed" d.primed c.flag }
  | .operation, "args" => do return { d with args := ← once "args" d.args c.arguments }
  | _, "line" => do return { d with line := ← once "line" d.line c.line }
  | _, _ => .ok d

def complete (tag : Tag) (d : Draft) : Except Reason Expr :=
  match tag with
  | .constant => do
    let text ← present "value" d.text
    return .constant text (d.line.getD 0)
  | .variable => do
    let name ← present "name" d.name
    return .variable ((Variable.ofOrigin name (d.primed.getD false)).atLine (d.line.getD 0))
  | .operation => do
    let name ← present "name" d.name
    let args ← present "args" d.args
    return .operation name args (d.line.getD 0)

end Draft

def ofFields (tag : Tag) (fields : List (String × Content)) : Except Reason Expr := do
  let d ← fields.foldlM (fun d f => Draft.field tag d f.1 f.2) ({} : Draft)
  d.complete tag

def placed {α : Type} (items : List Content) (place : Nat) (expected : String)
    (read : Content → Except Reason α) : Except Reason α :=
  match items[place]? with
  | some c => read c
  | none => .error (.invalidLength place expected)

def placedOr {α : Type} (items : List Content) (place : Nat) (default : α)
    (read : Content → Except Reason α) : Except Reason α :=
  match items[place]? with
  | some c => read c
  | none => .ok default

def noMoreThan (items : List Content) (fields : Nat) : Except Reason Unit :=
  if items.length ≤ fields then .ok ()
  else .error (.invalidLength items.length (Reader.counted fields "element" ++ " in sequence"))

def ofItems (tag : Tag) (items : List Content) : Except Reason Expr :=
  match tag with
  | .constant => do
    let text ← placed items 0 (Reader.recordText "Constant" 2) Content.text
    let line ← placedOr items 1 0 Content.line
    noMoreThan items 2
    return .constant text line
  | .variable => do
    let name ← placed items 0 (Reader.recordText Variable.recordName 3) Content.text
    let primed ← placedOr items 1 false Content.flag
    let line ← placedOr items 2 0 Content.line
    noMoreThan items 3
    return .variable ((Variable.ofOrigin name primed).atLine line)
  | .operation => do
    let name ← placed items 0 (Reader.recordText "Operation" 3) Content.text
    let args ← placed items 1 (Reader.recordText "Operation" 3) Content.arguments
    let line ← placedOr items 2 0 Content.line
    noMoreThan items 3
    return .operation name args line

def isTagged (field : String × Content) : Bool := field.1 == tagKey

def tagAmong (fields : List (String × Content)) : Except Reason Tag := do
  let tag ← (fields.filter isTagged).foldlM
    (fun held f => once tagKey held (Tag.ofJson f.2.value)) none
  present tagKey tag

def described : String := "internally tagged enum Expression"

mutual

/-- An expression inside another one. -/
def ofJson : Json → Except Reason Expr
  | .object members => do
    let fields := contents members
    let tag ← tagAmong fields
    ofFields tag (fields.filter fun f => !isTagged f)
  | .array items =>
    match contentsOfItems items with
    | [] => .error (.missingField tagKey)
    | first :: rest => do
      let tag ← Tag.ofJson first.value
      ofItems tag rest
  | j => .error (.invalidType j.found described)

def argumentsOf : Json → Except Reason (List Expr)
  | .array items => ofJsonAll items
  | j => .error (.invalidType j.found "a sequence")

def ofJsonAll : List Json → Except Reason (List Expr)
  | [] => .ok []
  | j :: js => do
    let e ← ofJson j
    let es ← ofJsonAll js
    return e :: es

def contents : List (String × Json) → List (String × Content)
  | [] => []
  | (name, j) :: rest => (name, ⟨j, argumentsOf j⟩) :: contents rest

def contentsOfItems : List Json → List Content
  | [] => []
  | j :: js => ⟨j, argumentsOf j⟩ :: contentsOfItems js

end

structure Gathered where
  tag : Option Tag := none
  members : List (String × Json) := []

/-- The tag of an outermost node is understood where it stands. -/
def gather (g : Gathered) : Reader Gathered := do
  let name ← Reader.key
  if name = tagKey then return { g with tag := ← Reader.once tagKey g.tag Tag.reader }
  else
    Reader.colon
    return { g with members := (name, ← Reader.value) :: g.members }

/-- A fault in what the fields say has no place of its own. -/
def understood (e : Except Reason Expr) : Reader Expr :=
  match e with
  | .ok e => pure e
  | .error reason => Reader.failPending reason

def laterItems : Reader (List Json) := fun rest =>
  (do
    let taken ← Brackets.list.foldItems (fun taken => do return (← Reader.value) :: taken) false []
      (' ' :: rest)
    return taken.reverse) rest

def listed : Reader (Tag × List Json) :=
  Brackets.list.settling do
    if ← Brackets.list.more true then
      let tag ← Tag.reader
      return (tag, ← laterItems)
    else Reader.failPending (.missingField tagKey)

/-- As the tag may stand anywhere in its record, a whole expression is read first and understood
then. -/
def reader : Reader Expr := do
  match ← Reader.peek with
  | some '\x7b' =>
    Reader.advance
    let g ← Brackets.object.items gather {}
    let tag ← Reader.require (present tagKey g.tag)
    understood (ofFields tag (contents g.members.reverse))
  | some '[' =>
    Reader.advance
    let (tag, items) ← listed
    understood (ofItems tag (contentsOfItems items))
  | _ => Reader.mismatch described

end TraceRepair.Expr
