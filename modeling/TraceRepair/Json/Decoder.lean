import TraceRepair.Json.Reader
import TraceRepair.SortedMap

namespace TraceRepair

namespace JsonNumber

def found : JsonNumber → Json.Found
  | .natural n => .natural n
  | .negative n => .negative n
  | .real x => .real x

def below (n : JsonNumber) (bound : Nat) (expected : String) : Except Json.Reason Nat :=
  match n with
  | .natural k => if k < bound then .ok k else .error (.invalidValue (.natural k) expected)
  | .negative k => .error (.invalidValue (.negative k) expected)
  | .real x => .error (.invalidType (.real x) expected)

end JsonNumber

namespace Json

def found : Json → Found
  | .null => .null
  | .bool b => .bool b
  | .number n => n.found
  | .string s => .text s
  | .array _ => .sequence
  | .object _ => .map

namespace Reader

def require {α : Type} (found : Except Reason α) : Reader α := fun rest =>
  match found with
  | .ok a => .ok (a, rest)
  | .error reason => .error (.here reason rest)

/-- Refuses what comes next. Lists and objects are refused at their opening brackets, other values
behind their ends. -/
def mismatch {α : Type} (expected : String) : Reader α := do
  match ← peek with
  | none => failPast .eofValue
  | some c =>
    if c = '[' then require (.error (.invalidType .sequence expected))
    else if c = '\x7b' then require (.error (.invalidType .map expected))
    else
      let j ← scalar c
      require (.error (.invalidType j.found expected))

/-- Goes on behind an opening character; any other shape is refused. -/
def opened {α : Type} (first : Char) (expected : String) (body : Reader α) : Reader α := do
  if (← peek) = some first then
    advance
    body
  else mismatch expected

def stringAs (expected : String) : Reader String := opened '"' expected (ofScan (scanString []))

def string : Reader String := stringAs "a string"

def bool : Reader Bool := do
  match ← peek with
  | some 't' =>
    advance
    ofPass (scanWord "rue".toList)
    return true
  | some 'f' =>
    advance
    ofPass (scanWord "alse".toList)
    return false
  | _ => mismatch "a boolean"

def number : Reader JsonNumber := fun rest =>
  match rest with
  | '-' :: rest => scanNumber true rest
  | rest => scanNumber false rest

def startsNumber (c : Char) : Bool := c == '-' || Number.isDigit c

def natBelow (bound : Nat) (expected : String) : Reader Nat := do
  if (← peek).any startsNumber then
    let n ← number
    require (n.below bound expected)
  else mismatch expected

def loc : Reader Nat := natBelow UInt64.size "usize"

def line : Reader Nat := natBelow UInt32.size "u32"

def option {α : Type} (reader : Reader α) : Reader (Option α) := do
  if (← peek) = some 'n' then
    advance
    ofPass (scanWord "ull".toList)
    return none
  else return some (← reader)

def list {α : Type} (reader : Reader α) : Reader (List α) :=
  opened '[' "a sequence" do
    let taken ← Brackets.list.items (fun taken => do return (← reader) :: taken) []
    return taken.reverse

def members {κ α : Type} (readKey : Reader κ) (reader : Reader α) : Reader (List (κ × α)) :=
  opened '\x7b' "a map" do
    let taken ← Brackets.object.items
      (fun taken => do
        let k ← readKey
        colon
        return (k, ← reader) :: taken)
      []
    return taken.reverse

/-- Of members with one key the last stays. -/
def map {α : Type} (reader : Reader α) : Reader (SortedMap String α) := do
  return SortedMap.ofList (← members key reader)

def locKey : Reader Nat := do
  advance
  fun rest =>
    if rest.head?.any startsNumber then
      (do
        let n ← number
        let k ← require (n.below UInt64.size "usize")
        fun rest =>
          match rest with
          | '"' :: rest => .ok (k, rest)
          | rest => .error (.past .expectedQuote rest)) rest
    else .error (.here .keyNotNumber rest)

def locMap {α : Type} (reader : Reader α) : Reader (SortedMap Nat α) := do
  return SortedMap.ofList (← members locKey reader)

def counted (n : Nat) (thing : String) : String :=
  Nat.repr n ++ " " ++ thing ++ (if n = 1 then "" else "s")

def item? {α : Type} (place : Nat) (reader : Reader α) : Reader (Option α) := do
  if ← Brackets.list.more (place = 0) then return some (← reader) else return none

def item {α : Type} (expected : String) (place : Nat) (reader : Reader α) : Reader α := do
  match ← item? place reader with
  | some a => return a
  | none => failPending (.invalidLength place expected)

def itemsInOrder {α : Type} (body : Reader α) : Reader α :=
  Brackets.list.settling do
    let a ← body
    Brackets.list.finish
    return a

def pair {α β : Type} (first : Reader α) (second : Reader β) : Reader (α × β) :=
  let expected := "a tuple of size 2"
  opened '[' expected <| itemsInOrder do
    let a ← item expected 0 first
    let b ← item expected 1 second
    return (a, b)

def once {α : Type} (name : String) (held : Option α) (reader : Reader α) : Reader (Option α) :=
  match held with
  | some _ => failPending (.duplicateField name)
  | none => do
    colon
    return some (← reader)

def ignored : Reader Unit := do
  colon
  skip

def recordText (name : String) (fields : Nat) : String :=
  "struct " ++ name ++ " with " ++ counted fields "element"

/-- A record stands as an object, whose fields are gathered in a draft, or as a list of its fields
in their order. -/
def record {δ α : Type} (name : String) (field : δ → String → Reader δ) (start : δ)
    (complete : δ → Except Reason α) (inOrder : Reader α) : Reader α := do
  match ← peek with
  | some '\x7b' =>
    advance
    let draft ← Brackets.object.items (fun draft => do field draft (← key)) start
    require (complete draft)
  | some '[' =>
    advance
    itemsInOrder inOrder
  | _ => mismatch ("struct " ++ name)

end Reader

def present {α : Type} (name : String) (held : Option α) : Except Reason α :=
  match held with
  | some a => .ok a
  | none => .error (.missingField name)

end Json

end TraceRepair
