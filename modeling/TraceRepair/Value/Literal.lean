import TraceRepair.Value
import TraceRepair.Number.Reading
import TraceRepair.Text.Blank

namespace TraceRepair.Value

def unquote? (cs : List Char) : Option (List Char) :=
  match cs with
  | [] => none
  | quote :: rest =>
    if (quote = '"' ∨ quote = '\'') ∧ rest.getLast? = some quote then some rest.dropLast else none

/-- What a character means behind a backslash: `n`, `t`, `r` and `0` stand for control characters,
any other for itself. -/
def escaped (c : Char) : Char :=
  match c with
  | 'n' => '\n'
  | 't' => '\t'
  | 'r' => '\r'
  | '0' => '\x00'
  | c => c

/-- Takes out the backslashes that are followed by something; `done` holds what is read, latest
first. -/
def unescapeBehind (done : List Char) : List Char → List Char
  | '\\' :: c :: cs => unescapeBehind (escaped c :: done) cs
  | c :: cs => unescapeBehind (c :: done) cs
  | [] => done.reverse

def unescape (cs : List Char) : List Char := unescapeBehind [] cs

/-- A literal with a digit in it may be a number with an `f` behind it. -/
def floatLiteral? (cs : List Char) : Option Float :=
  if cs.any Number.isDigit then
    Number.readFloat? (Text.dropEndWhile (fun c => c = 'f' || c = 'F') cs)
  else none

/-- Text without another reading stands for itself. -/
def ofLiteral (text : String) : Value :=
  let trimmed := Text.trimChars text.toList
  match unquote? trimmed with
  | some inner => .str (String.ofList (unescape inner))
  | none =>
    match Number.readInt64? trimmed with
    | some n => .int n
    | none =>
      let word := String.ofList trimmed
      if word = "true" ∨ word = "True" then .bool true
      else if word = "false" ∨ word = "False" then .bool false
      else
        match floatLiteral? trimmed with
        | some x => .float x
        | none => .str text

inductive InputType where
  | int | float | char | bool | str | literal

/-- Names that declare no known type leave the reading to the token. -/
def InputType.ofName (name : String) : InputType :=
  if ["int", "long", "short", "unsigned", "long long", "unsigned int"].contains name then .int
  else if ["float", "double", "long double"].contains name then .float
  else if name = "char" then .char
  else if name = "bool" then .bool
  else if ["str", "string", "char*", "char *"].contains name then .str
  else .literal

def ofInput? (token type : String) : Option Value :=
  let cs := Text.trimChars token.toList
  let token := String.ofList cs
  match InputType.ofName (Text.trim type) with
  | .int => (Number.readInt64? cs).map .int
  | .float => (Number.readFloat? cs).map .float
  | .char =>
    match Number.readInt64? cs with
    | some n => some (.int n)
    | none => cs.head?.map fun c => .int (Int64.ofNat c.toNat)
  | .bool =>
    if ["1", "true", "True"].contains token then some (.bool true)
    else if ["0", "false", "False"].contains token then some (.bool false)
    else none
  | .str => some (.str token)
  | .literal => some (ofLiteral token)

end TraceRepair.Value
