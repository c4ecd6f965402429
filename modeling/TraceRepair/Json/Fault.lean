import TraceRepair.Text.Quoted
import TraceRepair.Json

namespace TraceRepair.Json

inductive Found where
  | null
  | bool (b : Bool)
  | natural (n : Nat)
  | negative (n : Int)
  | real (x : Float)
  | text (s : String)
  | sequence
  | map

def Found.describe : Found → String
  | .null => "null"
  | .bool b => if b then "boolean `true`" else "boolean `false`"
  | .natural n => "integer `" ++ Nat.repr n ++ "`"
  | .negative n => "integer `" ++ Number.signedDecimal n ++ "`"
  | .real x => "floating point `" ++ Number.markedFloatText x ++ "`"
  | .text s => "string " ++ Text.quoted s
  | .sequence => "sequence"
  | .map => "map"

inductive Category where
  | syntaxFault | data | eof
deriving DecidableEq, Repr

inductive Reason where
  | eofList
  | eofObject
  | eofString
  | eofValue
  | expectedColon
  | expectedListCommaOrEnd
  | expectedObjectCommaOrEnd
  | expectedIdent
  | expectedValue
  | expectedQuote
  | invalidEscape
  | invalidNumber
  | numberOutOfRange
  | controlCharacter
  | keyNotString
  | keyNotNumber
  | loneSurrogate
  | trailingComma
  | trailingCharacters
  | unfinishedSurrogate
  | invalidType (found : Found) (expected : String)
  | invalidValue (found : Found) (expected : String)
  | invalidLength (length : Nat) (expected : String)
  | unknownVariant (name : String) (known : List String)
  | duplicateField (name : String)
  | missingField (name : String)
  | inKey (reason : Reason)

namespace Reason

/-- A fault inside a key is one of the data around it. -/
def category : Reason → Category
  | .eofList | .eofObject | .eofString | .eofValue => .eof
  | .invalidType .. | .invalidValue .. | .invalidLength .. | .unknownVariant ..
  | .duplicateField _ | .missingField _ | .inKey _ => .data
  | _ => .syntaxFault

/-- Names between backquotes: one alone, two with "or", more in a list. -/
def oneOf (names : List String) : String :=
  match names.map fun name => "`" ++ name ++ "`" with
  | [a] => a
  | [a, b] => a ++ " or " ++ b
  | shown => "one of " ++ ", ".intercalate shown

def message : Reason → String
  | .eofList => "EOF while parsing a list"
  | .eofObject => "EOF while parsing an object"
  | .eofString => "EOF while parsing a string"
  | .eofValue => "EOF while parsing a value"
  | .expectedColon => "expected `:`"
  | .expectedListCommaOrEnd => "expected `,` or `]`"
  | .expectedObjectCommaOrEnd => "expected `,` or `\x7d`"
  | .expectedIdent => "expected ident"
  | .expectedValue => "expected value"
  | .expectedQuote => "expected `\"`"
  | .invalidEscape => "invalid escape"
  | .invalidNumber => "invalid number"
  | .numberOutOfRange => "number out of range"
  | .controlCharacter =>
    "control character (\\u0000-\\u001F) found while parsing a string"
  | .keyNotString => "key must be a string"
  | .keyNotNumber => "invalid value: expected key to be a number in quotes"
  | .loneSurrogate => "lone leading surrogate in hex escape"
  | .trailingComma => "trailing comma"
  | .trailingCharacters => "trailing characters"
  | .unfinishedSurrogate => "unexpected end of hex escape"
  | .invalidType found expected => "invalid type: " ++ found.describe ++ ", expected " ++ expected
  | .invalidValue found expected => "invalid value: " ++ found.describe ++ ", expected " ++ expected
  | .invalidLength length expected =>
    "invalid length " ++ Nat.repr length ++ ", expected " ++ expected
  | .unknownVariant name known => "unknown variant `" ++ name ++ "`, expected " ++ oneOf known
  | .duplicateField name => "duplicate field `" ++ name ++ "`"
  | .missingField name => "missing field `" ++ name ++ "`"
  | .inKey reason => reason.message

end Reason

/-- A line and a column, counted in bytes; both are zero where no place is known. -/
structure Position where
  line : Nat
  column : Nat
deriving DecidableEq, Repr

/-- A fault in the text itself stands at its place at once; `left` counts the bytes behind it. One
in what the text says belongs to the value that was just finished, so its place is `pending`, with
the text not taken yet, until the brackets around it are looked for. `settled` is a place in another
text. -/
inductive Place where
  | left (bytes : Nat)
  | pending (rest : List Char)
  | settled (position : Position)

structure Fault where
  reason : Reason
  place : Place

def byteCount (cs : List Char) : Nat := cs.foldl (fun bytes c => bytes + c.utf8Size) 0

namespace Fault

def here (reason : Reason) (rest : List Char) : Fault := ⟨reason, .left (byteCount rest)⟩

def past (reason : Reason) (rest : List Char) : Fault := ⟨reason, .left (byteCount rest - 1)⟩

def pending (reason : Reason) (rest : List Char) : Fault := ⟨reason, .pending rest⟩

/-- Gives a fault that has no place yet the one that `reach` finds from where the reader stands. -/
def settle (reach : List Char → List Char) (f : Fault) : Fault :=
  match f.place with
  | .pending rest => here f.reason (reach rest)
  | _ => f

end Fault

def positionFrom (line column : Nat) : Nat → List Char → Position
  | 0, _ => ⟨line, column⟩
  | bytes, [] => ⟨line, column + bytes⟩
  | bytes, c :: cs =>
    if bytes < c.utf8Size then ⟨line, column + bytes⟩
    else if c = '\n' then positionFrom (line + 1) 0 (bytes - 1) cs
    else positionFrom line (column + c.utf8Size) (bytes - c.utf8Size) cs

namespace Fault

/-- A fault that no brackets enclose has no place. -/
def position (f : Fault) (text : List Char) : Position :=
  match f.place with
  | .left bytes => positionFrom 1 0 (byteCount text - bytes) text
  | .pending _ => ⟨0, 0⟩
  | .settled position => position

end Fault

structure ReadError where
  reason : Reason
  position : Position

namespace ReadError

def category (e : ReadError) : Category := e.reason.category

def message (e : ReadError) : String :=
  if e.position.line = 0 then e.reason.message
  else e.reason.message ++ s!" at line {e.position.line} column {e.position.column}"

end ReadError

end TraceRepair.Json
