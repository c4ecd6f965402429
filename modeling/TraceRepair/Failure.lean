import TraceRepair.Alignment
import TraceRepair.Json.Fault

namespace TraceRepair

/-- `origin` names the text that could not be read. -/
inductive Failure where
  | alignment (e : AlignmentError)
  | model (e : ModelError)
  | runtime (e : RuntimeError)
  | unreadable (origin : String) (e : Json.ReadError)
  | io (text : String)

structure ByteRange where
  start : Nat
  stop : Nat
deriving DecidableEq, Repr

namespace ByteRange

/-- Where the text behind a number of lines starts; `start` counts the bytes passed so far. -/
def lineStart (start : Nat) : Nat → List Char → Nat
  | 0, _ | _, [] => start
  | lines + 1, c :: cs =>
    if c = '\n' then lineStart (start + 1) lines cs
    else lineStart (start + c.utf8Size) (lines + 1) cs

def dropBytes? : Nat → List Char → Option (List Char)
  | 0, cs => some cs
  | _, [] => none
  | bytes, c :: cs => if bytes < c.utf8Size then none else dropBytes? (bytes - c.utf8Size) cs

/-- The character in front of a position. The last one, and a position between the bytes of one,
stand for all that is left. -/
def ofPosition (p : Json.Position) (text : List Char) : ByteRange :=
  let whole := Json.byteCount text
  let start := min (lineStart 0 (p.line - 1) text + (p.column - 1)) whole
  match dropBytes? start text with
  | some (c :: _ :: _) => ⟨start, start + c.utf8Size⟩
  | _ => ⟨start, whole⟩

end ByteRange

namespace Failure

def message : Failure → String
  | .alignment e => e.message
  | .model e => "Model error: " ++ e.message
  | .runtime e => e.display
  | .unreadable origin e => s!"Decode error in {origin}: {e.message}"
  | .io text => "IO error: " ++ text

def rangeIn? (f : Failure) (text : String) : Option ByteRange :=
  match f with
  | .unreadable _ e => some (.ofPosition e.position text.toList)
  | _ => none

end Failure

end TraceRepair
