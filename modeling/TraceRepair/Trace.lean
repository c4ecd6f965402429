import TraceRepair.FlowGraph
import TraceRepair.Value

namespace TraceRepair

abbrev Memory := SortedMap String Value

namespace Memory

def display (m : Memory) : String :=
  "\x7b" ++ ", ".intercalate (m.entries.map fun e => e.1 ++ "=" ++ e.2.display) ++ "\x7d"

def alikeEntries : List (String × Value) → List (String × Value) → Bool := Value.alikeFields

def alike (m n : Memory) : Bool := alikeEntries m.entries n.entries

end Memory

structure Visit where
  function : String
  loc : Loc
  memory : Memory

namespace Visit

def isAt (v : Visit) (function : String) (loc : Loc) : Bool :=
  v.function == function && v.loc == loc

def display (v : Visit) : String :=
  "(fnc=" ++ v.function ++ ", loc=" ++ Nat.repr v.loc ++ ", mem=" ++ Memory.display v.memory ++ ")"

end Visit

/-- Visits stand in the order in which the blocks ended. A truncated trace belongs to a run that was
stopped on its budget. -/
structure Trace where
  visits : List Visit := []
  truncated : Bool := false

namespace Trace

def length (t : Trace) : Nat := t.visits.length

def visitsAt (t : Trace) (function : String) (loc : Loc) : List Visit :=
  t.visits.filter (·.isAt function loc)

def visitsIn (t : Trace) (function : String) : List Visit :=
  t.visits.filter (·.function == function)

def last? (t : Trace) : Option Visit := t.visits.getLast?

def finalValue? (t : Trace) (name : String) : Option Value :=
  t.last?.bind fun v => v.memory.find? name

def display (t : Trace) : String :=
  "Trace [" ++ ", ".intercalate (t.visits.map Visit.display) ++ "]"
    ++ (if t.truncated then " (truncated)" else "")

end Trace

/-- For each location asked for so far, the visits behind the last one handed out. -/
structure Cursor where
  trace : Trace
  pending : List ((String × Loc) × List Visit) := []

namespace Cursor

def remaining (c : Cursor) (function : String) (loc : Loc) : List Visit :=
  (c.pending.lookup (function, loc)).getD c.trace.visits

def next? (c : Cursor) (function : String) (loc : Loc) : Option Visit × Cursor :=
  match (c.remaining function loc).dropWhile (!·.isAt function loc) with
  | [] => (none, c)
  | v :: rest =>
    let others := c.pending.filter (·.1 != (function, loc))
    (some v, { c with pending := ((function, loc), rest) :: others })

def reset (c : Cursor) : Cursor := { c with pending := [] }

end Cursor

def Trace.cursor (t : Trace) : Cursor := { trace := t }

end TraceRepair
