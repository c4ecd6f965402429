namespace TraceRepair.Text

/-- Code points in ascending order: members run from each one at an even place up to the next. -/
structure CharSet where
  turns : List Nat

namespace CharSet

def covers (code : Nat) : List Nat → Bool
  | start :: stop :: rest => if code < start then false else code < stop || covers code rest
  | [start] => start ≤ code
  | [] => false

def contains (s : CharSet) (c : Char) : Bool := covers c.toNat s.turns

end CharSet

end TraceRepair.Text
