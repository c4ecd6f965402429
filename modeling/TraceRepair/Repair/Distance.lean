import TraceRepair.Expr

namespace TraceRepair.Expr

mutual

/-- Alike expressions do not differ. Operations with one name and number of arguments differ by
their arguments, two leaves by one change of label, and any others as if one were deleted and the
other inserted. -/
def distance (a b : Expr) : Nat :=
  if a.alike b then 0
  else
    match a, b with
    | .operation f as _, .operation g bs _ =>
      if f = g ∧ as.length = bs.length then distanceAll as bs else a.size + b.size
    | .operation .., _ => a.size + b.size
    | _, .operation .. => a.size + b.size
    | _, _ => 1

def distanceAll : List Expr → List Expr → Nat
  | a :: as, b :: bs => distance a b + distanceAll as bs
  | _, _ => 0

end

def repairCost : Option Expr → Option Expr → Nat
  | some a, some b => a.distance b
  | some e, none | none, some e => e.size
  | none, none => 0

end TraceRepair.Expr
