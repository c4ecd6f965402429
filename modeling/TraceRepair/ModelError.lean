namespace TraceRepair

inductive ModelError where
  | unknownLocation (function : String) (loc : Nat)
  | unknownVariable (function name : String) (loc : Nat)
  | unknownFunction (name : String)
deriving DecidableEq, Repr

def ModelError.message : ModelError → String
  | .unknownLocation function loc => s!"unknown location: {loc} in function `{function}`"
  | .unknownVariable function name loc =>
    s!"unknown var: {name} at loc: {loc} in function `{function}`"
  | .unknownFunction name => s!"unknown function: {name}"

end TraceRepair
