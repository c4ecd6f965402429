import TraceRepair.Divergence
import TraceRepair.RuntimeError

namespace TraceRepair

inductive Notice where
  | undefined (function : String) (loc : Loc) (target : String) (e : Expr) (cause : RuntimeError)
  | stopped (function : String) (cause : RuntimeError)
  | paired (function : String) (count : Nat)
  | mapped (function : String) (count : Nat)
  | compared (input : RunInput) (reference submission : Nat)
  | diverged (function : String) (candidate : Nat) (divergence : Divergence)
  | missing (function : String)
  | recounted (function : String) (localised mapped : Nat)
  | dropped (function : String) (candidate : Nat) (reason : String)
  | repaired (function : String) (count : Nat)

namespace Notice

def message : Notice → String
  | .undefined function loc target e cause =>
    s!"{function}:{loc}: {target} := " ++ e.display ++ " is undefined (" ++ cause.display ++ ")"
  | .stopped function cause => function ++ ": " ++ cause.display
  | .paired function count => s!"{function}: paired {count} variable(s) by name"
  | .mapped function count => s!"{function}: {count} variable mapping candidate(s)"
  | .compared input reference submission =>
    input.display ++ s!": {reference} reference / {submission} submission entries"
  | .diverged function candidate divergence =>
    function ++ " #" ++ Nat.repr candidate ++ ": " ++ divergence.display
  | .missing function => s!"`{function}` is missing from one of the programs, nothing to repair"
  | .recounted function localised now =>
    s!"`{function}` was localized under {localised} candidate(s), the mapping now has {now}"
  | .dropped function candidate reason =>
    "dropping candidate #" ++ Nat.repr candidate ++ s!" of `{function}`: {reason}"
  | .repaired function count => s!"{function}: {count} repair candidate(s)"

end Notice

end TraceRepair
