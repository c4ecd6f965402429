import TraceRepair.ModelError

namespace TraceRepair

inductive InputFault where
  | exhausted
  | unreadable (token type : String)
  | formatCut
  | formatUnfed
  | conversion (letter : Char)
  | described (text : String)
deriving DecidableEq, Repr

inductive Malformation where
  | model (error : ModelError)
  | callArity (function : String) (expected got : Nat)
  | described (text : String)
deriving DecidableEq, Repr

/-- `aborted` is the end of the process, which no caller sees as an error. -/
inductive RuntimeError where
  | undefinedFunction (name : String)
  | typeMismatch (expected got : String)
  | divisionByZero
  | arity (function : String) (expected got : Nat)
  | stackOverflow (depth : Nat)
  | unknownOperator (name : String) (arity : Nat)
  | indexOutOfBounds (index : Int) (length : Nat)
  | invalidInput (fault : InputFault)
  | arrayTooLarge (lengths : List Nat) (limit : Nat)
  | fieldTooWide (limit : Nat)
  | malformed (fault : Malformation)
  | timeout (steps : Nat)
  | aborted
deriving DecidableEq, Repr

def InputFault.message : InputFault → String
  | .exhausted => "input exhausted"
  | .unreadable token type => s!"`{token}` is not a {type}"
  | .formatCut => "format ends inside a directive"
  | .formatUnfed => "not enough arguments for format"
  | .conversion letter => s!"unsupported conversion %{letter}"
  | .described text => text

def Malformation.message : Malformation → String
  | .model error => error.message
  | .callArity function expected got =>
    s!"function {function} expects {expected} argument(s), called with {got}"
  | .described text => text

namespace RuntimeError

def message : RuntimeError → String
  | .undefinedFunction name => s!"undefined function: {name}"
  | .typeMismatch expected got => s!"type error: expected {expected}, got {got}"
  | .divisionByZero => "division by zero"
  | .arity function expected got =>
    s!"function {function} expects {expected} argument(s), got {got}"
  | .stackOverflow depth => s!"stack overflow: call depth {depth} exceeded"
  | .unknownOperator name count => s!"unknown operator: {name}/{count}"
  | .indexOutOfBounds index length => s!"index {index} out of bounds for length {length}"
  | .invalidInput fault => s!"invalid input: {fault.message}"
  | .arrayTooLarge lengths limit =>
    let listed := ", ".intercalate (lengths.map Nat.repr)
    s!"array of dimensions [{listed}] exceeds {limit} elements"
  | .fieldTooWide limit => s!"format width or precision exceeds {limit}"
  | .malformed fault => s!"malformed program: {fault.message}"
  | .timeout steps => s!"execution budget exhausted after {steps} steps"
  | .aborted => "Formatting argument out of range"

def display (e : RuntimeError) : String := s!"Runtime error: {e.message}"

/-- Ends the run instead of leaving a variable undefined. -/
def isFatal : RuntimeError → Bool
  | .timeout _ | .malformed _ | .aborted => true
  | _ => false

end RuntimeError

end TraceRepair
