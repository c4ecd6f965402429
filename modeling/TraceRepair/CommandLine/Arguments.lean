import TraceRepair.Evaluation
import TraceRepair.Number.Decimal

namespace TraceRepair.CommandLine

inductive OptionName where
  | input | inputsFile | entry | steps | timeout | function | structural | pairing
deriving DecidableEq, Repr

namespace OptionName

def long : OptionName → String
  | .input => "input"
  | .inputsFile => "inputs-file"
  | .entry => "entry"
  | .steps => "steps"
  | .timeout => "timeout"
  | .function => "function"
  | .structural => "structural"
  | .pairing => "variables"

def short? : OptionName → Option Char
  | .input => some 'i'
  | _ => none

def ofRun : List OptionName := [.input, .inputsFile, .entry, .steps, .timeout]

def ofPair : List OptionName := ofRun ++ [.function, .structural, .pairing]

end OptionName

inductive UsageError where
  | noCommand
  | unknownCommand (name : String)
  | unknownOption (text : String)
  | missingValue (name : OptionName)
  | repeated (name : OptionName)
  | badNumber (name : OptionName) (text : String)
  | missingFile
  | unexpected (text : String)
deriving DecidableEq, Repr

def UsageError.message : UsageError → String
  | .noCommand => "a command is required: run, localize or repair"
  | .unknownCommand name => s!"unknown command: {name}"
  | .unknownOption text => s!"unknown option: {text}"
  | .missingValue name => s!"a value is required for --{name.long}"
  | .repeated name => s!"--{name.long} was given more than once"
  | .badNumber name text => s!"invalid value for --{name.long}: {text}"
  | .missingFile => "a file is missing"
  | .unexpected text => s!"unexpected argument: {text}"

structure Arguments where
  operands : List String := []
  options : List (OptionName × String) := []

inductive Shape where
  | operand (text : String)
  | endOfOptions
  | option (name : OptionName) (value : Option String)
  | unknown (text : String)

def ofChars (cs : List Char) : String := String.ofList cs

def longShape (known : List OptionName) (cs : List Char) : Shape :=
  let name := ofChars (cs.takeWhile (· != '='))
  match known.find? (·.long == name), cs.dropWhile (· != '=') with
  | some option, _ :: value => .option option (some (ofChars value))
  | some option, [] => .option option none
  | none, _ => .unknown ("--" ++ name)

/-- A short option holds its value right behind it, if at all. -/
def shortShape (known : List OptionName) (letter : Char) (rest : List Char) : Shape :=
  match known.find? (·.short? == some letter), rest with
  | some option, [] => .option option none
  | some option, '=' :: value | some option, value => .option option (some (ofChars value))
  | none, _ => .unknown (ofChars ['-', letter])

/-- A dash alone is no option. -/
def shape (known : List OptionName) (arg : String) : Shape :=
  match arg.toList with
  | ['-', '-'] => .endOfOptions
  | '-' :: '-' :: cs => longShape known cs
  | '-' :: letter :: rest => shortShape known letter rest
  | _ => .operand arg

def isValue (arg : String) : Bool :=
  match arg.toList with
  | '-' :: _ :: _ => false
  | _ => true

/-- Only inputs may be given more than once. -/
def Arguments.addOption (a : Arguments) (name : OptionName) (value : String) :
    Except UsageError Arguments :=
  if name ≠ .input ∧ a.options.any (·.1 == name) then .error (.repeated name)
  else .ok { a with options := a.options ++ [(name, value)] }

def Arguments.addOperand (a : Arguments) (text : String) : Arguments :=
  { a with operands := a.operands ++ [text] }

def collect (known : List OptionName) (a : Arguments) : List String → Except UsageError Arguments
  | [] => .ok a
  | arg :: args =>
    match shape known arg with
    | .operand text => collect known (a.addOperand text) args
    | .endOfOptions => .ok { a with operands := a.operands ++ args }
    | .option name (some value) => do collect known (← a.addOption name value) args
    | .option name none =>
      match args with
      | value :: args =>
        if isValue value then do collect known (← a.addOption name value) args
        else .error (.missingValue name)
      | [] => .error (.missingValue name)
    | .unknown text => .error (.unknownOption text)

namespace Arguments

def value? (a : Arguments) (name : OptionName) : Option String := a.options.lookup name

def inputs (a : Arguments) : List String := (a.options.filter (·.1 == .input)).map (·.2)

def number (a : Arguments) (name : OptionName) (default : Nat) : Except UsageError Nat :=
  match a.value? name with
  | none => .ok default
  | some text =>
    let (negative, digits) := Number.splitSign text.toList
    let n := Number.cappedValue UInt64.size digits
    if negative || digits.isEmpty || !digits.all Number.isDigit || UInt64.size ≤ n then
      .error (.badNumber name text)
    else .ok n

end Arguments

structure RunOptions where
  inputs : List String
  inputsFile : Option String
  limits : Limits

/-- No seconds mean no limit. -/
def Arguments.runOptions (a : Arguments) : Except UsageError RunOptions := do
  let usual : Limits := {}
  let steps ← a.number .steps usual.steps
  let seconds ← a.number .timeout (usual.seconds.getD 0)
  return {
    inputs := a.inputs
    inputsFile := a.value? .inputsFile
    limits := { usual with
      entry := (a.value? .entry).getD usual.entry
      steps
      seconds := if seconds = 0 then none else some seconds } }

/-- What commands on two programs take; a mapping that is not given comes from alignment. -/
structure PairOptions where
  reference : String
  submission : String
  function : String
  structural : Option String
  pairing : Option String
  run : RunOptions

def Arguments.pairOptions (a : Arguments) : Except UsageError PairOptions := do
  let run ← a.runOptions
  match a.operands with
  | [reference, submission] =>
    return {
      reference, submission, run
      function := (a.value? .function).getD defaultEntry
      structural := a.value? .structural
      pairing := a.value? .pairing }
  | _ :: _ :: more :: _ => throw (.unexpected more)
  | _ => throw .missingFile

inductive Command where
  | run (program : String) (options : RunOptions)
  | localise (options : PairOptions)
  | repair (options : PairOptions)

namespace Command

/-- Options may stand anywhere behind the command, and two dashes alone end them. -/
def parse : List String → Except UsageError Command
  | [] => .error .noCommand
  | "run" :: args => do
    let a ← collect OptionName.ofRun {} args
    match a.operands with
    | [program] => return .run program (← a.runOptions)
    | _ :: more :: _ => throw (.unexpected more)
    | [] => throw .missingFile
  | "localize" :: args => do return .localise (← (← collect OptionName.ofPair {} args).pairOptions)
  | "repair" :: args => do return .repair (← (← collect OptionName.ofPair {} args).pairOptions)
  | name :: _ => .error (.unknownCommand name)

def files : Command → List String
  | .run program options => program :: options.inputsFile.toList
  | .localise options | .repair options =>
    [options.reference, options.submission] ++ options.structural.toList
      ++ options.pairing.toList ++ options.run.inputsFile.toList

end Command

end TraceRepair.CommandLine
