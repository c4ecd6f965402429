import TraceRepair.CommandLine.Arguments
import TraceRepair.Persisted.Structural
import TraceRepair.Pipeline

namespace TraceRepair.CommandLine

inductive FileFault where
  | missing
  | notText
  | system (text : String) (code : Nat)
deriving DecidableEq, Repr

def FileFault.message : FileFault → String
  | .missing => "No such file or directory (os error 2)"
  | .notText => "stream did not contain valid UTF-8"
  | .system text code => s!"{text} (os error {code})"

abbrev Files := String → Except FileFault String

structure Outcome where
  printed : String
  failure : Option Failure := none

namespace Outcome

/-- A process that ends early has a code of its own and no complaint. -/
def exitCode (o : Outcome) : Nat :=
  match o.failure with
  | none => 0
  | some (.runtime .aborted) => 101
  | some _ => 1

def complaint? (o : Outcome) : Option String :=
  match o.failure with
  | some (.runtime .aborted) => none
  | failure => failure.map fun f => "Error: " ++ f.message

end Outcome

def load {α : Type} (files : Files) (reader : Json.Reader α) (name : String) : Except Failure α :=
  match files name with
  | .error fault => .error (.io (name ++ ": " ++ fault.message))
  | .ok text => (reader.run text).mapError (.unreadable name)

/-- The inputs given as text, then those of the file, and the empty one if there is no other. -/
def RunOptions.loadInputs (o : RunOptions) (files : Files) : Except Failure (List RunInput) := do
  let stored ← match o.inputsFile with
    | some name => load files RunInput.listReader name
    | none => pure []
  match o.inputs.map RunInput.ofStream ++ stored with
  | [] => return [{}]
  | inputs => return inputs

structure LoadedPair where
  reference : Program
  submission : Program
  structural : StructuralMapping
  pairing : VariableMapping

def PairOptions.load (o : PairOptions) (files : Files) : Except Failure LoadedPair := do
  let reference ← CommandLine.load files Program.reader o.reference
  let submission ← CommandLine.load files Program.reader o.submission
  let structural ← match o.structural with
    | some name => CommandLine.load files StructuralMapping.reader name
    | none => (Alignment.structuralMapping reference submission).mapError .alignment
  let pairing ← match o.pairing with
    | some name => CommandLine.load files VariableMapping.reader name
    | none => (Alignment.variableMapping reference submission structural).1.mapError .alignment
  return { reference, submission, structural, pairing }

def PairOptions.task (o : PairOptions) (pair : LoadedPair) (inputs : List RunInput) :
    RepairTask where
  reference := pair.reference
  submission := pair.submission
  inputs := inputs
  function := o.function
  limits := o.run.limits

def line (text : String) : String := text ++ "\n"

def traceText (input : RunInput) (t : Trace) : String :=
  line input.display ++ String.join (t.visits.map fun v => line ("  " ++ v.display))
    ++ (if t.truncated then line "  (truncated)" else "")

/-- One trace after the other, up to the first run that fails. -/
def printRuns (p : Program) (limits : Limits) (printed : String) : List RunInput → Outcome
  | [] => { printed }
  | input :: inputs =>
    match (p.execute limits input).1 with
    | .error e => { printed, failure := some (.runtime e) }
    | .ok t => printRuns p limits (printed ++ traceText input t) inputs

def localisationText (l : Localisation) : String :=
  if l.length = 0 then line "No error locations found" else l.display

def candidateText (number : Nat) (c : RepairCandidate Nat) : String :=
  line s!"Candidate {number} (cost {c.cost}):" ++ line c.display

def candidatesText : List (RepairCandidate Nat) → String
  | [] => line "No repair found"
  | candidates => String.join ((candidates.zipIdx 1).map fun (c, i) => candidateText i c)

def Outcome.ofText : Except Failure String → Outcome
  | .ok printed => { printed }
  | .error e => { printed := "", failure := some e }

/-- What was printed before a failure stays printed. -/
def Command.carryOut (files : Files) : Command → Outcome
  | .run program options =>
    let loaded := do
      let p ← load files Program.reader program
      return (p, ← options.loadInputs files)
    match loaded with
    | .error e => .ofText (.error e)
    | .ok (p, inputs) => printRuns p options.limits "" inputs
  | .localise options => .ofText do
    let pair ← options.load files
    let inputs ← options.run.loadInputs files
    let found ← ((options.task pair inputs).localiseWith pair.structural pair.pairing).1
    return localisationText found
  | .repair options => .ofText do
    let pair ← options.load files
    let inputs ← options.run.loadInputs files
    let outcome ← ((options.task pair inputs).repairWith pair.structural pair.pairing).1
    return candidatesText outcome.candidates

end TraceRepair.CommandLine
