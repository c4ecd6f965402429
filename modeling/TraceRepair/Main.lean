import TraceRepair.CommandLine

open TraceRepair CommandLine

/-- Faults of the system keep its words and its number. -/
def fileFault : IO.Error → FileFault
  | .noFileOrDirectory .. => .missing
  | .permissionDenied _ code text | .inappropriateType _ code text
  | .invalidArgument _ code text | .otherError code text => .system text code.toNat
  | _ => .notText

def readFile (name : String) : IO (Except FileFault String) := do
  match ← (IO.FS.readFile name).toBaseIO with
  | .ok text => return .ok text
  | .error e => return .error (fileFault e)

def readFiles (names : List String) : IO (List (String × Except FileFault String)) :=
  names.mapM fun name => do return (name, ← readFile name)

def carryOut (command : Command) : IO UInt32 := do
  let found ← readFiles command.files
  let outcome := command.carryOut fun name => (found.lookup name).getD (.error .missing)
  IO.print outcome.printed
  for complaint in outcome.complaint? do
    IO.eprintln complaint
  return outcome.exitCode.toUInt32

def main (args : List String) : IO UInt32 := do
  match Command.parse args with
  | .ok command => carryOut command
  | .error e =>
    IO.eprintln ("error: " ++ e.message)
    return 2
