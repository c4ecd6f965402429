import TraceRepair.Repair

namespace TraceRepair

structure RepairTask where
  reference : Program
  submission : Program
  inputs : List RunInput
  function : String
  limits : Limits

structure RepairOutcome where
  structural : StructuralMapping
  pairing : VariableMapping
  localisation : Localisation
  candidates : List (RepairCandidate Nat)

namespace RepairTask

def localiseWith (task : RepairTask) (structural : StructuralMapping)
    (pairing : VariableMapping) : Except Failure Localisation × List Notice :=
  localise task.reference task.submission task.limits task.inputs task.function structural pairing

def repairWith (task : RepairTask) (structural : StructuralMapping) (pairing : VariableMapping) :
    Except Failure RepairOutcome × List Notice :=
  match task.localiseWith structural pairing with
  | (.error e, notices) => (.error e, notices)
  | (.ok localisation, found) =>
    let (candidates, dropped) :=
      Synthesis.repair task.reference task.submission localisation pairing
    (.ok { structural, pairing, localisation, candidates },
      found ++ dropped ++ [.repaired task.function candidates.length])

/-- Under alignment by name; where that fails nothing is run. -/
def repairAligned (task : RepairTask) : Except Failure RepairOutcome × List Notice :=
  match Alignment.structuralMapping task.reference task.submission with
  | .error e => (.error (.alignment e), [])
  | .ok structural =>
    match Alignment.variableMapping task.reference task.submission structural with
    | (.error e, notices) => (.error (.alignment e), notices)
    | (.ok pairing, paired) =>
      let (outcome, notices) := task.repairWith structural pairing
      let mapped := Notice.mapped task.function (pairing.candidates task.function).length
      (outcome, paired ++ mapped :: notices)

end RepairTask

end TraceRepair
