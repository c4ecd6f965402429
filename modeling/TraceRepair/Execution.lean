import TraceRepair.Evaluation

namespace TraceRepair

/-- Streams first, then the parameters; an argument that is missing or cannot be read as the
parameter's type leaves it undefined. -/
def initialMemory (g : FlowGraph) (input : RunInput) : Memory :=
  let streams : Memory :=
    (SortedMap.empty.insert Reserved.input (.array (input.tokens.map .str))).insert
      Reserved.output (.str "")
  let args := g.params.zipIdx.map fun (p, i) =>
    (p.name, ((input.args[i]?).bind fun arg => Value.ofInput? arg p.type).getD .undefined)
  args.foldl (fun m e => m.insert e.1 e.2) streams

/-- A run that uses up its budget is no failure: its trace says that it was stopped. -/
def Program.execute (p : Program) (limits : Limits) (input : RunInput) :
    Except RuntimeError Trace × List Notice :=
  match p.function? limits.entry with
  | none => (.error (.undefinedFunction limits.entry), [])
  | some g =>
    let start : Machine := { memory := initialMemory g input, left := limits.steps }
    match walk p limits limits.steps g g.entry start with
    | .ok () s => (.ok { visits := s.visits.reverse }, s.notices.reverse)
    | .error (.timeout steps) s =>
      (.ok { visits := s.visits.reverse, truncated := true },
        (Notice.stopped g.name (.timeout steps) :: s.notices).reverse)
    | .error e s => (.error e, s.notices.reverse)

end TraceRepair
