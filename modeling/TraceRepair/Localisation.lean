import TraceRepair.Execution
import TraceRepair.Failure

namespace TraceRepair

structure CandidateDivergences where
  bijection : Bijection
  divergences : List Divergence := []

structure Localisation where
  functions : SortedMap String (List CandidateDivergences) := ∅

namespace Localisation

def empty : Localisation := {}

instance : Inhabited Localisation := ⟨empty⟩

def candidates (l : Localisation) (function : String) : List CandidateDivergences :=
  (l.functions.find? function).getD []

def addCandidate (l : Localisation) (function : String) (b : Bijection) : Nat × Localisation :=
  let known := l.candidates function
  (known.length, ⟨l.functions.insert function (known ++ [{ bijection := b }])⟩)

/-- Nothing is recorded for a candidate that is not there. -/
def addDivergence (l : Localisation) (function : String) (candidate : Nat) (d : Divergence) :
    Localisation :=
  ⟨l.functions.modify function fun known =>
    known.modify candidate fun c => { c with divergences := c.divergences ++ [d] }⟩

def divergences (l : Localisation) (function : String) (candidate : Nat) : List Divergence :=
  (((l.candidates function)[candidate]?).map CandidateDivergences.divergences).getD []

def length (l : Localisation) : Nat :=
  l.functions.values.flatten.foldl (fun count c => count + c.divergences.length) 0

def displayCandidate (function : String) (number : Nat) (c : CandidateDivergences) : String :=
  function ++ " #" ++ Nat.repr number ++ " " ++ c.bijection.display ++ "\n"
    ++ String.join (c.divergences.map fun d => "  " ++ d.display ++ "\n")

def display (l : Localisation) : String :=
  String.join <| l.functions.entries.map fun e =>
    String.join <| e.2.zipIdx.map fun (c, i) => displayCandidate e.1 i c

end Localisation

/-- A variable of the reference with the names under which the two memories hold its values. -/
structure Watched where
  reference : Variable
  expected : String
  found : String

def Bijection.watched (b : Bijection) : List Watched :=
  b.pairs.map fun p => ⟨p.1, p.1.unprimedName, p.2.unprimedName⟩

/-- The variables of the reference whose values differ; two that are both missing agree. -/
def differing (watched : List Watched) (reference submission : Memory) : List Variable :=
  (watched.filter fun w =>
    !Value.alikeOption (reference.find? w.expected) (submission.find? w.found)).map (·.reference)

/-- Each visit of the reference is paired with the next visit of the matching location of the
submission, up to the first that has no counterpart. -/
def compareVisits (function : String) (mapping : StructuralMapping) (watched : List Watched) :
    List Visit → Cursor → List Divergence
  | [], _ => []
  | visit :: visits, cursor =>
    match mapping.matching? function visit.loc with
    | none =>
      let cause := if (mapping.mapping? function).isNone then Unmatched.function function
        else .location function visit.loc
      [⟨.unmatched cause, visit.loc, none, none⟩]
    | some loc =>
      match cursor.next? function loc with
      | (none, _) => [⟨.visits, visit.loc, some loc, none⟩]
      | (some other, cursor) =>
        let rest := compareVisits function mapping watched visits cursor
        match differing watched visit.memory other.memory with
        | [] => rest
        | found => ⟨.values found, visit.loc, some loc, none⟩ :: rest

structure PairedRun where
  input : RunInput
  reference : Trace
  submission : Trace

def PairedRun.divergences (r : PairedRun) (function : String) (mapping : StructuralMapping)
    (b : Bijection) : List Divergence :=
  compareVisits function mapping b.watched (r.reference.visitsIn function) r.submission.cursor

/-- Runs both programs on each input; the first failure ends it. -/
def runPairs (reference submission : Program) (limits : Limits) :
    List RunInput → Except RuntimeError (List PairedRun) × List Notice
  | [] => (.ok [], [])
  | input :: inputs =>
    match reference.execute limits input with
    | (.error e, notices) => (.error e, notices)
    | (.ok expected, before) =>
      match submission.execute limits input with
      | (.error e, notices) => (.error e, before ++ notices)
      | (.ok found, behind) =>
        let (rest, notices) := runPairs reference submission limits inputs
        (rest.map (⟨input, expected, found⟩ :: ·),
          before ++ behind ++ .compared input expected.length found.length :: notices)

def candidateDivergences (function : String) (mapping : StructuralMapping) (runs : List PairedRun)
    (b : Bijection) : CandidateDivergences where
  bijection := b
  divergences := runs.flatMap fun r =>
    (r.divergences function mapping b).map fun d => { d with input := some r.input }

/-- Reports each divergence before it is put down to its input. -/
def divergenceNotices (function : String) (found : List CandidateDivergences) : List Notice :=
  found.zipIdx.flatMap fun (c, i) =>
    c.divergences.map fun d => .diverged function i { d with input := none }

def localise (reference submission : Program) (limits : Limits) (inputs : List RunInput)
    (function : String) (structural : StructuralMapping) (pairing : VariableMapping) :
    Except Failure Localisation × List Notice :=
  match reference.function function with
  | .error e => (.error (.model e), [])
  | .ok _ =>
    match runPairs reference submission limits inputs with
    | (.error e, notices) => (.error (.runtime e), notices)
    | (.ok runs, notices) =>
      match (pairing.candidates function).map (candidateDivergences function structural runs) with
      | [] => (.ok .empty, notices)
      | found =>
        (.ok ⟨SortedMap.empty.insert function found⟩,
          notices ++ divergenceNotices function found)

end TraceRepair
