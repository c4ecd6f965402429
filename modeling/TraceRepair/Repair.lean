import TraceRepair.Localisation
import TraceRepair.Repair.Distance
import TraceRepair.Repair.Transfer
import TraceRepair.Expr.Pretty

namespace TraceRepair

inductive RepairAction where
  | change (old new : Expr)
  | add (new : Expr)
  | delete (old : Expr)

namespace RepairAction

/-- Nothing is to be done where both sides are alike or missing. -/
def between? : Option Expr → Option Expr → Option RepairAction
  | some old, some new => if old.alike new then none else some (.change old new)
  | none, some new => some (.add new)
  | some old, none => some (.delete old)
  | none, none => none

def old? : RepairAction → Option Expr
  | .change old _ | .delete old => some old
  | .add _ => none

def new? : RepairAction → Option Expr
  | .change _ new | .add new => some new
  | .delete _ => none

def display (name : String) : RepairAction → String
  | .change old new => s!"Change {name} = " ++ old.pretty ++ s!" to {name} = " ++ new.pretty
  | .add new => s!"Add {name} = " ++ new.pretty
  | .delete old => s!"Delete {name} = " ++ old.pretty

end RepairAction

/-- One edit of one variable of the submission at one location. Its cost is counted in nodes, or
weighed in whatever can be added up. -/
structure LocalRepair (κ : Type) where
  bijection : Bijection
  cost : κ
  target : Variable
  action : RepairAction
  function : String
  reference : Loc
  submission : Loc

variable {κ : Type}

def LocalRepair.display (r : LocalRepair κ) : String :=
  r.action.display r.target.unprimedName ++ s!" at location " ++ Nat.repr r.submission

def displayRepairs (repairs : List (LocalRepair κ)) : String :=
  "\n".intercalate (repairs.map LocalRepair.display)

structure RepairCandidate (κ : Type) where
  repairs : List (LocalRepair κ) := []

namespace RepairCandidate

def add (c : RepairCandidate κ) (r : LocalRepair κ) : RepairCandidate κ := ⟨c.repairs ++ [r]⟩

def cost [Add κ] [OfNat κ 0] (c : RepairCandidate κ) : κ :=
  c.repairs.foldl (fun total r => total + r.cost) 0

def display (c : RepairCandidate κ) : String := displayRepairs c.repairs

end RepairCandidate

namespace Synthesis

def ofModel {α : Type} (found : Except ModelError α) : Except SynthesisError α :=
  found.mapError .model

/-- The mapped pairs of which either side is assigned, and the reserved variables that are assigned
on either side without being mapped. -/
def assignedPairs (reference submission : FlowGraph) (b : Bijection) (refLoc subLoc : Loc) :
    Except SynthesisError (List (Variable × Variable)) := do
  let ours := (← ofModel (reference.block refLoc)).map (·.1)
  let theirs := (← ofModel (submission.block subLoc)).map (·.1)
  let mapped := b.pairs.filter fun p =>
    ours.contains p.1.unprimedName || theirs.contains p.2.unprimedName
  let names := (SortedMap.ofList ((ours ++ theirs).map fun name => (name, ()))).keys
  let reserved := names.filter fun name => isReserved name && !b.contains (.reference name)
  return mapped ++ reserved.map fun name => (.reference name, .reference name)

def suspects (reference submission : FlowGraph) (b : Bijection) (kind : DivergenceKind)
    (refLoc subLoc : Loc) : Except SynthesisError (List (Variable × Variable)) :=
  match kind with
  | .values differing => differing.mapM fun r => do
    let s ← b.resolve r
    return (r, s)
  | _ => assignedPairs reference submission b refLoc subLoc

def localRepair? (reference submission : FlowGraph) (b : Bijection) (refLoc subLoc : Loc)
    (r s : Variable) : Except SynthesisError (Option (LocalRepair Nat)) := do
  let old ← ofModel (submission.assigned subLoc s.unprimedName)
  let new ← match ← ofModel (reference.assigned refLoc r.unprimedName) with
    | some e => (e.transfer b).map some
    | none => pure none
  return (RepairAction.between? old new).map fun action =>
    { bijection := b, cost := Expr.repairCost old new, target := s.toUnprimed, action,
      function := reference.name, reference := refLoc, submission := subLoc }

abbrev Seen := List (Variable.Key × Loc × Loc)

/-- A variable is repaired once at each pair of locations. -/
def repairPairs (reference submission : FlowGraph) (b : Bijection) (refLoc subLoc : Loc) :
    List (Variable × Variable) → Seen → Except SynthesisError (List (LocalRepair Nat) × Seen)
  | [], seen => .ok ([], seen)
  | (r, s) :: pairs, seen =>
    let place := (s.key, refLoc, subLoc)
    if seen.contains place then repairPairs reference submission b refLoc subLoc pairs seen
    else do
      let found ← localRepair? reference submission b refLoc subLoc r s
      let (rest, seen) ← repairPairs reference submission b refLoc subLoc pairs (place :: seen)
      return (found.toList ++ rest, seen)

/-- Divergences without a location of the submission call for nothing. -/
def repairDivergences (reference submission : FlowGraph) (b : Bijection) :
    List Divergence → Seen → Except SynthesisError (List (LocalRepair Nat))
  | [], _ => .ok []
  | d :: ds, seen =>
    match d.kind, d.submission with
    | .unmatched _, _ => repairDivergences reference submission b ds seen
    | _, none => repairDivergences reference submission b ds seen
    | kind, some subLoc => do
      let pairs ← suspects reference submission b kind d.reference subLoc
      let (found, seen) ← repairPairs reference submission b d.reference subLoc pairs seen
      let rest ← repairDivergences reference submission b ds seen
      return found ++ rest

def repairCandidate (reference submission : FlowGraph) (c : CandidateDivergences) :
    Except SynthesisError (List (LocalRepair Nat)) :=
  repairDivergences reference submission c.bijection c.divergences []

/-- The candidate that a completed synthesis gives, or the notice of a failed one. A candidate
without repairs is no candidate. -/
def outcome (function : String) (number : Nat) :
    Except SynthesisError (List (LocalRepair Nat)) → List (RepairCandidate Nat) × List Notice
  | .ok [] => ([], [])
  | .ok repairs => ([⟨repairs⟩], [])
  | .error e => ([], [.dropped function number e.message])

def repairFunction (reference submission : Program) (pairing : VariableMapping)
    (function : String) (stored : List CandidateDivergences) :
    List (RepairCandidate Nat) × List Notice :=
  match reference.function? function, submission.function? function with
  | some graph, some other =>
    let now := (pairing.candidates function).length
    let recounted : List Notice :=
      if stored.length ≠ now then [.recounted function stored.length now] else []
    let outcomes := stored.zipIdx.map fun (c, i) =>
      outcome function i (repairCandidate graph other c)
    (outcomes.flatMap (·.1), recounted ++ outcomes.flatMap (·.2))
  | _, _ => ([], [.missing function])

def repair (reference submission : Program) (localisation : Localisation)
    (pairing : VariableMapping) : List (RepairCandidate Nat) × List Notice :=
  let found := localisation.functions.entries.map fun e =>
    repairFunction reference submission pairing e.1 e.2
  (found.flatMap (·.1), found.flatMap (·.2))

end Synthesis

end TraceRepair
