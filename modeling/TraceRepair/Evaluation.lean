import TraceRepair.Notice
import TraceRepair.Operator
import TraceRepair.Program
import TraceRepair.Trace

namespace TraceRepair

/-- `seconds` is for callers that watch a clock; evaluation itself knows no time. -/
structure Limits where
  entry : String := defaultEntry
  steps : Nat := 50000
  seconds : Option Nat := some 5
  callDepth : Nat := 1000
  arrays : Arrays.Room := {}

/-- `left` is how many visits the budget still allows, `depth` how many calls are open. Visits and
notices stand latest first. -/
structure Machine where
  memory : Memory
  left : Nat
  depth : Nat := 0
  visits : List Visit := []
  notices : List Notice := []

/-- The memory of the running function, the budget of visits and the record of visits outlive a
failure. -/
abbrev Eval := EStateM RuntimeError Machine

namespace Eval

def ofExcept {α : Type} : Except RuntimeError α → Eval α
  | .ok a => pure a
  | .error e => throw e

def read (name : String) : Eval Value := do
  return ((← get).memory.find? name).getD .undefined

def write (name : String) (v : Value) : Eval Unit :=
  modify fun s => { s with memory := s.memory.insert name v }

def inOrder : List (Eval Value) → Eval (List Value)
  | [] => pure []
  | first :: rest => do
    let v ← first
    let vs ← inOrder rest
    return v :: vs

/-- A failure that is not fatal counts as the undefined value, and is reported. -/
def settle (notice : RuntimeError → Notice) (value : Eval Value) : Eval Value := fun s =>
  match value s with
  | .ok v t => .ok v t
  | .error e t =>
    if e.isFatal then .error e t
    else .ok .undefined { t with notices := notice e :: t.notices }

end Eval

inductive SpecialForm where
  | conditional | and | or | call | arrayCreate

def SpecialForm.ofName? (name : String) : Option SpecialForm :=
  if name = OperatorName.conditional then some .conditional
  else if name = OperatorName.and then some .and
  else if name = OperatorName.or then some .or
  else if name = OperatorName.call then some .call
  else if name = OperatorName.arrayCreate then some .arrayCreate
  else none

def calleeName : Expr → Except RuntimeError String
  | .variable v => .ok v.unprimedName
  | .constant text _ => .ok text
  | .operation name _ _ => .error (.typeMismatch "function name" name)

abbrev CallHandler := String → List Value → Eval Value

/-- The second operand runs unless the first one decides the result. -/
def connective (name : String) (decisive : Bool) (left right : Eval Value) : Eval Value := do
  let v ← left
  if !v.isUndefined && v.isTruthy == decisive then return .bool decisive
  else
    let w ← right
    Eval.ofExcept (applyOperator name [v, w])

def operate (room : Arrays.Room) (call : CallHandler) (name : String) (args : List Expr)
    (meanings : List (Eval Value)) : Eval Value :=
  match SpecialForm.ofName? name, args, meanings with
  | some .conditional, _, [condition, yes, no] => do
    if (← condition).isTruthy then yes else no
  | some .and, _, [left, right] => connective name false left right
  | some .or, _, [left, right] => connective name true left right
  | some .call, callee :: _, _ :: meanings => do
    let function ← Eval.ofExcept (calleeName callee)
    let values ← Eval.inOrder meanings
    call function values
  | some .arrayCreate, _, first :: meanings => do
    let lengths ← Eval.inOrder (first :: meanings)
    Eval.ofExcept (Arrays.create lengths room)
  | _, _, meanings => do
    let values ← Eval.inOrder meanings
    Eval.ofExcept (applyOperator name values)

mutual

def Expr.eval (room : Arrays.Room) (call : CallHandler) : Expr → Eval Value
  | .constant text _ => pure (Value.ofLiteral text)
  | .variable v => Eval.read v.name
  | .operation name args _ => operate room call name args (Expr.evalEach room call args)

def Expr.evalEach (room : Arrays.Room) (call : CallHandler) : List Expr → List (Eval Value)
  | [] => []
  | e :: es => Expr.eval room call e :: Expr.evalEach room call es

end

namespace FlowGraph

def runAssignments (g : FlowGraph) (loc : Loc) (value : Expr → Eval Value) :
    List Assignment → Eval Unit
  | [] => pure ()
  | (target, e) :: rest => do
    let v ← Eval.settle (.undefined g.name loc target e) (value e)
    Eval.write target v
    runAssignments g loc value rest

/-- Where a run goes on; `$cond` decides between two edges, and its absence counts as false. -/
def nextLoc (t : Transition) (m : Memory) : Option Loc :=
  match t.onTrue, t.onFalse with
  | none, none => none
  | some yes, some no =>
    if ((m.find? Reserved.condition).map Value.isTruthy).getD false then some yes else some no
  | some next, none | none, some next => some next

end FlowGraph

def Eval.ofModel {α : Type} (found : Except ModelError α) : Eval α :=
  Eval.ofExcept (found.mapError fun e => .malformed (.model e))

def Eval.tick (limits : Limits) : Eval Unit := fun s =>
  match s.left with
  | 0 => .error (.timeout limits.steps) s
  | left + 1 => .ok () { s with left }

def Eval.record (function : String) (loc : Loc) : Eval Unit :=
  modify fun s => { s with visits := ⟨function, loc, s.memory⟩ :: s.visits }

/-- The variables that callers and callees share. -/
def streams : List String := [Reserved.input, Reserved.output]

def copyStreams (source target : Memory) : Memory :=
  streams.foldl
    (fun m name => match source.find? name with
      | some v => m.insert name v
      | none => m)
    target

/-- A callee starts with its parameters and the caller's streams. -/
def frame (g : FlowGraph) (args : List Value) (caller : Memory) : Memory :=
  copyStreams caller (SortedMap.ofList ((g.params.map Parameter.name).zip args))

/-- Runs a body in a memory of its own. The caller gets its memory back, with the streams as the
body left them; a failed body leaves no trace in it. -/
def Eval.inFrame (memory : Memory) (body : Eval Unit) : Eval Value := fun s =>
  match body { s with memory, depth := s.depth + 1 } with
  | .error e t => .error e { t with memory := s.memory, depth := t.depth - 1 }
  | .ok () t =>
    .ok ((t.memory.find? Reserved.result).getD .undefined)
      { t with memory := copyStreams t.memory s.memory, depth := t.depth - 1 }

/-- Functions of the program come before mathematical functions of the same name. -/
def answerCall (p : Program) (limits : Limits) (run : FlowGraph → Eval Unit) : CallHandler :=
  fun name args =>
    match p.function? name with
    | none =>
      match MathFunction.ofName? name with
      | some f => Eval.ofExcept (f.apply args)
      | none => throw (.undefinedFunction name)
    | some g =>
      if g.params.length ≠ args.length then
        throw (.malformed (.callArity name g.params.length args.length))
      else do
        let s ← get
        if limits.callDepth ≤ s.depth then throw (.stackOverflow limits.callDepth)
        else Eval.inFrame (frame g args s.memory) (run g)

/-- Runs a function from a location to its end. `fuel` bounds the visits still to come; it never
runs out before the budget does when it starts no smaller. -/
def walk (p : Program) (limits : Limits) (fuel : Nat) (g : FlowGraph) (loc : Loc) : Eval Unit :=
  match fuel with
  | 0 => throw (.timeout limits.steps)
  | fuel + 1 => do
    Eval.tick limits
    let block ← Eval.ofModel (g.block loc)
    let call := answerCall p limits fun callee => walk p limits fuel callee callee.entry
    g.runAssignments loc (Expr.eval limits.arrays call) block
    Eval.record g.name loc
    let t ← Eval.ofModel (g.transition loc)
    match FlowGraph.nextLoc t (← get).memory with
    | none => return ()
    | some next => walk p limits fuel g next

def Program.evaluate (p : Program) (limits : Limits) (e : Expr) (memory : Memory) :
    EStateM.Result RuntimeError Machine Value :=
  let call := answerCall p limits fun callee => walk p limits limits.steps callee callee.entry
  e.eval limits.arrays call { memory, left := limits.steps }

end TraceRepair
