import TraceRepair.Proofs.Calls
import TraceRepair.Proofs.OperationForm

namespace TraceRepair

/-- A call of a function of the program that came back. -/
structure Call where
  callee : FlowGraph
  start : Memory
  visits : List Visit
  final : Memory

/-- Why an evaluation comes to no value: it fails, or it waits for a callee that was cut off. -/
inductive Stop where
  | failure (e : RuntimeError)
  | waiting (callee : FlowGraph) (start : Memory)

def Stop.ofResult {α : Type} (r : Except RuntimeError α) : Except Stop α := r.mapError .failure

section Rules

variable (p : Program) (limits : Limits)

inductive Called (depth : Nat) (name : String) (args : List Value) (m : Memory) :
    List Call → Except Stop Value → Memory → Prop where
  | outside (found : p.function? name = none) :
      Called depth name args m [] (Stop.ofResult (mathResult name args)) m
  | refused {g : FlowGraph} (found : p.function? name = some g)
      (fits : g.params.length = args.length) (deep : limits.callDepth ≤ depth) :
      Called depth name args m [] (.error (.failure (.stackOverflow limits.callDepth))) m
  | returned {c : Call} (found : p.function? name = some c.callee)
      (fits : c.callee.params.length = args.length) (room : depth < limits.callDepth)
      (start : c.start = frame c.callee args m) :
      Called depth name args m [c] (.ok ((c.final.find? Reserved.result).getD .undefined))
        (copyStreams c.final m)
  | waiting {g : FlowGraph} (found : p.function? name = some g)
      (fits : g.params.length = args.length) (room : depth < limits.callDepth) :
      Called depth name args m [] (.error (.waiting g (frame g args m))) m

mutual

/-- An evaluation that starts in one memory, makes calls in order, and leaves another memory. -/
inductive Evaluates (depth : Nat) : Expr → Memory → List Call → Except Stop Value → Memory → Prop
  where
  | constant (text : String) (line : Nat) (m : Memory) :
      Evaluates depth (.constant text line) m [] (.ok (Value.ofLiteral text)) m
  | read (v : Variable) (m : Memory) :
      Evaluates depth (.variable v) m [] (.ok ((m.find? v.name).getD .undefined)) m
  | branch {condition yes no : Expr} {line : Nat} {m m₁ m₂ : Memory} {before after : List Call}
      {v : Value} {r : Except Stop Value}
      (first : Evaluates depth condition m before (.ok v) m₁)
      (chosen : Evaluates depth (if v.isTruthy then yes else no) m₁ after r m₂) :
      Evaluates depth (.operation OperatorName.conditional [condition, yes, no] line) m
        (before ++ after) r m₂
  | conditionStops {condition yes no : Expr} {line : Nat} {m m₁ : Memory} {calls : List Call}
      {stop : Stop} (first : Evaluates depth condition m calls (.error stop) m₁) :
      Evaluates depth (.operation OperatorName.conditional [condition, yes, no] line) m calls
        (.error stop) m₁
  | decided {name : String} {left right : Expr} {line : Nat} {m m₁ : Memory} {calls : List Call}
      {v : Value} {decisive : Bool} (connective : decisive? name = some decisive)
      (first : Evaluates depth left m calls (.ok v) m₁) (defined : v.isUndefined = false)
      (decides : v.isTruthy = decisive) :
      Evaluates depth (.operation name [left, right] line) m calls (.ok (.bool decisive)) m₁
  | undecided {name : String} {left right : Expr} {line : Nat} {m m₁ m₂ : Memory}
      {before after : List Call} {v : Value} {r : Except Stop Value} {decisive : Bool}
      (connective : decisive? name = some decisive)
      (first : Evaluates depth left m before (.ok v) m₁)
      (undecided : v.isUndefined = true ∨ v.isTruthy ≠ decisive)
      (second : Evaluates depth right m₁ after r m₂) :
      Evaluates depth (.operation name [left, right] line) m (before ++ after)
        (r.bind fun w => Stop.ofResult (applyOperator name [v, w])) m₂
  | leftStops {name : String} {left right : Expr} {line : Nat} {m m₁ : Memory}
      {calls : List Call} {stop : Stop} {decisive : Bool}
      (connective : decisive? name = some decisive)
      (first : Evaluates depth left m calls (.error stop) m₁) :
      Evaluates depth (.operation name [left, right] line) m calls (.error stop) m₁
  | unnamed {callee : Expr} {args : List Expr} {line : Nat} {m : Memory} {e : RuntimeError}
      (unusable : calleeName callee = .error e) :
      Evaluates depth (.operation OperatorName.call (callee :: args) line) m []
        (.error (.failure e)) m
  | call {callee : Expr} {args : List Expr} {line : Nat} {m m₁ m₂ : Memory}
      {before after : List Call} {name : String} {values : List Value} {r : Except Stop Value}
      (named : calleeName callee = .ok name)
      (each : EvaluatesEach depth args m before (.ok values) m₁)
      (called : Called p limits depth name values m₁ after r m₂) :
      Evaluates depth (.operation OperatorName.call (callee :: args) line) m (before ++ after) r m₂
  | argumentStops {callee : Expr} {args : List Expr} {line : Nat} {m m₁ : Memory}
      {calls : List Call} {name : String} {stop : Stop} (named : calleeName callee = .ok name)
      (each : EvaluatesEach depth args m calls (.error stop) m₁) :
      Evaluates depth (.operation OperatorName.call (callee :: args) line) m calls (.error stop) m₁
  | plain {name : String} {args : List Expr} {line : Nat} {m m₁ : Memory} {calls : List Call}
      {r : Except Stop (List Value)} (isPlain : IsPlain name args)
      (each : EvaluatesEach depth args m calls r m₁) :
      Evaluates depth (.operation name args line) m calls
        (r.bind fun values => Stop.ofResult (combine limits.arrays name args values)) m₁

inductive EvaluatesEach (depth : Nat) :
    List Expr → Memory → List Call → Except Stop (List Value) → Memory → Prop where
  | nil (m : Memory) : EvaluatesEach depth [] m [] (.ok []) m
  | cons {e : Expr} {es : List Expr} {m m₁ m₂ : Memory} {before after : List Call} {v : Value}
      {r : Except Stop (List Value)} (first : Evaluates depth e m before (.ok v) m₁)
      (rest : EvaluatesEach depth es m₁ after r m₂) :
      EvaluatesEach depth (e :: es) m (before ++ after) (r.map (v :: ·)) m₂
  | stops {e : Expr} {es : List Expr} {m m₁ : Memory} {calls : List Call} {stop : Stop}
      (first : Evaluates depth e m calls (.error stop) m₁) :
      EvaluatesEach depth (e :: es) m calls (.error stop) m₁

end

/-- The assignments of a block in order. One that fails leaves its variable undefined, unless the
failure ends the whole run. -/
inductive Assigns (depth : Nat) :
    List Assignment → Memory → List Call → Except Stop Unit → Memory → Prop where
  | done (m : Memory) : Assigns depth [] m [] (.ok ()) m
  | value {target : String} {e : Expr} {rest : List Assignment} {m m₁ m₂ : Memory}
      {before after : List Call} {v : Value} {r : Except Stop Unit}
      (first : Evaluates p limits depth e m before (.ok v) m₁)
      (later : Assigns depth rest (m₁.insert target v) after r m₂) :
      Assigns depth ((target, e) :: rest) m (before ++ after) r m₂
  | undefined {target : String} {e : Expr} {rest : List Assignment} {m m₁ m₂ : Memory}
      {before after : List Call} {x : RuntimeError} {r : Except Stop Unit}
      (first : Evaluates p limits depth e m before (.error (.failure x)) m₁)
      (mild : x.isFatal = false)
      (later : Assigns depth rest (m₁.insert target .undefined) after r m₂) :
      Assigns depth ((target, e) :: rest) m (before ++ after) r m₂
  | waiting {target : String} {e : Expr} {rest : List Assignment} {m m₁ : Memory}
      {calls : List Call} {callee : FlowGraph} {start : Memory}
      (first : Evaluates p limits depth e m calls (.error (.waiting callee start)) m₁) :
      Assigns depth ((target, e) :: rest) m calls (.error (.waiting callee start)) m₁

inductive Follows (m : Memory) : Transition → Option Loc → Prop where
  | nowhere : Follows m ⟨none, none⟩ none
  | onlyTrue (next : Loc) : Follows m ⟨some next, none⟩ (some next)
  | onlyFalse (next : Loc) : Follows m ⟨none, some next⟩ (some next)
  | holds {v : Value} (found : m.find? Reserved.condition = some v) (truthy : v.isTruthy = true)
      (yes no : Loc) : Follows m ⟨some yes, some no⟩ (some yes)
  | fails (untrue : ∀ v, m.find? Reserved.condition = some v → v.isTruthy = false)
      (yes no : Loc) : Follows m ⟨some yes, some no⟩ (some no)

/-- A walk to the end of a function, with the visits that it lists and the memory that it leaves. It
starts at a location, or has nothing left to do. -/
inductive Walks : Nat → FlowGraph → Option Loc → Memory → List Visit → Memory → Prop where
  | arrived (depth : Nat) (g : FlowGraph) (m : Memory) : Walks depth g none m [] m
  | visit {depth : Nat} {g : FlowGraph} {loc : Loc} {m m₁ m₂ : Memory}
      {block : List Assignment} {calls : List Call} {t : Transition} {next : Option Loc}
      {rest : List Visit} (found : g.block loc = .ok block)
      (assigns : Assigns p limits depth block m calls (.ok ()) m₁)
      (calls_walk : ∀ c ∈ calls,
        Walks (depth + 1) c.callee (some c.callee.entry) c.start c.visits c.final)
      (edges : g.transition loc = .ok t) (follows : Follows m₁ t next)
      (onward : Walks depth g next m₁ rest m₂) :
      Walks depth g (some loc) m (calls.flatMap Call.visits ++ ⟨g.name, loc, m₁⟩ :: rest) m₂

/-- A walk that is cut off, with the visits listed so far and the number of those that were begun
but not listed. -/
inductive Cut : Nat → FlowGraph → Loc → Memory → List Visit → Nat → Prop where
  | atStart (depth : Nat) (g : FlowGraph) (loc : Loc) (m : Memory) : Cut depth g loc m [] 0
  | within {depth : Nat} {g : FlowGraph} {loc : Loc} {m m₁ : Memory} {block : List Assignment}
      {calls : List Call} {callee : FlowGraph} {start : Memory} {visits : List Visit}
      {begun : Nat} (found : g.block loc = .ok block)
      (assigns : Assigns p limits depth block m calls (.error (.waiting callee start)) m₁)
      (calls_walk : ∀ c ∈ calls,
        Walks p limits (depth + 1) c.callee (some c.callee.entry) c.start c.visits c.final)
      (cut : Cut (depth + 1) callee callee.entry start visits begun) :
      Cut depth g loc m (calls.flatMap Call.visits ++ visits) (begun + 1)
  | later {depth : Nat} {g : FlowGraph} {loc next : Loc} {m m₁ : Memory}
      {block : List Assignment} {calls : List Call} {t : Transition} {rest : List Visit}
      {begun : Nat} (found : g.block loc = .ok block)
      (assigns : Assigns p limits depth block m calls (.ok ()) m₁)
      (calls_walk : ∀ c ∈ calls,
        Walks p limits (depth + 1) c.callee (some c.callee.entry) c.start c.visits c.final)
      (edges : g.transition loc = .ok t) (follows : Follows m₁ t (some next))
      (onward : Cut depth g next m₁ rest begun) :
      Cut depth g loc m (calls.flatMap Call.visits ++ ⟨g.name, loc, m₁⟩ :: rest) begun

end Rules

end TraceRepair
