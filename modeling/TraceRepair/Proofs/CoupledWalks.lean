import TraceRepair.Proofs.Calls
import TraceRepair.Proofs.Mirror

namespace TraceRepair

def goOn (run : FlowGraph → Loc → Eval Unit) (g : FlowGraph) (t : Transition) (m : Memory) :
    Eval Unit :=
  match FlowGraph.nextLoc t m with
  | none => return ()
  | some next => run g next

namespace Coupled

variable {T : Tie} {g : FlowGraph} {loc : Loc}

/-- Assignments are coupled one by one, each from the machines that the one before left. -/
theorem runAssignments {value value' : Expr → Eval Value}
    (evaluated : ∀ e, Coupled T (value e) (value' e))
    (settled : ∀ {x y} (notice : RuntimeError → Notice), Coupled T x y →
      Coupled T (Eval.settle notice x) (Eval.settle notice y))
    (written : ∀ target v, Coupled T (Eval.write target v) (Eval.write target v))
    (block : List Assignment) :
    Coupled T (g.runAssignments loc value block) (g.runAssignments loc value' block) := by
  induction block with
  | nil => exact .pure ()
  | cons assignment rest ih =>
    obtain ⟨target, e⟩ := assignment
    apply (settled (.undefined g.name loc target e) (evaluated e)).bind
    intro v
    exact (written target v).bind fun _ => ih

/-- Where both sides have the same memory, they go on along the same edge. -/
theorem visitBy {p q : Program} {limits limits' : Limits} {run run' : FlowGraph → Loc → Eval Unit}
    (hm : ∀ {s t}, T.near s t → t.memory = s.memory)
    (blocks : ∀ block, Coupled T
      (g.runAssignments loc (Expr.eval limits.arrays
        (TraceRepair.answerCall p limits fun callee => run callee callee.entry)) block)
      (g.runAssignments loc (Expr.eval limits'.arrays
        (TraceRepair.answerCall q limits' fun callee => run' callee callee.entry)) block))
    (recorded : Coupled T (Eval.record g.name loc) (Eval.record g.name loc))
    (onward : ∀ next, Coupled T (run g next) (run' g next)) :
    Coupled T (TraceRepair.visitBy p limits run g loc)
      (TraceRepair.visitBy q limits' run' g loc) := by
  apply (Coupled.ofExcept _).bind
  intro block
  apply (blocks block).bind
  intro _
  apply recorded.bind
  intro _
  apply (Coupled.ofExcept _).bind
  intro t
  refine Coupled.onMemory (k := goOn run g t) (l := goOn run' g t) hm fun m => ?_
  unfold goOn
  cases FlowGraph.nextLoc t m with
  | none => exact .pure ()
  | some next => exact onward next

end Coupled

end TraceRepair
