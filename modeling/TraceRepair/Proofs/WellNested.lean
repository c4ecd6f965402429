import TraceRepair.Proofs.Explained

namespace TraceRepair

section Evaluation

variable {p : Program} {limits : Limits} {depth fuel : Nat} {call : CallHandler}

mutual

/-- By recursion over the tree, with what a call records as a hypothesis. -/
theorem Explained.eval
    (hcall : ∀ name args, Explained p limits depth fuel (Called p limits depth name args)
      (call name args)) (e : Expr) :
    Explained p limits depth fuel (Evaluates p limits depth e)
      (e.eval limits.arrays call) := by
  match e with
  | .constant text line =>
    refine (Explained.pure (Value.ofLiteral text)).mono ?_
    rintro m _ _ _ ⟨⟩
    exact .constant text line m
  | .variable v =>
    exact fun s _ _ => .value (.read v s.memory) .nil (.refl s)
  | .operation name args line =>
    cases operationForm name args with
    | conditional condition yes no =>
      rw [eval_conditional]
      have chosen : ∀ v : Value, Explained p limits depth fuel
          (Evaluates p limits depth (if v.isTruthy then yes else no))
          (if v.isTruthy then yes.eval limits.arrays call
            else no.eval limits.arrays call) := by
        intro v
        split
        · exact Explained.eval hcall yes
        · exact Explained.eval hcall no
      refine ((Explained.eval hcall condition).bind chosen).mono ?_
      intro m calls r m' h
      cases h with
      | value first next => exact .branch first next
      | stop first => exact .conditionStops first
    | @connective _ decisive hd left right =>
      rw [eval_connective _ _ hd]
      refine ((Explained.eval hcall left).bind fun v =>
        .connected name decisive v (Explained.eval hcall right)).mono ?_
      intro m calls r m' h
      cases h with
      | value first next =>
        cases next with
        | decided defined decides =>
          rw [List.append_nil]
          exact .decided hd first defined decides
        | undecided undecided second => exact .undecided hd first undecided second
      | stop first => exact .leftStops hd first
    | call callee args =>
      rw [eval_call]
      cases named : calleeName callee with
      | error e =>
        refine (Explained.ofExcept (.error ((mild_calleeName callee).raised e named))).mono ?_
        rintro m _ _ _ ⟨⟩
        exact .unnamed named
      | ok function =>
        refine ((Explained.evalEach hcall args).bind fun values => hcall function values).mono ?_
        intro m calls r m' h
        cases h with
        | value each called => exact .call named each called
        | stop each => exact .argumentStops named each
    | plain isPlain =>
      rw [eval_plain _ _ isPlain]
      refine ((Explained.evalEach hcall args).bind fun values =>
        Explained.ofExcept (raised_combine _ _ _ _)).mono ?_
      intro m calls r m' h
      cases h with
      | value first next =>
        cases next
        rw [List.append_nil]
        exact .plain isPlain first
      | stop first => exact .plain isPlain first

theorem Explained.evalEach
    (hcall : ∀ name args, Explained p limits depth fuel (Called p limits depth name args)
      (call name args)) (es : List Expr) :
    Explained p limits depth fuel (EvaluatesEach p limits depth es)
      (Eval.inOrder (Expr.evalEach limits.arrays call es)) := by
  match es with
  | [] =>
    refine (Explained.pure []).mono ?_
    rintro m _ _ _ ⟨⟩
    exact .nil m
  | e :: es =>
    refine ((Explained.eval hcall e).bind fun v =>
      (Explained.evalEach hcall es).bind fun vs => Explained.pure (v :: vs)).mono ?_
    intro m calls r m' h
    cases h with
    | value first next =>
      cases next with
      | value later last =>
        cases last
        rw [List.append_nil]
        exact .cons first later
      | stop later => exact .cons first later
    | stop first => exact .stops first

end

theorem Explained.runAssignments
    (hcall : ∀ name args, Explained p limits depth fuel (Called p limits depth name args)
      (call name args)) (g : FlowGraph) (loc : Loc) (block : List Assignment) :
    Explained p limits depth fuel (Assigns p limits depth block)
      (g.runAssignments loc (Expr.eval limits.arrays call) block) := by
  induction block with
  | nil =>
    refine (Explained.pure ()).mono ?_
    rintro m _ _ _ ⟨⟩
    exact .done m
  | cons assignment rest ih =>
    obtain ⟨target, e⟩ := assignment
    refine (((Explained.eval hcall e).settle (.undefined g.name loc target e)).bind fun v =>
      (Explained.write target v).bind fun _ => ih).mono ?_
    intro m calls r m' h
    cases h with
    | value first next =>
      cases next with
      | value written later =>
        cases written
        rw [List.nil_append]
        cases first with
        | value first => exact .value first later
        | undefined first mild => exact .undefined first mild later
      | stop written => cases written
    | stop first =>
      cases first with
      | waiting first => exact .waiting first

/-- A failure costs a block one value at most. -/
theorem Assigns.not_failure {block : List Assignment} {m m' : Memory} {calls : List Call}
    {e : RuntimeError} : ¬ Assigns p limits depth block m calls (.error (.failure e)) m' := by
  intro h
  generalize hr : (Except.error (.failure e) : Except Stop Unit) = r at h
  induction h with
  | done m => cases hr
  | value first later ih => exact ih hr
  | undefined first mild later ih => exact ih hr
  | waiting first => cases hr

end Evaluation

section Walk

variable (p : Program) (limits : Limits)

inductive Traverses (g : FlowGraph) (loc : Loc) (s : Machine) :
    EStateM.Result RuntimeError Machine Unit → Prop where
  | finished {t : Machine} {visits : List Visit}
      (walks : Walks p limits s.depth g (some loc) s.memory visits t.memory)
      (after : After s visits 0 t) : Traverses g loc s (.ok () t)
  | cut {steps : Nat} {t : Machine} {visits : List Visit} {begun : Nat}
      (cut : Cut p limits s.depth g loc s.memory visits begun) (after : After s visits begun t)
      (spent : t.left = 0) : Traverses g loc s (.error (.timeout steps) t)
  | malformed (fault : Malformation) (t : Machine) :
      Traverses g loc s (.error (.malformed fault) t)
  | aborted (t : Machine) : Traverses g loc s (.error .aborted t)

variable {p limits}

/-- A call records the walk of its function, one level deeper, or nothing. -/
theorem Explained.answerCall {fuel : Nat} {run : FlowGraph → Eval Unit}
    (hrun : ∀ g s, s.left ≤ fuel → Traverses p limits g g.entry s (run g s)) (depth : Nat)
    (name : String) (args : List Value) :
    Explained p limits depth fuel (Called p limits depth name args)
      (answerCall p limits run name args) := by
  cases found : p.function? name with
  | none =>
    rw [answerCall_outside found]
    refine (Explained.ofExcept (mild_mathResult name args).raised).mono ?_
    rintro m _ _ _ ⟨⟩
    exact .outside found
  | some g =>
    by_cases fits : g.params.length = args.length
    · rw [answerCall_entered found fits]
      intro s hd hl
      unfold enter
      split
      · rename_i deep
        exact .failure rfl (.refused found fits (hd ▸ deep)) .nil (.refl s)
      · rename_i room
        have room : depth < limits.callDepth := by omega
        have h := hrun g { s with memory := frame g args s.memory, depth := s.depth + 1 } hl
        unfold Eval.inFrame
        generalize run g _ = r at h
        cases h with
        | @finished t visits walks after =>
          refine .value (.returned (c := ⟨g, frame g args s.memory, visits, t.memory⟩) found fits
            room rfl) ?_ ?_
          · intro c hc
            rw [List.mem_singleton.mp hc]
            exact walks
          · rw [List.flatMap_singleton]
            exact after.leave _
        | cut cut after spent =>
          exact .waiting (.waiting found fits room) .nil cut (after.leave _) spent
        | malformed fault t => exact .malformed fault _
        | aborted t => exact .aborted _
    · rw [answerCall_mismatched found fits]
      exact fun s _ _ => .malformed _ s

/-- The edge is chosen by the condition in the memory that the block leaves. -/
theorem follows_nextLoc (t : Transition) (m : Memory) : Follows m t (FlowGraph.nextLoc t m) := by
  obtain ⟨yes, no⟩ := t
  unfold FlowGraph.nextLoc
  cases yes with
  | none =>
    cases no with
    | none => exact .nowhere
    | some no => exact .onlyFalse no
  | some yes =>
    cases no with
    | none => exact .onlyTrue yes
    | some no =>
      cases hv : m.find? Reserved.condition with
      | none => exact .fails (fun v h => by rw [hv] at h; cases h) yes no
      | some v =>
        cases ht : v.isTruthy with
        | true =>
          simp only [Option.map_some, Option.getD_some, ht, if_true]
          exact .holds hv ht yes no
        | false =>
          simp only [Option.map_some, Option.getD_some, ht, Bool.false_eq_true, if_false]
          exact .fails (fun w h => by rw [hv] at h; cases h; exact ht) yes no

/-- A walk that goes on from a visit that is listed. -/
theorem Traverses.visit {g : FlowGraph} {loc next : Loc} {s t : Machine}
    {r : EStateM.Result RuntimeError Machine Unit} {block : List Assignment} {calls : List Call}
    {tr : Transition}
    (after : After s (calls.flatMap Call.visits ++ [⟨g.name, loc, t.memory⟩]) 0 t)
    (found : g.block loc = .ok block)
    (assigns : Assigns p limits s.depth block s.memory calls (.ok ()) t.memory)
    (completed : Completed p limits s.depth calls) (edges : g.transition loc = .ok tr)
    (follows : Follows t.memory tr (some next)) (h : Traverses p limits g next t r) :
    Traverses p limits g loc s r := by
  cases h with
  | finished walks after' =>
    have all := after.trans after'
    rw [List.append_assoc] at all
    exact .finished (.visit found assigns completed edges follows (after.depth_eq ▸ walks)) all
  | cut cut after' spent =>
    have all := after.trans after'
    rw [List.append_assoc] at all
    exact .cut (.later found assigns completed edges follows (after.depth_eq ▸ cut)) all spent
  | malformed fault u => exact .malformed fault u
  | aborted u => exact .aborted u

/-- The budget is gone when the fuel is, so that a walk without fuel is one that was cut off. -/
theorem traverses_walk (p : Program) (limits : Limits) (fuel : Nat) (g : FlowGraph) (loc : Loc)
    (s : Machine) (h : s.left ≤ fuel) :
    Traverses p limits g loc s (walk p limits fuel g loc s) := by
  induction fuel generalizing g loc s with
  | zero => exact .cut (.atStart s.depth g loc s.memory) (.refl s) (Nat.le_zero.mp h)
  | succ fuel ih =>
    cases hleft : s.left with
    | zero =>
      rw [walk_spent hleft]
      exact .cut (.atStart s.depth g loc s.memory) (.refl s) hleft
    | succ left =>
      have hl : left ≤ fuel := by omega
      rw [walk_paid hleft, visitAt, Eval.bind_apply]
      cases hblock : g.block loc with
      | error e => exact .malformed _ _
      | ok block =>
        have hbody := Explained.runAssignments
          (fun name args => Explained.answerCall (fun g s => ih g g.entry s) s.depth name args)
          g loc block { s with left } rfl hl
        simp only [Except.mapError, Eval.ofModel, Eval.ofExcept, Eval.pure_apply, Eval.bind_apply]
        generalize FlowGraph.runAssignments g loc _ block _ = r at hbody ⊢
        cases hbody with
        | malformed fault t => exact .malformed fault t
        | aborted t => exact .aborted t
        | failure mild meaning completed after => exact absurd meaning Assigns.not_failure
        | waiting meaning completed cut after spent =>
          exact .cut (.within hblock meaning completed cut) (after.ofBegun hleft) spent
        | @value _ t calls meaning completed after =>
          have recorded := (after.ofBegun hleft).record ⟨g.name, loc, t.memory⟩
          simp only [Eval.record_apply]
          cases hedges : g.transition loc with
          | error e => exact .malformed _ _
          | ok tr =>
            have follows := follows_nextLoc tr t.memory
            simp only [Eval.pure_apply, Eval.get_apply, leaveBy]
            generalize FlowGraph.nextLoc tr t.memory = next at follows ⊢
            cases next with
            | none =>
              exact .finished (.visit hblock meaning completed hedges follows (.arrived _ g _))
                recorded
            | some next =>
              let u : Machine := { t with visits := ⟨g.name, loc, t.memory⟩ :: t.visits }
              have honward := ih g next u (Nat.le_trans after.left_le hl)
              exact Traverses.visit (t := u) recorded hblock meaning completed hedges follows
                honward

end Walk

/-- The traces that the rules allow a program on an input, with a budget that pays for each visit
that was begun. -/
inductive Generates (p : Program) (limits : Limits) (input : RunInput) : Trace → Prop where
  | complete {g : FlowGraph} {visits : List Visit} {m : Memory}
      (found : p.function? limits.entry = some g)
      (walks : Walks p limits 0 g (some g.entry) (initialMemory g input) visits m)
      (paid : visits.length ≤ limits.steps) : Generates p limits input ⟨visits, false⟩
  | cut {g : FlowGraph} {visits : List Visit} {begun : Nat}
      (found : p.function? limits.entry = some g)
      (cut : Cut p limits 0 g g.entry (initialMemory g input) visits begun)
      (spent : visits.length + begun = limits.steps) : Generates p limits input ⟨visits, true⟩

/-- Every trace is one that the rules of nesting build: visits along edges, with the visits of each
call between that of its caller and the next. A trace that was cut has unfinished visits only in the
calls that were still open. -/
theorem generates_execute {p : Program} {limits : Limits} {input : RunInput} {t : Trace}
    (h : (p.execute limits input).1 = .ok t) : Generates p limits input t := by
  cases found : p.function? limits.entry with
  | none =>
    rw [execute_unknown found] at h
    cases h
  | some g =>
    rw [execute_found found] at h
    have hwalk := traverses_walk p limits limits.steps g g.entry (.start g limits input)
      (Nat.le_refl _)
    generalize walk p limits _ g _ _ = r at h hwalk
    cases hwalk with
    | finished walks after =>
      cases h
      rw [after.listed_start]
      exact .complete found walks (Nat.le.intro ((Nat.add_comm _ _).trans after.paid))
    | cut cut after spent =>
      cases h
      rw [after.listed_start]
      have := after.paid
      rw [spent, Nat.zero_add] at this
      exact .cut found cut this
    | malformed fault u => cases h
    | aborted u => cases h

def talking : Program :=
  let say : Assignment := ("word",
    .operation OperatorName.call [.variable (.reference "say"), .constant "\"hi\"" 1] 1)
  (Program.empty.addFunction
    { name := "say", returnType := "string", entry := 1, params := [⟨"string", "text"⟩]
      blocks := SortedMap.ofList [(1, [("$ret", .variable (.reference "text"))])]
      edges := SortedMap.ofList [(1, {})] }).addFunction
    { name := "main", returnType := "int", entry := 1, params := []
      blocks := SortedMap.ofList [(1, [say]), (2, [say])]
      edges := SortedMap.ofList [(1, { onTrue := some 2 }), (2, {})] }

def Trace.outline (t : Trace) : List (String × Loc) × Bool :=
  (t.visits.map fun v => (v.function, v.loc), t.truncated)

/-- With one visit less to spend, the second call is cut off where it starts. -/
theorem generates_execute_talking :
    (∃ t, t.outline = ([("say", 1), ("main", 1), ("say", 1), ("main", 2)], false) ∧
      Generates talking { steps := 4 } {} t) ∧
    ∃ t, t.outline = ([("say", 1), ("main", 1)], true) ∧
      Generates talking { steps := 3 } {} t := by
  constructor
  · have seen : (talking.execute { steps := 4 } {}).1.toOption.map Trace.outline =
        some ([("say", 1), ("main", 1), ("say", 1), ("main", 2)], false) := by decide +kernel
    obtain ⟨t, ht, outline⟩ := Except.ok_of_seen seen
    exact ⟨t, outline, generates_execute ht⟩
  · have seen : (talking.execute { steps := 3 } {}).1.toOption.map Trace.outline =
        some ([("say", 1), ("main", 1)], true) := by decide +kernel
    obtain ⟨t, ht, outline⟩ := Except.ok_of_seen seen
    exact ⟨t, outline, generates_execute ht⟩

end TraceRepair
