import TraceRepair.Proofs.Failures
import TraceRepair.Proofs.Results

namespace TraceRepair

def Eval.andThen {α A : Type} (x : Eval α) (later : α → Machine → List A) (s : Machine) : List A :=
  match x s with
  | .ok a t => later a t
  | .error _ _ => []

section Opened

variable {A : Type} (room : Arrays.Room) (call : CallHandler)
  (opens : String → List Value → Machine → List A)

def openedSecond (decisive : Bool) (right : Machine → List A) (v : Value) : Machine → List A :=
  if !v.isUndefined && v.isTruthy == decisive then fun _ => [] else right

mutual

/-- What the calls of an evaluation open, in order; `opens` says it of a single call. -/
def Expr.opened : Expr → Machine → List A
  | .constant _ _, _ | .variable _, _ => []
  | .operation name args _, s =>
    match SpecialForm.ofName? name, args with
    | some .conditional, [condition, yes, no] =>
      condition.opened s ++ (condition.eval room call).andThen
        (fun v => if v.isTruthy then yes.opened else no.opened) s
    | some .and, [left, right] =>
      left.opened s ++ (left.eval room call).andThen (openedSecond false right.opened) s
    | some .or, [left, right] =>
      left.opened s ++ (left.eval room call).andThen (openedSecond true right.opened) s
    | some .call, callee :: args =>
      (Eval.ofExcept (calleeName callee)).andThen (fun function t => Expr.openedEach args t ++
        (Eval.inOrder (Expr.evalEach room call args)).andThen (opens function) t) s
    | _, args => Expr.openedEach args s

def Expr.openedEach : List Expr → Machine → List A
  | [], _ => []
  | e :: es, s => e.opened s ++ (e.eval room call).andThen (fun _ => Expr.openedEach es) s

end

def FlowGraph.opened (g : FlowGraph) (loc : Loc) : List Assignment → Machine → List A
  | [], _ => []
  | (target, e) :: rest, s =>
    e.opened room call opens s ++
      (Eval.settle (.undefined g.name loc target e) (e.eval room call)).andThen
        (fun v => (Eval.write target v).andThen fun _ => g.opened loc rest) s

theorem opened_connective {name : String} {decisive : Bool} (h : decisive? name = some decisive)
    (left right : Expr) (line : Nat) (s : Machine) :
    (Expr.operation name [left, right] line).opened room call opens s =
      left.opened room call opens s ++ (left.eval room call).andThen
        (openedSecond decisive (right.opened room call opens)) s := by
  unfold decisive? at h
  split at h
  · rename_i hname
    cases hname
    cases h
    rfl
  · split at h
    · rename_i hname
      cases hname
      cases h
      rfl
    · cases h

theorem opened_plain {name : String} {args : List Expr} (h : IsPlain name args) (line : Nat)
    (s : Machine) :
    (Expr.operation name args line).opened room call opens s =
      Expr.openedEach room call opens args s := by
  cases hform : SpecialForm.ofName? name with
  | none =>
    unfold Expr.opened
    simp only [hform]
  | some form =>
    have hname := SpecialForm.eq_of_ofName? hform
    subst hname
    cases form with
    | conditional =>
      match args, h.conditional rfl with
      | [], _ | [_], _ | [_, _], _ | _ :: _ :: _ :: _ :: _, _ => rfl
      | [_, _, _], hne => exact absurd rfl hne
    | and | or =>
      match args, h.connective (Option.some_ne_none _) with
      | [], _ | [_], _ | _ :: _ :: _ :: _, _ => rfl
      | [_, _], hne => exact absurd rfl hne
    | call =>
      obtain rfl := h.call rfl
      rfl
    | arrayCreate => rfl

end Opened

/-- A statement on the machine in which a computation starts, what it opens, its failure if it has
one, and the machine that it leaves. -/
structure Account (A : Type) where
  holds : Machine → List A → Option RuntimeError → Machine → Prop
  refl : ∀ s, holds s [] none s
  fails : ∀ s {e : RuntimeError}, e.isRaised = true → holds s [] (some e) s
  trans : ∀ {s t u before after failure}, holds s before none t → holds t after failure u →
    holds s (before ++ after) failure u
  settles : ∀ {s t opened} {e : RuntimeError} (n : Notice), e.isFatal = false →
    holds s opened (some e) t → holds s opened none { t with notices := n :: t.notices }

@[simp]
def Eval.failure? {α : Type} : EStateM.Result RuntimeError Machine α → Option RuntimeError
  | .ok _ _ => none
  | .error e _ => some e

def Accounted {A α : Type} (T : Account A) (x : Eval α) (opened : Machine → List A) : Prop :=
  ∀ s, T.holds s (opened s) (Eval.failure? (x s)) (Eval.machine (x s))

theorem Eval.eq_of_ofExcept {α : Type} {r : Except RuntimeError α} {s t : Machine} {a : α}
    (h : Eval.ofExcept r s = .ok a t) : r = .ok a := by
  cases r with
  | error e => cases h
  | ok b =>
    cases h
    rfl

theorem Eval.eq_of_ofModel {α : Type} {r : Except ModelError α} {s t : Machine} {a : α}
    (h : Eval.ofModel r s = .ok a t) : r = .ok a := by
  cases r with
  | error e => cases h
  | ok b =>
    cases h
    rfl

/-- There is one value for each computation. -/
theorem Eval.length_of_inOrder {xs : List (Eval Value)} {s t : Machine} {values : List Value}
    (h : Eval.inOrder xs s = .ok values t) : values.length = xs.length := by
  induction xs generalizing s values with
  | nil =>
    cases h
    rfl
  | cons x xs ih =>
    simp only [Eval.inOrder, Eval.bind_apply] at h
    split at h
    · rename_i u _
      split at h
      · rename_i hrest
        cases h
        simp [ih hrest]
      · cases h
    · cases h

mutual

/-- Each call of a function by its name has a number of arguments that fits the name. -/
def Expr.CallsFit (fits : String → Nat → Prop) : Expr → Prop
  | .constant _ _ | .variable _ => True
  | .operation name args _ =>
    (∀ callee rest function, name = OperatorName.call → args = callee :: rest →
      calleeName callee = .ok function → fits function rest.length) ∧ Expr.CallsFitAll fits args

def Expr.CallsFitAll (fits : String → Nat → Prop) : List Expr → Prop
  | [] => True
  | e :: es => e.CallsFit fits ∧ Expr.CallsFitAll fits es

end

mutual

/-- Where any number of arguments fits, all calls do. -/
theorem Expr.callsFit_of_all {fits : String → Nat → Prop} (h : ∀ name count, fits name count) :
    ∀ e : Expr, e.CallsFit fits
  | .constant _ _ | .variable _ => trivial
  | .operation _ args _ => ⟨fun _ _ _ _ _ _ => h _ _, Expr.callsFitAll_of_all h args⟩

theorem Expr.callsFitAll_of_all {fits : String → Nat → Prop} (h : ∀ name count, fits name count) :
    ∀ es : List Expr, Expr.CallsFitAll fits es
  | [] => trivial
  | e :: es => ⟨Expr.callsFit_of_all h e, Expr.callsFitAll_of_all h es⟩

end

namespace Accounted

variable {A α β : Type} {T : Account A}

/-- What is known of the values that the first computation can come to may be used for the
second. -/
theorem bind_of {x : Eval α} {k : α → Eval β} {opened : Machine → List A}
    {later : α → Machine → List A} {Q : α → Prop} (hx : Accounted T x opened)
    (hQ : ∀ {s a t}, x s = .ok a t → Q a) (hk : ∀ a, Q a → Accounted T (k a) (later a)) :
    Accounted T (x >>= k) (fun s => opened s ++ x.andThen later s) := by
  intro s
  have first := hx s
  simp only [Eval.bind_apply, Eval.andThen]
  cases h : x s with
  | ok a t =>
    rw [h] at first
    exact T.trans first (hk a (hQ h) t)
  | error e t =>
    rw [h] at first
    simpa [Eval.failure?, Eval.machine] using first

theorem bind {x : Eval α} {k : α → Eval β} {opened : Machine → List A}
    {later : α → Machine → List A} (hx : Accounted T x opened)
    (hk : ∀ a, Accounted T (k a) (later a)) :
    Accounted T (x >>= k) (fun s => opened s ++ x.andThen later s) :=
  hx.bind_of (Q := fun _ => True) (fun _ => trivial) fun a _ => hk a

theorem ofExcept {r : Except RuntimeError α} (h : Raised r) :
    Accounted T (Eval.ofExcept r) fun _ => [] := by
  intro s
  cases r with
  | ok a => exact T.refl s
  | error e => exact T.fails s (h e rfl)

/-- What is made of a value opens nothing more. -/
theorem thenExcept {x : Eval α} {k : α → Except RuntimeError β} {opened : Machine → List A}
    (hx : Accounted T x opened) (hk : ∀ a, Raised (k a)) :
    Accounted T (x >>= fun a => Eval.ofExcept (k a)) opened := by
  intro s
  have whole := hx.bind (fun a => ofExcept (hk a)) s
  have nothing : x.andThen (fun _ _ => ([] : List A)) s = [] := by
    unfold Eval.andThen
    split <;> rfl
  simpa only [nothing, List.append_nil] using whole

theorem connective (name : String) (decisive : Bool) {x y : Eval Value}
    {left right : Machine → List A} (hx : Accounted T x left) (hy : Accounted T y right) :
    Accounted T (connective name decisive x y)
      (fun s => left s ++ x.andThen (openedSecond decisive right) s) := by
  apply hx.bind
  intro v
  unfold openedSecond
  split
  · exact ofExcept (.ok (Value.bool decisive))
  · exact hy.thenExcept fun w => raised_applyOperator name [v, w]

/-- Putting up with a failure opens nothing. -/
theorem settle {x : Eval Value} {opened : Machine → List A} (notice : RuntimeError → Notice)
    (hx : Accounted T x opened) : Accounted T (Eval.settle notice x) opened := by
  intro s
  have h := hx s
  rw [Eval.settle_apply]
  cases hxs : x s with
  | ok v t =>
    rw [hxs] at h
    exact h
  | error e t =>
    rw [hxs] at h
    simp only [Eval.settled]
    split
    · exact h
    · rename_i mild
      exact T.settles (notice e) (by simpa using mild) h

section Expressions

variable (room : Arrays.Room) {call : CallHandler} {opens : String → List Value → Machine → List A}
  {fits : String → Nat → Prop}

mutual

/-- By recursion over the tree: operations open what their arguments open, and a call what it opens
itself. -/
theorem eval (hcall : ∀ function values, fits function values.length →
      Accounted T (call function values) (opens function values)) (e : Expr)
    (he : e.CallsFit fits) : Accounted T (e.eval room call) (e.opened room call opens) := by
  match e with
  | .constant text line => exact T.refl
  | .variable v => exact T.refl
  | .operation name args line =>
    obtain ⟨hfits, hargs⟩ := he
    cases operationForm name args with
    | conditional condition yes no =>
      obtain ⟨hcondition, hyes, hno, -⟩ := hargs
      rw [eval_conditional]
      apply (eval hcall condition hcondition).bind
      intro v
      split
      · exact eval hcall yes hyes
      · exact eval hcall no hno
    | connective hd left right =>
      obtain ⟨hleft, hright, -⟩ := hargs
      rw [eval_connective _ _ hd]
      intro s
      rw [opened_connective _ _ _ hd]
      exact (eval hcall left hleft).connective _ _ (eval hcall right hright) s
    | call callee args =>
      rw [eval_call]
      apply (ofExcept (mild_calleeName callee).raised).bind_of
        (Q := fun f => calleeName callee = .ok f) Eval.eq_of_ofExcept
      intro function named
      apply (evalEach hcall args hargs.2).bind_of (Q := fun values => values.length = args.length)
      · intro s values t h
        rw [Eval.length_of_inOrder h, length_evalEach]
      · intro values hlength
        apply hcall
        rw [hlength]
        exact hfits callee args function rfl rfl named
    | plain isPlain =>
      rw [eval_plain _ _ isPlain]
      intro s
      rw [opened_plain _ _ _ isPlain]
      exact (evalEach hcall args hargs).thenExcept (fun values => raised_combine _ _ _ _) s

theorem evalEach (hcall : ∀ function values, fits function values.length →
      Accounted T (call function values) (opens function values)) (es : List Expr)
    (hes : Expr.CallsFitAll fits es) :
    Accounted T (Eval.inOrder (Expr.evalEach room call es))
      (Expr.openedEach room call opens es) := by
  match es with
  | [] => exact T.refl
  | e :: es =>
    apply (eval hcall e hes.1).bind
    intro v
    exact (evalEach hcall es hes.2).thenExcept fun vs => .ok (v :: vs)

end

/-- A block is accounted for when assignments are, besides calls. -/
theorem runAssignments (hcall : ∀ function values, fits function values.length →
      Accounted T (call function values) (opens function values))
    (hwrite : ∀ target v, Accounted T (Eval.write target v) fun _ => []) (g : FlowGraph)
    (loc : Loc) (block : List Assignment) (hblock : ∀ a ∈ block, a.2.CallsFit fits) :
    Accounted T (g.runAssignments loc (Expr.eval room call) block)
      (g.opened room call opens loc block) := by
  induction block with
  | nil => exact T.refl
  | cons assignment rest ih =>
    obtain ⟨target, e⟩ := assignment
    have he := hblock (target, e) List.mem_cons_self
    have hrest : ∀ a ∈ rest, a.2.CallsFit fits := fun a ha => hblock a (List.mem_cons_of_mem _ ha)
    apply ((eval room hcall e he).settle _).bind
    intro v
    exact (hwrite target v).bind fun _ => ih hrest

/-- Where a call is accounted for with whatever arguments, so is an expression. -/
theorem expression (hcall : ∀ function values, Accounted T (call function values)
      (opens function values)) (e : Expr) :
    Accounted T (e.eval room call) (e.opened room call opens) := by
  have fit : e.CallsFit fun _ _ => True := Expr.callsFit_of_all (fun _ _ => trivial) e
  apply eval room _ e fit
  intro function values _
  exact hcall function values

theorem assignments (hcall : ∀ function values, Accounted T (call function values)
      (opens function values))
    (hwrite : ∀ target v, Accounted T (Eval.write target v) fun _ => []) (g : FlowGraph)
    (loc : Loc) (block : List Assignment) :
    Accounted T (g.runAssignments loc (Expr.eval room call) block)
      (g.opened room call opens loc block) := by
  have fit : ∀ a ∈ block, a.2.CallsFit fun _ _ => True :=
    fun a _ => Expr.callsFit_of_all (fun _ _ => trivial) a.2
  apply runAssignments room _ hwrite g loc block fit
  intro function values _
  exact hcall function values

end Expressions

end Accounted

section Calls

def Machine.entering (s : Machine) (g : FlowGraph) (args : List Value) : Machine :=
  { s with memory := frame g args s.memory, depth := s.depth + 1 }

def Machine.behindCall (s : Machine) : EStateM.Result RuntimeError Machine Unit → Machine
  | .ok () t => { t with memory := copyStreams t.memory s.memory, depth := t.depth - 1 }
  | .error _ t => { t with memory := s.memory, depth := t.depth - 1 }

def openedCall {A : Type} (p : Program) (limits : Limits) (activate : FlowGraph → Machine → A)
    (name : String) (args : List Value) (s : Machine) : List A :=
  match p.function? name with
  | none => []
  | some g =>
    if g.params.length = args.length ∧ s.depth < limits.callDepth then
      [activate g (s.entering g args)]
    else []

variable {A : Type} {T : Account A} {p : Program} {limits : Limits} {run : FlowGraph → Eval Unit}
  {activate : FlowGraph → Machine → A} {name : String} {args : List Value}

/-- A call is refused, leaves the program, or opens the activation of its callee. -/
theorem Accounted.answerCall
    (mismatched : ∀ s g, p.function? name = some g → g.params.length ≠ args.length →
      T.holds s [] (some (.malformed (.callArity name g.params.length args.length))) s)
    (entered : ∀ s g, p.function? name = some g → g.params.length = args.length →
      s.depth < limits.callDepth → T.holds s [activate g (s.entering g args)]
        (Eval.failure? (run g (s.entering g args))) (s.behindCall (run g (s.entering g args)))) :
    Accounted T (answerCall p limits run name args) (openedCall p limits activate name args) := by
  intro s
  cases found : p.function? name with
  | none =>
    rw [answerCall_outside found]
    simp only [openedCall, found]
    exact Accounted.ofExcept (mild_mathResult name args).raised s
  | some g =>
    simp only [openedCall, found]
    by_cases fits : g.params.length = args.length
    · rw [answerCall_entered found fits]
      unfold enter
      by_cases room : s.depth < limits.callDepth
      · have h := entered s g found fits room
        simp only [fits, room, and_self, if_true, Nat.not_le.mpr room, if_false]
        unfold Eval.inFrame
        unfold Machine.entering at h ⊢
        generalize run g _ = r at h ⊢
        cases r <;> exact h
      · simp only [room, and_false, if_false, Nat.not_lt.mp room, if_true]
        exact T.fails s rfl
    · rw [answerCall_mismatched found fits]
      simp only [fits, false_and, if_false]
      exact mismatched s g found fits

end Calls

end TraceRepair
