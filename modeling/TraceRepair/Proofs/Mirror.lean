import TraceRepair.Proofs.Coupling
import TraceRepair.Proofs.OperationForm

namespace TraceRepair

theorem IsPlain.of_length_eq {name : String} {args args' : List Expr} (hp : IsPlain name args)
    (hlen : args.length = args'.length) : IsPlain name args' := by
  refine ⟨fun hn => hlen ▸ hp.conditional hn, fun hn => hlen ▸ hp.connective hn, fun hn => ?_⟩
  rw [hp.call hn] at hlen
  exact List.eq_nil_of_length_eq_zero hlen.symm

/-- Of the arguments as they are written only their number counts. -/
theorem combine_congr {args args' : List Expr} (hlen : args.length = args'.length)
    (room : Arrays.Room) (name : String) : combine room name args = combine room name args' := by
  have hnil : args = [] ↔ args' = [] := by
    rw [← List.length_eq_zero_iff, hlen, List.length_eq_zero_iff]
  funext values
  simp only [combine, ne_eq, hnil]

section Operations

variable {T : Tie} {handler handler' : CallHandler} {room : Arrays.Room}

/-- A callee is not read, so of it only the name has to be the same. -/
theorem Coupled.call {callee callee' : Expr} {args args' : List Expr} (line line' : Nat)
    (hc : ∀ f values, Coupled T (handler f values) (handler' f values))
    (same : calleeName callee = calleeName callee')
    (each : List.Forall₂ (Coupled T) (Expr.evalEach room handler args)
      (Expr.evalEach room handler' args')) :
    Coupled T (Expr.eval room handler (.operation OperatorName.call (callee :: args) line))
      (Expr.eval room handler' (.operation OperatorName.call (callee' :: args') line')) := by
  rw [eval_call, eval_call, same]
  exact (Coupled.ofExcept _).bind fun f =>
    (Coupled.inOrder each).bind fun values => hc f values

/-- Whichever of the four forms the operation has, its arguments run on both sides or on neither. -/
theorem Coupled.operation {name : String} {args args' : List Expr} (line line' : Nat)
    (other : name = OperatorName.call → args = [])
    (each : List.Forall₂ (Coupled T) (Expr.evalEach room handler args)
      (Expr.evalEach room handler' args')) :
    Coupled T (Expr.eval room handler (.operation name args line))
      (Expr.eval room handler' (.operation name args' line')) := by
  have hlen : args.length = args'.length := by
    rw [← length_evalEach room handler, ← length_evalEach room handler', each.length_eq]
  cases operationForm name args with
  | conditional condition yes no =>
    obtain ⟨condition', yes', no', rfl⟩ := List.length_eq_three.mp hlen.symm
    simp only [Expr.evalEach, List.forall₂_cons] at each
    obtain ⟨hcond, hyes, hno, -⟩ := each
    rw [eval_conditional, eval_conditional]
    refine hcond.bind fun v => ?_
    split
    · exact hyes
    · exact hno
  | connective hd left right =>
    obtain ⟨left', right', rfl⟩ := List.length_eq_two.mp hlen.symm
    simp only [Expr.evalEach, List.forall₂_cons] at each
    obtain ⟨hleft, hright, -⟩ := each
    rw [eval_connective _ _ hd, eval_connective _ _ hd]
    exact hleft.connective hright
  | call callee args => cases other rfl
  | plain hp =>
    rw [eval_plain _ _ hp, eval_plain _ _ (hp.of_length_eq hlen), combine_congr hlen]
    exact (Coupled.inOrder each).bind fun values => .ofExcept _

end Operations

mutual

/-- Equal but for lines and for variables, which correspond. A callee is not read, so of it only
the name has to be the same. -/
inductive Mirrors (V : Variable → Variable → Prop) : Expr → Expr → Prop where
  | constant (text : String) (line line' : Nat) :
      Mirrors V (.constant text line) (.constant text line')
  | read {v w : Variable} (h : V v w) : Mirrors V (.variable v) (.variable w)
  | call {callee callee' : Expr} {args args' : List Expr} (line line' : Nat)
      (same : calleeName callee = calleeName callee') (each : MirrorsEach V args args') :
      Mirrors V (.operation OperatorName.call (callee :: args) line)
        (.operation OperatorName.call (callee' :: args') line')
  | operation {name : String} {args args' : List Expr} (line line' : Nat)
      (other : name = OperatorName.call → args = []) (each : MirrorsEach V args args') :
      Mirrors V (.operation name args line) (.operation name args' line')

inductive MirrorsEach (V : Variable → Variable → Prop) : List Expr → List Expr → Prop where
  | nil : MirrorsEach V [] []
  | cons {e e' : Expr} {es es' : List Expr} (head : Mirrors V e e')
      (tail : MirrorsEach V es es') : MirrorsEach V (e :: es) (e' :: es')

end

variable {V : Variable → Variable → Prop}

variable {T : Tie} {call call' : CallHandler} {room : Arrays.Room}

mutual

/-- By recursion over the two trees, which have one shape. -/
theorem Mirrors.coupled
    (hr : ∀ {v w}, V v w → Coupled T (Eval.read v.name) (Eval.read w.name))
    (hc : ∀ f values, Coupled T (call f values) (call' f values))
    {e e' : Expr} (h : Mirrors V e e') :
    Coupled T (e.eval room call) (e'.eval room call') := by
  cases h with
  | constant text => exact .pure _
  | read h => exact hr h
  | call line line' same each => exact .call line line' hc same (each.coupled hr hc)
  | operation line line' other each => exact .operation line line' other (each.coupled hr hc)

theorem MirrorsEach.coupled
    (hr : ∀ {v w}, V v w → Coupled T (Eval.read v.name) (Eval.read w.name))
    (hc : ∀ f values, Coupled T (call f values) (call' f values))
    {es es' : List Expr} (h : MirrorsEach V es es') :
    List.Forall₂ (Coupled T) (Expr.evalEach room call es) (Expr.evalEach room call' es') := by
  cases h with
  | nil => exact .nil
  | cons head tail => exact .cons (head.coupled hr hc) (tail.coupled hr hc)

end

mutual

theorem Mirrors.refl (hv : ∀ v, V v v) : ∀ e : Expr, Mirrors V e e
  | .constant text line => .constant text line line
  | .variable v => .read (hv v)
  | .operation _ [] line => .operation line line (fun _ => rfl) .nil
  | .operation name (callee :: rest) line => by
    by_cases hname : name = OperatorName.call
    · subst hname
      exact .call line line rfl (MirrorsEach.refl hv rest)
    · exact .operation line line (fun h => absurd h hname)
        (.cons (Mirrors.refl hv callee) (MirrorsEach.refl hv rest))

theorem MirrorsEach.refl (hv : ∀ v, V v v) : ∀ es : List Expr, MirrorsEach V es es
  | [] => .nil
  | e :: es => .cons (Mirrors.refl hv e) (MirrorsEach.refl hv es)

end

/-- One expression on both sides, where both have the same memory. -/
theorem Coupled.eval (hm : ∀ {s t}, T.near s t → t.memory = s.memory)
    (hc : ∀ f values, Coupled T (call f values) (call' f values)) (e : Expr) :
    Coupled T (e.eval room call) (e.eval room call') := by
  refine (Mirrors.refl (V := Eq) (fun _ => rfl) e).coupled ?_ hc
  rintro v _ rfl
  let look : Memory → Eval Value := fun m => Pure.pure ((m.find? v.name).getD .undefined)
  exact Coupled.onMemory (k := look) (l := look) hm fun m => .pure _

end TraceRepair
