import Mathlib.Data.List.Infix
import TraceRepair.Proofs.EscapingErrors

namespace TraceRepair

def narrowText (format : List Char) : Bool :=
  format.tails.all fun
    | '%' :: cs =>
      match Directive.read cs with
      | .ok (d, _) => d.Narrow
      | .error _ => true
    | _ => true

/-- The first operand is a literal, and no text or a narrow one. Other operands may come to any
text. -/
def narrowFormat : List Expr → Bool
  | .constant text _ :: _ =>
    match Value.ofLiteral text with
    | .str format => narrowText format.toList
    | _ => true
  | _ => false

mutual

/-- Each operation that puts a text together has a narrow format. -/
def Expr.narrowFormats : Expr → Bool
  | .constant _ _ | .variable _ => true
  | .operation name args _ =>
    (Operator.ofName? name != some .format || narrowFormat args) && Expr.narrowFormatsAll args

def Expr.narrowFormatsAll : List Expr → Bool
  | [] => true
  | e :: es => e.narrowFormats && Expr.narrowFormatsAll es

end

theorem narrow_of_narrowText {format cs rest : List Char} {d : Directive}
    (h : narrowText format = true) (inside : '%' :: cs <:+ format)
    (found : Directive.read cs = .ok (d, rest)) : d.Narrow := by
  have narrow := List.all_eq_true.mp h _ ((List.mem_tails _ _).mpr inside)
  simpa only [found, decide_eq_true_eq] using narrow

theorem RuntimeError.ne_aborted_of_mild {e : RuntimeError} (mild : e.isFatal = false) :
    e ≠ .aborted := by
  rintro rfl
  cases mild

/-- Whatever the arguments, the text is put together or the failure is a mild one. -/
theorem formatText_ne_aborted {format : String} (h : narrowText format.toList = true)
    (args : List Value) : FailsOnly (· ≠ .aborted) (formatText format args) := by
  apply failsOnly_formatBehind fun _ => RuntimeError.ne_aborted_of_mild
  intro cs d rest inside found wide
  exact absurd (narrow_of_narrowText h inside found) wide

/-- Any operator but a format, and a format of a narrow text. -/
theorem applyOperator_ne_aborted {name : String} {values : List Value}
    (h : Operator.ofName? name = some .format →
      ∀ format rest, values = .str format :: rest → narrowText format.toList = true) :
    FailsOnly (· ≠ .aborted) (applyOperator name values) := by
  by_cases plain : Operator.ofName? name = some .format
  · unfold applyOperator
    rw [plain]
    rcases values with _ | ⟨v, rest⟩
    · exact .error nofun
    · cases v with
      | str format => exact (formatText_ne_aborted (h plain format rest rfl) rest).map
      | _ => exact .error nofun
  · exact (mild_applyOperator plain values).mono fun _ => RuntimeError.ne_aborted_of_mild

theorem head_of_inOrder {x : Eval Value} {xs : List (Eval Value)} {s t : Machine} {v : Value}
    {rest : List Value} (h : Eval.inOrder (x :: xs) s = .ok (v :: rest) t) :
    ∃ u, x s = .ok v u := by
  simp only [Eval.inOrder, Eval.bind_apply] at h
  split at h
  · rename_i u first
    split at h
    · cases h
      exact ⟨u, first⟩
    · cases h
  · cases h

/-- The value of a literal in front does not depend on the run. -/
theorem narrowText_of_inOrder {room : Arrays.Room} {call : CallHandler} {args : List Expr}
    {s t : Machine} {format : String} {rest : List Value} (narrow : narrowFormat args = true)
    (h : Eval.inOrder (Expr.evalEach room call args) s = .ok (.str format :: rest) t) :
    narrowText format.toList = true := by
  unfold narrowFormat at narrow
  split at narrow
  · rename_i text line later
    obtain ⟨u, literal⟩ := head_of_inOrder h
    have same : Value.ofLiteral text = .str format := by injection literal
    rw [same] at narrow
    exact narrow
  · cases narrow

theorem combine_ne_aborted {room : Arrays.Room} {name : String} {args : List Expr}
    {values : List Value} (h : Operator.ofName? name = some .format →
      ∀ format rest, values = .str format :: rest → narrowText format.toList = true) :
    FailsOnly (· ≠ .aborted) (combine room name args values) := by
  unfold combine
  split
  · exact (Arrays.mild_create values room).mono fun _ => RuntimeError.ne_aborted_of_mild
  · exact applyOperator_ne_aborted h

abbrev NeverAborts {α : Type} (x : Eval α) : Prop := Eval.FailsOnly (· ≠ .aborted) x

theorem decisive?_ne_format {name : String} {decisive : Bool} (h : decisive? name = some decisive) :
    Operator.ofName? name ≠ some .format := by
  unfold decisive? at h
  split_ifs at h with isAnd isOr
  · subst isAnd
    decide
  · subst isOr
    decide

namespace NeverAborts

theorem mild {α : Type} {r : Except RuntimeError α} (h : Mild r) : NeverAborts (Eval.ofExcept r) :=
  .ofExcept (h.mono fun _ => RuntimeError.ne_aborted_of_mild)

section Expressions

variable {room : Arrays.Room} {call : CallHandler}

theorem connective {name : String} {decisive : Bool} (h : decisive? name = some decisive)
    {left right : Eval Value} (hleft : NeverAborts left) (hright : NeverAborts right) :
    NeverAborts (connective name decisive left right) := by
  apply hleft.bind
  intro _ v _ _
  split
  · exact .of_ok fun s => ⟨.bool decisive, s, rfl⟩
  · apply hright.bind
    intro _ w _ _
    exact mild (mild_applyOperator (decisive?_ne_format h) [v, w])

mutual

/-- By recursion over the tree, along the four forms of an operation. -/
theorem eval (hcall : ∀ function values, NeverAborts (call function values)) (e : Expr)
    (narrow : e.narrowFormats = true) : NeverAborts (e.eval room call) := by
  match e with
  | .constant text _ => exact .of_ok fun s => ⟨_, s, rfl⟩
  | .variable v => exact .of_ok fun s => ⟨_, s, rfl⟩
  | .operation name args line =>
    simp only [Expr.narrowFormats, Bool.and_eq_true] at narrow
    obtain ⟨here, within⟩ := narrow
    cases operationForm name args with
    | conditional condition yes no =>
      simp only [Expr.narrowFormatsAll, Bool.and_eq_true] at within
      obtain ⟨hcondition, hyes, hno, -⟩ := within
      rw [eval_conditional]
      apply (eval hcall condition hcondition).bind
      intro _ v _ _
      split
      · exact eval hcall yes hyes
      · exact eval hcall no hno
    | connective decides left right =>
      simp only [Expr.narrowFormatsAll, Bool.and_eq_true] at within
      obtain ⟨hleft, hright, -⟩ := within
      rw [eval_connective _ _ decides]
      exact connective decides (eval hcall left hleft) (eval hcall right hright)
    | call callee args =>
      simp only [Expr.narrowFormatsAll, Bool.and_eq_true] at within
      rw [eval_call]
      apply (mild (mild_calleeName callee)).bind
      intro _ function _ _
      apply (evalEach hcall args within.2).bind
      intro _ values _ _
      exact hcall function values
    | plain isPlain =>
      rw [eval_plain _ _ isPlain]
      apply (evalEach hcall args within).bind
      intro s values t evaluated
      apply Eval.FailsOnly.ofExcept
      apply combine_ne_aborted
      -- A format is the value of its first argument, which has to be a literal here.
      rintro puts format rest rfl
      simp only [puts, bne_self_eq_false, Bool.false_or] at here
      exact narrowText_of_inOrder here evaluated

theorem evalEach (hcall : ∀ function values, NeverAborts (call function values)) (es : List Expr)
    (narrow : Expr.narrowFormatsAll es = true) :
    NeverAborts (Eval.inOrder (Expr.evalEach room call es)) := by
  match es with
  | [] => exact .of_ok fun s => ⟨[], s, rfl⟩
  | e :: es =>
    simp only [Expr.narrowFormatsAll, Bool.and_eq_true] at narrow
    apply (eval hcall e narrow.1).bind
    intro _ v _ _
    apply (evalEach hcall es narrow.2).bind
    intro _ vs _ _
    exact .of_ok fun s => ⟨v :: vs, s, rfl⟩

end

/-- Each assignment of the block has narrow formats. -/
theorem runAssignments (hcall : ∀ function values, NeverAborts (call function values))
    (g : FlowGraph) (loc : Loc) {block : List Assignment}
    (narrow : ∀ assignment ∈ block, assignment.2.narrowFormats = true) :
    NeverAborts (g.runAssignments loc (Expr.eval room call) block) := by
  apply Eval.FailsOnly.runAssignments
  intro assignment member s t e failed _
  exact eval hcall assignment.2 (narrow assignment member) s t e failed

end Expressions

/-- A call aborts only in the walk of its callee. -/
theorem answerCall {p : Program} {limits : Limits} {run : FlowGraph → Eval Unit} {name : String}
    (hrun : ∀ g, p.function? name = some g → NeverAborts (run g)) (args : List Value) :
    NeverAborts (answerCall p limits run name args) := by
  cases found : p.function? name with
  | none =>
    rw [answerCall_outside found]
    exact mild (mild_mathResult name args)
  | some g =>
    by_cases fits : g.params.length = args.length
    · rw [answerCall_entered found fits]
      intro s t e failed
      unfold enter at failed
      split at failed
      · cases failed
        nofun
      · unfold Eval.inFrame at failed
        split at failed
        · rename_i e' u ran
          cases failed
          exact hrun g found _ _ _ ran
        · cases failed
    · rw [answerCall_mismatched found fits]
      exact .throw nofun

end NeverAborts

end TraceRepair
