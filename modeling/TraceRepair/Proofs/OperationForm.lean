import Mathlib.Data.List.Basic
import Mathlib.Tactic.ByContra
import Mathlib.Tactic.SplitIfs
import TraceRepair.Evaluation

namespace TraceRepair

/-- The truth of a first operand that makes the second one superfluous. -/
def decisive? (name : String) : Option Bool :=
  if name = OperatorName.and then some false
  else if name = OperatorName.or then some true
  else none

structure IsPlain (name : String) (args : List Expr) : Prop where
  conditional : name = OperatorName.conditional → args.length ≠ 3
  connective : decisive? name ≠ none → args.length ≠ 2
  call : name = OperatorName.call → args = []

def combine (room : Arrays.Room) (name : String) (args : List Expr) (values : List Value) :
    Except RuntimeError Value :=
  if name = OperatorName.arrayCreate ∧ args ≠ [] then Arrays.create values room
  else applyOperator name values

inductive OperationForm : String → List Expr → Prop where
  | conditional (condition yes no : Expr) :
      OperationForm OperatorName.conditional [condition, yes, no]
  | connective {name : String} {decisive : Bool} (h : decisive? name = some decisive)
      (left right : Expr) : OperationForm name [left, right]
  | call (callee : Expr) (args : List Expr) : OperationForm OperatorName.call (callee :: args)
  | plain {name : String} {args : List Expr} (h : IsPlain name args) : OperationForm name args

def SpecialForm.name : SpecialForm → String
  | .conditional => OperatorName.conditional
  | .and => OperatorName.and
  | .or => OperatorName.or
  | .call => OperatorName.call
  | .arrayCreate => OperatorName.arrayCreate

theorem SpecialForm.eq_of_ofName? {name : String} {form : SpecialForm}
    (h : SpecialForm.ofName? name = some form) : name = form.name := by
  unfold SpecialForm.ofName? at h
  split_ifs at h <;> cases h <;> assumption

/-- By name and number of arguments; a special form with another number of arguments is a plain
operation. -/
theorem operationForm (name : String) (args : List Expr) : OperationForm name args := by
  by_cases conditional : name = OperatorName.conditional ∧ args.length = 3
  · obtain ⟨rfl, hlen⟩ := conditional
    obtain ⟨condition, yes, no, rfl⟩ := List.length_eq_three.mp hlen
    exact .conditional condition yes no
  by_cases connective : decisive? name ≠ none ∧ args.length = 2
  · obtain ⟨hname, hlen⟩ := connective
    obtain ⟨left, right, rfl⟩ := List.length_eq_two.mp hlen
    obtain ⟨decisive, hd⟩ := Option.ne_none_iff_exists'.mp hname
    exact .connective hd left right
  by_cases call : name = OperatorName.call ∧ args ≠ []
  · obtain ⟨rfl, hargs⟩ := call
    obtain ⟨callee, rest, rfl⟩ := List.exists_cons_of_ne_nil hargs
    exact .call callee rest
  refine .plain ⟨fun hn hl => conditional ⟨hn, hl⟩, fun hn hl => connective ⟨hn, hl⟩, fun hn => ?_⟩
  by_contra hargs
  exact call ⟨hn, hargs⟩

theorem length_evalEach (room : Arrays.Room) (call : CallHandler) (args : List Expr) :
    (Expr.evalEach room call args).length = args.length := by
  induction args with
  | nil => rfl
  | cons e es ih => simp [Expr.evalEach, ih]

section Equations

variable (room : Arrays.Room) (call : CallHandler)

theorem eval_conditional (condition yes no : Expr) (line : Nat) :
    Expr.eval room call (.operation OperatorName.conditional [condition, yes, no] line) = (do
      if (← condition.eval room call).isTruthy then yes.eval room call
      else no.eval room call) := rfl

/-- Both connectives are one, but for the truth that decides. -/
theorem eval_connective {name : String} {decisive : Bool} (h : decisive? name = some decisive)
    (left right : Expr) (line : Nat) :
    Expr.eval room call (.operation name [left, right] line) =
      connective name decisive (left.eval room call) (right.eval room call) := by
  unfold decisive? at h
  split at h
  · rename_i hname
    cases hname
    cases h
    rfl
  · split at h
    · rename_i hname
      cases hname
      cases h
      rfl
    · cases h

theorem eval_call (callee : Expr) (args : List Expr) (line : Nat) :
    Expr.eval room call (.operation OperatorName.call (callee :: args) line) = (do
      let function ← Eval.ofExcept (calleeName callee)
      let values ← Eval.inOrder (Expr.evalEach room call args)
      call function values) := rfl

/-- All arguments run, and their values are combined. -/
theorem operate_plain {name : String} {args : List Expr} {meanings : List (Eval Value)}
    (h : IsPlain name args) (hlen : meanings.length = args.length) :
    operate room call name args meanings = (do
      let values ← Eval.inOrder meanings
      Eval.ofExcept (combine room name args values)) := by
  unfold combine
  cases hform : SpecialForm.ofName? name with
  | none =>
    have hname : name ≠ OperatorName.arrayCreate := by
      rintro rfl
      cases hform
    simp only [operate, hform, hname, false_and, if_false]
  | some form =>
    have hname := SpecialForm.eq_of_ofName? hform
    subst hname
    cases form with
    | conditional =>
      have := hlen ▸ h.conditional rfl
      match meanings, this with
      | [], _ | [_], _ | [_, _], _ | _ :: _ :: _ :: _ :: _, _ => rfl
      | [_, _, _], hne => exact absurd rfl hne
    | and | or =>
      have := hlen ▸ h.connective (Option.some_ne_none _)
      match meanings, this with
      | [], _ | [_], _ | _ :: _ :: _ :: _, _ => rfl
      | [_, _], hne => exact absurd rfl hne
    | call =>
      obtain rfl := h.call rfl
      rfl
    | arrayCreate =>
      match args, meanings, hlen with
      | [], [], _ => rfl
      | _ :: _, _ :: _, _ => rfl

theorem eval_plain {name : String} {args : List Expr} (h : IsPlain name args) (line : Nat) :
    Expr.eval room call (.operation name args line) = (do
      let values ← Eval.inOrder (Expr.evalEach room call args)
      Eval.ofExcept (combine room name args values)) := by
  rw [Expr.eval, operate_plain room call h (length_evalEach room call args)]

end Equations

end TraceRepair
