import TraceRepair.Proofs.Calls
import TraceRepair.Proofs.OperationForm

namespace TraceRepair

def Mild {α : Type} (r : Except RuntimeError α) : Prop := FailsOnly (·.isFatal = false) r

namespace Mild

variable {α β : Type}

theorem ok (a : α) : Mild (.ok a) := FailsOnly.ok a

theorem error {e : RuntimeError} (h : e.isFatal = false) : Mild (.error e : Except _ α) :=
  FailsOnly.error h

theorem bind {x : Except RuntimeError α} {f : α → Except RuntimeError β} (hx : Mild x)
    (hf : ∀ a, Mild (f a)) : Mild (x >>= f) :=
  FailsOnly.bind hx fun a _ => hf a

theorem map {x : Except RuntimeError α} {f : α → β} (hx : Mild x) : Mild (x.map f) :=
  FailsOnly.map hx

theorem mono {P : RuntimeError → Prop} {x : Except RuntimeError α} (hx : Mild x)
    (h : ∀ e, e.isFatal = false → P e) : FailsOnly P x :=
  FailsOnly.mono hx h

theorem mapM {f : α → Except RuntimeError β} (hf : ∀ a, Mild (f a)) (xs : List α) :
    Mild (xs.mapM f) :=
  FailsOnly.mapM fun a _ => hf a

theorem foldlM {f : β → α → Except RuntimeError β} (hf : ∀ b a, Mild (f b a)) (xs : List α)
    (b : β) : Mild (xs.foldlM f b) := by
  induction xs generalizing b with
  | nil => exact .ok b
  | cons x xs ih =>
    rw [List.foldlM_cons]
    exact (hf b x).bind fun c => ih c

end Mild

section Numbers

theorem Arithmetic.mild_apply (op : Arithmetic) (left right : Value) :
    Mild (op.apply left right) := by
  unfold Arithmetic.apply
  repeat' split
  all_goals first | exact .ok _ | exact .error rfl

theorem Arithmetic.mild_negate (v : Value) : Mild (Arithmetic.negate v) := by
  cases v <;> first | exact .ok _ | exact .error rfl

theorem Arithmetic.mild_affirm (v : Value) : Mild (Arithmetic.affirm v) := by
  cases v <;> first | exact .ok _ | exact .error rfl

theorem Comparison.mild_apply (op : Comparison) (left right : Value) :
    Mild (op.apply left right) := by
  unfold Comparison.apply
  repeat' split
  all_goals first | exact .ok _ | exact .error rfl

theorem MathFunction.mild_floatArgument (v : Value) : Mild (MathFunction.floatArgument v) := by
  cases v <;> first | exact .ok _ | exact .error rfl

theorem MathFunction.mild_absolute (v : Value) : Mild (MathFunction.absolute v) := by
  cases v <;> first | exact .ok _ | exact .error rfl

theorem MathFunction.mild_onFloat (f : Float → Float) (v : Value) :
    Mild (MathFunction.onFloat f v) :=
  (mild_floatArgument v).bind fun _ => .ok _

theorem MathFunction.mild_floats (f : Float → Float → Float) (a b : Value) :
    Mild (do
      let x ← MathFunction.floatArgument a
      let y ← MathFunction.floatArgument b
      return Value.float (f x y)) :=
  (mild_floatArgument a).bind fun _ => (mild_floatArgument b).bind fun _ => .ok _

theorem MathFunction.mild_extremum (ints : Int64 → Int64 → Int64)
    (floats : Float → Float → Float) (a b : Value) :
    Mild (MathFunction.extremum ints floats a b) := by
  unfold MathFunction.extremum
  split
  · exact .ok _
  · exact mild_floats floats a b

/-- Wrong kinds and wrong numbers of operands are all that can go wrong. -/
theorem MathFunction.mild_apply (f : MathFunction) (args : List Value) :
    Mild (f.apply args) := by
  unfold MathFunction.apply
  split
  · exact mild_absolute _
  · exact mild_extremum _ _ _ _
  · exact mild_extremum _ _ _ _
  · exact mild_floats Float.pow _ _
  all_goals first | exact mild_onFloat _ _ | exact .error rfl

end Numbers

namespace Arrays

theorem mild_position (index : Value) (length : Nat) : Mild (position index length) := by
  unfold position
  split
  · exact .error rfl
  · split
    · exact .ok _
    · exact .error rfl

theorem mild_get (array index : Value) : Mild (get array index) := by
  cases array with
  | array items => exact (mild_position index items.length).bind fun _ => .ok _
  | str s => exact (mild_position index s.length).bind fun _ => .ok _
  | _ => exact .error rfl

theorem mild_assign (array : Value) (path : List Value) (value : Value) :
    Mild (assign array path value) := by
  induction path generalizing array with
  | nil =>
    unfold assign
    exact .ok value
  | cons index path ih =>
    unfold assign
    split
    · rename_i items
      exact (mild_position index items.length).bind fun i => (ih _).bind fun _ => .ok _
    · exact .error rfl

theorem mild_lengthOf (dimension : Value) : Mild (lengthOf dimension) := by
  unfold lengthOf
  repeat' split
  all_goals first | exact .ok _ | exact .error rfl

theorem mild_filled (room : Room) (lengths : List Nat) : Mild (filled room lengths) := by
  induction lengths with
  | nil => exact .ok _
  | cons length lengths ih =>
    refine ih.bind fun item => ?_
    split
    · exact .ok _
    · exact .error rfl

/-- Dimensions that are no lengths, and too large an array. -/
theorem mild_create (dimensions : List Value) (room : Room) : Mild (create dimensions room) := by
  refine (Mild.mapM mild_lengthOf dimensions).bind fun lengths => ?_
  split
  · exact .error rfl
  · exact mild_filled room lengths

theorem mild_head (list : Value) (type : Option String) : Mild (head list type) := by
  unfold head
  repeat' split
  all_goals first | exact .ok _ | exact .error rfl

theorem mild_tail (list : Value) : Mild (tail list) := by
  cases list <;> first | exact .ok _ | exact .error rfl

end Arrays

namespace Directive

theorem mild_readNumber (cs : List Char) : Mild (readNumber cs) := by
  unfold readNumber
  simp only
  split
  · exact .error rfl
  · exact .ok _

theorem mild_readPrecision (cs : List Char) : Mild (readPrecision cs) := by
  unfold readPrecision
  split
  · exact (mild_readNumber _).bind fun _ => .ok _
  · exact .ok _

/-- A number that is too large, and an end inside the directive. -/
theorem mild_read (cs : List Char) : Mild (read cs) := by
  refine (mild_readNumber _).bind fun width => (mild_readPrecision width.2).bind fun precision => ?_
  simp only
  split
  · exact .error rfl
  · exact .ok _

theorem mild_intArgument (v : Value) : Mild (intArgument v) := by
  unfold intArgument
  repeat' split
  all_goals first | exact .ok _ | exact .error rfl

theorem mild_characterText (v : Value) : Mild (characterText v) := by
  unfold characterText
  split
  · exact .ok _
  · exact (mild_intArgument v).bind fun _ => .ok _

/-- With such a precision, no conversion of a number asks for more places than there can be. A
general conversion shows up to three places more than its precision says. -/
def Narrow (d : Directive) : Prop := d.precision.getD 6 + 3 ≤ mostPlaces

instance (d : Directive) : Decidable d.Narrow := inferInstanceAs (Decidable (_ ≤ _))

section Places

-- Whatever is allowed of the mild failures and, where there are too many places, of the abort.
variable {P : RuntimeError → Prop} (mild : ∀ e, e.isFatal = false → P e)

theorem failsOnly_places {count : Nat} (h : mostPlaces < count → P .aborted) :
    FailsOnly P (places count) := by
  unfold places
  split
  · rename_i wide
    exact .error (h wide)
  · exact .ok count

theorem failsOnly_fixedForm (m : Number.Magnitude) {decimals : Nat}
    (h : mostPlaces < decimals → P .aborted) : FailsOnly P (fixedForm m decimals) :=
  (failsOnly_places h).bind fun _ _ => .ok _

theorem failsOnly_exponentForm (m : Number.Magnitude) {decimals : Nat}
    (h : mostPlaces < decimals → P .aborted) (tidy : List Char → List Char) :
    FailsOnly P (exponentForm m decimals tidy) :=
  (failsOnly_places h).bind fun _ _ => .ok _

theorem failsOnly_decimalDigits {d : Directive} (h : ¬ d.Narrow → P .aborted) (n : Nat) :
    FailsOnly P (d.decimalDigits n) := by
  unfold decimalDigits
  dsimp only
  split
  · refine (failsOnly_places fun wide => h ?_).bind fun _ _ => .ok _
    unfold Narrow
    cases hp : d.precision with
    | none => simp [hp] at wide
    | some p =>
      rw [hp, Option.getD_some] at wide
      rw [Option.getD_some]
      omega
  · exact .ok _

/-- A general conversion turns significant digits into places, of which there are up to three
more. -/
theorem failsOnly_floatDigits {d : Directive} (h : ¬ d.Narrow → P .aborted) (x : Float)
    (m : Number.Magnitude) : FailsOnly P (d.floatDigits x m) := by
  have wide : ∀ {count}, count ≤ d.precision.getD 6 + 3 → mostPlaces < count → P .aborted := by
    intro count most beyond
    apply h
    unfold Narrow
    omega
  unfold floatDigits
  dsimp only
  split
  · exact failsOnly_fixedForm m (wide (Nat.le_add_right _ 3))
  · exact failsOnly_exponentForm m (wide (Nat.le_add_right _ 3)) id
  · generalize (if m.significand = 0 then (0 : Int) else _) = place
    split
    · have most : max (d.precision.getD 6) 1 - 1 ≤ d.precision.getD 6 + 3 := by omega
      exact failsOnly_exponentForm m (wide most) _
    · -- A place that is shown without an exponent is at most the fourth behind the point.
      rename_i near
      push Not at near
      refine (failsOnly_fixedForm m fun beyond => ?_).map
      rcases Nat.eq_zero_or_pos (d.precision.getD 6) with none | some
      · rw [none] at beyond near
        unfold mostPlaces at beyond
        omega
      · exact wide (by omega) beyond

theorem failsOnly_floatBody {d : Directive} (h : ¬ d.Narrow → P .aborted) (x : Float) :
    FailsOnly P (d.floatBody x) := by
  refine FailsOnly.map ?_
  split
  · exact .ok _
  · exact failsOnly_floatDigits h x.abs _

include mild

theorem failsOnly_numeral {d : Directive} (h : ¬ d.Narrow → P .aborted) (arg : Value) :
    FailsOnly P (d.numeral arg) := by
  have ints : FailsOnly P (intArgument arg) := (mild_intArgument arg).mono mild
  have floats : FailsOnly P (MathFunction.floatArgument arg) :=
    (MathFunction.mild_floatArgument arg).mono mild
  unfold numeral
  split
  all_goals
    first
    | exact ints.bind fun n _ => (failsOnly_decimalDigits h _).bind fun _ _ => .ok _
    | exact ints.bind fun _ _ => .ok _
    | exact floats.bind fun x _ => (failsOnly_floatBody h x).bind fun _ _ => .ok _
    | exact .error (mild _ rfl)

theorem failsOnly_render {d : Directive} (h : ¬ d.Narrow → P .aborted) (arg : Value) :
    FailsOnly P (d.render arg) := by
  unfold render
  split
  · exact (mild_characterText arg).mono mild
  · exact .ok _
  · exact (failsOnly_numeral mild h arg).map

theorem failsOnly_apply {d : Directive} (h : ¬ d.Narrow → P .aborted) (arg : Value) :
    FailsOnly P (d.apply arg) := by
  unfold apply
  split
  · exact .error (mild _ rfl)
  · exact (failsOnly_render mild h arg).bind fun _ _ => .ok _

end Places

end Directive

/-- A text is put together without any but mild failures where all its directives are narrow. -/
theorem failsOnly_formatBehind {P : RuntimeError → Prop} (mild : ∀ e, e.isFatal = false → P e)
    (out : String) (format : List Char) (args : List Value)
    (h : ∀ cs d rest, '%' :: cs <:+ format → Directive.read cs = .ok (d, rest) → ¬ d.Narrow →
      P .aborted) : FailsOnly P (formatBehind out format args) := by
  have behind : ∀ {c : Char} {cs later : List Char}, later <:+ cs →
      (∀ cs' d rest, '%' :: cs' <:+ c :: cs → Directive.read cs' = .ok (d, rest) → ¬ d.Narrow →
        P .aborted) →
      ∀ cs' d rest, '%' :: cs' <:+ later → Directive.read cs' = .ok (d, rest) → ¬ d.Narrow →
        P .aborted := by
    intro c cs later within h cs' d rest inside
    exact h cs' d rest (inside.trans (within.trans (List.suffix_cons _ _)))
  fun_induction formatBehind with
  | case1 out => exact .ok out
  | case2 out args cs e failed =>
    exact .error (mild e (Directive.mild_read cs e failed))
  | case3 out args cs d rest found doubled ih =>
    exact ih (behind ((List.suffix_cons _ _).trans (Directive.suffix_read found)) h)
  | case4 => exact .error (mild _ rfl)
  | case5 out cs d rest found single arg args e failed =>
    refine .error (Directive.failsOnly_apply mild ?_ arg e failed)
    exact h cs d rest (List.suffix_refl _) found
  | case6 out cs d rest found single arg args text applied ih =>
    exact ih (behind ((List.suffix_cons _ _).trans (Directive.suffix_read found)) h)
  | case7 out args c cs plain ih => exact ih (behind (List.suffix_refl _) h)

/-- What operations on values may end with: they know neither the budget nor how a program
contradicts itself. -/
def RuntimeError.isRaised : RuntimeError → Bool
  | .timeout _ | .malformed _ => false
  | _ => true

theorem RuntimeError.isRaised_of_mild {e : RuntimeError} (mild : e.isFatal = false) :
    e.isRaised = true := by
  cases e <;> first | rfl | cases mild

/-- Besides the mild failures this is the end of the process. -/
theorem RuntimeError.isRaised_iff {e : RuntimeError} :
    e.isRaised = true ↔ e.isFatal = false ∨ e = .aborted := by
  cases e <;> simp [isRaised, isFatal]

abbrev Raised {α : Type} (r : Except RuntimeError α) : Prop := FailsOnly (·.isRaised = true) r

theorem Mild.raised {α : Type} {r : Except RuntimeError α} (h : Mild r) : Raised r :=
  FailsOnly.mono h fun _ => RuntimeError.isRaised_of_mild

theorem raised_formatText (format : String) (args : List Value) : Raised (formatText format args) :=
  failsOnly_formatBehind (fun _ => RuntimeError.isRaised_of_mild) _ _ _ fun _ _ _ _ _ _ => rfl

namespace Operator

theorem mild_defined (v : Value) : Mild (defined v) := by
  unfold defined
  split
  · exact .error rfl
  · exact .ok _

theorem mild_appendTexts (parts : List Value) : Mild (appendTexts parts) :=
  (Mild.mapM (fun part => (mild_defined part).map) parts).bind fun _ => .ok _

theorem mild_castTo (type v : Value) : Mild (castTo type v) := by
  refine (mild_defined v).bind fun w => ?_
  split
  · exact .ok _
  · exact .error rfl

/-- Only a format can ask for too much. -/
theorem mild_result {op : Operator} (plain : op ≠ .format) {args : List Value}
    {r : Except RuntimeError Value} (h : op.result? args = some r) : Mild r := by
  unfold result? at h
  split at h
  all_goals try cases h
  · exact Arithmetic.mild_apply _ _ _
  · exact Arithmetic.mild_negate _
  · exact Arithmetic.mild_affirm _
  · exact Comparison.mild_apply _ _ _
  · exact (mild_defined _).map
  · refine (mild_defined _).bind fun left => ?_
    split
    · exact (mild_defined _).bind fun _ => .ok _
    · exact .ok _
  · refine (mild_defined _).bind fun left => ?_
    split
    · exact .ok _
    · exact (mild_defined _).bind fun _ => .ok _
  · exact mild_appendTexts _
  · exact absurd rfl plain
  · exact absurd rfl plain
  · exact Arrays.mild_assign _ _ _
  · exact Mild.foldlM Arrays.mild_get _ _
  · exact Arrays.mild_head _ _
  · exact Arrays.mild_head _ _
  · exact Arrays.mild_tail _
  · exact mild_castTo _ _
  · exact MathFunction.mild_apply _ _

theorem raised_result {op : Operator} {args : List Value} {r : Except RuntimeError Value}
    (h : op.result? args = some r) : Raised r := by
  by_cases plain : op = .format
  · subst plain
    rcases args with _ | ⟨v, args⟩
    · cases h
    · cases v with
      | str text =>
        cases h
        exact FailsOnly.map (raised_formatText text args)
      | _ =>
        cases h
        exact .error rfl
  · exact (mild_result plain h).raised

end Operator

/-- An unknown operator is a mild failure as well. -/
theorem mild_applyOperator {name : String} (plain : Operator.ofName? name ≠ some .format)
    (args : List Value) : Mild (applyOperator name args) := by
  unfold applyOperator
  cases h : (Operator.ofName? name).bind fun op => op.result? args with
  | none => exact .error rfl
  | some r =>
    obtain ⟨op, hop, hr⟩ := Option.bind_eq_some_iff.mp h
    refine Operator.mild_result ?_ hr
    rintro rfl
    exact plain hop

/-- With formats, the process may end. -/
theorem raised_applyOperator (name : String) (args : List Value) :
    Raised (applyOperator name args) := by
  unfold applyOperator
  cases h : (Operator.ofName? name).bind fun op => op.result? args with
  | none => exact .error rfl
  | some r =>
    obtain ⟨op, -, hr⟩ := Option.bind_eq_some_iff.mp h
    exact Operator.raised_result hr

theorem raised_combine (room : Arrays.Room) (name : String) (args : List Expr)
    (values : List Value) : Raised (combine room name args values) := by
  unfold combine
  split
  · exact (Arrays.mild_create _ _).raised
  · exact raised_applyOperator _ _

theorem mild_mathResult (name : String) (args : List Value) : Mild (mathResult name args) := by
  unfold mathResult
  split
  · exact MathFunction.mild_apply _ _
  · exact .error rfl

theorem mild_calleeName (callee : Expr) : Mild (calleeName callee) := by
  cases callee <;> first | exact .ok _ | exact .error rfl

end TraceRepair
