import Mathlib.Data.List.Forall2
import TraceRepair.Expr

namespace TraceRepair.Expr

mutual

theorem alike_refl : ∀ e : Expr, e.alike e = true
  | .constant _ _ => by simp [alike]
  | .variable _ => by simp [alike, Variable.sameName]
  | .operation _ args _ => by simp [alike, alikeAll_refl args]

theorem alikeAll_refl : ∀ es : List Expr, alikeAll es es = true
  | [] => rfl
  | e :: es => by rw [alikeAll, alike_refl e, alikeAll_refl es, Bool.and_self]

end

mutual

/-- Names and texts are compared both ways alike. -/
theorem alike_comm : ∀ a b : Expr, a.alike b = b.alike a
  | .constant s _, .constant t _ => by simp only [alike, BEq.comm]
  | .variable v, .variable w => by simp only [alike, Variable.sameName, BEq.comm]
  | .operation f as _, .operation g bs _ => by
    rw [alike, alike, BEq.comm, alikeAll_comm as bs]
  | .constant .., .variable _ | .constant .., .operation .. | .variable _, .constant ..
  | .variable _, .operation .. | .operation .., .constant .. | .operation .., .variable _ => rfl

theorem alikeAll_comm : ∀ as bs : List Expr, alikeAll as bs = alikeAll bs as
  | [], [] | [], _ :: _ | _ :: _, [] => rfl
  | a :: as, b :: bs => by rw [alikeAll, alikeAll, alike_comm a b, alikeAll_comm as bs]

end

mutual

/-- Along three trees at once, as an expression in the middle has the shape of both others. -/
theorem alike_trans : ∀ {a b c : Expr}, a.alike b = true → b.alike c = true → a.alike c = true
  | .constant .., .constant .., .constant .., hab, hbc => by
    simp only [alike, beq_iff_eq] at hab hbc ⊢
    exact hab.trans hbc
  | .variable _, .variable _, .variable _, hab, hbc => by
    simp only [alike, Variable.sameName, beq_iff_eq] at hab hbc ⊢
    exact hab.trans hbc
  | .operation .., .operation .., .operation .., hab, hbc => by
    simp only [alike, Bool.and_eq_true, beq_iff_eq] at hab hbc ⊢
    exact ⟨hab.1.trans hbc.1, alikeAll_trans hab.2 hbc.2⟩

theorem alikeAll_trans : ∀ {as bs cs : List Expr},
    alikeAll as bs = true → alikeAll bs cs = true → alikeAll as cs = true
  | [], [], [], _, _ => rfl
  | _ :: _, _ :: _, _ :: _, hab, hbc => by
    simp only [alikeAll, Bool.and_eq_true] at hab hbc ⊢
    exact ⟨alike_trans hab.1 hbc.1, alikeAll_trans hab.2 hbc.2⟩

end

section Induction

variable {P : Expr → Expr → Prop}

mutual

/-- Equal expressions are built in one way from equal parts. -/
theorem alike_induct
    (texts : ∀ text line line', P (.constant text line) (.constant text line'))
    (names : ∀ v w, v.unprimedName = w.unprimedName → P (.variable v) (.variable w))
    (operations : ∀ name as bs line line', List.Forall₂ P as bs →
      P (.operation name as line) (.operation name bs line')) :
    ∀ {a b : Expr}, a.alike b = true → P a b
  | .constant text line, .constant text' line', h => by
    obtain rfl : text = text' := beq_iff_eq.mp h
    exact texts text line line'
  | .variable v, .variable w, h => names v w (beq_iff_eq.mp h)
  | .operation name as line, .operation name' bs line', h => by
    obtain ⟨named, args⟩ := Bool.and_eq_true_iff.mp h
    obtain rfl : name = name' := beq_iff_eq.mp named
    exact operations name as bs line line' (alikeAll_induct texts names operations args)

theorem alikeAll_induct
    (texts : ∀ text line line', P (.constant text line) (.constant text line'))
    (names : ∀ v w, v.unprimedName = w.unprimedName → P (.variable v) (.variable w))
    (operations : ∀ name as bs line line', List.Forall₂ P as bs →
      P (.operation name as line) (.operation name bs line')) :
    ∀ {as bs : List Expr}, alikeAll as bs = true → List.Forall₂ P as bs
  | [], [], _ => .nil
  | _ :: _, _ :: _, h => by
    obtain ⟨first, others⟩ := Bool.and_eq_true_iff.mp h
    exact .cons (alike_induct texts names operations first)
      (alikeAll_induct texts names operations others)

end

end Induction

end TraceRepair.Expr
