import Mathlib.Data.List.Forall2
import TraceRepair.Proofs.AlikeExprs
import TraceRepair.Repair.Distance

namespace TraceRepair.Expr

def form? : Expr → Option (String × Nat)
  | .operation name args _ => some (name, args.length)
  | .constant .. | .variable _ => none

section Forms

variable {a b : Expr} {as bs : List Expr}

theorem form?_of_alike (h : a.alike b = true) : a.form? = b.form? := by
  refine alike_induct (P := fun a b => a.form? = b.form?) (fun _ _ _ => rfl) (fun _ _ _ => rfl) ?_ h
  intro name as bs line line' each
  rw [form?, form?, each.length_eq]

theorem size_leaf : ∀ {a : Expr}, a.form? = none → a.size = 1
  | .constant .., _ | .variable _, _ => rfl

theorem size_pos (a : Expr) : 0 < a.size := by
  cases a with
  | operation name args line => exact Nat.add_pos_left Nat.one_pos (sizeAll args)
  | constant text line => exact Nat.one_pos
  | «variable» v => exact Nat.one_pos

theorem distance_of_alike (h : a.alike b = true) : a.distance b = 0 := by
  unfold distance
  rw [if_pos h]

theorem distanceAll_of_alikeAll (h : alikeAll as bs = true) : distanceAll as bs = 0 := by
  induction as generalizing bs with
  | nil => simp [distanceAll]
  | cons a as ih =>
    cases bs with
    | nil => cases h
    | cons b bs =>
      obtain ⟨first, others⟩ := Bool.and_eq_true_iff.mp h
      rw [distanceAll, distance_of_alike first, ih others]

/-- The distance of operations of one form is that of their arguments, alike or not. -/
theorem distance_operation {name : String} {line line' : Nat} (h : as.length = bs.length) :
    (Expr.operation name as line).distance (.operation name bs line') = distanceAll as bs := by
  unfold distance
  split
  · rename_i same
    exact (distanceAll_of_alikeAll (Bool.and_eq_true_iff.mp same).2).symm
  · simp only [h, and_self, if_true]

theorem distance_leaf : ∀ {a b : Expr}, a.form? = none → b.form? = none →
    a.distance b = if a.alike b then 0 else 1
  | .constant .., .constant .., _, _ | .constant .., .variable _, _, _
  | .variable _, .constant .., _, _ | .variable _, .variable _, _, _ => by
    unfold distance
    rfl

/-- Expressions of different forms are deleted and inserted as a whole. -/
theorem distance_apart (h : a.form? ≠ b.form?) : a.distance b = a.size + b.size := by
  have differ : a.alike b = false := Bool.eq_false_iff.mpr fun same => h (form?_of_alike same)
  unfold distance
  rw [differ, if_neg Bool.false_ne_true]
  cases a with
  | operation f as line =>
    cases b with
    | operation g bs line' =>
      have : ¬(f = g ∧ as.length = bs.length) := fun ⟨name, count⟩ =>
        h (by rw [form?, form?, name, count])
      exact if_neg this
    | constant text line' => rfl
    | «variable» w => rfl
  | constant text line =>
    cases b with
    | operation g bs line' => rfl
    | constant text' line' => exact absurd rfl h
    | «variable» w => exact absurd rfl h
  | «variable» v =>
    cases b with
    | operation g bs line' => rfl
    | constant text line' => exact absurd rfl h
    | «variable» w => exact absurd rfl h

end Forms

section Induction

variable {P : Expr → Expr → Prop}

mutual

/-- Two expressions are leaves, or operations of one form with arguments in pairs, or of different
forms. -/
theorem pair_induct (leaves : ∀ a b, a.form? = none → b.form? = none → P a b)
    (apart : ∀ a b, a.form? ≠ b.form? → P a b)
    (operations : ∀ name as bs line line', List.Forall₂ P as bs →
      P (.operation name as line) (.operation name bs line')) : ∀ a b, P a b
  | .operation f as line, .operation g bs line' => by
    by_cases same : f = g ∧ as.length = bs.length
    · obtain ⟨rfl, count⟩ := same
      exact operations f as bs line line' (pairs_induct leaves apart operations as bs count)
    · refine apart _ _ fun h => same ?_
      simpa [form?] using h
  | .operation .., .constant .. | .operation .., .variable _ | .constant .., .operation ..
  | .variable _, .operation .. => apart _ _ nofun
  | .constant .., .constant .. | .constant .., .variable _ | .variable _, .constant ..
  | .variable _, .variable _ => leaves _ _ rfl rfl

/-- Two leaves, two expressions of different forms, or two operations of one name and number of
arguments. -/
theorem pairs_induct (leaves : ∀ a b, a.form? = none → b.form? = none → P a b)
    (apart : ∀ a b, a.form? ≠ b.form? → P a b)
    (operations : ∀ name as bs line line', List.Forall₂ P as bs →
      P (.operation name as line) (.operation name bs line')) :
    ∀ as bs : List Expr, as.length = bs.length → List.Forall₂ P as bs
  | [], [], _ => .nil
  | a :: as, b :: bs, count =>
    .cons (pair_induct leaves apart operations a b)
      (pairs_induct leaves apart operations as bs (Nat.succ.inj count))

end

end Induction

/-- No distance lies between alike expressions only. -/
theorem distance_eq_zero (a b : Expr) : a.distance b = 0 ↔ a.alike b = true := by
  induction a, b using pair_induct with
  | leaves a b ha hb =>
    rw [distance_leaf ha hb]
    split <;> simp [*]
  | apart a b differ =>
    have unlike : ¬(a.alike b = true) := fun same => differ (form?_of_alike same)
    have far : a.distance b ≠ 0 := by
      have := size_pos a
      rw [distance_apart differ]
      omega
    exact iff_of_false far unlike
  | operations name as bs line line' each =>
    rw [distance_operation each.length_eq, alike, beq_self_eq_true, Bool.true_and]
    induction each with
    | nil => simp [distanceAll, alikeAll]
    | cons first later ih =>
      rw [distanceAll, alikeAll, Bool.and_eq_true, ← first, ← ih]
      omega

theorem distance_comm (a b : Expr) : a.distance b = b.distance a := by
  induction a, b using pair_induct with
  | leaves a b ha hb => rw [distance_leaf ha hb, distance_leaf hb ha, alike_comm]
  | apart a b differ => rw [distance_apart differ, distance_apart differ.symm, Nat.add_comm]
  | operations name as bs line line' each =>
    rw [distance_operation each.length_eq, distance_operation each.length_eq.symm]
    induction each with
    | nil => rfl
    | cons first later ih => rw [distanceAll, distanceAll, first, ih]

theorem size_le_add_distance (a b : Expr) : a.size ≤ b.size + a.distance b := by
  induction a, b using pair_induct with
  | leaves a b ha hb =>
    rw [size_leaf ha, size_leaf hb]
    exact Nat.le_add_right 1 _
  | apart a b differ =>
    rw [distance_apart differ]
    omega
  | operations name as bs line line' each =>
    rw [distance_operation each.length_eq, size, size]
    suffices sizeAll as ≤ sizeAll bs + distanceAll as bs by omega
    induction each with
    | nil => exact Nat.zero_le _
    | cons first later ih =>
      rw [sizeAll, sizeAll, distanceAll]
      omega

theorem distance_le_add_size (a b : Expr) : a.distance b ≤ a.size + b.size := by
  induction a, b using pair_induct with
  | leaves a b ha hb =>
    rw [distance_leaf ha hb, size_leaf ha]
    split <;> omega
  | apart a b differ => exact Nat.le_of_eq (distance_apart differ)
  | operations name as bs line line' each =>
    rw [distance_operation each.length_eq, size, size]
    suffices distanceAll as bs ≤ sizeAll as + sizeAll bs by omega
    induction each with
    | nil => simp [distanceAll]
    | cons first later ih =>
      rw [sizeAll, sizeAll, distanceAll]
      omega

/-- Whatever has another form is as far away as it is large, so that a detour over it is no
shorter. -/
theorem triangle_of_form {a b c : Expr} (h : a.form? = b.form? → b.form? = c.form? →
    a.distance c ≤ a.distance b + b.distance c) :
    a.distance c ≤ a.distance b + b.distance c := by
  have whole := distance_le_add_size a c
  by_cases first : a.form? = b.form?
  · by_cases second : b.form? = c.form?
    · exact h first second
    · have := size_le_add_distance a b
      rw [distance_apart second]
      omega
  · have := size_le_add_distance c b
    rw [distance_apart first, distance_comm b c]
    omega

theorem form?_eq_some {e : Expr} {name : String} {count : Nat} (h : e.form? = some (name, count)) :
    ∃ args line, e = .operation name args line ∧ args.length = count := by
  cases e with
  | operation f args line =>
    obtain ⟨rfl, rfl⟩ := Prod.mk.inj (Option.some.inj h)
    exact ⟨args, line, rfl, rfl⟩
  | constant text line => cases h
  | «variable» v => cases h

/-- By cases on the forms: a detour through another form costs the size of both sides. -/
theorem distance_triangle (a b c : Expr) : a.distance c ≤ a.distance b + b.distance c := by
  induction a, b using pair_induct generalizing c with
  | leaves a b ha hb =>
    refine triangle_of_form fun _ hbc => ?_
    have hc : c.form? = none := hbc.symm.trans hb
    rw [distance_leaf ha hc, distance_leaf ha hb, distance_leaf hb hc]
    -- Two labels that differ cannot both be that of the leaf in between.
    cases hab : a.alike b with
    | false =>
      rw [if_neg Bool.false_ne_true]
      split <;> omega
    | true =>
      cases hbc : b.alike c with
      | false =>
        rw [if_neg Bool.false_ne_true]
        split <;> omega
      | true => simp [alike_trans hab hbc]
  | apart a b differ => exact triangle_of_form fun hab _ => absurd hab differ
  | operations name as bs line line' each =>
    refine triangle_of_form fun hab hbc => ?_
    obtain ⟨cs, _, rfl, count⟩ := form?_eq_some hbc.symm
    rw [distance_operation (each.length_eq.trans count.symm), distance_operation each.length_eq,
      distance_operation count.symm]
    clear hab hbc
    induction each generalizing cs with
    | nil => simp [distanceAll]
    | @cons a b as bs first later ih =>
      obtain ⟨c, cs, rfl⟩ := List.exists_cons_of_length_eq_add_one count
      have head := first c
      have tail := ih cs (Nat.succ.inj count)
      rw [distanceAll, distanceAll, distanceAll]
      omega

/-- To change an expression costs at most as much as to delete it and to add the other one. -/
theorem distance_metric (a b c : Expr) :
    (a.distance b = 0 ↔ a.alike b = true) ∧ a.distance b = b.distance a ∧
    a.distance c ≤ a.distance b + b.distance c ∧
    (a.size ≤ b.size + a.distance b ∧ b.size ≤ a.size + a.distance b) ∧
    a.distance b ≤ a.size + b.size ∧
    repairCost (some a) (some b) ≤ repairCost (some a) none + repairCost none (some b) := by
  have sizes : a.size ≤ b.size + a.distance b ∧ b.size ≤ a.size + a.distance b :=
    ⟨size_le_add_distance a b, distance_comm a b ▸ size_le_add_distance b a⟩
  exact ⟨distance_eq_zero a b, distance_comm a b, distance_triangle a b c, sizes,
    distance_le_add_size a b, distance_le_add_size a b⟩

end TraceRepair.Expr
