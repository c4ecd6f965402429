import TraceRepair.Evaluation

namespace TraceRepair

namespace Number

variable {x y z : Float}

/-- The bits agree, or both are zeros. -/
theorem sameNumber_iff : sameNumber x y = true ↔
    x.toBits = y.toBits ∨ isZero x = true ∧ isZero y = true := by
  rw [sameNumber, Bool.or_eq_true, Bool.and_eq_true, beq_iff_eq]

theorem isZero_of_sameNumber (h : sameNumber x y = true) : isZero x = isZero y := by
  rcases sameNumber_iff.mp h with bits | ⟨hx, hy⟩
  · rw [isZero, isZero, bits]
  · rw [hx, hy]

theorem sameNumber_symm (h : sameNumber x y = true) : sameNumber y x = true :=
  sameNumber_iff.mpr ((sameNumber_iff.mp h).imp Eq.symm And.symm)

/-- What equals a zero is one, so zeros do not connect other numbers. -/
theorem sameNumber_trans (hxy : sameNumber x y = true) (hyz : sameNumber y z = true) :
    sameNumber x z = true := by
  have zeros := (isZero_of_sameNumber hxy).trans (isZero_of_sameNumber hyz)
  refine sameNumber_iff.mpr ?_
  rcases sameNumber_iff.mp hxy with bits | ⟨hx, -⟩
  · rcases sameNumber_iff.mp hyz with bits' | ⟨-, hz⟩
    · exact .inl (bits.trans bits')
    · exact .inr ⟨zeros.trans hz, hz⟩
  · exact .inr ⟨hx, zeros.symm.trans hx⟩

end Number

namespace Value

mutual

/-- Numbers are compared by their bits first, so what is not a number equals itself. -/
theorem alike_refl : ∀ v : Value, v.alike v = true
  | .int n => beq_self_eq_true n
  | .float x => by simp [alike, Number.sameNumber]
  | .bool b => beq_self_eq_true b
  | .str s => beq_self_eq_true s
  | .array items => alikeItems_refl items
  | .struct fields => alikeFields_refl fields
  | .undefined => rfl

theorem alikeItems_refl : ∀ vs : List Value, alikeItems vs vs = true
  | [] => rfl
  | v :: vs => by rw [alikeItems, alike_refl v, alikeItems_refl vs, Bool.and_true]

theorem alikeFields_refl : ∀ fs : List (String × Value), alikeFields fs fs = true
  | [] => rfl
  | (f, v) :: fs => by
    rw [alikeFields, alike_refl v, alikeFields_refl fs, beq_self_eq_true, Bool.and_true,
      Bool.and_true]

end

mutual

theorem alike_symm : ∀ {a b : Value}, a.alike b = true → b.alike a = true
  | .int _, .int _, h => beq_iff_eq.mpr (beq_iff_eq.mp h).symm
  | .float _, .float _, h => Number.sameNumber_symm h
  | .bool _, .bool _, h => beq_iff_eq.mpr (beq_iff_eq.mp h).symm
  | .str _, .str _, h => beq_iff_eq.mpr (beq_iff_eq.mp h).symm
  | .array _, .array _, h => alikeItems_symm h
  | .struct _, .struct _, h => alikeFields_symm h
  | .undefined, .undefined, h => h

theorem alikeItems_symm : ∀ {as bs : List Value}, alikeItems as bs = true → alikeItems bs as = true
  | [], [], _ => rfl
  | _ :: _, _ :: _, h => by
    simp only [alikeItems, Bool.and_eq_true] at h ⊢
    exact ⟨alike_symm h.1, alikeItems_symm h.2⟩

theorem alikeFields_symm : ∀ {as bs : List (String × Value)},
    alikeFields as bs = true → alikeFields bs as = true
  | [], [], _ => rfl
  | (_, _) :: _, (_, _) :: _, h => by
    simp only [alikeFields, Bool.and_eq_true, beq_iff_eq] at h ⊢
    exact ⟨⟨h.1.1.symm, alike_symm h.1.2⟩, alikeFields_symm h.2⟩

end

mutual

/-- Kinds never mix, so that only three values of one kind have to be looked at. -/
theorem alike_trans : ∀ {a b c : Value}, a.alike b = true → b.alike c = true → a.alike c = true
  | .int _, .int _, .int _, hab, hbc =>
    beq_iff_eq.mpr ((beq_iff_eq.mp hab).trans (beq_iff_eq.mp hbc))
  | .float _, .float _, .float _, hab, hbc => Number.sameNumber_trans hab hbc
  | .bool _, .bool _, .bool _, hab, hbc =>
    beq_iff_eq.mpr ((beq_iff_eq.mp hab).trans (beq_iff_eq.mp hbc))
  | .str _, .str _, .str _, hab, hbc =>
    beq_iff_eq.mpr ((beq_iff_eq.mp hab).trans (beq_iff_eq.mp hbc))
  | .array _, .array _, .array _, hab, hbc => alikeItems_trans hab hbc
  | .struct _, .struct _, .struct _, hab, hbc => alikeFields_trans hab hbc
  | .undefined, .undefined, .undefined, _, _ => rfl

theorem alikeItems_trans : ∀ {as bs cs : List Value},
    alikeItems as bs = true → alikeItems bs cs = true → alikeItems as cs = true
  | [], [], [], _, _ => rfl
  | _ :: _, _ :: _, _ :: _, hab, hbc => by
    simp only [alikeItems, Bool.and_eq_true] at hab hbc ⊢
    exact ⟨alike_trans hab.1 hbc.1, alikeItems_trans hab.2 hbc.2⟩

theorem alikeFields_trans : ∀ {as bs cs : List (String × Value)},
    alikeFields as bs = true → alikeFields bs cs = true → alikeFields as cs = true
  | [], [], [], _, _ => rfl
  | (_, _) :: _, (_, _) :: _, (_, _) :: _, hab, hbc => by
    simp only [alikeFields, Bool.and_eq_true, beq_iff_eq] at hab hbc ⊢
    exact ⟨⟨hab.1.1.trans hbc.1.1, alike_trans hab.1.2 hbc.1.2⟩, alikeFields_trans hab.2 hbc.2⟩

end

/-- Arrays of one length are empty together, and the zeros are the only false numbers. -/
theorem isTruthy_of_alike : ∀ {a b : Value}, a.alike b = true → a.isTruthy = b.isTruthy
  | .int _, .int _, h => by rw [isTruthy, isTruthy, beq_iff_eq.mp h]
  | .float _, .float _, h => by rw [isTruthy, isTruthy, Number.isZero_of_sameNumber h]
  | .bool _, .bool _, h => beq_iff_eq.mp h
  | .str _, .str _, h => by rw [isTruthy, isTruthy, beq_iff_eq.mp h]
  | .array [], .array [], _ | .array (_ :: _), .array (_ :: _), _ | .struct _, .struct _, _
  | .undefined, .undefined, _ => rfl

theorem alikeOption_refl (v : Option Value) : alikeOption v v = true := by
  cases v with
  | none => rfl
  | some v => exact alike_refl v

/-- A zero of either sign is false. -/
theorem map_isTruthy_of_alikeOption {a b : Option Value} (h : alikeOption a b = true) :
    a.map isTruthy = b.map isTruthy := by
  match a, b, h with
  | none, none, _ => rfl
  | some _, some _, h => exact congrArg some (isTruthy_of_alike h)

end Value

/-- The condition decides by its truth alone. -/
theorem nextLoc_of_alike {m n : Memory} (t : Transition)
    (h : Value.alikeOption (m.find? Reserved.condition) (n.find? Reserved.condition) = true) :
    FlowGraph.nextLoc t m = FlowGraph.nextLoc t n := by
  rw [FlowGraph.nextLoc, FlowGraph.nextLoc, Value.map_isTruthy_of_alikeOption h]

end TraceRepair
