import Mathlib.Data.Int.ModEq
import TraceRepair.Operator

namespace TraceRepair

/-- The result is the integer of 64 bits that is congruent to the exact one. -/
def Wraps (result : Except RuntimeError Value) (exact : Int) : Prop :=
  ∃ n : Int64, result = .ok (.int n) ∧
    ∀ k : Int, k = n.toInt ↔ -2 ^ 63 ≤ k ∧ k < 2 ^ 63 ∧ k ≡ exact [ZMOD 2 ^ 64]

/-- Quotient and remainder of a division that rounds toward zero. Of all quotients one alone has no
64 bits. -/
structure Divides (a b q r : Int64) : Prop where
  dividend : a.toInt ≡ q.toInt * b.toInt + r.toInt [ZMOD 2 ^ 64]
  smaller : r.toInt.natAbs < b.toInt.natAbs
  sign : r.toInt = 0 ∨ r.toInt.sign = a.toInt.sign
  truncated : ¬(a = Int64.minValue ∧ b = -1) → q.toInt = a.toInt.tdiv b.toInt
  least : a = Int64.minValue ∧ b = -1 → q = Int64.minValue ∧ r = 0

variable {a b n : Int64} {exact : Int}

/-- Two integers that are congruent and less than the modulus apart are one. -/
theorem Wraps.of_bmod (reduced : n.toInt = exact.bmod (2 ^ 64)) : Wraps (.ok (.int n)) exact := by
  have congruent : n.toInt ≡ exact [ZMOD 2 ^ 64] := by
    rw [reduced]
    exact Int.bmod_emod
  have low := n.le_toInt
  have high := n.toInt_lt
  refine ⟨n, rfl, fun k => ⟨?_, fun ⟨atLeast, below, same⟩ => ?_⟩⟩
  · rintro rfl
    exact ⟨low, high, congruent⟩
  · have divides : (2 ^ 64 : Int) ∣ k - n.toInt := (congruent.trans same.symm).dvd
    omega

theorem toInt_absolute (a : Int64) :
    (if a < 0 then -a else a).toInt = (a.toInt.natAbs : Int).bmod (2 ^ 64) := by
  by_cases negative : a < 0
  · have below : a.toInt < 0 := Int64.lt_iff_toInt_lt.mp negative
    rw [if_pos negative, Int64.toInt_neg, Int.ofNat_natAbs_of_nonpos (Int.le_of_lt below)]
  · have nonneg : 0 ≤ a.toInt :=
      Int.not_lt.mp fun below => negative (Int64.lt_iff_toInt_lt.mpr below)
    rw [if_neg negative, Int.natAbs_of_nonneg nonneg]
    exact a.toInt_bmod.symm

/-- The remainder is exact whatever becomes of the quotient. -/
theorem divides_div_mod (nonzero : b ≠ 0) : Divides a b (a / b) (a % b) where
  dividend := by
    have quotient : (a / b).toInt ≡ a.toInt.tdiv b.toInt [ZMOD 2 ^ 64] := by
      rw [Int64.toInt_div]
      exact Int.bmod_emod
    calc a.toInt = a.toInt.tdiv b.toInt * b.toInt + (a % b).toInt := by
          rw [Int64.toInt_mod, Int.tdiv_mul_add_tmod]
      _ ≡ (a / b).toInt * b.toInt + (a % b).toInt [ZMOD 2 ^ 64] :=
          (quotient.symm.mul_right _).add_right _
  smaller := by
    have positive : 0 < b.toInt.natAbs :=
      Int.natAbs_pos.mpr fun zero => nonzero (Int64.toInt_inj.mp zero)
    rw [Int64.toInt_mod, Int.natAbs_tmod]
    exact Nat.mod_lt _ positive
  sign := by
    rw [Int64.toInt_mod, ← Int.sign_eq_zero_iff_zero, Int.sign_tmod]
    split
    · exact .inl rfl
    · exact .inr rfl
  truncated fits := by
    rcases not_and_or.mp fits with apart | apart
    · exact Int64.toInt_div_of_ne_left a b apart
    · exact Int64.toInt_div_of_ne_right a b apart
  least := by
    rintro ⟨rfl, rfl⟩
    exact ⟨Int64.minValue_div_neg_one, by decide⟩

/-- The divisor is looked at first. -/
theorem apply_divides {op : Arithmetic} (divides : op.divides = true) :
    op.apply (.int a) (.int b) =
      if b = 0 then .error .divisionByZero else .ok (.int (op.onInts a b)) := by
  simp [Arithmetic.apply, divides]

/-- Sums, differences, products and negation wrap around at 64 bits. Division and remainder fit
together and round toward zero, and only the smallest number by minus one leaves the range, where
the quotient wraps as well. -/
theorem applyOperator_integers (a b : Int64) :
    Wraps (applyOperator "+" [.int a, .int b]) (a.toInt + b.toInt) ∧
    Wraps (applyOperator "-" [.int a, .int b]) (a.toInt - b.toInt) ∧
    Wraps (applyOperator "*" [.int a, .int b]) (a.toInt * b.toInt) ∧
    Wraps (applyOperator "-" [.int a]) (-a.toInt) ∧
    Wraps (applyOperator "abs" [.int a]) a.toInt.natAbs ∧
    (applyOperator "/" [.int a, .int b] = .error .divisionByZero ↔ b = 0) ∧
    (applyOperator "%" [.int a, .int b] = .error .divisionByZero ↔ b = 0) ∧
    (b ≠ 0 → ∃ q r, applyOperator "/" [.int a, .int b] = .ok (.int q) ∧
      applyOperator "%" [.int a, .int b] = .ok (.int r) ∧ Divides a b q r) := by
  have quotient : applyOperator "/" [.int a, .int b] =
      if b = 0 then .error .divisionByZero else .ok (.int (a / b)) := apply_divides rfl
  have rest : applyOperator "%" [.int a, .int b] =
      if b = 0 then .error .divisionByZero else .ok (.int (a % b)) := apply_divides rfl
  refine ⟨.of_bmod (a.toInt_add b), .of_bmod (a.toInt_sub b), .of_bmod (a.toInt_mul b),
    .of_bmod a.toInt_neg, .of_bmod (toInt_absolute a), ?_, ?_, fun nonzero => ?_⟩
  · rw [quotient]
    split <;> simp [*]
  · rw [rest]
    split <;> simp [*]
  · rw [quotient, rest, if_neg nonzero, if_neg nonzero]
    exact ⟨_, _, rfl, rfl, divides_div_mod nonzero⟩

/-- The quotient that does not fit, and the remainder that does. -/
theorem applyOperator_integers_least :
    applyOperator "/" [.int Int64.minValue, .int (-1)] = .ok (.int Int64.minValue) ∧
      applyOperator "%" [.int Int64.minValue, .int (-1)] = .ok (.int 0) := by
  obtain ⟨-, -, -, -, -, -, -, division⟩ := applyOperator_integers Int64.minValue (-1)
  obtain ⟨q, r, quotient, rest, divides⟩ := division (by decide)
  obtain ⟨rfl, rfl⟩ := divides.least ⟨rfl, rfl⟩
  exact ⟨quotient, rest⟩

end TraceRepair
