import Mathlib
import TraceRepair.Proofs.EqualValues

namespace TraceRepair

namespace Number

variable {x y : Float}

/-- Without its sign a zero has no bit left. -/
theorem isZero_iff : isZero x = true ↔ x = 0 ∨ x = -0 := by
  constructor
  · intro zero
    have shifted := congrArg UInt64.toNat (beq_iff_eq.mp zero)
    rw [UInt64.toNat_shiftLeft, Nat.shiftLeft_eq] at shifted
    have bits : x.toBits.toNat = 0 ∨ x.toBits.toNat = 2 ^ 63 := by
      have small := x.toBits.toNat_lt
      change x.toBits.toNat * 2 % 2 ^ 64 = 0 at shifted
      omega
    exact bits.imp (fun h => Float.toBits_inj.mp (UInt64.toNat_inj.mp h))
      (fun h => Float.toBits_inj.mp (UInt64.toNat_inj.mp h))
  · rintro (rfl | rfl) <;> rfl

theorem ne_nan_of_isZero (h : isZero x = true) : x ≠ Float.nan := by
  rintro rfl
  cases h

/-- IEEE equality in terms of bits: the two zeros are equal, and what is not a number equals
nothing. -/
theorem beq_iff :
    (x == y) = true ↔ (x = y ∧ x ≠ Float.nan) ∨ isZero x = true ∧ isZero y = true := by
  rw [Float.beq_iff_ne_nan_and_eq]
  constructor
  · rintro ⟨number, -, rfl | ⟨rfl, rfl⟩ | ⟨rfl, rfl⟩⟩
    · exact .inl ⟨rfl, number⟩
    · exact .inr ⟨rfl, rfl⟩
    · exact .inr ⟨rfl, rfl⟩
  · rintro (⟨rfl, number⟩ | ⟨hx, hy⟩)
    · exact ⟨number, number, .inl rfl⟩
    · refine ⟨ne_nan_of_isZero hx, ne_nan_of_isZero hy, ?_⟩
      rcases isZero_iff.mp hx with rfl | rfl <;> rcases isZero_iff.mp hy with rfl | rfl <;> simp

theorem sameNumber_eq (x y : Float) : sameNumber x y = (x == y || x.isNaN && y.isNaN) := by
  rw [Bool.eq_iff_iff, sameNumber_iff, Float.toBits_inj, Bool.or_eq_true, beq_iff]
  simp only [Bool.and_eq_true, Float.isNaN_eq_decide_eq_nan, decide_eq_true_eq]
  constructor
  · rintro (rfl | zeros)
    · by_cases nan : x = Float.nan
      · exact .inr ⟨nan, nan⟩
      · exact .inl (.inl ⟨rfl, nan⟩)
    · exact .inl (.inr zeros)
  · rintro ((⟨same, -⟩ | zeros) | ⟨hx, hy⟩)
    · exact .inl same
    · exact .inr zeros
    · exact .inl (hx.trans hy.symm)

theorem isZero_eq (x : Float) : isZero x = (x == 0) := by
  rw [Bool.eq_iff_iff, beq_iff]
  constructor
  · intro zero
    exact .inr ⟨zero, rfl⟩
  · rintro (⟨rfl, -⟩ | ⟨zero, -⟩)
    · rfl
    · exact zero

end Number

/-- Alike values are true together, so that branches on them go the same way; floats are alike when
they are equal or both no numbers. -/
theorem Value.alike_equivalence :
    (Equivalence fun a b : Value => a.alike b = true) ∧
    (∀ a b : Value, a.alike b = true → a.isTruthy = b.isTruthy) ∧
    (∀ (m n : Memory) (t : Transition),
      alikeOption (m.find? Reserved.condition) (n.find? Reserved.condition) = true →
        FlowGraph.nextLoc t m = FlowGraph.nextLoc t n) ∧
    ∀ x y : Float, (Value.float x).alike (.float y) = (x == y || x.isNaN && y.isNaN) ∧
      (Value.float x).isTruthy = (x != 0) := by
  refine ⟨⟨alike_refl, alike_symm, alike_trans⟩, fun _ _ => isTruthy_of_alike,
    fun _ _ t => nextLoc_of_alike t, fun x y => ⟨?_, ?_⟩⟩
  · rw [alike, Number.sameNumber_eq]
  · rw [isTruthy, Number.isZero_eq, bne]

def Value.zeros (zero : Float) : Value :=
  .array [.float zero, .float (0.0 / 0.0), .struct [("rest", .array [.float (-zero)])]]

/-- Zeros of both signs are alike, and both are false. -/
theorem Value.alike_equivalence_zeros :
    (Value.zeros 0.0).alike (.zeros (-0.0)) = true ∧
      (Value.zeros (-0.0)).alike (.zeros 0.0) = true ∧
      (Value.zeros 0.0).isTruthy = (Value.zeros (-0.0)).isTruthy ∧
      (Value.float 0.0).isTruthy = (Value.float (-0.0)).isTruthy := by
  obtain ⟨equivalence, truth, -, -⟩ := Value.alike_equivalence
  have same : (Value.zeros 0.0).alike (.zeros (-0.0)) = true := by decide +kernel
  exact ⟨same, equivalence.symm same, truth _ _ same, truth _ _ (by decide +kernel)⟩

end TraceRepair
