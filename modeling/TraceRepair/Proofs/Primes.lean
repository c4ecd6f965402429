import TraceRepair.Reserved
import TraceRepair.Variable

namespace TraceRepair

theorem Variable.unprimedName_of_stripPrime? {v : Variable} (h : stripPrime? v.stored = none) :
    v.unprimedName = v.stored := by
  simp [Variable.unprimedName, h]

theorem Variable.stripPrime?_of_unprimed {v : Variable} (h : v.isPrimed = false) :
    stripPrime? v.stored = none := by
  simpa using (Bool.or_eq_false_iff.mp h).2

theorem Variable.unprimedName_toUnprimed {v : Variable} (h : stripPrime? v.stored = none) :
    v.toUnprimed.unprimedName = v.unprimedName := by
  simp [Variable.unprimedName, Variable.toUnprimed, h]

/-- A name without a prime of its own is read back with its flag. -/
theorem Variable.ofOrigin_stored {v : Variable} (h : stripPrime? v.stored = none) :
    (Variable.ofOrigin v.stored v.flag).atLine v.line = v := by
  simp [Variable.ofOrigin, h, Variable.atLine]

/-- A counterpart that was primed for the submission is read under its plain name again. -/
theorem Variable.name_toUnprimed_toPrimed {w : Variable} (h : stripPrime? w.stored = none)
    (line : Nat) : ((w.toPrimed.atLine line).toUnprimed).name = w.unprimedName := by
  have hw := Variable.unprimedName_of_stripPrime? h
  simp [Variable.toPrimed, Variable.atLine, Variable.toUnprimed, Variable.name,
    Variable.isPrimed, Variable.unprimedName, h]

theorem Variable.name_of_unprimed {v : Variable} (h : v.isPrimed = false) : v.name = v.stored := by
  simp [Variable.name, h]

/-- A name without a prime makes an unprimed variable, and no other name does. -/
theorem Variable.isPrimed_reference {name : String} :
    (Variable.reference name).isPrimed = false ↔ stripPrime? name = none := by
  unfold Variable.reference Variable.ofOrigin
  cases h : stripPrime? name with
  | none => simp [Variable.isPrimed, h]
  | some base => simp [Variable.isPrimed]

theorem Variable.unprimedName_reference {name : String} (h : stripPrime? name = none) :
    (Variable.reference name).unprimedName = name := by
  simp [Variable.reference, Variable.ofOrigin, Variable.unprimedName, h]

theorem isReserved_of_stripPrime? {name base : String} (h : stripPrime? name = some base) :
    isReserved base = isReserved name := by
  unfold stripPrime? at h
  split at h
  · rename_i last
    rw [String.back?_eq, List.getLast?_eq_some_iff] at last
    obtain ⟨front, hname⟩ := last
    cases h
    simp [isReserved, hname]
  · cases h

/-- Taking off a prime keeps a name reserved. -/
theorem isReserved_unprimedName (v : Variable) :
    isReserved v.unprimedName = isReserved v.stored := by
  unfold Variable.unprimedName
  cases h : stripPrime? v.stored with
  | none => rfl
  | some base => exact isReserved_of_stripPrime? h

theorem isReserved_reference (name : String) :
    isReserved (Variable.reference name).unprimedName = isReserved name := by
  rw [isReserved_unprimedName]
  unfold Variable.reference Variable.ofOrigin
  cases h : stripPrime? name with
  | none => rfl
  | some base => exact isReserved_of_stripPrime? h

end TraceRepair
