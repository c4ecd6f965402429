import TraceRepair.Proofs.StoredMappings

namespace TraceRepair

def trailingPrimes (name : String) : Nat := (name.toList.reverse.takeWhile (· == '\'')).length

theorem stripPrime?_eq_some {name base : String} :
    stripPrime? name = some base ↔ name.toList = base.toList ++ ['\''] := by
  unfold stripPrime?
  rw [String.back?_eq]
  constructor
  · intro h
    split at h
    · rename_i last
      obtain ⟨front, split⟩ := List.getLast?_eq_some_iff.mp last
      cases h
      simp [split]
    · cases h
  · intro split
    simp [split]

theorem trailingPrimes_eq_zero {name : String} :
    trailingPrimes name = 0 ↔ stripPrime? name = none := by
  unfold stripPrime? trailingPrimes
  rw [String.back?_eq]
  rcases List.eq_nil_or_concat name.toList with empty | ⟨front, last, split⟩
  · simp [empty]
  · rw [split]
    by_cases prime : last = '\'' <;> simp [prime]

/-- Stripping takes one prime at most. -/
theorem trailingPrimes_strip (name : String) :
    trailingPrimes ((stripPrime? name).getD name) = trailingPrimes name - 1 := by
  cases h : stripPrime? name with
  | none =>
    rw [Option.getD_none, trailingPrimes_eq_zero.mpr h]
  | some base =>
    simp [trailingPrimes, stripPrime?_eq_some.mp h]

namespace Variable

inductive Source where
  | reference
  | submission
  | printed
  | stored (primed : Bool) (line : UInt32)

def Source.read : Source → String → Except Json.ReadError Variable
  | .reference, name => .ok (.reference name)
  | .submission, name => .ok (.submission name)
  | .printed, name => .ok (.ofPrinted name)
  | .stored primed line, name => reader.run (toJson ⟨name, primed, line.toNat⟩).compact

def Source.taken : Source → Nat
  | .printed => 2
  | _ => 1

inductive Change where
  | toPrimed
  | toUnprimed
  | setPrimed (primed : Bool)
  | atLine (line : UInt32)

def Change.apply (v : Variable) : Change → Variable
  | .toPrimed => v.toPrimed
  | .toUnprimed => v.toUnprimed
  | .setPrimed primed => v.setPrimed primed
  | .atLine line => v.atLine line.toNat

def changed (v : Variable) (changes : List Change) : Variable := changes.foldl Change.apply v

/-- The variable is known by a name without a prime, under which it is printed and stored. -/
structure Named (v : Variable) : Prop where
  unprimed : stripPrime? v.unprimedName = none
  toPrimed : v.toPrimed.isPrimed = true
  toUnprimed : v.toUnprimed.isPrimed = false
  printed : (ofPrinted v.name).key = v.key
  stored : (reader.run v.toJson.compact).map key = .ok v.key

/-- The flag tells the origin, and the text is that of the variable that is read from it. -/
structure Flagged (v : Variable) : Prop extends v.Named where
  setPrimed : ∀ primed, (v.setPrimed primed).isPrimed = primed
  text : (reader.run v.toJson.compact).map (·.toJson.compact) = .ok v.toJson.compact

section Stored

variable {v : Variable}

theorem run_toJson (fits : v.line < UInt32.size) :
    reader.run v.toJson.compact = .ok ((ofOrigin v.stored v.flag).atLine v.line) :=
  (reads_toJson fits Json.Layout.loose_compact).run

theorem stored_ofOrigin (name : String) (primed : Bool) :
    (ofOrigin name primed).stored = (stripPrime? name).getD name := by
  unfold ofOrigin
  cases stripPrime? name <;> rfl

theorem flag_ofOrigin (name : String) (primed : Bool) :
    (ofOrigin name primed).flag = (primed || (stripPrime? name).isSome) := by
  unfold ofOrigin
  cases stripPrime? name <;> simp

theorem unprimed_iff : stripPrime? v.unprimedName = none ↔ trailingPrimes v.stored ≤ 1 := by
  rw [← trailingPrimes_eq_zero, unprimedName, trailingPrimes_strip, Nat.sub_eq_zero_iff_le]

/-- A variable whose stored name is its unprimed name has the key of its name and its flag. -/
theorem key_of_unprimed {w : Variable} (h : stripPrime? w.stored = none) :
    w.key = ⟨w.stored, w.flag⟩ := by
  simp [key, unprimedName, isPrimed, h]

theorem key_ofOrigin_of_unprimed {name : String} (h : stripPrime? name = none) (primed : Bool) :
    (ofOrigin name primed).key = ⟨name, primed⟩ := by
  simp [ofOrigin, key, unprimedName, isPrimed, h]

theorem key_ofPrinted (unprimed : stripPrime? v.unprimedName = none) :
    (ofPrinted v.name).key = v.key := by
  unfold ofPrinted
  cases primed : v.isPrimed with
  | true =>
    have printed : v.name = v.unprimedName ++ "'" := if_pos primed
    have stripped : stripPrime? v.name = some v.unprimedName :=
      stripPrime?_eq_some.mpr (by simp [printed])
    have known : v.key = ⟨v.unprimedName, true⟩ := congrArg (Key.mk v.unprimedName) primed
    rw [stripped, known]
    exact key_ofOrigin_of_unprimed unprimed true
  | false =>
    have clean : stripPrime? v.stored = none := stripPrime?_of_unprimed primed
    have flag : v.flag = false := (Bool.or_eq_false_iff.mp primed).1
    rw [name_of_unprimed primed, clean, key_of_unprimed clean, flag]
    exact key_ofOrigin_of_unprimed clean false

theorem key_ofOrigin (unprimed : stripPrime? v.unprimedName = none) (line : Nat) :
    ((ofOrigin v.stored v.flag).atLine line).key = v.key := by
  have clean : stripPrime? ((ofOrigin v.stored v.flag).atLine line).stored = none :=
    (stored_ofOrigin v.stored v.flag).symm ▸ unprimed
  rw [key_of_unprimed clean]
  exact congrArg₂ Key.mk (stored_ofOrigin v.stored v.flag) (flag_ofOrigin v.stored v.flag)

/-- A variable reads its own name back where at most one prime is left in what it stores. -/
theorem named_iff (fits : v.line < UInt32.size) : v.Named ↔ trailingPrimes v.stored ≤ 1 := by
  rw [← unprimed_iff]
  refine ⟨Named.unprimed, fun unprimed => ⟨unprimed, ?_, ?_, key_ofPrinted unprimed, ?_⟩⟩
  · simp [toPrimed, isPrimed]
  · simp [toUnprimed, isPrimed, unprimed]
  · rw [run_toJson fits]
    exact congrArg Except.ok (key_ofOrigin unprimed v.line)

/-- Its flag holds every prime where none is left in what it stores. -/
theorem flagged_iff (fits : v.line < UInt32.size) : v.Flagged ↔ trailingPrimes v.stored = 0 := by
  constructor
  · intro flagged
    have unset : (stripPrime? v.stored).isSome = false := flagged.setPrimed false
    rw [Option.isSome_eq_false_iff, Option.isNone_iff_eq_none] at unset
    exact trailingPrimes_eq_zero.mpr unset
  · intro zero
    have clean : stripPrime? v.stored = none := trailingPrimes_eq_zero.mp zero
    have named : v.Named := (named_iff fits).mpr (zero ▸ Nat.zero_le 1)
    refine ⟨named, fun primed => ?_, ?_⟩
    · simp [setPrimed, isPrimed, clean]
    · rw [run_toJson fits, ofOrigin_stored clean]
      rfl

end Stored

section Histories

/-- At most so many primes are left over, and the line has 32 bits. -/
structure LeftOver (n : Nat) (v : Variable) : Prop where
  primes : trailingPrimes v.stored ≤ n
  line : v.line < UInt32.size

/-- A copy for either side takes one prime off, and nothing puts one on. -/
theorem LeftOver.apply {n : Nat} {v : Variable} (left : v.LeftOver n) (change : Change) :
    (change.apply v).LeftOver n := by
  have fewer : trailingPrimes v.unprimedName ≤ n :=
    Nat.le_trans (Nat.le_of_eq (trailingPrimes_strip v.stored))
      (Nat.le_trans (Nat.sub_le _ _) left.primes)
  cases change with
  | toPrimed | toUnprimed => exact ⟨fewer, left.line⟩
  | setPrimed => exact ⟨left.primes, left.line⟩
  | atLine line => exact ⟨left.primes, line.toNat_lt⟩

/-- No change of the flag touches the primes that are left in the name. -/
theorem LeftOver.changed {n : Nat} {v : Variable} (left : v.LeftOver n) (changes : List Change) :
    (v.changed changes).LeftOver n := by
  induction changes generalizing v with
  | nil => exact left
  | cons change later ih => exact ih (left.apply change)

theorem trailingPrimes_ofOrigin (name : String) (primed : Bool) :
    trailingPrimes (ofOrigin name primed).stored = trailingPrimes name - 1 := by
  rw [stored_ofOrigin, trailingPrimes_strip]

theorem trailingPrimes_ofPrinted (name : String) :
    trailingPrimes (ofPrinted name).stored = trailingPrimes name - 2 := by
  have stripped := trailingPrimes_strip name
  unfold ofPrinted
  cases h : stripPrime? name with
  | none =>
    have zero := trailingPrimes_eq_zero.mpr h
    refine (trailingPrimes_ofOrigin name false).trans ?_
    omega
  | some base =>
    rw [h, Option.getD_some] at stripped
    refine (trailingPrimes_ofOrigin base true).trans ?_
    omega

theorem line_ofOrigin (name : String) (primed : Bool) : (ofOrigin name primed).line = 0 := by
  unfold ofOrigin
  cases stripPrime? name <;> rfl

theorem line_ofPrinted (name : String) : (ofPrinted name).line = 0 := by
  unfold ofPrinted
  cases stripPrime? name with
  | none => exact line_ofOrigin name false
  | some base => exact line_ofOrigin base true

theorem Source.exists_read (source : Source) (name : String) :
    ∃ v, source.read name = .ok v ∧
      trailingPrimes v.stored = trailingPrimes name - source.taken ∧ v.line < UInt32.size := by
  have first : 0 < UInt32.size := by decide
  cases source with
  | reference =>
    exact ⟨_, rfl, trailingPrimes_ofOrigin name false, (line_ofOrigin name false).symm ▸ first⟩
  | submission =>
    exact ⟨_, rfl, trailingPrimes_ofOrigin name true, (line_ofOrigin name true).symm ▸ first⟩
  | printed => exact ⟨_, rfl, trailingPrimes_ofPrinted name, (line_ofPrinted name).symm ▸ first⟩
  | stored primed line =>
    have read := run_toJson (v := ⟨name, primed, line.toNat⟩) line.toNat_lt
    exact ⟨_, read, trailingPrimes_ofOrigin name primed, line.toNat_lt⟩

end Histories

/-- Each string that the sources read is a variable, and how many primes end the string decides what
holds of the variable behind any changes. -/
theorem flagged_changed_iff (source : Source) (name : String) :
    ∃ v, source.read name = .ok v ∧
      ((∀ changes, (v.changed changes).Flagged) ↔ trailingPrimes name ≤ source.taken) ∧
      ((∀ changes, (v.changed changes).Named) ↔ trailingPrimes name ≤ source.taken + 1) := by
  obtain ⟨v, read, primes, line⟩ := source.exists_read name
  have left : v.LeftOver (trailingPrimes name - source.taken) := ⟨Nat.le_of_eq primes, line⟩
  refine ⟨v, read, ⟨fun flagged => ?_, fun le changes => ?_⟩, fun named => ?_, fun le changes => ?_⟩
  · have zero := (flagged_iff line).mp (flagged [])
    omega
  · have behind := left.changed changes
    have zero := behind.primes
    exact (flagged_iff behind.line).mpr (by omega)
  · have one := (named_iff line).mp (named [])
    omega
  · have behind := left.changed changes
    have one := behind.primes
    exact (named_iff behind.line).mpr (by omega)

/-- Three primes end the name, and only one of them moves into the flag. -/
theorem primes_left_over :
    let v := Variable.reference "x'''"
    v.unprimedName = "x'" ∧ (v.setPrimed false).isPrimed = true ∧ v.toUnprimed.isPrimed = true ∧
      (ofPrinted v.name).key ≠ v.key ∧
      (reader.run v.toJson.compact).toOption.map (·.toJson.compact) ≠ some v.toJson.compact := by
  decide +kernel

end Variable

end TraceRepair
