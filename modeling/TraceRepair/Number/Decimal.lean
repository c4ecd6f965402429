namespace TraceRepair.Number

def isDigit (c : Char) : Bool := '0' ≤ c && c ≤ '9'

def digitValue (c : Char) : Nat := c.toNat - '0'.toNat

def digitsValue (cs : List Char) : Nat := cs.foldl (fun n c => 10 * n + digitValue c) 0

def digits (n : Nat) : List Char := Nat.toDigits 10 n

def decimal (n : Nat) : String := String.ofList (digits n)

def signedDecimal (n : Int) : String :=
  match n with
  | .ofNat n => decimal n
  | .negSucc n => "-" ++ decimal (n + 1)

def splitSign : List Char → Bool × List Char
  | '-' :: cs => (true, cs)
  | '+' :: cs => (false, cs)
  | cs => (false, cs)

/-- The number that a row of digits denotes, as long as it stays below a cap. Digits behind the one
that reaches the cap do not count. -/
def cappedValue (cap : Nat) (cs : List Char) : Nat :=
  cs.foldl (fun n c => if n < cap then 10 * n + digitValue c else n) 0

/-- More digits never make a number smaller. -/
theorem le_foldl_digit (n : Nat) (cs : List Char) :
    n ≤ cs.foldl (fun n c => 10 * n + digitValue c) n := by
  induction cs generalizing n with
  | nil => exact Nat.le_refl n
  | cons c cs ih =>
    have grown : n ≤ 10 * n + digitValue c := by omega
    exact Nat.le_trans grown (ih _)

/-- The cap is never felt by a number that stays below it. -/
theorem foldl_capped_eq {cap n : Nat} {cs : List Char}
    (h : cs.foldl (fun n c => 10 * n + digitValue c) n < cap) :
    cs.foldl (fun n c => if n < cap then 10 * n + digitValue c else n) n =
      cs.foldl (fun n c => 10 * n + digitValue c) n := by
  induction cs generalizing n with
  | nil => rfl
  | cons c cs ih =>
    have below : n < cap := Nat.lt_of_le_of_lt (le_foldl_digit n (c :: cs)) h
    simp only [List.foldl_cons, if_pos below]
    exact ih h

theorem foldl_capped_of_le {cap n : Nat} (h : cap ≤ n) (cs : List Char) :
    cs.foldl (fun n c => if n < cap then 10 * n + digitValue c else n) n = n := by
  induction cs with
  | nil => rfl
  | cons c cs ih => simpa only [List.foldl_cons, if_neg (Nat.not_lt.mpr h)] using ih

theorem le_foldl_capped {cap n : Nat} {cs : List Char}
    (h : cap ≤ cs.foldl (fun n c => 10 * n + digitValue c) n) :
    cap ≤ cs.foldl (fun n c => if n < cap then 10 * n + digitValue c else n) n := by
  induction cs generalizing n with
  | nil => exact h
  | cons c cs ih =>
    by_cases below : n < cap
    · simp only [List.foldl_cons, if_pos below]
      exact ih h
    · rw [foldl_capped_of_le (Nat.le_of_not_lt below)]
      exact Nat.le_of_not_lt below

/-- Below the cap every digit counts. -/
theorem cappedValue_eq {cap : Nat} {cs : List Char} (h : digitsValue cs < cap) :
    cappedValue cap cs = digitsValue cs :=
  foldl_capped_eq h

/-- Cutting digits off takes no number below the cap. -/
theorem cappedValue_lt_iff {cap : Nat} {cs : List Char} :
    cappedValue cap cs < cap ↔ digitsValue cs < cap := by
  constructor
  · intro h
    exact Nat.lt_of_not_le fun le => absurd (le_foldl_capped le) (Nat.not_le.mpr h)
  · intro h
    rw [cappedValue_eq h]
    exact h

def readInt? (cap : Nat) (cs : List Char) : Option Int :=
  let (negative, ds) := splitSign cs
  if ds.isEmpty || !ds.all isDigit then none
  else if negative then some (-(cappedValue cap ds : Int))
  else some (cappedValue cap ds)

def readInt64? (cs : List Char) : Option Int64 :=
  (readInt? UInt64.size cs).bind fun n =>
    if Int64.minValue.toInt ≤ n ∧ n ≤ Int64.maxValue.toInt then some (Int64.ofInt n) else none

end TraceRepair.Number
