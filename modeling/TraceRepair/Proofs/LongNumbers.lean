import Mathlib.Data.List.Induction
import Mathlib.Data.Nat.Digits.Defs
import TraceRepair.Format

namespace TraceRepair

namespace Number

def largestWord : Nat := USize.size - 1

/-- Words have 32 bits at least. -/
theorem two_pow_le_largestWord : 2 ^ 32 ≤ largestWord + 1 := by
  have := USize.le_size
  unfold largestWord
  omega

theorem toNat_ofNatClamp (n : Nat) : (USize.ofNatClamp n).toNat = min n largestWord := by
  have := USize.size_pos
  unfold largestWord
  by_cases fits : n < USize.size
  · rw [USize.toNat_ofNatClamp_of_lt fits]
    omega
  · rw [USize.toNat_ofNatClamp_of_le (Nat.le_of_not_lt fits)]
    omega

def saturatingMul (a b : USize) : USize := .ofNatClamp (a.toNat * b.toNat)

def saturatingAdd (a b : USize) : USize := .ofNatClamp (a.toNat + b.toNat)

theorem toNat_saturatingMul (a b : USize) :
    (saturatingMul a b).toNat = min (a.toNat * b.toNat) largestWord :=
  toNat_ofNatClamp _

theorem toNat_saturatingAdd (a b : USize) :
    (saturatingAdd a b).toNat = min (a.toNat + b.toNat) largestWord :=
  toNat_ofNatClamp _

def pushDigit (n : USize) (c : Char) : USize :=
  saturatingAdd (saturatingMul n 10) (.ofNat (digitValue c))

def takeNumber (n : USize) : List Char → USize × List Char
  | [] => (n, [])
  | c :: cs => if isDigit c then takeNumber (pushDigit n c) cs else (n, c :: cs)

/-- What digits denote by their places: the last one counts once, the one before it ten times. -/
def placeValue (ds : List Char) : Nat := Nat.ofDigits 10 (ds.map digitValue).reverse

theorem digitsValue_concat (ds : List Char) (c : Char) :
    digitsValue (ds ++ [c]) = 10 * digitsValue ds + digitValue c := by
  rw [digitsValue, List.foldl_append]
  rfl

/-- Reading from the left comes to the sum of the places. -/
theorem digitsValue_eq (ds : List Char) : digitsValue ds = placeValue ds := by
  induction ds using List.reverseRecOn with
  | nil => rfl
  | append_singleton ds c ih =>
    rw [digitsValue_concat, ih, placeValue, placeValue, List.map_append, List.reverse_append,
      List.map_singleton, List.reverse_singleton, List.singleton_append, Nat.ofDigits_cons,
      Nat.add_comm]

theorem digitValue_lt {c : Char} (h : isDigit c = true) : digitValue c < 10 := by
  obtain ⟨-, upper⟩ := Bool.and_eq_true_iff.mp h
  have below : c.toNat ≤ '9'.toNat := UInt32.le_iff_toNat_le.mp (of_decide_eq_true upper)
  have nine : '9'.toNat = 57 := rfl
  have zero : '0'.toNat = 48 := rfl
  unfold digitValue
  omega

/-- One more digit, in a word that stays full once it is. -/
theorem toNat_pushDigit {c : Char} (h : isDigit c = true) (n : USize) :
    (pushDigit n c).toNat = min (10 * n.toNat + digitValue c) largestWord := by
  have small := digitValue_lt h
  have ten : (10 : USize).toNat = 10 := USize.toNat_ofNat_of_lt_32 (by decide)
  have digit : (USize.ofNat (digitValue c)).toNat = digitValue c :=
    USize.toNat_ofNat_of_lt_32 (by omega)
  rw [pushDigit, toNat_saturatingAdd, toNat_saturatingMul, ten, digit]
  omega

/-- Digit by digit the word holds as much of the number as fits. Once the number has outgrown it,
both have: neither becomes smaller by another digit. -/
theorem toNat_foldl_pushDigit {ds : List Char} (all : ∀ c ∈ ds, isDigit c = true) :
    (ds.foldl pushDigit 0).toNat = min (placeValue ds) largestWord := by
  rw [← digitsValue_eq]
  induction ds using List.reverseRecOn with
  | nil => exact (USize.toNat_ofNat_of_lt_32 (by decide)).trans (Nat.zero_min _).symm
  | append_singleton ds c ih =>
    have earlier := ih fun d hd => all d (List.mem_append_left _ hd)
    have digit := all c (List.mem_append_right _ (List.mem_singleton.mpr rfl))
    rw [List.foldl_append, List.foldl_cons, List.foldl_nil, toNat_pushDigit digit, earlier,
      digitsValue_concat]
    omega

theorem takeNumber_eq (n : USize) (cs : List Char) :
    takeNumber n cs = ((cs.takeWhile isDigit).foldl pushDigit n, cs.dropWhile isDigit) := by
  induction cs generalizing n with
  | nil => rfl
  | cons c cs ih =>
    rw [takeNumber]
    split
    · rename_i digit
      rw [ih, List.takeWhile_cons_of_pos digit, List.dropWhile_cons_of_pos digit, List.foldl_cons]
    · rename_i other
      rw [List.takeWhile_cons_of_neg other, List.dropWhile_cons_of_neg other, List.foldl_nil]

/-- Cut off once at the end is the same as cut off at each digit. -/
theorem toNat_takeNumber (cs : List Char) :
    (takeNumber 0 cs).1.toNat = min (placeValue (cs.takeWhile isDigit)) largestWord := by
  rw [takeNumber_eq]
  exact toNat_foldl_pushDigit (List.all_eq_true.mp List.all_takeWhile)

/-- No longer prefix holds digits only. -/
theorem isPrefix_takeWhile_iff {p : Char → Bool} {cs taken : List Char} :
    taken <+: cs.takeWhile p ↔ taken <+: cs ∧ taken.all p = true := by
  constructor
  · intro h
    refine ⟨h.trans (List.takeWhile_prefix p), List.all_eq_true.mpr fun c hc => ?_⟩
    exact List.all_eq_true.mp List.all_takeWhile c (h.subset hc)
  · rintro ⟨⟨rest, rfl⟩, all⟩
    rw [List.takeWhile_append_of_pos (List.all_eq_true.mp all)]
    exact List.prefix_append _ _

end Number

namespace Directive

def judged (n : Nat) (rest : List Char) : Except RuntimeError (Nat × List Char) :=
  if widest < n then .error (.fieldTooWide widest) else .ok (n, rest)

/-- Reads a number as a word, which the limit is then compared with. -/
def readWord (cs : List Char) : Except RuntimeError (Nat × List Char) :=
  judged (Number.takeNumber 0 cs).1.toNat (Number.takeNumber 0 cs).2

/-- A number may be cut off anywhere beyond the limit. -/
theorem judged_of_cut {m n : Nat} (within : n ≤ widest → m = n) (beyond : widest < n → widest < m)
    (rest : List Char) : judged m rest = judged n rest := by
  by_cases fits : n ≤ widest
  · rw [within fits]
  · have wide := Nat.lt_of_not_le fits
    rw [judged, judged, if_pos wide, if_pos (beyond wide)]

variable (cs : List Char)

theorem readNumber_eq : readNumber cs =
    judged (Number.placeValue (cs.takeWhile Number.isDigit)) (cs.dropWhile Number.isDigit) := by
  rw [← Number.digitsValue_eq]
  refine judged_of_cut (fun fits => ?_) (fun wide => ?_) _
  · exact Number.cappedValue_eq (Nat.lt_succ_of_le fits)
  · exact Nat.not_lt.mp (mt Number.cappedValue_lt_iff.mp (Nat.not_lt.mpr wide))

/-- The largest word lies beyond the limit, so a number that has outgrown the word is refused. -/
theorem readWord_eq : readWord cs =
    judged (Number.placeValue (cs.takeWhile Number.isDigit)) (cs.dropWhile Number.isDigit) := by
  have room : widest < Number.largestWord :=
    Nat.lt_of_lt_of_le (by decide) (Nat.le_of_succ_le_succ Number.two_pow_le_largestWord)
  have taken : (Number.takeNumber 0 cs).2 = cs.dropWhile Number.isDigit :=
    congrArg Prod.snd (Number.takeNumber_eq 0 cs)
  rw [readWord, Number.toNat_takeNumber, taken]
  refine judged_of_cut (fun fits => ?_) (fun wide => ?_) _
  · exact Nat.min_eq_left (Nat.le_of_lt (Nat.lt_of_le_of_lt fits room))
  · exact Nat.lt_min.mpr ⟨wide, room⟩

/-- The longest row of digits in front is taken. After each of them the word holds what fits of
the number so far, and the number as a whole decides about the answer. -/
theorem readNumber_exact : ∃ ds rest, cs = ds ++ rest ∧
    (∀ taken, taken <+: ds ↔ taken <+: cs ∧ taken.all Number.isDigit = true) ∧
    (∀ k, (Number.takeNumber 0 (cs.take k)).1.toNat =
      min (Number.placeValue (ds.take k)) Number.largestWord) ∧
    (Number.takeNumber 0 cs).2 = rest ∧
    readNumber cs = readWord cs ∧
    readNumber cs = if Number.placeValue ds ≤ 65536 then .ok (Number.placeValue ds, rest)
      else .error (.fieldTooWide 65536) := by
  refine ⟨cs.takeWhile Number.isDigit, cs.dropWhile Number.isDigit,
    List.takeWhile_append_dropWhile.symm, fun taken => Number.isPrefix_takeWhile_iff, fun k => ?_,
    congrArg Prod.snd (Number.takeNumber_eq 0 cs), ?_, ?_⟩
  · rw [Number.toNat_takeNumber, List.take_takeWhile]
  · rw [readNumber_eq, readWord_eq]
  · rw [readNumber_eq, judged, ← ite_not]
    simp only [Nat.not_lt]
    rfl

example : readNumber "00000000000000000000065536.5f".toList = .ok (65536, ".5f".toList) := by
  decide +kernel

end Directive

end TraceRepair
