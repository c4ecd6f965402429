import Mathlib
import TraceRepair.Proofs.Directives

namespace TraceRepair

/-- How numbers are written: their base, the mark that may stand in front, and the digits. None of
the characters looks like a sign or a blank. -/
structure Numerals where
  base : Nat
  mark : List Char
  digit : Nat → Char
  base_gt : 1 < base
  digit_zero : digit 0 = '0'
  legible : ∀ k < base, digit k ∉ ['-', '+', ' ']
  mark_legible : ∀ c ∈ mark, c ∉ ['-', '+', ' ']

namespace Numerals

def decimal : Numerals :=
  ⟨10, [], Nat.digitChar, by decide, rfl, by decide +kernel, nofun⟩

def octal : Numerals :=
  ⟨8, ['0'], Nat.digitChar, by decide, rfl, by decide +kernel, by simp⟩

def hexadecimal : Numerals :=
  ⟨16, ['0', 'x'], Nat.digitChar, by decide, rfl, by decide +kernel, by simp⟩

def capitals : Numerals :=
  ⟨16, ['0', 'X'], fun k => (Nat.digitChar k).toUpper, by decide, rfl, by decide +kernel, by simp⟩

def ofConversion? : Char → Option Numerals
  | 'x' => some hexadecimal
  | 'X' => some capitals
  | 'o' => some octal
  | _ => none

/-- At least one digit, the leading one first; zeros may stand in front. -/
def Denotes (b : Numerals) (cs : List Char) (n : Nat) : Prop :=
  ∃ ks : List Nat, cs = ks.map b.digit ∧ ks ≠ [] ∧ (∀ k ∈ ks, k < b.base) ∧
    Nat.ofDigits b.base ks.reverse = n

variable {b : Numerals} {cs : List Char} {n : Nat}

theorem Denotes.legible (h : b.Denotes cs n) : ∀ c ∈ cs, c ∉ ['-', '+', ' '] := by
  obtain ⟨ks, rfl, -, small, -⟩ := h
  intro c hc
  obtain ⟨k, hk, rfl⟩ := List.mem_map.mp hc
  exact b.legible k (small k hk)

theorem Denotes.zeros (h : b.Denotes cs n) (k : Nat) : b.Denotes (Number.zeros k ++ cs) n := by
  obtain ⟨ks, rfl, nonempty, small, value⟩ := h
  refine ⟨List.replicate k 0 ++ ks, ?_, by simp [nonempty], ?_, ?_⟩
  · rw [List.map_append, List.map_replicate, b.digit_zero, Number.zeros]
  · intro j hj
    rcases List.mem_append.mp hj with zero | old
    · rw [List.eq_of_mem_replicate zero]
      exact Nat.zero_lt_of_lt b.base_gt
    · exact small j old
  · rw [List.reverse_append, List.reverse_replicate, Nat.ofDigits_append_replicate_zero, value]

/-- The digits by repeated division, as many as the logarithm tells. -/
theorem exists_toDigits {base : Nat} (h : 1 < base) (n : Nat) :
    ∃ ks : List Nat, Nat.toDigits base n = ks.map Nat.digitChar ∧ ks.length = Nat.log base n + 1 ∧
      (∀ k ∈ ks, k < base) ∧ Nat.ofDigits base ks.reverse = n := by
  induction n using Nat.strongRecOn with
  | _ n ih =>
    rw [Nat.toDigits_eq_if h]
    split
    · rename_i small
      exact ⟨[n], rfl, by simp [Nat.log_of_lt small], by simpa using small, by simp⟩
    · rename_i large
      have le : base ≤ n := Nat.le_of_not_lt large
      obtain ⟨ks, text, length, small, value⟩ := ih (n / base) (Nat.div_lt_self (by omega) h)
      refine ⟨ks ++ [n % base], by simp [text], ?_, ?_, ?_⟩
      · rw [List.length_append, length, Nat.log_of_one_lt_of_le h le, List.length_singleton]
      · intro k hk
        rcases List.mem_append.mp hk with old | last
        · exact small k old
        · rw [List.mem_singleton.mp last]
          exact Nat.mod_lt n (by omega)
      · rw [List.reverse_append, List.reverse_singleton, List.singleton_append, Nat.ofDigits_cons,
          value, Nat.mod_add_div]

/-- The digits of a number in any base, without zeros in front. -/
theorem exists_denotes (b : Numerals) (n : Nat) :
    ∃ ks : List Nat, Nat.toDigits b.base n = ks.map Nat.digitChar ∧
      (ks.map b.digit).length = Nat.log b.base n + 1 ∧ b.Denotes (ks.map b.digit) n := by
  obtain ⟨ks, text, length, small, value⟩ := exists_toDigits b.base_gt n
  have nonempty : ks ≠ [] := List.ne_nil_of_length_pos (by omega)
  exact ⟨ks, text, (List.length_map _).trans length, ks, rfl, nonempty, small, value⟩

end Numerals

def trimBlanks (cs : List Char) : List Char := (cs.dropWhile (· = ' ')).rdropWhile (· = ' ')

theorem dropBlanks_filled {cs : List Char} (ends : ∀ c ∈ cs.head?, c ≠ ' ') (i : Nat) :
    (List.replicate i ' ' ++ cs).dropWhile (· = ' ') = cs := by
  refine (takeWhile_dropWhile_iff.mpr ⟨rfl, ?_, ?_⟩).2
  · intro c hc
    exact decide_eq_true (List.eq_of_mem_replicate hc)
  · intro c hc
    exact decide_eq_false (ends c hc)

/-- Blanks on both sides are all that goes. -/
theorem trimBlanks_filled {cs : List Char} (nonempty : cs ≠ []) (legible : ∀ c ∈ cs, c ≠ ' ')
    (i j : Nat) : trimBlanks (List.replicate i ' ' ++ (cs ++ List.replicate j ' ')) = cs := by
  have front : ∀ c ∈ (cs ++ List.replicate j ' ').head?, c ≠ ' ' := by
    rw [List.head?_append_of_ne_nil _ nonempty]
    exact fun c hc => legible c (List.mem_of_head? hc)
  have back : ∀ c ∈ cs.reverse.head?, c ≠ ' ' :=
    fun c hc => legible c (List.mem_reverse.mp (List.mem_of_head? hc))
  rw [trimBlanks, dropBlanks_filled front, List.rdropWhile, List.reverse_append,
    List.reverse_replicate, dropBlanks_filled back, List.reverse_reverse]

namespace Directive

variable {d : Directive} {n : Int64}

def signs : List (List Char) := [[], ['-'], ['+'], [' ']]

/-- Zeros come behind the sign. -/
theorem padZeros_signed {sign body : List Char} (known : sign ∈ signs)
    (legible : ∀ c ∈ body.head?, c ∉ ['-', '+', ' ']) (missing : Nat) :
    padZeros missing (sign ++ body) = sign ++ (Number.zeros missing ++ body) := by
  simp only [signs, List.mem_cons, List.not_mem_nil, or_false] at known
  rcases known with rfl | rfl | rfl | rfl
  · cases body with
    | nil => simp [padZeros]
    | cons c body =>
      have plain : ¬(c = '-' ∨ c = '+' ∨ c = ' ') := by simpa using legible c rfl
      exact if_neg plain
  all_goals rfl

theorem length_padZeros (missing : Nat) (cs : List Char) :
    (padZeros missing cs).length = missing + cs.length := by
  unfold padZeros
  split
  · split
    · simp [Number.zeros]
      omega
    · simp [Number.zeros]
  · simp [Number.zeros]

/-- Filled up to the width exactly. -/
theorem length_pad (d : Directive) (s : String) : (d.pad s).length = max d.width s.length := by
  unfold pad
  dsimp only
  split
  · omega
  · split
    · simp [blanks]
      omega
    · split
      · rw [String.length_ofList, length_padZeros, String.length_toList]
        omega
      · simp [blanks]
        omega

def inserted (d : Directive) (length : Nat) : Nat :=
  if d.zero = true ∧ d.left = false then d.width - length else 0

/-- Blanks stand around a number with its sign, and zeros between the two. -/
theorem exists_pad (numeric : d.isNumeric = true) {sign body : List Char} (known : sign ∈ signs)
    (legible : ∀ c ∈ body.head?, c ∉ ['-', '+', ' ']) :
    ∃ i j, (d.pad (String.ofList (sign ++ body))).toList =
      List.replicate i ' ' ++
        ((sign ++ (Number.zeros (d.inserted (sign ++ body).length) ++ body)) ++
          List.replicate j ' ') := by
  unfold pad inserted
  rw [String.length_ofList]
  generalize d.width - (sign ++ body).length = missing
  dsimp only
  split
  · rename_i wide
    exact ⟨0, 0, by simp [wide, Number.zeros]⟩
  · split
    · rename_i left
      exact ⟨0, missing, by simp [left, blanks, Number.zeros]⟩
    · rename_i right
      split
      · rename_i zero
        rw [numeric, Bool.and_true] at zero
        exact ⟨0, 0, by simp [zero, right, padZeros_signed known legible]⟩
      · rename_i zero
        rw [numeric, Bool.and_true] at zero
        exact ⟨missing, 0, by simp [zero, blanks, Number.zeros]⟩

/-- A blank in the place of a sign goes with those around the number. -/
theorem trimBlanks_pad (numeric : d.isNumeric = true) {sign body : List Char}
    (known : sign ∈ signs) (nonempty : body ≠ []) (legible : ∀ c ∈ body, c ∉ ['-', '+', ' ']) :
    trimBlanks (d.pad (String.ofList (sign ++ body))).toList =
      sign.filter (· ≠ ' ') ++ (Number.zeros (d.inserted (sign ++ body).length) ++ body) := by
  obtain ⟨i, j, text⟩ := exists_pad numeric known fun c hc => legible c (List.mem_of_head? hc)
  rw [text]
  generalize hcore : Number.zeros (d.inserted (sign ++ body).length) ++ body = core
  have something : core ≠ [] := hcore ▸ by simp [nonempty]
  have plain : ∀ c ∈ core, c ≠ ' ' := by
    intro c hc
    rw [← hcore] at hc
    rcases List.mem_append.mp hc with zero | old
    · rw [List.eq_of_mem_replicate zero]
      decide
    · exact fun blank => legible c old (by simp [blank])
  simp only [signs, List.mem_cons, List.not_mem_nil, or_false] at known
  rcases known with rfl | rfl | rfl | rfl
  · exact trimBlanks_filled something plain i j
  · exact trimBlanks_filled (by simp) (by simpa using plain) i j
  · exact trimBlanks_filled (by simp) (by simpa using plain) i j
  · -- The blank joins those that are filled in.
    have joined : List.replicate i ' ' ++ ([' '] ++ core ++ List.replicate j ' ') =
        List.replicate (i + 1) ' ' ++ (core ++ List.replicate j ' ') := by
      simp [List.replicate_succ']
    rw [joined, trimBlanks_filled something plain]
    rfl

theorem sign_mem_signs (d : Directive) (negative : Bool) : d.sign negative ∈ signs := by
  cases negative <;> cases hp : d.plus <;> cases hs : d.space <;> simp [sign, signs, hp, hs]

theorem isNumeric_of_decimal (counts : d.conversion ∈ ['d', 'i', 'u']) : d.isNumeric = true := by
  simp only [List.mem_cons, List.not_mem_nil, or_false] at counts
  rcases counts with letter | letter | letter <;> simp [isNumeric, letter]

theorem isNumeric_of_bits {b : Numerals} (bits : Numerals.ofConversion? d.conversion = some b) :
    d.isNumeric = true := by
  unfold Numerals.ofConversion? at bits
  split at bits <;> simp_all [isNumeric]

/-- There can be as many places as a precision within the bound asks for. -/
theorem decimalDigits_eq (narrow : d.precision.getD 0 ≤ mostPlaces) (n : Nat) :
    d.decimalDigits n =
      .ok (Number.zeros (d.precision.getD 0 - (Number.digits n).length) ++ Number.digits n) := by
  unfold decimalDigits
  dsimp only
  split
  · rw [places, if_neg (Nat.not_lt.mpr narrow)]
    rfl
  · rename_i short
    rw [Nat.sub_eq_zero_of_le (Nat.not_lt.mp short)]
    rfl

/-- A sign and the digits of the size, with zeros up to the precision. -/
theorem exists_numeral_decimal (counts : d.conversion ∈ ['d', 'i', 'u'])
    (narrow : d.precision.getD 0 ≤ mostPlaces) (n : Int64) :
    ∃ ds, d.numeral (.int n) = .ok (d.sign (n.toInt < 0) ++ ds) ∧
      Numerals.decimal.Denotes ds n.toInt.natAbs ∧
      ds.length = max (d.precision.getD 0) (Nat.log 10 n.toInt.natAbs + 1) := by
  obtain ⟨ks, text, length, value⟩ := Numerals.decimal.exists_denotes n.toInt.natAbs
  have digits : Number.digits n.toInt.natAbs = ks.map Nat.digitChar := text
  have shown := decimalDigits_eq narrow n.toInt.natAbs
  refine ⟨Number.zeros (d.precision.getD 0 - (Number.digits n.toInt.natAbs).length) ++
    Number.digits n.toInt.natAbs, ?_, ?_, ?_⟩
  · simp only [List.mem_cons, List.not_mem_nil, or_false] at counts
    unfold numeral
    rcases counts with letter | letter | letter
    all_goals
      rw [letter]
      change (do return d.sign (n.toInt < 0) ++ (← d.decimalDigits n.toInt.natAbs)) = _
      rw [shown]
      rfl
  · rw [digits]
    exact value.zeros _
  · have count : (Number.digits n.toInt.natAbs).length = Nat.log 10 n.toInt.natAbs + 1 :=
      digits ▸ length
    simp only [Number.zeros, List.length_append, List.length_replicate]
    omega

/-- The mark, where it is asked for, and the digits of the bits. -/
theorem exists_numeral_bits {b : Numerals} (bits : Numerals.ofConversion? d.conversion = some b)
    (n : Int64) :
    ∃ ds, d.numeral (.int n) = .ok ((if d.alternate then b.mark else []) ++ ds) ∧
      b.Denotes ds n.toUInt64.toNat ∧ ds.length = Nat.log b.base n.toUInt64.toNat + 1 := by
  obtain ⟨ks, text, length, value⟩ := b.exists_denotes n.toUInt64.toNat
  refine ⟨ks.map b.digit, ?_, value, length⟩
  have marked : ∀ {ds : List Char}, ds = ks.map b.digit →
      (.ok ((if d.alternate then b.mark else []) ++ ds) : Except RuntimeError (List Char)) =
        .ok ((if d.alternate then b.mark else []) ++ ks.map b.digit) := by
    rintro _ rfl
    rfl
  unfold Numerals.ofConversion? at bits
  unfold numeral
  split at bits
  · rename_i letter
    cases bits
    rw [letter]
    exact marked text
  · rename_i letter
    cases bits
    rw [letter]
    exact marked ((congrArg (List.map Char.toUpper) text).trans List.map_map)
  · rename_i letter
    cases bits
    rw [letter]
    exact marked text
  · cases bits

theorem apply_numeral (numeric : d.isNumeric = true) {cs : List Char}
    (h : d.numeral (.int n) = .ok cs) : d.apply (.int n) = .ok (d.pad (String.ofList cs)) := by
  have rendered : d.render (.int n) = .ok (String.ofList cs) := by
    unfold render
    split
    · rename_i text
      simp [isNumeric, text] at numeric
    · rename_i text
      simp [isNumeric, text] at numeric
    · rw [h, Except.map]
  unfold apply
  rw [rendered]
  rfl

theorem length_sign (d : Directive) (negative : Bool) :
    (d.sign negative).length = if negative ∨ d.plus ∨ d.space then 1 else 0 := by
  cases negative <;> cases hp : d.plus <;> cases hs : d.space <;> simp [sign, hp, hs]

theorem shown_sign (d : Directive) (negative : Bool) :
    (d.sign negative).filter (· ≠ ' ') ∈ [[], ['-'], ['+']] ∧
      ((d.sign negative).filter (· ≠ ' ') = ['-'] ↔ negative = true) := by
  cases negative <;> cases hp : d.plus <;> cases hs : d.space <;> simp [sign, hp, hs]

end Directive

/-- A format that is one directive for a number. -/
theorem formatText_numeral {t : Spelling} {n : Int64} (numeric : t.directive.isNumeric = true)
    {cs : List Char} (h : t.directive.numeral (.int n) = .ok cs) :
    formatText (String.ofList ('%' :: t.written)) [.int n] =
      .ok (t.directive.pad (String.ofList cs)) := by
  have single : t.directive.conversion ≠ '%' := by
    intro percent
    simp [Directive.isNumeric, percent] at numeric
  have found : Directive.read t.written = .ok (t.directive, []) := by
    simpa using Directive.read_written t []
  have printed : t.directive.print [.int n] = .ok (t.directive.pad (String.ofList cs), []) := by
    rw [Directive.print, if_neg single, Directive.apply_numeral numeric h]
    rfl
  unfold formatText
  rw [String.toList_ofList, formatBehind_directive found, printed]
  simp [formatBehind, bind, Except.bind]

/-- One place is for a sign or the blank instead of it. A precision of `widest` itself is more than
there can be places. -/
theorem formatText_decimal {t : Spelling} (counts : t.conversion ∈ ['d', 'i', 'u'])
    (narrow : ∀ ds ∈ t.precision, Number.digitsValue ds < Directive.widest) (n : Int64) :
    ∃ out, formatText (String.ofList ('%' :: t.written)) [.int n] = .ok out ∧
      out.length = max (Number.digitsValue t.width)
        ((if n.toInt < 0 ∨ '+' ∈ t.flags ∨ ' ' ∈ t.flags then 1 else 0) +
          max ((t.precision.map Number.digitsValue).getD 0) (Nat.log 10 n.toInt.natAbs + 1)) ∧
      ∃ sign ds, trimBlanks out.toList = sign ++ ds ∧ sign ∈ [[], ['-'], ['+']] ∧
        (sign = ['-'] ↔ n.toInt < 0) ∧ Numerals.decimal.Denotes ds n.toInt.natAbs := by
  have numeric := Directive.isNumeric_of_decimal (d := t.directive) counts
  have within : t.directive.precision.getD 0 ≤ Directive.mostPlaces := by
    cases hp : t.precision with
    | none => simp [Spelling.directive, hp]
    | some ds =>
      simp only [Spelling.directive, hp, Option.map_some, Option.getD_some]
      exact Nat.le_of_lt_succ (narrow ds hp)
  obtain ⟨ds, printed, value, length⟩ :=
    Directive.exists_numeral_decimal (d := t.directive) counts within n
  have known := t.directive.sign_mem_signs (n.toInt < 0)
  obtain ⟨shown, negative⟩ := t.directive.shown_sign (n.toInt < 0)
  have nonempty : ds ≠ [] := List.ne_nil_of_length_pos (by omega)
  refine ⟨_, formatText_numeral numeric printed, ?_, _, _,
    Directive.trimBlanks_pad numeric known nonempty value.legible, shown, ?_, value.zeros _⟩
  · rw [Directive.length_pad, String.length_ofList, List.length_append, length,
      Directive.length_sign]
    simp [Spelling.directive]
  · rw [negative, decide_eq_true_iff]

/-- The lowest number has a size beyond 63 bits. -/
theorem formatText_decimal_least :
    formatText "% 024.21lli" [.int Int64.minValue] = .ok "-00009223372036854775808" ∧
    ∃ sign ds, trimBlanks "-00009223372036854775808".toList = sign ++ ds ∧
      sign ∈ [[], ['-'], ['+']] ∧ sign = ['-'] ∧
      Numerals.decimal.Denotes ds 9223372036854775808 := by
  let t : Spelling :=
    { flags := [' ', '0'], width := ['2', '4'], precision := some ['2', '1'], letters := ['l', 'l'],
      conversion := 'i', all_flags := List.all_eq_true.mp rfl, flags_end := by rintro _ ⟨⟩; rfl,
      all_width := List.all_eq_true.mp rfl, width_ends := by rintro _ ⟨⟩; rfl,
      width_le := by decide, pointless := nofun, all_letters := List.all_eq_true.mp rfl,
      letters_end := rfl
      fine := by
        rintro _ ⟨⟩
        exact ⟨List.all_eq_true.mp rfl, by rintro _ ⟨⟩; rfl, by decide⟩ }
  have text : formatText "% 024.21lli" [.int Int64.minValue] =
      .ok "-00009223372036854775808" := by cbv
  have narrow : ∀ ds ∈ t.precision, Number.digitsValue ds < Directive.widest := by
    rintro _ ⟨⟩
    decide
  obtain ⟨out, printed, -, sign, ds, shown, known, negative, value⟩ :=
    formatText_decimal (t := t) (by decide) narrow Int64.minValue
  have same : String.ofList ('%' :: t.written) = "% 024.21lli" := by decide
  rw [same, text] at printed
  cases printed
  exact ⟨text, sign, ds, shown, known, negative.mpr (by decide), value⟩

def Spelling.mark (t : Spelling) (b : Numerals) : List Char := if '#' ∈ t.flags then b.mark else []

theorem Spelling.mem_mark {t : Spelling} {b : Numerals} {c : Char} (h : c ∈ t.mark b) :
    c ∈ b.mark := by
  unfold Spelling.mark at h
  split at h
  · exact h
  · cases h

/-- How many zeros get in front of a mark. In base eight they do no harm there, since the mark is a
zero as well. -/
def Spelling.misplaced (t : Spelling) (b : Numerals) (n : Nat) : Nat :=
  if '#' ∈ t.flags ∧ '0' ∈ t.flags ∧ '-' ∉ t.flags ∧ t.conversion ≠ 'o' then
    Number.digitsValue t.width - ((t.mark b).length + (Nat.log b.base n + 1))
  else 0

/-- Zeros behind the mark are digits of the number like the others. -/
theorem Numerals.exists_misplaced {t : Spelling} {b : Numerals} {ds : List Char} {n : Nat}
    (bits : ofConversion? t.conversion = some b) (value : b.Denotes ds n)
    (length : ds.length = Nat.log b.base n + 1) :
    ∃ ds', Number.zeros (t.directive.inserted (t.mark b ++ ds).length) ++ (t.mark b ++ ds) =
      Number.zeros (t.misplaced b n) ++ (t.mark b ++ ds') ∧ b.Denotes ds' n := by
  by_cases marked : '#' ∈ t.flags
  · by_cases eight : t.conversion = 'o'
    · rw [eight] at bits
      cases bits
      refine ⟨_, ?_, value.zeros (t.directive.inserted (t.mark octal ++ ds).length)⟩
      have mark : t.mark octal = ['0'] := if_pos marked
      have fits : t.misplaced octal n = 0 := if_neg fun h => h.2.2.2 eight
      rw [fits, mark]
      -- The mark is one more zero, and the order of zeros makes no difference.
      generalize t.directive.inserted (['0'] ++ ds).length = k
      simp only [Number.zeros, List.singleton_append, List.replicate_zero, List.nil_append]
      rw [← List.cons_append, ← List.replicate_succ, List.replicate_succ', List.append_assoc,
        List.singleton_append]
    · refine ⟨ds, ?_, value⟩
      have same : t.directive.inserted (t.mark b ++ ds).length = t.misplaced b n := by
        simp [Directive.inserted, Spelling.misplaced, Spelling.directive, marked, eight, length]
      rw [same]
  · refine ⟨_, ?_, value.zeros (t.directive.inserted (t.mark b ++ ds).length)⟩
    simp [Spelling.mark, Spelling.misplaced, marked, Number.zeros]

/-- The text fills the width and spells the number in its base, the mark in front where it was asked
for. Zeros are filled in behind a sign only, so a mark does not stay in front of them. -/
theorem formatText_bits {t : Spelling} {b : Numerals}
    (bits : Numerals.ofConversion? t.conversion = some b) (n : Int64) :
    ∃ out ds, formatText (String.ofList ('%' :: t.written)) [.int n] = .ok out ∧
      Number.digitsValue t.width ≤ out.length ∧
      trimBlanks out.toList =
        Number.zeros (t.misplaced b n.toUInt64.toNat) ++ (t.mark b ++ ds) ∧
      b.Denotes ds n.toUInt64.toNat := by
  have numeric := Directive.isNumeric_of_bits (d := t.directive) bits
  obtain ⟨ds, printed, value, length⟩ := Directive.exists_numeral_bits (d := t.directive) bits n
  have mark : (if t.directive.alternate then b.mark else []) = t.mark b := by
    simp [Spelling.directive, Spelling.mark]
  rw [mark] at printed
  obtain ⟨ds', moved, value'⟩ := Numerals.exists_misplaced bits value length
  have nonempty : t.mark b ++ ds ≠ [] := by
    apply List.ne_nil_of_length_pos
    rw [List.length_append]
    omega
  have legible : ∀ c ∈ t.mark b ++ ds, c ∉ ['-', '+', ' '] := by
    intro c hc
    rcases List.mem_append.mp hc with mark | digit
    · exact b.mark_legible c (Spelling.mem_mark mark)
    · exact value.legible c digit
  refine ⟨_, ds', formatText_numeral numeric printed, ?_, ?_, value'⟩
  · rw [Directive.length_pad]
    exact Nat.le_max_left _ _
  · rw [← moved]
    exact Directive.trimBlanks_pad numeric List.mem_cons_self nonempty legible

/-- The bits of minus one in capitals, to the left in a wider field. -/
theorem formatText_bits_capitals :
    formatText "%#-20X" [.int (-1)] = .ok "0XFFFFFFFFFFFFFFFF  " ∧
    ∃ ds, trimBlanks "0XFFFFFFFFFFFFFFFF  ".toList = ['0', 'X'] ++ ds ∧
      Numerals.capitals.Denotes ds (2 ^ 64 - 1) := by
  let t : Spelling :=
    { flags := ['#', '-'], width := ['2', '0'], precision := none, letters := [],
      conversion := 'X', all_flags := List.all_eq_true.mp rfl, flags_end := by rintro _ ⟨⟩; rfl,
      all_width := List.all_eq_true.mp rfl, width_ends := by rintro _ ⟨⟩; rfl,
      width_le := by decide, pointless := nofun, fine := nofun, all_letters := nofun,
      letters_end := rfl }
  have text : formatText "%#-20X" [.int (-1)] = .ok "0XFFFFFFFFFFFFFFFF  " := by cbv
  have bits : Numerals.ofConversion? t.conversion = some .capitals := rfl
  obtain ⟨out, ds, printed, -, shown, value⟩ := formatText_bits bits (-1)
  have same : String.ofList ('%' :: t.written) = "%#-20X" := by decide
  rw [same, text] at printed
  cases printed
  exact ⟨text, ds, shown, value⟩

/-- Zeros in front of the mark keep the text from being read back. -/
theorem formatText_bits_hidden :
    formatText "%#08x" [.int 255] = .ok "00000xff" ∧
    ∀ ds, trimBlanks "00000xff".toList ≠ ['0', 'x'] ++ ds := by
  constructor
  · cbv
  · intro ds same
    have second : (trimBlanks "00000xff".toList)[1]? = some '0' := by decide
    rw [same] at second
    cases second

end TraceRepair
