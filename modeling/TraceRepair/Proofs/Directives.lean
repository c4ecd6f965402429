import Mathlib
import TraceRepair.Proofs.Results

namespace TraceRepair

theorem takeWhile_dropWhile_iff {p : Char → Bool} {cs taken rest : List Char} :
    cs.takeWhile p = taken ∧ cs.dropWhile p = rest ↔
      cs = taken ++ rest ∧ (∀ c ∈ taken, p c = true) ∧ ∀ c ∈ rest.head?, p c = false := by
  constructor
  · rintro ⟨rfl, rfl⟩
    refine ⟨List.takeWhile_append_dropWhile.symm, List.all_eq_true.mp List.all_takeWhile, ?_⟩
    intro c hc
    have ended := List.head?_dropWhile_not p cs
    rw [Option.mem_def.mp hc] at ended
    exact ended
  · rintro ⟨rfl, all, ended⟩
    rw [List.takeWhile_append_of_pos all, List.dropWhile_append_of_pos all]
    cases rest with
    | nil => simp
    | cons c rest => simp [ended c rfl]

theorem takenApart (p : Char → Bool) (cs : List Char) :
    cs = cs.takeWhile p ++ cs.dropWhile p ∧ (∀ c ∈ cs.takeWhile p, p c = true) ∧
      ∀ c ∈ (cs.dropWhile p).head?, p c = false :=
  takeWhile_dropWhile_iff.mp ⟨rfl, rfl⟩

namespace Directive

/-- As many digits as there are, with a value within the limit. -/
theorem readNumber_eq_ok {cs rest : List Char} {n : Nat} :
    readNumber cs = .ok (n, rest) ↔
      ∃ ds, cs = ds ++ rest ∧ (∀ c ∈ ds, Number.isDigit c = true) ∧
        (∀ c ∈ rest.head?, Number.isDigit c = false) ∧ Number.digitsValue ds = n ∧ n ≤ widest := by
  unfold readNumber
  constructor
  · intro h
    dsimp only at h
    split at h
    · cases h
    · rename_i narrow
      cases h
      obtain ⟨whole, all, ended⟩ := takenApart Number.isDigit cs
      have fits : Number.digitsValue (cs.takeWhile Number.isDigit) < widest + 1 :=
        Number.cappedValue_lt_iff.mp (by omega)
      exact ⟨_, whole, all, ended, (Number.cappedValue_eq fits).symm, by omega⟩
  · rintro ⟨ds, rfl, all, ended, rfl, narrow⟩
    obtain ⟨taken, left⟩ := takeWhile_dropWhile_iff.mpr ⟨rfl, all, ended⟩
    have value := Number.cappedValue_eq (Nat.lt_succ_of_le narrow)
    rw [taken, left, value]
    exact if_neg (Nat.not_lt.mpr narrow)

def pointed : Option (List Char) → List Char
  | none => []
  | some ds => '.' :: ds

theorem readPrecision_eq_ok {cs rest : List Char} {p : Option Nat} :
    readPrecision cs = .ok (p, rest) ↔
      ∃ precision, cs = pointed precision ++ rest ∧ precision.map Number.digitsValue = p ∧
        (precision = none → rest.head? ≠ some '.') ∧
        ∀ ds ∈ precision, (∀ c ∈ ds, Number.isDigit c = true) ∧
          (∀ c ∈ rest.head?, Number.isDigit c = false) ∧ Number.digitsValue ds ≤ widest := by
  constructor
  · intro h
    unfold readPrecision at h
    split at h
    · rename_i cs
      obtain ⟨⟨n, left⟩, found, h⟩ := Except.bind_eq_ok.mp h
      cases h
      obtain ⟨ds, rfl, all, ended, rfl, narrow⟩ := readNumber_eq_ok.mp found
      refine ⟨some ds, rfl, rfl, nofun, ?_⟩
      rintro _ ⟨⟩
      exact ⟨all, ended, narrow⟩
    · rename_i pointless
      cases h
      refine ⟨none, rfl, rfl, fun _ point => ?_, nofun⟩
      obtain ⟨left, rfl⟩ := List.head?_eq_some_iff.mp point
      exact pointless left rfl
  · rintro ⟨precision, rfl, rfl, pointless, fine⟩
    cases precision with
    | none =>
      rw [pointed, List.nil_append]
      unfold readPrecision
      split
      · exact absurd rfl (pointless rfl)
      · rfl
    | some ds =>
      obtain ⟨all, ended, narrow⟩ := fine ds rfl
      exact Except.bind_eq_ok.mpr
        ⟨_, readNumber_eq_ok.mpr ⟨ds, rfl, all, ended, rfl, narrow⟩, rfl⟩

end Directive

/-- What stands behind the percent sign of a directive. No part could take the character that
follows it, so a width does not begin with a zero, which is a flag. -/
structure Spelling where
  flags : List Char
  width : List Char
  precision : Option (List Char)
  letters : List Char
  conversion : Char
  all_flags : ∀ c ∈ flags, Directive.isFlag c = true
  flags_end : ∀ c ∈ (width ++ (Directive.pointed precision ++ (letters ++ [conversion]))).head?,
    Directive.isFlag c = false
  all_width : ∀ c ∈ width, Number.isDigit c = true
  width_ends : ∀ c ∈ (Directive.pointed precision ++ (letters ++ [conversion])).head?,
    Number.isDigit c = false
  width_le : Number.digitsValue width ≤ Directive.widest
  pointless : precision = none → (letters ++ [conversion]).head? ≠ some '.'
  fine : ∀ ds ∈ precision, (∀ c ∈ ds, Number.isDigit c = true) ∧
    (∀ c ∈ (letters ++ [conversion]).head?, Number.isDigit c = false) ∧
    Number.digitsValue ds ≤ Directive.widest
  all_letters : ∀ c ∈ letters, Directive.isLengthLetter c = true
  letters_end : Directive.isLengthLetter conversion = false

namespace Spelling

def ending (t : Spelling) : List Char := t.letters ++ [t.conversion]

def fraction (t : Spelling) : List Char := Directive.pointed t.precision ++ t.ending

def measures (t : Spelling) : List Char := t.width ++ t.fraction

def written (t : Spelling) : List Char := t.flags ++ t.measures

def directive (t : Spelling) : Directive where
  left := t.flags.contains '-'
  plus := t.flags.contains '+'
  space := t.flags.contains ' '
  zero := t.flags.contains '0'
  alternate := t.flags.contains '#'
  width := Number.digitsValue t.width
  precision := t.precision.map Number.digitsValue
  conversion := t.conversion

variable (t : Spelling) (rest : List Char)

theorem head?_ending : (t.ending ++ rest).head? = t.ending.head? :=
  List.head?_append_of_ne_nil _ (by simp [ending])

theorem head?_fraction : (t.fraction ++ rest).head? = t.fraction.head? :=
  List.head?_append_of_ne_nil _ (by simp [fraction, ending])

theorem head?_measures : (t.measures ++ rest).head? = t.measures.head? :=
  List.head?_append_of_ne_nil _ (by simp [measures, fraction, ending])

end Spelling

namespace Directive

/-- Whatever follows a directive is left. -/
theorem read_written (t : Spelling) (rest : List Char) :
    read (t.written ++ rest) = .ok (t.directive, rest) := by
  have flags : (t.written ++ rest).takeWhile isFlag = t.flags ∧
      (t.written ++ rest).dropWhile isFlag = t.measures ++ rest :=
    takeWhile_dropWhile_iff.mpr
      ⟨List.append_assoc _ _ _, t.all_flags, t.head?_measures rest ▸ t.flags_end⟩
  have width : readNumber (t.measures ++ rest) =
      .ok (Number.digitsValue t.width, t.fraction ++ rest) :=
    readNumber_eq_ok.mpr ⟨t.width, List.append_assoc _ _ _, t.all_width,
      t.head?_fraction rest ▸ t.width_ends, rfl, t.width_le⟩
  have precision : readPrecision (t.fraction ++ rest) =
      .ok (t.precision.map Number.digitsValue, t.ending ++ rest) :=
    readPrecision_eq_ok.mpr ⟨t.precision, List.append_assoc _ _ _, rfl,
      t.head?_ending rest ▸ t.pointless, t.head?_ending rest ▸ t.fine⟩
  have letters : (t.ending ++ rest).dropWhile isLengthLetter = t.conversion :: rest := by
    refine (takeWhile_dropWhile_iff.mpr ⟨List.append_assoc _ _ _, t.all_letters, ?_⟩).2
    rintro _ ⟨⟩
    exact t.letters_end
  unfold read
  rw [flags.1, flags.2, width]
  simp only [precision, letters, bind, Except.bind]
  rfl

/-- Conversely, what was read was written as a directive. -/
theorem exists_spelling {cs rest : List Char} {d : Directive} (h : read cs = .ok (d, rest)) :
    ∃ t : Spelling, cs = t.written ++ rest ∧ t.directive = d := by
  unfold read at h
  obtain ⟨⟨width, behind⟩, hwidth, h⟩ := Except.bind_eq_ok.mp h
  obtain ⟨⟨precision, tail⟩, hprecision, h⟩ := Except.bind_eq_ok.mp h
  dsimp only at hprecision h
  split at h
  · cases h
  · rename_i conversion _ hletters
    cases h
    obtain ⟨whole, all_flags, flags_end⟩ := takenApart isFlag cs
    obtain ⟨ws, hbehind, all_width, width_ends, rfl, width_le⟩ := readNumber_eq_ok.mp hwidth
    obtain ⟨ps, rfl, rfl, pointless, fine⟩ := readPrecision_eq_ok.mp hprecision
    obtain ⟨htail, all_letters, letters_end⟩ := takeWhile_dropWhile_iff.mp ⟨rfl, hletters⟩
    generalize tail.takeWhile isLengthLetter = letters at htail all_letters
    generalize cs.takeWhile isFlag = flags at whole all_flags ⊢
    rw [hbehind] at whole flags_end
    have tail_eq : tail = (letters ++ [conversion]) ++ rest := by simp [htail]
    rw [tail_eq] at whole flags_end width_ends pointless fine
    let t : Spelling :=
      { flags, width := ws, precision := ps, letters, conversion, all_flags, all_width, width_le,
        all_letters
        flags_end := by simpa [List.head?_append] using flags_end
        width_ends := by simpa [List.head?_append] using width_ends
        pointless := by simpa [List.head?_append] using pointless
        fine := by simpa [List.head?_append] using fine
        letters_end := letters_end conversion rfl }
    refine ⟨t, ?_, rfl⟩
    simp only [whole, t, Spelling.written, Spelling.measures, Spelling.fraction, Spelling.ending,
      List.append_assoc]

/-- What stands behind a directive makes no difference to it. -/
theorem read_append {cs rest : List Char} {d : Directive} (h : read cs = .ok (d, rest))
    (more : List Char) : read (cs ++ more) = .ok (d, rest ++ more) := by
  obtain ⟨t, rfl, rfl⟩ := exists_spelling h
  rw [List.append_assoc, read_written]

def print (d : Directive) (args : List Value) : Except RuntimeError (String × List Value) :=
  if d.conversion = '%' then .ok ("%", args)
  else
    match args with
    | [] => .error (.invalidInput .formatUnfed)
    | arg :: args => (d.apply arg).map (·, args)

/-- Of the arguments it takes the first ones. -/
theorem exists_of_print {d : Directive} {args left : List Value} {text : String}
    (h : d.print args = .ok (text, left)) :
    ∃ used, args = used ++ left ∧ ∀ more, d.print (used ++ more) = .ok (text, more) := by
  unfold print at h ⊢
  split at h
  · rename_i doubled
    cases h
    exact ⟨[], rfl, fun more => by rw [if_pos doubled]; rfl⟩
  · rename_i single
    cases args with
    | nil => cases h
    | cons arg args =>
      dsimp only at h
      cases applied : d.apply arg with
      | error e =>
        rw [applied] at h
        cases h
      | ok out =>
        rw [applied] at h
        cases h
        refine ⟨[arg], rfl, fun more => ?_⟩
        rw [if_neg single, List.singleton_append]
        simp only [applied, Except.map]

end Directive

section Pieces

variable {out s : String} {args : List Value}

theorem formatBehind_plain {c : Char} (plain : c ≠ '%') (cs : List Char) :
    formatBehind out (c :: cs) args = formatBehind (out ++ String.singleton c) cs args := by
  rw [formatBehind, if_neg plain, String.push_eq_append]

theorem formatBehind_unread {cs : List Char} {e : RuntimeError}
    (unread : Directive.read cs = .error e) : formatBehind out ('%' :: cs) args = .error e := by
  rw [formatBehind, if_pos rfl]
  split
  · rename_i same
    rw [unread] at same
    cases same
    rfl
  · rename_i same
    rw [unread] at same
    cases same

/-- A directive prints with the arguments it takes, and the format goes on with the others. -/
theorem formatBehind_directive {cs rest : List Char} {d : Directive}
    (found : Directive.read cs = .ok (d, rest)) :
    formatBehind out ('%' :: cs) args =
      d.print args >>= fun printed => formatBehind (out ++ printed.1) rest printed.2 := by
  rw [formatBehind, if_pos rfl]
  split
  · rename_i same
    rw [found] at same
    cases same
  · rename_i same
    rw [found] at same
    cases same
    unfold Directive.print
    split
    · rfl
    · cases args with
      | nil => rfl
      | cons arg args =>
        dsimp only
        cases d.apply arg <;> rfl

/-- A format is empty or goes on behind a plain character or a directive, if it does not end where
none can be read. -/
theorem format_induct {P : List Char → Prop} (nil : P [])
    (plain : ∀ c cs, c ≠ '%' → P cs → P (c :: cs))
    (unread : ∀ cs e, Directive.read cs = .error e → P ('%' :: cs))
    (directive : ∀ cs rest d, Directive.read cs = .ok (d, rest) → P rest → P ('%' :: cs))
    (format : List Char) : P format := by
  induction size : format.length using Nat.strongRecOn generalizing format with
  | _ n ih =>
    subst size
    cases format with
    | nil => exact nil
    | cons c cs =>
      by_cases hc : c = '%'
      · subst hc
        cases found : Directive.read cs with
        | error e => exact unread cs e found
        | ok read =>
          obtain ⟨d, rest⟩ := read
          have shorter := Nat.lt_succ_of_lt (Directive.length_read found)
          exact directive cs rest d found (ih _ shorter rest rfl)
      · exact plain c cs hc (ih _ (Nat.lt_succ_self _) cs rfl)

/-- What is written already stays in front. -/
theorem formatBehind_behind (format : List Char) (front out : String) (args : List Value) :
    formatBehind (front ++ out) format args = (formatBehind out format args).map (front ++ ·) := by
  induction format using format_induct generalizing out args with
  | nil => simp only [formatBehind, Except.map]
  | plain c cs hc ih => rw [formatBehind_plain hc, formatBehind_plain hc, String.append_assoc, ih]
  | unread cs e unread => rw [formatBehind_unread unread, formatBehind_unread unread, Except.map]
  | directive cs rest d found ih =>
    rw [formatBehind_directive found, formatBehind_directive found]
    cases d.print args with
    | error e => rfl
    | ok printed =>
      simp only [bind, Except.bind, String.append_assoc]
      exact ih _ _

/-- A format that is printed takes some of the arguments, and leaves whatever else is there to what
stands behind it. -/
theorem exists_of_formatBehind {format : List Char}
    (printed : formatBehind out format args = .ok s) :
    ∃ used unused, args = used ++ unused ∧ ∀ (later : List Char) (more : List Value),
      formatBehind out (format ++ later) (used ++ more) = formatBehind s later more := by
  induction format using format_induct generalizing out args with
  | nil =>
    rw [formatBehind] at printed
    cases printed
    exact ⟨[], args, rfl, fun _ _ => rfl⟩
  | plain c cs hc ih =>
    rw [formatBehind_plain hc] at printed
    obtain ⟨used, unused, rfl, onward⟩ := ih printed
    refine ⟨used, unused, rfl, fun later more => ?_⟩
    rw [List.cons_append, formatBehind_plain hc, onward]
  | unread cs e unread =>
    rw [formatBehind_unread unread] at printed
    cases printed
  | directive cs rest d found ih =>
    rw [formatBehind_directive found] at printed
    obtain ⟨⟨text, left⟩, taken, onwards⟩ := Except.bind_eq_ok.mp printed
    obtain ⟨first, rfl, again⟩ := Directive.exists_of_print taken
    obtain ⟨used, unused, rfl, onward⟩ := ih onwards
    refine ⟨first ++ used, unused, (List.append_assoc _ _ _).symm, fun later more => ?_⟩
    rw [List.cons_append, formatBehind_directive (Directive.read_append found later),
      List.append_assoc, again]
    exact onward later more

end Pieces

/-- As long as the first format needs all its arguments, it prints them as on its own, and the
second format gets the rest; the whole fails as the second one does. -/
theorem formatText_append {f g s : String} {a b : List Value} (printed : formatText f a = .ok s)
    (needed : ∀ a', a' <+: a → a' ≠ a → ∃ x, formatText f a' = .error x) :
    formatText (f ++ g) (a ++ b) = (formatText g b).map (s ++ ·) := by
  unfold formatText at printed needed ⊢
  obtain ⟨used, unused, rfl, onward⟩ := exists_of_formatBehind printed
  have enough : formatBehind "" f.toList used = .ok s := by
    simpa [formatBehind] using onward [] []
  -- The arguments that are taken would do, so none is left over.
  have whole : used = used ++ unused := by
    by_contra fewer
    obtain ⟨x, failed⟩ := needed used (List.prefix_append used unused) fewer
    rw [enough] at failed
    cases failed
  calc formatBehind "" (f ++ g).toList (used ++ unused ++ b)
      = formatBehind "" (f.toList ++ g.toList) (used ++ b) := by rw [String.toList_append, ← whole]
    _ = formatBehind s g.toList b := onward g.toList b
    _ = (formatBehind "" g.toList b).map (s ++ ·) := by
        rw [← formatBehind_behind, String.append_empty]

/-- A length letter in front of the second format would be taken by the first one if that had not
ended. -/
theorem formatText_append_labelled :
    formatText ("%-3s|%%%+04d" ++ "l%x") ([.str "ab", .int 7] ++ [.int 255]) =
      .ok ("ab |%+007" ++ "lff") ∧
    formatText ("%-3s|%%%+04d" ++ "l%") ([.str "ab", .int 7] ++ []) =
      .error (.invalidInput .formatCut) := by
  have printed : formatText "%-3s|%%%+04d" [.str "ab", .int 7] = .ok "ab |%+007" := by cbv
  have needed : ∀ a', a' <+: [Value.str "ab", .int 7] → a' ≠ [.str "ab", .int 7] →
      ∃ x, formatText "%-3s|%%%+04d" a' = .error x := by
    rintro a' ⟨rest, whole⟩ fewer
    rcases a' with _ | ⟨first, _ | ⟨second, tail⟩⟩
    · exact ⟨.invalidInput .formatUnfed, by cbv⟩
    · obtain ⟨rfl, -⟩ := List.cons.inj whole
      exact ⟨.invalidInput .formatUnfed, by cbv⟩
    · simp_all
  have later : formatText "l%x" [.int 255] = .ok "lff" := by cbv
  have cut : formatText "l%" [] = .error (.invalidInput .formatCut) := by cbv
  constructor
  · rw [formatText_append printed needed, later]
    rfl
  · rw [formatText_append printed needed, cut]
    rfl

end TraceRepair
