import TraceRepair.Json.Scanner

namespace TraceRepair.Json

section Pieces

variable (layout : Layout)

mutual

/-- A rest may as well be put behind the text of the value. -/
theorem renderOnto_eq : ∀ (depth : Nat) (rest : List Char) (j : Json),
    renderOnto layout depth rest j = renderOnto layout depth [] j ++ rest
  | _, _, .null | _, _, .bool _ | _, _, .number _ => by simp only [renderOnto, List.append_nil]
  | _, _, .string _ => by
    simp only [renderOnto, stringOnto, List.cons_append, List.append_assoc, List.nil_append]
  | _, _, .array [] | _, _, .object [] => rfl
  | depth, rest, .array (item :: items) => by
    simp only [renderOnto]
    rw [renderOnto_eq _ _ item, renderOnto_eq _ (renderItems _ _ _ _) item, renderItems_eq,
      renderItems_eq _ (_ ++ [_])]
    simp
  | depth, rest, .object ((key, value) :: members) => by
    simp only [renderOnto, stringOnto]
    rw [renderOnto_eq _ _ value, renderOnto_eq _ (renderMembers _ _ _ _) value, renderMembers_eq,
      renderMembers_eq _ (_ ++ [_])]
    simp

theorem renderItems_eq : ∀ (depth : Nat) (rest : List Char) (js : List Json),
    renderItems layout depth rest js =
      js.flatMap (fun j => ',' :: (layout.lead depth ++ renderOnto layout depth [] j)) ++ rest
  | _, _, [] => rfl
  | depth, rest, j :: js => by
    rw [renderItems, renderOnto_eq, renderItems_eq]
    simp

theorem renderMembers_eq : ∀ (depth : Nat) (rest : List Char) (ms : List (String × Json)),
    renderMembers layout depth rest ms = ms.flatMap (fun m => ',' :: (layout.lead depth ++
      (stringOnto [] m.1 ++ (layout.colon ++ renderOnto layout depth [] m.2)))) ++ rest
  | _, _, [] => rfl
  | depth, rest, (key, value) :: ms => by
    simp only [renderMembers]
    rw [renderOnto_eq, renderMembers_eq]
    simp [stringOnto]

end

def text (depth : Nat) (j : Json) : List Char := j.renderOnto layout depth []

def quoted (s : String) : List Char := stringOnto [] s

def memberText (depth : Nat) (m : String × Json) : List Char :=
  quoted m.1 ++ (layout.colon ++ m.2.text layout depth)

def later (lead : List Char) (ts : List (List Char)) : List Char :=
  ts.flatMap fun t => ',' :: (lead ++ t)

def enclosed (depth : Nat) (close : Char) : List (List Char) → List Char
  | [] => [close]
  | t :: ts => layout.lead (depth + 1) ++
    (t ++ (later (layout.lead (depth + 1)) ts ++ (layout.lead depth ++ [close])))

theorem text_array (depth : Nat) (js : List Json) :
    text layout depth (.array js) =
      '[' :: enclosed layout depth ']' (js.map (text layout (depth + 1))) := by
  cases js with
  | nil => rfl
  | cons j js =>
    simp only [text, renderOnto]
    rw [renderOnto_eq, renderItems_eq]
    simp [enclosed, later, List.flatMap_map, text]

theorem text_object (depth : Nat) (ms : List (String × Json)) :
    text layout depth (.object ms) =
      '\x7b' :: enclosed layout depth '\x7d' (ms.map (memberText layout (depth + 1))) := by
  cases ms with
  | nil => rfl
  | cons m ms =>
    obtain ⟨key, value⟩ := m
    simp only [text, renderOnto]
    rw [renderOnto_eq, renderMembers_eq]
    simp [enclosed, later, List.flatMap_map, memberText, text, quoted, stringOnto]

end Pieces

def Blank (cs : List Char) : Prop := ∀ c ∈ cs, isSpace c = true

theorem blank_nil : Blank [] := nofun

theorem skipSpace_blank {blanks : List Char} (h : Blank blanks) {c : Char} (hc : isSpace c = false)
    (cs : List Char) : skipSpace (blanks ++ c :: cs) = c :: cs := by
  unfold skipSpace
  rw [List.dropWhile_append_of_pos h, List.dropWhile_cons_of_neg (by simp [hc])]

/-- Only white space stands in front of items, and at most white space behind a colon. -/
structure Layout.Loose (layout : Layout) : Prop where
  lead : ∀ depth, Blank (layout.lead depth)
  colon : ∃ blanks, layout.colon = ':' :: blanks ∧ Blank blanks

theorem Layout.loose_compact : Layout.compact.Loose :=
  ⟨fun _ => nofun, [], rfl, nofun⟩

theorem Layout.loose_pretty : Layout.pretty.Loose := by
  refine ⟨fun depth c hc => ?_, [' '], rfl, by simp [Blank, isSpace]⟩
  rcases List.mem_cons.mp hc with rfl | hc
  · rfl
  · rw [List.eq_of_mem_replicate hc]
    rfl

/-- What may stand behind a value: nothing, white space, a comma or a closing bracket. -/
def isEnd (c : Char) : Bool := isSpace c || c == ',' || c == ']' || c == '\x7d'

def Ends (rest : List Char) : Prop := ∀ c ∈ rest.head?, isEnd c = true

theorem ends_nil : Ends [] := nofun

theorem ends_comma (cs : List Char) : Ends (',' :: cs) := by
  intro c hc
  obtain rfl := Option.some.inj hc
  rfl

section Strings

theorem hexNumber?_digitChar : ∀ n < 0x20,
    hexNumber? '0' '0' (Nat.digitChar (n / 16)) (Nat.digitChar (n % 16)) = some n := by decide

/-- What a text holds in the place of one character is read as that character. -/
theorem scanString_escapedChar (taken : List Char) (c : Char) (rest : List Char) :
    scanString taken (escapedChar c ++ rest) = scanString (c :: taken) rest := by
  unfold escapedChar
  split
  · rfl
  · rfl
  · rfl
  · rfl
  · rfl
  · rfl
  · rfl
  · split
    · rename_i control
      -- Only control characters are written as numbers, and none of them is a surrogate.
      have plain : isLowSurrogate c.toNat = false ∧ isHighSurrogate c.toNat = false := by
        simp only [isLowSurrogate, isHighSurrogate, Bool.and_eq_false_iff, decide_eq_false_iff_not]
        omega
      simp only [List.cons_append, List.nil_append]
      rw [scanString]
      simp [hexNumber?_digitChar _ control, plain, Char.ofNat_toNat]
    · rename_i printable
      rw [List.singleton_append, scanString.eq_def]
      split
      case h_7 heq =>
        obtain ⟨rfl, rfl⟩ := List.cons.inj heq
        exact if_neg printable
      all_goals simp_all

/-- Every escape is taken back, by recursion over the characters. -/
theorem scanString_escaped (cs taken rest : List Char) :
    scanString taken (cs.flatMap escapedChar ++ '"' :: rest) =
      .ok (String.ofList (taken.reverse ++ cs), rest) := by
  induction cs generalizing taken with
  | nil => simp [scanString]
  | cons c cs ih =>
    rw [List.flatMap_cons, List.append_assoc, scanString_escapedChar, ih]
    simp

theorem scanString_quoted (s : String) (rest : List Char) :
    scanString [] (s.toList.flatMap escapedChar ++ '"' :: rest) = .ok (s, rest) := by
  rw [scanString_escaped]
  simp

end Strings

section Numbers

theorem isDigit_of_mem_digits {n : Nat} {c : Char} (h : c ∈ Number.digits n) :
    Number.isDigit c = true := by
  have := Nat.isDigit_of_mem_toDigits (by decide) (by decide) h
  simpa [Char.isDigit, Number.isDigit, Char.le_def] using this

theorem ne_of_isDigit {c d : Char} (hc : Number.isDigit c = true) (hd : Number.isDigit d = false) :
    c ≠ d := by
  rintro rfl
  rw [hc] at hd
  cases hd

/-- Writing a number and reading it gives it back. -/
theorem digitsValue_digits (n : Nat) : Number.digitsValue (Number.digits n) = n :=
  Nat.ofDigitChars_ten_toDigits

/-- No zero stands in front of other digits. -/
theorem head_digits {n : Nat} (h : 0 < n) : (Number.digits n).head? ≠ some '0' := by
  induction n using Nat.strongRecOn with
  | _ n ih =>
    unfold Number.digits at ih ⊢
    rw [Nat.toDigits_eq_if (by decide)]
    split
    · rename_i small
      have digit : ∀ n < 10, 0 < n → [Nat.digitChar n].head? ≠ some '0' := by decide
      exact digit n small h
    · rename_i large
      obtain ⟨d, ds, hds⟩ := List.exists_cons_of_ne_nil
        (Nat.toDigits_ne_nil : Nat.toDigits 10 (n / 10) ≠ [])
      have first := ih (n / 10) (by omega) (by omega)
      rw [hds] at first ⊢
      exact first

theorem scanWhole_append {ds rest : List Char} (digits : ∀ c ∈ ds, Number.isDigit c = true)
    (stop : ∀ c ∈ rest.head?, Number.isDigit c = false) {n : Nat}
    (fits : ds.foldl (fun n c => 10 * n + Number.digitValue c) n < Decimal.full) :
    scanWhole ⟨n, 0⟩ (ds ++ rest) =
      (⟨ds.foldl (fun n c => 10 * n + Number.digitValue c) n, 0⟩, rest) := by
  induction ds generalizing n with
  | nil =>
    cases rest with
    | nil => rfl
    | cons c cs =>
      have hc : Number.isDigit c = false := stop c rfl
      simp [scanWhole, hc]
  | cons d ds ih =>
    have hd := digits d List.mem_cons_self
    have grown : 10 * n + Number.digitValue d < Decimal.full :=
      Nat.lt_of_le_of_lt (Number.le_foldl_digit _ ds) fits
    have rest := ih (fun c hc => digits c (List.mem_cons_of_mem d hc)) fits
    simp only [List.cons_append, scanWhole, hd, if_true, grown, and_self]
    exact rest

def Stops (rest : List Char) : Prop :=
  ∀ c ∈ rest.head?, Number.isDigit c = false ∧ c ≠ '.' ∧ isExponentLetter c = false

theorem Ends.stops {rest : List Char} (h : Ends rest) : Stops rest := by
  intro c hc
  have hend := h c hc
  simp only [isEnd, isSpace, Bool.or_eq_true, decide_eq_true_eq, beq_iff_eq] at hend
  rcases hend with (((((rfl | rfl) | rfl) | rfl) | rfl) | rfl) | rfl <;> decide

theorem scanTail_stops {rest : List Char} (h : Stops rest) (n : Nat) :
    scanTail false ⟨n, 0⟩ rest = .ok (.natural n, rest) := by
  cases rest with
  | nil => rfl
  | cons c cs =>
    obtain ⟨-, point, letter⟩ := h c rfl
    simp [scanTail, point, letter, wholeNumber]

/-- Digits without a sign, point or exponent make a whole number. -/
theorem scanNumber_digits {n : Nat} (h : n < Decimal.full) {rest : List Char} (hr : Stops rest) :
    scanNumber false (Number.digits n ++ rest) = .ok (.natural n, rest) := by
  have stop : ∀ c ∈ rest.head?, Number.isDigit c = false := fun c hc => (hr c hc).1
  have whole : scanWhole ⟨0, 0⟩ (Number.digits n ++ rest) = (⟨n, 0⟩, rest) := by
    have value : (Number.digits n).foldl (fun n c => 10 * n + Number.digitValue c) 0 = n :=
      digitsValue_digits n
    rw [scanWhole_append (fun c => isDigit_of_mem_digits) stop (by rwa [value]), value]
  rcases Nat.eq_zero_or_pos n with rfl | hpos
  · have alone : startsWithDigit rest = false := by
      cases rest with
      | nil => rfl
      | cons c cs => exact stop c rfl
    have zero : Number.digits 0 = ['0'] := rfl
    simp only [zero, List.singleton_append, scanNumber, if_true, alone, Bool.false_eq_true,
      if_false]
    exact scanTail_stops hr 0
  · have hd := head_digits hpos
    have digits : ∀ c ∈ Number.digits n, Number.isDigit c = true := fun c => isDigit_of_mem_digits
    cases hds : Number.digits n with
    | nil => exact absurd hds Nat.toDigits_ne_nil
    | cons d ds =>
      rw [hds] at hd digits whole
      have nonzero : d ≠ '0' := fun h => hd (congrArg some h)
      rw [List.cons_append] at whole ⊢
      simp only [scanNumber, nonzero, if_false, digits d List.mem_cons_self, if_true, whole]
      exact scanTail_stops hr n

end Numbers

end TraceRepair.Json
