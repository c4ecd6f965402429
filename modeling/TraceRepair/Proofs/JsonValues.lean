import TraceRepair.Proofs.JsonShapes

namespace TraceRepair.Json

/-- All numbers in it are whole and have 64 bits. -/
inductive Plain : Json → Prop where
  | null : Plain .null
  | bool (b : Bool) : Plain (.bool b)
  | nat {n : Nat} (h : n < Decimal.full) : Plain (.nat n)
  | string (s : String) : Plain (.string s)
  | array {js : List Json} (h : ∀ j ∈ js, Plain j) : Plain (.array js)
  | object {ms : List (String × Json)} (h : ∀ m ∈ ms, Plain m.2) : Plain (.object ms)

variable {layout : Layout} {depth : Nat} {j : Json}

theorem Plain.starts (h : Plain j) : Starts (j.text layout depth) := by
  cases h with
  | null => exact ⟨_, _, rfl, rfl⟩
  | bool b => exact (Reads.bool b).starts
  | nat h => exact (Reads.natBelow h (Nat.le_refl _) "").starts
  | string s => exact (Reads.string s).starts
  | array h => exact ⟨_, _, text_array layout depth _, rfl⟩
  | object h => exact ⟨_, _, text_object layout depth _, rfl⟩

section Scalars

variable {blanks : List Char}

theorem valueWithin_scalar {bound : List Char} (hb : 0 < bound.length) (h : Blank blanks) {c : Char}
    (hc : isSpace c = false) (list : c ≠ '[') (object : c ≠ '\x7b') (cs : List Char) :
    Reader.valueWithin bound (blanks ++ c :: cs) = Reader.scalar c (c :: cs) := by
  cases bound with
  | nil => cases hb
  | cons d bound =>
    rw [Reader.valueWithin, Reader.bind_ok (Reader.peek_blank h hc cs)]
    simp only [list, object, if_false]

theorem scalar_digits {n : Nat} (h : n < Decimal.full) {c : Char} {cs : List Char}
    (hc : Number.isDigit c = true) (ht : Number.digits n = c :: cs) {rest : List Char}
    (hr : Ends rest) : Reader.scalar c (c :: (cs ++ rest)) = .ok (.nat n, rest) := by
  have scanned : Reader.ofScan (scanNumber false) (c :: (cs ++ rest)) = .ok (.natural n, rest) := by
    have := scanNumber_digits h hr.stops
    rwa [ht] at this
  have apart : ∀ d, Number.isDigit d = false → c ≠ d := fun d => ne_of_isDigit hc
  unfold Reader.scalar
  rw [if_neg (apart '"' rfl), if_neg (apart 'n' rfl), if_neg (apart 't' rfl),
    if_neg (apart 'f' rfl), if_neg (apart '-' rfl), if_pos hc, Reader.bind_ok scanned]
  rfl

end Scalars

/-- Every item is shorter than the list, so that the bound for the list does for the item. -/
theorem length_le_enclosed {close : Char} {t : List Char} {ts : List (List Char)} (h : t ∈ ts) :
    t.length ≤ (enclosed layout depth close ts).length := by
  cases ts with
  | nil => cases h
  | cons u us =>
    simp only [enclosed, List.length_append]
    rcases List.mem_cons.mp h with rfl | h
    · omega
    · obtain ⟨before, behind, rfl⟩ := List.append_of_mem h
      simp only [later, List.flatMap_append, List.flatMap_cons, List.length_append,
        List.length_cons]
      omega

section Nested

variable (loose : layout.Loose) {bound blanks rest : List Char}
include loose

theorem valueWithin_array {js : List Json}
    (hlen : (enclosed layout depth ']' (js.map (text layout (depth + 1)))).length < bound.length)
    (chain : Brackets.list.Chain (fun taken => do return (← Reader.valueWithin bound) :: taken) []
      (js.map (text layout (depth + 1))) (js.reverse ++ [])) (hb : Blank blanks) {d : Char} :
    Reader.valueWithin (d :: bound) (blanks ++ ((Json.array js).text layout depth ++ rest)) =
      .ok (.array js, rest) := by
  have folded : Brackets.list.foldItems _ true [] (d :: bound)
      (enclosed layout depth ']' (js.map (text layout (depth + 1))) ++ rest) =
        .ok (js.reverse ++ [], rest) :=
    Brackets.foldItems_enclosed loose Brackets.usable_list chain
      (Nat.le_succ_of_le (Nat.le_of_lt hlen))
  rw [text_array, List.cons_append, Reader.valueWithin, Reader.bind_ok (Reader.peek_blank hb rfl _)]
  simp only [if_true]
  rw [Reader.bind_ok (Reader.advance_cons _ _), Reader.bind_ok folded]
  simp [Reader.pure_apply]

theorem valueWithin_object {ms : List (String × Json)}
    (hlen : (enclosed layout depth '\x7d' (ms.map (memberText layout (depth + 1)))).length <
      bound.length)
    (chain : Brackets.object.Chain
      (fun taken => do
        let name ← Reader.key
        Reader.colon
        return (name, ← Reader.valueWithin bound) :: taken)
      [] (ms.map (memberText layout (depth + 1))) (ms.reverse ++ [])) (hb : Blank blanks)
    {d : Char} :
    Reader.valueWithin (d :: bound) (blanks ++ ((Json.object ms).text layout depth ++ rest)) =
      .ok (.object ms, rest) := by
  have folded : Brackets.object.foldItems _ true [] (d :: bound)
      (enclosed layout depth '\x7d' (ms.map (memberText layout (depth + 1))) ++ rest) =
        .ok (ms.reverse ++ [], rest) :=
    Brackets.foldItems_enclosed loose Brackets.usable_object chain
      (Nat.le_succ_of_le (Nat.le_of_lt hlen))
  have other : ¬('\x7b' = '[') := by decide
  rw [text_object, List.cons_append, Reader.valueWithin,
    Reader.bind_ok (Reader.peek_blank hb rfl _)]
  simp only [other, if_false, if_true]
  rw [Reader.bind_ok (Reader.advance_cons _ _), Reader.bind_ok folded]
  simp [Reader.pure_apply]

/-- By induction on the value. The bound is longer than the text of what is to be read; both the
depth and the length of a list take from it. -/
theorem valueWithin_text (h : Plain j) (hlen : (j.text layout depth).length < bound.length)
    (hb : Blank blanks) (hr : Ends rest) :
    Reader.valueWithin bound (blanks ++ (j.text layout depth ++ rest)) = .ok (j, rest) := by
  have left : 0 < bound.length := Nat.zero_lt_of_lt hlen
  induction h generalizing depth bound blanks rest with
  | null => exact (valueWithin_scalar left hb rfl (by decide) (by decide) _).trans rfl
  | bool b =>
    cases b <;> exact (valueWithin_scalar left hb rfl (by decide) (by decide) _).trans rfl
  | @nat n h =>
    obtain ⟨c, cs, ht, digit⟩ := digits_cons n
    have space : isSpace c = false := (isStart_apart (isStart_of_isDigit digit)).1
    rw [text_nat, ht, List.cons_append, valueWithin_scalar left hb space (ne_of_isDigit digit rfl)
      (ne_of_isDigit digit rfl)]
    exact scalar_digits h digit ht hr
  | string s =>
    have scanned : Reader.ofScan (scanString []) _ = _ := scanString_quoted s rest
    rw [text_string, quoted_append, valueWithin_scalar left hb rfl (by decide) (by decide)]
    unfold Reader.scalar
    rw [if_pos rfl, Reader.bind_ok (Reader.advance_cons _ _), Reader.bind_ok scanned]
    rfl
  | @array js h ih =>
    cases bound with
    | nil => cases left
    | cons d bound =>
      rw [text_array, List.length_cons, List.length_cons, Nat.add_lt_add_iff_right] at hlen
      -- An item's text is a part of the list's, so what is left of the bound covers it.
      refine valueWithin_array loose hlen ?_ hb
      refine Brackets.chain_gathered (fun j hj => Brackets.begins_list (h j hj).starts) ?_ []
      intro j hj taken rest hr
      have short : (j.text layout (depth + 1)).length < bound.length :=
        Nat.lt_of_le_of_lt (length_le_enclosed (List.mem_map_of_mem hj)) hlen
      have read : Reader.valueWithin bound (j.text layout (depth + 1) ++ rest) = .ok (j, rest) :=
        ih j hj short blank_nil hr (Nat.zero_lt_of_lt short)
      rw [Reader.bind_ok read]
      rfl
  | @object ms h ih =>
    cases bound with
    | nil => cases left
    | cons d bound =>
      rw [text_object, List.length_cons, List.length_cons, Nat.add_lt_add_iff_right] at hlen
      refine valueWithin_object loose hlen ?_ hb
      refine Brackets.chain_gathered (fun m _ => begins_member m) ?_ []
      intro m hm taken rest hr
      have short : (m.2.text layout (depth + 1)).length < bound.length := by
        have := Nat.lt_of_le_of_lt (length_le_enclosed (List.mem_map_of_mem hm)) hlen
        simp only [memberText, List.length_append] at this
        omega
      rw [memberText, List.append_assoc, List.append_assoc, Reader.bind_ok (key_quoted m.1 _),
        behind_key loose fun hb => ih m hm short hb hr (Nat.zero_lt_of_lt short)]
      rfl

end Nested

/-- Texts, whole numbers, lists and objects of these come back as they were written. -/
theorem Plain.reads (loose : layout.Loose) (h : Plain j) : Reads layout depth Reader.value j j where
  starts := h.starts
  reads {blanks rest} hb hr := by
    refine valueWithin_text loose h ?_ hb hr
    simp only [List.length_cons, List.length_append]
    omega

end TraceRepair.Json
