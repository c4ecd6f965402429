import TraceRepair.Persisted.Program
import TraceRepair.Proofs.JsonReads

namespace TraceRepair.Json

variable {layout : Layout} {depth : Nat} {α β : Type}

theorem opened_ok {first : Char} (hfirst : isSpace first = false) (expected : String)
    (body : Reader α) {blanks : List Char} (h : Blank blanks) (cs : List Char) :
    Reader.opened first expected body (blanks ++ first :: cs) = body cs := by
  unfold Reader.opened
  rw [Reader.bind_ok (Reader.peek_blank h hfirst cs)]
  simp only [if_true]
  rw [Reader.bind_ok (Reader.advance_cons _ _)]

theorem Reads.map {reader : Reader α} {j : Json} {a : α} (h : Reads layout depth reader j a)
    (f : α → β) :
    Reads layout depth (do return f (← reader)) j (f a) where
  starts := h.starts
  reads {blanks rest} hb hr := by
    rw [Reader.bind_ok (h.reads hb hr)]
    rfl

/-- A check of the value comes behind its text. -/
theorem Reads.checked {reader : Reader α} {j : Json} {a : α} (h : Reads layout depth reader j a)
    {check : α → Except Reason β} {b : β} (hb : check a = .ok b) :
    Reads layout depth (do Reader.require (check (← reader))) j b where
  starts := h.starts
  reads hblank hr := by
    rw [Reader.bind_ok (h.reads hblank hr), hb]
    rfl

section Texts

theorem quoted_append (s : String) (rest : List Char) :
    quoted s ++ rest = '"' :: (s.toList.flatMap escapedChar ++ '"' :: rest) := by
  simp [quoted, stringOnto]

theorem text_string (s : String) : (Json.string s).text layout depth = quoted s := rfl

theorem Reads.stringAs (expected s : String) :
    Reads layout depth (Reader.stringAs expected) (.string s) s where
  starts := ⟨_, _, rfl, rfl⟩
  reads {blanks rest} hb _ := by
    rw [text_string, quoted_append]
    exact (opened_ok rfl expected _ hb _).trans (scanString_quoted s rest)

theorem Reads.string (s : String) : Reads layout depth Reader.string (.string s) s :=
  .stringAs "a string" s

theorem key_quoted (s : String) (rest : List Char) :
    Reader.key (quoted s ++ rest) = .ok (s, rest) := by
  rw [quoted_append]
  exact scanString_quoted s rest

theorem colon_ok (cs : List Char) : Reader.colon (':' :: cs) = .ok ((), cs) := rfl

end Texts

section Numbers

theorem text_nat (n : Nat) : (Json.nat n).text layout depth = Number.digits n := by
  simp [Json.nat, text, renderOnto, JsonNumber.text]

theorem digits_cons (n : Nat) :
    ∃ d ds, Number.digits n = d :: ds ∧ Number.isDigit d = true := by
  cases hds : Number.digits n with
  | nil => exact absurd hds Nat.toDigits_ne_nil
  | cons d ds => exact ⟨d, ds, rfl, isDigit_of_mem_digits (hds ▸ List.mem_cons_self)⟩

/-- A number ends where no digit follows. -/
theorem number_digits {n : Nat} (h : n < Decimal.full) {rest : List Char} (hr : Stops rest) :
    Reader.number (Number.digits n ++ rest) = .ok (.natural n, rest) := by
  have scanned := scanNumber_digits h hr
  obtain ⟨d, ds, hds, digit⟩ := digits_cons n
  rw [hds] at scanned ⊢
  unfold Reader.number
  split
  · rename_i heq
    obtain ⟨rfl, -⟩ := List.cons.inj heq
    cases digit
  · exact scanned

theorem require_below {n bound : Nat} (h : n < bound) (expected : String) (cs : List Char) :
    Reader.require ((JsonNumber.natural n).below bound expected) cs = .ok (n, cs) := by
  simp [Reader.require, JsonNumber.below, h]

/-- A bound beyond the largest word would not be noticed. -/
theorem Reads.natBelow {n bound : Nat} (h : n < bound) (hb : bound ≤ Decimal.full)
    (expected : String) : Reads layout depth (Reader.natBelow bound expected) (.nat n) n where
  starts := by
    obtain ⟨d, ds, hds, digit⟩ := digits_cons n
    exact ⟨d, ds, (text_nat n).trans hds, isStart_of_isDigit digit⟩
  reads {blanks rest} hblank hr := by
    have hnumber := number_digits (Nat.lt_of_lt_of_le h hb) hr.stops
    obtain ⟨d, ds, hds, digit⟩ := digits_cons n
    have space : isSpace d = false := (isStart_apart (isStart_of_isDigit digit)).1
    rw [text_nat]
    rw [hds, List.cons_append] at hnumber ⊢
    unfold Reader.natBelow
    rw [Reader.bind_ok (Reader.peek_blank hblank space _)]
    simp only [Option.any_some, Reader.startsNumber, digit, Bool.or_true, if_true]
    rw [Reader.bind_ok hnumber]
    exact require_below h expected rest

theorem Reads.loc {loc : Loc} (h : loc < UInt64.size) :
    Reads layout depth Reader.loc (.nat loc) loc :=
  .natBelow h (Nat.le_refl _) "usize"

end Numbers

theorem Reads.bool (v : Bool) : Reads layout depth Reader.bool (.bool v) v where
  starts := by cases v <;> exact ⟨_, _, rfl, rfl⟩
  reads {blanks rest} hb _ := by
    cases v with
    | true =>
      change Reader.bool (blanks ++ 't' :: ("rue".toList ++ rest)) = _
      unfold Reader.bool
      rw [Reader.bind_ok (Reader.peek_blank hb rfl _)]
      rfl
    | false =>
      change Reader.bool (blanks ++ 'f' :: ("alse".toList ++ rest)) = _
      unfold Reader.bool
      rw [Reader.bind_ok (Reader.peek_blank hb rfl _)]
      rfl

/-- Null stands for nothing; a value may not start like it. -/
theorem Reads.none (reader : Reader α) : Reads layout depth (Reader.option reader) .null none where
  starts := ⟨_, _, rfl, rfl⟩
  reads {blanks rest} hb _ := by
    change Reader.option reader (blanks ++ 'n' :: ("ull".toList ++ rest)) = _
    unfold Reader.option
    rw [Reader.bind_ok (Reader.peek_blank hb rfl _)]
    rfl

theorem Reads.some {reader : Reader α} {j : Json} {a : α} (h : Reads layout depth reader j a)
    (first : (j.text layout depth).head? ≠ Option.some 'n') :
    Reads layout depth (Reader.option reader) j (Option.some a) where
  starts := h.starts
  reads {blanks rest} hb hr := by
    have read := h.here hr
    obtain ⟨c, cs, ht, start⟩ := h.starts
    rw [ht] at read first ⊢
    have other : ¬(Option.some c = Option.some 'n') := first
    unfold Reader.option
    rw [List.cons_append, Reader.bind_ok (Reader.peek_blank hb (isStart_apart start).1 _),
      if_neg other]
    exact (Reader.bind_ok read _).trans rfl

section Lists

variable {reader : Reader α} {write : α → Json}

/-- Items are read back one by one, one level deeper. -/
theorem Reads.list (loose : layout.Loose) {as : List α}
    (h : ∀ a ∈ as, Reads layout (depth + 1) reader (write a) a) :
    Reads layout depth (Reader.list reader) (.array (as.map write)) as where
  starts := ⟨_, _, text_array layout depth _, rfl⟩
  reads {blanks rest} hb hr := by
    have chain : Brackets.list.Chain (fun taken => do return (← reader) :: taken) []
        ((as.map write).map (text layout (depth + 1))) (as.reverse ++ []) := by
      rw [List.map_map]
      refine Brackets.chain_gathered (fun a ha => Brackets.begins_list (h a ha).starts) ?_ []
      intro a ha taken rest hr
      rw [Reader.bind_ok ((h a ha).here hr)]
      rfl
    rw [text_array, List.cons_append]
    refine (opened_ok rfl _ _ hb _).trans ?_
    rw [Reader.bind_ok (Brackets.items_list loose chain rest)]
    simp [Reader.pure_apply]

end Lists

section Members

def ReadsKey {κ : Type} (readKey : Reader κ) (name : String) (k : κ) : Prop :=
  ∀ rest, readKey (quoted name ++ rest) = .ok (k, rest)

theorem begins_member (m : String × Json) :
    Brackets.object.Begins (memberText layout depth m) := by
  rw [memberText, quoted_append]
  exact ⟨_, _, rfl, rfl, by decide, fun _ => rfl⟩

/-- What stands behind a key: a colon and the value. -/
theorem behind_key (loose : layout.Loose) {reader : Reader α} {a : α} {t rest : List Char}
    (read : ∀ {blanks}, Blank blanks → reader (blanks ++ (t ++ rest)) = .ok (a, rest))
    (k : α → Reader β) :
    (do
      Reader.colon
      let a ← reader
      k a) (layout.colon ++ (t ++ rest)) = k a rest := by
  obtain ⟨blanks, hcolon, hb⟩ := loose.colon
  rw [hcolon, List.cons_append, Reader.bind_ok (colon_ok _), Reader.bind_ok (read hb)]

variable {κ : Type} {readKey : Reader κ} {name : κ → String} {reader : Reader α} {write : α → Json}

theorem Reads.members (loose : layout.Loose) (name : κ → String) {entries : List (κ × α)}
    (keys : ∀ e ∈ entries, ReadsKey readKey (name e.1) e.1)
    (values : ∀ e ∈ entries, Reads layout (depth + 1) reader (write e.2) e.2) :
    Reads layout depth (Reader.members readKey reader)
      (.object (entries.map fun e => (name e.1, write e.2))) entries where
  starts := ⟨_, _, text_object layout depth _, rfl⟩
  reads {blanks rest} hb hr := by
    have chain : Brackets.object.Chain
        (fun taken => do
          let k ← readKey
          Reader.colon
          return (k, ← reader) :: taken)
        [] ((entries.map fun e => (name e.1, write e.2)).map (memberText layout (depth + 1)))
        (entries.reverse ++ []) := by
      rw [List.map_map]
      refine Brackets.chain_gathered (fun e he => begins_member _) ?_ []
      intro e he taken rest hr
      rw [memberText, List.append_assoc, List.append_assoc, Reader.bind_ok (keys e he _),
        behind_key loose fun hb => (values e he).reads hb hr]
      rfl
    rw [text_object, List.cons_append]
    refine (opened_ok rfl _ _ hb _).trans ?_
    rw [Reader.bind_ok (Brackets.items_object loose chain rest)]
    simp [Reader.pure_apply]

/-- Entries come back in the order of their keys, so the map is the same. -/
theorem Reads.sortedMap (loose : layout.Loose) {m : SortedMap String α}
    (h : ∀ e ∈ m.entries, Reads layout (depth + 1) reader (write e.2) e.2) :
    Reads layout depth (Reader.map reader) (m.toJson write) m := by
  have entries : Reads layout depth (Reader.members Reader.key reader) (m.toJson write)
      m.entries :=
    .members loose (fun k => k) (fun e _ => key_quoted e.1) h
  have read := entries.map SortedMap.ofList
  rwa [SortedMap.ofList_entries] at read

theorem escapedChar_digit {c : Char} (h : Number.isDigit c = true) : escapedChar c = [c] := by
  unfold escapedChar
  split
  case h_8 =>
    have large : 0x20 ≤ c.toNat := by
      simp only [Number.isDigit, Bool.and_eq_true, decide_eq_true_eq, Char.le_def] at h
      exact Nat.le_trans (by decide) (UInt32.le_iff_toNat_le.mp h.1)
    rw [if_neg (Nat.not_lt.mpr large)]
  all_goals cases h

theorem quoted_repr (n : Nat) (rest : List Char) :
    quoted (Nat.repr n) ++ rest = '"' :: (Number.digits n ++ '"' :: rest) := by
  have plain : ∀ ds : List Char, (∀ c ∈ ds, Number.isDigit c = true) →
      ds.flatMap escapedChar = ds := by
    intro ds hds
    induction ds with
    | nil => rfl
    | cons d ds ih =>
      rw [List.flatMap_cons, escapedChar_digit (hds d List.mem_cons_self),
        ih fun c hc => hds c (List.mem_cons_of_mem d hc)]
      rfl
  rw [quoted_append, Nat.repr_eq_ofList_toDigits, String.toList_ofList]
  exact congrArg (fun ds => '"' :: (ds ++ '"' :: rest))
    (plain (Number.digits n) fun c => isDigit_of_mem_digits)

theorem locKey_digits {loc : Loc} (h : loc < UInt64.size) :
    ReadsKey Reader.locKey (Nat.repr loc) loc := by
  intro rest
  have quote : Stops ('"' :: rest) := by
    intro c hc
    obtain rfl := Option.some.inj hc
    decide
  have hnumber := number_digits h quote
  obtain ⟨d, ds, hds, digit⟩ := digits_cons loc
  rw [quoted_repr]
  rw [hds, List.cons_append] at hnumber ⊢
  unfold Reader.locKey
  rw [Reader.bind_ok (Reader.advance_cons _ _)]
  simp only [List.head?_cons, Option.any_some, Reader.startsNumber, digit, Bool.or_true, if_true]
  rw [Reader.bind_ok hnumber, Reader.bind_ok (require_below h _ _)]
  rfl

theorem Reads.locMap (loose : layout.Loose) {m : SortedMap Loc α}
    (keys : ∀ e ∈ m.entries, e.1 < UInt64.size)
    (h : ∀ e ∈ m.entries, Reads layout (depth + 1) reader (write e.2) e.2) :
    Reads layout depth (Reader.locMap reader) (m.toJsonByLoc write) m := by
  have entries : Reads layout depth (Reader.members Reader.locKey reader) (m.toJsonByLoc write)
      m.entries :=
    .members loose Nat.repr (fun e he => locKey_digits (keys e he)) h
  have read := entries.map SortedMap.ofList
  rwa [SortedMap.ofList_entries] at read

end Members

section Pairs

variable {t blanks rest : List Char} {a : α} {reader : Reader α}

theorem item_ok (expected : String) {place : Nat} {cs : List Char}
    (more : Brackets.list.more (place = 0) cs = .ok (true, t ++ rest))
    (read : reader (t ++ rest) = .ok (a, rest)) :
    Reader.item expected place reader cs = .ok (a, rest) := by
  have held : Reader.item? place reader cs = .ok (some a, rest) := by
    unfold Reader.item?
    rw [Reader.bind_ok more, if_pos rfl, Reader.bind_ok read]
    rfl
  unfold Reader.item
  rw [Reader.bind_ok held]
  rfl

theorem finish_close (h : Blank blanks) :
    Brackets.list.finish (blanks ++ ']' :: rest) = .ok ((), rest) := by
  unfold Brackets.finish
  rw [Reader.bind_ok (Reader.peek_blank h rfl rest)]
  rfl

theorem Reads.pair (loose : layout.Loose) {first : Reader α} {second : Reader β} {i j : Json}
    {a : α} {b : β} (ha : Reads layout (depth + 1) first i a)
    (hb : Reads layout (depth + 1) second j b) :
    Reads layout depth (Reader.pair first second) (.array [i, j]) (a, b) where
  starts := ⟨_, _, text_array layout depth _, rfl⟩
  reads {blanks rest} hblank _ := by
    have close : Ends (layout.lead depth ++ ']' :: rest) :=
      Brackets.ends_close Brackets.usable_list (loose.lead depth)
    have written : (Json.array [i, j]).text layout depth ++ rest =
        '[' :: (layout.lead (depth + 1) ++ (i.text layout (depth + 1) ++
          (',' :: (layout.lead (depth + 1) ++ (j.text layout (depth + 1) ++
            (layout.lead depth ++ ']' :: rest)))))) := by
      simp [text_array, enclosed, later]
    have itemFirst : ∀ expected cs, Reader.item expected 0 first (layout.lead (depth + 1) ++
        (i.text layout (depth + 1) ++ ',' :: cs)) = .ok (a, ',' :: cs) := fun expected cs =>
      item_ok expected (Brackets.more_first (Brackets.begins_list ha.starts) (loose.lead _))
        (ha.here (ends_comma cs))
    have itemSecond : ∀ expected, Reader.item expected 1 second (',' :: (layout.lead (depth + 1) ++
        (j.text layout (depth + 1) ++ (layout.lead depth ++ ']' :: rest)))) =
          .ok (b, layout.lead depth ++ ']' :: rest) := fun expected =>
      item_ok expected (Brackets.more_later Brackets.usable_list (Brackets.begins_list hb.starts)
        (loose.lead _)) (hb.here close)
    rw [written]
    refine (opened_ok rfl _ _ hblank _).trans ?_
    unfold Reader.itemsInOrder Brackets.settling
    rw [bind_assoc, Reader.bind_ok (itemFirst _ _), bind_assoc, Reader.bind_ok (itemSecond _),
      pure_bind]
    change ((do Brackets.list.finish; return (a, b))
      (layout.lead depth ++ ']' :: rest)).mapError _ = _
    rw [Reader.bind_ok (finish_close (loose.lead depth))]
    rfl

end Pairs

section Records

variable {δ : Type}

def ReadsField (layout : Layout) (depth : Nat) (field : δ → String → Reader δ) (d : δ)
    (m : String × Json) (d' : δ) : Prop :=
  ∀ rest : List Char, Ends rest →
    field d m.1 (layout.colon ++ (m.2.text layout depth ++ rest)) = .ok (d', rest)

inductive ReadsFields (layout : Layout) (depth : Nat) (field : δ → String → Reader δ) :
    δ → List (String × Json) → δ → Prop where
  | nil (d : δ) : ReadsFields layout depth field d [] d
  | cons {d d' d'' : δ} {m : String × Json} {ms : List (String × Json)}
      (first : ReadsField layout depth field d m d')
      (next : ReadsFields layout depth field d' ms d'') :
      ReadsFields layout depth field d (m :: ms) d''

variable {field : δ → String → Reader δ}

theorem ReadsFields.chain {d d' : δ} {ms : List (String × Json)}
    (h : ReadsFields layout depth field d ms d') :
    Brackets.object.Chain (fun draft => do field draft (← Reader.key)) d
      (ms.map (memberText layout depth)) d' := by
  induction h with
  | nil d => exact .nil d
  | @cons _ _ _ m _ first _ ih =>
    refine .cons (begins_member m) (fun {rest} hr => ?_) ih
    rw [memberText, List.append_assoc, List.append_assoc, Reader.bind_ok (key_quoted m.1 _)]
    exact first rest hr

theorem ReadsField.once (loose : layout.Loose) {reader : Reader α} {j : Json} {a : α} {d : δ}
    {key name : String} {f : Option α → δ} (h : Reads layout depth reader j a)
    (hfield : field d key = do return f (← Reader.once name none reader)) :
    ReadsField layout depth field d (key, j) (f (some a)) := by
  intro rest hr
  have once : Reader.once name none reader (layout.colon ++ (j.text layout depth ++ rest)) =
      .ok (some a, rest) := behind_key loose (fun hb => h.reads hb hr) _
  rw [hfield, Reader.bind_ok once]
  rfl

/-- The fields may stand in any order, so the draft is completed behind the last one. -/
theorem Reads.record (loose : layout.Loose) (name : String) {start d : δ}
    {complete : δ → Except Reason α} (inOrder : Reader α) {ms : List (String × Json)} {a : α}
    (fields : ReadsFields layout (depth + 1) field start ms d) (ha : complete d = .ok a) :
    Reads layout depth (Reader.record name field start complete inOrder) (.object ms) a where
  starts := ⟨_, _, text_object layout depth _, rfl⟩
  reads {blanks rest} hb hr := by
    rw [text_object, List.cons_append]
    unfold Reader.record
    rw [Reader.bind_ok (Reader.peek_blank hb rfl _)]
    change (Reader.advance >>= _) _ = _
    rw [Reader.bind_ok (Reader.advance_cons _ _),
      Reader.bind_ok (Brackets.items_object loose fields.chain rest), ha]
    rfl

end Records

end TraceRepair.Json
