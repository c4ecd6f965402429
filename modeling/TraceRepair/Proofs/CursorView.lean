import TraceRepair.Trace

namespace TraceRepair.Cursor

def upcoming (c : Cursor) (function : String) (loc : Loc) : List Visit :=
  (c.remaining function loc).filter (·.isAt function loc)

/-- The first element with a property stands where all others are dropped up to it. -/
theorem filter_eq_of_dropWhile {α : Type} (p : α → Bool) (l : List α) :
    l.filter p = match l.dropWhile (!p ·) with
      | [] => []
      | a :: rest => a :: rest.filter p := by
  induction l with
  | nil => rfl
  | cons a l ih =>
    cases h : p a with
    | true => rw [List.dropWhile_cons_of_neg (by simp [h]), List.filter_cons_of_pos h]
    | false =>
      rw [List.dropWhile_cons_of_pos (by simp [h]), List.filter_cons_of_neg (by simp [h]), ih]

theorem lookup_filter_ne {α β : Type} [BEq α] [LawfulBEq α] {a b : α} (h : a ≠ b)
    (l : List (α × β)) : (l.filter (·.1 != b)).lookup a = l.lookup a := by
  induction l with
  | nil => rfl
  | cons e l ih =>
    by_cases he : e.1 = b
    · have ha : (a == e.1) = false := beq_eq_false_iff_ne.mpr (he ▸ h)
      rw [List.filter_cons_of_neg (by simp [he]), ih, List.lookup_cons, ha]
    · rw [List.filter_cons_of_pos (by simp [he]), List.lookup_cons, List.lookup_cons, ih]

variable {c : Cursor} {function : String} {loc : Loc}

theorem next?_of_nil (h : c.upcoming function loc = []) : c.next? function loc = (none, c) := by
  rw [upcoming, filter_eq_of_dropWhile] at h
  unfold next?
  cases hd : (c.remaining function loc).dropWhile (!·.isAt function loc) with
  | nil => rfl
  | cons v rest =>
    rw [hd] at h
    cases h

/-- The next visit is handed out, and other locations do not notice. -/
theorem next?_of_cons {v : Visit} {vs : List Visit} (h : c.upcoming function loc = v :: vs) :
    ∃ c', c.next? function loc = (some v, c') ∧
      ∀ f l, c'.upcoming f l = if (f, l) = (function, loc) then vs else c.upcoming f l := by
  rw [upcoming, filter_eq_of_dropWhile] at h
  unfold next?
  cases hd : (c.remaining function loc).dropWhile (!·.isAt function loc) with
  | nil =>
    rw [hd] at h
    cases h
  | cons w rest =>
    rw [hd] at h
    obtain ⟨rfl, hrest⟩ := List.cons.inj h
    refine ⟨_, rfl, fun f l => ?_⟩
    unfold upcoming remaining
    split
    · rename_i hkey
      obtain ⟨rfl, rfl⟩ := Prod.mk.inj hkey
      simpa using hrest
    · rename_i hkey
      have hne : ((f, l) == (function, loc)) = false := beq_eq_false_iff_ne.mpr hkey
      simp only [List.lookup_cons, hne, lookup_filter_ne hkey]

/-- A new cursor has all visits of a location to hand out. -/
theorem upcoming_cursor (t : Trace) (function : String) (loc : Loc) :
    t.cursor.upcoming function loc = t.visitsAt function loc := rfl

end TraceRepair.Cursor
