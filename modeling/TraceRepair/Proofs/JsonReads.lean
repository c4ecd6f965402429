import TraceRepair.Json.Decoder
import TraceRepair.Proofs.JsonText
import TraceRepair.Proofs.Lookup

namespace TraceRepair.Json

section Steps

variable {α β : Type} {cs rest : List Char}

theorem Reader.bind_ok {x : Reader α} {a : α} (h : x cs = .ok (a, rest)) (k : α → Reader β) :
    (x >>= k) cs = k a rest := by
  simp [bind, StateT.bind, h, Except.bind]

theorem Reader.pure_apply (a : α) (cs : List Char) : (pure a : Reader α) cs = .ok (a, cs) := rfl

/-- White space in front does not matter. -/
theorem Reader.peek_blank {blanks : List Char} (h : Blank blanks) {c : Char}
    (hc : isSpace c = false) (cs : List Char) :
    Reader.peek (blanks ++ c :: cs) = .ok (some c, c :: cs) := by
  unfold Reader.peek
  rw [skipSpace_blank h hc]
  rfl

theorem Reader.peek_cons {c : Char} (hc : isSpace c = false) (cs : List Char) :
    Reader.peek (c :: cs) = .ok (some c, c :: cs) :=
  Reader.peek_blank blank_nil hc cs

theorem Reader.advance_cons (c : Char) (cs : List Char) :
    Reader.advance (c :: cs) = .ok ((), cs) := rfl

end Steps

def isStart (c : Char) : Bool :=
  c == '"' || c == '[' || c == '\x7b' || c == 'n' || c == 't' || c == 'f' || Number.isDigit c

theorem isStart_of_isDigit {c : Char} (h : Number.isDigit c = true) : isStart c = true := by
  simp [isStart, h]

theorem isStart_apart {c : Char} (h : isStart c = true) : isSpace c = false ∧ c ≠ ']' := by
  simp only [isStart, Bool.or_eq_true, beq_iff_eq] at h
  rcases h with (((((rfl | rfl) | rfl) | rfl) | rfl) | rfl) | h
  case inr =>
    have apart : ∀ d, Number.isDigit d = false → c ≠ d := fun d => ne_of_isDigit h
    refine ⟨?_, apart ']' rfl⟩
    simp [isSpace, apart ' ' rfl, apart '\n' rfl, apart '\t' rfl, apart '\r' rfl]
  all_goals decide

def Starts (t : List Char) : Prop := ∃ c cs, t = c :: cs ∧ isStart c = true

/-- At a depth of nesting, the reader gets to the value behind any white space and leaves what
follows. -/
structure Reads (layout : Layout) (depth : Nat) {α : Type} (reader : Reader α) (j : Json) (a : α) :
    Prop where
  starts : Starts (j.text layout depth)
  reads : ∀ {blanks rest : List Char}, Blank blanks → Ends rest →
    reader (blanks ++ (j.text layout depth ++ rest)) = .ok (a, rest)

theorem Reads.here {layout : Layout} {depth : Nat} {α : Type} {reader : Reader α} {j : Json} {a : α}
    (h : Reads layout depth reader j a) {rest : List Char} (hr : Ends rest) :
    reader (j.text layout depth ++ rest) = .ok (a, rest) :=
  h.reads blank_nil hr

/-- Nothing stands behind the value in a whole text. -/
theorem Reads.run {layout : Layout} {α : Type} {reader : Reader α} {j : Json} {a : α}
    (h : Reads layout 0 reader j a) : reader.run (j.render layout) = .ok a := by
  have read := h.here ends_nil
  rw [List.append_nil] at read
  have cs : (j.render layout).toList = j.text layout 0 := String.toList_ofList
  unfold Reader.run
  dsimp only
  rw [cs, Reader.bind_ok read]
  rfl

namespace Brackets

def Begins (b : Brackets) (t : List Char) : Prop :=
  ∃ c cs, t = c :: cs ∧ isSpace c = false ∧ c ≠ b.close ∧ (b.quotedItems = true → c = '"')

theorem begins_list {t : List Char} (h : Starts t) : list.Begins t := by
  obtain ⟨c, cs, ht, start⟩ := h
  obtain ⟨space, close⟩ := isStart_apart start
  exact ⟨c, cs, ht, space, close, nofun⟩

structure Usable (b : Brackets) : Prop where
  close : isSpace b.close = false
  comma : b.close ≠ ','
  ends : isEnd b.close = true

theorem usable_list : list.Usable := by constructor <;> decide

theorem usable_object : object.Usable := by constructor <;> decide

variable {b : Brackets} {first : Bool} {blanks rest t : List Char}

theorem more_close (usable : b.Usable) (h : Blank blanks) :
    b.more first (blanks ++ b.close :: rest) = .ok (false, b.close :: rest) := by
  unfold more
  rw [Reader.bind_ok (Reader.peek_blank h usable.close rest)]
  simp only [if_true]
  rfl

theorem checkItem_ok {c : Char} (quote : b.quotedItems = true → c = '"') (cs : List Char) :
    b.checkItem c cs = .ok ((), cs) := by
  unfold checkItem
  cases hq : b.quotedItems with
  | false => rfl
  | true =>
    rw [quote hq]
    rfl

theorem more_first (begins : b.Begins t) (h : Blank blanks) :
    b.more true (blanks ++ (t ++ rest)) = .ok (true, t ++ rest) := by
  obtain ⟨c, cs, rfl, space, close, quote⟩ := begins
  unfold more
  rw [List.cons_append, Reader.bind_ok (Reader.peek_blank h space _)]
  simp only [close, if_false, if_true]
  rw [Reader.bind_ok (checkItem_ok quote _)]
  rfl

/-- Items behind the first stand behind a comma. -/
theorem more_later (usable : b.Usable) (begins : b.Begins t) (h : Blank blanks) :
    b.more false (',' :: (blanks ++ (t ++ rest))) = .ok (true, t ++ rest) := by
  obtain ⟨c, cs, rfl, space, close, quote⟩ := begins
  unfold more
  rw [Reader.bind_ok (Reader.peek_cons rfl _)]
  simp only [usable.comma.symm, if_false, if_true, Bool.false_eq_true]
  rw [Reader.bind_ok (Reader.advance_cons _ _), List.cons_append,
    Reader.bind_ok (Reader.peek_blank h space _)]
  simp only [close, if_false]
  rw [Reader.bind_ok (checkItem_ok quote _)]
  rfl

/-- A state goes from item to item, each read off the front of whatever follows it. -/
inductive Chain (b : Brackets) {σ : Type} (item : σ → Reader σ) : σ → List (List Char) → σ → Prop
  where
  | nil (s : σ) : Chain b item s [] s
  | cons {s s' s'' : σ} {t : List Char} {ts : List (List Char)} (begins : b.Begins t)
      (step : ∀ {rest : List Char}, Ends rest → item s (t ++ rest) = .ok (s', rest))
      (next : Chain b item s' ts s'') : Chain b item s (t :: ts) s''

/-- Items are gathered one after the other, so that the latest stands first. -/
theorem chain_gathered {α : Type} {item : List α → Reader (List α)} {piece : α → List Char}
    {as : List α} (begins : ∀ a ∈ as, b.Begins (piece a))
    (step : ∀ a ∈ as, ∀ taken {rest : List Char}, Ends rest →
      item taken (piece a ++ rest) = .ok (a :: taken, rest)) (taken : List α) :
    b.Chain item taken (as.map piece) (as.reverse ++ taken) := by
  induction as generalizing taken with
  | nil => exact .nil taken
  | cons a as ih =>
    have later := ih (fun c hc => begins c (List.mem_cons_of_mem a hc))
      (fun c hc => step c (List.mem_cons_of_mem a hc)) (a :: taken)
    rw [List.reverse_cons, List.append_assoc]
    exact .cons (begins a List.mem_cons_self) (step a List.mem_cons_self taken) later

section Items

variable {σ : Type} {item : σ → Reader σ} {s s' : σ} {ts : List (List Char)}
  {lead lead' : List Char}

theorem ends_close (usable : b.Usable) (h' : Blank lead') : Ends (lead' ++ b.close :: rest) := by
  intro c hc
  cases lead' with
  | nil =>
    obtain rfl := Option.some.inj hc
    exact usable.ends
  | cons d lead' =>
    obtain rfl := Option.some.inj hc
    rw [isEnd, h' d List.mem_cons_self]
    rfl

theorem ends_later (usable : b.Usable) (h' : Blank lead') (ts : List (List Char)) :
    Ends (later lead ts ++ (lead' ++ b.close :: rest)) := by
  cases ts with
  | nil => exact ends_close usable h'
  | cons t ts => exact ends_comma _

theorem foldItems_close (usable : b.Usable) (h : Blank blanks) {bound : List Char}
    (hb : 0 < bound.length) :
    b.foldItems item first s bound (blanks ++ b.close :: rest) = .ok (s, rest) := by
  cases bound with
  | nil => cases hb
  | cons d bound =>
    rw [foldItems, Reader.bind_ok (more_close usable h)]
    simp only [Bool.false_eq_true, if_false]
    rw [Reader.bind_ok (Reader.advance_cons _ _)]
    rfl

/-- By induction on the chain; the bound loses a character for each item. -/
theorem foldItems_later (usable : b.Usable) (h : Blank lead) (h' : Blank lead')
    (chain : b.Chain item s ts s') {bound : List Char} (hb : ts.length < bound.length) :
    b.foldItems item false s bound (later lead ts ++ (lead' ++ b.close :: rest)) =
      .ok (s', rest) := by
  induction chain generalizing bound with
  | nil s => exact foldItems_close usable h' hb
  | @cons s _ _ t ts begins step _ ih =>
    cases bound with
    | nil => cases hb
    | cons d bound =>
      have onward := ih (Nat.lt_of_succ_lt_succ hb)
      have written : later lead (t :: ts) ++ (lead' ++ b.close :: rest) =
          ',' :: (lead ++ (t ++ (later lead ts ++ (lead' ++ b.close :: rest)))) := by
        simp [later]
      rw [written, foldItems, Reader.bind_ok (more_later usable begins h)]
      simp only [if_true]
      rw [Reader.bind_ok (step (ends_later usable h' ts))]
      exact onward

variable {layout : Layout} (loose : layout.Loose) {depth : Nat}
include loose

omit loose in
/-- Each piece is at least one character long. -/
theorem Chain.length_le (chain : b.Chain item s ts s') :
    ts.length < (enclosed layout depth b.close ts).length := by
  have pieces : ∀ {ts s s'}, b.Chain item s ts s' → ∀ lead, ts.length ≤ (later lead ts).length := by
    intro ts s s' chain lead
    induction chain with
    | nil => exact Nat.le_refl 0
    | cons _ _ _ ih =>
      simp only [later, List.flatMap_cons, List.length_append, List.length_cons] at ih ⊢
      omega
  cases chain with
  | nil => exact Nat.one_pos
  | cons begins _ next =>
    obtain ⟨c, cs, rfl, -⟩ := begins
    have := pieces next (layout.lead (depth + 1))
    simp only [enclosed, List.length_append, List.length_cons]
    omega

/-- The text behind the opening bracket is bound enough for its items. -/
theorem foldItems_enclosed (usable : b.Usable) (chain : b.Chain item s ts s') {bound : List Char}
    (hb : (enclosed layout depth b.close ts).length ≤ bound.length) :
    b.foldItems item true s bound (enclosed layout depth b.close ts ++ rest) = .ok (s', rest) := by
  have count : ts.length < bound.length := Nat.lt_of_lt_of_le chain.length_le hb
  cases chain with
  | nil => exact foldItems_close usable blank_nil count
  | @cons _ _ _ t ts begins step next =>
    cases bound with
    | nil => cases count
    | cons d bound =>
      have written : enclosed layout depth b.close (t :: ts) ++ rest =
          layout.lead (depth + 1) ++ (t ++ (later (layout.lead (depth + 1)) ts ++
            (layout.lead depth ++ b.close :: rest))) := by
        simp [enclosed]
      rw [written, foldItems, Reader.bind_ok (more_first begins (loose.lead _))]
      simp only [if_true]
      rw [Reader.bind_ok (step (ends_later usable (loose.lead _) ts))]
      exact foldItems_later usable (loose.lead _) (loose.lead _) next (Nat.lt_of_succ_lt_succ count)

/-- By induction on the chain, from the first item to the closing bracket. -/
theorem items_enclosed (usable : b.Usable) (chain : b.Chain item s ts s') :
    b.items item s (enclosed layout depth b.close ts ++ rest) = .ok (s', rest) := by
  have hb : (enclosed layout depth b.close ts).length ≤
      (b.close :: (enclosed layout depth b.close ts ++ rest)).length := by
    simp only [List.length_cons, List.length_append]
    omega
  unfold items settling
  rw [foldItems_enclosed loose usable chain hb]
  rfl

end Items

section Items

variable {σ : Type} {item : σ → Reader σ} {s s' : σ} {ts : List (List Char)} {layout : Layout}
  (loose : layout.Loose) {depth : Nat}
include loose

theorem items_list (chain : list.Chain item s ts s') (rest : List Char) :
    list.items item s (enclosed layout depth ']' ts ++ rest) = .ok (s', rest) :=
  items_enclosed loose usable_list chain

theorem items_object (chain : object.Chain item s ts s') (rest : List Char) :
    object.items item s (enclosed layout depth '\x7d' ts ++ rest) = .ok (s', rest) :=
  items_enclosed loose usable_object chain

end Items

end Brackets

end TraceRepair.Json
