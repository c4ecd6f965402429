namespace TraceRepair

/-- The order is part of the type, so every listing comes out sorted and two maps with the same
entries are equal. -/
structure SortedMap (κ α : Type) [Ord κ] where
  entries : List (κ × α)
  ascending : entries.Pairwise fun a b => compare a.1 b.1 = .lt

namespace SortedMap

variable {κ α β : Type} [Ord κ]

/-- The search may stop at the first larger key. -/
def seek? (key : κ) : List (κ × α) → Option α
  | [] => none
  | (other, value) :: rest =>
    match compare key other with
    | .lt => none
    | .eq => some value
    | .gt => seek? key rest

def insertEntry (key : κ) (value : α) : List (κ × α) → List (κ × α)
  | [] => [(key, value)]
  | e :: rest =>
    match compare key e.1 with
    | .lt => (key, value) :: e :: rest
    | .eq => (key, value) :: rest
    | .gt => e :: insertEntry key value rest

def empty : SortedMap κ α := ⟨[], .nil⟩

instance : EmptyCollection (SortedMap κ α) := ⟨empty⟩

instance : Inhabited (SortedMap κ α) := ⟨empty⟩

def find? (m : SortedMap κ α) (key : κ) : Option α := seek? key m.entries

def contains (m : SortedMap κ α) (key : κ) : Bool := (m.find? key).isSome

def keys (m : SortedMap κ α) : List κ := m.entries.map (·.1)

def values (m : SortedMap κ α) : List α := m.entries.map (·.2)

def size (m : SortedMap κ α) : Nat := m.entries.length

def isEmpty (m : SortedMap κ α) : Bool := m.entries.isEmpty

def lastKey? (m : SortedMap κ α) : Option κ := (m.entries.getLast?).map (·.1)

def mapValues (f : α → β) (m : SortedMap κ α) : SortedMap κ β where
  entries := m.entries.map fun e => (e.1, f e.2)
  ascending := by
    rw [List.pairwise_map]
    exact m.ascending

def erase (m : SortedMap κ α) (key : κ) : SortedMap κ α where
  entries := m.entries.filter fun e => compare key e.1 != .eq
  ascending := m.ascending.filter _

theorem mem_insertEntry {key : κ} {value : α} {e : κ × α} {l : List (κ × α)} :
    e ∈ insertEntry key value l → e = (key, value) ∨ e ∈ l := by
  induction l with
  | nil => simp [insertEntry]
  | cons hd tl ih =>
    obtain ⟨other, old⟩ := hd
    unfold insertEntry
    split <;> grind

variable [Std.TransOrd κ] [Std.LawfulEqOrd κ]

/-- The new entry goes to its place in the order. -/
theorem ascending_insertEntry (key : κ) (value : α) {l : List (κ × α)}
    (h : l.Pairwise fun a b => compare a.1 b.1 = .lt) :
    (insertEntry key value l).Pairwise fun a b => compare a.1 b.1 = .lt := by
  induction l with
  | nil => simp [insertEntry]
  | cons hd tl ih =>
    obtain ⟨other, old⟩ := hd
    rw [List.pairwise_cons] at h
    unfold insertEntry
    split
    · rename_i hlt
      refine List.pairwise_cons.mpr ⟨?_, List.pairwise_cons.mpr h⟩
      intro e he
      rcases List.mem_cons.mp he with rfl | he
      · exact hlt
      · exact Std.TransCmp.lt_trans hlt (h.1 e he)
    · rename_i heq
      have : key = other := Std.LawfulEqCmp.eq_of_compare heq
      subst this
      exact List.pairwise_cons.mpr h
    · rename_i hgt
      refine List.pairwise_cons.mpr ⟨?_, ih h.2⟩
      intro e he
      rcases mem_insertEntry he with rfl | he
      · exact Std.OrientedCmp.lt_of_gt hgt
      · exact h.1 e he

/-- Replaces the value of a key that is there. -/
def insert (m : SortedMap κ α) (key : κ) (value : α) : SortedMap κ α where
  entries := insertEntry key value m.entries
  ascending := ascending_insertEntry key value m.ascending

/-- Of two entries with one key the later stays. -/
def ofList (entries : List (κ × α)) : SortedMap κ α :=
  entries.foldl (fun m e => m.insert e.1 e.2) empty

def modify (m : SortedMap κ α) (key : κ) (f : α → α) : SortedMap κ α :=
  match m.find? key with
  | none => m
  | some value => m.insert key (f value)

omit [Std.TransOrd κ] in
theorem seek_insertEntry_self (key : κ) (value : α) (l : List (κ × α)) :
    seek? key (insertEntry key value l) = some value := by
  induction l with
  | nil => simp [insertEntry, seek?]
  | cons hd tl ih =>
    unfold insertEntry
    split
    · simp [seek?]
    · simp [seek?]
    · rename_i hgt
      simp [seek?, hgt, ih]

theorem seek_insertEntry_of_ne {key other : κ} (hne : other ≠ key) (value : α)
    (l : List (κ × α)) : seek? other (insertEntry key value l) = seek? other l := by
  have apart : compare other key ≠ .eq := fun h => hne (Std.LawfulEqCmp.eq_of_compare h)
  induction l with
  | nil =>
    unfold insertEntry seek?
    cases h : compare other key <;> simp_all [seek?]
  | cons hd tl ih =>
    obtain ⟨third, old⟩ := hd
    unfold insertEntry
    split
    · rename_i hlt
      cases h : compare other key with
      | eq => exact absurd h apart
      | gt => simp [seek?, h]
      | lt =>
        have := Std.TransCmp.lt_trans h hlt
        simp [seek?, h, this]
    · rename_i heq
      rw [Std.LawfulEqCmp.eq_of_compare heq] at apart
      cases h : compare other third <;> simp_all [seek?]
    · simp only [seek?, ih]

@[simp]
theorem find?_insert_self (m : SortedMap κ α) (key : κ) (value : α) :
    (m.insert key value).find? key = some value :=
  seek_insertEntry_self key value m.entries

/-- Other keys find what they found before. -/
theorem find?_insert_of_ne {key other : κ} (hne : other ≠ key) (m : SortedMap κ α) (value : α) :
    (m.insert key value).find? other = m.find? other :=
  seek_insertEntry_of_ne hne value m.entries

end SortedMap

end TraceRepair
