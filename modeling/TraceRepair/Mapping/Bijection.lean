import TraceRepair.SortedMap
import TraceRepair.Variable

namespace TraceRepair

/-- Pairs of a reference variable and its counterpart, by the unprimed name of the first. -/
structure Bijection where
  entries : SortedMap String (Variable × Variable) := ∅
  keyed : ∀ e ∈ entries.entries, e.2.1.unprimedName = e.1 := by simp [SortedMap.empty]

namespace Bijection

def empty : Bijection := ⟨SortedMap.empty, by simp [SortedMap.empty]⟩

instance : Inhabited Bijection := ⟨empty⟩

def pairs (b : Bijection) : List (Variable × Variable) := b.entries.values

def pair? (b : Bijection) (reference : Variable) : Option (Variable × Variable) :=
  b.entries.find? reference.unprimedName

def find? (b : Bijection) (reference : Variable) : Option Variable := (b.pair? reference).map (·.2)

def putPair (b : Bijection) (name : String) (pair : Variable × Variable)
    (h : pair.1.unprimedName = name) : Bijection where
  entries := b.entries.insert name pair
  keyed := by
    intro e he
    rcases SortedMap.mem_insertEntry he with rfl | he
    · exact h
    · exact b.keyed e he

theorem unprimedName_of_seek {name : String} {pair : Variable × Variable}
    {l : List (String × Variable × Variable)} (keyed : ∀ e ∈ l, e.2.1.unprimedName = e.1)
    (h : SortedMap.seek? name l = some pair) : pair.1.unprimedName = name := by
  induction l with
  | nil => simp [SortedMap.seek?] at h
  | cons hd tl ih =>
    obtain ⟨other, held⟩ := hd
    unfold SortedMap.seek? at h
    split at h
    · cases h
    · rename_i heq
      cases h
      rw [Std.LawfulEqCmp.eq_of_compare heq]
      exact keyed _ (List.mem_cons_self ..)
    · exact ih (fun e he => keyed e (List.mem_cons_of_mem _ he)) h

/-- A reference variable that is there already stays, and only its counterpart changes. -/
def insert (b : Bijection) (reference submission : Variable) : Bijection :=
  match h : b.pair? reference with
  | some (held, old) =>
    have same : (held, old).1.unprimedName = reference.unprimedName :=
      unprimedName_of_seek b.keyed h
    b.putPair reference.unprimedName (held, submission) same
  | none => b.putPair reference.unprimedName (reference, submission) rfl

/-- Of pairs with one name the last stays, reference variable included. -/
def ofPairs (pairs : List (Variable × Variable)) : Bijection :=
  pairs.foldl (fun b p => b.putPair p.1.unprimedName p rfl) empty

def findByName? (b : Bijection) (name : String) : Option Variable := b.find? (.ofPrinted name)

def contains (b : Bijection) (reference : Variable) : Bool := (b.pair? reference).isSome

def size (b : Bijection) : Nat := b.entries.size

def alikePairs : List (Variable × Variable) → List (Variable × Variable) → Bool
  | [], [] => true
  | (r, s) :: ps, (r', s') :: ps' => r.sameName r' && s.sameName s' && alikePairs ps ps'
  | _, _ => false

def alike (b c : Bijection) : Bool := alikePairs b.pairs c.pairs

def display (b : Bijection) : String :=
  "\x7b" ++ ", ".intercalate (b.pairs.map fun p => p.1.name ++ "=" ++ p.2.name) ++ "\x7d"

end Bijection

end TraceRepair
