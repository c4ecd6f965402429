import Mathlib.Algebra.BigOperators.Group.List.Basic
import Mathlib.Algebra.BigOperators.Ring.List
import Mathlib.Algebra.Ring.Nat
import TraceRepair.Operator.Arrays
import TraceRepair.Proofs.Results

namespace TraceRepair

/-- The elements of nested arrays at a depth, where the whole is all there is at depth 0. Anything
but an array has no elements. -/
def Value.elementsAt : Nat → Value → List Value
  | 0, v => [v]
  | depth + 1, .array items => items.flatMap (elementsAt depth)
  | _ + 1, _ => []

namespace Arrays

/-- The dimensions are integers that are not negative, and these are the lengths. -/
def Measured (dimensions : List Value) (lengths : List Nat) : Prop :=
  List.Forall₂
    (fun dimension length => ∃ n : Int64, dimension.asInt? = some n ∧ n.toInt = (length : Nat))
    dimensions lengths

theorem lengthOf_eq_ok {dimension : Value} {length : Nat} :
    lengthOf dimension = .ok length ↔ ∃ n, dimension.asInt? = some n ∧ n.toInt = length := by
  unfold lengthOf
  cases dimension.asInt? with
  | none => simp
  | some n =>
    simp only [Option.some.injEq, exists_eq_left']
    split
    · rw [Except.ok.injEq]
      omega
    · simp only [reduceCtorEq, false_iff]
      omega

theorem mapM_lengthOf_eq_ok {dimensions : List Value} {lengths : List Nat} :
    dimensions.mapM lengthOf = .ok lengths ↔ Measured dimensions lengths := by
  rw [Except.mapM_eq_ok]
  simp only [lengthOf_eq_ok, Measured]

section Filled

variable {room : Room} {lengths : List Nat} {v : Value}

theorem filled_cons_eq_ok {length : Nat} :
    filled room (length :: lengths) = .ok v ↔
      ∃ item, filled room lengths = .ok item ∧ room.reserves length = true ∧
        v = .array (List.replicate length item) := by
  rw [filled, Except.bind_eq_ok]
  refine exists_congr fun item => and_congr_right fun _ => ?_
  split
  · rename_i reserved
    constructor
    · intro made
      cases made
      exact ⟨reserved, rfl⟩
    · intro made
      rw [made.2]
      rfl
  · rename_i refused
    exact ⟨nofun, fun made => absurd made.1 refused⟩

/-- Memory is had for a row of each length. -/
def Room.Holds (room : Room) (lengths : List Nat) : Prop :=
  ∀ length ∈ lengths, room.reserves length = true

theorem exists_filled (held : room.Holds lengths) : ∃ v, filled room lengths = .ok v := by
  induction lengths with
  | nil => exact ⟨.undefined, rfl⟩
  | cons length lengths ih =>
    obtain ⟨first, later⟩ := List.forall_mem_cons.mp held
    obtain ⟨item, made⟩ := ih later
    exact ⟨_, filled_cons_eq_ok.mpr ⟨item, made, first, rfl⟩⟩

/-- By recursion over the dimensions: each element of a row holds the same number of further
ones. -/
theorem length_elementsAt_filled (made : filled room lengths = .ok v) {depth : Nat}
    (inside : depth ≤ lengths.length) :
    (v.elementsAt depth).length = (lengths.take depth).prod := by
  induction lengths generalizing v depth with
  | nil =>
    obtain rfl := Nat.le_zero.mp inside
    rfl
  | cons length lengths ih =>
    cases depth with
    | zero => rfl
    | succ depth =>
      obtain ⟨item, inner, _, rfl⟩ := filled_cons_eq_ok.mp made
      have row := ih inner (Nat.le_of_succ_le_succ inside)
      rw [Value.elementsAt, List.length_flatMap, List.map_replicate, List.sum_replicate_nat, row,
        List.take_succ_cons, List.prod_cons]

end Filled

/-- The product is refused as soon as a part of it, from the outermost dimension on, exceeds a
machine word. -/
theorem cellCount?_eq_some {lengths : List Nat} {cells : Nat} :
    cellCount? lengths = some cells ↔
      cells = lengths.prod ∧ ∀ depth, (lengths.take depth).prod < UInt64.size := by
  -- The product starts from any number that fits a machine word.
  suffices general : ∀ total < UInt64.size,
      lengths.foldlM (fun total length =>
        if total * length < UInt64.size then some (total * length) else none) total = some cells ↔
      cells = total * lengths.prod ∧ ∀ depth, total * (lengths.take depth).prod < UInt64.size by
    simpa [cellCount?] using general 1 (by decide)
  induction lengths with
  | nil =>
    intro total small
    simp [small, eq_comm]
  | cons length lengths ih =>
    intro total small
    rw [List.foldlM_cons]
    by_cases fits : total * length < UInt64.size
    · simp only [if_pos fits, Option.bind_eq_bind, Option.bind_some, ih _ fits, List.prod_cons,
        Nat.mul_assoc]
      refine and_congr_right fun _ => ⟨?_, fun h depth => ?_⟩
      · intro h depth
        cases depth with
        | zero => simpa using small
        | succ depth => simpa using h depth
      · simpa using h (depth + 1)
    · simp only [if_neg fits, Option.bind_eq_bind, Option.bind_none, reduceCtorEq, false_iff]
      intro ⟨_, h⟩
      exact fits (by simpa using h 1)

theorem cellCount?_within {lengths : List Nat} {limit : Nat} :
    (cellCount? lengths).all (limit < ·) = false ↔
      (∀ depth, (lengths.take depth).prod < UInt64.size) ∧ lengths.prod ≤ limit := by
  cases count : cellCount? lengths with
  | none =>
    refine ⟨nofun, fun ⟨words, _⟩ => ?_⟩
    rw [cellCount?_eq_some.mpr ⟨rfl, words⟩] at count
    cases count
  | some cells =>
    obtain ⟨rfl, words⟩ := cellCount?_eq_some.mp count
    simp [words]

/-- All that is checked before the rows are made. -/
theorem create_eq_ok {dimensions : List Value} {room : Room} {v : Value} :
    create dimensions room = .ok v ↔
      ∃ lengths, Measured dimensions lengths ∧ (∀ length ∈ lengths, length ≤ room.cells) ∧
        (∀ depth, (lengths.take depth).prod < UInt64.size) ∧ lengths.prod ≤ room.cells ∧
        filled room lengths = .ok v := by
  rw [create, Except.bind_eq_ok]
  simp only [mapM_lengthOf_eq_ok]
  refine exists_congr fun lengths => and_congr_right fun _ => ?_
  have small : lengths.any (room.cells < ·) = false ↔
      ∀ length ∈ lengths, length ≤ room.cells := by
    simp
  split
  · rename_i refused
    refine ⟨nofun, fun ⟨each, words, total, _⟩ => ?_⟩
    rw [small.mpr each, cellCount?_within.mpr ⟨words, total⟩] at refused
    cases refused
  · rename_i admitted
    obtain ⟨each, all⟩ := Bool.or_eq_false_iff.mp (Bool.not_eq_true _ ▸ admitted)
    obtain ⟨words, total⟩ := cellCount?_within.mp all
    exact ⟨fun made => ⟨small.mp each, words, total, made⟩, fun made => made.2.2.2⟩

/-- A dimension of zero further in makes the product vanish, and only what stands above it escapes
the limit then. -/
theorem prod_take_le {lengths : List Nat} {limit depth : Nat}
    (each : ∀ length ∈ lengths, length ≤ limit) (total : lengths.prod ≤ limit) (inner : 0 < depth)
    (shown : depth = 1 ∨ 0 ∈ lengths.take depth ∨ 0 ∉ lengths.drop depth) :
    (lengths.take depth).prod ≤ limit := by
  rcases shown with rfl | empty | full
  · cases lengths with
    | nil => simpa using total
    | cons length lengths => simpa using each length List.mem_cons_self
  · rw [List.prod_eq_zero empty]
    exact Nat.zero_le limit
  · calc (lengths.take depth).prod
        ≤ (lengths.take depth).prod * (lengths.drop depth).prod :=
          Nat.le_mul_of_pos_right _ (Nat.pos_of_ne_zero fun h => full (List.prod_eq_zero_iff.mp h))
      _ = lengths.prod := List.prod_take_mul_prod_drop lengths depth
      _ ≤ limit := total

/-- The parts within the limit keep the product within a machine word. -/
theorem exists_create {dimensions : List Value} {lengths : List Nat} {room : Room}
    (named : dimensions ≠ []) (measured : Measured dimensions lengths)
    (word : room.cells < UInt64.size) (short : ∀ length ∈ lengths, length ≤ room.cells)
    (held : room.Holds lengths)
    (parts : ∀ depth, 0 < depth → (lengths.take depth).prod ≤ room.cells) :
    ∃ v, create dimensions room = .ok v := by
  have whole : 0 < lengths.length := by
    rw [← measured.length_eq]
    exact List.length_pos_iff.mpr named
  have words : ∀ depth, (lengths.take depth).prod < UInt64.size := by
    intro depth
    cases depth with
    | zero => exact (by decide : 1 < UInt64.size)
    | succ depth => exact Nat.lt_of_le_of_lt (parts _ depth.succ_pos) word
  have total : lengths.prod ≤ room.cells := by
    simpa using parts lengths.length whole
  obtain ⟨v, built⟩ : ∃ v, filled room lengths = .ok v := exists_filled held
  exact ⟨v, create_eq_ok.mpr ⟨lengths, measured, short, words, total, built⟩⟩

/-- The number of elements at a depth is the product of the dimensions down to it. It is within the
limit unless an empty dimension stands further in and none above. The limit is a machine word, and
memory has to be had for the rows of an array that is to be made. -/
theorem create_within_limit (dimensions : List Value) (room : Room) :
    (∀ v, create dimensions room = .ok v →
      ∃ lengths, Measured dimensions lengths ∧
        ∀ depth, 0 < depth → depth ≤ lengths.length →
          (v.elementsAt depth).length = (lengths.take depth).prod ∧
          (depth = 1 ∨ 0 ∈ lengths.take depth ∨ 0 ∉ lengths.drop depth →
            (v.elementsAt depth).length ≤ room.cells)) ∧
    (∀ lengths, dimensions ≠ [] → Measured dimensions lengths → room.cells < UInt64.size →
      (∀ length ∈ lengths, length ≤ room.cells) →
      room.Holds lengths →
      (∀ depth, 0 < depth → (lengths.take depth).prod ≤ room.cells) →
      ∃ v, create dimensions room = .ok v) := by
  constructor
  · intro v made
    obtain ⟨lengths, measured, each, _, total, built⟩ := create_eq_ok.mp made
    refine ⟨lengths, measured, ?_⟩
    intro depth inner inside
    have count := length_elementsAt_filled built inside
    exact ⟨count, fun shown => count ▸ prod_take_le each total inner shown⟩
  · intro lengths named measured word short held parts
    exact exists_create named measured word short held parts

/-- Four elements are made within a limit of three, because their rows are empty. -/
theorem create_exceeds_above_empty_rows :
    ∃ v, create [.int 2, .int 2, .int 0] { cells := 3 } = .ok v ∧ 3 < (v.elementsAt 2).length :=
  ⟨_, rfl, by decide⟩

/-- A memory that has room for rows of up to a billion cells makes two rows of one row of three. -/
theorem create_grid_of_six :
    ∃ v, create [.int 2, .bool true, .int 3] { cells := 6, reserves := (· ≤ 1000000000) } = .ok v ∧
      (v.elementsAt 2).length = 2 ∧ (v.elementsAt 3).length ≤ 6 := by
  obtain ⟨levels, made⟩ := create_within_limit [.int 2, .bool true, .int 3]
    { cells := 6, reserves := (· ≤ 1000000000) }
  have measured : Measured [.int 2, .bool true, .int 3] [2, 1, 3] := mapM_lengthOf_eq_ok.mp rfl
  have held : Room.Holds { cells := 6, reserves := (· ≤ 1000000000) } [2, 1, 3] := by
    simp [Room.Holds]
  have parts : ∀ depth, 0 < depth → ([2, 1, 3].take depth).prod ≤ 6 := by
    rintro (_ | _ | _ | depth) _ <;> simp
  obtain ⟨v, made⟩ := made _ (List.cons_ne_nil _ _) measured (by decide) (by decide) held parts
  obtain ⟨lengths, again, levels⟩ := levels v made
  obtain rfl : [2, 1, 3] = lengths := Except.ok.inj (mapM_lengthOf_eq_ok.mpr again)
  obtain ⟨rows, _⟩ := levels 2 (by decide) (by decide)
  obtain ⟨_, cells⟩ := levels 3 (by decide) (by decide)
  exact ⟨v, made, rows, cells (by decide)⟩

end Arrays

end TraceRepair
