import Mathlib.Data.List.GetD
import TraceRepair.Operator
import TraceRepair.Proofs.Results

namespace TraceRepair

namespace Arrays

/-- Each index of a path names an element of the array to which the indices before it lead. -/
def Addresses (array : Value) (path : List Value) : Prop :=
  ∀ before index behind, path = before ++ index :: behind →
    ∃ (items : List Value) (n : Int64), getPath array before = .ok (.array items) ∧
      index.asInt? = some n ∧ 0 ≤ n.toInt ∧ n.toInt < items.length

section Steps

variable {index other array new value item : Value} {items path : List Value} {i j length : Nat}

/-- An index names a place when it is a number that is not negative and below the length. -/
theorem position_eq_ok :
    position index length = .ok i ↔
      ∃ n, index.asInt? = some n ∧ 0 ≤ n.toInt ∧ n.toInt < length ∧ n.toInt.toNat = i := by
  unfold position
  cases index.asInt? with
  | none => simp
  | some n =>
    dsimp only
    split
    · rename_i inside
      simp [inside]
    · rename_i outside
      simp only [reduceCtorEq, Option.some.injEq, exists_eq_left', false_iff]
      exact fun ⟨lower, upper, _⟩ => outside ⟨lower, upper⟩

theorem position_lt (h : position index length = .ok i) : i < length := by
  obtain ⟨n, -, lower, upper, rfl⟩ := position_eq_ok.mp h
  omega

/-- Two indices name one place exactly if they stand for one integer. -/
theorem position_inj (h : position index length = .ok i) (h' : position other length = .ok j) :
    i = j ↔ index.asInt? = other.asInt? := by
  obtain ⟨n, hn, lower, -, rfl⟩ := position_eq_ok.mp h
  obtain ⟨m, hm, lower', -, rfl⟩ := position_eq_ok.mp h'
  rw [hn, hm, Option.some.injEq, ← Int64.toInt_inj]
  omega

theorem getPath_cons :
    getPath array (index :: path) = get array index >>= fun item => getPath item path := by
  rw [getPath, List.foldlM_cons]
  rfl

theorem get_of_position (h : position index items.length = .ok i) :
    get (.array items) index = .ok (items.getD i .undefined) := by
  rw [get, h]
  rfl

theorem get_of_error {e : RuntimeError} (h : position index items.length = .error e) :
    get (.array items) index = .error e := by
  rw [get, h]
  rfl

theorem getPath_of_position (h : position index items.length = .ok i) :
    getPath (.array items) (index :: path) = getPath (items.getD i .undefined) path := by
  rw [getPath_cons, get_of_position h]
  rfl

/-- One step of an assignment, which goes into the element that the first index names. -/
theorem assign_cons_eq_ok :
    assign array (index :: path) value = .ok new ↔
      ∃ items i item, array = .array items ∧ position index items.length = .ok i ∧
        assign (items.getD i .undefined) path value = .ok item ∧
        new = .array (items.set i item) := by
  cases array with
  | array items =>
    rw [assign, Except.bind_eq_ok]
    simp only [Except.bind_eq_ok, Value.array.injEq]
    constructor
    · rintro ⟨i, here, item, inner, ⟨⟩⟩
      exact ⟨items, i, item, rfl, here, inner, rfl⟩
    · rintro ⟨_, i, item, rfl, here, inner, rfl⟩
      exact ⟨i, here, item, inner, rfl⟩
  | _ => simp [assign]

theorem assign_of_position (h : position index items.length = .ok i) :
    assign (.array items) (index :: path) value =
      (assign (items.getD i .undefined) path value).map fun item =>
        .array (items.set i item) := by
  rw [assign, h]
  rfl

theorem getD_set_self (h : i < items.length) : (items.set i item).getD i .undefined = item := by
  simp [List.getD_eq_getElem?_getD, h]

theorem getD_set_of_ne (h : i ≠ j) :
    (items.set i item).getD j .undefined = items.getD j .undefined := by
  simp [List.getD_eq_getElem?_getD, h]

theorem addresses_nil (array : Value) : Addresses array [] := by
  intro before index behind h
  cases before <;> cases h

theorem addresses_cons :
    Addresses array (index :: path) ↔ ∃ items i, array = .array items ∧
      position index items.length = .ok i ∧ Addresses (items.getD i .undefined) path := by
  constructor
  · intro h
    obtain ⟨items, n, whole, known, lower, upper⟩ := h [] index path rfl
    obtain rfl : array = .array items := Except.ok.inj whole
    have here : position index items.length = .ok n.toInt.toNat :=
      position_eq_ok.mpr ⟨n, known, lower, upper, rfl⟩
    refine ⟨items, _, rfl, here, fun before other behind split => ?_⟩
    rw [← getPath_of_position here]
    exact h (index :: before) other behind (congrArg (index :: ·) split)
  · rintro ⟨items, i, rfl, here, inner⟩ before other behind split
    cases before with
    | nil =>
      obtain ⟨rfl, -⟩ := List.cons.inj split
      obtain ⟨n, known, lower, upper, -⟩ := position_eq_ok.mp here
      exact ⟨items, n, rfl, known, lower, upper⟩
    | cons first before =>
      obtain ⟨rfl, rest⟩ := List.cons.inj split
      rw [getPath_of_position here]
      exact inner before other behind rest

end Steps

section Laws

variable {array new value : Value} {path other : List Value}

/-- What was assigned is found again. -/
theorem getPath_of_assign (h : assign array path value = .ok new) :
    getPath new path = .ok value := by
  induction path generalizing array new with
  | nil =>
    cases h
    rfl
  | cons index path ih =>
    obtain ⟨items, i, item, rfl, here, inner, rfl⟩ := assign_cons_eq_ok.mp h
    have place : position index (items.set i item).length = .ok i := by rwa [List.length_set]
    rw [getPath_of_position place, getD_set_self (position_lt here), ih inner]

/-- Up to where the paths part both arrays are alike, and behind it nothing was assigned. -/
theorem getPath_of_assign_apart (h : assign array path value = .ok new)
    (ahead : ¬path.map Value.asInt? <+: other.map Value.asInt?)
    (behind : ¬other.map Value.asInt? <+: path.map Value.asInt?) :
    getPath new other = getPath array other := by
  induction path generalizing array new other with
  | nil => exact absurd List.nil_prefix ahead
  | cons index path ih =>
    obtain ⟨items, i, item, rfl, here, inner, rfl⟩ := assign_cons_eq_ok.mp h
    cases other with
    | nil => exact absurd List.nil_prefix behind
    | cons step other =>
      rw [List.map_cons, List.map_cons, List.cons_prefix_cons] at ahead behind
      rw [getPath_cons, getPath_cons]
      cases place : position step items.length with
      | error e =>
        rw [get_of_error place, get_of_error (by rwa [List.length_set])]
      | ok j =>
        have place' : position step (items.set i item).length = .ok j := by rwa [List.length_set]
        rw [get_of_position place, get_of_position place']
        by_cases same : i = j
        · subst same
          have alike := (position_inj here place).mp rfl
          rw [getD_set_self (position_lt here)]
          exact ih inner (fun on => ahead ⟨alike, on⟩) fun on => behind ⟨alike.symm, on⟩
        · rw [getD_set_of_ne same]

/-- The later of two assignments along one path counts. -/
theorem assign_of_assign (h : assign array path value = .ok new) (later : Value) :
    assign new path later = assign array path later := by
  induction path generalizing array new with
  | nil => rfl
  | cons index path ih =>
    obtain ⟨items, i, item, rfl, here, inner, rfl⟩ := assign_cons_eq_ok.mp h
    have place : position index (items.set i item).length = .ok i := by rwa [List.length_set]
    rw [assign_of_position here, assign_of_position place, getD_set_self (position_lt here),
      ih inner]
    simp only [List.set_set]

/-- Assigning what is there changes nothing. -/
theorem eq_of_assign_getPath (read : getPath array path = .ok value)
    (h : assign array path value = .ok new) : new = array := by
  induction path generalizing array new with
  | nil =>
    cases h
    exact (Except.ok.inj read).symm
  | cons index path ih =>
    obtain ⟨items, i, item, rfl, here, inner, rfl⟩ := assign_cons_eq_ok.mp h
    rw [getPath_of_position here] at read
    obtain rfl := ih read inner
    have inside := position_lt here
    rw [List.getD_eq_getElem _ _ inside, List.set_getElem_self]

/-- Every index of the path has to name an element. -/
theorem exists_assign :
    (∃ new, assign array path value = .ok new) ↔ Addresses array path := by
  induction path generalizing array with
  | nil => exact iff_of_true ⟨value, rfl⟩ (addresses_nil array)
  | cons index path ih =>
    rw [addresses_cons]
    constructor
    · rintro ⟨new, h⟩
      obtain ⟨items, i, item, rfl, here, inner, -⟩ := assign_cons_eq_ok.mp h
      exact ⟨items, i, rfl, here, ih.mp ⟨item, inner⟩⟩
    · rintro ⟨items, i, rfl, here, inside⟩
      obtain ⟨item, inner⟩ := ih.mpr inside
      exact ⟨_, assign_cons_eq_ok.mpr ⟨items, i, item, rfl, here, inner, rfl⟩⟩

end Laws

def assigned (array : Value) (path : List Value) (value : Value) : Except RuntimeError Value :=
  applyOperator Operator.assign.name (array :: (path ++ [value]))

def indexed (array : Value) (path : List Value) : Except RuntimeError Value :=
  applyOperator Operator.index.name (array :: path)

section Operators

variable {path : List Value}

theorem assigned_eq (h : path ≠ []) (array value : Value) :
    assigned array path value = assign array path value := by
  have known : Operator.ofName? Operator.assign.name = some .assign := by decide
  obtain ⟨first, others, rfl⟩ := List.exists_cons_of_ne_nil h
  obtain ⟨more, rest, split⟩ := List.exists_cons_of_ne_nil (List.concat_ne_nil value others)
  rw [assigned, applyOperator, known, List.cons_append, split, Option.bind_some, Operator.result?,
    ← split, ← List.cons_append, List.dropLast_concat, List.getLastD_concat, Option.getD_some]

theorem indexed_eq (h : path ≠ []) (array : Value) : indexed array path = getPath array path := by
  have known : Operator.ofName? Operator.index.name = some .index := by decide
  obtain ⟨first, others, rfl⟩ := List.exists_cons_of_ne_nil h
  rw [indexed, applyOperator, known]
  rfl

end Operators

/-- What is assigned along a path is read back there and leaves all elements beside the path alone,
the last assignment counts, and assigning what is there changes nothing. Paths are compared by the
integers that their indices stand for. -/
theorem assigned_indexed {p q : List Value} (hp : p ≠ []) (hq : q ≠ []) (a v w : Value) :
    (∀ a', assigned a p v = .ok a' →
      indexed a' p = .ok v ∧
      (¬p.map Value.asInt? <+: q.map Value.asInt? → ¬q.map Value.asInt? <+: p.map Value.asInt? →
        indexed a' q = indexed a q) ∧
      assigned a' p w = assigned a p w) ∧
    (∀ a', indexed a p = .ok v → assigned a p v = .ok a' → a' = a) ∧
    ((∃ a', assigned a p v = .ok a') ↔ Addresses a p) := by
  simp only [assigned_eq hp, indexed_eq hp, indexed_eq hq]
  refine ⟨fun a' made => ⟨getPath_of_assign made, ?_, assign_of_assign made w⟩, ?_, exists_assign⟩
  · exact getPath_of_assign_apart made
  · exact fun a' read made => eq_of_assign_getPath read made

def ragged : Value := .array [.array [], .array [.int 5, .str "ab"]]

/-- Only the element on the path changes, also in rows of different lengths. -/
theorem assigned_indexed_ragged :
    ∃ a', assigned ragged [.int 1, .bool false] .undefined = .ok a' ∧
      indexed a' [.int 1, .bool false] = .ok .undefined ∧
      indexed a' [.int 1, .int 1, .int 0] = indexed ragged [.int 1, .int 1, .int 0] ∧
      assigned a' [.int 1, .bool false] (.int 5) = .ok ragged := by
  have named : [Value.int 1, .bool false] ≠ [] := List.cons_ne_nil _ _
  have laws := assigned_indexed named (List.cons_ne_nil (.int 1) [.int 1, .int 0]) ragged .undefined
    (.int 5)
  have made : assigned ragged [.int 1, .bool false] .undefined =
      .ok (.array [.array [], .array [.undefined, .str "ab"]]) := by
    rw [assigned_eq named]
    rfl
  have back : assigned ragged [.int 1, .bool false] (.int 5) = .ok ragged := by
    rw [assigned_eq named]
    rfl
  obtain ⟨read, others, again⟩ := laws.1 _ made
  exact ⟨_, made, read, others (by decide) (by decide), again.trans back⟩

end Arrays

end TraceRepair
