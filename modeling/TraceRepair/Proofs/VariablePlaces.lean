import Mathlib.Data.List.Basic
import TraceRepair.Expr

namespace TraceRepair.Expr

/-- The node at a path, which numbers the arguments on its way. -/
def nodeAt? : Expr → List Nat → Option Expr
  | e, [] => some e
  | .operation _ args _, i :: path => args[i]?.bind fun a => a.nodeAt? path
  | _, _ :: _ => none

/-- How many occurrences of variables stand to the left of a path. -/
def leftOf : Expr → List Nat → Nat
  | .operation _ args _, i :: path =>
    (occurrencesAll (args.take i)).length + args[i]?.elim 0 fun a => a.leftOf path
  | _, _ => 0

/-- One tree is the other with expressions in the places of its variables, each in that of the
occurrence with its number. Constants stay, and operations keep their name, their line and the
number of their arguments. -/
structure Refills (e : Expr) (es : List Expr) (e' : Expr) : Prop where
  length_eq : es.length = e.occurrences.length
  constant : ∀ path text line, e.nodeAt? path = some (.constant text line) →
    e'.nodeAt? path = some (.constant text line)
  occurrence : ∀ path v, e.nodeAt? path = some (.variable v) →
    e.occurrences[e.leftOf path]? = some v ∧ e'.nodeAt? path = es[e.leftOf path]?
  operation : ∀ path name args line, e.nodeAt? path = some (.operation name args line) →
    ∃ args', e'.nodeAt? path = some (.operation name args' line) ∧ args'.length = args.length

mutual

def fill : Expr → List Expr → Expr
  | .constant text line, _ => .constant text line
  | .variable v, es => es.headD (.variable v)
  | .operation name args line, es => .operation name (fillAll args es) line

def fillAll : List Expr → List Expr → List Expr
  | [], _ => []
  | a :: as, es =>
    a.fill (es.take a.occurrences.length) :: fillAll as (es.drop a.occurrences.length)

end

section Arguments

variable {as es : List Expr} {i : Nat}

theorem occurrencesAll_eq_flatMap (as : List Expr) :
    occurrencesAll as = as.flatMap occurrences := by
  induction as with
  | nil => rfl
  | cons a as ih => rw [occurrencesAll, ih, List.flatMap_cons]

/-- The occurrences of one argument stand between those of the arguments around it. -/
theorem occurrencesAll_split {a : Expr} (h : as[i]? = some a) :
    occurrencesAll as = occurrencesAll (as.take i) ++
      (a.occurrences ++ occurrencesAll (as.drop (i + 1))) := by
  obtain ⟨inside, rfl⟩ := List.getElem?_eq_some_iff.mp h
  conv_lhs => rw [← List.take_append_drop i as, List.drop_eq_getElem_cons inside]
  simp only [occurrencesAll_eq_flatMap, List.flatMap_append, List.flatMap_cons]

theorem length_fillAll (as es : List Expr) : (fillAll as es).length = as.length := by
  induction as generalizing es with
  | nil => rfl
  | cons a as ih => rw [fillAll, List.length_cons, List.length_cons, ih]

theorem getElem?_fillAll (as es : List Expr) (i : Nat) :
    (fillAll as es)[i]? = as[i]?.map fun a =>
      a.fill ((es.drop (occurrencesAll (as.take i)).length).take a.occurrences.length) := by
  induction as generalizing es i with
  | nil => rfl
  | cons a as ih =>
    cases i with
    | zero => simp [fillAll, occurrencesAll]
    | succ i =>
      rw [fillAll, List.getElem?_cons_succ, List.getElem?_cons_succ, ih]
      simp only [List.take_succ_cons, occurrencesAll, List.length_append, List.drop_drop]

end Arguments

section Paths

variable {e e' e'' node : Expr} {path : List Nat} {es : List Expr}

theorem leftOf_nil (e : Expr) : e.leftOf [] = 0 := by cases e <;> rfl

theorem nodeAt?_operation {name : String} {args : List Expr} {line i : Nat} (h : i < args.length)
    (path : List Nat) :
    (operation name args line).nodeAt? (i :: path) = args[i].nodeAt? path := by
  rw [nodeAt?, List.getElem?_eq_getElem h, Option.bind_some]

theorem nodeAt?_cons {i : Nat} (h : e.nodeAt? (i :: path) = some node) :
    ∃ name args line a, e = .operation name args line ∧ args[i]? = some a ∧
      a.nodeAt? path = some node := by
  cases e with
  | operation name args line =>
    obtain ⟨a, ha, h⟩ := Option.bind_eq_some_iff.mp h
    exact ⟨name, args, line, a, rfl, ha, h⟩
  | constant => cases h
  | «variable» => cases h

/-- The occurrences in a node are in a row, behind those to its left. -/
theorem exists_occurrences (h : e.nodeAt? path = some node) :
    ∃ before after, e.occurrences = before ++ (node.occurrences ++ after) ∧
      before.length = e.leftOf path := by
  induction path generalizing e with
  | nil =>
    obtain rfl := Option.some.inj h
    exact ⟨[], [], (List.append_nil _).symm, (leftOf_nil e).symm⟩
  | cons i path ih =>
    obtain ⟨name, args, line, a, rfl, ha, h⟩ := nodeAt?_cons h
    obtain ⟨before, after, inside, left⟩ := ih h
    refine ⟨occurrencesAll (args.take i) ++ before, after ++ occurrencesAll (args.drop (i + 1)),
      ?_, ?_⟩
    · rw [occurrences, occurrencesAll_split ha, inside]
      simp only [List.append_assoc]
    · rw [leftOf, ha, List.length_append, left]
      rfl

/-- A node and all that is left of it lie within the tree. -/
theorem leftOf_add_le (h : e.nodeAt? path = some node) :
    e.leftOf path + node.occurrences.length ≤ e.occurrences.length := by
  obtain ⟨before, after, whole, left⟩ := exists_occurrences h
  rw [whole, ← left, List.length_append, List.length_append]
  omega

/-- A node is filled with its own part of the row. -/
theorem nodeAt?_fill (fits : es.length = e.occurrences.length) (h : e.nodeAt? path = some node) :
    (e.fill es).nodeAt? path =
      some (node.fill ((es.drop (e.leftOf path)).take node.occurrences.length)) := by
  induction path generalizing e es with
  | nil =>
    obtain rfl := Option.some.inj h
    rw [nodeAt?, leftOf_nil, List.drop_zero, List.take_of_length_le (Nat.le_of_eq fits)]
  | cons i path ih =>
    obtain ⟨name, args, line, a, rfl, ha, h⟩ := nodeAt?_cons h
    have inside := leftOf_add_le h
    -- The part of the argument is as long as the argument has occurrences.
    have share : ((es.drop (occurrencesAll (args.take i)).length).take
        a.occurrences.length).length = a.occurrences.length := by
      rw [occurrences, occurrencesAll_split ha, List.length_append, List.length_append] at fits
      rw [List.length_take, List.length_drop]
      omega
    rw [fill, nodeAt?, getElem?_fillAll, ha, Option.map_some, Option.bind_some, ih share h, leftOf,
      ha, Option.elim_some, List.drop_take, List.take_take, List.drop_drop, Nat.min_eq_left]
    omega

theorem refills_fill (fits : es.length = e.occurrences.length) : e.Refills es (e.fill es) where
  length_eq := fits
  constant _ _ _ h := nodeAt?_fill fits h
  occurrence path v h := by
    obtain ⟨before, after, whole, left⟩ := exists_occurrences h
    have inside : e.leftOf path < es.length := fits ▸ leftOf_add_le h
    refine ⟨?_, (nodeAt?_fill fits h).trans ?_⟩
    · rw [whole, ← left, List.getElem?_append_right (Nat.le_refl _), Nat.sub_self]
      rfl
    · rw [List.drop_eq_getElem_cons inside, List.getElem?_eq_getElem inside]
      rfl
  operation _ _ _ _ h := ⟨_, nodeAt?_fill fits h, length_fillAll _ _⟩

/-- Two trees over a third that carry its operations and agree at its leaves are one. -/
theorem eq_of_nodes {e e' e'' : Expr}
    (leaves : ∀ path leaf, e.nodeAt? path = some leaf → leaf.operator? = none →
      e'.nodeAt? path = e''.nodeAt? path)
    (operations : ∀ path name args line, e.nodeAt? path = some (.operation name args line) →
      ∃ args' args'', e'.nodeAt? path = some (.operation name args' line) ∧
        e''.nodeAt? path = some (.operation name args'' line) ∧
        args'.length = args.length ∧ args''.length = args.length) :
    e' = e'' := by
  match e with
  | .constant _ _ => exact Option.some.inj (leaves [] _ rfl rfl)
  | .variable _ => exact Option.some.inj (leaves [] _ rfl rfl)
  | .operation name args line =>
    obtain ⟨args', args'', h', h'', length', length''⟩ := operations [] name args line rfl
    obtain rfl := Option.some.inj h'
    obtain rfl := Option.some.inj h''
    congr 1
    -- What is known of the paths that begin with `i` is known of the arguments with that number.
    refine List.ext_getElem (length'.trans length''.symm) fun i inside' inside'' => ?_
    have inside : i < args.length := length' ▸ inside'
    have smaller := List.sizeOf_lt_of_mem (List.getElem_mem inside)
    refine eq_of_nodes (e := args[i]) (fun path leaf h => ?_) fun path f as l h => ?_
    · rw [← nodeAt?_operation inside] at h
      rw [← nodeAt?_operation inside', ← nodeAt?_operation inside'']
      exact leaves (i :: path) leaf h
    · rw [← nodeAt?_operation inside] at h
      rw [← nodeAt?_operation inside', ← nodeAt?_operation inside'']
      exact operations (i :: path) f as l h
termination_by e
decreasing_by
  simp only [operation.sizeOf_spec]
  omega

/-- The occurrences and the shape leave one tree only. -/
theorem Refills.unique (h' : e.Refills es e') (h'' : e.Refills es e'') : e' = e'' := by
  refine eq_of_nodes (e := e) (fun path leaf h bare => ?_) fun path name args line h => ?_
  · cases leaf with
    | constant text line => rw [h'.constant path text line h, h''.constant path text line h]
    | «variable» v => rw [(h'.occurrence path v h).2, (h''.occurrence path v h).2]
    | operation => cases bare
  · obtain ⟨args', same', length'⟩ := h'.operation path name args line h
    obtain ⟨args'', same'', length''⟩ := h''.operation path name args line h
    exact ⟨args', args'', same', same'', length', length''⟩

theorem refills_iff : e.Refills es e' ↔ es.length = e.occurrences.length ∧ e.fill es = e' := by
  constructor
  · intro h
    exact ⟨h.length_eq, (refills_fill h.length_eq).unique h⟩
  · rintro ⟨fits, rfl⟩
    exact refills_fill fits

end Paths

end TraceRepair.Expr
