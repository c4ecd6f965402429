import TraceRepair.FlowGraph
import TraceRepair.Proofs.Lookup

namespace TraceRepair

inductive GraphEdit where
  | addLocation (loc : Option Loc) (description : String)
  | addAssignment (loc : Loc) (target : String) (e : Expr)
  | insertAssignment (loc : Loc) (place : Nat) (target : String) (e : Expr)
  | replaceBlock (loc : Loc) (block : List Assignment)
  | setEdges (loc : Loc) (onTrue onFalse : Option Loc)
  | declare (name type : String)
  | setExit (loc : Loc)
  | removeLocation (loc : Loc)
  | removeEdge (loc : Loc) (branch : Bool)

namespace GraphEdit

/-- A refusal or an answer, which is the location that was added, and the graph left behind. -/
abbrev Outcome := EStateM.Result ModelError FlowGraph (Option Loc)

def guarded (g : FlowGraph) : Except ModelError FlowGraph → Outcome
  | .ok h => .ok none h
  | .error e => .error e g

def removal (g : FlowGraph) (loc : Loc) : Outcome :=
  let emptied := { g with blocks := g.blocks.erase loc }
  if g.blocks.contains loc then
    .ok none { emptied with
      edges := g.edges.erase loc
      descriptions := g.descriptions.erase loc }
  else .error (emptied.unknownLocation loc) emptied

def perform (g : FlowGraph) : GraphEdit → Outcome
  | .addLocation loc description =>
    .ok (some (g.addLocation loc description).1) (g.addLocation loc description).2
  | .addAssignment loc target e => guarded g (g.addAssignment loc target e)
  | .insertAssignment loc place target e => guarded g (g.insertAssignment loc place target e)
  | .replaceBlock loc block => guarded g (g.replaceBlock loc block)
  | .setEdges loc onTrue onFalse => guarded g (g.setEdges loc onTrue onFalse)
  | .declare name type => .ok none (g.declare name type)
  | .setExit loc => .ok none (g.setExit loc)
  | .removeLocation loc => removal g loc
  | .removeEdge loc branch => guarded g (g.removeEdge loc branch)

/-- The locations that a sequence of edits adds, and the graph behind it. The sequence goes on when
an edit is refused. -/
def performAll (g : FlowGraph) : List GraphEdit → List Loc × FlowGraph
  | [] => ([], g)
  | edit :: later =>
    match edit.perform g with
    | .ok added h => (added.toList ++ (performAll h later).1, (performAll h later).2)
    | .error _ h => performAll h later

def site (edit : GraphEdit) (added : Option Loc) : Option Loc :=
  match edit with
  | .addLocation _ _ => added
  | .addAssignment loc _ _ | .insertAssignment loc _ _ _ | .replaceBlock loc _
  | .setEdges loc _ _ | .removeLocation loc | .removeEdge loc _ => some loc
  | .declare _ _ | .setExit _ => none

/-- Where there is no block, the table without it is the same table. -/
theorem removal_eq (g : FlowGraph) (loc : Loc) :
    removal g loc = guarded g (g.removeLocation loc) := by
  unfold removal FlowGraph.removeLocation
  by_cases there : g.blocks.contains loc = true
  · simp [there, guarded]
  · have absent : g.blocks.find? loc = none := by simpa [SortedMap.contains] using there
    simp [there, guarded, SortedMap.erase_of_absent absent]

end GraphEdit

namespace FlowGraph

def unbuilt (name : String) (params : List Parameter) (returnType : String) : FlowGraph :=
  { name, returnType, params }

structure SameAt (g h : FlowGraph) (loc : Loc) : Prop where
  block : h.blocks.find? loc = g.blocks.find? loc
  transition : h.edges.find? loc = g.edges.find? loc
  description : h.descriptions.find? loc = g.descriptions.find? loc

/-- A location of all tables or of none. -/
structure InStep (g : FlowGraph) (loc : Loc) : Prop where
  edges : g.edges.contains loc = g.blocks.contains loc
  descriptions : g.descriptions.contains loc = g.blocks.contains loc

/-- What an edit does to the name, the entry and the tables, by the location that it adds and the
one at which it takes place. -/
inductive Change (g : FlowGraph) : Option Loc → Option Loc → FlowGraph → Prop where
  | located (loc : Option Loc) (description : String) :
      Change g (some (g.addLocation loc description).1) (some (g.addLocation loc description).1)
        (g.addLocation loc description).2
  | block {loc : Loc} (there : g.blocks.contains loc = true) (block : List Assignment) :
      Change g none (some loc) { g with blocks := g.blocks.insert loc block }
  | edges {loc : Loc} (there : g.edges.contains loc = true ∨ g.descriptions.contains loc = true)
      (t : Transition) : Change g none (some loc) { g with edges := g.edges.insert loc t }
  | removed (loc : Loc) :
      Change g none (some loc) { g with
        blocks := g.blocks.erase loc
        edges := g.edges.erase loc
        descriptions := g.descriptions.erase loc }
  | aside {h : FlowGraph} (name : h.name = g.name) (entry : h.entry = g.entry)
      (blocks : h.blocks = g.blocks) (edges : h.edges = g.edges)
      (descriptions : h.descriptions = g.descriptions) : Change g none none h

variable {g h : FlowGraph} {added site : Option Loc} {loc : Loc}

section Calls

theorem change_of_editBlock {edit : List Assignment → List Assignment}
    (done : g.editBlock loc edit = .ok h) : g.Change none (some loc) h := by
  unfold editBlock at done
  split at done
  · cases done
  · rename_i block found
    cases done
    exact .block (Option.isSome_of_eq_some found) _

theorem change_of_setEdges {onTrue onFalse : Option Loc}
    (done : g.setEdges loc onTrue onFalse = .ok h) : g.Change none (some loc) h := by
  unfold setEdges at done
  split at done
  · rename_i there
    cases done
    exact .edges (.inr there) _
  · cases done

theorem change_of_removeLocation (done : g.removeLocation loc = .ok h) :
    g.Change none (some loc) h := by
  unfold removeLocation at done
  split at done
  · cases done
    exact .removed loc
  · cases done

theorem change_of_removeEdge {branch : Bool} (done : g.removeEdge loc branch = .ok h) :
    g.Change none (some loc) h := by
  unfold removeEdge at done
  split at done
  · cases done
  · rename_i t found
    cases done
    exact .edges (.inl (Option.isSome_of_eq_some found)) _

theorem change_declare (name type : String) : g.Change none none (g.declare name type) := by
  unfold declare
  split <;> exact .aside rfl rfl rfl rfl rfl

end Calls

theorem Change.name_eq (change : g.Change added site h) : h.name = g.name := by
  cases change with
  | aside name => exact name
  | located | block | edges | removed => rfl

/-- An edit touches no location but its own. -/
theorem Change.sameAt (change : g.Change added site h) (apart : site ≠ some loc) :
    g.SameAt h loc := by
  have hne : ∀ here, site = some here → loc ≠ here :=
    fun here there same => apart (there.trans (congrArg some same.symm))
  cases change with
  | located =>
    exact ⟨SortedMap.find?_insert_of_ne (hne _ rfl) _ _,
      SortedMap.find?_insert_of_ne (hne _ rfl) _ _, SortedMap.find?_insert_of_ne (hne _ rfl) _ _⟩
  | block => exact ⟨SortedMap.find?_insert_of_ne (hne _ rfl) _ _, rfl, rfl⟩
  | edges => exact ⟨rfl, SortedMap.find?_insert_of_ne (hne _ rfl) _ _, rfl⟩
  | removed =>
    exact ⟨SortedMap.find?_erase_of_ne (hne _ rfl) _, SortedMap.find?_erase_of_ne (hne _ rfl) _,
      SortedMap.find?_erase_of_ne (hne _ rfl) _⟩
  | aside _ _ blocks edges descriptions =>
    exact ⟨by rw [blocks], by rw [edges], by rw [descriptions]⟩

theorem InStep.of_contains {there : Bool} (blocks : g.blocks.contains loc = there)
    (edges : g.edges.contains loc = there) (descriptions : g.descriptions.contains loc = there) :
    g.InStep loc :=
  ⟨edges.trans blocks.symm, descriptions.trans blocks.symm⟩

/-- Whichever table an edit asks for its location, the others would have answered the same. -/
theorem Change.inStep_site (change : g.Change added (some loc) h) (inStep : g.InStep loc) :
    h.InStep loc := by
  cases change with
  | located =>
    exact .of_contains (SortedMap.contains_insert_self ..) (SortedMap.contains_insert_self ..)
      (SortedMap.contains_insert_self ..)
  | block there =>
    exact .of_contains (SortedMap.contains_insert_self ..) (inStep.edges.trans there)
      (inStep.descriptions.trans there)
  | edges there =>
    have held : g.blocks.contains loc = true :=
      there.elim inStep.edges.symm.trans inStep.descriptions.symm.trans
    exact .of_contains held (SortedMap.contains_insert_self ..) (inStep.descriptions.trans held)
  | removed =>
    exact .of_contains (SortedMap.contains_erase_self ..) (SortedMap.contains_erase_self ..)
      (SortedMap.contains_erase_self ..)

theorem InStep.of_sameAt (inStep : g.InStep loc) (same : g.SameAt h loc) : h.InStep loc := by
  constructor
  · rw [SortedMap.contains, SortedMap.contains, same.transition, same.block]
    exact inStep.edges
  · rw [SortedMap.contains, SortedMap.contains, same.description, same.block]
    exact inStep.descriptions

/-- At the site of the edit all tables change together, and elsewhere none does. -/
theorem Change.inStep (change : g.Change added site h) (inStep : ∀ loc, g.InStep loc) (loc : Loc) :
    h.InStep loc := by
  by_cases here : site = some loc
  · subst here
    exact change.inStep_site (inStep loc)
  · exact (inStep loc).of_sameAt (change.sameAt here)

theorem isOk_required {α : Type} (g : FlowGraph) (loc : Loc) (found : Option α) :
    (g.required loc found).isOk = found.isSome := by
  cases found <;> rfl

theorem isOk_edgeCount (g : FlowGraph) (loc : Loc) :
    (g.edgeCount loc).isOk = (g.transition loc).isOk := by
  unfold edgeCount
  cases g.transition loc <;> rfl

/-- A graph knows a location, or it knows nothing of it. -/
theorem InStep.isOk_eq (inStep : g.InStep loc) :
    (g.block loc).isOk = g.hasLocation loc ∧ (g.transition loc).isOk = g.hasLocation loc ∧
      (g.edgeCount loc).isOk = g.hasLocation loc ∧
      (g.description loc).isOk = g.hasLocation loc := by
  have leaves : (g.transition loc).isOk = g.hasLocation loc :=
    (g.isOk_required loc _).trans inStep.edges
  exact ⟨g.isOk_required loc _, leaves, (g.isOk_edgeCount loc).trans leaves,
    (g.isOk_required loc _).trans inStep.descriptions⟩

/-- Only an added location becomes the entry, and only in place of zero. -/
theorem Change.entry_eq (change : g.Change added site h) :
    h.entry = if g.entry = 0 then added.getD 0 else g.entry := by
  have kept : g.entry = if g.entry = 0 then 0 else g.entry := by simp
  cases change with
  | located => rfl
  | aside _ entry => exact entry.trans kept
  | block | edges | removed => exact kept

end FlowGraph

namespace GraphEdit

/-- A refused edit has changed nothing, and another one is made at its site. -/
inductive Settled (g : FlowGraph) (site : Option Loc → Option Loc) : Outcome → Prop where
  | refused (e : ModelError) : Settled g site (.error e g)
  | made {added : Option Loc} {h : FlowGraph} (change : g.Change added (site added) h) :
      Settled g site (.ok added h)

theorem settled_guarded {g : FlowGraph} {r : Except ModelError FlowGraph}
    {site : Option Loc → Option Loc} (change : ∀ h, r = .ok h → g.Change none (site none) h) :
    Settled g site (guarded g r) := by
  cases r with
  | error e => exact .refused e
  | ok h => exact .made (change h rfl)

/-- Every kind of edit, by cases. -/
theorem settled_perform (g : FlowGraph) (edit : GraphEdit) :
    Settled g edit.site (edit.perform g) := by
  unfold perform
  cases edit with
  | addLocation loc description => exact .made (.located loc description)
  | addAssignment | insertAssignment | replaceBlock =>
    exact settled_guarded fun _ => FlowGraph.change_of_editBlock
  | setEdges => exact settled_guarded fun _ => FlowGraph.change_of_setEdges
  | declare name type => exact .made (g.change_declare name type)
  | setExit => exact .made (.aside rfl rfl rfl rfl rfl)
  | removeLocation loc =>
    dsimp only
    rw [removal_eq]
    exact settled_guarded fun _ => FlowGraph.change_of_removeLocation
  | removeEdge => exact settled_guarded fun _ => FlowGraph.change_of_removeEdge

/-- By induction on the sequence, one edit after the other. -/
theorem inStep_performAll {g : FlowGraph} (inStep : ∀ loc, g.InStep loc) (edits : List GraphEdit) :
    ∀ loc, (performAll g edits).2.InStep loc := by
  induction edits generalizing g with
  | nil => exact inStep
  | cons edit later ih =>
    have settled := settled_perform g edit
    unfold performAll
    generalize edit.perform g = outcome at settled
    cases settled with
    | refused => exact ih inStep
    | made change => exact ih (change.inStep inStep)

/-- In a function that was built from nothing, whatever the edits, the tables know the same
locations, and of just these everything can be asked. One more edit changes nothing but its site, or
nothing at all when it is refused. -/
theorem performAll_unbuilt_inStep (name : String) (params : List Parameter) (returnType : String)
    (edits : List GraphEdit) :
    let g := (performAll (.unbuilt name params returnType) edits).2
    (g.edges.keys = g.blocks.keys ∧ g.descriptions.keys = g.blocks.keys) ∧
    (∀ loc, (g.block loc).isOk = g.hasLocation loc ∧ (g.transition loc).isOk = g.hasLocation loc ∧
      (g.edgeCount loc).isOk = g.hasLocation loc ∧ (g.description loc).isOk = g.hasLocation loc) ∧
    ∀ edit : GraphEdit, match edit.perform g with
      | .error _ h => h = g
      | .ok added h => ∀ loc, edit.site added ≠ some loc → g.SameAt h loc := by
  intro g
  have inStep : ∀ loc, g.InStep loc := inStep_performAll (fun _ => ⟨rfl, rfl⟩) edits
  refine ⟨⟨?_, ?_⟩, fun loc => (inStep loc).isOk_eq, fun edit => ?_⟩
  · exact SortedMap.keys_eq_of_contains fun loc => (inStep loc).edges
  · exact SortedMap.keys_eq_of_contains fun loc => (inStep loc).descriptions
  · have settled := settled_perform g edit
    generalize edit.perform g = outcome at settled
    cases settled with
    | refused => rfl
    | made change => exact fun loc => change.sameAt

def drafting : List GraphEdit :=
  [.addLocation (some 3) "start", .addAssignment 3 "x" (.constant "1" 0), .addLocation none "next",
    .setEdges 3 (some 4) none, .removeEdge 7 true, .addLocation (some 0) "last", .removeLocation 4]

/-- One of the edits is refused, and one takes a location away again. -/
theorem performAll_unbuilt_inStep_drafting :
    let g := (performAll (.unbuilt "main" [] "int") drafting).2
    g.locations = [0, 3] ∧ (∀ loc, (g.transition loc).isOk = g.hasLocation loc) ∧
      (∃ e, (removeEdge 4 true).perform g = .error e g) ∧
      ∃ h, (replaceBlock 3 []).perform g = .ok none h ∧ g.SameAt h 0 := by
  obtain ⟨-, queries, made⟩ := performAll_unbuilt_inStep "main" [] "int" drafting
  refine ⟨by decide +kernel, fun loc => (queries loc).2.1, ⟨_, rfl⟩, ⟨_, rfl, ?_⟩⟩
  exact made (replaceBlock 3 []) 0 (by decide)

/-- While the entry is zero, the next location added may become the entry. -/
theorem entry_performAll (g : FlowGraph) (edits : List GraphEdit) :
    (performAll g edits).2.entry =
      if g.entry = 0 then ((performAll g edits).1.find? (· != 0)).getD 0 else g.entry := by
  induction edits generalizing g with
  | nil => simp [performAll]
  | cons edit later ih =>
    have settled := settled_perform g edit
    unfold performAll
    generalize edit.perform g = outcome at settled
    cases settled with
    | refused => exact ih g
    | @made added h change =>
      rw [ih h, change.entry_eq]
      by_cases zero : g.entry = 0
      · cases added with
        | none => simp [zero]
        | some loc => by_cases free : loc = 0 <;> simp [zero, free]
      · simp [zero]

theorem getD_find?_eq_zero {locs : List Loc} :
    (locs.find? (· != 0)).getD 0 = 0 ↔ ∀ loc ∈ locs, loc = 0 := by
  cases found : locs.find? (· != 0) with
  | none => simpa using found
  | some loc =>
    have apart : loc ≠ 0 := by simpa using List.find?_some found
    exact ⟨fun zero => absurd zero apart, fun all => all loc (List.mem_of_find?_eq_some found)⟩

/-- The entry is the first location that was added with a number other than zero, since zero stands
for an entry that is not there yet. -/
theorem performAll_unbuilt_entry (name : String) (params : List Parameter) (returnType : String)
    (edits : List GraphEdit) :
    let built := performAll (.unbuilt name params returnType) edits
    built.2.entry = (built.1.find? (· != 0)).getD 0 ∧
      ∀ first later, built.1 = first :: later →
        (built.2.entry = first ↔ first ≠ 0 ∨ ∀ loc ∈ later, loc = 0) := by
  intro built
  have entry : built.2.entry = (built.1.find? (· != 0)).getD 0 := entry_performAll _ edits
  refine ⟨entry, fun first later added => ?_⟩
  rw [entry, added]
  by_cases zero : first = 0
  · rw [zero, List.find?_cons_of_neg (by decide), getD_find?_eq_zero]
    simp
  · simp [zero]

/-- The first location that was added stays the entry, even before one numbered zero. -/
theorem performAll_unbuilt_entry_drafting :
    let built := performAll (.unbuilt "main" [] "int") drafting
    built.1 = [3, 4, 0] ∧ built.2.entry = 3 := by
  have added : (performAll (.unbuilt "main" [] "int") drafting).1 = [3, 4, 0] := by decide +kernel
  have entry := (performAll_unbuilt_entry "main" [] "int" drafting).2 3 [4, 0] added
  exact ⟨added, entry.mpr (.inl (by decide))⟩

/-- A location of number zero that was added first loses its place to the next one. -/
theorem performAll_entry_displaced :
    let built := performAll (.unbuilt "main" [] "int")
      [.addLocation (some 0) "first", .addLocation (some 5) "second"]
    built.1 = [0, 5] ∧ built.2.entry = 5 := by
  decide +kernel

end GraphEdit

end TraceRepair
