import TraceRepair.Proofs.GraphEdits
import TraceRepair.Proofs.Results
import TraceRepair.Proofs.StoredProgram

namespace TraceRepair.FlowGraph

variable {g : FlowGraph}

/-- A number that is not among those of the edges. -/
theorem lt_freshLocation {loc : Loc} (member : loc ∈ g.edges.keys) : loc < g.freshLocation := by
  unfold freshLocation
  cases found : g.edges.lastKey? with
  | none =>
    rw [SortedMap.lastKey?, Option.map_eq_none_iff, List.getLast?_eq_none_iff] at found
    rw [SortedMap.keys, found] at member
    cases member
  | some last =>
    obtain ⟨-, greatest⟩ := SortedMap.lastKey?_greatest found
    change loc < last + 1
    rcases greatest loc member with rfl | before
    · exact Nat.lt_succ_self loc
    · exact Nat.lt_succ_of_lt (Nat.compare_eq_lt.mp before)

/-- Where no location has the last number of 64 bits, the number that comes next has 64 bits. -/
theorem freshLocation_lt (fits : ∀ loc ∈ g.edges.keys, loc < UInt64.size - 1) :
    g.freshLocation < UInt64.size := by
  unfold freshLocation
  cases found : g.edges.lastKey? with
  | none => decide
  | some last =>
    exact Nat.add_lt_of_lt_sub (fits last (SortedMap.lastKey?_greatest found).1)

/-- No block lies beyond the last location with edges. -/
def EdgesReach (g : FlowGraph) : Prop := ∀ loc ∈ g.blocks.keys, ∃ far ∈ g.edges.keys, loc ≤ far

theorem EdgesReach.hasLocation_freshLocation (reach : g.EdgesReach) :
    g.hasLocation g.freshLocation = false := by
  by_contra there
  have member : g.freshLocation ∈ g.blocks.keys :=
    SortedMap.find?_isSome_iff.mp (Bool.of_not_eq_false there)
  obtain ⟨far, edges, le⟩ := reach _ member
  exact Nat.lt_irrefl _ (Nat.lt_of_le_of_lt le (lt_freshLocation edges))

def Drafted (g : FlowGraph) : Prop :=
  ∃ name params returnType edits,
    (GraphEdit.performAll (.unbuilt name params returnType) edits).2 = g

/-- Edits give each block its edges. -/
theorem Drafted.edgesReach (drafted : g.Drafted) : g.EdgesReach := by
  obtain ⟨name, params, returnType, edits, rfl⟩ := drafted
  have inStep := GraphEdit.inStep_performAll (g := .unbuilt name params returnType)
    (fun _ => ⟨rfl, rfl⟩) edits
  have keys := SortedMap.keys_eq_of_contains fun loc => (inStep loc).edges
  exact fun loc member => ⟨loc, keys ▸ member, Nat.le_refl loc⟩

/-- The new location is entered into all tables, under its own number only. -/
theorem sameAt_addLocation (g : FlowGraph) (at? : Option Loc) (description : String) {loc : Loc}
    (apart : loc ≠ (g.addLocation at? description).1) :
    g.SameAt (g.addLocation at? description).2 loc :=
  (Change.located at? description).sameAt fun same => apart (Option.some.inj same).symm

/-- The number is a location number, and no other location changes. It is a new one where no block
lies beyond the last location with edges, as in every graph that is put together edit by edit. -/
theorem addLocation_numbered (g : FlowGraph) (description : String)
    (fits : ∀ loc ∈ g.edges.keys, loc < UInt64.size - 1) :
    let added := g.addLocation none description
    (added.1 < UInt64.size ∧ ∀ loc ≠ added.1, g.SameAt added.2 loc) ∧
      (g.EdgesReach → g.hasLocation added.1 = false ∧
        ∀ loc, g.hasLocation loc = true → g.SameAt added.2 loc) ∧
      (g.Drafted → g.EdgesReach) := by
  refine ⟨⟨freshLocation_lt fits, fun _ => g.sameAt_addLocation none description⟩, ?_, ?_⟩
  · intro reach
    have free : g.hasLocation g.freshLocation = false := reach.hasLocation_freshLocation
    refine ⟨free, fun loc there => g.sameAt_addLocation none description ?_⟩
    rintro rfl
    exact Bool.false_ne_true (free.symm.trans there)
  · exact Drafted.edgesReach

def uneven : FlowGraph :=
  { FlowGraph.unbuilt "main" [] "int" with
    blocks := .ofList [(1, []), (4, [("x", .constant "1" 0)])]
    edges := .ofList [(2, ⟨some 4, none⟩), (6, {})]
    descriptions := .ofList [(7, "seven")] }

/-- The number comes behind the edges of a location without a block. -/
theorem addLocation_numbered_uneven :
    (uneven.addLocation none "next").1 = 7 ∧ uneven.hasLocation 7 = false ∧
      uneven.SameAt (uneven.addLocation none "next").2 4 := by
  have fits : ∀ loc ∈ uneven.edges.keys, loc < UInt64.size - 1 := by decide +kernel
  have reach : uneven.EdgesReach := by
    unfold EdgesReach
    decide +kernel
  obtain ⟨free, same⟩ := (addLocation_numbered uneven "next" fits).2.1 reach
  have seven : (uneven.addLocation none "next").1 = 7 := by decide +kernel
  rw [seven] at free
  exact ⟨seven, free, same 4 (by decide +kernel)⟩

def edgeless : String :=
  "\x7b\"name\":\"main\",\"rettype\":\"int\",\"initloc\":1,\"locexprs\":" ++
    "\x7b\"1\":[[\"x\",\x7b\"tokentype\":\"Constant\",\"value\":\"1\"\x7d]]\x7d\x7d"

/-- The only block has no edges, and is replaced by the new one. -/
theorem addLocation_overwrites :
    ∃ g, reader.run edgeless = .ok g ∧ (∀ loc ∈ g.mentioned, loc < UInt64.size - 1) ∧
      (g.addLocation none "next").1 = 1 ∧ g.hasLocation 1 = true ∧
      ¬ g.SameAt (g.addLocation none "next").2 1 := by
  have seen : (reader.run edgeless).toOption.map (fun g =>
      (decide (∀ loc ∈ g.mentioned, loc < UInt64.size - 1), (g.addLocation none "next").1,
        (g.blocks.find? 1).map List.length,
        ((g.addLocation none "next").2.blocks.find? 1).map List.length)) =
      some (true, 1, some 1, some 0) := by decide +kernel
  obtain ⟨g, read, outline⟩ := Except.ok_of_seen seen
  simp only [Prod.mk.injEq] at outline
  obtain ⟨fits, added, before, after⟩ := outline
  obtain ⟨block, found, -⟩ := Option.map_eq_some_iff.mp before
  refine ⟨g, read, of_decide_eq_true fits, added, Option.isSome_of_eq_some found, fun same => ?_⟩
  rw [same.block, before] at after
  cases after

end TraceRepair.FlowGraph
