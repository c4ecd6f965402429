import TraceRepair.Persisted.Structural
import TraceRepair.Persisted.Variable
import TraceRepair.Proofs.JsonShapes
import TraceRepair.Proofs.Primes

namespace TraceRepair

open Json

namespace Variable

/-- A variable with a line of 32 bits and a name without a prime to lose. -/
structure Plain (v : Variable) : Prop where
  line : v.line < UInt32.size
  unprimed : stripPrime? v.stored = none

instance (v : Variable) : Decidable v.Plain :=
  decidable_of_iff (v.line < UInt32.size ∧ stripPrime? v.stored = none)
    ⟨fun ⟨line, unprimed⟩ => ⟨line, unprimed⟩, fun plain => ⟨plain.line, plain.unprimed⟩⟩

/-- A prime that ends the stored name is read as the flag. -/
theorem reads_toJson {v : Variable} (fits : v.line < UInt32.size) {layout : Layout}
    (loose : layout.Loose) {depth : Nat} :
    Reads layout depth reader v.toJson ((ofOrigin v.stored v.flag).atLine v.line) := by
  have line : Reads layout (depth + 1) Reader.line (.nat v.line) v.line :=
    .natBelow fits (by decide) "u32"
  refine Reads.record (d := ⟨some v.stored, some v.flag, some v.line⟩) loose recordName _ ?_ rfl
  exact
    .cons (.once loose (.string v.stored) rfl) <|
    .cons (.once loose (.bool v.flag) rfl) <|
    .cons (.once loose line rfl) <| .nil _

theorem Plain.reads_toJson {v : Variable} (plain : v.Plain) {layout : Layout}
    (loose : layout.Loose) {depth : Nat} : Reads layout depth reader v.toJson v := by
  have read : Reads layout depth reader v.toJson _ := Variable.reads_toJson plain.line loose
  rwa [ofOrigin_stored plain.unprimed] at read

end Variable

namespace Bijection

/-- The text of a key is a whole text of its own. -/
theorem keyVariable_toJson {v : Variable} (plain : v.Plain) (rest : List Char) :
    keyVariable v.toJson.compact rest = .ok (v, rest) := by
  have read : Variable.reader.run v.toJson.compact = .ok v :=
    (plain.reads_toJson Layout.loose_compact).run
  unfold keyVariable
  rw [read]

/-- A bijection holds nothing but its entries. -/
theorem eq_of_entries {b c : Bijection} (h : b.entries = c.entries) : b = c := by
  cases b
  cases c
  congr

/-- The names under which pairs stand are those of their reference variables. -/
theorem ofPairs_pairs (b : Bijection) : ofPairs b.pairs = b := by
  have named : (b.pairs.map fun p => (p.1.unprimedName, p)) = b.entries.entries := by
    rw [pairs, SortedMap.values, List.map_map]
    refine (List.map_congr_left fun e he => ?_).trans (List.map_id _)
    exact Prod.ext (b.keyed e he) rfl
  apply eq_of_entries
  rw [entries_ofPairs, named, SortedMap.ofList_entries]

variable {layout : Layout} (loose : layout.Loose) {depth : Nat}
include loose

theorem reads_toJson {b : Bijection} (plain : ∀ p ∈ b.pairs, p.1.Plain ∧ p.2.Plain) :
    Reads layout depth reader b.toJson b where
  starts := ⟨_, _, text_object layout depth _, rfl⟩
  reads {blanks rest} hb _ := by
    have chain : Brackets.object.Chain
        (fun taken => do
          let text ← Reader.key
          Reader.colon
          let submission ← Variable.reader
          return (← keyVariable text, submission) :: taken)
        [] ((b.pairs.map fun p => (p.1.toJson.compact, p.2.toJson)).map
          (memberText layout (depth + 1))) (b.pairs.reverse ++ []) := by
      rw [List.map_map]
      refine Brackets.chain_gathered (fun p _ => begins_member _) ?_ []
      intro p hp taken rest hr
      -- A key is read as a text, and as a variable once its counterpart has been read.
      obtain ⟨key, value⟩ := plain p hp
      rw [memberText, List.append_assoc, List.append_assoc, Reader.bind_ok (key_quoted _ _),
        behind_key loose fun hb => (value.reads_toJson loose).reads hb hr,
        Reader.bind_ok (keyVariable_toJson key _)]
      rfl
    rw [toJson, text_object, List.cons_append]
    refine (opened_ok rfl _ _ hb _).trans ?_
    rw [Reader.bind_ok (Brackets.items_object loose chain rest), List.append_nil,
      List.reverse_reverse, ofPairs_pairs]
    rfl

end Bijection

namespace VariableMapping

def mentioned (m : VariableMapping) : List Variable :=
  m.functions.values.flatten.flatMap fun b => b.pairs.flatMap fun p => [p.1, p.2]

theorem reads_toJson {layout : Layout} (loose : layout.Loose) {depth : Nat} {m : VariableMapping}
    (plain : ∀ v ∈ m.mentioned, v.Plain) : Reads layout depth reader m.toJson m := by
  have functions : Reads layout depth (Reader.map (Reader.list Bijection.reader))
      (m.functions.toJson fun bs => .array (bs.map Bijection.toJson)) m.functions := by
    refine .sortedMap loose fun e he => .list loose fun b hb => Bijection.reads_toJson loose ?_
    intro p hp
    have member : ∀ v ∈ [p.1, p.2], v ∈ m.mentioned := fun v hv =>
      List.mem_flatMap_of_mem (List.mem_flatten_of_mem (List.mem_map_of_mem he) hb)
        (List.mem_flatMap_of_mem hp hv)
    exact ⟨plain _ (member _ (by simp)), plain _ (member _ (by simp))⟩
  exact functions.map VariableMapping.mk

end VariableMapping

namespace StructuralMapping

def mentioned (m : StructuralMapping) : List Loc :=
  m.functions.values.flatMap fun l => l.keys ++ l.values

theorem reads_toJson {layout : Layout} (loose : layout.Loose) {depth : Nat} {m : StructuralMapping}
    (fits : ∀ loc ∈ m.mentioned, loc < UInt64.size) : Reads layout depth reader m.toJson m := by
  have functions : Reads layout depth (Reader.map (Reader.locMap Reader.loc))
      (m.functions.toJson fun l => l.toJsonByLoc .nat) m.functions := by
    refine .sortedMap loose fun e he => ?_
    have member : ∀ loc ∈ e.2.keys ++ e.2.values, loc ∈ m.mentioned := fun loc hloc =>
      List.mem_flatMap_of_mem (List.mem_map_of_mem he) hloc
    refine .locMap loose (fun place hplace => fits _ (member _ ?_)) fun place hplace =>
      .loc (fits _ (member _ ?_))
    · exact List.mem_append_left _ (List.mem_map_of_mem hplace)
    · exact List.mem_append_right _ (List.mem_map_of_mem hplace)
  exact functions.map StructuralMapping.mk

end StructuralMapping

/-- The texts of both kinds of mapping hold all of it. Locations have 64 bits. -/
theorem run_toJson_mappings {structural : StructuralMapping} {pairing : VariableMapping}
    (fits : ∀ loc ∈ structural.mentioned, loc < UInt64.size)
    (plain : ∀ v ∈ pairing.mentioned, v.Plain) :
    StructuralMapping.reader.run structural.toJson.compact = .ok structural ∧
      VariableMapping.reader.run pairing.toJson.compact = .ok pairing :=
  ⟨(StructuralMapping.reads_toJson Layout.loose_compact fits).run,
    (VariableMapping.reads_toJson Layout.loose_compact plain).run⟩

def escapedMapping : VariableMapping :=
  VariableMapping.empty.put "main"
    [.ofPairs [(⟨"x", true, 3⟩, ⟨"\"a\\b\"", false, 4⟩), (⟨"\"été\n", false, 0⟩, ⟨"y", true, 7⟩)],
      .ofPairs [(⟨"x", false, 1⟩, ⟨"x", false, 2⟩)]]

/-- Names with a quote and a line break, which the text has to escape. -/
theorem run_toJson_mappings_escaped :
    (∀ v ∈ escapedMapping.mentioned, v.Plain) ∧
      StructuralMapping.reader.run ((StructuralMapping.empty.insert "main" 1 2).toJson.compact) =
        .ok (StructuralMapping.empty.insert "main" 1 2) ∧
      VariableMapping.reader.run escapedMapping.toJson.compact = .ok escapedMapping := by
  have fits : ∀ loc ∈ (StructuralMapping.empty.insert "main" 1 2).mentioned, loc < UInt64.size := by
    decide +kernel
  have plain : ∀ v ∈ escapedMapping.mentioned, v.Plain := by decide +kernel
  exact ⟨plain, run_toJson_mappings fits plain⟩

end TraceRepair
