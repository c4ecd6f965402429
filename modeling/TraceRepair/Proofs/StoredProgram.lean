import TraceRepair.Proofs.StoredExpr

namespace TraceRepair

open Json

namespace Transition

variable {layout : Layout} {depth : Nat}

def targets (t : Transition) : List Loc := t.onTrue.toList ++ t.onFalse.toList

theorem reads_edge {edge : Option Loc} (h : ∀ loc ∈ edge, loc < UInt64.size) :
    Reads layout depth (Reader.option Reader.loc) (edgeJson edge) edge := by
  cases edge with
  | none => exact .none Reader.loc
  | some loc =>
    have first : ((Json.nat loc).text layout depth).head? ≠ some 'n' := by
      obtain ⟨d, ds, hds, digit⟩ := digits_cons loc
      rw [text_nat, hds]
      exact fun letter => ne_of_isDigit digit rfl (Option.some.inj letter)
    exact .some (.loc (h loc rfl)) first

theorem reads_toJson (loose : layout.Loose) {t : Transition}
    (h : ∀ loc ∈ t.targets, loc < UInt64.size) : Reads layout depth reader t.toJson t := by
  have hTrue : ∀ loc ∈ t.onTrue, loc < UInt64.size := fun loc hloc =>
    h loc (List.mem_append_left _ (Option.mem_toList.mpr hloc))
  have hFalse : ∀ loc ∈ t.onFalse, loc < UInt64.size := fun loc hloc =>
    h loc (List.mem_append_right _ (Option.mem_toList.mpr hloc))
  have fields : ReadsFields layout (depth + 1) Draft.field {}
      [("true", edgeJson t.onTrue), ("false", edgeJson t.onFalse)]
      ⟨some t.onTrue, some t.onFalse⟩ :=
    .cons (.once loose (reads_edge hTrue) rfl) <|
    .cons (.once loose (reads_edge hFalse) rfl) <| .nil _
  exact .record loose "Transition" _ fields rfl

end Transition

namespace FlowGraph

def mentioned (g : FlowGraph) : List Loc :=
  [g.entry, g.exit] ++ g.blocks.keys ++ g.edges.keys ++ g.edges.values.flatMap Transition.targets
    ++ g.descriptions.keys

def exprs (g : FlowGraph) : List Expr := g.blocks.values.flatten.map (·.2)

/-- Every number has the width its reader asks for: locations 64 bits, lines 32. -/
structure Fits (g : FlowGraph) : Prop where
  locs : ∀ loc ∈ g.mentioned, loc < UInt64.size
  lines : ∀ e ∈ g.exprs, ∀ line ∈ e.lines, line < UInt32.size

instance (g : FlowGraph) : Decidable g.Fits :=
  decidable_of_iff
    ((∀ loc ∈ g.mentioned, loc < UInt64.size) ∧
      ∀ e ∈ g.exprs, ∀ line ∈ e.lines, line < UInt32.size)
    ⟨fun ⟨locs, lines⟩ => ⟨locs, lines⟩, fun fits => ⟨fits.locs, fits.lines⟩⟩

variable {layout : Layout} (loose : layout.Loose) {depth : Nat}
include loose

theorem reads_param (p : Parameter) :
    Reads layout depth paramReader (pairJson p.type p.name) p :=
  (Reads.pair loose (.string p.type) (.string p.name)).map fun q : String × String =>
    Parameter.mk q.1 q.2

/-- The assignments of a block, each a pair of a variable and an expression. -/
theorem reads_block {block : List Assignment}
    (hlines : ∀ a ∈ block, ∀ line ∈ a.2.lines, line < UInt32.size)
    (unprimed : ∀ a ∈ block, ∀ v ∈ a.2.occurrences, stripPrime? v.stored = none) :
    Reads layout depth blockReader (blockJson block) block :=
  .list loose fun a ha =>
    .pair loose (.string a.1) (a.2.reads_toJson loose (hlines a ha) (unprimed a ha))

omit loose in
theorem mem_exprs {g : FlowGraph} {e : Loc × List Assignment} (he : e ∈ g.blocks.entries)
    {a : Assignment} (ha : a ∈ e.2) : a.2 ∈ g.exprs :=
  List.mem_map_of_mem (List.mem_flatten_of_mem (List.mem_map_of_mem he) ha)

theorem reads_toJson {g : FlowGraph} (fits : g.Fits)
    (unprimed : ∀ e ∈ g.exprs, ∀ v ∈ e.occurrences, stripPrime? v.stored = none) :
    Reads layout depth reader g.toJson g := by
  have locs := fits.locs
  simp only [mentioned, List.forall_mem_append, List.forall_mem_cons] at locs
  obtain ⟨⟨⟨⟨⟨hentry, hexit, -⟩, hblocks⟩, hedges⟩, htargets⟩, hdescriptions⟩ := locs
  have params : Reads layout (depth + 1) (Reader.list paramReader)
      (.array (g.params.map fun p => pairJson p.type p.name)) g.params :=
    .list loose fun p _ => reads_param loose p
  have blocks : Reads layout (depth + 1) (Reader.locMap blockReader)
      (g.blocks.toJsonByLoc blockJson) g.blocks :=
    .locMap loose (fun e he => hblocks _ (List.mem_map_of_mem he)) fun e he =>
      reads_block loose (fun a ha => fits.lines _ (mem_exprs he ha))
        (fun a ha => unprimed _ (mem_exprs he ha))
  have edges : Reads layout (depth + 1) (Reader.locMap Transition.reader)
      (g.edges.toJsonByLoc Transition.toJson) g.edges :=
    .locMap loose (fun e he => hedges _ (List.mem_map_of_mem he)) fun e he =>
      Transition.reads_toJson loose fun loc hloc =>
        htargets loc (List.mem_flatMap_of_mem (List.mem_map_of_mem he) hloc)
  have descriptions : Reads layout (depth + 1) (Reader.locMap Reader.string)
      (g.descriptions.toJsonByLoc .string) g.descriptions :=
    .locMap loose (fun e he => hdescriptions _ (List.mem_map_of_mem he)) fun e _ => .string e.2
  have types : Reads layout (depth + 1) (Reader.map Reader.string) (g.types.toJson .string)
      g.types :=
    .sortedMap loose fun e _ => .string e.2
  refine Reads.record (d := ⟨some g.name, some g.returnType, some g.entry, some g.exit,
    some g.params, some g.blocks, some g.edges, some g.descriptions, some g.types⟩)
    loose "Function" _ ?_ rfl
  exact
    .cons (.once loose (.string g.name) rfl) <|
    .cons (.once loose (.string g.returnType) rfl) <|
    .cons (.once loose (.loc hentry) rfl) <|
    .cons (.once loose (.loc hexit) rfl) <|
    .cons (.once loose params rfl) <|
    .cons (.once loose blocks rfl) <|
    .cons (.once loose edges rfl) <|
    .cons (.once loose descriptions rfl) <|
    .cons (.once loose types rfl) <| .nil _

end FlowGraph

namespace Program

def graphs (p : Program) : List FlowGraph :=
  p.functions.values ++ p.metadata.values ++ p.warnings.values ++ p.loops.values

def Fits (p : Program) : Prop := ∀ g ∈ p.graphs, g.Fits

def occurrences (p : Program) : List Variable :=
  p.graphs.flatMap fun g => g.exprs.flatMap Expr.occurrences

section Reading

variable {layout : Layout} (loose : layout.Loose) {depth : Nat}
include loose

theorem reads_section {functions : SortedMap String FlowGraph}
    (fits : ∀ g ∈ functions.values, g.Fits)
    (unprimed : ∀ g ∈ functions.values, ∀ e ∈ g.exprs, ∀ v ∈ e.occurrences,
      stripPrime? v.stored = none) :
    Reads layout depth sectionReader (sectionJson functions) functions :=
  .sortedMap loose fun e he =>
    have hmem : e.2 ∈ functions.values := List.mem_map_of_mem he
    FlowGraph.reads_toJson loose (fits _ hmem) (unprimed _ hmem)

omit loose in
theorem reads_tag : Reads layout depth tagReader (.string tagName) () where
  starts := ⟨_, _, rfl, rfl⟩
  reads {blanks rest} hb hr := by
    have named : Reads layout depth tagNameReader (.string tagName) () :=
      (Reads.stringAs _ tagName).checked (if_pos rfl)
    have read := named.here hr
    rw [text_string, quoted_append] at read ⊢
    unfold tagReader
    rw [Reader.bind_ok (Reader.peek_blank hb rfl _)]
    exact read

theorem reads_toJson {p : Program} (fits : p.Fits)
    (unprimed : ∀ v ∈ p.occurrences, stripPrime? v.stored = none) :
    Reads layout depth reader p.toJson p := by
  have names : ∀ g ∈ p.graphs, ∀ e ∈ g.exprs, ∀ v ∈ e.occurrences, stripPrime? v.stored = none :=
    fun g hg e he v hv =>
      unprimed v (List.mem_flatMap_of_mem hg (List.mem_flatMap_of_mem he hv))
  simp only [Fits, graphs, List.forall_mem_append] at fits names
  obtain ⟨⟨⟨fitsFunctions, fitsMetadata⟩, fitsWarnings⟩, fitsLoops⟩ := fits
  obtain ⟨⟨⟨namesFunctions, namesMetadata⟩, namesWarnings⟩, namesLoops⟩ := names
  have imports : Reads layout (depth + 1) (Reader.list Reader.string) (.strings p.imports)
      p.imports :=
    .list loose fun s _ => .string s
  refine Reads.record (d := ⟨some p.imports, some p.functions, some p.metadata, some p.warnings,
    some p.loops, some ()⟩) loose "Program" _ ?_ rfl
  exact
    .cons (.once loose imports rfl) <|
    .cons (.once loose (reads_section loose fitsFunctions namesFunctions) rfl) <|
    .cons (.once loose (reads_section loose fitsMetadata namesMetadata) rfl) <|
    .cons (.once loose (reads_section loose fitsWarnings namesWarnings) rfl) <|
    .cons (.once loose (reads_section loose fitsLoops namesLoops) rfl) <|
    .cons (.once loose reads_tag rfl) <| .nil _

end Reading

/-- Both texts of a program hold all of it. A name that ends in a prime would lose it. -/
theorem ofText_toJson {p : Program} (fits : p.Fits)
    (unprimed : ∀ v ∈ p.occurrences, stripPrime? v.stored = none) :
    ofText p.toJson.compact = .ok p ∧ ofText p.toJson.pretty = .ok p :=
  ⟨(reads_toJson Layout.loose_compact fits unprimed).run,
    (reads_toJson Layout.loose_pretty fits unprimed).run⟩

def annotated : Program :=
  let sum : Expr := .operation "+" [.variable ⟨"x", true, 3⟩, .constant "\"\t\"" 4] 3
  let main : FlowGraph :=
    { name := "main", returnType := "int", entry := 1, exit := 2, params := [⟨"int", "x"⟩]
      blocks := SortedMap.ofList [(1, [("y", sum)]), (2, [])]
      edges := SortedMap.ofList [(1, { onTrue := some 2 }), (2, {})]
      descriptions := SortedMap.ofList [(1, "début")]
      types := SortedMap.ofList [("x", "int")] }
  { imports := ["import math"], functions := SortedMap.ofList [("main", main)]
    loops := SortedMap.ofList [("main_1", main)] }

/-- Line numbers, a graph among the loops, and texts that JSON has to escape. -/
theorem ofText_toJson_annotated :
    annotated.Fits ∧ (∀ v ∈ annotated.occurrences, stripPrime? v.stored = none) ∧
      ofText annotated.toJson.compact = .ok annotated ∧
      ofText annotated.toJson.pretty = .ok annotated := by
  have fits : annotated.Fits := by
    unfold Fits
    decide +kernel
  have unprimed : ∀ v ∈ annotated.occurrences, stripPrime? v.stored = none := by decide +kernel
  exact ⟨fits, unprimed, ofText_toJson fits unprimed⟩

end Program

end TraceRepair
