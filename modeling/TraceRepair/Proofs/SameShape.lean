import TraceRepair.Alignment
import TraceRepair.Proofs.Renaming
import TraceRepair.Proofs.Results

namespace TraceRepair

namespace FlowGraph

/-- The same locations, each with edges on both sides, and with the same. -/
structure SameShape (g h : FlowGraph) : Prop where
  locations : ∀ loc, g.hasLocation loc = h.hasLocation loc
  edges : ∀ loc, g.hasLocation loc = true → ∃ t, g.transition loc = .ok t ∧ h.transition loc = .ok t

variable {g h : FlowGraph}

theorem mem_locations {loc : Loc} : loc ∈ g.locations ↔ g.hasLocation loc = true :=
  SortedMap.find?_isSome_iff.symm

theorem transition_eq_ok {loc : Loc} {t : Transition} :
    g.transition loc = .ok t ↔ g.edges.find? loc = some t := by
  unfold transition required
  cases g.edges.find? loc <;> simp

theorem locations_eq_iff :
    g.locations = h.locations ↔ ∀ loc, g.hasLocation loc = h.hasLocation loc := by
  refine ⟨fun same loc => ?_, SortedMap.keys_eq_of_contains⟩
  rw [Bool.eq_iff_iff, ← mem_locations, ← mem_locations, same]

theorem SameShape.symm (shape : g.SameShape h) : h.SameShape g where
  locations loc := (shape.locations loc).symm
  edges loc there := by
    obtain ⟨t, ours, theirs⟩ := shape.edges loc ((shape.locations loc).trans there)
    exact ⟨t, theirs, ours⟩

end FlowGraph

namespace Program

/-- The same functions, and the same shape of each. -/
structure SameShape (p q : Program) : Prop where
  functions : ∀ f, (p.function? f).isSome = (q.function? f).isSome
  graphs : ∀ f g h, p.function? f = some g → q.function? f = some h → g.SameShape h

variable {p q : Program}

theorem SameShape.symm (shape : p.SameShape q) : q.SameShape p where
  functions f := (shape.functions f).symm
  graphs f g h hg hh := (shape.graphs f h g hh hg).symm

end Program

namespace StructuralMapping

/-- Every location of every function of the program stands for itself, and nothing else is there. -/
structure Itself (m : StructuralMapping) (p : Program) : Prop where
  functions : ∀ f, (m.mapping? f).isSome = (p.function? f).isSome
  locations : ∀ f g places, p.function? f = some g → m.mapping? f = some places →
    ∀ loc loc', places.find? loc = some loc' ↔ loc' = loc ∧ g.hasLocation loc = true

end StructuralMapping

namespace Alignment

section Graphs

variable {g h : FlowGraph} {locations : List Loc}

theorem sameEdges_iff {loc : Loc} :
    sameEdges g h loc = true ↔ ∃ t, g.transition loc = .ok t ∧ h.transition loc = .ok t := by
  simp only [FlowGraph.transition_eq_ok]
  unfold sameEdges
  split
  · rename_i a b ours theirs
    rw [ours, theirs, beq_iff_eq]
    exact ⟨fun h => ⟨a, rfl, congrArg some h.symm⟩, fun ⟨t, ha, hb⟩ =>
      Option.some.inj (ha.trans hb.symm)⟩
  · rename_i missing
    exact ⟨nofun, fun ⟨t, ours, theirs⟩ => (missing t t ours theirs).elim⟩

/-- The check passes for two graphs of one shape and lists the locations of the first. -/
theorem checkShape_eq_ok :
    checkShape g h = .ok locations ↔ g.SameShape h ∧ locations = g.locations := by
  unfold checkShape
  split
  · rename_i differ
    exact ⟨nofun, fun ⟨shape, _⟩ => absurd (FlowGraph.locations_eq_iff.mpr shape.locations) differ⟩
  · rename_i same
    split
    · rename_i loc found
      refine ⟨nofun, fun ⟨shape, _⟩ => ?_⟩
      have there := FlowGraph.mem_locations.mp (List.mem_of_find?_eq_some found)
      have unlike := List.find?_some found
      rw [sameEdges_iff.mpr (shape.edges loc there)] at unlike
      cases unlike
    · rename_i none
      have shape : g.SameShape h := by
        refine ⟨FlowGraph.locations_eq_iff.mp (Decidable.not_not.mp same), fun loc there => ?_⟩
        have alike := List.find?_eq_none.mp none loc (FlowGraph.mem_locations.mpr there)
        exact sameEdges_iff.mp (by simpa using alike)
      rw [Except.ok.injEq]
      exact ⟨fun h => ⟨shape, h.symm⟩, fun h => h.2.symm⟩

theorem find?_identity {locations : List Loc} (unique : locations.Nodup) {loc loc' : Loc} :
    (identity locations).find? loc = some loc' ↔ loc' = loc ∧ loc ∈ locations := by
  have keys : ((locations.map fun loc => (loc, loc)).map Prod.fst).Nodup := by
    rwa [List.map_map, Function.comp_def, List.map_id']
  rw [identity, SortedMap.find?_ofList keys, List.mem_map]
  constructor
  · rintro ⟨found, there, same⟩
    obtain ⟨rfl, rfl⟩ := Prod.mk.inj same
    exact ⟨rfl, there⟩
  · rintro ⟨rfl, there⟩
    exact ⟨_, there, rfl⟩

end Graphs

section Programs

variable {p q : Program} {m base : StructuralMapping}

def place (submission : Program) (mapping : StructuralMapping) (entry : String × FlowGraph) :
    Except AlignmentError StructuralMapping :=
  match submission.function? entry.1 with
  | none => .error .missingFunction
  | some other => (checkShape entry.2 other).map fun locations =>
    mapping.put entry.1 (identity locations)

theorem place_eq_ok {e : String × FlowGraph} :
    place q base e = .ok m ↔
      (∃ h, q.function? e.1 = some h ∧ e.2.SameShape h) ∧
        m = base.put e.1 (identity e.2.locations) := by
  unfold place
  cases q.function? e.1 with
  | none => simp
  | some h =>
    simp only [Option.some.injEq, exists_eq_left']
    cases shape : checkShape e.2 h with
    | error cause =>
      refine ⟨nofun, fun ⟨same, _⟩ => ?_⟩
      cases shape.symm.trans (checkShape_eq_ok.mpr ⟨same, rfl⟩)
    | ok locations =>
      obtain ⟨same, rfl⟩ := checkShape_eq_ok.mp shape
      rw [Except.map, Except.ok.injEq]
      exact ⟨fun h => ⟨same, h.symm⟩, fun h => h.2.symm⟩

/-- One function is placed after the other, and none of them may fail. -/
theorem foldlM_place_eq_ok {l : List (String × FlowGraph)} :
    l.foldlM (place q) base = .ok m ↔
      (∀ e ∈ l, ∃ h, q.function? e.1 = some h ∧ e.2.SameShape h) ∧
        m = l.foldl (fun m e => m.put e.1 (identity e.2.locations)) base := by
  induction l generalizing base with
  | nil => simp [pure, Except.pure, eq_comm]
  | cons first l ih =>
    simp only [List.foldlM_cons, Except.bind_eq_ok, place_eq_ok, ih, List.forall_mem_cons,
      List.foldl_cons]
    constructor
    · rintro ⟨_, ⟨here, rfl⟩, later, rfl⟩
      exact ⟨⟨here, later⟩, rfl⟩
    · rintro ⟨⟨here, later⟩, rfl⟩
      exact ⟨_, ⟨here, rfl⟩, later, rfl⟩

def identities (p : Program) : StructuralMapping :=
  ⟨p.functions.mapValues fun g => identity g.locations⟩

/-- The entries are put one by one, in their order. -/
theorem foldl_put (p : Program) :
    p.functions.entries.foldl (fun m e => m.put e.1 (identity e.2.locations)) .empty =
      identities p := by
  have listed := SortedMap.ofList_entries (p.functions.mapValues fun g => identity g.locations)
  rw [identities, ← listed, SortedMap.ofList, SortedMap.mapValues, List.foldl_map]
  exact List.foldl_hom StructuralMapping.mk fun _ _ => rfl

theorem mapping?_identities (p : Program) (f : String) :
    (identities p).mapping? f = (p.function? f).map fun g => identity g.locations :=
  SortedMap.find?_mapValues _ p.functions f

theorem itself_identities (p : Program) : (identities p).Itself p where
  functions f := by rw [mapping?_identities, Option.isSome_map]
  locations f g places found placed loc loc' := by
    rw [mapping?_identities, found, Option.map_some, Option.some.injEq] at placed
    subst placed
    exact (find?_identity (SortedMap.nodup_keys g.blocks)).trans
      (and_congr_right fun _ => FlowGraph.mem_locations)

/-- Equal numbers of functions leave none of the submission over. -/
theorem sameShape_iff : p.SameShape q ↔ p.functions.size = q.functions.size ∧
    ∀ e ∈ p.functions.entries, ∃ h, q.function? e.1 = some h ∧ e.2.SameShape h := by
  constructor
  · intro shape
    refine ⟨?_, fun ⟨f, g⟩ member => ?_⟩
    · have keys : p.functions.keys = q.functions.keys :=
        SortedMap.keys_eq_of_contains shape.functions
      rw [← SortedMap.length_keys, ← SortedMap.length_keys, keys]
    · have found : p.function? f = some g := SortedMap.find?_eq_some_iff.mpr member
      have known := shape.functions f
      rw [found] at known
      obtain ⟨h, hh⟩ := Option.isSome_iff_exists.mp known.symm
      exact ⟨h, hh, shape.graphs f g h found hh⟩
  · rintro ⟨size, each⟩
    have keys : p.functions.keys = q.functions.keys := by
      refine SortedMap.keys_eq_of_subset size fun f member => ?_
      obtain ⟨e, there, rfl⟩ := List.mem_map.mp member
      obtain ⟨h, found, -⟩ := each e there
      exact SortedMap.find?_isSome_iff.mp (Option.isSome_of_eq_some found)
    refine ⟨fun f => ?_, fun f g h hg hh => ?_⟩
    · rw [Bool.eq_iff_iff]
      exact SortedMap.find?_isSome_iff.trans (keys ▸ SortedMap.find?_isSome_iff.symm)
    · obtain ⟨h', hh', shape⟩ := each (f, g) (SortedMap.find?_eq_some_iff.mp hg)
      obtain rfl := Option.some.inj (hh.symm.trans hh')
      exact shape

/-- An alignment exists for two programs of one shape, and it maps each location to itself. -/
theorem structuralMapping_eq_ok :
    structuralMapping p q = .ok m ↔ p.SameShape q ∧ m = identities p := by
  rw [sameShape_iff, and_assoc, ← foldl_put, ← foldlM_place_eq_ok]
  unfold structuralMapping
  split
  · rename_i differ
    exact ⟨nofun, fun ⟨size, _⟩ => absurd size differ⟩
  · rename_i same
    exact (and_iff_right (Decidable.not_not.mp same)).symm

/-- Programs of one shape have the same identities. -/
theorem identities_eq (shape : p.SameShape q) : identities p = identities q := by
  refine congrArg StructuralMapping.mk (SortedMap.ext_find? fun f => ?_)
  rw [SortedMap.find?_mapValues, SortedMap.find?_mapValues]
  have known : (p.functions.find? f).isSome = (q.functions.find? f).isSome := shape.functions f
  cases hp : p.functions.find? f with
  | none =>
    rw [hp, Option.isSome_none, eq_comm, Option.isSome_eq_false_iff,
      Option.isNone_iff_eq_none] at known
    rw [known]
  | some g =>
    rw [hp, Option.isSome_some, eq_comm, Option.isSome_iff_exists] at known
    obtain ⟨h, hq⟩ := known
    rw [hq, Option.map_some, Option.map_some,
      FlowGraph.locations_eq_iff.mpr (shape.graphs f g h hp hq).locations]

/-- Alignment succeeds for programs of one shape and for no others. What it gives maps every
location of every function to itself, and the two programs can change places. -/
theorem structuralMapping_sameShape (p q : Program) :
    ((∃ m, structuralMapping p q = .ok m) ↔ p.SameShape q) ∧
    (∀ m, structuralMapping p q = .ok m → m.Itself p) ∧
    ∀ m, structuralMapping q p = .ok m ↔ structuralMapping p q = .ok m := by
  refine ⟨⟨?_, ?_⟩, ?_, fun m => ?_⟩
  · rintro ⟨m, aligned⟩
    exact (structuralMapping_eq_ok.mp aligned).1
  · intro shape
    exact ⟨_, structuralMapping_eq_ok.mpr ⟨shape, rfl⟩⟩
  · intro m aligned
    exact (structuralMapping_eq_ok.mp aligned).2 ▸ itself_identities p
  · rw [structuralMapping_eq_ok, structuralMapping_eq_ok]
    constructor
    · rintro ⟨shape, rfl⟩
      exact ⟨shape.symm, identities_eq shape⟩
    · rintro ⟨shape, rfl⟩
      exact ⟨shape.symm, identities_eq shape⟩

def looping (loose : List Loc) : Program :=
  Program.empty.addFunction
    { name := "main", returnType := "int", entry := 1, params := []
      blocks := SortedMap.ofList [(1, [])]
      edges := SortedMap.ofList ((1, { onTrue := some 1 }) :: loose.map fun loc => (loc, {})) }

/-- What leaves no block is not compared. -/
theorem structuralMapping_sameShape_looping :
    ∃ m, structuralMapping (looping []) (looping [2]) = .ok m ∧ m.Itself (looping []) ∧
      structuralMapping (looping [2]) (looping []) = .ok m := by
  obtain ⟨-, itself, swapped⟩ := structuralMapping_sameShape (looping []) (looping [2])
  have succeeds : (structuralMapping (looping []) (looping [2])).isOk = true := by decide +kernel
  cases h : structuralMapping (looping []) (looping [2]) with
  | error e =>
    rw [h] at succeeds
    cases succeeds
  | ok m => exact ⟨m, rfl, itself m h, (swapped m).mpr h⟩

end Programs

end Alignment

end TraceRepair
