import Mathlib.Logic.Equiv.Basic
import TraceRepair.Proofs.SameRuns
import TraceRepair.Proofs.TransferMeaning
import TraceRepair.Proofs.WellNested

namespace TraceRepair

namespace Expr

mutual

/-- Every variable gets its other name, but for those that name a callee. -/
def renamed (r : Renaming) : Expr → Expr
  | .constant text line => .constant text line
  | .variable v => .variable { v with stored := r.name v.stored }
  | .operation name args line =>
    match args with
    | first :: rest =>
      let kept := name = OperatorName.call ∧ first.asVariable?.isSome
      .operation name ((if kept then first else renamed r first) :: renamedAll r rest) line
    | [] => .operation name [] line

def renamedAll (r : Renaming) : List Expr → List Expr
  | [] => []
  | e :: es => renamed r e :: renamedAll r es

end

end Expr

def Assignment.renamed (r : Renaming) (a : Assignment) : Assignment := (r.name a.1, a.2.renamed r)

/-- What the second function says about its runs is what the first one says, under other names. Its
exit, descriptions and declarations do not count. -/
structure FlowGraph.Renames (r : Renaming) (g h : FlowGraph) : Prop where
  name : h.name = g.name
  entry : h.entry = r.place g.entry
  params : h.params = g.params.map (Parameter.renamed r)
  blocks : h.blocks = (g.blocks.mapValues (List.map (Assignment.renamed r))).mapKeys r.place
  edges : h.edges = (g.edges.mapValues (Transition.renamed r)).mapKeys r.place

def Program.Renames (ρ : String → Renaming) (p q : Program) : Prop :=
  ∀ name, Option.Rel (FlowGraph.Renames (ρ name)) (p.function? name) (q.function? name)

def FlowGraph.renamed (r : Renaming) (g : FlowGraph) : FlowGraph :=
  { g with
    entry := r.place g.entry
    params := g.params.map (Parameter.renamed r)
    blocks := (g.blocks.mapValues (List.map (Assignment.renamed r))).mapKeys r.place
    edges := (g.edges.mapValues (Transition.renamed r)).mapKeys r.place }

def Program.renamed (ρ : String → Renaming) (p : Program) : Program :=
  { p with functions := p.functions.mapEntries fun name g => g.renamed (ρ name) }

/-- All that a function mentions is told apart, and no name carries a prime before or after. -/
structure Renaming.Covers (r : Renaming) (g : FlowGraph) : Prop where
  unprimed : ∀ x ∈ r.names, stripPrime? x = none ∧ stripPrime? (r.name x) = none
  params : ∀ x ∈ g.params, x.name ∈ r.names
  targets : ∀ block ∈ g.blocks.values, ∀ a ∈ block, a.1 ∈ r.names
  occurrences : ∀ block ∈ g.blocks.values, ∀ a ∈ block, ∀ v ∈ a.2.reads,
    v.flag = false ∧ v.stored ∈ r.names
  entry : g.entry ∈ r.places
  blocks : g.blocks.KeysIn r.places
  edges : g.edges.KeysIn r.places
  onward : ∀ t ∈ g.edges.values, ∀ next, t.onTrue = some next ∨ t.onFalse = some next →
    next ∈ r.places

section Expressions

variable {r : Renaming}

/-- A callee that is no variable has no name of its own to change. -/
theorem calleeName_renamed (callee : Expr) :
    calleeName callee =
      calleeName (if callee.asVariable?.isSome then callee else callee.renamed r) := by
  cases callee with
  | constant text line => rfl
  | «variable» v => rfl
  | operation name args line => cases args <;> rfl

theorem Renaming.reads_renamed
    (unprimed : ∀ x ∈ r.names, stripPrime? x = none ∧ stripPrime? (r.name x) = none)
    {v : Variable} (flag : v.flag = false) (h : v.stored ∈ r.names) :
    r.Reads v { v with stored := r.name v.stored } := by
  obtain ⟨before, after⟩ := unprimed v.stored h
  have plain : v.isPrimed = false := by simp [Variable.isPrimed, flag, before]
  have renamed : ({ v with stored := r.name v.stored } : Variable).isPrimed = false := by
    simp [Variable.isPrimed, flag, after]
  refine ⟨?_, ?_⟩
  · rwa [Variable.name_of_unprimed plain]
  · rw [Variable.name_of_unprimed plain, Variable.name_of_unprimed renamed]

mutual

/-- By recursion over the tree; names of callees stay. -/
theorem mirrors_renamed
    (unprimed : ∀ x ∈ r.names, stripPrime? x = none ∧ stripPrime? (r.name x) = none) :
    ∀ {e : Expr}, (∀ v ∈ e.reads, v.flag = false ∧ v.stored ∈ r.names) →
      Mirrors r.Reads e (e.renamed r)
  | .constant text line, _ => .constant text line line
  | .variable v, h => by
    obtain ⟨flag, known⟩ := h v (List.mem_singleton.mpr rfl)
    exact .read (r.reads_renamed unprimed flag known)
  | .operation name [] line, _ => .operation line line (fun _ => rfl) .nil
  | .operation name (callee :: rest) line, h => by
    have hrest : MirrorsEach r.Reads rest (Expr.renamedAll r rest) :=
      mirrorsEach_renamed unprimed fun v hv => h v (by simp [Expr.reads, hv])
    by_cases hname : name = OperatorName.call
    · subst hname
      simp only [Expr.renamed, true_and]
      exact .call line line (calleeName_renamed callee) hrest
    · simp only [Expr.renamed, hname, false_and, if_false]
      refine .operation line line (fun h => absurd h hname) (.cons ?_ hrest)
      exact mirrors_renamed unprimed fun v hv => h v (by simp [Expr.reads, hname, hv])

theorem mirrorsEach_renamed
    (unprimed : ∀ x ∈ r.names, stripPrime? x = none ∧ stripPrime? (r.name x) = none) :
    ∀ {es : List Expr}, (∀ v ∈ Expr.readsEach es, v.flag = false ∧ v.stored ∈ r.names) →
      MirrorsEach r.Reads es (Expr.renamedAll r es)
  | [], _ => .nil
  | e :: es, h => by
    simp only [Expr.readsEach, List.mem_append] at h
    exact .cons (mirrors_renamed unprimed fun v hv => h v (.inl hv))
      (mirrorsEach_renamed unprimed fun v hv => h v (.inr hv))

end

end Expressions

namespace SortedMap

variable {κ ι α β : Type} [Ord κ] [Std.TransOrd κ] [Std.LawfulEqOrd κ] [Ord ι] [Std.TransOrd ι]
  [Std.LawfulEqOrd ι]

theorem find?_mapKeys_mapValues {f : κ → ι} {domain : Set κ} (hf : Set.InjOn f domain)
    {m : SortedMap κ α} (hm : m.KeysIn domain) (view : α → β) {key : κ} (hk : key ∈ domain) :
    ((m.mapValues view).mapKeys f).find? (f key) = (m.find? key).map view := by
  have keys : (m.mapValues view).KeysIn domain := by
    intro other h
    refine hm other ?_
    rwa [← find?_isSome_iff, find?_mapValues, Option.isSome_map, find?_isSome_iff] at h
  rw [find?_mapKeys hf keys hk, find?_mapValues]

end SortedMap

/-- The lines of the two functions do not matter. -/
theorem FlowGraph.Renames.mirrored {r : Renaming} {g h : FlowGraph}
    (renames : FlowGraph.Renames r g h) (covers : r.Covers g) : FlowGraph.Mirrored r g h where
  name := renames.name
  start := covers.entry
  entry := renames.entry
  declared := covers.params
  params := renames.params
  blocks loc hloc := by
    rw [renames.blocks, SortedMap.find?_mapKeys_mapValues r.place_injOn covers.blocks _ hloc]
    cases hblock : g.blocks.find? loc with
    | none => exact .none
    | some block =>
      have known := SortedMap.mem_values_of_find? hblock
      refine .some ?_
      rw [List.forall₂_map_right_iff, List.forall₂_same]
      intro a ha
      exact ⟨covers.targets block known a ha, rfl,
        mirrors_renamed covers.unprimed (covers.occurrences block known a ha)⟩
  edges loc hloc := by
    rw [renames.edges, SortedMap.find?_mapKeys_mapValues r.place_injOn covers.edges _ hloc]
  reached loc t m next ht hnext :=
    covers.onward t (SortedMap.mem_values_of_find? ht) next (FlowGraph.nextLoc_eq_some hnext)

section Programs

variable {ρ : String → Renaming} {p q : Program}

theorem Program.Renames.mirrored (renames : Program.Renames ρ p q) (keyed : p.Keyed)
    (covers : ∀ f g, p.function? f = some g → (ρ f).Covers g) : Program.Mirrored ρ p q := by
  intro name
  have related := renames name
  have each : ∀ g, p.function? name = some g → g.name = name ∧ (ρ name).Covers g :=
    fun g hp => ⟨keyed.name_eq hp, covers name g hp⟩
  generalize p.function? name = a at related each ⊢
  generalize q.function? name = b at related ⊢
  cases related with
  | none => exact .none
  | @some g h related =>
    obtain ⟨named, covered⟩ := each g rfl
    exact .some ⟨named, related.mirrored covered⟩

/-- Renaming a program gives one that says the same under other names. -/
theorem Program.renames_renamed (ρ : String → Renaming) (p : Program) :
    Program.Renames ρ p (p.renamed ρ) := by
  intro name
  have found : (p.renamed ρ).function? name =
      (p.function? name).map fun g => g.renamed (ρ name) :=
    SortedMap.find?_mapEntries _ p.functions name
  rw [found]
  cases p.function? name with
  | none => exact .none
  | some g => exact .some ⟨rfl, rfl, rfl, rfl, rfl⟩

/-- The renamed program runs exactly when the first one does, and its traces are the renamed ones.
Set against each other under any bijection that follows the renaming, the two programs show no
divergence, and localisation fails only where a run does. -/
theorem localise_renamed (renames : Program.Renames ρ p q) (keyed : p.Keyed)
    (covers : ∀ f g, p.function? f = some g → (ρ f).Covers g) (limits : Limits) :
    (∀ input, (q.execute limits input).1.toOption =
      (p.execute limits input).1.toOption.map (Trace.renamed ρ)) ∧
    ∀ {f g structural pairing} (inputs : List RunInput), p.function? f = some g →
      (∀ loc ∈ g.locations, structural.matching? f loc = some ((ρ f).place loc)) →
      (∀ b ∈ pairing.candidates f, b.ContainedIn (ρ f)) →
      (localise p q limits inputs f structural pairing).1.isOk =
          (inputs.all fun i => (p.execute limits i).1.isOk) ∧
        ∀ l, (localise p q limits inputs f structural pairing).1 = .ok l → l.length = 0 := by
  have mirrored := renames.mirrored keyed covers
  refine ⟨fun input => (execute_mirrored mirrored limits input).1, ?_⟩
  intro f g structural pairing inputs hf places contained
  refine ⟨?_, fun l hl => (localise_mirrored mirrored hf places contained hl).length_eq⟩
  have both : ∀ i, ((p.execute limits i).1.isOk && (q.execute limits i).1.isOk) =
      (p.execute limits i).1.isOk := by
    intro i
    have traces := (execute_mirrored mirrored limits i).1
    generalize (p.execute limits i).1 = a at traces ⊢
    generalize (q.execute limits i).1 = b at traces ⊢
    cases a with
    | error e => rfl
    | ok t =>
      cases b with
      | error e => cases traces
      | ok u => rfl
  rw [localise_isOk hf]
  exact List.all_congr rfl fun i => both i

end Programs

def Renaming.exchange (x y : String) (shift : Nat) (hx : x ∉ Reserved.all) (hy : y ∉ Reserved.all) :
    Renaming where
  names := {name | stripPrime? name = none}
  name := Equiv.swap x y
  name_injOn := (Equiv.swap x y).injective.injOn
  reserved z hz := by
    have unprimed : ∀ z ∈ Reserved.all, stripPrime? z = none := by decide +kernel
    refine ⟨unprimed z hz, Equiv.swap_apply_of_ne_of_ne ?_ ?_⟩
    · rintro rfl
      exact hx hz
    · rintro rfl
      exact hy hz
  places := Set.univ
  place loc := loc + shift
  place_injOn _ _ _ _ h := Nat.add_right_cancel h

def exchanged (function : String) : Renaming :=
  if function = "main" then .exchange "word" "greeting" 10 (by decide) (by decide)
  else .exchange "text" "word" 20 (by decide) (by decide)

theorem Renaming.covers_exchange {x y : String} {shift : Nat} {hx : x ∉ Reserved.all}
    {hy : y ∉ Reserved.all} (unprimed : stripPrime? x = none ∧ stripPrime? y = none)
    {g : FlowGraph} (params : ∀ x ∈ g.params, stripPrime? x.name = none)
    (targets : ∀ block ∈ g.blocks.values, ∀ a ∈ block, stripPrime? a.1 = none)
    (occurrences : ∀ block ∈ g.blocks.values, ∀ a ∈ block, ∀ v ∈ a.2.reads,
      v.flag = false ∧ stripPrime? v.stored = none) :
    (Renaming.exchange x y shift hx hy).Covers g where
  unprimed z hz := by
    refine ⟨hz, ?_⟩
    change stripPrime? (Equiv.swap x y z) = none
    rw [Equiv.swap_apply_def]
    split
    · exact unprimed.2
    · split
      · exact unprimed.1
      · exact hz
  params := params
  targets := targets
  occurrences := occurrences
  entry := trivial
  blocks _ _ := trivial
  edges _ _ := trivial
  onward _ _ _ _ := trivial

/-- The names and locations of both functions. -/
theorem covers_exchanged {f : String} {g : FlowGraph} (h : talking.function? f = some g) :
    (exchanged f).Covers g := by
  have plain : ∀ e ∈ talking.functions.entries,
      (∀ x ∈ e.2.params, stripPrime? x.name = none) ∧
      (∀ block ∈ e.2.blocks.values, ∀ a ∈ block, stripPrime? a.1 = none) ∧
      ∀ block ∈ e.2.blocks.values, ∀ a ∈ block, ∀ v ∈ a.2.reads,
        v.flag = false ∧ stripPrime? v.stored = none := by decide +kernel
  obtain ⟨params, targets, occurrences⟩ := plain _ (SortedMap.find?_eq_some_iff.mp h)
  unfold exchanged
  split
  · exact Renaming.covers_exchange (by decide +kernel) params targets occurrences
  · exact Renaming.covers_exchange (by decide +kernel) params targets occurrences

theorem containedIn_exchanged : ∀ b ∈ (VariableMapping.empty.put "main"
    [.ofPairs [(.reference "word", .submission "greeting")]]).candidates "main",
    b.ContainedIn (exchanged "main") := by
  have pairs : (Bijection.ofPairs [(.reference "word", .submission "greeting")]).pairs =
      [(.reference "word", .submission "greeting")] := by decide +kernel
  have unprimed : stripPrime? (Variable.reference "word").unprimedName = none := by decide +kernel
  intro b hb
  obtain rfl := List.mem_singleton.mp hb
  intro e he
  rw [pairs] at he
  obtain rfl := List.mem_singleton.mp he
  rw [exchanged, if_pos rfl]
  exact ⟨unprimed, by decide +kernel⟩

/-- The words are said under other names and at other locations, and nothing of that is blamed. -/
theorem localise_renamed_talking :
    (∃ t, (talking.execute {} {}).1 = .ok t ∧
      ((talking.renamed exchanged).execute {} {}).1 = .ok (t.renamed exchanged) ∧
      (t.renamed exchanged).outline =
        ([("say", 21), ("main", 11), ("say", 21), ("main", 12)], false)) ∧
    ∃ l, (localise talking (talking.renamed exchanged) {} [{}] "main"
        (StructuralMapping.empty.put "main" (SortedMap.ofList [(1, 11), (2, 12)]))
        (VariableMapping.empty.put "main"
          [.ofPairs [(.reference "word", .submission "greeting")]])).1 = .ok l ∧
      l.length = 0 := by
  have keyed : talking.Keyed := by
    unfold Program.Keyed
    decide +kernel
  obtain ⟨runs, blameless⟩ := localise_renamed (Program.renames_renamed exchanged talking) keyed
    (fun _ _ => covers_exchanged) {}
  have seen : ((talking.renamed exchanged).execute {} {}).1.toOption.map Trace.outline =
      some ([("say", 21), ("main", 11), ("say", 21), ("main", 12)], false) := by decide +kernel
  obtain ⟨u, hu, outline⟩ := Except.ok_of_seen seen
  have traces := runs {}
  rw [hu] at traces
  obtain ⟨t, ht, rfl⟩ := Except.ok_of_seen traces.symm
  refine ⟨⟨t, ht, hu, outline⟩, ?_⟩
  have located : (talking.function? "main").map FlowGraph.locations = some [1, 2] := by
    decide +kernel
  obtain ⟨g, hg, locations⟩ := Option.map_eq_some_iff.mp located
  have places : ∀ loc ∈ g.locations, (StructuralMapping.empty.put "main"
      (SortedMap.ofList [(1, 11), (2, 12)])).matching? "main" loc =
        some ((exchanged "main").place loc) := by
    rw [locations]
    decide +kernel
  obtain ⟨succeeds, silent⟩ := blameless [{}] hg places containedIn_exchanged
  have all : ([{}] : List RunInput).all (fun i => (talking.execute {} i).1.isOk) = true := by
    rw [List.all_cons, ht]
    rfl
  rw [all] at succeeds
  generalize (localise talking _ _ _ _ _ _).1 = r at succeeds silent ⊢
  cases r with
  | error e => cases succeeds
  | ok l => exact ⟨l, rfl, silent l rfl⟩

end TraceRepair
