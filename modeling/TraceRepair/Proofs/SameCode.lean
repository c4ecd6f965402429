import TraceRepair.Pipeline
import TraceRepair.Proofs.SameRuns
import TraceRepair.Proofs.SameShape
import TraceRepair.Proofs.WellNested

namespace TraceRepair

namespace Expr

mutual

def unlined : Expr → Expr
  | .constant text _ => .constant text 0
  | .variable v => .variable (v.atLine 0)
  | .operation name args _ => .operation name (unlinedAll args) 0

def unlinedAll : List Expr → List Expr
  | [] => []
  | e :: es => unlined e :: unlinedAll es

end

end Expr

def Assignment.unlined (a : Assignment) : Assignment := (a.1, a.2.unlined)

/-- What is left of a function without source lines, descriptions, declarations, the type that it
returns and its exit. -/
def FlowGraph.code (g : FlowGraph) : FlowGraph where
  name := g.name
  returnType := ""
  entry := g.entry
  params := g.params
  blocks := g.blocks.mapValues (List.map Assignment.unlined)
  edges := g.edges

def Program.code (p : Program) : Program where
  functions := p.functions.mapValues FlowGraph.code

section Idempotence

mutual

theorem Expr.unlined_unlined : ∀ e : Expr, e.unlined.unlined = e.unlined
  | .constant _ _ => rfl
  | .variable _ => rfl
  | .operation _ args _ => by rw [Expr.unlined, Expr.unlined, Expr.unlinedAll_unlinedAll args]

theorem Expr.unlinedAll_unlinedAll : ∀ es : List Expr,
    Expr.unlinedAll (Expr.unlinedAll es) = Expr.unlinedAll es
  | [] => rfl
  | e :: es => by
    rw [Expr.unlinedAll, Expr.unlinedAll, Expr.unlined_unlined e, Expr.unlinedAll_unlinedAll es]

end

theorem SortedMap.mapValues_mapValues {κ α : Type} [Ord κ] {f : α → α} (h : ∀ a, f (f a) = f a)
    (m : SortedMap κ α) : (m.mapValues f).mapValues f = m.mapValues f := by
  simp [SortedMap.mapValues, Function.comp_def, h]

theorem FlowGraph.code_code (g : FlowGraph) : g.code.code = g.code := by
  have block : ∀ block : List Assignment,
      (block.map Assignment.unlined).map Assignment.unlined = block.map Assignment.unlined := by
    intro block
    simp [Function.comp_def, Assignment.unlined, Expr.unlined_unlined]
  unfold FlowGraph.code
  rw [SortedMap.mapValues_mapValues block]

/-- Taking away what no run looks at takes away nothing else. -/
theorem Program.code_code (p : Program) : p.code.code = p.code := by
  unfold Program.code
  rw [SortedMap.mapValues_mapValues FlowGraph.code_code]

end Idempotence

section Mirroring

theorem Variable.name_of_atLine {v w : Variable} (h : v.atLine 0 = w.atLine 0) :
    w.name = v.name := by
  obtain ⟨stored, flag, -⟩ := Variable.mk.inj h
  simp [Variable.name, Variable.isPrimed, Variable.unprimedName, stored, flag]

theorem calleeName_of_unlined {e e' : Expr} (h : e.unlined = e'.unlined) :
    calleeName e = calleeName e' := by
  have unlined : ∀ e : Expr, calleeName e.unlined = calleeName e := by
    intro e
    cases e <;> rfl
  rw [← unlined e, h, unlined e']

mutual

/-- Two trees that are one tree without their line numbers have one shape, node by node. -/
theorem mirrors_of_unlined : ∀ {e e' : Expr}, e.unlined = e'.unlined →
    Mirrors Renaming.identity.Reads e e'
  | .constant text line, e', h => by
    cases e' with
    | constant text' line' =>
      obtain rfl := (Expr.constant.inj h).1
      exact .constant text line line'
    | «variable» w => cases h
    | operation => cases h
  | .variable v, e', h => by
    cases e' with
    | constant => cases h
    | «variable» w => exact .read ⟨trivial, Variable.name_of_atLine (Expr.variable.inj h)⟩
    | operation => cases h
  | .operation name args line, e', h => by
    cases e' with
    | constant => cases h
    | «variable» w => cases h
    | operation name' args' line' =>
      obtain ⟨rfl, hargs, -⟩ := Expr.operation.inj h
      cases args with
      | nil =>
        cases args' with
        | nil => exact .operation line line' (fun _ => rfl) .nil
        | cons => cases hargs
      | cons first rest =>
        cases args' with
        | nil => cases hargs
        | cons first' rest' =>
          obtain ⟨hfirst, hrest⟩ := List.cons.inj hargs
          by_cases hname : name = OperatorName.call
          · subst hname
            exact .call line line' (calleeName_of_unlined hfirst) (mirrorsEach_of_unlined hrest)
          · exact .operation line line' (fun h => absurd h hname)
              (.cons (mirrors_of_unlined hfirst) (mirrorsEach_of_unlined hrest))

theorem mirrorsEach_of_unlined : ∀ {es es' : List Expr}, Expr.unlinedAll es = Expr.unlinedAll es' →
    MirrorsEach Renaming.identity.Reads es es'
  | [], es', h => by
    cases es' with
    | nil => exact .nil
    | cons => cases h
  | e :: es, es', h => by
    cases es' with
    | nil => cases h
    | cons e' es' =>
      obtain ⟨hhead, htail⟩ := List.cons.inj h
      exact .cons (mirrors_of_unlined hhead) (mirrorsEach_of_unlined htail)

end

/-- Equal code has the blocks and the edges at the same locations. -/
theorem FlowGraph.mirrored_of_code {g h : FlowGraph} (same : g.code = h.code) :
    FlowGraph.Mirrored .identity g h where
  name := (congrArg FlowGraph.name same).symm
  start := trivial
  entry := (congrArg FlowGraph.entry same).symm
  declared _ _ := trivial
  params := by
    rw [List.map_id'' Parameter.renamed_identity]
    exact (congrArg FlowGraph.params same).symm
  blocks loc _ := by
    have blocks : g.code.blocks.find? loc = h.code.blocks.find? loc := by rw [same]
    simp only [FlowGraph.code, SortedMap.find?_mapValues] at blocks
    change Option.Rel _ (g.blocks.find? loc) (h.blocks.find? loc)
    generalize g.blocks.find? loc = a at blocks ⊢
    generalize h.blocks.find? loc = b at blocks ⊢
    cases a with
    | none =>
      cases b with
      | none => exact .none
      | some block' => cases blocks
    | some block =>
      cases b with
      | none => cases blocks
      | some block' =>
        have each := Option.some.inj blocks
        rw [← List.forall₂_eq_eq_eq, List.forall₂_map_left_iff, List.forall₂_map_right_iff] at each
        refine .some (each.imp fun a a' ha => ?_)
        obtain ⟨target, value⟩ := Prod.mk.inj ha
        exact ⟨trivial, target.symm, mirrors_of_unlined value⟩
  edges loc _ := by
    have edges : h.edges = g.edges := (congrArg FlowGraph.edges same).symm
    rw [edges, funext Transition.renamed_identity, Option.map_id']
    rfl
  reached _ _ _ _ _ _ := trivial

theorem Program.mirrored_of_code {p q : Program} (keyed : p.Keyed) (same : q.code = p.code) :
    Program.Mirrored (fun _ => .identity) p q := by
  intro name
  have found : p.code.functions.find? name = q.code.functions.find? name := by rw [same]
  simp only [Program.code, SortedMap.find?_mapValues] at found
  have named : ∀ g, p.function? name = some g → g.name = name := fun g hg => keyed.name_eq hg
  unfold Program.function? at named ⊢
  generalize p.functions.find? name = a at found named ⊢
  generalize q.functions.find? name = b at found ⊢
  cases a with
  | none =>
    cases b with
    | none => exact .none
    | some h => cases found
  | some g =>
    cases b with
    | none => cases found
    | some h => exact .some ⟨named g rfl, FlowGraph.mirrored_of_code (Option.some.inj found)⟩

end Mirroring

namespace Alignment

theorem matching?_structuralMapping {reference submission : Program} {mapping : StructuralMapping}
    (h : structuralMapping reference submission = .ok mapping) {f : String} {g : FlowGraph}
    (hf : reference.function? f = some g) :
    ∀ loc ∈ g.locations, mapping.matching? f loc = some loc := by
  intro loc hloc
  obtain ⟨-, rfl⟩ := structuralMapping_eq_ok.mp h
  rw [StructuralMapping.matching?, mapping?_identities, hf]
  exact (find?_identity (SortedMap.nodup_keys g.blocks)).mpr ⟨rfl, hloc⟩

section Variables

variable {reference submission : Program}

def Straight (m : VariableMapping) : Prop :=
  ∀ f, ∀ b ∈ m.candidates f, ∀ e ∈ b.pairs, e.1 = e.2

theorem Straight.add {m : VariableMapping} (h : Straight m) (name : String) (g h' : FlowGraph) :
    Straight (m.add name (byName g h')) := by
  intro f b hb e he
  unfold VariableMapping.candidates VariableMapping.candidates? VariableMapping.add
    VariableMapping.put at hb
  by_cases hf : f = name
  · rw [hf, SortedMap.find?_insert_self, Option.getD_some, List.mem_append] at hb
    rcases hb with hb | hb
    · exact h name b hb e he
    · obtain rfl := List.mem_singleton.mp hb
      obtain ⟨x, -, rfl⟩ := List.mem_map.mp (Bijection.mem_of_mem_ofPairs he)
      rfl
  · rw [SortedMap.find?_insert_of_ne hf] at hb
    exact h f b hb e he

theorem straight_go {found m : VariableMapping} {notices : List Notice} {names : List String}
    (straight : Straight found)
    (h : (variableMapping.go reference submission found notices names).1 = .ok m) :
    Straight m := by
  induction names generalizing found notices with
  | nil =>
    cases h
    exact straight
  | cons name names ih =>
    unfold variableMapping.go at h
    split at h
    · exact ih (straight.add name _ _) h
    · cases h

theorem straight_variableMapping {mapping : StructuralMapping} {m : VariableMapping}
    (h : (variableMapping reference submission mapping).1 = .ok m) : Straight m := by
  have nothing : Straight .empty := by
    intro f b hb
    change b ∈ [] at hb
    cases hb
  exact straight_go nothing h

end Variables

end Alignment

namespace Synthesis

/-- No divergence, so no block to repair. -/
theorem repairCandidate_clean {reference submission : FlowGraph} {c : CandidateDivergences}
    (h : c.divergences = []) : repairCandidate reference submission c = .ok [] := by
  rw [repairCandidate, h, repairDivergences]

/-- Where nothing diverged, nothing is repaired. -/
theorem repair_clean {reference submission : Program} {l : Localisation} (h : l.Clean)
    (pairing : VariableMapping) : (repair reference submission l pairing).1 = [] := by
  unfold repair
  dsimp only
  rw [List.flatMap_map, List.flatMap_eq_nil_iff]
  intro e he
  unfold repairFunction
  split
  · dsimp only
    rw [List.flatMap_map, List.flatMap_eq_nil_iff]
    rintro ⟨c, i⟩ hc
    dsimp only
    rw [repairCandidate_clean (h e he c (List.fst_mem_of_mem_zipIdx hc))]
    rfl
  · rfl

end Synthesis

namespace RepairTask

variable {task : RepairTask} {found : RepairOutcome}

theorem repairWith_eq_ok {structural : StructuralMapping} {pairing : VariableMapping}
    (h : (task.repairWith structural pairing).1 = .ok found) :
    (task.localiseWith structural pairing).1 = .ok found.localisation ∧
      found.candidates =
        (Synthesis.repair task.reference task.submission found.localisation pairing).1 := by
  unfold repairWith at h
  generalize task.localiseWith structural pairing = localised at h ⊢
  obtain ⟨result, notices⟩ := localised
  cases result with
  | error e => cases h
  | ok l =>
    cases h
    exact ⟨rfl, rfl⟩

/-- A repair that succeeds has aligned the programs, paired their variables and run every input. -/
theorem repairAligned_eq_ok (h : task.repairAligned.1 = .ok found) :
    ∃ structural pairing,
      Alignment.structuralMapping task.reference task.submission = .ok structural ∧
      (Alignment.variableMapping task.reference task.submission structural).1 = .ok pairing ∧
      (task.repairWith structural pairing).1 = .ok found := by
  unfold repairAligned at h
  cases hs : Alignment.structuralMapping task.reference task.submission with
  | error e =>
    rw [hs] at h
    cases h
  | ok structural =>
    rw [hs] at h
    dsimp only at h
    cases hv : Alignment.variableMapping task.reference task.submission structural with
    | mk result notices =>
      rw [hv] at h
      cases result with
      | error e => cases h
      | ok pairing => exact ⟨structural, pairing, rfl, congrArg Prod.fst hv, h⟩

end RepairTask

/-- Nothing is found and nothing repaired between programs of one code. The task may ask for any
function, on any inputs and under any limits. -/
theorem repairAligned_sameCode {task : RepairTask} (keyed : task.reference.Keyed)
    (same : task.submission.code = task.reference.code) {found : RepairOutcome}
    (h : task.repairAligned.1 = .ok found) :
    found.localisation.length = 0 ∧ found.candidates = [] := by
  obtain ⟨structural, pairing, hstructural, hpairing, hrepair⟩ := RepairTask.repairAligned_eq_ok h
  obtain ⟨hlocalise, hcandidates⟩ := RepairTask.repairWith_eq_ok hrepair
  obtain ⟨g, _, hf, -, -⟩ := mem_of_localise hlocalise
  have contained : ∀ b ∈ pairing.candidates task.function, b.ContainedIn .identity := by
    intro b hb e he
    have straight := Alignment.straight_variableMapping hpairing task.function b hb e he
    exact ⟨trivial, congrArg Variable.unprimedName straight.symm⟩
  have clean : found.localisation.Clean :=
    localise_mirrored (Program.mirrored_of_code keyed same) hf
      (Alignment.matching?_structuralMapping hstructural hf) contained hlocalise
  exact ⟨clean.length_eq, hcandidates ▸ Synthesis.repair_clean clean pairing⟩

def bareTalking : RepairTask where
  reference := talking
  submission := talking.code
  inputs := [{}]
  function := "main"
  limits := { steps := 3 }

/-- A program against its own code, cut short within a call. -/
theorem repairAligned_sameCode_bareTalking :
    ∃ found, bareTalking.repairAligned.1 = .ok found ∧
      found.localisation.length = 0 ∧ found.candidates = [] := by
  have succeeds : bareTalking.repairAligned.1.isOk = true := by decide +kernel
  cases h : bareTalking.repairAligned.1 with
  | error e =>
    rw [h] at succeeds
    cases succeeds
  | ok found =>
    have keyed : talking.Keyed := by
      unfold Program.Keyed
      decide +kernel
    exact ⟨found, rfl, repairAligned_sameCode keyed (Program.code_code talking) h⟩

end TraceRepair
