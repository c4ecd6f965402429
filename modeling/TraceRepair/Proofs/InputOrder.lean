import TraceRepair.Proofs.EditOrder
import TraceRepair.Proofs.SameRuns

namespace TraceRepair

theorem Bijection.contains_of_mem_pairs {b : Bijection} {p : Variable × Variable}
    (h : p ∈ b.pairs) : b.contains p.1 = true := by
  have found := Bijection.find?_of_mem_pairs h
  rw [Bijection.find?, Option.map_eq_some_iff] at found
  obtain ⟨pair, hpair, -⟩ := found
  rw [Bijection.contains, hpair, Option.isSome_some]

theorem contains_of_differing {b : Bijection} {m m' : Memory} {r : Variable}
    (h : r ∈ differing b.watched m m') : b.contains r = true := by
  obtain ⟨w, hw, rfl⟩ := List.mem_map.mp h
  obtain ⟨p, hp, rfl⟩ := List.mem_map.mp (List.mem_filter.mp hw).1
  exact Bijection.contains_of_mem_pairs hp

/-- Values are compared of mapped variables only. -/
theorem Visit.Shows.contains {f : String} {mapping : StructuralMapping} {b : Bijection} {v : Visit}
    {d : Divergence} (shows : v.Shows f mapping b.watched d) :
    ∀ r ∈ d.differing, b.contains r = true := by
  cases shows with
  | unmatched => exact nofun
  | missing => exact nofun
  | values matched other => exact fun r hr => contains_of_differing hr

section Runs

variable {function : String} {structural : StructuralMapping} {runs runs' : List PairedRun}

/-- Values are compared for mapped variables only. -/
theorem mapped_candidateDivergences (b : Bijection) :
    Mapped b (candidateDivergences function structural runs b).divergences := by
  intro d hd
  obtain ⟨r, -, v, -, found, shows, rfl⟩ := exists_shows_of_candidate hd
  exact shows.contains

/-- Divergences come from runs, in whatever order these were made. -/
theorem mem_candidateDivergences (same : ∀ r, r ∈ runs ↔ r ∈ runs') (b : Bijection)
    (d : Divergence) : d ∈ (candidateDivergences function structural runs b).divergences ↔
      d ∈ (candidateDivergences function structural runs' b).divergences := by
  simp only [candidateDivergences, List.mem_flatMap, same]

end Runs

/-- Candidates under one bijection whose repairs differ in their order only, if they can be
completed at all. -/
structure CandidateDivergences.SameRepairs (reference submission : Program) (f : String)
    (c c' : CandidateDivergences) : Prop where
  bijection : c.bijection = c'.bijection
  edits : ∀ g h, reference.function? f = some g → submission.function? f = some h →
    SameEdits (Synthesis.repairCandidate g h c) (Synthesis.repairCandidate g h c')

structure RepairCandidate.Reordered (k k' : RepairCandidate Nat) : Prop where
  repairs : k.repairs.Perm k'.repairs
  cost : k.cost = k'.cost

theorem RepairCandidate.reordered_of_perm {repairs repairs' : List (LocalRepair Nat)}
    (h : repairs.Perm repairs') : Reordered ⟨repairs⟩ ⟨repairs'⟩ where
  repairs := h
  cost := by
    refine h.foldl_eq' (fun x _ y _ z => ?_) 0
    omega

namespace Synthesis

variable {reference submission : Program} {function : String}

/-- A candidate comes of both syntheses or of neither. -/
theorem reordered_outcome {x x' : Except SynthesisError (List (LocalRepair Nat))}
    (h : SameEdits x x') (number : Nat) :
    List.Forall₂ RepairCandidate.Reordered (outcome function number x).1
      (outcome function number x').1 := by
  cases h with
  | dropped => exact .nil
  | @repaired repairs repairs' perm =>
    cases repairs with
    | nil =>
      obtain rfl := perm.nil_eq
      exact .nil
    | cons first repairs =>
      cases repairs' with
      | nil => cases perm.eq_nil
      | cons first' repairs' => exact .cons (RepairCandidate.reordered_of_perm perm) .nil

theorem reordered_repairFunction {cs cs' : List CandidateDivergences}
    (h : List.Forall₂ (CandidateDivergences.SameRepairs reference submission function) cs cs')
    (pairing : VariableMapping) :
    List.Forall₂ RepairCandidate.Reordered
      (repairFunction reference submission pairing function cs).1
      (repairFunction reference submission pairing function cs').1 := by
  unfold repairFunction
  split
  · rename_i g other hg hother
    -- The candidates carry their numbers, so the induction starts from any number.
    have numbered : ∀ n, List.Forall₂ RepairCandidate.Reordered
        ((cs.zipIdx n).flatMap fun e =>
          (outcome function e.2 (repairCandidate g other e.1)).1)
        ((cs'.zipIdx n).flatMap fun e =>
          (outcome function e.2 (repairCandidate g other e.1)).1) := by
      induction h with
      | nil => exact fun _ => .nil
      | cons first later ih =>
        intro n
        simp only [List.zipIdx_cons, List.flatMap_cons]
        exact List.rel_append (reordered_outcome (first.edits g other hg hother) n) (ih (n + 1))
    dsimp only
    rw [List.flatMap_map, List.flatMap_map]
    exact numbered 0
  · exact .nil

/-- Candidates of all functions, each beside its counterpart. -/
theorem reordered_repair {l l' : Localisation} {pairing : VariableMapping}
    (h : List.Forall₂ (fun e e' => e.1 = e'.1 ∧
      List.Forall₂ (CandidateDivergences.SameRepairs reference submission e.1) e.2 e'.2)
      l.functions.entries l'.functions.entries) :
    List.Forall₂ RepairCandidate.Reordered (repair reference submission l pairing).1
      (repair reference submission l' pairing).1 := by
  unfold repair
  dsimp only
  rw [List.flatMap_map, List.flatMap_map]
  refine List.rel_flatMap h fun e e' he => ?_
  rw [← he.1]
  exact reordered_repairFunction he.2 pairing

end Synthesis

section Localise

variable {reference submission : Program} {limits : Limits} {inputs inputs' : List RunInput}
  {function : String} {structural : StructuralMapping} {pairing : VariableMapping}

/-- The first failing run ends localisation, but any failing run makes it fail. -/
theorem localise_isOk_reordered (same : ∀ i, i ∈ inputs ↔ i ∈ inputs') :
    (localise reference submission limits inputs function structural pairing).1.isOk =
      (localise reference submission limits inputs' function structural pairing).1.isOk := by
  cases hf : reference.function? function with
  | none =>
    unfold localise Program.function
    rw [hf]
  | some g =>
    rw [localise_isOk hf, localise_isOk hf, Bool.eq_iff_iff, List.all_eq_true, List.all_eq_true]
    simp only [same]

/-- Inputs in another order or given more often come to the same success or failure, drop the same
candidates, and make the same repairs at the same cost. -/
theorem localise_reordered (same : ∀ i, i ∈ inputs ↔ i ∈ inputs')
    (injective : ∀ b ∈ pairing.candidates function, b.ResolvesInjectively) :
    (localise reference submission limits inputs function structural pairing).1.isOk =
      (localise reference submission limits inputs' function structural pairing).1.isOk ∧
    ∀ l l', (localise reference submission limits inputs function structural pairing).1 = .ok l →
      (localise reference submission limits inputs' function structural pairing).1 = .ok l' →
      (∀ f, List.Forall₂ (CandidateDivergences.SameRepairs reference submission f)
        (l.candidates f) (l'.candidates f)) ∧
      List.Forall₂ RepairCandidate.Reordered (Synthesis.repair reference submission l pairing).1
        (Synthesis.repair reference submission l' pairing).1 := by
  refine ⟨localise_isOk_reordered same, fun l l' h h' => ?_⟩
  rw [localise_eq, Localisation.afterRuns_eq_ok] at h h'
  obtain ⟨-, runs, ran, rfl⟩ := h
  obtain ⟨-, runs', ran', rfl⟩ := h'
  have sameRuns : ∀ r, r ∈ runs ↔ r ∈ runs' := by
    intro r
    rw [Except.mem_of_mapM ran, Except.mem_of_mapM ran']
    simp only [same]
  have each : List.Forall₂ (CandidateDivergences.SameRepairs reference submission function)
      ((pairing.candidates function).map (candidateDivergences function structural runs))
      ((pairing.candidates function).map (candidateDivergences function structural runs')) := by
    rw [List.forall₂_map_left_iff, List.forall₂_map_right_iff, List.forall₂_same]
    exact fun b hb => ⟨rfl, fun g h _ _ => sameEdits_repairDivergences (injective b hb)
      (mapped_candidateDivergences b) (mem_candidateDivergences sameRuns b)⟩
  refine ⟨fun f => ?_, Synthesis.reordered_repair ?_⟩
  · rw [Localisation.candidates_ofRuns, Localisation.candidates_ofRuns]
    split
    · rename_i asked
      exact asked ▸ each
    · exact .nil
  · rw [Localisation.entries_ofRuns, Localisation.entries_ofRuns]
    split
    · exact .nil
    · exact .cons ⟨rfl, each⟩ .nil

end Localise

/-- A mapping to variables of the same names. -/
theorem Bijection.resolvesInjectively_of_sameName {b : Bijection}
    (same : ∀ p ∈ b.pairs, p.2.unprimedName = p.1.unprimedName) : b.ResolvesInjectively := by
  have kept : ∀ {r s : Variable}, b.resolve r = .ok s → s.unprimedName = r.unprimedName := by
    intro r s h
    rcases Bijection.pair_of_resolve h with ⟨p, hp, name, rfl⟩ | ⟨rfl, -⟩
    · exact (same p hp).trans name
    · rfl
  intro r r' s s' h h' target
  rw [← kept h, ← kept h', target]

def choosing (yes no : Expr) : Program :=
  Program.empty.addFunction
    { name := "main", returnType := "int", entry := 1, params := [⟨"bool", "x"⟩]
      blocks := SortedMap.ofList [(1, [("$cond", .variable (.reference "x"))]), (2, [("y", yes)]),
        (3, [("y", no)])]
      edges := SortedMap.ofList [(1, { onTrue := some 2, onFalse := some 3 }), (2, {}), (3, {})] }

def choosingPairing : VariableMapping :=
  VariableMapping.empty.put "main"
    [.ofPairs [(.reference "x", .submission "x"), (.reference "y", .submission "y")],
      .ofPairs [(.reference "y", .submission "y")]]

def localisedChoosing (args : List String) : Except Failure Localisation :=
  (localise (choosing (.variable (.reference "x")) (.constant "1" 3))
    (choosing (.constant "2" 2) (.constant "3" 3)) {} (args.map fun arg => { args := [arg] }) "main"
    (StructuralMapping.empty.put "main" (SortedMap.ofList [(1, 1), (2, 2), (3, 3)]))
    choosingPairing).1

def repairedChoosing (l : Localisation) : List (List Loc × Nat) × List String :=
  let (candidates, notices) := Synthesis.repair
    (choosing (.variable (.reference "x")) (.constant "1" 3))
    (choosing (.constant "2" 2) (.constant "3" 3)) l choosingPairing
  (candidates.map fun k => (k.repairs.map (·.submission), k.cost), notices.map Notice.message)

/-- Either branch is repaired where its input comes first. -/
theorem localise_reordered_choosing :
    ∃ l l', localisedChoosing ["true", "false"] = .ok l ∧
      localisedChoosing ["false", "true", "false"] = .ok l' ∧
      repairedChoosing l = ([([2, 3], 2)],
        ["dropping candidate #1 of `main`: variable `x` has no counterpart in the mapping"]) ∧
      repairedChoosing l' = ([([3, 2], 2)],
        ["dropping candidate #1 of `main`: variable `x` has no counterpart in the mapping"]) ∧
      ∀ f, List.Forall₂ (CandidateDivergences.SameRepairs
        (choosing (.variable (.reference "x")) (.constant "1" 3))
        (choosing (.constant "2" 2) (.constant "3" 3)) f) (l.candidates f) (l'.candidates f) := by
  have seen : (localisedChoosing ["true", "false"]).toOption.map repairedChoosing =
      some ([([2, 3], 2)],
        ["dropping candidate #1 of `main`: variable `x` has no counterpart in the mapping"]) := by
    decide +kernel
  have seen' : (localisedChoosing ["false", "true", "false"]).toOption.map repairedChoosing =
      some ([([3, 2], 2)],
        ["dropping candidate #1 of `main`: variable `x` has no counterpart in the mapping"]) := by
    decide +kernel
  have injective : ∀ b ∈ choosingPairing.candidates "main", b.ResolvesInjectively := by
    intro b hb
    refine Bijection.resolvesInjectively_of_sameName ?_
    revert b
    decide +kernel
  obtain ⟨l, hl, repaired⟩ := Except.ok_of_seen seen
  obtain ⟨l', hl', repaired'⟩ := Except.ok_of_seen seen'
  have same : ∀ i, i ∈ ["true", "false"].map (fun arg => ({ args := [arg] } : RunInput)) ↔
      i ∈ ["false", "true", "false"].map (fun arg => ({ args := [arg] } : RunInput)) := by
    intro i
    simp only [List.map_cons, List.map_nil, List.mem_cons, List.not_mem_nil, or_false]
    constructor
    · rintro (h | h) <;> simp [h]
    · rintro (h | h | h) <;> simp [h]
  exact ⟨l, l', hl, hl', repaired, repaired', ((localise_reordered same injective).2 l l' hl hl').1⟩

end TraceRepair
