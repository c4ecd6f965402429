import TraceRepair.Proofs.Lookup
import TraceRepair.Proofs.NarrowFormats

namespace TraceRepair

inductive FlowGraph.Reachable (g : FlowGraph) : Loc → Prop where
  | entry : Reachable g g.entry
  | edge {loc next : Loc} (branch : Bool) (reached : Reachable g loc)
      (leads : g.target? loc branch = some next) : Reachable g next

/-- Where a function of the program has the name, it has as many parameters. -/
def Program.Takes (p : Program) (name : String) (count : Nat) : Prop :=
  ∀ g, p.function? name = some g → g.params.length = count

structure FlowGraph.WellFormed (p : Program) (g : FlowGraph) : Prop where
  blocks : ∀ loc, g.Reachable loc → ∃ block, g.blocks.find? loc = some block
  edges : ∀ loc, g.Reachable loc → ∃ tr, g.edges.find? loc = some tr
  calls : ∀ loc block, g.Reachable loc → g.blocks.find? loc = some block →
    ∀ assignment ∈ block, assignment.2.CallsFit p.Takes

def Program.WellFormed (p : Program) : Prop :=
  ∀ name g, p.function? name = some g → g.WellFormed p

/-- A walk stays on reachable locations. -/
theorem FlowGraph.Reachable.nextLoc {g : FlowGraph} {loc next : Loc} {tr : Transition} {m : Memory}
    (reached : g.Reachable loc) (edges : g.edges.find? loc = some tr)
    (follows : FlowGraph.nextLoc tr m = some next) : g.Reachable next := by
  rcases FlowGraph.nextLoc_eq_some follows with onTrue | onFalse
  · apply reached.edge true
    simp [FlowGraph.target?, edges, Transition.edge, onTrue]
  · apply reached.edge false
    simp [FlowGraph.target?, edges, Transition.edge, onFalse]

/-- It is enough to look at locations that no edge leaves. -/
theorem FlowGraph.wellFormed_of_closed {p : Program} {g : FlowGraph} (locs : List Loc)
    (entry : g.entry ∈ locs)
    (closed : ∀ loc ∈ locs, ∃ block tr, g.blocks.find? loc = some block ∧
      g.edges.find? loc = some tr ∧ (∀ branch next, tr.edge branch = some next → next ∈ locs) ∧
      ∀ assignment ∈ block, assignment.2.CallsFit p.Takes) : g.WellFormed p := by
  have covers : ∀ loc, g.Reachable loc → loc ∈ locs := by
    intro loc reached
    induction reached with
    | entry => exact entry
    | edge branch _ leads ih =>
      obtain ⟨_, tr, _, edges, within, _⟩ := closed _ ih
      apply within branch
      simpa [FlowGraph.target?, edges] using leads
  constructor
  · intro loc reached
    obtain ⟨block, _, found, _⟩ := closed loc (covers loc reached)
    exact ⟨block, found⟩
  · intro loc reached
    obtain ⟨_, tr, _, edges, _⟩ := closed loc (covers loc reached)
    exact ⟨tr, edges⟩
  · intro loc block reached found
    obtain ⟨_, _, there, _, _, fit⟩ := closed loc (covers loc reached)
    cases there.symm.trans found
    exact fit

def RuntimeError.IsMalformed (e : RuntimeError) : Prop := ∃ fault, e = .malformed fault

theorem RuntimeError.not_isMalformed_of_raised {e : RuntimeError} (h : e.isRaised = true) :
    ¬ e.IsMalformed := by
  rintro ⟨fault, rfl⟩
  cases h

def soundAccount : Account Unit :=
  .ofFailures (fun e => ¬ e.IsMalformed) fun _ => RuntimeError.not_isMalformed_of_raised

section Progress

variable {p : Program} {limits : Limits} {fuel : Nat}

/-- A call by a fitting number of arguments is as sound as the walk of its callee. -/
theorem soundAccount.handler (formed : p.WellFormed)
    (hwalk : ∀ g s, g.WellFormed p → ∀ e,
      Eval.failure? (walk p limits fuel g g.entry s) = some e → ¬ e.IsMalformed)
    (name : String) (args : List Value) (fits : p.Takes name args.length) :
    Accounted soundAccount (p.handler limits fuel name args)
      (openedCall p limits (fun _ _ => ()) name args) := by
  apply Accounted.answerCall
  · intro s g found mismatched
    exact absurd (fits g found) mismatched
  · intro s g found _ _
    exact hwalk g _ (formed name g found)

/-- A walk that starts at a location that can be reached stays among such locations. -/
theorem not_isMalformed_of_walk (formed : p.WellFormed) {g : FlowGraph} (hg : g.WellFormed p)
    {loc : Loc} (reached : g.Reachable loc) (s : Machine) :
    ∀ e, Eval.failure? (walk p limits fuel g loc s) = some e → ¬ e.IsMalformed := by
  refine walk_induct (p := p) (motive := fun _ g loc _ r _ => g.WellFormed p → g.Reachable loc →
    ∀ e, Eval.failure? r = some e → ¬ e.IsMalformed) ?_ ?_ fuel g loc s hg reached
  · rintro _ _ _ _ _ _ _ _ h ⟨fault, rfl⟩
    cases h
  · intro fuel g loc s left r made ih hleft form hg reached
    -- A location that is reached lacks neither table, which leaves what its block makes of a call.
    obtain ⟨block, hblock⟩ := hg.blocks loc reached
    obtain ⟨tr, hedges⟩ := hg.edges loc reached
    have there : g.block loc = .ok block := FlowGraph.required_eq_ok.mpr hblock
    have leaves : g.transition loc = .ok tr := FlowGraph.required_eq_ok.mpr hedges
    cases form with
    | lost lost => cases there.symm.trans lost
    | broken found fails =>
      cases there.symm.trans found
      have sound := Accounted.runAssignments limits.arrays
        (soundAccount.handler formed fun g s hg => ih g g.entry s hg .entry)
        (fun target v s e none => by cases none) g loc block (hg.calls loc block reached hblock)
        { s with left }
      rw [fails] at sound
      exact sound
    | stranded _ _ edges => cases leaves.symm.trans edges
    | arrived =>
      intro e h
      cases h
    | onward _ _ edges follows =>
      cases leaves.symm.trans edges
      exact ih g _ _ hg (reached.nextLoc hedges follows)

def FlowGraph.NarrowFormats (g : FlowGraph) : Prop :=
  ∀ loc block, g.Reachable loc → g.blocks.find? loc = some block →
    ∀ assignment ∈ block, assignment.2.narrowFormats = true

def Program.NarrowFormats (p : Program) : Prop :=
  ∀ name g, p.function? name = some g → g.NarrowFormats

/-- Callees abort no more than the walk that calls them. -/
theorem NeverAborts.walk (narrow : p.NarrowFormats) {g : FlowGraph} (hg : g.NarrowFormats)
    {loc : Loc} (reached : g.Reachable loc) : NeverAborts (walk p limits fuel g loc) := by
  -- One visit is known for any clock, so this is the walk under the clock that never stops.
  rw [← walkBy_never]
  induction fuel generalizing g loc with
  | zero => exact .throw nofun
  | succ fuel ih =>
    have ticks : NeverAborts (Eval.tickBy Clock.never limits) :=
      Eval.FailsOnly.tickBy (fun _ => nofun) Clock.never limits
    have visits : NeverAborts (visitBy p limits (walkBy Clock.never p limits fuel) g loc) := by
      refine Eval.FailsOnly.visitBy (fun _ => nofun) ?_ ?_
      · intro block there
        have found : g.blocks.find? loc = some block := FlowGraph.required_eq_ok.mp there
        apply runAssignments _ g loc (hg loc block reached found)
        intro function values
        exact answerCall (fun callee named => ih (narrow function callee named) .entry) values
      · intro tr m next leaves follows
        exact ih hg (reached.nextLoc (FlowGraph.required_eq_ok.mp leaves) follows)
    exact ticks.bind fun _ _ _ _ => visits

/-- All blocks count here, also those that cannot be reached. -/
theorem Program.narrowFormats_of_all
    (h : (p.functions.values.all fun g => g.blocks.values.all fun block =>
      block.all fun assignment => assignment.2.narrowFormats) = true) : p.NarrowFormats := by
  intro name g named loc block _ found assignment member
  simp only [List.all_eq_true] at h
  exact h g (SortedMap.mem_values_of_find? named) block (SortedMap.mem_values_of_find? found)
    assignment member

/-- A run comes to a trace unless the process ends, which narrow formats rule out. -/
theorem traces_or_aborts (formed : p.WellFormed) {g : FlowGraph}
    (found : p.function? limits.entry = some g) (input : RunInput) :
    ((∃ t, (p.execute limits input).1 = .ok t) ∨ (p.execute limits input).1 = .error .aborted) ∧
      (p.NarrowFormats → ∃ t, (p.execute limits input).1 = .ok t) := by
  cases h : (p.execute limits input).1 with
  | ok t => exact ⟨.inl ⟨t, rfl⟩, fun _ => ⟨t, rfl⟩⟩
  | error e =>
    obtain ⟨malformed | aborted, t, hwalk⟩ := walk_of_execute_error found h
    · have sound := not_isMalformed_of_walk formed (formed _ g found) .entry _ _
        (congrArg Eval.failure? hwalk)
      exact absurd malformed sound
    · refine ⟨.inr (congrArg _ aborted), fun narrow => ?_⟩
      have goesOn := NeverAborts.walk narrow (narrow _ g found) .entry _ t e hwalk
      exact absurd aborted goesOn

/-- No error leaves a run of a well-formed program, but a text that asks for more places than there
can be ends the process; a clock that a run watches changes nothing about either. -/
theorem execute_wellFormed (p : Program) (formed : p.WellFormed) (limits : Limits) (g : FlowGraph)
    (found : p.function? limits.entry = some g) (input : RunInput) :
    ((∃ t, (p.execute limits input).1 = .ok t) ∨ (p.execute limits input).1 = .error .aborted) ∧
    (∀ clock, (∃ t, p.executeBy clock limits input = .ok t) ∨
      p.executeBy clock limits input = .error .aborted) ∧
    (p.NarrowFormats → (∃ t, (p.execute limits input).1 = .ok t) ∧
      ∀ clock, ∃ t, p.executeBy clock limits input = .ok t) := by
  have timed : ∀ clock, ((∃ t, p.executeBy clock limits input = .ok t) ∨
      p.executeBy clock limits input = .error .aborted) ∧
      (p.NarrowFormats → ∃ t, p.executeBy clock limits input = .ok t) := by
    intro clock
    rw [executeBy_eq]
    generalize clock.budget limits.steps = steps
    exact @traces_or_aborts p { limits with steps } formed g found input
  have untimed := traces_or_aborts formed found input
  refine ⟨untimed.1, fun clock => (timed clock).1, fun narrow => ?_⟩
  exact ⟨untimed.2 narrow, fun clock => (timed clock).2 narrow⟩

end Progress

theorem talking_wellFormed : talking.WellFormed := by
  -- Both locations of the entry function hold this call.
  have fit : (Expr.operation OperatorName.call
      [.variable (.reference "say"), .constant "\"hi\"" 1] 1).CallsFit talking.Takes := by
    refine ⟨?_, trivial, trivial, trivial⟩
    intro callee rest function _ args named g found
    cases args
    cases named
    have say : (Variable.reference "say").unprimedName = "say" := by decide +kernel
    rw [say] at found
    cases found
    rfl
  have listed : talking.functions.entries = [("main", _), ("say", _)] := rfl
  intro name g found
  have place := SortedMap.find?_eq_some_iff.mp found
  rw [listed, List.mem_cons, List.mem_singleton] at place
  rcases place with place | place
  · obtain ⟨rfl, rfl⟩ := Prod.mk.inj place
    apply FlowGraph.wellFormed_of_closed [1, 2] List.mem_cons_self
    intro loc there
    rw [List.mem_cons, List.mem_singleton] at there
    rcases there with rfl | rfl
    · refine ⟨_, _, rfl, rfl, ?_, by simpa using fit⟩
      intro branch next leads
      cases branch <;> cases leads
      simp
    · refine ⟨_, _, rfl, rfl, ?_, by simpa using fit⟩
      intro branch next leads
      cases branch <;> cases leads
  · obtain ⟨rfl, rfl⟩ := Prod.mk.inj place
    apply FlowGraph.wellFormed_of_closed [1] List.mem_cons_self
    intro loc there
    rw [List.mem_singleton.mp there]
    refine ⟨_, _, rfl, rfl, ?_, by simp [Expr.CallsFit]⟩
    intro branch next leads
    cases branch <;> cases leads

def printing (format : String) : Program :=
  Program.empty.addFunction
    { name := "main", returnType := "int", entry := 1, params := []
      blocks := SortedMap.ofList
        [(1, [("x", .operation "StrFormat" [.constant format 1, .constant "1" 1] 1)])]
      edges := SortedMap.ofList [(1, {})] }

/-- Any text may stand as the format. -/
theorem printing_wellFormed (format : String) : (printing format).WellFormed := by
  have listed : (printing format).functions.entries = [("main", _)] := rfl
  intro name g found
  have place := SortedMap.find?_eq_some_iff.mp found
  rw [listed, List.mem_singleton] at place
  obtain ⟨rfl, rfl⟩ := Prod.mk.inj place
  apply FlowGraph.wellFormed_of_closed [1] List.mem_cons_self
  intro loc there
  rw [List.mem_singleton.mp there]
  refine ⟨_, _, rfl, rfl, ?_, by simp [Expr.CallsFit, Expr.CallsFitAll, OperatorName.call]⟩
  intro branch next leads
  cases branch <;> cases leads

/-- One place more than there can be, although the directive is read. -/
theorem execute_wellFormed_aborted :
    (printing "%.65536d").WellFormed ∧
    ((printing "%.65536d").function? ({} : Limits).entry).isSome = true ∧
    ((printing "%.65536d").execute {} {}).1 = .error .aborted := by
  refine ⟨printing_wellFormed _, by decide +kernel, ?_⟩
  have aborts : (match ((printing "%.65536d").execute {} {}).1 with
    | .error .aborted => true
    | _ => false) = true := by decide +kernel
  split at aborts
  · assumption
  · cases aborts

/-- Arguments that the entry function does not take and a budget that ends within a call, and as
many places as a general conversion may ask for. -/
theorem execute_wellFormed_talking :
    (∃ t, (talking.execute { steps := 3 } { args := ["loud"] }).1 = .ok t) ∧
    ∀ clock, ∃ t, (printing "%.65532g").executeBy clock {} {} = .ok t := by
  constructor
  · have found : (talking.function? ({ steps := 3 } : Limits).entry).isSome = true := by
      decide +kernel
    have narrow : talking.NarrowFormats := Program.narrowFormats_of_all (by decide +kernel)
    obtain ⟨g, found⟩ := Option.isSome_iff_exists.mp found
    exact ((execute_wellFormed talking talking_wellFormed { steps := 3 } g found
      { args := ["loud"] }).2.2 narrow).1
  · have found : ((printing "%.65532g").function? ({} : Limits).entry).isSome = true := by
      decide +kernel
    have narrow : (printing "%.65532g").NarrowFormats :=
      Program.narrowFormats_of_all (by decide +kernel)
    obtain ⟨g, found⟩ := Option.isSome_iff_exists.mp found
    exact ((execute_wellFormed _ (printing_wellFormed _) {} g found {}).2.2 narrow).2

end TraceRepair
