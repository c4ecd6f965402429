import TraceRepair.Localisation
import TraceRepair.Proofs.Clock

namespace TraceRepair

def Localisation.ofRuns (function : String) (structural : StructuralMapping)
    (pairing : VariableMapping) (runs : List PairedRun) : Localisation :=
  match (pairing.candidates function).map (candidateDivergences function structural runs) with
  | [] => .empty
  | found => ⟨SortedMap.empty.insert function found⟩

namespace Localisation

variable {function : String} {structural : StructuralMapping} {pairing : VariableMapping}
  {runs : List PairedRun}

/-- Nothing is found of other functions. -/
theorem candidates_ofRuns (f : String) :
    (ofRuns function structural pairing runs).candidates f =
      if f = function then
        (pairing.candidates function).map (candidateDivergences function structural runs)
      else [] := by
  unfold ofRuns candidates
  generalize (pairing.candidates function).map _ = all
  cases all with
  | nil =>
    rw [ite_self]
    rfl
  | cons first others =>
    dsimp only
    split
    · rename_i same
      rw [same, SortedMap.find?_insert_self, Option.getD_some]
    · rename_i other
      rw [SortedMap.find?_insert_of_ne other]
      rfl

theorem entries_ofRuns :
    (ofRuns function structural pairing runs).functions.entries =
      match pairing.candidates function with
      | [] => []
      | bs => [(function, bs.map (candidateDivergences function structural runs))] := by
  unfold ofRuns
  cases pairing.candidates function <;> rfl

/-- The reference has to have the function, and every run has to come to a trace. -/
def afterRuns (reference : Program) (function : String) (structural : StructuralMapping)
    (pairing : VariableMapping) (ran : Except RuntimeError (List PairedRun)) :
    Except Failure Localisation :=
  match reference.function function with
  | .error e => .error (.model e)
  | .ok _ =>
    match ran with
    | .error e => .error (.runtime e)
    | .ok runs => .ok (ofRuns function structural pairing runs)

/-- Nothing else can make localisation fail. -/
theorem afterRuns_eq_ok {reference : Program} {ran : Except RuntimeError (List PairedRun)}
    {l : Localisation} :
    afterRuns reference function structural pairing ran = .ok l ↔
      (∃ g, reference.function? function = some g) ∧
        ∃ runs, ran = .ok runs ∧ l = ofRuns function structural pairing runs := by
  unfold afterRuns Program.function
  cases reference.function? function with
  | none => simp
  | some g =>
    cases ran with
    | error e => simp
    | ok runs => simp [eq_comm]

end Localisation

inductive Visit.Shows (f : String) (mapping : StructuralMapping) (watched : List Watched)
    (v : Visit) : Divergence → Prop where
  | unmatched (cause : Unmatched) (nowhere : mapping.matching? f v.loc = none) :
      Shows f mapping watched v ⟨.unmatched cause, v.loc, none, none⟩
  | missing {loc : Loc} (matched : mapping.matching? f v.loc = some loc) :
      Shows f mapping watched v ⟨.visits, v.loc, some loc, none⟩
  | values {loc : Loc} (matched : mapping.matching? f v.loc = some loc) (other : Visit) :
      Shows f mapping watched v
        ⟨.values (differing watched v.memory other.memory), v.loc, some loc, none⟩

/-- By induction on the visits, with any cursor. -/
theorem exists_shows_of_mem {f : String} {mapping : StructuralMapping} {watched : List Watched}
    {visits : List Visit} {cursor : Cursor} {d : Divergence}
    (h : d ∈ compareVisits f mapping watched visits cursor) :
    ∃ v ∈ visits, v.Shows f mapping watched d := by
  induction visits generalizing cursor with
  | nil => cases h
  | cons visit visits ih =>
    have here : ∀ {d'}, visit.Shows f mapping watched d' → d = d' →
        ∃ v ∈ visit :: visits, v.Shows f mapping watched d := by
      rintro _ shows rfl
      exact ⟨visit, List.mem_cons_self, shows⟩
    have later : ∀ {cursor}, d ∈ compareVisits f mapping watched visits cursor →
        ∃ v ∈ visit :: visits, v.Shows f mapping watched d := by
      intro cursor h
      obtain ⟨v, hv, shows⟩ := ih h
      exact ⟨v, List.mem_cons_of_mem _ hv, shows⟩
    rw [compareVisits] at h
    cases hloc : mapping.matching? f visit.loc with
    | none =>
      rw [hloc] at h
      exact here (.unmatched _ hloc) (List.mem_singleton.mp h)
    | some loc =>
      rw [hloc] at h
      dsimp only at h
      generalize cursor.next? f loc = next at h
      obtain ⟨found, cursor'⟩ := next
      cases found with
      | none => exact here (.missing hloc) (List.mem_singleton.mp h)
      | some other =>
        dsimp only at h
        cases hvalues : differing watched visit.memory other.memory with
        | nil =>
          rw [hvalues] at h
          exact later h
        | cons first rest =>
          rw [hvalues] at h
          rcases List.mem_cons.mp h with rfl | h
          · exact here (.values hloc other) (by rw [hvalues])
          · exact later h

/-- All that is found of a candidate, some run of the reference shows. -/
theorem exists_shows_of_candidate {function : String} {structural : StructuralMapping}
    {runs : List PairedRun} {b : Bijection} {d : Divergence}
    (h : d ∈ (candidateDivergences function structural runs b).divergences) :
    ∃ r ∈ runs, ∃ v ∈ r.reference.visitsIn function, ∃ found,
      v.Shows function structural b.watched found ∧ d = { found with input := some r.input } := by
  obtain ⟨r, hr, h⟩ := List.mem_flatMap.mp h
  obtain ⟨found, hfound, rfl⟩ := List.mem_map.mp h
  obtain ⟨v, hv, shows⟩ := exists_shows_of_mem hfound
  exact ⟨r, hr, v, hv, found, shows, rfl⟩

def pairRun (reference submission : Program) (limits : Limits) (input : RunInput) :
    Except RuntimeError PairedRun := do
  let expected ← (reference.execute limits input).1
  let found ← (submission.execute limits input).1
  return ⟨input, expected, found⟩

/-- An input, and the clocks that the runs of the two programs on it watch. -/
structure TimedInput where
  input : RunInput
  reference : Clock
  submission : Clock

def TimedInput.untimed (input : RunInput) : TimedInput := ⟨input, Clock.never, Clock.never⟩

def pairRunBy (reference submission : Program) (limits : Limits) (timed : TimedInput) :
    Except RuntimeError PairedRun := do
  let expected ← reference.executeBy timed.reference limits timed.input
  let found ← submission.executeBy timed.submission limits timed.input
  return ⟨timed.input, expected, found⟩

def localiseBy (reference submission : Program) (limits : Limits) (inputs : List TimedInput)
    (function : String) (structural : StructuralMapping) (pairing : VariableMapping) :
    Except Failure Localisation :=
  Localisation.afterRuns reference function structural pairing
    (inputs.mapM (pairRunBy reference submission limits))

section Runs

variable {reference submission : Program} {limits : Limits}

theorem pairRun_eq_ok {input : RunInput} {r : PairedRun} :
    pairRun reference submission limits input = .ok r ↔
      r.input = input ∧ (reference.execute limits input).1 = .ok r.reference ∧
        (submission.execute limits input).1 = .ok r.submission := by
  unfold pairRun
  simp only [Except.bind_eq_ok]
  constructor
  · rintro ⟨expected, ran, found, ran', same⟩
    cases same
    exact ⟨rfl, ran, ran'⟩
  · rintro ⟨rfl, ran, ran'⟩
    exact ⟨_, ran, _, ran', rfl⟩

/-- A clock only makes the budgets of the two runs smaller. -/
theorem execute_of_pairRunBy {timed : TimedInput} {r : PairedRun}
    (h : pairRunBy reference submission limits timed = .ok r) :
    ∃ steps steps', (reference.execute { limits with steps } timed.input).1 = .ok r.reference ∧
      (submission.execute { limits with steps := steps' } timed.input).1 = .ok r.submission := by
  obtain ⟨expected, ran, h⟩ := Except.bind_eq_ok.mp h
  obtain ⟨found, ran', h⟩ := Except.bind_eq_ok.mp h
  cases h
  rw [executeBy_eq] at ran ran'
  exact ⟨_, _, ran, ran'⟩

theorem runPairs_eq (inputs : List RunInput) :
    (runPairs reference submission limits inputs).1 =
      inputs.mapM (pairRun reference submission limits) := by
  induction inputs with
  | nil => rfl
  | cons input inputs ih =>
    rw [List.mapM_cons, ← ih, pairRun, runPairs]
    obtain ⟨expected, before⟩ := reference.execute limits input
    cases expected with
    | error e => rfl
    | ok expected =>
      obtain ⟨found, behind⟩ := submission.execute limits input
      cases found with
      | error e => rfl
      | ok found =>
        obtain ⟨rest, notices⟩ := runPairs reference submission limits inputs
        cases rest <;> rfl

/-- The runs come first, and nothing of them but their traces is used. -/
theorem localise_eq (inputs : List RunInput) (function : String) (structural : StructuralMapping)
    (pairing : VariableMapping) :
    (localise reference submission limits inputs function structural pairing).1 =
      Localisation.afterRuns reference function structural pairing
        (inputs.mapM (pairRun reference submission limits)) := by
  rw [← runPairs_eq]
  unfold localise Localisation.afterRuns
  cases reference.function function with
  | error e => rfl
  | ok g =>
    dsimp only
    obtain ⟨runs, notices⟩ := runPairs reference submission limits inputs
    cases runs with
    | error e => rfl
    | ok runs =>
      dsimp only [Localisation.ofRuns]
      generalize (pairing.candidates function).map _ = all
      cases all <;> rfl

/-- Localisation as it is, where no run watches a clock. -/
theorem localiseBy_untimed (inputs : List RunInput) (function : String)
    (structural : StructuralMapping) (pairing : VariableMapping) :
    localiseBy reference submission limits (inputs.map .untimed) function structural pairing =
      (localise reference submission limits inputs function structural pairing).1 := by
  have each : ∀ input, pairRunBy reference submission limits (.untimed input) =
      pairRun reference submission limits input := by
    intro input
    unfold pairRunBy pairRun TimedInput.untimed
    rw [executeBy_never, executeBy_never]
  rw [localise_eq, localiseBy, List.mapM_map]
  simp only [Function.comp_def, each]

end Runs

end TraceRepair
